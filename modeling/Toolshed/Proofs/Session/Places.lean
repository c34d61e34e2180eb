import Toolshed.Proofs.Session.Closure
import Toolshed.Proofs.Token.Lossless
import Toolshed.Web

namespace Toolshed

/-!
# Where reports are

A report names a module that the entry reaches and a range of its text.
-/

def Reading.Has (range : Range) : Reading → Prop
  | .text written => range.Within written.toList
  | _ => range = .point .origin

theorem Diagnostic.resolve_fits {diagnostic : Diagnostic} {locations : Locations} {range : Range}
    {fits : Range → Prop} (nodes : ∀ range ∈ locations, fits range)
    (place : diagnostic.place.Fits fits) (resolved : diagnostic.resolve locations = .ok range) :
    fits range := by
  unfold resolve at resolved
  split at resolved
  · cases resolved
  · split at resolved
    · rename_i isPlace
      obtain rfl := Except.ok.inj resolved
      rwa [isPlace] at place
    · split at resolved
      · rename_i found
        obtain rfl := Except.ok.inj resolved
        exact nodes _ (Array.mem_of_getElem? found)
      · cases resolved

structure Library.Places (library : Library) (entry : ModulePath) (report : Report) : Prop where
  reached : library.Reaches entry report.modulePath
  range : (library.read report.modulePath).Has report.range

structure Session.Shows (library : Library) (entry : ModulePath) (session : Session) : Prop where
  reports : ∀ report ∈ session.reports, library.Places entry report
  tokens :
    entry ∈ session.asked →
      ∀ text, library.read entry = .text text → session.tokens = some (Token.scan text).tokens

namespace Session.Shows

variable {library : Library} {path entry : ModulePath} {session : Session} {text : String}

theorem asking (shows : session.Shows library entry)
    (noText : ∀ text, path = entry → library.read path ≠ .text text) :
    (session.asking path).Shows library entry := by
  refine ⟨shows.reports, fun isAsked text isText => ?_⟩
  rcases List.mem_append.mp isAsked with earlier | now
  · exact shows.tokens earlier text isText
  · obtain rfl := List.mem_singleton.mp now
    exact (noText text rfl isText).elim

theorem noting (reports : ∀ report ∈ session.reports, library.Places entry report)
    (isText : library.read entry = .text text) :
    (session.noting (Token.scan text).tokens).Shows library entry := by
  refine ⟨reports, fun _ other isOther => ?_⟩
  obtain rfl := Reading.text.inj (isText.symm.trans isOther)
  rfl

end Session.Shows

namespace Compile

open Session

variable {before : Session} {compiler : Compiler} {context : Context} {library : Library}
variable {path entry : ModulePath} {text : String} {require : ModulePath → Compile Required}

theorem Ensures.and {α : Type} {step : Compile α} {first second : α → Session → Prop}
    (one : Ensures step before first) (other : Ensures step before second) :
    Ensures step before fun answer after => first answer after ∧ second answer after :=
  fun answer after isRun => ⟨one answer after isRun, other answer after isRun⟩

def Showing (library : Library) (entry : ModulePath)
    (require : ModulePath → Compile Required) : Prop :=
  ∀ session path,
    library.Reaches entry path →
    session.Shows library entry →
    Ensures (require path) session fun _ after => after.Shows library entry

theorem shows_report {locations : Locations} {diagnostics : List Diagnostic}
    (reached : library.Reaches entry path)
    (nodes : ∀ range ∈ locations, (library.read path).Has range)
    (places :
      ∀ diagnostic ∈ diagnostics,
        diagnostic.place.Fits fun range => (library.read path).Has range)
    (shows : before.Shows library entry) :
    Ensures (report path locations diagnostics) before fun _ after =>
      after.Shows library entry := by
  induction diagnostics generalizing before with
  | nil => exact .pure shows
  | cons first rest ih =>
    obtain ⟨placesFirst, placesRest⟩ := List.forall_mem_cons.mp places
    refine .bind ensures_ofDiagnostic ?_
    rintro shown _ ⟨rfl, range, resolved, rfl⟩
    refine .bind (.changing ?_) fun _ _ showsShown =>
      ih placesRest showsShown
    refine ⟨List.forall_mem_append.mpr ⟨shows.reports, ?_⟩, shows.tokens⟩
    exact List.forall_mem_singleton.mpr
      ⟨reached, Diagnostic.resolve_fits nodes placesFirst resolved⟩

section

variable (showing : Showing library entry require)
include showing

theorem shows_requireAll {imports : List Import}
    (reached : ∀ imported ∈ imports, library.Reaches entry imported.path)
    (shows : before.Shows library entry) :
    Ensures (requireAll require imports) before fun summary after =>
      after.Shows library entry ∧
        ∀ diagnostic ∈ summary.diagnostics, ∃ id, diagnostic.place = .node id := by
  induction imports generalizing before with
  | nil => exact .pure ⟨shows, by simp⟩
  | cons first rest ih =>
    obtain ⟨reachedFirst, reachedRest⟩ := List.forall_mem_cons.mp reached
    refine .bind (showing before first.path reachedFirst shows) fun required _ showsFirst =>
      Ensures.bind (ih reachedRest showsFirst) ?_
    rintro summary after ⟨showsRest, atNodes⟩
    split
    · exact .pure ⟨showsRest, atNodes⟩
    · refine .pure ⟨showsRest, List.forall_mem_append.mpr ⟨?_, atNodes⟩⟩
      intro diagnostic member
      obtain ⟨fault, _, rfl⟩ := List.mem_map.mp member
      exact ⟨first.id, rfl⟩

theorem shows_compileTree
    (reached : library.Reaches entry path) (isText : library.read path = .text text)
    (isTree : library.tree? path = some (SyntaxTree.parse (Token.scan text).tokens).tree)
    (shows : before.Shows library entry) :
    Ensures (compileTree compiler context require path
        (SyntaxTree.parse (Token.scan text).tokens).tree) before fun _ after =>
      after.Shows library entry := by
  have nodes : ∀ range ∈ (SyntaxTree.parse (Token.scan text).tokens).tree.arena.locations,
      (library.read path).Has range := by
    rw [isText]
    exact (SyntaxTree.within_parse text).1
  have atNodes : ∀ {diagnostics : List Diagnostic} {session : Session},
      (∀ diagnostic ∈ diagnostics, ∃ id, diagnostic.place = .node id) →
      session.Shows library entry →
      Ensures (report path (SyntaxTree.parse (Token.scan text).tokens).tree.arena.locations
        diagnostics) session fun _ after => after.Shows library entry := by
    intro diagnostics session places shows
    refine shows_report reached nodes (fun diagnostic member => ?_) shows
    obtain ⟨id, isPlace⟩ := places diagnostic member
    rw [isPlace]
    trivial
  have imported : ∀ imported ∈ (SyntaxTree.parse (Token.scan text).tokens).tree.imports,
      library.Reaches entry imported.path := fun imported member =>
    reached.tail ((Library.imports_iff isTree).mpr ⟨imported, member, rfl⟩)
  refine .bind (shows_requireAll showing imported shows) ?_
  rintro summary _ ⟨showsImports, importNodes⟩
  refine .bind (atNodes importNodes showsImports) fun _ reported showsReported => ?_
  let checked := (SyntaxTree.parse (Token.scan text).tokens).tree.check path context
    reported.registry summary.interfaces
  have checks : Ensures (check context path (SyntaxTree.parse (Token.scan text).tokens).tree
      summary.interfaces) reported fun answer after =>
        checked = answer ∧ after.Shows library entry := by
    rintro _ _ ⟨⟩
    exact ⟨rfl, showsReported.reports, showsReported.tokens⟩
  refine .bind checks ?_
  rintro _ _ ⟨rfl, showsChecked⟩
  have checkNodes : ∀ diagnostic ∈ checked.diagnostics, ∃ id, diagnostic.place = .node id := by
    intro diagnostic member
    have atNode := (Library.proper_of_tree? isTree).check_atNode diagnostic member
    exact atNode.place.imp fun _ => And.left
  refine .bind (atNodes checkNodes showsChecked) fun _ _ showsAll => ?_
  split
  · refine .bind ensures_generate ?_
    rintro _ _ ⟨_, _, rfl⟩
    exact .pure ⟨showsAll.reports, showsAll.tokens⟩
  · exact .pure showsAll

theorem shows_compileScan
    (reached : library.Reaches entry path) (isText : library.read path = .text text)
    (shows : before.Shows library entry) :
    Ensures (compileScan compiler context require path (Token.scan text)) before fun _ after =>
      after.Shows library entry := by
  unfold compileScan
  dsimp only
  split
  · rename_i isRead
    refine shows_compileTree showing reached isText ?_ shows
    simp only [Library.tree?, isText]
    rw [if_pos isRead]
  · have within := SyntaxTree.within_parse text
    refine .bind (shows_report reached ?_ ?_ shows) fun _ _ shows => .pure shows
    · rw [isText]
      exact within.1
    · rw [isText]
      exact within.2

theorem shows_compileText
    (reached : library.Reaches entry path) (isText : library.read path = .text text)
    (reports : ∀ report ∈ before.reports, library.Places entry report)
    (shows : path ≠ entry → before.Shows library entry) :
    Ensures (compileText compiler context require entry path text) before fun _ after =>
      after.Shows library entry := by
  unfold compileText
  split
  · rename_i isEntry
    subst isEntry
    exact .bind (.changing (.noting reports isText)) fun _ _ =>
      shows_compileScan showing reached isText
  · rename_i notEntry
    exact shows_compileScan showing reached isText (shows notEntry)

end

theorem showing_require (compiler : Compiler) (library : Library) (context : Context)
    (entry : ModulePath) (fuel : Nat) :
    Showing library entry (Compile.require compiler library context entry fuel) := by
  induction fuel with
  | zero => exact fun _ _ _ _ => .throwing
  | succ fuel ih =>
    intro session path reached shows
    refine .bind ensures_get ?_
    rintro _ _ ⟨rfl, rfl⟩
    split
    · exact .pure shows
    · split
      · exact .pure shows
      · have asks : Ensures (ask library path) session fun reading after =>
            library.read path = reading ∧ session.asking path = after := by
          rintro _ _ ⟨⟩
          exact ⟨rfl, rfl⟩
        refine .bind asks ?_
        rintro reading _ ⟨isRead, rfl⟩
        cases reading with
        | absent => exact .pure (shows.asking (by simp [isRead]))
        | unreadable failure => exact .pure (shows.asking (by simp [isRead]))
        | text text =>
          have enters : Ensures (modify fun session =>
              { session with inProgress := session.inProgress ++ [path] }) (session.asking path)
                fun _ after => (session.asking path).entering path = after :=
            .changing rfl
          refine .bind enters ?_
          rintro _ _ rfl
          refine .bind (shows_compileText ih reached isRead shows.reports
            fun notEntry => ?_) fun state _ showsText => ?_
          · have asked : (session.asking path).Shows library entry :=
              shows.asking fun _ isEntry => (notEntry isEntry).elim
            exact ⟨asked.reports, asked.tokens⟩
          · refine .bind (.changing ?_) fun _ _ shows => .pure shows
            exact ⟨showsText.reports, showsText.tokens⟩

theorem shows_compileEntry (context : Context) (registry : Registry) :
    Ensures (compileEntry compiler library context entry) (.fresh registry) fun _ after =>
      after.Shows library entry := by
  have shows : (fresh registry).Shows library entry := ⟨by simp [fresh], by simp [fresh]⟩
  have expects : (fresh registry).Expects library entry entry := ⟨.refl, by simp [fresh]⟩
  have resolves := resolves_require compiler library context registry entry (library.capacity + 1)
    (.fresh registry) [] entry (resolved_fresh library context registry entry) expects
  refine .bind (resolves.and (showing_require compiler library context entry _ _ entry .refl
    shows)) ?_
  rintro required session ⟨⟨checks, _, _, answers⟩, shows⟩
  unfold reportEntry
  split
  · exact .throwing
  · rename_i notCycle
    refine shows_report .refl (by simp) (fun diagnostic member => ?_) shows
    obtain ⟨fault, isFault, rfl⟩ := List.mem_map.mp member
    -- The fault of an entry that is in no cycle is that it cannot be read.
    have isRead : (library.read entry).Has (.point .origin) := by
      cases required with
      | ready interface => simp [Required.fault?] at isFault
      | failed => simp [Required.fault?] at isFault
      | cycle chain => exact (notCycle chain rfl).elim
      | missing =>
        have absent : library.read entry = .absent := answers
        rw [absent]
        rfl
      | unreadable failure =>
        have unreadable : library.read entry = .unreadable failure := answers
        rw [unreadable]
        rfl
    exact isRead

end Compile

namespace Compiler

variable {compiler : Compiler} {library : Library}

theorem exists_shows (builtin : compiler.linkage.Builtin) (bounded : library.Bounded)
    (entry : ModulePath) :
    ∃ session : Session,
      compiler.compileModule library entry = .ok session.compilation ∧
        entry ∈ session.asked ∧ session.Shows library entry := by
  obtain ⟨session, checks, required, reports, isRun, finished, _⟩ :=
    exists_finished builtin bounded entry
  exact ⟨_, compileModule_of_run isRun, finished.mem_asked_iff.mpr .refl,
    Compile.shows_compileEntry _ _ _ _ isRun⟩

/--
Every report of a compilation names a module that the entry reaches. If that
module has a text, the range of the report runs between two places of it, from
the first place of the text on and up to its last one; if it has none, the range
is the first place.
-/
theorem compileModule_reports_in_text
    (builtin : compiler.linkage.Builtin)
    (bounded : library.Bounded)
    (entry : ModulePath) :
    ∃ compilation,
      compiler.compileModule library entry = .ok compilation ∧
        ∀ report ∈ compilation.reports,
          library.Reaches entry report.modulePath ∧
            (∀ text,
              library.read report.modulePath = .text text →
              Position.origin ≤ report.range.start ∧
                report.range.start ≤ report.range.stop ∧
                report.range.stop ≤ Position.origin.after text.toList ∧
                report.range.start.In text.toList ∧
                report.range.stop.In text.toList) ∧
            ((∀ text, library.read report.modulePath ≠ .text text) →
              report.range = .point .origin) := by
  obtain ⟨session, compiled, _, shows⟩ := exists_shows builtin bounded entry
  refine ⟨_, compiled, fun report member => ?_⟩
  obtain ⟨reached, isRange⟩ := shows.reports report member
  refine ⟨reached, fun text isText => ?_, fun noText => ?_⟩
  · rw [isText] at isRange
    have within : report.range.Within text.toList := isRange
    exact ⟨within.bounds.1, within.ordered, within.bounds.2, within.start, within.stop⟩
  · cases isRead : library.read report.modulePath with
    | text text => exact (noText text isRead).elim
    | absent => rwa [isRead] at isRange
    | unreadable failure => rwa [isRead] at isRange

theorem compileModule_reports_in_text_imported :
    let library := Library.ofTexts
      [(ModulePath.parse "top", "import gone\nimport low"), (ModulePath.parse "low", "let x =\n")]
    (Target.linkage .commonJs).Builtin ∧
      library.Bounded ∧
      ∃ compilation,
        (Compiler.mk .browser .simple (Target.linkage .commonJs)).compileModule library
            (ModulePath.parse "top") = .ok compilation ∧
          compilation.reports.map (fun report => (report.modulePath, report.range)) =
            [(ModulePath.parse "low", ⟨⟨2, 1⟩, ⟨2, 1⟩⟩),
              (ModulePath.parse "top", ⟨⟨1, 1⟩, ⟨1, 12⟩⟩)] ∧
          ∀ report ∈ compilation.reports,
            library.Reaches (ModulePath.parse "top") report.modulePath := by
  intro library
  have builtin := Target.builtin_linkage .commonJs
  have bounded : library.Bounded := Library.bounded_ofTexts _
  obtain ⟨compilation, compiled, places⟩ :=
    @compileModule_reports_in_text ⟨.browser, .simple, Target.linkage .commonJs⟩ _ builtin bounded
      (ModulePath.parse "top")
  have result : (((Compiler.mk .browser .simple (Target.linkage .commonJs)).compileModule library
      (ModulePath.parse "top")).toOption.map fun compilation =>
        compilation.reports.map fun report => (report.modulePath, report.range)) =
      some [(ModulePath.parse "low", ⟨⟨2, 1⟩, ⟨2, 1⟩⟩),
        (ModulePath.parse "top", ⟨⟨1, 1⟩, ⟨1, 12⟩⟩)] := by
    decide +kernel
  rw [compiled] at result
  exact ⟨builtin, bounded, compilation, compiled, Option.some.inj result,
    fun report member => (places report member).1⟩

/--
The tokens of a text make it up without a gap, each at its place, and every fault
of scanning lies in one of them. A compilation of the text has these tokens, and
so has the answer to a page, whether or not anything is wrong.
-/
theorem compileSource_lossless (builtin : compiler.linkage.Builtin) (text : String) :
    (Token.scan text).tokens.flatMap (fun token => token.raw.toList) = text.toList ∧
      Token.Contiguous .origin (Token.scan text).tokens ∧
      (∀ diagnostic ∈ (Token.scan text).diagnostics,
        ∃ token ∈ (Token.scan text).tokens, token.Covers diagnostic) ∧
      (∃ compilation,
        compiler.compileSource text = .ok compilation ∧
          compilation.tokens = (Token.scan text).tokens) ∧
      ∀ level,
        ∃ fields,
          Web.answerAt text level =
            .object (("tokens", .array ((Token.scan text).tokens.map Web.token)) :: fields) := by
  have tokens : ∀ {compiler : Compiler}, compiler.linkage.Builtin →
      ∃ compilation,
        compiler.compileSource text = .ok compilation ∧
          compilation.tokens = (Token.scan text).tokens := by
    intro compiler builtin
    have bounded : (Library.layered [.single snippet text, .bundled]).Bounded := by
      refine Library.bounded_layered
        (List.forall_mem_cons.mpr ⟨?_, List.forall_mem_singleton.mpr ?_⟩)
      · exact Library.bounded_ofTexts _
      · exact Library.bounded_ofTexts _
    obtain ⟨session, compiled, isAsked, shows⟩ := exists_shows builtin bounded snippet
    have isText : (Library.layered [.single snippet text, .bundled]).read snippet = .text text := by
      simp [Library.layered, Library.readFirst, Library.single, Library.ofTexts]
    refine ⟨_, compiled, ?_⟩
    simp [Session.compilation, shows.tokens isAsked text isText]
  refine ⟨Token.flatMap_raw_scanFrom .origin text.toList,
    Token.contiguous_scanFrom .origin text.toList, Token.covers_scanFrom .origin text.toList,
    tokens builtin, fun level => ?_⟩
  obtain ⟨compilation, compiled, same⟩ :=
    @tokens (Web.compiler level) (Target.builtin_linkage .browser)
  unfold Web.answerAt
  rw [compiled, ← same]
  exact ⟨_, rfl⟩

theorem compileSource_lossless_open :
    (Target.linkage .commonJs).Builtin ∧
      (Token.scan "\"a\n").tokens.map Token.raw = ["\"a", "\n", ""] ∧
      ∃ compilation,
        (Compiler.mk .browser .simple (Target.linkage .commonJs)).compileSource "\"a\n" =
            .ok compilation ∧
          compilation.tokens = (Token.scan "\"a\n").tokens := by
  have builtin := Target.builtin_linkage .commonJs
  have lossless :=
    @compileSource_lossless ⟨.browser, .simple, Target.linkage .commonJs⟩ builtin "\"a\n"
  exact ⟨builtin, by decide +kernel, lossless.2.2.2.1⟩

end Compiler

end Toolshed
