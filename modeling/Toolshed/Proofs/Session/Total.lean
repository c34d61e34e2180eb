import Toolshed.Proofs.Library.Bounded
import Toolshed.Proofs.Lowering.Total
import Toolshed.Proofs.Token.Scan
import Toolshed.Proofs.Typing.CheckedModule
import Toolshed.Proofs.Typing.Profile
import Toolshed.Session

namespace Toolshed

/-!
# Compilations never break down

A session goes through whatever the texts of the modules are.
-/

structure Session.Fit (library : Library) (session : Session) : Prop where
  registry : session.registry.Sound
  nodup : session.inProgress.Nodup
  texts : ∀ path ∈ session.inProgress, (library.read path).isText = true

structure Session.Keeps (before after : Session) : Prop where
  registry : before.registry.Sound → after.registry.Sound
  inProgress : after.inProgress = before.inProgress

namespace Session

variable {library : Library} {before middle after : Session}

theorem Keeps.refl (session : Session) : session.Keeps session :=
  ⟨id, rfl⟩

theorem Keeps.trans (first : before.Keeps middle) (second : middle.Keeps after) :
    before.Keeps after :=
  ⟨second.registry ∘ first.registry, second.inProgress.trans first.inProgress⟩

theorem Keeps.fit (keeps : before.Keeps after) (fit : before.Fit library) : after.Fit library :=
  ⟨keeps.registry fit.registry, keeps.inProgress ▸ fit.nodup, keeps.inProgress ▸ fit.texts⟩

theorem Fit.length_le (fit : before.Fit library) (bounded : library.Bounded) :
    before.inProgress.length ≤ library.capacity :=
  bounded before.inProgress fit.nodup fit.texts

theorem Fit.enter {path : ModulePath} (fit : before.Fit library)
    (isNew : path ∉ before.inProgress) (isText : (library.read path).isText = true) :
    Fit library { before with inProgress := before.inProgress ++ [path] } := by
  refine ⟨fit.registry, ?_, ?_⟩
  · exact List.nodup_append.mpr ⟨fit.nodup, List.nodup_singleton path, by
      rintro first member _ isPath rfl
      exact isNew (List.mem_singleton.mp isPath ▸ member)⟩
  · intro other member
    rcases List.mem_append.mp member with old | new
    · exact fit.texts other old
    · exact List.mem_singleton.mp new ▸ isText

end Session

theorem SyntaxTree.Proper.exists_lower_check {tree : SyntaxTree} {allowed : String → Prop}
    {linkage : Linkage} {path : ModulePath} {context : Context} {registry : Registry}
    {interfaces : Interfaces} (proper : tree.Proper allowed) (builtin : linkage.Builtin)
    (level : Level) (sound : registry.Sound)
    (success : (tree.check path context registry interfaces).success = true) :
    ∃ script,
      tree.lower linkage level path (tree.check path context registry interfaces).resolutions =
          .ok script ∧
        (tree.sourceFile.declarations ≠ [] → Blank.allBlank (level.render script) = false) :=
  SyntaxTree.exists_lower builtin level path proper.sourceFile_clean
    (proper.check_typed sound success)

namespace Compile

variable {α β : Type} {before : Session} {compiler : Compiler} {context : Context}
variable {library : Library} {path entry : ModulePath}
variable {locations : Locations} {required : Required} {tree : SyntaxTree}

def Runs (step : Compile α) (before : Session) (post : α → Session → Prop) : Prop :=
  ∃ answer after, step.run before = .ok (answer, after) ∧ post answer after

namespace Runs

theorem pure {post : α → Session → Prop} {answer : α} (holds : post answer before) :
    Runs (Pure.pure answer) before post :=
  ⟨answer, before, rfl, holds⟩

variable {step : Compile α}

theorem bind {next : α → Compile β} {middle : α → Session → Prop} {post : β → Session → Prop}
    (first : Runs step before middle)
    (rest : ∀ answer session, middle answer session → Runs (next answer) session post) :
    Runs (step >>= next) before post := by
  obtain ⟨answer, session, isRun, holds⟩ := first
  obtain ⟨last, after, isRest, post⟩ := rest answer session holds
  refine ⟨last, after, ?_, post⟩
  show (step.run before >>= fun result => (next result.1).run result.2) = _
  rw [isRun]
  exact isRest

theorem changing {change : Session → Session} {post : PUnit → Session → Prop}
    (holds : post ⟨⟩ (change before)) : Runs (modify change) before post :=
  ⟨⟨⟩, change before, rfl, holds⟩

theorem imp {post weaker : α → Session → Prop} (runs : Runs step before post)
    (implies : ∀ answer after, post answer after → weaker answer after) :
    Runs step before weaker := by
  obtain ⟨answer, after, isRun, holds⟩ := runs
  exact ⟨answer, after, isRun, implies answer after holds⟩

end Runs

theorem exists_ofDiagnostic {diagnostic : Diagnostic}
    (located : diagnostic.Located locations.size) :
    ∃ report, Report.ofDiagnostic path locations diagnostic = .ok report := by
  obtain ⟨range, found⟩ := located.resolve_eq_ok
  exact ⟨⟨diagnostic.fault.kind, path, diagnostic.fault.description, range⟩, by
    simp [Report.ofDiagnostic, found, bind, Except.bind, Pure.pure, Except.pure]⟩

theorem runs_report {diagnostics : List Diagnostic}
    (located : ∀ diagnostic ∈ diagnostics, diagnostic.Located locations.size) :
    Runs (report path locations diagnostics) before fun _ => before.Keeps := by
  induction diagnostics generalizing before with
  | nil => exact .pure (.refl before)
  | cons first rest ih =>
    obtain ⟨locatedFirst, locatedRest⟩ := List.forall_mem_cons.mp located
    obtain ⟨shown, isShown⟩ := exists_ofDiagnostic locatedFirst
    have lifted : Runs (Report.ofDiagnostic path locations first : Except Breakdown Report)
        before fun _ after => before = after := by
      rw [isShown]
      exact ⟨shown, before, rfl, rfl⟩
    refine .bind lifted ?_
    rintro entry _ rfl
    have noted : Runs (modify fun session =>
        { session with reports := session.reports ++ [entry] }) before fun _ => before.Keeps :=
      .changing ⟨id, rfl⟩
    refine .bind noted fun _ _ keeps => ?_
    exact (ih locatedRest).imp fun _ _ => keeps.trans

structure FromImports (imports : List Import) (diagnostic : Diagnostic) : Prop where
  external : diagnostic.fault.kind ≠ .internal
  place : ∃ entry ∈ imports, diagnostic.place = .node entry.id

theorem fault?_external {fault : Fault} (isFault : required.fault? path = some fault) :
    fault.kind ≠ .internal := by
  cases required <;> simp only [Required.fault?, Option.some.injEq, reduceCtorEq] at isFault
  all_goals
    obtain rfl := isFault
    simp [Fault.kind]

variable {load : ModulePath → Compile Required}

/-- What a session has is kept by every module that is required from then on. -/
def Keeping (before : Session) (load : ModulePath → Compile Required) : Prop :=
  ∀ session path, before.Keeps session → Runs (load path) session fun _ => session.Keeps

theorem runs_requireAll {imports : List Import}
    (runs : Keeping before load) :
    Runs (requireAll load imports) before fun summary after =>
      before.Keeps after ∧
        ∀ diagnostic ∈ summary.diagnostics, FromImports imports diagnostic := by
  induction imports generalizing before with
  | nil => exact .pure ⟨.refl before, by simp⟩
  | cons first rest ih =>
    refine .bind (runs before first.path (.refl before)) ?_
    intro required middle keepsFirst
    refine .bind (ih fun session path keeps =>
      runs session path (keepsFirst.trans keeps)) ?_
    rintro summary after ⟨keepsRest, fromRest⟩
    have fromImports : ∀ diagnostic ∈ summary.diagnostics, FromImports (first :: rest) diagnostic :=
      fun diagnostic member =>
        have ⟨external, entry, isEntry, place⟩ := fromRest diagnostic member
        ⟨external, entry, List.mem_cons_of_mem first isEntry, place⟩
    have fromFirst : ∀ fault, required.fault? first.path = some fault →
        FromImports (first :: rest) ⟨fault, .node first.id⟩ :=
      fun fault isFault => ⟨fault?_external isFault, first, List.mem_cons_self, rfl⟩
    split
    · exact .pure ⟨keepsFirst.trans keepsRest, fromImports⟩
    · refine .pure ⟨keepsFirst.trans keepsRest, fun diagnostic member => ?_⟩
      rcases List.mem_append.mp member with isFirst | isRest
      · obtain ⟨fault, isFault, rfl⟩ := List.mem_map.mp isFirst
        exact fromFirst fault (Option.mem_toList.mp isFault)
      · exact fromImports diagnostic isRest

theorem runs_generate {resolutions : Table Resolution}
    (lowers :
      ∃ script,
        tree.lower compiler.linkage compiler.level path resolutions = .ok script ∧
          (tree.sourceFile.declarations ≠ [] →
            Blank.allBlank (compiler.level.render script) = false)) :
    Runs (generate compiler path tree resolutions) before fun _ => before.Keeps := by
  obtain ⟨script, isLowered, visible⟩ := lowers
  unfold generate
  rw [isLowered]
  dsimp only
  rw [if_neg]
  · exact .changing ⟨id, rfl⟩
  · intro isBlank
    simp only [Bool.and_eq_true, Bool.not_eq_true', List.isEmpty_eq_false_iff] at isBlank
    rw [visible isBlank.2] at isBlank
    simp at isBlank

section

variable (builtin : compiler.linkage.Builtin)
include builtin

theorem runs_compileTree {allowed : String → Prop}
    (proper : tree.Proper allowed)
    (sound : before.registry.Sound)
    (runs : Keeping before load) :
    Runs (compileTree compiler context load path tree) before fun _ => before.Keeps := by
  have importIds : ∀ entry ∈ tree.imports, entry.id < tree.arena.locations.size := by
    intro entry member
    obtain ⟨imports, declarations, found⟩ := proper.root
    refine proper.lt_size_of_mem_ids ?_
    simp only [SourceFile.ids, SyntaxTree.sourceFile, found, List.mem_append, List.mem_map]
    exact .inl ⟨entry, member, rfl⟩
  refine .bind (runs_requireAll runs) ?_
  rintro summary required ⟨keepsRequired, fromImports⟩
  have located : ∀ diagnostic ∈ summary.diagnostics,
      diagnostic.Located tree.arena.locations.size := by
    intro diagnostic member
    obtain ⟨external, entry, isEntry, place⟩ := fromImports diagnostic member
    refine ⟨external, fun node same => ?_⟩
    obtain rfl := (Place.node.injEq _ _).mp (place.symm.trans same)
    exact importIds entry isEntry
  refine .bind (runs_report located) fun _ reported keepsReported => ?_
  have keeps := keepsRequired.trans keepsReported
  -- The check reads the registry that the session has now, and leaves its own.
  let checked := tree.check path context reported.registry summary.interfaces
  have checks : Runs (check context path tree summary.interfaces) reported fun answer after =>
      checked = answer ∧ reported.Keeps after :=
    ⟨checked, { reported with registry := checked.registry }, rfl, rfl, proper.check_sound, rfl⟩
  refine .bind checks ?_
  rintro _ after ⟨rfl, keepsChecked⟩
  refine .bind (runs_report proper.check_located) fun _ shown keepsShown => ?_
  have all := (keeps.trans keepsChecked).trans keepsShown
  split
  · have success := (Bool.and_eq_true_iff.mp ‹_›).2
    have lowers := proper.exists_lower_check builtin compiler.level (keeps.registry sound) success
    exact .bind (runs_generate lowers) fun _ _ keepsScript => .pure (all.trans keepsScript)
  · exact .pure all

theorem runs_compileScan (text : String) (sound : before.registry.Sound)
    (runs : Keeping before load) :
    Runs (compileScan compiler context load path (Token.scan text)) before
      fun _ => before.Keeps := by
  have names : Token.AllowedNames (fun _ => True) (Token.scan text).tokens := fun _ _ _ => trivial
  unfold compileScan
  dsimp only
  split
  · exact runs_compileTree builtin (SyntaxTree.parse_proper names) sound runs
  · refine .bind (runs_report fun diagnostic member => ?_) fun _ _ keeps => .pure keeps
    rcases List.mem_append.mp member with scanned | parsed
    · exact Token.scan_located text _ diagnostic scanned
    · exact SyntaxTree.parse_located _ diagnostic parsed

theorem runs_compileText (text : String) (sound : before.registry.Sound)
    (runs : Keeping before load) :
    Runs (compileText compiler context load entry path text) before fun _ => before.Keeps := by
  unfold compileText
  split
  · have noted : Runs (modify fun session =>
        { session with tokens := some (Token.scan text).tokens }) before fun _ => before.Keeps :=
      .changing ⟨id, rfl⟩
    refine .bind noted fun _ session keeps => ?_
    exact (runs_compileScan builtin text (keeps.registry sound) fun other path keepsOther =>
      runs other path (keeps.trans keepsOther)).imp fun _ _ => keeps.trans
  · exact runs_compileScan builtin text sound runs

theorem runs_compileModule (text : String) (sound : before.registry.Sound)
    (runs : Keeping { before with inProgress := before.inProgress ++ [path] } load) :
    Runs (compileModule compiler context load entry path text) before fun required after =>
      before.Keeps after ∧ ∀ chain, required ≠ .cycle chain := by
  let entered : Session := { before with inProgress := before.inProgress ++ [path] }
  have enters : Runs (modify fun session =>
      { session with inProgress := session.inProgress ++ [path] }) before fun _ after =>
        entered = after :=
    .changing rfl
  refine .bind enters ?_
  rintro _ _ rfl
  have compiles : Runs (compileText compiler context load entry path text) entered
      fun _ => entered.Keeps :=
    runs_compileText builtin text sound runs
  refine .bind compiles fun state compiled keeps => ?_
  have leaves : Runs (modify fun session =>
      { session with
        inProgress := session.inProgress.dropLast
        done := (path, state) :: session.done }) compiled fun _ => before.Keeps := by
    refine .changing ⟨keeps.registry, ?_⟩
    rw [keeps.inProgress]
    exact List.dropLast_concat
  refine .bind leaves fun _ after keepsAll => .pure ⟨keepsAll, ?_⟩
  cases state <;> simp [ModuleState.required]

theorem runs_require (bounded : library.Bounded) (fuel : Nat)
    (fit : before.Fit library) (enough : library.capacity + 1 ≤ fuel + before.inProgress.length) :
    Runs (require compiler library context entry fuel path) before fun required after =>
      before.Keeps after ∧
        ((∃ chain, required = .cycle chain) → path ∈ before.inProgress) := by
  induction fuel generalizing before path with
  | zero =>
    have tooLong := fit.length_le bounded
    omega
  | succ fuel ih =>
    have gets : Runs (get : Compile Session) before fun session after =>
        before = session ∧ before = after :=
      ⟨before, before, rfl, rfl, rfl⟩
    refine .bind gets ?_
    rintro _ _ ⟨rfl, rfl⟩
    split
    · rename_i state _
      refine .pure ⟨.refl before, ?_⟩
      cases state <;> simp [ModuleState.required]
    · split
      · rename_i inProgress
        exact .pure ⟨.refl before, fun _ => List.contains_iff_mem.mp inProgress⟩
      · rename_i notInProgress
        have isNew : path ∉ before.inProgress := by simpa using notInProgress
        have asks : Runs (ask library path) before fun reading after =>
            library.read path = reading ∧ before.Keeps after :=
          ⟨_, _, rfl, rfl, id, rfl⟩
        refine .bind asks ?_
        rintro reading asked ⟨isRead, keeps⟩
        cases reading with
        | absent => exact .pure ⟨keeps, by simp⟩
        | unreadable message => exact .pure ⟨keeps, by simp⟩
        | text text =>
          have isText : (library.read path).isText = true := by rw [isRead]; rfl
          have fitAsked := keeps.fit fit
          have entered := fitAsked.enter (keeps.inProgress ▸ isNew) isText
          -- The module is in progress while its imports are required.
          refine (runs_compileModule builtin text fitAsked.registry ?_).imp ?_
          · intro session other keepsEntered
            refine (ih (keepsEntered.fit entered) ?_).imp fun _ _ => And.left
            rw [keepsEntered.inProgress, keeps.inProgress, List.length_append,
              List.length_singleton]
            omega
          · rintro required after ⟨keepsAll, notCycle⟩
            exact ⟨keeps.trans keepsAll, fun ⟨chain, isCycle⟩ => (notCycle chain isCycle).elim⟩

end

theorem runs_reportEntry (notCycle : ∀ chain, required ≠ .cycle chain) :
    Runs (reportEntry entry required) before fun _ => before.Keeps := by
  have located : ∀ diagnostic ∈ (required.fault? entry).toList.map fun fault =>
      (⟨fault, .range (.point .origin)⟩ : Diagnostic), diagnostic.Located 0 := by
    intro diagnostic member
    obtain ⟨fault, isFault, rfl⟩ := List.mem_map.mp member
    exact ⟨fault?_external (Option.mem_toList.mp isFault), by simp⟩
  unfold reportEntry
  split
  · exact (notCycle _ rfl).elim
  · exact runs_report located

end Compile

namespace Compilation

theorem success_iff (compilation : Compilation) :
    compilation.success = true ↔ compilation.reports = [] :=
  List.isEmpty_iff

theorem isSome_javascript (compilation : Compilation) :
    compilation.javascript.isSome = compilation.success := by
  unfold javascript
  cases compilation.success <;> rfl

end Compilation

namespace Compiler

theorem exists_compileModule {compiler : Compiler} {library : Library}
    (builtin : compiler.linkage.Builtin) (bounded : library.Bounded) (entry : ModulePath) :
    ∃ compilation, compiler.compileModule library entry = .ok compilation := by
  have sound := compiler.profile.sound_seed Registry.sound_initial
  unfold compileModule
  cases seeded : compiler.profile.seed .initial with
  | mk registry context =>
    rw [seeded] at sound
    let start : Session :=
      { registry := registry
        done := []
        inProgress := []
        modules := []
        reports := []
        asked := []
        tokens := none }
    have fit : start.Fit library := ⟨sound, List.nodup_nil, by simp [start]⟩
    have runs : Compile.Runs (do
        let required ← Compile.require compiler library context entry (library.capacity + 1) entry
        Compile.reportEntry entry required) start fun _ _ => True := by
      refine Compile.Runs.bind (Compile.runs_require builtin bounded (library.capacity + 1) fit
        (Nat.le_add_right _ _)) ?_
      rintro required session ⟨_, onlyInProgress⟩
      have notCycle : ∀ chain, required ≠ .cycle chain := by
        intro chain isCycle
        have member := onlyInProgress ⟨chain, isCycle⟩
        simp [start] at member
      exact (Compile.runs_reportEntry notCycle).imp fun _ _ _ => trivial
    obtain ⟨_, session, isRun, _⟩ := runs
    refine ⟨⟨session.reports, session.modules, session.asked, session.tokens.getD []⟩, ?_⟩
    dsimp only
    rw [isRun]
    rfl

theorem stages_total {linkage : Linkage} {registry : Registry} (builtin : linkage.Builtin)
    (level : Level) (sound : registry.Sound) (text : String) (path : ModulePath)
    (context : Context) (interfaces : Interfaces) :
    let scan := Token.scan text
    let parsed := SyntaxTree.parse scan.tokens
    let checked := parsed.tree.check path context registry interfaces
    (∀ diagnostic ∈ scan.diagnostics ++ parsed.diagnostics ++ checked.diagnostics,
      ∃ range, diagnostic.resolve parsed.tree.arena.locations = .ok range) ∧
    (checked.success = true →
      ∃ script,
        parsed.tree.lower linkage level path checked.resolutions = .ok script ∧
          (parsed.tree.sourceFile.declarations ≠ [] →
            Blank.allBlank (level.render script) = false)) := by
  have names : Token.AllowedNames (fun _ => True) (Token.scan text).tokens := fun _ _ _ => trivial
  intro scan parsed checked
  have proper := SyntaxTree.parse_proper names
  refine ⟨fun diagnostic member => ?_, fun success => ?_⟩
  · rcases List.mem_append.mp member with isFound | isChecked
    · rcases List.mem_append.mp isFound with isScanned | isParsed
      · exact (Token.scan_located text _ diagnostic isScanned).resolve_eq_ok
      · exact (SyntaxTree.parse_located _ diagnostic isParsed).resolve_eq_ok
    · have located : ∀ diagnostic ∈ checked.diagnostics, diagnostic.Located _ :=
        proper.check_located
      exact (located diagnostic isChecked).resolve_eq_ok
  · exact proper.exists_lower_check builtin level sound success

/--
Compilations never break down, whatever the library, the entry and the text are,
and nothing is wrong exactly if there is a script. No stage fails on any text.
-/
theorem compile_total
    {compiler : Compiler}
    {library : Library}
    (builtin : compiler.linkage.Builtin)
    (bounded : library.Bounded)
    (entry : ModulePath)
    (text : String) :
    (∃ compilation,
      compiler.compileModule library entry = .ok compilation ∧
        (compilation.success = true ↔ compilation.reports = []) ∧
        (compilation.reports = [] ↔ compilation.javascript.isSome = true)) ∧
    (∃ compilation,
      compiler.compileSource text = .ok compilation ∧
        (compilation.success = true ↔ compilation.reports = []) ∧
        (compilation.reports = [] ↔ compilation.javascript.isSome = true)) ∧
    ∀ (registry : Registry) (path : ModulePath) (context : Context) (interfaces : Interfaces),
      registry.Sound →
      let scan := Token.scan text
      let parsed := SyntaxTree.parse scan.tokens
      let checked := parsed.tree.check path context registry interfaces
      (∀ diagnostic ∈ scan.diagnostics ++ parsed.diagnostics ++ checked.diagnostics,
        ∃ range, diagnostic.resolve parsed.tree.arena.locations = .ok range) ∧
      (checked.success = true →
        ∃ script,
          parsed.tree.lower compiler.linkage compiler.level path checked.resolutions =
              .ok script ∧
            (parsed.tree.sourceFile.declarations ≠ [] →
              Blank.allBlank (compiler.level.render script) = false)) := by
  have layers : (Library.layered [.single snippet text, .bundled]).Bounded := by
    refine Library.bounded_layered (List.forall_mem_cons.mpr ⟨?_, List.forall_mem_singleton.mpr ?_⟩)
    · exact Library.bounded_ofTexts _
    · exact Library.bounded_ofTexts _
  have agree : ∀ compilation : Compilation,
      (compilation.success = true ↔ compilation.reports = []) ∧
        (compilation.reports = [] ↔ compilation.javascript.isSome = true) := by
    intro compilation
    rw [compilation.isSome_javascript, compilation.success_iff]
    exact ⟨Iff.rfl, Iff.rfl⟩
  obtain ⟨compilation, compiled⟩ := exists_compileModule builtin bounded entry
  obtain ⟨snippetCompilation, snippetCompiled⟩ := exists_compileModule builtin layers snippet
  exact ⟨⟨compilation, compiled, agree compilation⟩,
    ⟨snippetCompilation, snippetCompiled, agree snippetCompilation⟩,
    fun _ path context interfaces sound =>
      stages_total builtin compiler.level sound text path context interfaces⟩

/-- Two modules that import each other, for a host that loads files. -/
theorem compile_total_cyclic :
    (Target.linkage .commonJs).Builtin ∧
      (Library.ofTexts
        [(ModulePath.parse "a", "import b"), (ModulePath.parse "b", "import a")]).Bounded ∧
      Registry.initial.Sound ∧
      (∃ compilation,
        (Compiler.mk .browser .simple (Target.linkage .commonJs)).compileModule
            (.ofTexts [(ModulePath.parse "a", "import b"), (ModulePath.parse "b", "import a")])
            (ModulePath.parse "a") = .ok compilation) ∧
      ∀ diagnostic ∈ (Token.scan "let x = \"").diagnostics,
        ∃ range,
          diagnostic.resolve
            (SyntaxTree.parse (Token.scan "let x = \"").tokens).tree.arena.locations =
              .ok range := by
  have builtin := Target.builtin_linkage .commonJs
  have bounded := Library.bounded_ofTexts
    [(ModulePath.parse "a", "import b"), (ModulePath.parse "b", "import a")]
  obtain ⟨⟨compilation, compiled, _⟩, _, stages⟩ :=
    @compile_total ⟨.browser, .simple, Target.linkage .commonJs⟩ _ builtin bounded
      (ModulePath.parse "a") "let x = \""
  refine ⟨builtin, bounded, Registry.sound_initial, ⟨compilation, compiled⟩, ?_⟩
  intro diagnostic member
  exact (stages .initial snippet .empty [] Registry.sound_initial).1 diagnostic
    (List.mem_append_left _ (List.mem_append_left _ member))

end Compiler

end Toolshed
