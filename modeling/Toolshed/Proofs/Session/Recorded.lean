import Toolshed.Proofs.Session.Closure

namespace Toolshed

/-!
# Every point of a session

The steps of a session can also be taken with account of every session that they
pass through.
-/

/-- A session, and all sessions before it with the last one first. -/
structure Trail where
  current : Session
  earlier : List Session

def Trail.sessions (trail : Trail) : List Session :=
  trail.current :: trail.earlier

/-- A step of a session that keeps account of all sessions. -/
abbrev Recorded :=
  StateT Trail (Except Breakdown)

instance : MonadStateOf Session Recorded where
  get := fun trail => .ok (trail.current, trail)
  set session := fun trail => .ok (⟨⟩, ⟨session, trail.sessions⟩)
  modifyGet change := fun trail =>
    .ok ((change trail.current).1, ⟨(change trail.current).2, trail.sessions⟩)

instance : MonadCompile Recorded where

structure Session.Orderly (library : Library) (session : Session) : Prop where
  nodup : session.inProgress.Nodup
  chain : session.inProgress.IsChain library.Imports

def Trail.Orderly (library : Library) (trail : Trail) : Prop :=
  ∀ session ∈ trail.sessions, session.Orderly library

namespace Recorded

variable {α β : Type} {library : Library} {compiler : Compiler} {context : Context}
variable {stack : List ModulePath} {path entry : ModulePath}
variable {recorded : ModulePath → Recorded Required} {plain : ModulePath → Compile Required}
variable {tree : SyntaxTree} {text : String}

/--
Recorded steps take the same way as plain ones, start and end with the same
modules in progress, and pass through orderly sessions only.
-/
def Traces
    (library : Library)
    (stack : List ModulePath)
    (recorded : Recorded α)
    (plain : Compile α) : Prop :=
  ∀ (trail : Trail) (answer : α) (after : Session),
    trail.current.inProgress = stack →
    trail.Orderly library →
    plain.run trail.current = .ok (answer, after) →
    ∃ later : Trail,
      recorded.run trail = .ok (answer, later) ∧
        later.current = after ∧ after.inProgress = stack ∧ later.Orderly library

namespace Traces

variable {recorded : Recorded α}

theorem pure (answer : α) : Traces library stack (Pure.pure answer) (Pure.pure answer) := by
  rintro trail _ _ same orderly ⟨⟩
  exact ⟨trail, rfl, rfl, same, orderly⟩

theorem bind {plain : Compile α} {recordedNext : α → Recorded β} {plainNext : α → Compile β}
    (first : Traces library stack recorded plain)
    (rest : ∀ answer, Traces library stack (recordedNext answer) (plainNext answer)) :
    Traces library stack (recorded >>= recordedNext) (plain >>= plainNext) := by
  intro trail last after same orderly isRun
  replace isRun : (plain.run trail.current >>= fun result => (plainNext result.1).run result.2) =
      .ok (last, after) := isRun
  cases ran : plain.run trail.current with
  | error breakdown =>
    rw [ran] at isRun
    cases isRun
  | ok result =>
    rw [ran] at isRun
    obtain ⟨middle, isFirst, current, sameMiddle, orderlyMiddle⟩ :=
      first trail result.1 result.2 same orderly ran
    rw [← current] at sameMiddle
    obtain ⟨later, isRest, found⟩ :=
      rest result.1 middle last after sameMiddle orderlyMiddle (current ▸ isRun)
    refine ⟨later, ?_, found⟩
    show (recorded.run trail >>= fun result => (recordedNext result.1).run result.2) = _
    rw [isFirst]
    exact isRest

theorem throwing {breakdown : Breakdown} : Traces library stack recorded (throw breakdown) := by
  rintro _ _ _ _ _ ⟨⟩

theorem lifted (step : Except Breakdown α) : Traces library stack (liftM step) (liftM step) := by
  intro trail answer after same orderly isRun
  cases step with
  | error breakdown => cases isRun
  | ok value =>
    cases isRun
    exact ⟨trail, rfl, rfl, same, orderly⟩

theorem get_bind {recordedNext : Session → Recorded β} {plainNext : Session → Compile β}
    (rest :
      ∀ session,
        session.inProgress = stack →
        Traces library stack (recordedNext session) (plainNext session)) :
    Traces library stack (get >>= recordedNext) (get >>= plainNext) := by
  intro trail answer after same orderly isRun
  exact rest trail.current same trail answer after same orderly isRun

theorem modifyGet {change : Session → α × Session}
    (keeps : ∀ session, (change session).2.inProgress = session.inProgress) :
    Traces library stack (MonadStateOf.modifyGet change) (MonadStateOf.modifyGet change) := by
  intro trail answer after same orderly isRun
  have changed : change trail.current = (answer, after) := Except.ok.inj isRun
  have kept : after.inProgress = trail.current.inProgress := by
    rw [← keeps trail.current, changed]
  refine ⟨⟨after, trail.sessions⟩, ?_, rfl, kept.trans same, ?_⟩
  · show Except.ok ((change trail.current).1, Trail.mk (change trail.current).2 _) = _
    rw [changed]
  · obtain ⟨nodup, chain⟩ := orderly trail.current List.mem_cons_self
    exact List.forall_mem_cons.mpr ⟨⟨kept ▸ nodup, kept ▸ chain⟩, orderly⟩

theorem changing {change : Session → Session}
    (keeps : ∀ session, (change session).inProgress = session.inProgress) :
    Traces library stack (modify change) (modify change) :=
  modifyGet keeps

end Traces

open Compile

theorem traces_report {locations : Locations} {diagnostics : List Diagnostic} :
    Traces library stack (report path locations diagnostics)
      (report path locations diagnostics) := by
  induction diagnostics with
  | nil => exact .pure _
  | cons first rest ih =>
    refine .bind (.lifted _) fun shown => ?_
    exact .bind (.changing fun _ => rfl) fun _ => ih

theorem traces_requireAll {imports : List Import}
    (traces : ∀ site ∈ imports, Traces library stack (recorded site.path) (plain site.path)) :
    Traces library stack (requireAll recorded imports) (requireAll plain imports) := by
  induction imports with
  | nil => exact .pure _
  | cons first rest ih =>
    obtain ⟨tracesFirst, tracesRest⟩ := List.forall_mem_cons.mp traces
    refine .bind tracesFirst fun required => ?_
    refine .bind (ih tracesRest) fun summary => ?_
    cases required <;> exact .pure _

theorem traces_generate {resolutions : Table Resolution} :
    Traces library stack (generate compiler path tree resolutions)
      (generate compiler path tree resolutions) := by
  unfold generate
  split
  · exact .throwing
  · dsimp only
    split
    · exact .throwing
    · exact .changing fun _ => rfl

theorem traces_compileTree
    (traces : ∀ site ∈ tree.imports, Traces library stack (recorded site.path) (plain site.path)) :
    Traces library stack (compileTree compiler context recorded path tree)
      (compileTree compiler context plain path tree) := by
  refine .bind (traces_requireAll traces) fun summary => ?_
  refine .bind traces_report fun _ => ?_
  refine .bind (.modifyGet fun _ => rfl) fun checked => ?_
  refine .bind traces_report fun _ => ?_
  split
  · exact .bind traces_generate fun _ => .pure _
  · exact .pure _

section

variable (isText : library.read path = .text text)
include isText

theorem traces_compileScan
    (traces :
      ∀ imported,
        library.Imports path imported →
        Traces library stack (recorded imported) (plain imported)) :
    Traces library stack (compileScan compiler context recorded path (Token.scan text))
      (compileScan compiler context plain path (Token.scan text)) := by
  unfold compileScan
  dsimp only
  split
  · rename_i isRead
    have isTree : library.tree? path = some (SyntaxTree.parse (Token.scan text).tokens).tree := by
      simp only [Library.tree?, isText]
      rw [if_pos isRead]
    exact traces_compileTree fun site member =>
      traces site.path ((Library.imports_iff isTree).mpr ⟨site, member, rfl⟩)
  · exact .bind traces_report fun _ => .pure _

theorem traces_compileText
    (traces :
      ∀ imported,
        library.Imports path imported →
        Traces library stack (recorded imported) (plain imported)) :
    Traces library stack (compileText compiler context recorded entry path text)
      (compileText compiler context plain entry path text) := by
  unfold compileText
  split
  · exact .bind (.changing fun _ => rfl) fun _ => traces_compileScan isText traces
  · exact traces_compileScan isText traces

theorem traces_compileModule (isNew : path ∉ stack)
    (isImported : ∀ last ∈ stack.getLast?, library.Imports last path)
    (traces :
      ∀ imported,
        library.Imports path imported →
        Traces library (stack ++ [path]) (recorded imported) (plain imported)) :
    Traces library stack (compileModule compiler context recorded entry path text)
      (compileModule compiler context plain entry path text) := by
  intro trail answer after same orderly isRun
  let entered : Trail := ⟨trail.current.entering path, trail.sessions⟩
  have sameEntered : entered.current.inProgress = stack ++ [path] := congrArg (· ++ [path]) same
  obtain ⟨nodup, chain⟩ := orderly trail.current List.mem_cons_self
  have orderlyEntered : entered.Orderly library := by
    refine List.forall_mem_cons.mpr ⟨⟨?_, ?_⟩, orderly⟩
    · show (trail.current.inProgress ++ [path]).Nodup
      exact List.concat_eq_append ▸ nodup.concat (same ▸ isNew)
    · refine List.IsChain.append chain (List.isChain_singleton _) ?_
      rintro last isLast _ isPath
      obtain rfl := Option.some.inj isPath
      exact isImported last (same ▸ isLast)
  replace isRun : ((compileText compiler context plain entry path text).run entered.current >>=
      fun result => .ok (result.1.required, result.2.leaving path result.1)) =
      (.ok (answer, after) : Except Breakdown (Required × Session)) := isRun
  cases ran : (compileText compiler context plain entry path text).run entered.current with
  | error breakdown =>
    rw [ran] at isRun
    cases isRun
  | ok result =>
    rw [ran] at isRun
    obtain ⟨rfl, rfl⟩ := Prod.mk.inj (Except.ok.inj isRun)
    obtain ⟨middle, isText, current, sameMiddle, orderlyMiddle⟩ :=
      traces_compileText isText traces entered result.1 result.2 sameEntered orderlyEntered ran
    have sameAfter : (result.2.leaving path result.1).inProgress = stack := by
      show result.2.inProgress.dropLast = stack
      rw [sameMiddle]
      exact List.dropLast_concat
    refine ⟨⟨result.2.leaving path result.1, middle.sessions⟩, ?_, rfl, sameAfter, ?_⟩
    · show ((compileText compiler context recorded entry path text).run entered >>=
        fun result => .ok (result.1.required,
          (⟨result.2.current.leaving path result.1, result.2.sessions⟩ : Trail))) = _
      rw [isText, ← current]
      rfl
    · refine List.forall_mem_cons.mpr ⟨⟨?_, ?_⟩, orderlyMiddle⟩
      · rw [sameAfter, ← same]
        exact nodup
      · rw [sameAfter, ← same]
        exact chain

end

theorem traces_ask_bind {recordedNext : Reading → Recorded β} {plainNext : Reading → Compile β}
    (rest :
      Traces library stack (recordedNext (library.read path)) (plainNext (library.read path))) :
    Traces library stack (ask library path >>= recordedNext) (ask library path >>= plainNext) := by
  have asked : Traces library stack
      ((modify fun session => session.asking path) >>= fun _ => recordedNext (library.read path))
      ((modify fun session => session.asking path) >>= fun _ => plainNext (library.read path)) :=
    .bind (.changing fun _ => rfl) fun _ => rest
  exact asked

theorem traces_require (fuel : Nat)
    (isImported : ∀ last ∈ stack.getLast?, library.Imports last path) :
    Traces library stack (require compiler library context entry fuel path)
      (require compiler library context entry fuel path) := by
  induction fuel generalizing stack path with
  | zero => exact .throwing
  | succ fuel ih =>
    refine .get_bind fun session same => ?_
    split
    · exact .pure _
    · split
      · exact .pure _
      · rename_i notInProgress
        have isNew : path ∉ stack := by simpa [same] using notInProgress
        refine traces_ask_bind ?_
        split
        · exact .pure _
        · exact .pure _
        · rename_i text isText
          refine traces_compileModule isText isNew isImported fun imported isImported => ?_
          refine ih fun last isLast => ?_
          rw [List.getLast?_concat] at isLast
          exact Option.some.inj isLast ▸ isImported

theorem traces_reportEntry {required : Required} :
    Traces library stack (reportEntry entry required) (reportEntry entry required) := by
  unfold reportEntry
  split
  · exact .throwing
  · exact traces_report

theorem exists_trail {registry : Registry} {after : Session}
    (isRun :
      (compileEntry compiler library context entry : Compile Unit).run (.fresh registry) =
        .ok (⟨⟩, after)) :
    ∃ trail : Trail,
      (compileEntry compiler library context entry : Recorded Unit).run ⟨.fresh registry, []⟩ =
          .ok (⟨⟩, trail) ∧
        trail.current = after ∧ trail.Orderly library := by
  have traces : Traces library [] (compileEntry compiler library context entry)
      (compileEntry compiler library context entry) :=
    .bind (traces_require _ (by simp)) fun _ => traces_reportEntry
  have orderly : (⟨.fresh registry, []⟩ : Trail).Orderly library :=
    List.forall_mem_singleton.mpr ⟨List.nodup_nil, .nil⟩
  obtain ⟨trail, recorded, current, _, orderly⟩ := traces _ _ _ rfl orderly isRun
  exact ⟨trail, recorded, current, orderly⟩

end Recorded

namespace Session.Finished

variable {library : Library} {context : Context} {registry : Registry} {entry path : ModulePath}
variable {session : Session} {checks : List ModuleCheck} {required : Required}
variable {reports : List Report}

variable (finished : session.Finished library context registry entry checks required)
include finished

theorem exists_circular
    (conveyed :
      Report.ConveyAll
        ((required.fault? entry).toList.map fun fault => ⟨fault, .range (.point .origin)⟩)
        reports) :
    ∀ report ∈ session.reports ++ reports, library.TracesCycle entry report := by
  intro report member isCycle
  rcases List.mem_append.mp member with inSession | atEntry
  · exact finished.resolved.accounted.cycles report inSession isCycle
  · obtain ⟨diagnostic, isDiagnostic, conveys⟩ := conveyed.sound report atEntry
    obtain ⟨fault, isFault, rfl⟩ := List.mem_map.mp isDiagnostic
    exact Compile.exists_circular_of_fault? finished.resolved
      ⟨.refl, by simp [finished.inProgress]⟩ finished.answers (Option.mem_toList.mp isFault)
      conveys isCycle

theorem exists_isImportCycle_iff
    (conveyed :
      Report.ConveyAll
        ((required.fault? entry).toList.map fun fault => ⟨fault, .range (.point .origin)⟩)
        reports) :
    (∃ report ∈ session.reports ++ reports, report.isImportCycle = true) ↔
      ∃ path, library.Reaches entry path ∧ library.OnCycle path := by
  have logged := finished.resolved.logged
  constructor
  · rintro ⟨report, member, isCycle⟩
    obtain ⟨chain, _, circular, reached⟩ :=
      finished.exists_circular conveyed report member isCycle
    obtain ⟨path, inChain, onCycle⟩ := circular.exists_onCycle
    exact ⟨path, reached path inChain, onCycle⟩
  · rintro ⟨path, reaches, onCycle⟩
    have isChecked := finished.mem_checks_iff.mpr ⟨reaches, onCycle.isSome_tree?⟩
    obtain ⟨report, member, isCycle⟩ :=
      logged.valid.closing_of_onCycle logged.ordered isChecked onCycle
    exact ⟨report, List.mem_append_left _ member, isCycle⟩

theorem count_asked_le_one
    (isText : (library.read path).isText = true) : session.asked.count path ≤ 1 := by
  have walked := finished.resolved.walked
  have counted : session.asked.count path = session.visited.count path := by
    rw [← walked.asked.count_eq]
    exact (List.count_filter (p := fun path => (library.read path).isText) isText).symm
  rw [counted]
  exact List.nodup_iff_count_le_one.mp walked.nodup path

end Session.Finished

namespace Compiler

/--
A compilation goes through. At every point of it the modules in progress differ and
each imports the next. A module with a text is asked for and listed at most once, and
one without a text once for every import of it. A cycle is reported exactly if the
entry reaches one, and the modules of the report import each other round.
-/
theorem compileModule_once
    {compiler : Compiler}
    {library : Library}
    (builtin : compiler.linkage.Builtin)
    (bounded : library.Bounded)
    (entry : ModulePath) :
    ∃ trail : Trail,
      (Compile.compileEntry compiler library (compiler.profile.seed .initial).2 entry :
          Recorded Unit).run ⟨.fresh (compiler.profile.seed .initial).1, []⟩ = .ok (⟨⟩, trail) ∧
        compiler.compileModule library entry = .ok trail.current.compilation ∧
        (∀ session ∈ trail.sessions,
          session.inProgress.Nodup ∧ session.inProgress.IsChain library.Imports) ∧
        (∀ path,
          (library.read path).isText = true →
          trail.current.asked.count path ≤ 1 ∧
            (trail.current.modules.map CompiledModule.path).count path ≤ 1) ∧
        (∃ visited : List ModulePath,
          visited.Nodup ∧
            (∀ path,
              path ∈ visited ↔ library.Reaches entry path ∧ (library.read path).isText = true) ∧
            ∀ path,
              (library.read path).isText = false →
              trail.current.asked.count path =
                [entry].count path + (visited.flatMap library.importsOf).count path) ∧
        ((∃ report ∈ trail.current.reports, report.isImportCycle = true) ↔
          ∃ path, library.Reaches entry path ∧ library.OnCycle path) ∧
        ∀ report ∈ trail.current.reports,
          report.isImportCycle = true →
          ∃ chain,
            report.description = (Fault.importCycle chain).description ∧
              chain.IsChain library.Imports ∧ chain.head? = chain.getLast? ∧ 2 ≤ chain.length := by
  obtain ⟨session, checks, required, reports, isRun, finished, conveyed⟩ :=
    exists_finished builtin bounded entry
  obtain ⟨trail, recorded, current, orderly⟩ := Recorded.exists_trail isRun
  refine ⟨trail, recorded, current ▸ compileModule_of_run isRun,
    fun other member => ⟨(orderly other member).nodup, (orderly other member).chain⟩, ?_⟩
  rw [current]
  refine ⟨fun path isText => ⟨finished.count_asked_le_one isText, ?_⟩,
    ⟨session.done.map Prod.fst, Session.nodup_done finished.resolved.walked,
      fun _ => finished.mem_done_iff, fun _ => finished.count_asked⟩,
    finished.exists_isImportCycle_iff conveyed, fun report member isCycle => ?_⟩
  · exact List.nodup_iff_count_le_one.mp finished.nodup_modules path
  · obtain ⟨chain, named, circular, _⟩ :=
      finished.exists_circular conveyed report member isCycle
    exact ⟨chain, named, circular.imports, circular.closed, circular.long⟩

/-- Two modules import each other and a module that is not there. -/
theorem compileModule_once_cyclic :
    let library := Library.ofTexts
      [(ModulePath.parse "a", "import b\nimport gone"),
        (ModulePath.parse "b", "import a\nimport gone")]
    (Target.linkage .commonJs).Builtin ∧
      library.Bounded ∧
      (library.read (ModulePath.parse "b")).isText = true ∧
      (library.read (ModulePath.parse "gone")).isText = false ∧
      ∃ compilation,
        (Compiler.mk .browser .simple (Target.linkage .commonJs)).compileModule library
            (ModulePath.parse "a") = .ok compilation ∧
          compilation.asked.count (ModulePath.parse "b") ≤ 1 ∧
          compilation.asked.count (ModulePath.parse "gone") = 2 ∧
          ∃ report ∈ compilation.reports,
            report.description = (Fault.importCycle
              (["a", "b", "a"].map ModulePath.parse)).description ∧
              report.isImportCycle = true ∧
              ∃ path, library.Reaches (ModulePath.parse "a") path ∧ library.OnCycle path := by
  intro library
  have builtin := Target.builtin_linkage .commonJs
  have bounded : library.Bounded := Library.bounded_ofTexts _
  have isText : (library.read (ModulePath.parse "b")).isText = true := by decide +kernel
  have noText : (library.read (ModulePath.parse "gone")).isText = false := by decide +kernel
  obtain ⟨trail, _, compiled, _, once, _, cyclic, _⟩ :=
    @compileModule_once ⟨.browser, .simple, Target.linkage .commonJs⟩ _ builtin bounded
      (ModulePath.parse "a")
  have result : (((Compiler.mk .browser .simple (Target.linkage .commonJs)).compileModule library
      (ModulePath.parse "a")).toOption.map fun compilation =>
        (compilation.asked.count (ModulePath.parse "gone"),
          compilation.reports.any fun report =>
            report.description = (Fault.importCycle
              (["a", "b", "a"].map ModulePath.parse)).description && report.isImportCycle)) =
      some (2, true) := by
    decide +kernel
  rw [compiled] at result
  obtain ⟨twice, reported⟩ := Prod.mk.inj (Option.some.inj result)
  obtain ⟨report, member, found⟩ := List.any_eq_true.mp reported
  obtain ⟨named, isCycle⟩ := Bool.and_eq_true_iff.mp found
  exact ⟨builtin, bounded, isText, noText, _, compiled, (once _ isText).1, twice, report, member,
    of_decide_eq_true named, isCycle, cyclic.mp ⟨report, member, isCycle⟩⟩

end Compiler

end Toolshed
