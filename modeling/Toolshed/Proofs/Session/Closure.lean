import Toolshed.Proofs.Session.Resolving

namespace Toolshed

/-!
# Compilations close over imports

A compilation visits exactly the modules that its entry reaches.
-/

namespace Session

def fresh (registry : Registry) : Session :=
  { registry := registry
    done := []
    inProgress := []
    modules := []
    reports := []
    asked := []
    tokens := none }

theorem resolved_fresh (library : Library) (context : Context) (registry : Registry)
    (entry : ModulePath) : (fresh registry).Resolved library context registry entry [] := by
  refine ⟨⟨List.nodup_nil, ?_, ?_, .nil, .nil, ?_⟩, ⟨.nothing, rfl, ?_, ?_, rfl, trivial⟩,
    ⟨?_, ?_, ?_⟩⟩
  all_goals simp [fresh, visited, ModuleCheck.interface?]

structure Finished
    (library : Library)
    (context : Context)
    (registry : Registry)
    (entry : ModulePath)
    (session : Session)
    (checks : List ModuleCheck)
    (required : Required) : Prop where
  resolved : session.Resolved library context registry entry checks
  follows : (fresh registry).Follows library [entry] session
  answers : session.Answers library checks entry required

namespace Finished

variable {library : Library} {context : Context} {registry : Registry} {entry path : ModulePath}
variable {session : Session} {checks : List ModuleCheck} {required : Required}

variable (finished : session.Finished library context registry entry checks required)
include finished

theorem inProgress :
    session.inProgress = [] :=
  finished.follows.inProgress

theorem visited_eq :
    session.visited = session.done.map Prod.fst := by
  rw [visited, finished.inProgress, List.append_nil]

theorem mem_done_iff :
    path ∈ session.done.map Prod.fst ↔
      library.Reaches entry path ∧ (library.read path).isText = true := by
  have walked := finished.resolved.walked
  rw [← finished.visited_eq]
  refine ⟨fun member => ⟨walked.reached path member, walked.texts path member⟩, ?_⟩
  rintro ⟨reaches, isText⟩
  induction reaches with
  | refl => exact finished.resolved.mem_visited finished.answers isText
  | tail _ step ih =>
    have isVisited := ih (Library.isText_of_tree? step.isSome_tree?)
    rw [finished.visited_eq] at isVisited
    exact walked.closed _ isVisited _ step isText

theorem mem_checks_iff :
    path ∈ checks.map ModuleCheck.path ↔
      library.Reaches entry path ∧ (library.tree? path).isSome = true := by
  rw [finished.resolved.logged.parsed, finished.mem_done_iff, and_assoc]
  refine and_congr_right fun _ => ⟨And.right, fun readable => ?_⟩
  exact ⟨Library.isText_of_tree? readable, readable⟩

theorem count_asked
    (noText : (library.read path).isText = false) :
    session.asked.count path =
      [entry].count path +
        ((session.done.map Prod.fst).flatMap library.importsOf).count path := by
  obtain ⟨newer, done, asked⟩ := finished.follows.newer
  have all : session.done = newer := done.trans (List.append_nil _)
  rw [asked path noText, all]
  simp [fresh]

theorem mem_asked_iff :
    path ∈ session.asked ↔ library.Reaches entry path := by
  cases isText : (library.read path).isText with
  | true =>
    have member := finished.resolved.walked.asked.mem_iff (a := path)
    rw [finished.visited_eq, finished.mem_done_iff] at member
    simpa [isText] using member
  | false =>
    rw [← List.count_pos_iff, finished.count_asked isText, Nat.add_pos_iff_pos_or_pos,
      List.count_pos_iff, List.count_pos_iff, List.mem_singleton, List.mem_flatMap]
    constructor
    · rintro (rfl | ⟨importer, isDone, isImported⟩)
      · exact .refl
      · exact (finished.mem_done_iff.mp isDone).1.tail isImported
    · intro reaches
      rcases Relation.ReflTransGen.cases_tail reaches with same | ⟨importer, reached, step⟩
      · exact .inl same
      · exact .inr ⟨importer, finished.mem_done_iff.mpr
          ⟨reached, Library.isText_of_tree? step.isSome_tree?⟩, step⟩

theorem mem_modules_iff
    (reaches : library.Reaches entry path) :
    path ∈ session.modules.map CompiledModule.path ↔
      ∀ other, library.Reaches path other →
        library.Clean checks other ∧ ¬library.OnCycle other := by
  have logged := finished.resolved.logged
  rw [logged.modules, List.mem_reverse]
  cases readable : (library.tree? path).isSome with
  | true =>
    exact logged.valid.compiled_iff logged.ordered (finished.mem_checks_iff.mpr ⟨reaches, readable⟩)
  | false =>
    refine ⟨fun compiled => ?_, fun clean => ?_⟩
    · have isThere := logged.valid.isSome_tree? (ModuleCheck.mem_of_mem_compiledPaths compiled)
      rw [readable] at isThere
      exact Bool.noConfusion isThere
    · have isThere := (clean path .refl).1.1
      rw [readable] at isThere
      exact Bool.noConfusion isThere

end Finished

end Session

def Compile.compileEntry
    {m : Type → Type}
    [MonadCompile m]
    (compiler : Compiler)
    (library : Library)
    (context : Context)
    (entry : ModulePath) :
    m Unit := do
  let required ← require compiler library context entry (library.capacity + 1) entry
  reportEntry entry required

def Session.compilation (session : Session) : Compilation :=
  ⟨session.reports, session.modules, session.asked, session.tokens.getD []⟩

namespace Compiler

variable {compiler : Compiler} {library : Library} {entry : ModulePath}

theorem compileModule_eq :
    compiler.compileModule library entry =
      ((Compile.compileEntry compiler library (compiler.profile.seed .initial).2 entry :
        Compile Unit).run (.fresh (compiler.profile.seed .initial).1)).map
          fun result => result.2.compilation := by
  unfold compileModule
  generalize compiler.profile.seed .initial = seed
  obtain ⟨registry, context⟩ := seed
  show ((Compile.compileEntry compiler library context entry :
    Compile Unit).run (.fresh registry) >>= _) = _
  cases (Compile.compileEntry compiler library context entry : Compile Unit).run
    (.fresh registry) <;> rfl

theorem ensures_compileEntry (context : Context) (registry : Registry) :
    Compile.Ensures (Compile.compileEntry compiler library context entry) (.fresh registry)
      fun _ after =>
        ∃ (session : Session) (checks : List ModuleCheck) (required : Required)
            (reports : List Report),
          after = { session with reports := session.reports ++ reports } ∧
            session.Finished library context registry entry checks required ∧
            Report.ConveyAll
              ((required.fault? entry).toList.map fun fault => ⟨fault, .range (.point .origin)⟩)
              reports := by
  have resolved := Session.resolved_fresh library context registry entry
  have expects : (Session.fresh registry).Expects library entry entry :=
    ⟨.refl, by simp [Session.fresh]⟩
  refine Compile.Ensures.bind (Compile.resolves_require compiler library context registry entry
    (library.capacity + 1) (.fresh registry) [] entry resolved expects) ?_
  rintro required session ⟨checks, resolved, follows, answers⟩
  unfold Compile.reportEntry
  split
  · exact .throwing
  · refine Compile.ensures_report.imp ?_
    rintro _ _ ⟨reports, rfl, conveyed⟩
    exact ⟨session, checks, required, reports, rfl, ⟨resolved, follows, answers⟩, conveyed⟩

theorem compileModule_of_run {after : Session}
    (isRun :
      (Compile.compileEntry compiler library (compiler.profile.seed .initial).2 entry :
        Compile Unit).run (.fresh (compiler.profile.seed .initial).1) = .ok (⟨⟩, after)) :
    compiler.compileModule library entry = .ok after.compilation := by
  rw [compileModule_eq, isRun]
  rfl

theorem exists_finished (builtin : compiler.linkage.Builtin) (bounded : library.Bounded)
    (entry : ModulePath) :
    ∃ (session : Session) (checks : List ModuleCheck) (required : Required)
        (reports : List Report),
      (Compile.compileEntry compiler library (compiler.profile.seed .initial).2 entry :
          Compile Unit).run (.fresh (compiler.profile.seed .initial).1) =
            .ok (⟨⟩, { session with reports := session.reports ++ reports }) ∧
        session.Finished library (compiler.profile.seed .initial).2
          (compiler.profile.seed .initial).1 entry checks required ∧
        Report.ConveyAll
          ((required.fault? entry).toList.map fun fault => ⟨fault, .range (.point .origin)⟩)
          reports := by
  obtain ⟨compilation, compiled⟩ := exists_compileModule builtin bounded entry
  rw [compileModule_eq] at compiled
  cases ran : (Compile.compileEntry compiler library (compiler.profile.seed .initial).2 entry :
      Compile Unit).run (.fresh (compiler.profile.seed .initial).1) with
  | error breakdown =>
    rw [ran] at compiled
    cases compiled
  | ok result =>
    obtain ⟨session, checks, required, reports, isAfter, finished, conveyed⟩ :=
      ensures_compileEntry _ _ _ _ ran
    exact ⟨session, checks, required, reports, by rw [← isAfter], finished, conveyed⟩

end Compiler

namespace Session.Finished

variable {library : Library} {context : Context} {registry : Registry} {entry path : ModulePath}
variable {session : Session} {checks : List ModuleCheck} {required : Required}
variable {reports : List Report}

variable (finished : session.Finished library context registry entry checks required)
include finished

theorem silent_iff
    (conveyed :
      Report.ConveyAll
        ((required.fault? entry).toList.map fun fault => ⟨fault, .range (.point .origin)⟩)
        reports) :
    session.reports ++ reports = [] ↔
      ∀ path, library.Reaches entry path →
        library.Clean checks path ∧ ¬library.OnCycle path := by
  have logged := finished.resolved.logged
  constructor
  · intro silent
    obtain ⟨silentSession, silentEntry⟩ := List.append_eq_nil_iff.mp silent
    have noFault : required.fault? entry = none := by
      by_contra isFault
      obtain ⟨fault, found⟩ := Option.ne_none_iff_exists'.mp isFault
      exact conveyed.ne_nil (by simp [found]) silentEntry
    cases ready : ModuleCheck.interface? checks entry with
    | none =>
      rcases finished.resolved.reported_of_unready finished.answers ready with
        ⟨fault, isFault⟩ | reported
      · simp [noFault] at isFault
      · exact (reported silentSession).elim
    | some interface =>
      have compiled := ModuleCheck.isSome_interface?_iff.mp (Option.isSome_of_eq_some ready)
      exact fun path reaches => logged.valid.clean_of_compiled compiled reaches
  · intro clean
    by_contra reported
    have faulty : ∃ cause, library.Reaches entry cause ∧ library.Faulty checks cause := by
      rw [List.append_eq_nil_iff, not_and_or] at reported
      rcases reported with inSession | atEntry
      · exact finished.resolved.accounted.cause inSession
      · obtain ⟨report, member⟩ := List.exists_mem_of_ne_nil _ atEntry
        obtain ⟨diagnostic, isDiagnostic, _⟩ := conveyed.sound report member
        obtain ⟨fault, isFault, _⟩ := List.mem_map.mp isDiagnostic
        exact finished.resolved.exists_faulty ⟨.refl, by simp [finished.inProgress]⟩
          finished.answers (Option.mem_toList.mp isFault)
    obtain ⟨cause, reaches, isFaulty⟩ := faulty
    exact logged.valid.not_clean_of_faulty isFaulty (clean cause reaches)

theorem imports_precede {earlier later : List ModulePath}
    (split : session.modules.map CompiledModule.path = earlier ++ path :: later)
    {imported : ModulePath} (isImported : library.Imports path imported) : imported ∈ earlier := by
  have logged := finished.resolved.logged
  have reversed : ModuleCheck.compiledPaths checks = later.reverse ++ path :: earlier.reverse := by
    rw [← List.reverse_reverse (ModuleCheck.compiledPaths checks), ← logged.modules, split]
    simp
  exact List.mem_reverse.mp
    (logged.valid.descends_compiledPaths later.reverse path earlier.reverse reversed imported
      isImported)

theorem reached_of_mem_modules
    (listed : path ∈ session.modules.map CompiledModule.path) : library.Reaches entry path := by
  rw [finished.resolved.logged.modules, List.mem_reverse] at listed
  exact (finished.mem_checks_iff.mp (ModuleCheck.mem_of_mem_compiledPaths listed)).1

theorem nodup_modules :
    (session.modules.map CompiledModule.path).Nodup := by
  rw [finished.resolved.logged.modules, List.nodup_reverse]
  exact finished.resolved.logged.valid.nodup_compiledPaths

end Session.Finished

namespace Compiler

/--
A compilation visits exactly the modules that its entry reaches, and checks those
that can be read once, with the interfaces of its imports: they are checked before,
unless the module is on a cycle, which is reported. It lists a module once, after its
imports, and exactly if the module reaches only modules without faults of which none
imports itself. It succeeds exactly if it lists all of them.
-/
theorem compileModule_closure
    {compiler : Compiler}
    {library : Library}
    (builtin : compiler.linkage.Builtin)
    (bounded : library.Bounded)
    (entry : ModulePath) :
    ∃ compilation checks,
      compiler.compileModule library entry = .ok compilation ∧
        library.Checks (compiler.profile.seed .initial).2 (compiler.profile.seed .initial).1
          checks ∧
        library.Ordered (∃ report ∈ compilation.reports, report.isImportCycle = true) checks ∧
        (∀ path,
          path ∈ checks.map ModuleCheck.path ↔
            library.Reaches entry path ∧ (library.tree? path).isSome = true) ∧
        (∀ path, path ∈ compilation.asked ↔ library.Reaches entry path) ∧
        (compilation.success = true ↔
          ∀ path, library.Reaches entry path →
            library.Clean checks path ∧ ¬library.OnCycle path) ∧
        (compilation.success = true →
          ∀ path,
            path ∈ compilation.modules.map CompiledModule.path ↔ library.Reaches entry path) ∧
        (compilation.modules.map CompiledModule.path).Nodup ∧
        (∀ earlier path later,
          compilation.modules.map CompiledModule.path = earlier ++ path :: later →
          ∀ imported, library.Imports path imported → imported ∈ earlier) ∧
        ∀ path, library.Reaches entry path →
          (path ∈ compilation.modules.map CompiledModule.path ↔
            ∀ other, library.Reaches path other →
              library.Clean checks other ∧ ¬library.OnCycle other) := by
  obtain ⟨session, checks, required, reports, isRun, finished, conveyed⟩ :=
    exists_finished builtin bounded entry
  have compiled := compileModule_of_run isRun
  have logged := finished.resolved.logged
  have succeeds := fun compilation : Compilation => compilation.success_iff
  refine ⟨_, checks, compiled, logged.valid, logged.ordered.imp ?_,
    fun _ => finished.mem_checks_iff, fun _ => finished.mem_asked_iff, ?_, ?_,
    finished.nodup_modules, fun _ _ _ split _ => finished.imports_precede split,
    fun _ => finished.mem_modules_iff⟩
  · rintro ⟨report, member, isCycle⟩
    exact ⟨report, List.mem_append_left reports member, isCycle⟩
  · rw [succeeds]
    exact finished.silent_iff conveyed
  · rw [succeeds]
    intro silent path
    refine ⟨fun listed => ?_, fun reaches => (finished.mem_modules_iff reaches).mpr ?_⟩
    · exact finished.reached_of_mem_modules listed
    · exact fun other reachesOther =>
        (finished.silent_iff conveyed).mp silent other (reaches.trans reachesOther)

/-- A module that two others import is listed once and first. -/
theorem compileModule_closure_shared :
    let library := Library.ofTexts
      [(ModulePath.parse "top", "import left\nimport right"),
        (ModulePath.parse "left", "import base"),
        (ModulePath.parse "right", "import base"),
        (ModulePath.parse "base", "let x = 1")]
    (Target.linkage .commonJs).Builtin ∧
      library.Bounded ∧
      ∃ compilation checks,
        (Compiler.mk .browser .simple (Target.linkage .commonJs)).compileModule library
            (ModulePath.parse "top") = .ok compilation ∧
          compilation.modules.map CompiledModule.path =
            ["base", "left", "right", "top"].map ModulePath.parse ∧
          (∀ path,
            path ∈ compilation.modules.map CompiledModule.path ↔
              library.Reaches (ModulePath.parse "top") path) ∧
          ∀ path, library.Reaches (ModulePath.parse "top") path →
            library.Clean checks path ∧ ¬library.OnCycle path := by
  intro library
  have builtin := Target.builtin_linkage .commonJs
  have bounded : library.Bounded := Library.bounded_ofTexts _
  obtain ⟨compilation, checks, compiled, _, _, _, _, succeeds, listed, _⟩ :=
    @compileModule_closure ⟨.browser, .simple, Target.linkage .commonJs⟩ _ builtin bounded
      (ModulePath.parse "top")
  have result : (((Compiler.mk .browser .simple (Target.linkage .commonJs)).compileModule library
      (ModulePath.parse "top")).toOption.map fun compilation =>
        (compilation.success, compilation.modules.map CompiledModule.path)) =
      some (true, ["base", "left", "right", "top"].map ModulePath.parse) := by
    decide +kernel
  rw [compiled] at result
  obtain ⟨success, order⟩ := Prod.mk.inj (Option.some.inj result)
  exact ⟨builtin, bounded, compilation, checks, compiled, order, listed success,
    succeeds.mp success⟩

end Compiler

end Toolshed
