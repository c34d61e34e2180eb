import Toolshed.Proofs.Session.Closure

namespace Toolshed

/-!
# Settings for scripts are no matter of faults

Two sessions that differ in how scripts are made go the same way, because nothing
that a session does depends on the scripts.
-/

structure Session.Alike (first second : Session) : Prop where
  registry : first.registry = second.registry
  done : first.done = second.done
  inProgress : first.inProgress = second.inProgress
  modules : first.modules.map CompiledModule.path = second.modules.map CompiledModule.path
  reports : first.reports = second.reports
  asked : first.asked = second.asked
  tokens : first.tokens = second.tokens

theorem Session.Alike.refl (session : Session) : session.Alike session :=
  ⟨rfl, rfl, rfl, rfl, rfl, rfl, rfl⟩

namespace Compile

variable {α β : Type} {first second : Compiler} {context : Context} {path entry : ModulePath}

def Agree : Except Breakdown (α × Session) → Except Breakdown (α × Session) → Prop
  | .ok (answer, after), .ok (other, last) => answer = other ∧ after.Alike last
  | _, _ => True

theorem agree_error (result : Except Breakdown (α × Session)) (breakdown : Breakdown) :
    Agree result (.error breakdown) := by
  cases result <;> trivial

def Parallel (step other : Compile α) : Prop :=
  ∀ before beside : Session, before.Alike beside → Agree (step.run before) (other.run beside)

namespace Parallel

theorem pure (answer : α) : Parallel (Pure.pure answer) (Pure.pure answer) :=
  fun _ _ alike => ⟨rfl, alike⟩

theorem bind {step other : Compile α} {next further : α → Compile β}
    (parallel : Parallel step other) (rest : ∀ answer, Parallel (next answer) (further answer)) :
    Parallel (step >>= next) (other >>= further) := by
  intro before beside alike
  have agree := parallel before beside alike
  show Agree (step.run before >>= fun result => (next result.1).run result.2)
    (other.run beside >>= fun result => (further result.1).run result.2)
  cases ran : step.run before with
  | error breakdown => trivial
  | ok result =>
    cases ranOther : other.run beside with
    | error breakdown => exact agree_error ((next result.1).run result.2) breakdown
    | ok last =>
      rw [ran, ranOther] at agree
      obtain ⟨same, alike⟩ := agree
      have goesOn := rest result.1 result.2 last.2 alike
      simpa only [Except.bind, Bind.bind, same] using goesOn

theorem changing {change other : Session → Session}
    (keeps :
      ∀ before beside : Session, before.Alike beside → (change before).Alike (other beside)) :
    Parallel (modify change : Compile PUnit) (modify other) :=
  fun before beside alike => ⟨rfl, keeps before beside alike⟩

theorem lifted (result : Except Breakdown α) :
    Parallel (result : Compile α) (result : Compile α) := by
  intro before beside alike
  cases result with
  | error breakdown => trivial
  | ok answer => exact ⟨rfl, alike⟩

theorem reading {next further : Session → Compile β}
    (rest :
      ∀ before beside : Session,
        before.Alike beside →
        Parallel (next before) (further beside)) :
    Parallel (get >>= next) (get >>= further) :=
  fun before beside alike => rest before beside alike before beside alike

theorem throwing (breakdown : Breakdown) (other : Compile α) :
    Parallel (throw breakdown) other :=
  fun _ _ _ => trivial

theorem throwing_right (breakdown : Breakdown) (step : Compile α) :
    Parallel step (throw breakdown) :=
  fun before _ _ => agree_error (step.run before) breakdown

end Parallel

theorem parallel_report (locations : Locations) (diagnostics : List Diagnostic) :
    Parallel (report path locations diagnostics) (report path locations diagnostics) := by
  induction diagnostics with
  | nil => exact .pure _
  | cons diagnostic rest ih =>
    refine .bind (.lifted _) fun shown => .bind (.changing fun _ _ alike => ?_) fun _ =>
      ih
    exact { alike with reports := congrArg (· ++ [shown]) alike.reports }

theorem parallel_check (tree : SyntaxTree) (interfaces : Interfaces) :
    Parallel (check context path tree interfaces) (check context path tree interfaces) := by
  intro before beside alike
  have same : tree.check path context before.registry interfaces =
      tree.check path context beside.registry interfaces := by rw [alike.registry]
  exact ⟨same, { alike with registry := congrArg Checked.registry same }⟩

theorem parallel_generate (tree : SyntaxTree) (resolutions : Table Resolution) :
    Parallel (generate first path tree resolutions) (generate second path tree resolutions) := by
  unfold generate
  split
  · exact .throwing _ _
  · split
    · exact .throwing_right _ _
    · dsimp only
      split
      · exact .throwing _ _
      · split
        · exact .throwing_right _ _
        · refine .changing fun before beside alike => { alike with modules := ?_ }
          simp [alike.modules]

section

variable {require other : ModulePath → Compile Required}
variable (parallel : ∀ path, Parallel (require path) (other path))
include parallel

theorem parallel_requireAll (imports : List Import) :
    Parallel (requireAll require imports) (requireAll other imports) := by
  induction imports with
  | nil => exact .pure _
  | cons imported rest ih =>
    refine .bind (parallel imported.path) fun required => .bind ih fun summary => ?_
    cases required <;> exact .pure _

theorem parallel_compileTree (tree : SyntaxTree) :
    Parallel (compileTree first context require path tree)
      (compileTree second context other path tree) := by
  refine .bind (parallel_requireAll parallel tree.imports) fun summary => ?_
  refine .bind (parallel_report _ _) fun _ => .bind (parallel_check tree _) fun checked => ?_
  refine .bind (parallel_report _ _) fun _ => ?_
  split
  · exact .bind (parallel_generate tree _) fun _ => .pure _
  · exact .pure _

theorem parallel_compileScan (scan : Scan) :
    Parallel (compileScan first context require path scan)
      (compileScan second context other path scan) := by
  unfold compileScan
  dsimp only
  split
  · exact parallel_compileTree parallel _
  · exact .bind (parallel_report _ _) fun _ => .pure _

theorem parallel_compileText (text : String) :
    Parallel (compileText first context require entry path text)
      (compileText second context other entry path text) := by
  unfold compileText
  split
  · exact .bind (.changing fun _ _ alike => { alike with tokens := rfl }) fun _ =>
      parallel_compileScan parallel _
  · exact parallel_compileScan parallel _

theorem parallel_compileModule (text : String) :
    Parallel (compileModule first context require entry path text)
      (compileModule second context other entry path text) := by
  refine .bind (.changing fun _ _ alike => ?_) fun _ =>
    .bind (parallel_compileText parallel text) fun state =>
      .bind (.changing fun _ _ alike => ?_) fun _ => .pure _
  · exact { alike with inProgress := congrArg (· ++ [path]) alike.inProgress }
  · exact { alike with
      inProgress := congrArg List.dropLast alike.inProgress
      done := congrArg ((path, state) :: ·) alike.done }

end

theorem parallel_require (library : Library) (fuel : Nat) :
    Parallel (require first library context entry fuel path)
      (require second library context entry fuel path) := by
  induction fuel generalizing path with
  | zero => exact .throwing _ _
  | succ fuel ih =>
    refine .reading fun before beside alike => ?_
    rw [alike.done, alike.inProgress]
    split
    · exact .pure _
    · split
      · exact .pure _
      · have asks : Parallel (ask library path) (ask library path) :=
          .bind (.changing fun _ _ alike =>
            { alike with asked := congrArg (· ++ [path]) alike.asked }) fun _ => .pure _
        refine .bind asks fun reading => ?_
        cases reading with
        | absent => exact .pure _
        | unreadable failure => exact .pure _
        | text text => exact parallel_compileModule (fun _ => ih) text

theorem parallel_compileEntry (first second : Compiler) (library : Library) (context : Context)
    (entry : ModulePath) :
    Parallel (compileEntry first library context entry)
      (compileEntry second library context entry) := by
  refine .bind (parallel_require library _) fun required => ?_
  unfold reportEntry
  split
  · exact .throwing _ _
  · exact parallel_report _ _

end Compile

namespace Compiler

/--
Which faults there are does not depend on the level of the scripts, nor on how they
are tied together: whatever is chosen, the same modules are asked for, the same
faults are reported at the same places, and the same modules are compiled.
-/
theorem compileModule_settings
    {library : Library}
    {linkage otherLinkage : Linkage}
    (bounded : library.Bounded)
    (builtin : linkage.Builtin)
    (otherBuiltin : otherLinkage.Builtin)
    (profile : Profile)
    (level otherLevel : Level)
    (entry : ModulePath) :
    ∃ compilation other,
      (Compiler.mk profile level linkage).compileModule library entry = .ok compilation ∧
        (Compiler.mk profile otherLevel otherLinkage).compileModule library entry = .ok other ∧
        compilation.reports = other.reports ∧
        compilation.success = other.success ∧
        compilation.modules.map CompiledModule.path = other.modules.map CompiledModule.path ∧
        compilation.asked = other.asked ∧
        compilation.tokens = other.tokens := by
  let compiler := Compiler.mk profile level linkage
  let otherCompiler := Compiler.mk profile otherLevel otherLinkage
  obtain ⟨_, _, _, _, ran, _⟩ := @exists_finished compiler library builtin bounded entry
  obtain ⟨_, _, _, _, ranOther, _⟩ :=
    @exists_finished otherCompiler library otherBuiltin bounded entry
  have agree := Compile.parallel_compileEntry compiler otherCompiler library
    (profile.seed .initial).2 entry _ _ (.refl (.fresh (profile.seed .initial).1))
  rw [ran, ranOther] at agree
  obtain ⟨_, alike⟩ := agree
  refine ⟨_, _, compileModule_of_run ran, compileModule_of_run ranOther, alike.reports, ?_,
    alike.modules, alike.asked, congrArg (Option.getD · []) alike.tokens⟩
  exact congrArg List.isEmpty alike.reports

/-- A module with a fault between a module without one and a cycle. -/
theorem compileModule_settings_faulty :
    let library := Library.ofTexts
      [(⟨["a"]⟩, "import b\nimport c\nlet x = b.y + z"), (⟨["b"]⟩, "let y = 1"),
        (⟨["c"]⟩, "import a")]
    library.Bounded ∧
      (Target.linkage .browser).Builtin ∧
      (Target.linkage .commonJs).Builtin ∧
      ∃ compilation other,
        (Compiler.mk .default .none (Target.linkage .browser)).compileModule library ⟨["a"]⟩ =
            .ok compilation ∧
          (Compiler.mk .default .simple (Target.linkage .commonJs)).compileModule library ⟨["a"]⟩ =
            .ok other ∧
          compilation.reports = other.reports ∧
          compilation.modules.map CompiledModule.path =
            other.modules.map CompiledModule.path ∧
          compilation.asked = other.asked := by
  intro library
  have bounded : library.Bounded := Library.bounded_ofTexts _
  have builtin := Target.builtin_linkage .browser
  have otherBuiltin := Target.builtin_linkage .commonJs
  obtain ⟨compilation, other, compiled, alsoCompiled, reports, _, modules, asked, _⟩ :=
    compileModule_settings bounded builtin otherBuiltin .default .none .simple ⟨["a"]⟩
  exact ⟨bounded, builtin, otherBuiltin, compilation, other, compiled, alsoCompiled, reports,
    modules, asked⟩

end Compiler

end Toolshed
