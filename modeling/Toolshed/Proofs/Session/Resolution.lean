import Mathlib.Data.List.Chain
import Mathlib.Data.List.Perm.Basic
import Toolshed.Proofs.Library.Bounded
import Toolshed.Proofs.Session.Graph

namespace Toolshed

/-!
# How far a session has come

Between two imports a session has walked a part of the import graph, has checked
the modules that it is done with, and can account for its reports. This is one
invariant, and each step of a session keeps it.
-/

def Report.isImportCycle (report : Report) : Bool :=
  report.kind = .moduleResolution &&
    "Module resolution error: import cycle: ".toList.isPrefixOf report.description.toList

structure Library.Circular (library : Library) (chain : List ModulePath) : Prop where
  imports : chain.IsChain library.Imports
  closed : chain.head? = chain.getLast?
  long : 2 ≤ chain.length

def Library.TracesCycle (library : Library) (entry : ModulePath) (report : Report) : Prop :=
  report.isImportCycle = true →
    ∃ chain,
      report.description = (Fault.importCycle chain).description ∧
        library.Circular chain ∧ ∀ path ∈ chain, library.Reaches entry path

namespace Session

def visited (session : Session) : List ModulePath :=
  session.done.map Prod.fst ++ session.inProgress

/-- The part of the import graph that a session has walked. -/
structure Walked (library : Library) (entry : ModulePath) (session : Session) : Prop where
  nodup : session.visited.Nodup
  texts : ∀ path ∈ session.visited, (library.read path).isText = true
  reached : ∀ path ∈ session.visited, library.Reaches entry path
  chain : session.inProgress.IsChain library.Imports
  asked : (session.asked.filter fun path => (library.read path).isText).Perm session.visited
  closed :
    ∀ path ∈ session.done.map Prod.fst,
      ∀ imported,
        library.Imports path imported →
        (library.read imported).isText = true →
        imported ∈ session.visited

structure Logged
    (library : Library)
    (context : Context)
    (start : Registry)
    (session : Session)
    (checks : List ModuleCheck) : Prop where
  valid : library.Checks context start checks
  registry : session.registry = ModuleCheck.registryAfter start checks
  parsed :
    ∀ path,
      path ∈ checks.map ModuleCheck.path ↔
        path ∈ session.done.map Prod.fst ∧ (library.tree? path).isSome = true
  compiled :
    ∀ path interface,
      (path, .compiled interface) ∈ session.done ↔
        ModuleCheck.interface? checks path = some interface
  modules : session.modules.map CompiledModule.path = (ModuleCheck.compiledPaths checks).reverse
  ordered : library.Ordered (∃ report ∈ session.reports, report.isImportCycle = true) checks

structure Accounted
    (library : Library)
    (entry : ModulePath)
    (session : Session)
    (checks : List ModuleCheck) : Prop where
  failed : ∀ path, (path, .failed) ∈ session.done → session.reports ≠ []
  cause : session.reports ≠ [] → ∃ path, library.Reaches entry path ∧ library.Faulty checks path
  cycles : ∀ report ∈ session.reports, library.TracesCycle entry report

structure Resolved
    (library : Library)
    (context : Context)
    (start : Registry)
    (entry : ModulePath)
    (session : Session)
    (checks : List ModuleCheck) : Prop where
  walked : session.Walked library entry
  logged : session.Logged library context start checks
  accounted : session.Accounted library entry checks

structure Expects
    (library : Library)
    (entry : ModulePath)
    (session : Session)
    (path : ModulePath) : Prop where
  reached : library.Reaches entry path
  imported : ∀ last ∈ session.inProgress.getLast?, library.Imports last path

def Answers (library : Library) (session : Session) (checks : List ModuleCheck)
    (path : ModulePath) : Required → Prop
  | .ready interface => ModuleCheck.interface? checks path = some interface
  | .failed => (path, .failed) ∈ session.done
  | .cycle chain =>
    path ∈ session.inProgress ∧
      chain = session.inProgress.dropWhile (fun other => other ≠ path) ++ [path]
  | .missing => library.read path = .absent
  | .unreadable failure => library.read path = .unreadable failure

structure Follows
    (library : Library)
    (requested : List ModulePath)
    (before after : Session) : Prop where
  inProgress : after.inProgress = before.inProgress
  newer :
    ∃ newer,
      after.done = newer ++ before.done ∧
        ∀ path,
          (library.read path).isText = false →
          after.asked.count path =
            before.asked.count path + requested.count path +
              ((newer.map Prod.fst).flatMap library.importsOf).count path

end Session

theorem reflTransGen_of_isChain {α : Type} {leads : α → α → Prop} {first last : α}
    {earlier : List α} (chain : (earlier ++ [last]).IsChain leads)
    (member : first ∈ earlier ++ [last]) : Relation.ReflTransGen leads first last := by
  induction earlier generalizing first with
  | nil =>
    obtain rfl := List.mem_singleton.mp member
    exact .refl
  | cons head earlier ih =>
    obtain ⟨step, rest⟩ := List.isChain_cons.mp chain
    rcases List.mem_cons.mp member with rfl | later
    · cases earlier with
      | nil => exact .single (step last rfl)
      | cons second earlier =>
        exact .head (step second rfl) (ih rest List.mem_cons_self)
    · exact ih rest later

theorem Library.Circular.exists_onCycle {library : Library} {chain : List ModulePath}
    (circular : library.Circular chain) : ∃ path ∈ chain, library.OnCycle path := by
  obtain ⟨imports, closed, long⟩ := circular
  match chain, long with
  | first :: second :: rest, _ =>
    obtain ⟨step, _⟩ := List.isChain_cons.mp imports
    have isLast : (second :: rest).getLast (List.cons_ne_nil _ _) = first := by
      have found := closed.symm
      exact (List.getLast_cons _).symm.trans (Option.some.inj found)
    have split : second :: rest = (second :: rest).dropLast ++ [first] := by
      conv_lhs => rw [← List.dropLast_append_getLast (List.cons_ne_nil second rest), isLast]
    have back : Relation.ReflTransGen library.Imports second first := by
      refine reflTransGen_of_isChain (split ▸ (List.isChain_cons.mp imports).2) ?_
      rw [← split]
      exact List.mem_cons_self
    exact ⟨first, List.mem_cons_self, Relation.TransGen.head' (step second rfl) back⟩

namespace Session

open ModuleCheck

variable {library : Library} {context : Context} {start : Registry} {entry path : ModulePath}
variable {session before middle after : Session} {checks : List ModuleCheck}

variable {earlier : List ModulePath} {state : ModuleState} {later : List ModuleCheck}

theorem nodup_done (walked : session.Walked library entry) :
    (session.done.map Prod.fst).Nodup :=
  (List.nodup_append.mp walked.nodup).1

theorem not_mem_done_of_inProgress (walked : session.Walked library entry)
    (inProgress : path ∈ session.inProgress) : path ∉ session.done.map Prod.fst :=
  fun isDone => (List.nodup_append.mp walked.nodup).2.2 path isDone path inProgress rfl

theorem eq_of_mem_done {first second : ModuleState} (walked : session.Walked library entry)
    (isFirst : (path, first) ∈ session.done) (isSecond : (path, second) ∈ session.done) :
    first = second :=
  congrArg Prod.snd (List.inj_on_of_nodup_map (nodup_done walked) isFirst isSecond rfl)

namespace Resolved

theorem mem_done_of_interface? {interface : TypeId}
    (resolved : session.Resolved library context start entry checks)
    (found : interface? checks path = some interface) : path ∈ session.done.map Prod.fst :=
  List.mem_map_of_mem ((resolved.logged.compiled path interface).mpr found)

theorem interface?_eq_none {required : Required}
    (resolved : session.Resolved library context start entry checks)
    (answers : session.Answers library checks path required)
    (notReady : ∀ interface, required ≠ .ready interface) : interface? checks path = none := by
  rw [Option.eq_none_iff_forall_ne_some]
  intro interface found
  have isDone := resolved.mem_done_of_interface? found
  have isText := resolved.walked.texts path (List.mem_append_left _ isDone)
  cases required with
  | ready other => exact notReady other rfl
  | failed =>
    have compiled := (resolved.logged.compiled path interface).mpr found
    exact ModuleState.noConfusion (eq_of_mem_done resolved.walked compiled answers)
  | cycle chain => exact not_mem_done_of_inProgress resolved.walked answers.1 isDone
  | missing =>
    rw [show library.read path = .absent from answers] at isText
    exact Bool.noConfusion isText
  | unreadable failure =>
    rw [show library.read path = .unreadable failure from answers] at isText
    exact Bool.noConfusion isText

end Resolved

namespace Follows

variable {requested first second : List ModulePath}

theorem refl (nothing : ∀ path ∈ requested, (library.read path).isText = true) :
    session.Follows library requested session := by
  refine ⟨rfl, [], rfl, fun path isText => ?_⟩
  have absent : path ∉ requested := fun member => by
    rw [nothing path member] at isText
    exact Bool.noConfusion isText
  simp [List.count_eq_zero_of_not_mem absent]

theorem trans (one : before.Follows library first middle)
    (other : middle.Follows library second after) :
    before.Follows library (first ++ second) after := by
  obtain ⟨newer, done, asked⟩ := one.newer
  obtain ⟨newest, doneAfter, askedAfter⟩ := other.newer
  refine ⟨other.inProgress.trans one.inProgress, newest ++ newer, ?_, fun path isText => ?_⟩
  · rw [doneAfter, done, List.append_assoc]
  · rw [askedAfter path isText, asked path isText, List.map_append, List.flatMap_append,
      List.count_append, List.count_append]
    omega

theorem mem_done {state : ModulePath × ModuleState}
    (follows : before.Follows library requested after) (member : state ∈ before.done) :
    state ∈ after.done := by
  obtain ⟨newer, done, _⟩ := follows.newer
  rw [done]
  exact List.mem_append_right _ member

theorem answers {required : Required} {later : List ModuleCheck}
    (follows : before.Follows library requested after)
    (resolved : before.Resolved library context start entry checks)
    (resolvedAfter : after.Resolved library context start entry later)
    (answers : before.Answers library checks path required) :
    after.Answers library later path required := by
  cases required with
  | ready interface =>
    exact (resolvedAfter.logged.compiled path interface).mp
      (follows.mem_done ((resolved.logged.compiled path interface).mpr answers))
  | failed => exact follows.mem_done answers
  | cycle chain =>
    rw [Answers, follows.inProgress]
    exact answers
  | missing => exact answers
  | unreadable failure => exact answers

theorem expects (follows : before.Follows library requested after)
    (expects : before.Expects library entry path) : after.Expects library entry path :=
  ⟨expects.reached, follows.inProgress ▸ expects.imported⟩

end Follows

theorem Walked.circular (walked : session.Walked library entry)
    (expects : session.Expects library entry path) (inProgress : path ∈ session.inProgress) :
    library.Circular (session.inProgress.dropWhile (fun other => other ≠ path) ++ [path]) := by
  obtain ⟨earlier, later, split⟩ := List.append_of_mem inProgress
  have isNew : path ∉ earlier := by
    have nodup := (List.nodup_append.mp walked.nodup).2.1
    rw [split] at nodup
    exact fun member =>
      (List.nodup_append.mp nodup).2.2 path member path List.mem_cons_self rfl
  have dropped : session.inProgress.dropWhile (fun other => other ≠ path) = path :: later := by
    rw [split, List.dropWhile_append_of_pos fun other member => by
      have differs : other ≠ path := fun same => isNew (same ▸ member)
      simpa using differs]
    simp
  rw [dropped]
  refine ⟨?_, by rw [List.getLast?_concat]; rfl, by simp⟩
  refine List.IsChain.append ?_ (List.isChain_singleton _) ?_
  · exact walked.chain.suffix ⟨earlier, split.symm⟩
  · rintro last isLast _ isPath
    obtain rfl := Option.some.inj isPath
    refine expects.imported last ?_
    rw [split, List.getLast?_append_of_ne_nil _ (List.cons_ne_nil _ _)]
    exact isLast

namespace Resolved

variable {required : Required} {imported : ModulePath}

variable (resolved : session.Resolved library context start entry checks)
include resolved

theorem reached_of_mem_cycle
    (expects : session.Expects library entry path) :
    ∀ other ∈ session.inProgress.dropWhile (fun other => other ≠ path) ++ [path],
      library.Reaches entry other := by
  rw [List.forall_mem_append]
  refine ⟨fun other member => ?_, List.forall_mem_singleton.mpr expects.reached⟩
  exact resolved.walked.reached other
    (List.mem_append_right _ ((List.dropWhile_sublist _).mem member))

theorem mem_visited
    (answers : session.Answers library checks path required)
    (isText : (library.read path).isText = true) : path ∈ session.visited := by
  cases required with
  | ready interface => exact List.mem_append_left _ (resolved.mem_done_of_interface? answers)
  | failed => exact List.mem_append_left _ (List.mem_map_of_mem answers)
  | cycle chain => exact List.mem_append_right _ answers.1
  | missing =>
    rw [show library.read path = .absent from answers] at isText
    exact Bool.noConfusion isText
  | unreadable failure =>
    rw [show library.read path = .unreadable failure from answers] at isText
    exact Bool.noConfusion isText

theorem exists_faulty {fault : Fault}
    (expects : session.Expects library entry path)
    (answers : session.Answers library checks path required)
    (isFault : required.fault? path = some fault) :
    ∃ cause, library.Reaches entry cause ∧ library.Faulty checks cause := by
  cases required with
  | ready interface => simp [Required.fault?] at isFault
  | failed => simp [Required.fault?] at isFault
  | cycle chain =>
    obtain ⟨cause, member, onCycle⟩ :=
      (resolved.walked.circular expects answers.1).exists_onCycle
    exact ⟨cause, resolved.reached_of_mem_cycle expects cause member, .inr (.inr onCycle)⟩
  | missing =>
    refine ⟨path, expects.reached, .inl ?_⟩
    simp [Library.tree?, show library.read path = .absent from answers]
  | unreadable failure =>
    refine ⟨path, expects.reached, .inl ?_⟩
    simp [Library.tree?, show library.read path = .unreadable failure from answers]

theorem checked_or_onCycle
    (inProgress : session.inProgress = earlier ++ [path])
    (isImported : library.Imports path imported)
    (answers : session.Answers library checks imported required)
    (readable : (library.tree? imported).isSome = true) :
    imported ∈ checks.map ModuleCheck.path ∨
      library.OnCycle path ∧ ∃ chain, required = .cycle chain := by
  cases required with
  | ready interface =>
    exact .inl ((resolved.logged.parsed imported).mpr
      ⟨resolved.mem_done_of_interface? answers, readable⟩)
  | failed =>
    exact .inl ((resolved.logged.parsed imported).mpr ⟨List.mem_map_of_mem answers, readable⟩)
  | cycle chain =>
    have back : Relation.ReflTransGen library.Imports imported path :=
      reflTransGen_of_isChain (inProgress ▸ resolved.walked.chain) (inProgress ▸ answers.1)
    exact .inr ⟨.head' isImported back, chain, rfl⟩
  | missing => simp [Library.tree?, show library.read imported = .absent from answers] at readable
  | unreadable failure =>
    simp [Library.tree?, show library.read imported = .unreadable failure from answers] at readable

theorem reported_of_unready
    (answers : session.Answers library checks path required)
    (unready : interface? checks path = none) :
    (∃ fault, required.fault? path = some fault) ∨ session.reports ≠ [] := by
  cases required with
  | ready interface =>
    rw [show interface? checks path = some interface from answers] at unready
    simp at unready
  | failed => exact .inr (resolved.accounted.failed path answers)
  | cycle chain => exact .inl ⟨_, rfl⟩
  | missing => exact .inl ⟨_, rfl⟩
  | unreadable failure => exact .inl ⟨_, rfl⟩

end Resolved

def asking (session : Session) (path : ModulePath) : Session :=
  { session with asked := session.asked ++ [path] }

def entering (session : Session) (path : ModulePath) : Session :=
  { session with inProgress := session.inProgress ++ [path] }

def leaving (session : Session) (path : ModulePath) (state : ModuleState) : Session :=
  { session with
    inProgress := session.inProgress.dropLast
    done := (path, state) :: session.done }

def noting (session : Session) (tokens : List Token) : Session :=
  { session with tokens := some tokens }

namespace Resolved

variable (resolved : session.Resolved library context start entry checks)
include resolved

theorem noting
    (tokens : List Token) :
    (session.noting tokens).Resolved library context start entry checks := by
  obtain ⟨⟨nodup, texts, reached, chain, asked, closed⟩,
    ⟨valid, registry, parsed, compiled, modules, ordered⟩, ⟨failed, cause, cycles⟩⟩ := resolved
  exact ⟨⟨nodup, texts, reached, chain, asked, closed⟩,
    ⟨valid, registry, parsed, compiled, modules, ordered⟩, ⟨failed, cause, cycles⟩⟩

theorem asking
    (noText : (library.read path).isText = false) :
    (session.asking path).Resolved library context start entry checks := by
  obtain ⟨⟨nodup, texts, reached, chain, asked, closed⟩,
    ⟨valid, registry, parsed, compiled, modules, ordered⟩, ⟨failed, cause, cycles⟩⟩ := resolved
  refine ⟨⟨nodup, texts, reached, chain, ?_, closed⟩,
    ⟨valid, registry, parsed, compiled, modules, ordered⟩, ⟨failed, cause, cycles⟩⟩
  have same : (session.asking path).asked.filter (fun path => (library.read path).isText) =
      session.asked.filter fun path => (library.read path).isText := by
    simp [Session.asking, noText]
  rw [same]
  exact asked

theorem entering
    (expects : session.Expects library entry path) (isText : (library.read path).isText = true)
    (isNew : path ∉ session.visited) :
    ((session.asking path).entering path).Resolved library context start entry checks := by
  obtain ⟨⟨nodup, texts, reached, chain, asked, closed⟩,
    ⟨valid, registry, parsed, compiled, modules, ordered⟩, ⟨failed, cause, cycles⟩⟩ := resolved
  have visited : ((session.asking path).entering path).visited = session.visited ++ [path] :=
    (List.append_assoc _ _ _).symm
  refine ⟨⟨?_, ?_, ?_, ?_, ?_, ?_⟩, ⟨valid, registry, parsed, compiled, modules, ordered⟩,
    ⟨failed, cause, cycles⟩⟩
  · rw [visited]
    exact List.concat_eq_append ▸ nodup.concat isNew
  · rw [visited, List.forall_mem_append]
    exact ⟨texts, List.forall_mem_singleton.mpr isText⟩
  · rw [visited, List.forall_mem_append]
    exact ⟨reached, List.forall_mem_singleton.mpr expects.reached⟩
  · refine List.IsChain.append chain (List.isChain_singleton _) ?_
    rintro last isLast _ isPath
    obtain rfl := Option.some.inj isPath
    exact expects.imported last isLast
  · rw [visited]
    have longer : ((session.asking path).entering path).asked.filter
        (fun path => (library.read path).isText) =
        session.asked.filter (fun path => (library.read path).isText) ++ [path] := by
      simp [Session.asking, Session.entering, isText]
    rw [longer]
    exact asked.append_right [path]
  · intro other isDone imported isImported hasText
    rw [visited]
    exact List.mem_append_left _ (closed other isDone imported isImported hasText)

end Resolved

structure Settled
    (library : Library)
    (context : Context)
    (start : Registry)
    (entry path : ModulePath)
    (before after : Session)
    (checks later : List ModuleCheck)
    (state : ModuleState) : Prop where
  done : after.done = before.done
  inProgress : after.inProgress = before.inProgress
  asked : after.asked = before.asked
  closed :
    ∀ imported,
      library.Imports path imported →
      (library.read imported).isText = true →
      imported ∈ before.visited
  valid : library.Checks context start later
  registry : after.registry = registryAfter start later
  parsed :
    ∀ other,
      other ∈ later.map ModuleCheck.path ↔
        other ∈ checks.map ModuleCheck.path ∨ other = path ∧ (library.tree? other).isSome = true
  compiled :
    ∀ other interface,
      interface? later other = some interface ↔
        interface? checks other = some interface ∨ other = path ∧ state = .compiled interface
  modules : after.modules.map CompiledModule.path = (compiledPaths later).reverse
  ordered : library.Ordered (∃ report ∈ after.reports, report.isImportCycle = true) later
  reported : state = .failed ∨ before.reports ≠ [] → after.reports ≠ []
  cause : after.reports ≠ [] → ∃ path, library.Reaches entry path ∧ library.Faulty later path
  cycles : ∀ report ∈ after.reports, library.TracesCycle entry report

theorem perm_visited_leaving (inProgress : session.inProgress = earlier ++ [path]) :
    (session.leaving path state).visited.Perm session.visited := by
  unfold visited leaving
  rw [inProgress, List.dropLast_concat, List.map_cons, List.cons_append]
  refine (List.perm_append_singleton path _).symm.trans ?_
  rw [List.append_assoc]

theorem Settled.leaving
    (outcome : Settled library context start entry path before after checks later state)
    (resolved : before.Resolved library context start entry checks)
    (inProgress : before.inProgress = earlier ++ [path]) :
    (after.leaving path state).Resolved library context start entry later := by
  have walked := resolved.walked
  have visited : (after.leaving path state).visited.Perm before.visited := by
    refine (perm_visited_leaving (outcome.inProgress.trans inProgress)).trans ?_
    rw [Session.visited, outcome.done, outcome.inProgress, ← Session.visited]
  have done : (after.leaving path state).done = (path, state) :: before.done :=
    congrArg ((path, state) :: ·) outcome.done
  refine ⟨⟨?_, ?_, ?_, ?_, ?_, ?_⟩, ⟨outcome.valid, outcome.registry, ?_, ?_, outcome.modules,
    outcome.ordered⟩, ⟨?_, outcome.cause, outcome.cycles⟩⟩
  · exact visited.nodup_iff.mpr walked.nodup
  · exact fun other member => walked.texts other (visited.mem_iff.mp member)
  · exact fun other member => walked.reached other (visited.mem_iff.mp member)
  · show after.inProgress.dropLast.IsChain library.Imports
    rw [outcome.inProgress]
    exact walked.chain.dropLast
  · show (after.asked.filter _).Perm _
    rw [outcome.asked]
    exact walked.asked.trans visited.symm
  · intro other isDone imported isImported isText
    rw [done] at isDone
    rw [visited.mem_iff]
    rcases List.mem_cons.mp isDone with rfl | old
    · exact outcome.closed imported isImported isText
    · exact walked.closed other old imported isImported isText
  · intro other
    rw [outcome.parsed, resolved.logged.parsed, done, List.map_cons, List.mem_cons]
    constructor
    · rintro (⟨old, readable⟩ | ⟨same, readable⟩)
      · exact ⟨.inr old, readable⟩
      · exact ⟨.inl same, readable⟩
    · rintro ⟨same | old, readable⟩
      · exact .inr ⟨same, readable⟩
      · exact .inl ⟨old, readable⟩
  · intro other interface
    rw [outcome.compiled, ← resolved.logged.compiled, done, List.mem_cons, Prod.mk.injEq, or_comm,
      eq_comm (a := state)]
  · intro other isFailed
    rw [done] at isFailed
    rcases List.mem_cons.mp isFailed with same | old
    · exact outcome.reported (.inl (Prod.mk.inj same).2.symm)
    · exact outcome.reported (.inr (resolved.accounted.failed other old))

theorem Settled.follows {state : ModuleState}
    (outcome : Settled library context start entry path middle after checks later state)
    (follows :
      ((before.asking path).entering path).Follows library (library.importsOf path) middle) :
    before.Follows library [path] (after.leaving path state) := by
  obtain ⟨newer, done, asked⟩ := follows.newer
  refine ⟨?_, (path, state) :: newer, ?_, fun other noText => ?_⟩
  · show after.inProgress.dropLast = before.inProgress
    rw [outcome.inProgress, follows.inProgress]
    exact List.dropLast_concat
  · show (path, state) :: after.done = (path, state) :: newer ++ before.done
    rw [outcome.done, done]
    rfl
  · show after.asked.count other = _
    have more : ((before.asking path).entering path).asked.count other =
        before.asked.count other + [path].count other :=
      List.count_append
    rw [outcome.asked, asked other noText, List.map_cons, List.flatMap_cons, List.count_append]
    dsimp only
    omega

end Session

end Toolshed
