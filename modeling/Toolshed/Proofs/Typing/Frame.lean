import Mathlib.Order.Defs.Unbundled
import Toolshed.Proofs.Located
import Toolshed.Proofs.Typing.Initialisation
import Toolshed.Proofs.Typing.Registry
import Toolshed.Typing.Body

namespace Toolshed

/-!
# What a check leaves as it was

Checking the code inside a declaration adds types, notes faults and fills in the
tables at its own nodes. The scopes around it are as they were.
-/

theorem Table.get?_insert {α : Type} (table : Table α) (node other : NodeId) (value : α) :
    (table.insert node value).get? other =
      if other = node then some value else table.get? other := by
  by_cases same : other = node
  · simp [Table.insert, Table.get?, same]
  · simp [Table.insert, Table.get?, same, List.lookup_cons, beq_eq_false_iff_ne.mpr same]

structure CheckState.Placed (bound : Nat) (state : CheckState) : Prop where
  diagnostics : ∀ diagnostic ∈ state.diagnostics, diagnostic.AtNode bound
  uses : ∀ entry ∈ state.uses, entry.2.site < bound

structure CheckState.Regular (state : CheckState) : Prop extends state.registry.Sound where
  denotations :
    ∀ id type,
      state.denotations.get? id = some type →
      type ≠ .unknown

structure Context.Widens (before after : Context) : Prop where
  outer : after.outer = before.outer
  kind : after.innermost.kind = before.innermost.kind
  bindings : before.innermost.bindings <+: after.innermost.bindings

namespace Context.Widens

variable {after : Context}

theorem refl (context : Context) : Widens context context :=
  ⟨rfl, rfl, List.prefix_rfl⟩

theorem trans {before middle : Context} (first : Widens before middle)
    (second : Widens middle after) : Widens before after :=
  ⟨second.outer.trans first.outer, second.kind.trans first.kind,
    first.bindings.trans second.bindings⟩

theorem define (context : Context) (name : String) (binding : Binding) :
    Widens context (context.define name binding).2 := by
  unfold Context.define
  split
  · exact refl context
  · exact ⟨rfl, rfl, List.prefix_append _ _⟩

theorem pop_push {context : Context} {kind : ScopeKind}
    (widens : Widens (context.push kind) after) : after.pop = context := by
  have outer : after.outer = context.innermost :: context.outer := widens.outer
  simp [Context.pop, outer]

end Context.Widens

instance : IsPreorder Context Context.Widens where
  refl := .refl
  trans := fun _ _ _ => .trans

namespace Check

variable {α β : Type} {ids : List NodeId} {before middle after state : CheckState}
variable {fault : Fault} {node : NodeId} {type : TypeId} {name : String} {binding : Binding}
variable {check : Check α} {contexts : Context → Context → Prop} {find : Check TypeId}

def stateAfter (check : Check α) (state : CheckState) : CheckState :=
  (check.run state).2

def answer (check : Check α) (state : CheckState) : α :=
  (check.run state).1

/--
One state of a check comes after another, and the tables were written only at
some nodes. What a written type denotes is never changed.
-/
structure Trace (ids : List NodeId) (before after : CheckState) : Prop where
  shapes : before.registry.shapes.toList <+: after.registry.shapes.toList
  silent : after.diagnostics = [] → before.diagnostics = []
  placed :
    ∀ bound, (∀ id : Nat, id ∈ ids → id < bound) → before.Placed bound → after.Placed bound
  types : ∀ id, id ∉ ids → after.types.get? id = before.types.get? id
  resolutions : ∀ id, id ∉ ids → after.resolutions.get? id = before.resolutions.get? id
  denotations :
    ∀ id type,
      before.denotations.get? id = some type →
      after.denotations.get? id = some type
  sound : before.registry.Sound → after.registry.Sound
  regular : after.diagnostics = [] → before.Regular → after.Regular

structure Step (ids : List NodeId) (before after : CheckState) : Prop
    extends Trace ids before after where
  objects : after.registry.objects = before.registry.objects
  classes : after.classes = before.classes
  declared : after.declared = before.declared

namespace Trace

theorem refl (state : CheckState) : Trace ids state state :=
  ⟨List.prefix_rfl, id, fun _ _ => id, fun _ _ => rfl, fun _ _ => rfl, fun _ _ => id,
    id, fun _ => id⟩

theorem trans (first : Trace ids before middle) (second : Trace ids middle after) :
    Trace ids before after where
  shapes := first.shapes.trans second.shapes
  silent := fun silent => first.silent (second.silent silent)
  placed := fun bound inside placed => second.placed bound inside (first.placed bound inside placed)
  types := fun id outside => (second.types id outside).trans (first.types id outside)
  resolutions := fun id outside =>
    (second.resolutions id outside).trans (first.resolutions id outside)
  denotations := fun id type denotes =>
    second.denotations id type (first.denotations id type denotes)
  sound := fun sound => second.sound (first.sound sound)
  regular := fun silent regular =>
    second.regular silent (first.regular (second.silent silent) regular)

theorem mono {more : List NodeId} (trace : Trace ids before after) (subset : ids ⊆ more) :
    Trace more before after where
  shapes := trace.shapes
  silent := trace.silent
  placed := fun bound inside => trace.placed bound fun id member => inside id (subset member)
  types := fun id outside => trace.types id fun member => outside (subset member)
  resolutions := fun id outside => trace.resolutions id fun member => outside (subset member)
  denotations := trace.denotations
  sound := trace.sound
  regular := trace.regular

end Trace

namespace Step

theorem refl (state : CheckState) : Step ids state state :=
  ⟨.refl state, rfl, rfl, rfl⟩

theorem trans (first : Step ids before middle) (second : Step ids middle after) :
    Step ids before after :=
  ⟨first.toTrace.trans second.toTrace, second.objects.trans first.objects,
    second.classes.trans first.classes, second.declared.trans first.declared⟩

theorem mono {more : List NodeId} (step : Step ids before after) (subset : ids ⊆ more) :
    Step more before after :=
  ⟨step.toTrace.mono subset, step.objects, step.classes, step.declared⟩

theorem of_same (registry : after.registry = before.registry)
    (diagnostics : after.diagnostics = before.diagnostics) (types : after.types = before.types)
    (resolutions : after.resolutions = before.resolutions)
    (denotations : after.denotations = before.denotations)
    (classes : after.classes = before.classes) (declared : after.declared = before.declared)
    (uses : after.uses = before.uses) : Step ids before after := by
  refine ⟨⟨?_, ?_, ?_, ?_, ?_, ?_, ?_, ?_⟩, ?_, classes, declared⟩
  · simp [registry]
  · rw [diagnostics]
    exact id
  · intro bound _ placed
    exact ⟨diagnostics ▸ placed.diagnostics, uses ▸ placed.uses⟩
  · intro id _
    rw [types]
  · intro id _
    rw [resolutions]
  · intro id type denotes
    rw [denotations]
    exact denotes
  · exact fun sound => registry ▸ sound
  · rintro _ ⟨sound, known⟩
    exact ⟨registry ▸ sound, denotations ▸ known⟩
  · rw [registry]

end Step

def Frames (contexts : Context → Context → Prop) (ids : List NodeId) (check : Check α) : Prop :=
  ∀ state,
    Step ids state (stateAfter check state) ∧
      contexts state.context (stateAfter check state).context

abbrev Steady (ids : List NodeId) (check : Check α) : Prop :=
  Frames Eq ids check

abbrev Extends (ids : List NodeId) (check : Check α) : Prop :=
  Frames Context.Widens ids check

namespace Frames

variable {contexts : Context → Context → Prop}
variable {check : Check α} {next : α → Check β}

theorem mono {more : List NodeId} (frames : Frames contexts ids check) (subset : ids ⊆ more) :
    Frames contexts more check :=
  fun state => ⟨(frames state).1.mono subset, (frames state).2⟩

theorem get {next : CheckState → Check β} (second : ∀ value, Frames contexts ids (next value)) :
    Frames contexts ids (MonadState.get >>= next) :=
  fun state => second state state

variable [IsPreorder Context contexts]

theorem of_steady (steady : Steady ids check) : Frames contexts ids check := by
  intro state
  refine ⟨(steady state).1, ?_⟩
  rw [← (steady state).2]
  exact refl_of contexts _

theorem pure {value : α} : Frames contexts ids (Pure.pure value) :=
  fun state => ⟨.refl state, refl_of contexts _⟩

theorem bindAnswer (first : Frames contexts ids check)
    (second : ∀ state, Frames contexts ids (next (answer check state))) :
    Frames contexts ids (check >>= next) := by
  intro state
  have firstStep := first state
  have secondStep := second state (stateAfter check state)
  exact ⟨firstStep.1.trans secondStep.1, trans_of contexts firstStep.2 secondStep.2⟩

theorem bind (first : Frames contexts ids check)
    (second : ∀ value, Frames contexts ids (next value)) : Frames contexts ids (check >>= next) :=
  bindAnswer first fun _ => second _

end Frames

theorem steady_report (textual : fault.kind ≠ .internal ∧ fault.kind ≠ .moduleResolution)
    (member : node ∈ ids) : Steady ids (report fault node) := by
  intro state
  have noisy : (stateAfter (report fault node) state).diagnostics ≠ [] :=
    List.append_ne_nil_of_right_ne_nil _ (List.cons_ne_nil _ _)
  refine ⟨⟨⟨List.prefix_rfl, fun silent => absurd silent noisy, ?_, fun _ _ => rfl,
    fun _ _ => rfl, fun _ _ => id, id, fun silent => absurd silent noisy⟩, rfl, rfl, rfl⟩, rfl⟩
  intro bound inside placed
  refine ⟨?_, placed.uses⟩
  intro diagnostic isThere
  rcases List.mem_append.mp isThere with old | new
  · exact placed.diagnostics diagnostic old
  · obtain rfl := List.mem_singleton.mp new
    exact ⟨textual, node, rfl, inside node member⟩

theorem steady_failed (textual : fault.kind ≠ .internal ∧ fault.kind ≠ .moduleResolution)
    (member : node ∈ ids) : Steady ids (failed fault node) :=
  Frames.bind (steady_report textual member) fun _ => .pure

theorem steady_functionType {parameters : List TypeId} {result : TypeId} :
    Steady ids (functionType parameters result) := by
  intro state
  have shapes := state.registry.prefix_intern (.function parameters result)
  have sound : state.registry.Sound →
      (state.registry.intern (.function parameters result)).2.Sound :=
    fun sound => sound.intern (by simp)
  exact ⟨⟨⟨shapes, id, fun _ _ placed => ⟨placed.diagnostics, placed.uses⟩, fun _ _ => rfl,
    fun _ _ => rfl, fun _ _ => id, sound,
    fun _ regular => ⟨sound regular.toSound, regular.denotations⟩⟩,
    state.registry.objects_intern _, rfl, rfl⟩, rfl⟩

theorem steady_lookup : Steady ids (lookup name) :=
  Frames.get fun _ => .pure

theorem extends_define : Extends ids (define name binding) :=
  fun _ => ⟨.of_same rfl rfl rfl rfl rfl rfl rfl rfl, .define _ _ _⟩

theorem steady_inScope {kind : ScopeKind} (inner : Extends ids check) :
    Steady ids (inScope kind check) := by
  intro state
  have opened : Step ids state { state with context := state.context.push kind } :=
    Step.of_same rfl rfl rfl rfl rfl rfl rfl rfl
  obtain ⟨step, widens⟩ := inner { state with context := state.context.push kind }
  have closed : Step ids (stateAfter check { state with context := state.context.push kind })
      (stateAfter (inScope kind check) state) :=
    Step.of_same rfl rfl rfl rfl rfl rfl rfl rfl
  exact ⟨(opened.trans step).trans closed, (Context.Widens.pop_push widens).symm⟩

theorem Frames.inUnit {owner : NodeId} (inner : Frames contexts ids check) :
    Frames contexts ids (Check.inUnit owner check) := by
  intro state
  have entered : Step ids state { state with units := [owner] } :=
    Step.of_same rfl rfl rfl rfl rfl rfl rfl rfl
  obtain ⟨step, widens⟩ := inner { state with units := [owner] }
  have left : Step ids (stateAfter check { state with units := [owner] })
      (stateAfter (Check.inUnit owner check) state) :=
    Step.of_same rfl rfl rfl rfl rfl rfl rfl rfl
  exact ⟨(entered.trans step).trans left, widens⟩

theorem Frames.inStatement {statement : NodeId} (inner : Frames contexts ids check) :
    Frames contexts ids (Check.inStatement statement check) := by
  intro state
  have entered : Step ids state { state with units := state.units ++ [statement] } :=
    Step.of_same rfl rfl rfl rfl rfl rfl rfl rfl
  obtain ⟨step, widens⟩ := inner { state with units := state.units ++ [statement] }
  have left : Step ids (stateAfter check { state with units := state.units ++ [statement] })
      (stateAfter (Check.inStatement statement check) state) :=
    Step.of_same rfl rfl rfl rfl rfl rfl rfl rfl
  exact ⟨(entered.trans step).trans left, widens⟩

theorem exists_recordUse (binding : Binding) (site : NodeId) (state : CheckState) :
    ∃ uses,
      stateAfter (recordUse binding site) state = { state with uses := uses } ∧
        ∀ entry ∈ uses, entry.2.site = site ∨ entry ∈ state.uses := by
  obtain ⟨type, origin, declaration⟩ := binding
  cases declaration with
  | none => exact ⟨state.uses, rfl, fun _ => .inr⟩
  | some declaration =>
    refine ⟨_, rfl, fun entry isThere => ?_⟩
    rcases List.mem_append.mp isThere with new | old
    · obtain ⟨unit, _, rfl⟩ := List.mem_map.mp (List.mem_reverse.mp new)
      exact .inl rfl
    · exact .inr old

theorem steady_recordUse {site : NodeId} (member : site ∈ ids) :
    Steady ids (recordUse binding site) := by
  intro state
  obtain ⟨uses, isState, logged⟩ := exists_recordUse binding site state
  rw [isState]
  refine ⟨⟨⟨List.prefix_rfl, id, ?_, fun _ _ => rfl, fun _ _ => rfl, fun _ _ => id,
    id, fun _ regular => ⟨regular.toSound, regular.denotations⟩⟩, rfl, rfl, rfl⟩, rfl⟩
  intro bound inside placed
  refine ⟨placed.diagnostics, fun entry isThere => ?_⟩
  rcases logged entry isThere with isSite | old
  · exact isSite ▸ inside site member
  · exact placed.uses entry old

theorem steady_typed (member : node ∈ ids) : Steady ids (typed node type) := by
  intro state
  refine ⟨⟨⟨List.prefix_rfl, id, fun _ _ placed => ⟨placed.diagnostics, placed.uses⟩,
    ?_, fun _ _ => rfl, fun _ _ => id,
    id, fun _ regular => ⟨regular.toSound, regular.denotations⟩⟩, rfl, rfl, rfl⟩, rfl⟩
  intro other outside
  have different : other ≠ node := fun same => outside (same ▸ member)
  show (state.types.insert node type).get? other = state.types.get? other
  rw [Table.get?_insert, if_neg different]

theorem run_denoting_known (known : state.denotations.get? node = some type) :
    denoting node find state = (type, state) := by
  simp only [denoting, bind, StateT.bind, get, getThe, MonadStateOf.get, StateT.get, pure, known]
  rfl

theorem run_denoting_new (new : state.denotations.get? node = none) :
    denoting node find state =
      (answer find state,
        { stateAfter find state with
          denotations :=
            (stateAfter find state).denotations.insert node (answer find state) }) := by
  simp only [denoting, bind, StateT.bind, get, getThe, MonadStateOf.get, StateT.get, pure, new]
  rfl

theorem steady_denoting (inner : Steady ids find)
    (known :
      ∀ state,
        state.Regular →
        (stateAfter find state).diagnostics = [] →
        answer find state ≠ .unknown) : Steady ids (denoting node find) := by
  intro state
  cases cached : state.denotations.get? node with
  | some type =>
    have same : stateAfter (denoting node find) state = state :=
      congrArg Prod.snd (run_denoting_known cached)
    rw [same]
    exact ⟨.refl state, rfl⟩
  | none =>
    have same : stateAfter (denoting node find) state = _ :=
      congrArg Prod.snd (run_denoting_new cached)
    rw [same]
    obtain ⟨step, steady⟩ := inner state
    refine ⟨⟨⟨step.shapes, step.silent, ?_, step.types, step.resolutions, ?_, step.sound, ?_⟩,
      step.objects, step.classes, step.declared⟩, steady⟩
    · intro bound inside placed
      have after := step.placed bound inside placed
      exact ⟨after.diagnostics, after.uses⟩
    · intro id type denotes
      have different : id ≠ node := by
        rintro rfl
        simp [cached] at denotes
      rw [Table.get?_insert, if_neg different]
      exact step.denotations id type denotes
    · intro silent regular
      have after := step.regular silent regular
      refine ⟨after.toSound, ?_⟩
      intro id type denotes
      rw [Table.get?_insert] at denotes
      split at denotes
      · obtain rfl := Option.some.inj denotes
        exact known state regular silent
      · exact after.denotations id type denotes

end Check

namespace Initialisation

variable {bound : Nat} {log : UseLog}

theorem site_lt_of_mem (sites : ∀ entry ∈ log, entry.2.site < bound) {unit : NodeId} {use : Use}
    (member : use ∈ log.of unit) : use.site < bound := by
  simp only [UseLog.of, List.mem_reverse, List.mem_filterMap] at member
  obtain ⟨entry, inLog, isUse⟩ := member
  split at isUse
  · obtain rfl := Option.some.inj isUse
    exact sites entry inLog
  · simp at isUse

theorem atNode_diagnostics (arena : Arena) (steps : List NodeId)
    (sites : ∀ entry ∈ log, entry.2.site < bound) :
    ∀ diagnostic ∈ diagnostics arena log steps, diagnostic.AtNode bound := by
  intro found member
  obtain ⟨step, _, _, _, reached, name, met, _, rfl⟩ := early_of_mem_diagnostics member
  obtain ⟨use, uses, isSite⟩ := met.site
  have inside : reached.use.site < bound := isSite ▸ site_lt_of_mem sites uses
  unfold diagnostic
  split
  · exact ⟨by simp [Fault.kind], _, rfl, inside⟩
  · exact ⟨by simp [Fault.kind], _, rfl, inside⟩

end Initialisation

namespace Check

variable {α : Type} {ids : List NodeId}

theorem steady_order {arena : Arena} {steps : List NodeId} : Steady ids (order arena steps) := by
  intro state
  refine ⟨⟨⟨List.prefix_rfl, ?_, ?_, fun _ _ => rfl, fun _ _ => rfl, fun _ _ => id,
    id, fun _ regular => ⟨regular.toSound, regular.denotations⟩⟩, rfl, rfl, rfl⟩, rfl⟩
  · intro silent
    exact (List.append_eq_nil_iff.mp silent).1
  · intro bound _ placed
    refine ⟨?_, placed.uses⟩
    intro diagnostic member
    rcases List.mem_append.mp member with old | new
    · exact placed.diagnostics diagnostic old
    · exact Initialisation.atNode_diagnostics arena steps placed.uses diagnostic new

end Check

end Toolshed
