import Toolshed.Proofs.Typing.Frame
import Toolshed.Proofs.Typing.Judgment
import Toolshed.Proofs.Typing.Refinement

namespace Toolshed

/-!
# What a check of code does and finds

A check of code writes to tables only at nodes of its own. If it notes no fault,
then what it has found still holds at the end, because nothing is taken back.
-/

namespace Check

variable {α β : Type} {ids sites own all mine : List NodeId} {state after final : CheckState}
variable {binding : Binding}

structure Later (ids : List NodeId) (state final : CheckState) : Prop where
  registry : state.registry.Grows final.registry
  types : ∀ id ∈ ids, final.types.get? id = state.types.get? id
  resolutions : ∀ id ∈ ids, final.resolutions.get? id = state.resolutions.get? id
  denotations :
    ∀ id type,
      state.denotations.get? id = some type →
      final.denotations.get? id = some type

namespace Later

theorem refl (state : CheckState) : Later ids state state :=
  ⟨.refl _, fun _ _ => rfl, fun _ _ => rfl, fun _ _ => id⟩

theorem mono {fewer : List NodeId} (later : Later ids state final) (subset : fewer ⊆ ids) :
    Later fewer state final where
  registry := later.registry
  types := fun id member => later.types id (subset member)
  resolutions := fun id member => later.resolutions id (subset member)
  denotations := later.denotations

variable {others : List NodeId}

theorem back (later : Later ids after final) (trace : Trace others state after)
    (grows : state.registry.Grows after.registry) (apart : ∀ id ∈ ids, id ∉ others) :
    Later ids state final where
  registry := grows.trans later.registry
  types := fun id member => (later.types id member).trans (trace.types id (apart id member))
  resolutions := fun id member =>
    (later.resolutions id member).trans (trace.resolutions id (apart id member))
  denotations := fun id type denotes =>
    later.denotations id type (trace.denotations id type denotes)

theorem before (later : Later ids after final) (step : Step others state after)
    (apart : ∀ id ∈ ids, id ∉ others) : Later ids state final :=
  later.back step.toTrace (Registry.grows_of_shapes step.shapes step.objects) apart

theorem withoutContext {context : Context}
    (later : Later ids { state with context := context } final) : Later ids state final :=
  ⟨later.registry, later.types, later.resolutions, later.denotations⟩

theorem withoutUnits {units : List NodeId}
    (later : Later ids { state with units := units } final) : Later ids state final :=
  ⟨later.registry, later.types, later.resolutions, later.denotations⟩

end Later

theorem regular_withContext (regular : state.Regular) (context : Context) :
    CheckState.Regular { state with context := context } :=
  ⟨regular.toSound, regular.denotations⟩

theorem regular_withUnits (regular : state.Regular) (units : List NodeId) :
    CheckState.Regular { state with units := units } :=
  ⟨regular.toSound, regular.denotations⟩

/--
A check makes a step with faults at some sites, and writes types and resolutions
at nodes of its own. What it finds is about the context before it, its answer,
the context after it and the end of the whole check.
-/
structure Yields
    (contexts : Context → Context → Prop)
    (sites own : List NodeId)
    (check : Check α)
    (found : Context → α → Context → CheckState → Prop) : Prop where
  frames : Frames contexts sites check
  kept :
    ∀ state,
    ∀ id ∉ own,
      (stateAfter check state).types.get? id = state.types.get? id ∧
        (stateAfter check state).resolutions.get? id = state.resolutions.get? id
  holds :
    ∀ state,
      (stateAfter check state).diagnostics = [] →
      state.Regular →
      own.Nodup →
      ∀ final,
        Later own (stateAfter check state) final →
        found state.context (answer check state) (stateAfter check state).context final

namespace Yields

variable {contexts : Context → Context → Prop} {more others : List NodeId}
variable {check : Check α} {rest : α → Check β} {name : String} {node : NodeId}
variable {found goal : Context → α → Context → CheckState → Prop}
variable {result : Context → β → Context → CheckState → Prop}

theorem imp (yields : Yields contexts sites own check found)
    (implies : ∀ context value last final, found context value last final →
      goal context value last final) : Yields contexts sites own check goal :=
  ⟨yields.frames, yields.kept, fun state silent regular nodup final later =>
    implies _ _ _ _ (yields.holds state silent regular nodup final later)⟩

theorem settle [IsPreorder Context contexts] (yields : Yields Eq sites own check found)
    (implies : ∀ context value final, found context value context final →
      goal context value context final) : Yields contexts sites own check goal := by
  refine ⟨.of_steady yields.frames, yields.kept, fun state silent regular nodup final later => ?_⟩
  have holds := yields.holds state silent regular nodup final later
  rw [← (yields.frames state).2] at holds ⊢
  exact implies _ _ _ holds

theorem within (yields : Yields contexts sites own check found)
    (fits : sites ⊆ all ∧ own ⊆ mine ∧ (mine.Nodup → own.Nodup)) :
    Yields contexts all mine check found :=
  ⟨yields.frames.mono fits.1, fun state id outside => yields.kept state id fun member =>
    outside (fits.2.1 member), fun state silent regular isNodup final later =>
    yields.holds state silent regular (fits.2.2 isNodup) final (later.mono fits.2.1)⟩

theorem before (yields : Yields contexts sites more check found)
    (later : Later (own ++ more) (stateAfter check state) final) (nodup : (own ++ more).Nodup) :
    Later own state final ∧ Later more (stateAfter check state) final := by
  have apart : ∀ id ∈ own, id ∉ more := fun id inOwn inMore =>
    (List.nodup_append.mp nodup).2.2 id inOwn id inMore rfl
  have step := (yields.frames state).1
  refine ⟨⟨(Registry.grows_of_shapes step.shapes step.objects).trans later.registry, ?_, ?_, ?_⟩,
    later.mono (List.subset_append_right _ _)⟩
  · intro id member
    rw [later.types id (List.mem_append_left _ member), (yields.kept state id (apart id member)).1]
  · intro id member
    rw [later.resolutions id (List.mem_append_left _ member),
      (yields.kept state id (apart id member)).2]
  · exact fun id type denotes => later.denotations id type (step.denotations id type denotes)

section Bind

variable [IsPreorder Context contexts]

theorem pure {value : α} (holds : ∀ context final, found context value context final) :
    Yields contexts [] [] (Pure.pure value) found :=
  ⟨.pure, fun _ _ _ => ⟨rfl, rfl⟩, fun state _ _ _ final _ => holds state.context final⟩

theorem done {value : α} : Yields contexts [] [] (Pure.pure value) fun _ _ _ _ => True :=
  pure fun _ _ => trivial

theorem bindAnswer (condition : α → Prop) (always : ∀ state, condition (answer check state))
    (first : Yields contexts sites own check found)
    (second :
      ∀ value context,
        condition value →
        Yields contexts others more (rest value) fun middle answer last final =>
          found context value middle final → result context answer last final) :
    Yields contexts (sites ++ others) (own ++ more) (check >>= rest) result := by
  have later : ∀ state context,
      Yields contexts others more (rest (answer check state)) fun middle value last final =>
        found context (answer check state) middle final → result context value last final :=
    fun state context => second _ context (always state)
  refine ⟨?_, ?_, ?_⟩
  · exact .bindAnswer (first.frames.mono (List.subset_append_left _ _)) fun state =>
      (later state state.context).frames.mono (List.subset_append_right _ _)
  · intro state id outside
    obtain ⟨types, resolutions⟩ := first.kept state id fun member =>
      outside (List.mem_append_left _ member)
    obtain ⟨laterTypes, laterResolutions⟩ := (later state state.context).kept
      (stateAfter check state) id fun member => outside (List.mem_append_right _ member)
    exact ⟨laterTypes.trans types, laterResolutions.trans resolutions⟩
  · intro state silent regular nodup final laterFinal
    have rests := later state state.context
    have silentFirst := (rests.frames (stateAfter check state)).1.silent silent
    obtain ⟨laterFirst, laterRest⟩ := rests.before laterFinal nodup
    refine rests.holds (stateAfter check state) silent ?_ (List.nodup_append.mp nodup).2.1 final
      laterRest ?_
    · exact (first.frames state).1.regular silentFirst regular
    · exact first.holds state silentFirst regular (List.nodup_append.mp nodup).1 final laterFirst

theorem bind (first : Yields contexts sites own check found)
    (second :
      ∀ value context,
        Yields contexts others more (rest value) fun middle answer last final =>
          found context value middle final → result context answer last final) :
    Yields contexts (sites ++ others) (own ++ more) (check >>= rest) result :=
  bindAnswer (fun _ => True) (fun _ => trivial) first fun value context _ => second value context

theorem nextAnswer (condition : α → Prop) {found : Context → α → CheckState → Prop}
    (always : ∀ state, condition (answer check state))
    (first : Yields Eq sites own check fun context value _ final => found context value final)
    (second :
      ∀ value,
        condition value →
        Yields contexts others more (rest value) fun context answer last final =>
          found context value final → result context answer last final) :
    Yields contexts (sites ++ others) (own ++ more) (check >>= rest) result := by
  have loose : Yields contexts sites own check fun context value last final =>
      context = last ∧ found context value final :=
    first.settle fun _ _ _ holds => ⟨rfl, holds⟩
  refine bindAnswer condition always loose fun value context holds => (second value holds).imp ?_
  rintro _ answer last final implies ⟨rfl, isFound⟩
  exact implies isFound

theorem next {found : Context → α → CheckState → Prop}
    (first : Yields Eq sites own check fun context value _ final => found context value final)
    (second :
      ∀ value,
        Yields contexts others more (rest value) fun context answer last final =>
          found context value final → result context answer last final) :
    Yields contexts (sites ++ others) (own ++ more) (check >>= rest) result :=
  nextAnswer (fun _ => True) (fun _ => trivial) first fun value _ => second value

theorem nextHere {found : Context → α → CheckState → Prop}
    (first : Yields Eq sites [] check fun context value _ final => found context value final)
    (second :
      ∀ value,
        Yields contexts sites own (rest value) fun context answer last final =>
          found context value final → result context answer last final) :
    Yields contexts sites own (check >>= rest) result :=
  (next first second).within (by grind)

end Bind

theorem get {rest : CheckState → Check β}
    (second :
      ∀ read : CheckState,
        Yields contexts sites own (rest read) fun context value last final =>
          read.context = context →
          read.Regular →
          read.registry.Grows final.registry →
          result context value last final) :
    Yields contexts sites own (MonadState.get >>= rest) result := by
  refine ⟨.get fun read => (second read).frames, fun state => (second state).kept state, ?_⟩
  intro state silent regular nodup final later
  have step := ((second state).frames state).1
  have grows : state.registry.Grows final.registry :=
    (Registry.grows_of_shapes step.shapes step.objects).trans later.registry
  exact (second state).holds state silent regular nodup final later rfl regular grows

theorem lookup {rest : Option Binding → Check β}
    (second :
      ∀ binding,
        Yields contexts sites own (rest binding) fun context value last final =>
          context.lookup name = binding → result context value last final) :
    Yields contexts sites own (Check.lookup name >>= rest) result :=
  get fun read => (second (read.context.lookup name)).imp fun _ _ _ _ holds same _ _ =>
    holds (same ▸ rfl)

theorem describe {type : TypeId} {rest : String → Check β}
    (second : ∀ text, Yields contexts sites own (rest text) result) :
    Yields contexts sites own (Check.describe type >>= rest) result :=
  get fun read => (second (read.registry.describe type)).imp fun _ _ _ _ holds _ _ _ => holds

section Fault

variable [IsPreorder Context contexts] {fault : Fault}

theorem report {goal : Context → Unit → Context → CheckState → Prop}
    (textual : fault.kind ≠ .internal ∧ fault.kind ≠ .moduleResolution) :
    Yields contexts [node] [] (Check.report fault node) goal :=
  ⟨.of_steady (steady_report textual (List.mem_singleton_self node)), fun _ _ _ => ⟨rfl, rfl⟩,
    fun _ silent => absurd silent (List.append_ne_nil_of_right_ne_nil _ (List.cons_ne_nil _ _))⟩

theorem reported {rest : Unit → Check β} {any : Context → β → Context → CheckState → Prop}
    (second : Yields contexts others more (rest ()) any)
    (textual : fault.kind ≠ .internal ∧ fault.kind ≠ .moduleResolution) :
    Yields contexts (node :: others) more (Check.report fault node >>= rest) result := by
  have never : Yields Eq [node] [] (Check.report fault node) fun _ _ _ _ => False := report textual
  exact never.next fun _ => second.imp fun _ _ _ _ _ => False.elim

theorem failed {goal : Context → TypeId → Context → CheckState → Prop}
    (textual : fault.kind ≠ .internal ∧ fault.kind ≠ .moduleResolution) :
    Yields contexts [node] [] (Check.failed fault node) goal :=
  reported done textual

end Fault

theorem inScope {kind : ScopeKind} {found : Context → α → CheckState → Prop}
    (inner :
      Yields Context.Widens sites own check fun context value _ final =>
        found context value final) :
    Yields Eq sites own (Check.inScope kind check) fun context value _ final =>
      found (context.push kind) value final :=
  ⟨steady_inScope inner.frames, fun state => inner.kept { state with
      context := state.context.push kind },
    fun state silent regular nodup final later =>
      inner.holds { state with context := state.context.push kind } silent
        (regular_withContext regular _) nodup final later.withoutContext⟩

theorem inUnit {owner : NodeId} (inner : Yields contexts sites own check found) :
    Yields contexts sites own (Check.inUnit owner check) found :=
  ⟨.inUnit inner.frames, fun state => inner.kept { state with units := [owner] },
    fun state silent regular nodup final later =>
      inner.holds { state with units := [owner] } silent (regular_withUnits regular _) nodup final
        later.withoutUnits⟩

theorem inStatement {statement : NodeId} (inner : Yields contexts sites own check found) :
    Yields contexts sites own (Check.inStatement statement check) found :=
  ⟨.inStatement inner.frames,
    fun state => inner.kept { state with units := state.units ++ [statement] },
    fun state silent regular nodup final later =>
      inner.holds { state with units := state.units ++ [statement] } silent
        (regular_withUnits regular _) nodup final later.withoutUnits⟩

end Yields

theorem yields_define {name : String} :
    Yields Context.Widens [] [] (define name binding) fun context free last _ =>
      context.define name binding = (free, last) :=
  ⟨extends_define, fun _ _ _ => ⟨rfl, rfl⟩, fun _ _ _ _ _ _ => rfl⟩

theorem yields_declare {name : String} {node : NodeId} :
    Yields Context.Widens [node] [] (declare name binding node) fun context _ last _ =>
      context.define name binding = (true, last) := by
  refine .bind yields_define fun free context => ?_
  cases free with
  | true => exact (Yields.pure fun _ _ => id).within (by grind)
  | false => exact .report (by simp [Fault.kind])

theorem yields_functionType {parameters : List TypeId} {result : TypeId} :
    Yields Eq [] [] (functionType parameters result) fun _ type _ final =>
      type ≠ .unknown ∧ final.registry.shape? type = some (.function parameters result) :=
  ⟨steady_functionType, fun _ _ _ => ⟨rfl, rfl⟩, fun _ _ regular _ _ later =>
    ⟨Registry.intern_ne_unknown regular.rows (by simp),
      Registry.shape?_of_longer later.registry.shapes (Registry.shape?_intern _ _)⟩⟩

theorem yields_recordUse {site : NodeId} :
    Yields Eq [site] [] (recordUse binding site) fun _ _ _ _ => True := by
  refine ⟨steady_recordUse (List.mem_singleton_self _), fun state _ _ => ?_,
    fun _ _ _ _ _ _ => trivial⟩
  obtain ⟨uses, same, _⟩ := exists_recordUse binding site state
  rw [same]
  exact ⟨rfl, rfl⟩

theorem yields_order {arena : Arena} {steps : List NodeId} :
    Yields Eq [] [] (order arena steps) fun _ _ _ _ => True :=
  ⟨steady_order, fun _ _ _ => ⟨rfl, rfl⟩, fun _ _ _ _ _ _ => trivial⟩

theorem yields_typed {id : NodeId} {type : TypeId} :
    Yields Eq [id] [id] (typed id type) fun _ found _ final =>
      found = type ∧ final.types.get? id = some type := by
  have here := List.mem_singleton_self id
  refine ⟨steady_typed here, fun state other outside => ?_, fun state _ _ _ final later => ?_⟩
  · have step : Step [id] state (stateAfter (typed id type) state) := (steady_typed here state).1
    exact ⟨step.types other outside, step.resolutions other outside⟩
  · refine ⟨rfl, (later.types id here).trans ?_⟩
    show (state.types.insert id type).get? id = some type
    simp [Table.get?_insert]

end Check

end Toolshed
