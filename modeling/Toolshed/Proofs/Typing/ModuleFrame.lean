import Toolshed.Proofs.Typing.Accepted
import Toolshed.Typing.Module

namespace Toolshed

/-!
# What the check of a module leaves as it was

After the names of a module are bound, its check changes the object types of its
own classes and no others, and it declares no further classes.
-/

def CheckState.classObject? (state : CheckState) (id : NodeId) : Option ObjectId :=
  (state.classes.get? id).bind state.registry.objectId?

namespace Check

variable {α β : Type} {ids : List NodeId} {before middle after : CheckState}
variable {classes : Table TypeId} {allowed : String → Prop}
variable {type : TypeId} {id : NodeId} {name : String} {declarations : List Declaration}

structure Progress (ids : List NodeId) (before after : CheckState) : Prop
    extends Trace ids before after where
  classes : after.classes = before.classes
  declared : after.declared = before.declared
  size : after.registry.objects.size = before.registry.objects.size
  objects :
    ∀ index : Nat,
      index < before.registry.objects.size →
      (∀ id ∈ ids, after.classObject? id ≠ some ⟨index⟩) →
      after.registry.objects[index]? = before.registry.objects[index]?

theorem Step.object? (step : Step ids before after) {object : ObjectType}
    (found : before.registry.object? type = some object) :
    after.registry.object? type = some object :=
  Registry.object?_of_longer step.shapes (by simp [step.objects]) found

namespace Progress

theorem classObject? (progress : Progress ids before after) {object : ObjectId}
    (found : before.classObject? id = some object) : after.classObject? id = some object := by
  obtain ⟨selfType, isClass, isObject⟩ := Option.bind_eq_some_iff.mp found
  simp [CheckState.classObject?, progress.classes, isClass,
    Registry.objectId?_of_longer progress.shapes isObject]

theorem of_step (step : Step ids before after) : Progress ids before after where
  toTrace := step.toTrace
  classes := step.classes
  declared := step.declared
  size := by rw [step.objects]
  objects := fun _ _ _ => by rw [step.objects]

theorem refl (state : CheckState) : Progress ids state state :=
  of_step (.refl state)

theorem trans (first : Progress ids before middle) (second : Progress ids middle after) :
    Progress ids before after where
  toTrace := first.toTrace.trans second.toTrace
  classes := second.classes.trans first.classes
  declared := second.declared.trans first.declared
  size := second.size.trans first.size
  objects := by
    intro index inside apart
    have apartFirst : ∀ id ∈ ids, middle.classObject? id ≠ some ⟨index⟩ :=
      fun id member found => apart id member (second.classObject? found)
    rw [second.objects index (first.size ▸ inside) apart,
      first.objects index inside apartFirst]

theorem mono {more : List NodeId} (progress : Progress ids before after) (subset : ids ⊆ more) :
    Progress more before after where
  toTrace := progress.toTrace.mono subset
  classes := progress.classes
  declared := progress.declared
  size := progress.size
  objects := fun index inside apart =>
    progress.objects index inside fun id member => apart id (subset member)

theorem modifyObject {state : CheckState} {node : NodeId} {selfType : TypeId}
    {change : ObjectType → ObjectType} (member : node ∈ ids)
    (isClass : state.classes.get? node = some selfType) :
    Progress ids state
      { state with registry := state.registry.modifyObject selfType change } := by
  have rows : (state.registry.modifyObject selfType change).shapes = state.registry.shapes :=
    Registry.shapes_modifyObject
  refine ⟨⟨?_, fun silent => silent, fun _ _ placed => ⟨placed.diagnostics, placed.uses⟩,
    fun _ _ => rfl, fun _ _ => rfl, fun _ _ denotes => denotes,
    fun sound => sound.of_shapes rows,
    fun _ regular => ⟨regular.toSound.of_shapes rows, regular.denotations⟩⟩, rfl, rfl, ?_, ?_⟩
  · simp [rows]
  · unfold Registry.modifyObject
    split
    · simp
    · rfl
  · intro index _ apart
    refine Registry.getElem?_modifyObject_of_ne fun same => apart node member ?_
    simp only [CheckState.classObject?, isClass]
    unfold Registry.objectId? Registry.shape? at same ⊢
    rwa [rows]

end Progress

/--
A check that makes progress, given the classes of the module. If it notes no
fault, then it has found something about the states before and after it.
-/
structure Advances
    (classes : Table TypeId)
    (ids : List NodeId)
    (check : Check α)
    (found : CheckState → α → CheckState → Prop) : Prop where
  progress :
    ∀ state : CheckState,
      state.classes = classes →
      Progress ids state (stateAfter check state)
  holds :
    ∀ state : CheckState,
      state.classes = classes →
      state.Regular →
      (stateAfter check state).diagnostics = [] →
      found state (answer check state) (stateAfter check state)

theorem Yields.advances {contexts : Context → Context → Prop} {sites own : List NodeId}
    {check : Check α} {found : Context → α → Context → CheckState → Prop}
    (yields : Yields contexts sites own check found) (nodup : own.Nodup := by simp) :
    Advances classes sites check fun state value after =>
      Step sites state after ∧
        contexts state.context after.context ∧
        ∀ final, Later own after final → found state.context value after.context final :=
  ⟨fun state _ => .of_step (yields.frames state).1, fun state _ regular silent =>
    ⟨(yields.frames state).1, (yields.frames state).2,
      fun final => yields.holds state silent regular nodup final⟩⟩

namespace Advances

variable {check : Check α} {others all : List NodeId}
variable {found weaker : CheckState → α → CheckState → Prop}
variable {result : CheckState → β → CheckState → Prop}

section

variable (advances : Advances classes ids check found)
include advances

theorem within (subset : ids ⊆ all := by grind) :
    Advances classes all check found :=
  ⟨fun state known => (advances.progress state known).mono subset, advances.holds⟩

theorem imp
    (implies :
      ∀ state value after,
        Progress ids state after →
        found state value after →
        weaker state value after) : Advances classes ids check weaker :=
  ⟨advances.progress, fun state known regular silent =>
    implies _ _ _ (advances.progress state known) (advances.holds state known regular silent)⟩

theorem framed {contexts : Context → Context → Prop}
    (frames : Frames contexts ids check) :
    Advances classes ids check fun state value after =>
      Step ids state after ∧ contexts state.context after.context ∧ found state value after :=
  ⟨advances.progress, fun state known regular silent =>
    ⟨(frames state).1, (frames state).2, advances.holds state known regular silent⟩⟩

end

theorem pure {value : α} (holds : ∀ state, found state value state) :
    Advances classes [] (Pure.pure value : Check α) found :=
  ⟨fun state _ => .refl state, fun state _ _ _ => holds state⟩

theorem bind {rest : α → Check β} (first : Advances classes ids check found)
    (second :
      ∀ value,
        Advances classes others (rest value) fun middle answer after =>
          ∀ state,
            Progress ids state middle →
            Progress others middle after →
            found state value middle →
            result state answer after) :
    Advances classes (ids ++ others) (check >>= rest) result := by
  refine ⟨fun state known => ?_, fun state known regular silent => ?_⟩
  · have progress := first.progress state known
    exact (progress.mono (List.subset_append_left _ _)).trans
      (((second _).progress _ (progress.classes.trans known)).mono (List.subset_append_right _ _))
  · have progress := first.progress state known
    have same := progress.classes.trans known
    have progressRest := (second (answer check state)).progress _ same
    have silentFirst := progressRest.silent silent
    exact (second _).holds _ same (progress.regular silentFirst regular) silent state progress
      progressRest (first.holds state known regular silentFirst)

theorem get {rest : CheckState → Check β}
    (second :
      ∀ read : CheckState,
        read.classes = classes →
        Advances classes ids (rest read) fun state answer after =>
          read = state → result state answer after) :
    Advances classes ids (MonadState.get >>= rest) result :=
  ⟨fun state known => (second state known).progress state known,
    fun state known regular silent => (second state known).holds state known regular silent rfl⟩

theorem report {fault : Fault} {node : NodeId} {found : CheckState → Unit → CheckState → Prop}
    (textual : fault.kind ≠ .internal ∧ fault.kind ≠ .moduleResolution := by simp [Fault.kind]) :
    Advances classes [node] (Check.report fault node) found := by
  have never : Yields Eq [node] [] (Check.report fault node) fun _ _ _ _ => False := .report textual
  exact never.advances.imp fun _ _ after _ found => (found.2.2 after (.refl after)).elim

theorem context {change : CheckState → Context} :
    Advances classes [] (modify fun state => { state with context := change state })
      fun state _ after => after = { state with context := change state } :=
  ⟨fun _ _ => .of_step (.of_same rfl rfl rfl rfl rfl rfl rfl rfl), fun _ _ _ _ => rfl⟩

theorem inScope {kind : ScopeKind} (inner : Advances classes ids check found) :
    Advances classes ids (Check.inScope kind check) fun state value after =>
      ∃ inside,
        found { state with context := state.context.push kind } value inside ∧
          after = { inside with context := inside.context.pop } := by
  refine ⟨fun state known => ?_, fun state known regular silent =>
    ⟨_, inner.holds _ known (regular_withContext regular _) silent, rfl⟩⟩
  have opened : Progress ids state { state with context := state.context.push kind } :=
    .of_step (.of_same rfl rfl rfl rfl rfl rfl rfl rfl)
  have closed : Progress ids (stateAfter check { state with context := state.context.push kind })
      (stateAfter (Check.inScope kind check) state) :=
    .of_step (.of_same rfl rfl rfl rfl rfl rfl rfl rfl)
  exact (opened.trans (inner.progress _ known)).trans closed

theorem modifyObject {selfType : TypeId} {change : ObjectType → ObjectType}
    (isClass : classes.get? id = some selfType) :
    Advances classes [id]
      (modify fun state =>
        { state with registry := state.registry.modifyObject selfType change })
      fun state _ after =>
        after = { state with registry := state.registry.modifyObject selfType change } :=
  ⟨fun _ known => .modifyObject (List.mem_singleton_self id) (known ▸ isClass),
    fun _ _ _ _ => rfl⟩

end Advances

abbrev CleanDeclarations (allowed : String → Prop) (declarations : List Declaration) : Prop :=
  ∀ declaration ∈ declarations, declaration.Clean allowed

structure Additive (ids : List NodeId) (before after : CheckState) : Prop
    extends Trace ids before after where
  objects : before.registry.objects.toList <+: after.registry.objects.toList

def Adds (ids : List NodeId) (check : Check α) : Prop :=
  ∀ state, Additive ids state (stateAfter check state)

namespace Adds

variable {check : Check α}

theorem of_frames {contexts : Context → Context → Prop} (frames : Frames contexts ids check) :
    Adds ids check :=
  fun state => ⟨(frames state).1.toTrace, by simp [(frames state).1.objects]⟩

theorem pure {value : α} : Adds ids (Pure.pure value : Check α) :=
  fun state => ⟨.refl state, List.prefix_rfl⟩

theorem bind {next : α → Check β} (first : Adds ids check)
    (second : ∀ value, Adds ids (next value)) : Adds ids (check >>= next) := by
  intro state
  have firstPart := first state
  have secondPart := second (answer check state) (stateAfter check state)
  exact ⟨firstPart.toTrace.trans secondPart.toTrace, firstPart.objects.trans secondPart.objects⟩

end Adds

theorem adds_newClass : Adds ids (newClass id name) := by
  intro state
  let declared : Registry :=
    { state.registry with objects := state.registry.objects.push ⟨name, .classInstance, [], none⟩ }
  let shape : Shape := .object ⟨state.registry.objects.size⟩
  let selfType := (declared.intern shape).1
  have first := declared.prefix_intern shape
  have second := (declared.intern shape).2.prefix_intern (.typeName selfType)
  have rows := first.trans second
  have sound : state.registry.Sound →
      ((declared.intern shape).2.intern (.typeName selfType)).2.Sound := by
    intro sound
    have declaredSound : declared.Sound := sound.of_shapes rfl
    refine Registry.Sound.intern (declaredSound.intern (by simp)) fun denoted same => ?_
    obtain rfl := (Shape.typeName.injEq _ _).mp same
    exact Registry.intern_ne_unknown declaredSound.rows (by simp)
  refine ⟨⟨rows, fun silent => silent, fun _ _ placed => ⟨placed.diagnostics, placed.uses⟩,
    fun _ _ => rfl, fun _ _ => rfl, fun _ _ denotes => denotes, sound,
    fun _ regular => ⟨sound regular.toSound, regular.denotations⟩⟩, ?_⟩
  · show _ <+: ((declared.intern shape).2.intern (.typeName selfType)).2.objects.toList
    rw [Registry.objects_intern, Registry.objects_intern]
    simp [declared]

theorem adds_declareTop {type : Option TypeId} {kind : DeclaredKind} (member : id ∈ ids) :
    Adds ids (declareTop id name type kind) := by
  refine .bind (.of_frames extends_define) fun free => ?_
  split
  · intro state
    exact ⟨⟨List.prefix_rfl, fun silent => silent,
      fun _ _ placed => ⟨placed.diagnostics, placed.uses⟩, fun _ _ => rfl, fun _ _ => rfl,
      fun _ _ denotes => denotes,
      fun sound => sound, fun _ regular => ⟨regular.toSound, regular.denotations⟩⟩, List.prefix_rfl⟩
  · exact .of_frames (steady_report (by simp [Fault.kind]) member)

theorem adds_declareNames (inside : Declaration.idsOfAll declarations ⊆ ids) :
    Adds ids (declareNames declarations) := by
  induction declarations with
  | nil => exact Adds.pure
  | cons first rest ih =>
    simp only [Declaration.idsOfAll, List.append_subset] at inside
    have later := ih inside.2
    cases first with
    | classType id name parameters members =>
      have member : id ∈ ids := inside.1 (by simp [Declaration.ids])
      exact .bind adds_newClass fun _ =>
        Adds.bind (adds_declareTop member) fun _ => later
    | function id name parameters result body =>
      have member : id ∈ ids := inside.1 (by simp [Declaration.ids])
      exact .bind (adds_declareTop member) fun _ => later
    | value id mutable name written initial =>
      have member : id ∈ ids := inside.1 (by simp [Declaration.ids])
      exact .bind (adds_declareTop member) fun _ => later
    | stray id => exact later

def exportedMember? (state : CheckState) (declaration : Declaration) : Option Member :=
  match exported? declaration with
  | some (name, mutable) =>
    if state.declared.contains declaration.id then
      some ⟨name, some (((state.context.lookup name).bind Binding.type).getD .unknown), mutable⟩
    else
      none
  | none => none

def addAll (registry : Registry) (owner : TypeId) (members : List Member) : Registry :=
  members.foldl (fun registry member => (registry.addMember owner member).2) registry

theorem stateAfter_publish (interface : TypeId) (declarations : List Declaration)
    (state : CheckState) :
    stateAfter (publish interface declarations) state =
      { state with
        registry :=
          addAll state.registry interface (declarations.filterMap (exportedMember? state)) } := by
  induction declarations generalizing state with
  | nil => rfl
  | cons first rest ih =>
    have run : stateAfter (publish interface (first :: rest)) state =
        stateAfter (publish interface rest)
          { state with
            registry :=
              addAll state.registry interface (exportedMember? state first).toList } := by
      cases isExported : exported? first with
      | none =>
        simp only [publish, exportedMember?, isExported]
        rfl
      | some entry =>
        by_cases isDeclared : state.declared.contains first.id = true
        · simp only [publish, stateAfter, StateT.run, bind, StateT.bind, get, getThe,
            MonadStateOf.get, StateT.get, pure, exportedMember?, isExported,
            if_pos isDeclared]
          rfl
        · simp only [publish, stateAfter, StateT.run, bind, StateT.bind, get, getThe,
            MonadStateOf.get, StateT.get, pure, exportedMember?, isExported,
            if_neg isDeclared]
          rfl
    rw [run, ih, List.filterMap_cons]
    cases isMember : exportedMember? state first <;> rfl

theorem shapes_addAll (registry : Registry) (owner : TypeId) (members : List Member) :
    (addAll registry owner members).shapes = registry.shapes := by
  induction members generalizing registry with
  | nil => rfl
  | cons first rest ih =>
    refine (ih (registry.addMember owner first).2).trans ?_
    unfold Registry.addMember
    split
    · rfl
    · split
      · rfl
      · exact Registry.shapes_modifyObject

theorem prefix_addAll {base : List ObjectType} {registry : Registry} {owner : TypeId}
    {id : ObjectId} (members : List Member) (isPrefix : base <+: registry.objects.toList)
    (isId : registry.objectId? owner = some id) (outside : base.length ≤ id.index) :
    base <+: (addAll registry owner members).objects.toList := by
  induction members generalizing registry with
  | nil => exact isPrefix
  | cons first rest ih =>
    have kept : base <+: (registry.addMember owner first).2.objects.toList ∧
        (registry.addMember owner first).2.objectId? owner = some id := by
      unfold Registry.addMember
      split
      · exact ⟨isPrefix, isId⟩
      · split
        · exact ⟨isPrefix, isId⟩
        · constructor
          · rw [List.prefix_iff_getElem?] at isPrefix ⊢
            intro index inside
            have apart : id.index ≠ index := by omega
            simpa [Registry.objects_modifyObject isId, apart] using
              isPrefix index inside
          · unfold Registry.objectId? Registry.shape?
            rwa [Registry.shapes_modifyObject]
    exact ih kept.1 kept.2

theorem stateAfter_interface (path : ModulePath) (declarations : List Declaration)
    (state : CheckState) :
    stateAfter (interface path declarations) state =
      { state with
        registry :=
          addAll (state.registry.declareObject path.text .moduleInterface).2
            (state.registry.declareObject path.text .moduleInterface).1
            (declarations.filterMap (exportedMember? state)) } :=
  stateAfter_publish _ declarations _

theorem adds_interface {path : ModulePath} : Adds ids (interface path declarations) := by
  intro state
  rw [stateAfter_interface]
  let declared : Registry :=
    { state.registry with
      objects := state.registry.objects.push ⟨path.text, .moduleInterface, [], none⟩ }
  let shape : Shape := .object ⟨state.registry.objects.size⟩
  have rows := declared.prefix_intern shape
  have isId : (declared.intern shape).2.objectId? (declared.intern shape).1 =
      some ⟨state.registry.objects.size⟩ := by
    simp [Registry.objectId?, Registry.shape?_intern, shape]
  have sound : state.registry.Sound → (declared.intern shape).2.Sound := fun sound =>
    have declaredSound : declared.Sound := sound.of_shapes rfl
    declaredSound.intern (by simp)
  refine ⟨⟨?_, fun silent => silent, fun _ _ placed => ⟨placed.diagnostics, placed.uses⟩,
    fun _ _ => rfl, fun _ _ => rfl, fun _ _ denotes => denotes,
    fun before => (sound before).of_shapes (shapes_addAll ..),
    fun _ regular =>
      ⟨(sound regular.toSound).of_shapes (shapes_addAll ..), regular.denotations⟩⟩, ?_⟩
  · rw [shapes_addAll]
    exact rows
  · refine prefix_addAll _ ?_ isId (by simp)
    show _ <+: (declared.intern shape).2.objects.toList
    rw [Registry.objects_intern]
    simp [declared]

end Check

end Toolshed
