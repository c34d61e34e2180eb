import Toolshed.Proofs.Typing.Refinement

namespace Toolshed

/-!
# Types without unknown parts

A type is clear if the unknown type is nowhere inside it. Object types refer to
each other in circles, so a clear type is one of a set of types that is closed
under taking parts.
-/

variable {types more : TypeId → Prop} {registry : Registry} {pending : Nat → Prop} {shape : Shape}

def ObjectType.Complete (object : ObjectType) : Prop :=
  ∀ member ∈ object.members, member.type ≠ none

def ObjectType.Within (types : TypeId → Prop) (object : ObjectType) : Prop :=
  ∀ member ∈ object.members, ∀ type, member.type = some type → types type

def Shape.Within (registry : Registry) (pending : Nat → Prop) (types : TypeId → Prop) :
    Shape → Prop
  | .unknown => False
  | .number | .string | .boolean | .unit => True
  | .function parameters result => (∀ type ∈ parameters, types type) ∧ types result
  | .object id =>
    ∃ object,
      registry.objects[id.index]? = some object ∧
        object.Within types ∧
        (object.Complete ∨ pending id.index)
  | .typeName denoted => types denoted

namespace Registry

variable {registry larger : Registry} {pending : Nat → Prop} {types more : TypeId → Prop}
variable {type : TypeId} {shape : Shape}

def Closed (registry : Registry) (pending : Nat → Prop) (types : TypeId → Prop) : Prop :=
  ∀ type, types type →
    ∃ shape, registry.shape? type = some shape ∧ shape.Within registry pending types

/--
A type has no unknown part. The object types at some places may still have
members without a type.
-/
def Clear (registry : Registry) (pending : Nat → Prop) (type : TypeId) : Prop :=
  ∃ types, registry.Closed pending types ∧ types type

/-- A type has no unknown part, and every member inside it has a type. -/
def Free (registry : Registry) (type : TypeId) : Prop :=
  registry.Clear (fun _ => False) type

end Registry

theorem ObjectType.Within.mono {object : ObjectType} (within : object.Within types)
    (subset : ∀ type, types type → more type) : object.Within more :=
  fun member isMember type typed => subset type (within member isMember type typed)

theorem Shape.Within.mono (within : shape.Within registry pending types)
    (subset : ∀ type, types type → more type) : shape.Within registry pending more := by
  cases shape with
  | unknown => exact within
  | number => trivial
  | string => trivial
  | boolean => trivial
  | unit => trivial
  | function parameters result =>
    exact ⟨fun type member => subset type (within.1 type member), subset result within.2⟩
  | object id =>
    obtain ⟨object, isObject, members, complete⟩ := within
    exact ⟨object, isObject, members.mono subset, complete⟩
  | typeName denoted => exact subset denoted within

theorem Shape.Within.of_objects {larger : Registry} (within : shape.Within registry pending types)
    (same : larger.objects = registry.objects) : shape.Within larger pending types := by
  cases shape with
  | unknown => exact within
  | number => trivial
  | string => trivial
  | boolean => trivial
  | unit => trivial
  | function parameters result => exact within
  | object id =>
    unfold Shape.Within at within ⊢
    rwa [same]
  | typeName denoted => exact within

namespace Registry

variable {registry larger : Registry} {pending : Nat → Prop} {types more : TypeId → Prop}
variable {type : TypeId} {shape : Shape}

theorem closed_clear : registry.Closed pending (registry.Clear pending) := by
  rintro type ⟨types, closed, isIn⟩
  obtain ⟨shape, isShape, within⟩ := closed type isIn
  exact ⟨shape, isShape, within.mono fun part isPart => ⟨types, closed, isPart⟩⟩

theorem clear_of_shape (isShape : registry.shape? type = some shape)
    (within : shape.Within registry pending (registry.Clear pending)) :
    registry.Clear pending type := by
  refine ⟨fun part => part = type ∨ registry.Clear pending part, ?_, .inl rfl⟩
  rintro part (rfl | isClear)
  · exact ⟨shape, isShape, within.mono fun _ => .inr⟩
  · obtain ⟨other, isOther, inOther⟩ := closed_clear part isClear
    exact ⟨other, isOther, inOther.mono fun _ => .inr⟩

section

variable (closed : registry.Closed pending types)
include closed

theorem Closed.parts (known : types type)
    (isShape : registry.shape? type = some shape) : shape.Within registry pending types := by
  obtain ⟨found, isFound, within⟩ := closed type known
  obtain rfl := Option.some.inj (isFound.symm.trans isShape)
  exact within

theorem Closed.ne_unknown (known : types type)
    (rows : initial.shapes.toList <+: registry.shapes.toList) : type ≠ .unknown := by
  rintro rfl
  have row : initial.shape? .unknown = some .unknown := rfl
  exact closed.parts known (shape?_of_longer rows row)

theorem Closed.denoted (known : types type)
    {denoted : TypeId} (isDenoted : registry.denoted? type = some denoted) : types denoted := by
  unfold denoted? at isDenoted
  split at isDenoted
  · next found isShape =>
      obtain rfl := Option.some.inj isDenoted
      exact closed.parts known isShape
  · simp at isDenoted

theorem Closed.object (known : types type)
    {object : ObjectType} (isObject : registry.object? type = some object) :
    object.Within types := by
  obtain ⟨id, isId, inObjects⟩ := Option.bind_eq_some_iff.mp isObject
  unfold objectId? at isId
  split at isId
  · next number isShape =>
      obtain rfl := Option.some.inj isId
      obtain ⟨found, isFound, within, _⟩ := closed.parts known isShape
      obtain rfl := Option.some.inj (isFound.symm.trans inObjects)
      exact within
  · simp at isId

theorem Closed.result (known : types type)
    {parameters : List TypeId} {result : TypeId}
    (callable : Check.callable? registry type = some (parameters, result)) : types result := by
  unfold Check.callable? at callable
  split at callable
  · next isShape =>
      obtain ⟨rfl, rfl⟩ := Prod.mk.inj (Option.some.inj callable)
      exact (closed.parts known isShape).2
  · next denoted isShape =>
      obtain ⟨object, isObject, callable⟩ := Option.bind_eq_some_iff.mp callable
      obtain ⟨types, isConstructor, callable⟩ := Option.bind_eq_some_iff.mp callable
      obtain ⟨rfl, rfl⟩ := Prod.mk.inj (Option.some.inj callable)
      exact closed.parts known isShape
  · simp at callable

theorem Closed.grow {later : Nat → Prop}
    (rows : registry.shapes.toList <+: larger.shapes.toList)
    (objects :
      ∀ (index : Nat) (object : ObjectType),
        registry.objects[index]? = some object →
        object.Within types →
        object.Complete ∨ pending index →
        ∃ refined,
          larger.objects[index]? = some refined ∧
            refined.Within types ∧
            (refined.Complete ∨ later index)) : larger.Closed later types := by
  intro type isIn
  obtain ⟨shape, isShape, within⟩ := closed type isIn
  refine ⟨shape, shape?_of_longer rows isShape, ?_⟩
  cases shape with
  | unknown => exact within
  | number => trivial
  | string => trivial
  | boolean => trivial
  | unit => trivial
  | function parameters result => exact within
  | object id =>
    obtain ⟨object, isObject, members, complete⟩ := within
    exact objects id.index object isObject members complete
  | typeName denoted => exact within

theorem Closed.longer
    (rows : registry.shapes.toList <+: larger.shapes.toList)
    (objects : registry.objects.toList <+: larger.objects.toList) :
    larger.Closed pending types := by
  refine closed.grow rows fun index object found within complete => ⟨object, ?_, within, complete⟩
  rw [← Array.getElem?_toList] at found ⊢
  obtain ⟨inside, isObject⟩ := List.getElem?_eq_some_iff.mp found
  rw [List.prefix_iff_getElem?.mp objects index inside, isObject]

theorem Closed.modifyObject
    {change : ObjectType → ObjectType} {id : ObjectId} (isId : registry.objectId? type = some id)
    (isPending : pending id.index)
    (keeps : ∀ object, object.Within types → (change object).Within types) :
    (registry.modifyObject type change).Closed pending types := by
  refine closed.grow (by simp [shapes_modifyObject]) ?_
  intro index object found within complete
  by_cases same : id.index = index
  · subst same
    refine ⟨change object, ?_, keeps object within, .inr isPending⟩
    simp [objects_modifyObject isId, Array.getElem?_modify, found]
  · refine ⟨object, ?_, within, complete⟩
    rw [getElem?_modifyObject_of_ne, found]
    rw [isId]
    rintro ⟨⟩
    exact same rfl

end

theorem Clear.longer (isClear : registry.Clear pending type)
    (rows : registry.shapes.toList <+: larger.shapes.toList)
    (objects : registry.objects.toList <+: larger.objects.toList) : larger.Clear pending type := by
  obtain ⟨types, closed, known⟩ := isClear
  exact ⟨types, closed.longer rows objects, known⟩

theorem Closed.free (closed : registry.Closed pending types)
    (complete :
      ∀ (index : Nat) (object : ObjectType),
        pending index →
        registry.objects[index]? = some object →
        object.Complete)
    (known : types type) : registry.Free type := by
  refine ⟨types, closed.grow List.prefix_rfl ?_, known⟩
  intro index object found within isComplete
  exact ⟨object, found, within,
    .inl (isComplete.elim id fun isPending => complete index object isPending found)⟩

theorem closed_free : registry.Closed pending registry.Free := by
  refine closed_clear.grow List.prefix_rfl fun index object found within isComplete => ?_
  exact ⟨object, found, within, isComplete.imp_right False.elim⟩

end Registry

end Toolshed
