import Mathlib.Data.List.Forall2
import Toolshed.Proofs.Typing.Registry

namespace Toolshed

/-!
# Filling in missing types

The names of a module and the members of its classes are bound before their types
are known. A missing type is filled in once.
-/

structure Binding.Refines (binding refined : Binding) : Prop where
  type : ∀ found, binding.type = some found → refined.type = some found
  origin : refined.origin = binding.origin
  declaration : refined.declaration = binding.declaration

theorem Binding.Refines.refl (binding : Binding) : binding.Refines binding :=
  ⟨fun _ => id, rfl, rfl⟩

theorem Binding.Refines.trans {binding middle refined : Binding} (first : binding.Refines middle)
    (second : middle.Refines refined) : binding.Refines refined :=
  ⟨fun found typed => second.type found (first.type found typed),
    second.origin.trans first.origin, second.declaration.trans first.declaration⟩

namespace Scope

variable {scope refined : Scope} {name other : String} {type : TypeId} {binding : Binding}

theorem get?_eq_none_iff : scope.get? name = none ↔ name ∉ scope.bindings.map Prod.fst := by
  simp only [get?, List.lookup_eq_none_iff, List.mem_map, not_exists, not_and]
  constructor
  · rintro absent ⟨found, binding⟩ isBound rfl
    simpa using absent (found, binding) isBound
  · intro absent entry isBound
    simpa using fun same => absent entry isBound same.symm

theorem mem_of_get? (found : scope.get? name = some binding) :
    (name, binding) ∈ scope.bindings := by
  obtain ⟨before, after, isSplit, _⟩ := List.lookup_eq_some_iff.mp found
  simp [isSplit]

theorem has_iff : scope.has name = true ↔ name ∈ scope.bindings.map Prod.fst := by
  rw [has, Option.isSome_iff_ne_none, Ne, get?_eq_none_iff, not_not]

theorem names_setType : (scope.setType name type).bindings.map Prod.fst =
    scope.bindings.map Prod.fst := by
  simp [setType]

theorem get?_setType :
    (scope.setType name type).get? other =
      (scope.get? other).map fun binding =>
        if other = name then { binding with type := some type } else binding := by
  obtain ⟨kind, bindings⟩ := scope
  simp only [get?, setType]
  induction bindings with
  | nil => rfl
  | cons first rest ih =>
    obtain ⟨bound, binding⟩ := first
    simp only [List.map_cons, List.lookup_cons]
    by_cases same : other = bound
    · simp [same]
    · simp [beq_eq_false_iff_ne.mpr same, ih]

structure Refines (scope refined : Scope) : Prop where
  kind : refined.kind = scope.kind
  names : refined.bindings.map Prod.fst = scope.bindings.map Prod.fst
  bindings :
    ∀ name binding,
      scope.get? name = some binding →
      ∃ found, refined.get? name = some found ∧ binding.Refines found

namespace Refines

theorem refl (scope : Scope) : scope.Refines scope :=
  ⟨rfl, rfl, fun _ binding found => ⟨binding, found, .refl binding⟩⟩

theorem trans {middle : Scope} (first : scope.Refines middle) (second : middle.Refines refined) :
    scope.Refines refined := by
  refine ⟨second.kind.trans first.kind, second.names.trans first.names, ?_⟩
  intro name binding found
  obtain ⟨between, isBetween, toBetween⟩ := first.bindings name binding found
  obtain ⟨last, isLast, toLast⟩ := second.bindings name between isBetween
  exact ⟨last, isLast, toBetween.trans toLast⟩

theorem setType (missing : ∀ binding, scope.get? name = some binding → binding.type = none) :
    scope.Refines (scope.setType name type) := by
  refine ⟨rfl, names_setType, ?_⟩
  intro other binding found
  refine ⟨_, by rw [get?_setType, found]; rfl, ?_⟩
  split
  · next same =>
      have pending := missing binding (same ▸ found)
      exact ⟨fun type typed => by simp [pending] at typed, rfl, rfl⟩
  · exact .refl binding

end Refines

end Scope

namespace Context

variable {context refined : Context} {name : String} {binding : Binding}

structure Refines (context refined : Context) : Prop where
  innermost : context.innermost.Refines refined.innermost
  outer : List.Forall₂ Scope.Refines context.outer refined.outer

namespace Refines

theorem refl (context : Context) : context.Refines context :=
  ⟨.refl _, List.forall₂_same.mpr fun scope _ => .refl scope⟩

theorem trans {middle : Context} (first : context.Refines middle)
    (second : middle.Refines refined) : context.Refines refined := by
  refine ⟨first.innermost.trans second.innermost, ?_⟩
  have outer := first.outer
  have later := second.outer
  generalize context.outer = before at outer ⊢
  generalize middle.outer = between at outer later
  generalize refined.outer = last at later ⊢
  induction outer generalizing last with
  | nil => exact later
  | cons head _ ih =>
    cases later with
    | cons next rest => exact .cons (head.trans next) (ih _ rest)

end Refines

end Context

namespace ObjectType

variable {object refined : ObjectType} {name other : String} {type : TypeId}

structure Refines (object refined : ObjectType) : Prop where
  members :
    ∀ name found,
      (object.member? name).map Member.type = some (some found) →
      (refined.member? name).map Member.type = some (some found)
  constructor :
    ∀ parameters,
      object.constructor = some parameters →
      refined.constructor = some parameters

theorem Refines.refl (object : ObjectType) : object.Refines object :=
  ⟨fun _ _ => id, fun _ => id⟩

theorem member?_setMemberType :
    (object.setMemberType name type).member? other =
      (object.member? other).map fun member =>
        if other = name then { member with type := some type } else member := by
  obtain ⟨title, kind, members, parameters⟩ := object
  simp only [member?, setMemberType]
  induction members with
  | nil => rfl
  | cons first rest ih =>
    have sameName : (if first.name = name then { first with type := some type } else first).name =
        first.name := by
      split <;> rfl
    simp only [List.map_cons, List.find?_cons, sameName]
    by_cases isFirst : first.name = other
    · simp [isFirst]
    · simp [isFirst, ih]

theorem Refines.setMemberType
    (missing : ∀ member, object.member? name = some member → member.type = none) :
    object.Refines (object.setMemberType name type) := by
  refine ⟨?_, fun _ => id⟩
  intro other found typed
  obtain ⟨member, isMember, isTyped⟩ := Option.map_eq_some_iff.mp typed
  have different : other ≠ name := by
    rintro rfl
    simp [missing member isMember] at isTyped
  simp [member?_setMemberType, isMember, different, isTyped]

end ObjectType

namespace Registry

variable {registry larger : Registry} {type : TypeId}

section

variable (rows : registry.shapes.toList <+: larger.shapes.toList)
include rows

theorem objectId?_of_longer
    {id : ObjectId} (found : registry.objectId? type = some id) :
    larger.objectId? type = some id := by
  unfold objectId? at found ⊢
  split at found
  · next shape => simpa [shape?_of_longer rows shape] using found
  · simp at found

theorem object?_of_longer
    (objects : registry.objects.toList <+: larger.objects.toList) {object : ObjectType}
    (found : registry.object? type = some object) : larger.object? type = some object := by
  obtain ⟨id, isId, inObjects⟩ := Option.bind_eq_some_iff.mp found
  rw [← Array.getElem?_toList] at inObjects
  have inLarger := (List.prefix_iff_getElem?.mp objects) id.index
    (List.getElem?_eq_some_iff.mp inObjects).1
  rw [(List.getElem?_eq_some_iff.mp inObjects).2, Array.getElem?_toList] at inLarger
  simp [object?, objectId?_of_longer rows isId, inLarger]

theorem grows_of_objects
    (objects :
      ∀ (index : Nat) (object : ObjectType),
        registry.objects[index]? = some object →
        ∃ refined, larger.objects[index]? = some refined ∧ object.Refines refined) :
    registry.Grows larger := by
  have keeps : ∀ type object,
      registry.object? type = some object →
      ∃ refined, larger.object? type = some refined ∧ object.Refines refined := by
    intro type object isObject
    obtain ⟨id, isId, inObjects⟩ := Option.bind_eq_some_iff.mp isObject
    obtain ⟨refined, inLarger, refines⟩ := objects id.index object inObjects
    exact ⟨refined, by simp [object?, objectId?_of_longer rows isId, inLarger], refines⟩
  refine ⟨rows, ?_, ?_⟩
  · intro type name memberType found
    obtain ⟨entry, isMember, sameType⟩ := Option.map_eq_some_iff.mp found
    obtain ⟨owner, isObject, inOwner⟩ := Option.bind_eq_some_iff.mp isMember
    obtain ⟨refined, isRefined, refines⟩ := keeps type owner isObject
    have stays := refines.members name memberType (by simp [inOwner, sameType])
    simpa [member?, isRefined] using stays
  · intro type parameters found
    obtain ⟨owner, isObject, isConstructor⟩ := Option.bind_eq_some_iff.mp found
    obtain ⟨refined, isRefined, refines⟩ := keeps type owner isObject
    simp [isRefined, refines.constructor parameters isConstructor]

theorem grows_of_shapes
    (objects : larger.objects = registry.objects) : registry.Grows larger :=
  grows_of_objects rows fun _ object found =>
    ⟨object, by rw [objects]; exact found, .refl object⟩

theorem grows_of_longer
    (objects : registry.objects.toList <+: larger.objects.toList) : registry.Grows larger := by
  refine grows_of_objects rows fun index object found => ⟨object, ?_, .refl object⟩
  rw [← Array.getElem?_toList] at found ⊢
  obtain ⟨inside, isObject⟩ := List.getElem?_eq_some_iff.mp found
  rw [List.prefix_iff_getElem?.mp objects index inside, isObject]

end

section Modify

variable {change : ObjectType → ObjectType} {id : ObjectId} {index : Nat}

theorem shapes_modifyObject : (registry.modifyObject type change).shapes = registry.shapes := by
  unfold modifyObject
  split <;> rfl

theorem objects_modifyObject (isId : registry.objectId? type = some id) :
    (registry.modifyObject type change).objects = registry.objects.modify id.index change := by
  simp [modifyObject, isId]

theorem object?_modifyObject {object : ObjectType}
    (isObject : registry.object? type = some object) :
    (registry.modifyObject type change).object? type = some (change object) := by
  obtain ⟨id, isId, inObjects⟩ := Option.bind_eq_some_iff.mp isObject
  have sameId : (registry.modifyObject type change).objectId? type = some id := by
    unfold objectId? shape? at isId ⊢
    rwa [shapes_modifyObject]
  simp [object?, sameId, objects_modifyObject isId, Array.getElem?_modify, inObjects]

theorem getElem?_modifyObject_of_ne (different : registry.objectId? type ≠ some ⟨index⟩) :
    (registry.modifyObject type change).objects[index]? = registry.objects[index]? := by
  unfold modifyObject
  split
  · next id isId =>
      have apart : id.index ≠ index := by
        rintro rfl
        exact different isId
      simp [Array.getElem?_modify, apart]
  · rfl

theorem grows_modifyObject
    (keeps : ∀ object, registry.object? type = some object → object.Refines (change object)) :
    registry.Grows (registry.modifyObject type change) := by
  have rows : registry.shapes.toList <+: (registry.modifyObject type change).shapes.toList := by
    simp [shapes_modifyObject]
  refine grows_of_objects rows ?_
  intro index object found
  by_cases same : registry.objectId? type = some ⟨index⟩
  · refine ⟨change object, ?_, keeps object (by simp [object?, same, found])⟩
    simp [objects_modifyObject same, Array.getElem?_modify, found]
  · exact ⟨object, by rw [getElem?_modifyObject_of_ne same, found], .refl object⟩

end Modify

end Registry

end Toolshed
