import Mathlib.Data.List.Basic
import Toolshed.Typing.Rule

namespace Toolshed

/-!
# How registries grow

A row of a registry is never changed, and neither is the type of a member or the
parameters of a class once they are there.
-/

namespace Registry

variable {registry larger : Registry} {type : TypeId} {shape other : Shape}

theorem shapes_initial : initial.shapes = #[.unknown, .number, .string, .boolean, .unit] :=
  rfl

theorem prefix_intern (registry : Registry) (shape : Shape) :
    registry.shapes.toList <+: (registry.intern shape).2.shapes.toList := by
  unfold intern
  split
  · exact List.prefix_rfl
  · simp

theorem objects_intern (registry : Registry) (shape : Shape) :
    (registry.intern shape).2.objects = registry.objects := by
  unfold intern
  split <;> rfl

theorem shape?_of_longer (rows : registry.shapes.toList <+: larger.shapes.toList)
    (found : registry.shape? type = some shape) : larger.shape? type = some shape := by
  obtain ⟨more, same⟩ := rows
  simp only [shape?, ← Array.getElem?_toList] at found ⊢
  rw [← same, List.getElem?_append_left]
  · exact found
  · exact (List.getElem?_eq_some_iff.mp found).1

/-- Types of a registry are equal just when their shapes are. -/
theorem shape?_eq_iff {other : TypeId} {made : Shape}
    (found : registry.shape? type = some shape)
    (otherFound : registry.shape? other = some made) : type = other ↔ shape = made := by
  constructor
  · rintro rfl
    exact Option.some.inj (found.symm.trans otherFound)
  · rintro rfl
    have isType := (registry.inverse shape type).mpr found
    exact Option.some.inj (isType.symm.trans ((registry.inverse shape other).mpr otherFound))

theorem shape?_intern (registry : Registry) (shape : Shape) :
    (registry.intern shape).2.shape? (registry.intern shape).1 = some shape := by
  unfold intern
  split
  · next type found => exact (registry.inverse shape type).mp found
  · simp [shape?, size]

theorem shape?_of_intern (found : (registry.intern shape).2.shape? type = some other) :
    registry.shape? type = some other ∨ other = shape := by
  unfold intern at found
  split at found
  · exact .inl found
  · simp only [shape?, Array.getElem?_push] at found
    split at found
    · exact .inr (Option.some.inj found).symm
    · exact .inl found

theorem intern_ne_unknown (rows : initial.shapes.toList <+: registry.shapes.toList)
    (known : shape ≠ .unknown) : (registry.intern shape).1 ≠ .unknown := by
  intro same
  have made := registry.shape?_intern shape
  have row : initial.shape? .unknown = some .unknown := rfl
  rw [same, shape?_of_longer (rows.trans (registry.prefix_intern shape)) row] at made
  exact known (Option.some.inj made).symm

/-- A registry has the types that are always there, and only known types have names. -/
structure Sound (registry : Registry) : Prop where
  rows : initial.shapes.toList <+: registry.shapes.toList
  typeNames :
    ∀ type denoted,
      registry.shape? type = some (.typeName denoted) →
      denoted ≠ .unknown

namespace Sound

theorem of_shapes {other : Registry} (sound : registry.Sound)
    (same : other.shapes = registry.shapes) : other.Sound := by
  refine ⟨?_, fun type denoted found => sound.typeNames type denoted ?_⟩
  · rw [same]
    exact sound.rows
  · unfold shape? at found ⊢
    rw [← same]
    exact found

theorem intern (sound : registry.Sound)
    (named : ∀ denoted, shape = .typeName denoted → denoted ≠ .unknown) :
    (registry.intern shape).2.Sound := by
  refine ⟨sound.rows.trans (registry.prefix_intern shape), fun type denoted found => ?_⟩
  rcases shape?_of_intern found with old | new
  · exact sound.typeNames type denoted old
  · exact named denoted new.symm

end Sound

structure Grows (registry larger : Registry) : Prop where
  shapes : registry.shapes.toList <+: larger.shapes.toList
  members :
    ∀ type name memberType,
      (registry.member? type name).map Member.type = some (some memberType) →
      (larger.member? type name).map Member.type = some (some memberType)
  constructors :
    ∀ type parameters,
      (registry.object? type).bind ObjectType.constructor = some parameters →
      (larger.object? type).bind ObjectType.constructor = some parameters

namespace Grows

theorem refl (registry : Registry) : Grows registry registry :=
  ⟨List.prefix_rfl, fun _ _ _ => id, fun _ _ => id⟩

theorem trans {middle : Registry} (first : Grows registry middle) (second : Grows middle larger) :
    Grows registry larger where
  shapes := first.shapes.trans second.shapes
  members := fun type name memberType found =>
    second.members type name memberType (first.members type name memberType found)
  constructors := fun type parameters found =>
    second.constructors type parameters (first.constructors type parameters found)

theorem callable? (grows : Grows registry larger) {callee : TypeId} {parameters : List TypeId}
    {result : TypeId} (found : Check.callable? registry callee = some (parameters, result)) :
    Check.callable? larger callee = some (parameters, result) := by
  unfold Check.callable? at found
  split at found
  · next shape =>
      simpa [Check.callable?, shape?_of_longer grows.shapes shape] using found
  · next denoted shape =>
      obtain ⟨object, isObject, found⟩ := Option.bind_eq_some_iff.mp found
      obtain ⟨types, isConstructor, found⟩ := Option.bind_eq_some_iff.mp found
      have before : (registry.object? denoted).bind ObjectType.constructor = some types := by
        simp [isObject, isConstructor]
      obtain ⟨after, isAfter, stays⟩ :=
        Option.bind_eq_some_iff.mp (grows.constructors denoted types before)
      simpa [Check.callable?, shape?_of_longer grows.shapes shape, isAfter, stays] using found
  · simp at found

end Grows

end Registry

end Toolshed
