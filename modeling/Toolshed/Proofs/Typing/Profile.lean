import Toolshed.Proofs.Typing.Refinement
import Toolshed.Typing.Profile

namespace Toolshed

/-!
# What the host has is sound
-/

namespace Registry

theorem sound_initial : initial.Sound := by
  refine ⟨List.prefix_rfl, fun type denoted found => ?_⟩
  have member := Array.mem_of_getElem? found
  simp [shapes_initial] at member

variable {registry : Registry}

theorem Sound.declareObject (sound : registry.Sound) (name : String) (kind : ObjectKind) :
    (registry.declareObject name kind).2.Sound := by
  have declared : Sound
      { registry with objects := registry.objects.push ⟨name, kind, [], none⟩ } :=
    sound.of_shapes rfl
  exact declared.intern (by simp)

theorem shapes_addMember {type : TypeId} {member : Member} :
    (registry.addMember type member).2.shapes = registry.shapes := by
  unfold addMember
  split
  · rfl
  · split
    · rfl
    · exact shapes_modifyObject

end Registry

namespace Profile

theorem sound_bindTypes {names : List (String × TypeId)} {state : Registry × Context}
    (known : ∀ entry ∈ names, entry.2 ≠ .unknown) (sound : state.1.Sound) :
    (bindTypes names state).1.Sound := by
  induction names generalizing state with
  | nil => exact sound
  | cons first rest ih =>
    obtain ⟨knownFirst, knownRest⟩ := List.forall_mem_cons.mp known
    refine ih knownRest (sound.intern fun denoted same => ?_)
    obtain rfl := (Shape.typeName.injEq _ _).mp same
    exact knownFirst

theorem sound_seed (profile : Profile) {registry : Registry} (sound : registry.Sound) :
    (profile.seed registry).1.Sound := by
  have names : (bindTypes
      [("Number", .number), ("String", .string), ("Boolean", .boolean), ("Unit", .unit)]
      (registry, .empty)).1.Sound :=
    sound_bindTypes (by decide) sound
  unfold seed
  generalize bindTypes _ (registry, .empty) = state at names ⊢
  have print : (state.1.function [.string] .unit).2.Sound := names.intern (by simp)
  have numberToString : (Registry.function _ [.number] .string).2.Sound := print.intern (by simp)
  cases profile with
  | default => exact numberToString
  | browser =>
    exact (numberToString.declareObject "Console" .host).of_shapes Registry.shapes_addMember

end Profile

end Toolshed
