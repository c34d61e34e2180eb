import Toolshed.Diagnostic

namespace Toolshed

/-!
# Diagnostics that can be shown
-/

namespace Diagnostic

variable {diagnostic : Diagnostic} {size : Nat}

structure Located (size : Nat) (diagnostic : Diagnostic) : Prop where
  external : diagnostic.fault.kind ≠ .internal
  inside : ∀ node : Nat, diagnostic.place = .node node → node < size

theorem Located.resolve_eq_ok {locations : Locations}
    (located : diagnostic.Located locations.size) :
    ∃ range, diagnostic.resolve locations = .ok range := by
  unfold resolve
  rw [if_neg located.external]
  cases place : diagnostic.place with
  | range range => exact ⟨range, rfl⟩
  | node node =>
    have inside := located.inside node place
    exact ⟨locations[node], by simp [inside]⟩

structure InText (size : Nat) (diagnostic : Diagnostic) : Prop where
  textual : diagnostic.fault.kind ≠ .internal ∧ diagnostic.fault.kind ≠ .moduleResolution
  inside : ∀ node : Nat, diagnostic.place = .node node → node < size

theorem InText.located (inText : diagnostic.InText size) : diagnostic.Located size :=
  ⟨inText.textual.1, inText.inside⟩

theorem InText.mono {larger : Nat} (inText : diagnostic.InText size) (grows : size ≤ larger) :
    diagnostic.InText larger :=
  ⟨inText.textual, fun node place => Nat.lt_of_lt_of_le (inText.inside node place) grows⟩

/-- A fault of the text at a node of the tree, which has `size` nodes. -/
structure AtNode (size : Nat) (diagnostic : Diagnostic) : Prop where
  textual : diagnostic.fault.kind ≠ .internal ∧ diagnostic.fault.kind ≠ .moduleResolution
  place : ∃ node : Nat, diagnostic.place = .node node ∧ node < size

theorem AtNode.inText (atNode : diagnostic.AtNode size) : diagnostic.InText size := by
  obtain ⟨textual, node, isPlace, inside⟩ := atNode
  refine ⟨textual, fun other same => ?_⟩
  obtain rfl := Place.node.inj (isPlace.symm.trans same)
  exact inside

end Diagnostic

end Toolshed
