import Toolshed.Script.Name
import Toolshed.Token.Basic

namespace Toolshed

/-!
# Names in scripts are apart

Names that are declared in modules have no `$`. Different ones have different
names in scripts, and none of them takes a name of the host.
-/

/-- A name without `$`. -/
def PlainName (name : String) : Prop :=
  '$' ∉ name.toList

def DeclarableName (name : String) : Prop :=
  PlainName name ∧ Keyword.ofText? name = none

namespace Script

variable {name other : String}

theorem nameOf_eq (name : String) : nameOf name = name ∨ nameOf name = name ++ "$" := by
  unfold nameOf
  split
  · exact .inr rfl
  · exact .inl rfl

theorem not_plain_marked (name : String) : ¬ PlainName (name ++ "$") := by
  simp [PlainName]

theorem eq_of_nameOf_eq_plain (plain : PlainName other) (same : nameOf name = other) :
    name = other := by
  rcases nameOf_eq name with kept | marked
  · exact kept.symm.trans same
  · rw [← same, marked] at plain
    exact (not_plain_marked name plain).elim

theorem nameOf_injective (plain : PlainName name) (plainOther : PlainName other)
    (same : nameOf name = nameOf other) : name = other := by
  rcases nameOf_eq name with kept | marked
  · exact (eq_of_nameOf_eq_plain plain (same.symm.trans kept)).symm
  · rcases nameOf_eq other with keptOther | markedOther
    · exact eq_of_nameOf_eq_plain plainOther (same.trans keptOther)
    · rw [marked, markedOther] at same
      have characters := congrArg String.toList same
      rw [String.toList_append, String.toList_append] at characters
      exact String.toList_inj.mp (List.append_cancel_right characters)

theorem plain_hostNames : ∀ host ∈ hostNames, PlainName host := by
  unfold PlainName
  decide

theorem nameOf_ne_host {host : String} (isHost : host ∈ hostNames) (name : String) :
    nameOf name ≠ host := by
  intro same
  have isName := eq_of_nameOf_eq_plain (plain_hostNames host isHost) same
  subst isName
  unfold nameOf at same
  have listed : hostNames.contains name = true := by simpa using isHost
  rw [listed] at same
  have longer := congrArg String.length same
  simp at longer

end Script

end Toolshed
