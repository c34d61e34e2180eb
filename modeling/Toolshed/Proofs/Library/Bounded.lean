import Mathlib.Data.List.Perm.Subperm
import Toolshed.Library.Bundled

namespace Toolshed

/-!
# Libraries with finitely many modules
-/

def Reading.isText : Reading → Bool
  | .text _ => true
  | _ => false

namespace Library

/-- No more modules have a text than a library has room for. -/
def Bounded (library : Library) : Prop :=
  ∀ paths : List ModulePath,
    paths.Nodup →
    (∀ path ∈ paths, (library.read path).isText = true) →
    paths.length ≤ library.capacity

theorem bounded_ofTexts (entries : List (ModulePath × String)) : (ofTexts entries).Bounded := by
  intro paths nodup texts
  have inside : paths ⊆ entries.map Prod.fst := by
    intro path member
    have isText := texts path member
    simp only [ofTexts] at isText
    cases found : entries.lookup path with
    | none => simp [found, Reading.isText] at isText
    | some text =>
      obtain ⟨before, after, isEntry, _⟩ := List.lookup_eq_some_iff.mp found
      simp [isEntry]
  have shorter := (List.subperm_of_subset nodup inside).length_le
  rwa [List.length_map] at shorter

theorem bounded_layered {layers : List Library} (bounded : ∀ library ∈ layers, library.Bounded) :
    (layered layers).Bounded := by
  induction layers with
  | nil =>
    intro paths _ texts
    cases paths with
    | nil => exact Nat.le_refl 0
    | cons path _ => exact absurd (texts path List.mem_cons_self) Bool.false_ne_true
  | cons library rest ih =>
    obtain ⟨boundedFirst, boundedRest⟩ := List.forall_mem_cons.mp bounded
    intro paths nodup texts
    let inFirst := fun path => (library.read path).isText
    have firstLength := boundedFirst (paths.filter inFirst) (nodup.filter _)
      fun path member => (List.mem_filter.mp member).2
    have restLength := ih boundedRest (paths.filter fun path => !inFirst path)
      (nodup.filter _) fun path member => by
        obtain ⟨inPaths, notFirst⟩ := List.mem_filter.mp member
        have isText := texts path inPaths
        simp only [inFirst] at notFirst
        simp only [layered, readFirst] at isText ⊢
        cases found : library.read path <;> simp_all
    have whole := paths.length_eq_length_filter_add inFirst
    simp only [layered, totalCapacity] at restLength ⊢
    omega

end Library

end Toolshed
