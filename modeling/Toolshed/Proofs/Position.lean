import Mathlib.Data.List.Infix
import Toolshed.Position

namespace Toolshed

/-!
# Places of a text

The places of a text are the positions after its beginnings. Its ranges lie
between two of them, and the range over two of its ranges is one of them.
-/

namespace Position

variable {first second third : Position} {text : List Char}

theorem le_iff :
    first ≤ second ↔
      first.line < second.line ∨
        first.line = second.line ∧ first.character ≤ second.character :=
  Iff.rfl

theorem le_refl (position : Position) : position ≤ position := by
  simp [le_iff]

theorem le_trans (earlier : first ≤ second) (later : second ≤ third) : first ≤ third := by
  simp only [le_iff] at *
  omega

theorem after_append (start : Position) (front back : List Char) :
    start.after (front ++ back) = (start.after front).after back :=
  List.foldl_append

theorem le_after (start : Position) (characters : List Char) : start ≤ start.after characters := by
  induction characters generalizing start with
  | nil => exact le_refl start
  | cons character rest ih =>
    refine le_trans ?_ (ih (start.advance character))
    unfold advance
    split <;> simp [le_iff]

theorem after_le_after (start : Position) {front : List Char} (isFront : front <+: text) :
    start.after front ≤ start.after text := by
  obtain ⟨back, rfl⟩ := isFront
  rw [after_append]
  exact le_after _ back

def In (text : List Char) (position : Position) : Prop :=
  ∃ front, front <+: text ∧ position = origin.after front

theorem in_origin (text : List Char) : origin.In text :=
  ⟨[], List.nil_prefix, rfl⟩

theorem in_after (front : List Char) {back : List Char} (isBack : back <+: text) :
    ((origin.after front).after back).In (front ++ text) :=
  ⟨front ++ back, (List.prefix_append_right_inj front).mpr isBack, (after_append _ _ _).symm⟩

end Position

namespace Range

variable {first second : Range} {text : List Char}

/-- A range that starts and stops in the text, in that order. -/
structure Within (text : List Char) (range : Range) : Prop where
  start : range.start.In text
  stop : range.stop.In text
  ordered : range.start ≤ range.stop

theorem within_point {position : Position} (isIn : position.In text) :
    (point position).Within text :=
  ⟨isIn, isIn, Position.le_refl position⟩

theorem Within.merge (inFirst : first.Within text) (inSecond : second.Within text) :
    (first.merge second).Within text := by
  refine ⟨?_, ?_, ?_⟩
  · simp only [Range.merge, Position.earlier]
    split
    · exact inFirst.start
    · exact inSecond.start
  · simp only [Range.merge, Position.later]
    split
    · exact inSecond.stop
    · exact inFirst.stop
  · have ofFirst := inFirst.ordered
    simp only [Range.merge, Position.earlier, Position.later]
    split <;> split <;> simp only [Position.le_iff] at * <;> omega

theorem Within.bounds {range : Range} (within : range.Within text) :
    Position.origin ≤ range.start ∧ range.stop ≤ Position.origin.after text := by
  obtain ⟨⟨front, _, start⟩, ⟨longer, isFront, stop⟩, _⟩ := within
  rw [start, stop]
  exact ⟨Position.le_after _ front, Position.after_le_after _ isFront⟩

end Range

end Toolshed
