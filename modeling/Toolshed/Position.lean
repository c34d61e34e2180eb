namespace Toolshed

/-!
# Source positions and ranges

A position counts lines and characters from one; a character is one Unicode
scalar value. A range is half open: it holds its start and not its stop.
-/

structure Position where
  line : Nat
  character : Nat
  deriving Repr, DecidableEq, Inhabited

namespace Position

def origin : Position :=
  ⟨1, 1⟩

instance : LE Position where
  le first second :=
    first.line < second.line ∨
      (first.line = second.line ∧ first.character ≤ second.character)

instance : LT Position where
  lt first second :=
    first.line < second.line ∨
      (first.line = second.line ∧ first.character < second.character)

instance (first second : Position) : Decidable (first ≤ second) :=
  inferInstanceAs (Decidable (_ ∨ _))

instance (first second : Position) : Decidable (first < second) :=
  inferInstanceAs (Decidable (_ ∨ _))

def earlier (first second : Position) : Position :=
  if first ≤ second then first else second

def later (first second : Position) : Position :=
  if first ≤ second then second else first

def advance (position : Position) (character : Char) : Position :=
  if character = '\n' then
    ⟨position.line + 1, 1⟩
  else
    ⟨position.line, position.character + 1⟩

def after (position : Position) (characters : List Char) : Position :=
  characters.foldl advance position

def text (position : Position) : String :=
  toString position.line ++ ":" ++ toString position.character

end Position

/-- A stretch of text from `start` up to, and without, `stop`. -/
structure Range where
  start : Position
  stop : Position
  deriving Repr, DecidableEq, Inhabited

namespace Range

def point (position : Position) : Range :=
  ⟨position, position⟩

def merge (first second : Range) : Range :=
  ⟨first.start.earlier second.start, first.stop.later second.stop⟩

def contains (range : Range) (position : Position) : Bool :=
  range.start ≤ position ∧ position < range.stop

def text (range : Range) : String :=
  range.start.text ++ "-" ++ range.stop.text

end Range

end Toolshed
