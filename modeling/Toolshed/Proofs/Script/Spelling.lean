import Toolshed.Proofs.Double.Shortest
import Toolshed.Proofs.Script.Reader

namespace Toolshed

/-!
# Scripts and their spelling

Which scripts can be spelled, and what their text shows: a negative number as the
negation of its size, and `NaN`, `Infinity` and `undefined` as names.
-/

namespace Script

variable {value : Double} {characters : List Char} {character : Char}

/-- A name that a variable, a parameter or a function may have. -/
structure Alphabet.IsIdentifier (alphabet : Alphabet) (name : String) : Prop
    extends alphabet.IsName name where
  free : keywords.contains name = false

def Function.IsNamed : Function → Prop
  | .make name _ _ => name.isSome = true

section

variable (alphabet : Alphabet)

mutual

def Expression.Spellable : Expression → Prop
  | .number _ | .string _ | .boolean _ | .undefined => True
  | .identifier name => alphabet.IsIdentifier name
  | .binary _ left right => left.Spellable ∧ right.Spellable
  | .unary _ operand => operand.Spellable
  | .call callee arguments => callee.Spellable ∧ SpellableArguments arguments
  | .member object property => object.Spellable ∧ alphabet.IsName property
  | .function function => function.Spellable
  | .object properties => SpellableProperties properties
  | .assignment target value =>
    (alphabet.IsIdentifier target ∨ target = "module.exports") ∧ value.Spellable

def SpellableArguments : List Expression → Prop
  | [] => True
  | first :: rest => first.Spellable ∧ SpellableArguments rest

def Function.Spellable : Function → Prop
  | .make name parameters body =>
    (∀ given ∈ name, alphabet.IsIdentifier given) ∧
      (∀ parameter ∈ parameters, alphabet.IsIdentifier parameter) ∧
      SpellableStatements body

def SpellableProperties : List Property → Prop
  | [] => True
  | .value key value :: rest =>
    alphabet.IsName key ∧ value.Spellable ∧ SpellableProperties rest
  | .getter key value :: rest =>
    alphabet.IsName key ∧ value.Spellable ∧ SpellableProperties rest

def Statement.Spellable : Statement → Prop
  | .variable _ name initial => alphabet.IsIdentifier name ∧ initial.Spellable
  | .function function => function.IsNamed ∧ function.Spellable
  | .returnNothing => True
  | .returnValue value => value.Spellable
  | .conditional condition thenBody elseBody =>
    condition.Spellable ∧ SpellableStatements thenBody ∧
      SpellableBranch elseBody
  | .loop condition body => condition.Spellable ∧ SpellableStatements body
  | .block body => SpellableStatements body
  | .expression expression => expression.Spellable

def SpellableBranch : Option (List Statement) → Prop
  | none => True
  | some body => SpellableStatements body

def SpellableStatements : List Statement → Prop
  | [] => True
  | first :: rest => first.Spellable ∧ SpellableStatements rest

end

end

def size (number : Double) : Double :=
  .ofMagnitude false number.magnitude

def shownNumber (number : Double) : Expression :=
  if number.isNaN then
    .identifier "NaN"
  else
    let size := if number.isInfinite then .identifier "Infinity" else .number (size number)
    if number.isNegative then .unary .negate size else size

mutual

def Expression.shown : Expression → Expression
  | .number value => shownNumber value
  | .undefined => .identifier "undefined"
  | .string value => .string value
  | .boolean value => .boolean value
  | .identifier name => .identifier name
  | .binary operator left right => .binary operator left.shown right.shown
  | .unary operator operand => .unary operator operand.shown
  | .call callee arguments => .call callee.shown (shownArguments arguments)
  | .member object property => .member object.shown property
  | .function function => .function function.shown
  | .object properties => .object (shownProperties properties)
  | .assignment target value => .assignment target value.shown

def shownArguments : List Expression → List Expression
  | [] => []
  | first :: rest => first.shown :: shownArguments rest

def Function.shown : Function → Function
  | .make name parameters body => .make name parameters (shownStatements body)

def shownProperties : List Property → List Property
  | [] => []
  | .value key value :: rest => .value key value.shown :: shownProperties rest
  | .getter key value :: rest => .getter key value.shown :: shownProperties rest

def Statement.shown : Statement → Statement
  | .variable kind name initial => .variable kind name initial.shown
  | .function function => .function function.shown
  | .returnNothing => .returnNothing
  | .returnValue value => .returnValue value.shown
  | .conditional condition thenBody elseBody =>
    .conditional condition.shown (shownStatements thenBody) (shownBranch elseBody)
  | .loop condition body => .loop condition.shown (shownStatements body)
  | .block body => .block (shownStatements body)
  | .expression expression => .expression expression.shown

def shownBranch : Option (List Statement) → Option (List Statement)
  | none => none
  | some body => some (shownStatements body)

def shownStatements : List Statement → List Statement
  | [] => []
  | first :: rest => first.shown :: shownStatements rest

end

structure IsNumeral (characters : List Char) (value : Double) : Prop where
  digits :
    ∃ whole fraction,
      characters = whole ++ (if fraction.isEmpty then [] else '.' :: fraction) ∧
        whole ≠ [] ∧
        (∀ digit ∈ whole, Decimal.isDigit digit = true) ∧
        (∀ digit ∈ fraction, Decimal.isDigit digit = true) ∧
        (whole.head? = some '0' → whole.length = 1) ∧
        Decimal.toDouble ⟨false, Decimal.numeral (whole ++ fraction), -fraction.length⟩ = value

theorem IsNumeral.exists_cons (isNumeral : IsNumeral characters value) :
    ∃ first later, characters = first :: later ∧ Decimal.isDigit first = true := by
  obtain ⟨whole, fraction, rfl, nonempty, areDigits, _⟩ := isNumeral.digits
  obtain ⟨first, later, rfl⟩ := List.exists_cons_of_ne_nil nonempty
  exact ⟨first, _, rfl, areDigits first List.mem_cons_self⟩

theorem isNumeral_sizeText {number : Double} (isNumber : number.isNaN = false)
    (isFinite : number.isInfinite = false) : IsNumeral number.sizeText.toList (size number) := by
  have finite : number.magnitude < Double.infinityCode :=
    Nat.lt_of_le_of_ne (Nat.le_of_not_lt (of_decide_eq_false isNumber))
      (of_decide_eq_false isFinite)
  unfold Double.sizeText
  split
  · rename_i isZero
    have magnitude : number.magnitude = 0 := of_decide_eq_true isZero
    refine ⟨['0'], [], rfl, by simp, List.forall_mem_singleton.mpr (by decide), by simp,
      by simp, ?_⟩
    rw [size, magnitude]
    rfl
  · rename_i isNonzero
    have nonzero : number.magnitude ≠ 0 := fun isZero => isNonzero (decide_eq_true isZero)
    obtain ⟨whole, fraction, spelled, writes⟩ :=
      Shortest.positional_writes (Shortest.digits_pos nonzero)
    rw [String.toList_ofList, spelled]
    exact ⟨whole, fraction, rfl, writes.nonempty, writes.wholeDigits, writes.fractionDigits,
      writes.noZero, writes.toDouble_eq nonzero finite⟩

variable {alphabet : Alphabet} {rest : List Char}

/-- Whether a character ends a name in every alphabet. -/
def endsName (character : Char) : Bool :=
  character.toNat < 128 && !(character.isAlphanum || character = '$' || character = '_')

theorem Alphabet.not_isPart (ends : endsName character) : alphabet.isPart character = false := by
  simp only [endsName, Bool.and_eq_true, Bool.not_eq_true', decide_eq_true_eq] at ends
  exact (alphabet.ascii_isPart character ends.1).trans ends.2

section

variable (isDigit : Decimal.isDigit character = true)
include isDigit

theorem exists_of_isDigit :
    ∃ digit < 10, character = Char.ofNat (48 + digit) := by
  have bounds : '0' ≤ character ∧ character ≤ '9' := of_decide_eq_true isDigit
  have lower : 48 ≤ character.toNat := UInt32.le_iff_toNat_le.mp bounds.1
  have upper : character.toNat ≤ 57 := UInt32.le_iff_toNat_le.mp bounds.2
  refine ⟨character.toNat - 48, by omega, ?_⟩
  rw [Nat.add_sub_cancel' lower, Char.ofNat_toNat]

theorem Alphabet.not_isStart_of_isDigit :
    alphabet.isStart character = false ∧ isBlank character = false ∧
      character ≠ '=' ∧ character ≠ '.' := by
  obtain ⟨digit, small, rfl⟩ := exists_of_isDigit isDigit
  have all : ∀ digit < 10,
      (Char.ofNat (48 + digit)).toNat < 128 ∧
        ((Char.ofNat (48 + digit)).isAlpha || Char.ofNat (48 + digit) = '$' ||
          Char.ofNat (48 + digit) = '_') = false ∧
        isBlank (Char.ofNat (48 + digit)) = false ∧
        Char.ofNat (48 + digit) ≠ '=' ∧ Char.ofNat (48 + digit) ≠ '.' := by
    decide
  obtain ⟨ascii, notStart, others⟩ := all digit small
  exact ⟨(alphabet.ascii_isStart _ ascii).trans notStart, others⟩

theorem Alphabet.isPart_of_isDigit :
    alphabet.isPart character = true := by
  obtain ⟨digit, small, rfl⟩ := exists_of_isDigit isDigit
  have all : ∀ digit < 10,
      (Char.ofNat (48 + digit)).toNat < 128 ∧
        ((Char.ofNat (48 + digit)).isAlphanum || Char.ofNat (48 + digit) = '$' ||
          Char.ofNat (48 + digit) = '_') = true := by
    decide
  obtain ⟨ascii, isPart⟩ := all digit small
  exact (alphabet.ascii_isPart _ ascii).trans isPart

end

theorem Alphabet.Ends.not_isDigit (ends : alphabet.Ends rest) :
    ∀ character ∈ rest.head?, Decimal.isDigit character = false := by
  intro character isHead
  by_contra isDigit
  have isPart := alphabet.isPart_of_isDigit ((Bool.not_eq_false _).mp isDigit)
  rw [ends character isHead] at isPart
  exact Bool.noConfusion isPart

theorem Alphabet.Ends.not_isStart (ends : alphabet.Ends rest) :
    rest.head?.any alphabet.isStart = false := by
  cases rest with
  | nil => rfl
  | cons head tail =>
    by_contra isStart
    have isPart := alphabet.isPart_of_isStart head (by simpa using isStart)
    rw [ends head rfl] at isPart
    exact Bool.noConfusion isPart

theorem splitDigits_append {digits : List Char}
    (areDigits : ∀ digit ∈ digits, Decimal.isDigit digit = true)
    (ends : ∀ character ∈ rest.head?, Decimal.isDigit character = false) :
    Decimal.splitDigits (digits ++ rest) = (digits, rest) := by
  unfold Decimal.splitDigits
  rw [List.takeWhile_append_of_pos areDigits, List.dropWhile_append_of_pos areDigits]
  cases rest with
  | nil => simp
  | cons head tail => simp [ends head rfl]

theorem next_numeral (isNumeral : IsNumeral characters value) (ends : alphabet.Ends rest)
    (noPoint : rest.head? ≠ some '.') :
    next alphabet (characters ++ rest) = some (.number value, rest) := by
  obtain ⟨whole, fraction, rfl, nonempty, wholeDigits, fractionDigits, noZero, rfl⟩ :=
    isNumeral.digits
  obtain ⟨first, later, rfl⟩ := List.exists_cons_of_ne_nil nonempty
  obtain ⟨notStart, notBlank, _⟩ :=
    alphabet.not_isStart_of_isDigit (wholeDigits first List.mem_cons_self)
  -- The fraction is taken whether it is there or not.
  have split : Decimal.splitDigits
      (first :: later ++ (if fraction.isEmpty then [] else '.' :: fraction) ++ rest) =
        (first :: later, (if fraction.isEmpty then [] else '.' :: fraction) ++ rest) := by
    rw [List.append_assoc]
    refine splitDigits_append wholeDigits fun character isHead => ?_
    cases fraction with
    | nil => exact ends.not_isDigit character isHead
    | cons digit others =>
      obtain rfl := Option.some.inj isHead
      decide
  have fractionSplit : Decimal.splitFraction
      ((if fraction.isEmpty then [] else '.' :: fraction) ++ rest) = (fraction, rest) := by
    cases fraction with
    | nil =>
      cases rest with
      | nil => rfl
      | cons head tail =>
        have notPoint : head ≠ '.' := by simpa using noPoint
        simp [Decimal.splitFraction, notPoint]
    | cons digit others => exact splitDigits_append fractionDigits ends.not_isDigit
  unfold next
  rw [List.cons_append, List.cons_append, List.dropWhile_cons_of_neg (by simp [notBlank])]
  simp only [notStart, wholeDigits first List.mem_cons_self, if_true]
  unfold readNumber
  rw [← List.cons_append, ← List.cons_append, split]
  dsimp only
  rw [fractionSplit]
  have zero : ((first :: later).head? = some '0' && (first :: later).length ≠ 1) = false := by
    by_cases isZero : (first :: later).head? = some '0'
    · simp [noZero isZero]
    · rw [decide_eq_false isZero, Bool.false_and]
  simp only [zero, ends.not_isStart, Bool.false_eq_true, if_false]

variable {name : String}

/-- Whether a text is a nonempty run of ASCII letters. -/
def hasLetters (name : String) : Bool :=
  !name.toList.isEmpty &&
    name.toList.all fun character => character.toNat < 128 && character.isAlpha

theorem isName_of_letters (letters : hasLetters name) : alphabet.IsName name := by
  simp only [hasLetters, Bool.and_eq_true, Bool.not_eq_true', List.isEmpty_eq_false_iff] at letters
  have isStart : ∀ character ∈ name.toList, alphabet.isStart character = true := by
    intro character member
    have isLetter := List.all_eq_true.mp letters.2 character member
    simp only [Bool.and_eq_true, decide_eq_true_eq] at isLetter
    rw [alphabet.ascii_isStart character isLetter.1, isLetter.2]
    rfl
  obtain ⟨first, later, split⟩ := List.exists_cons_of_ne_nil letters.1
  refine ⟨⟨first, later, split, isStart first (by simp [split])⟩, fun character member => ?_⟩
  exact alphabet.isPart_of_isStart character (isStart character member)

theorem isIdentifier_of_letters (letters : hasLetters name)
    (free : keywords.contains name = false) : alphabet.IsIdentifier name :=
  ⟨isName_of_letters letters, free⟩

end Script

end Toolshed
