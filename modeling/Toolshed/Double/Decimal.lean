import Toolshed.Double.Basic

namespace Toolshed

/-!
# Reading decimal numbers

A decimal is an optional sign, digits with an optional point among or around
them, and an optional exponent of ten. It is read as the nearest
double-precision number. After the sign there can also be a word for infinity or
for no number.
-/

structure Decimal where
  negative : Bool
  digits : Nat
  exponent : Int
  deriving Repr, DecidableEq

namespace Decimal

def isDigit (character : Char) : Bool :=
  '0' ≤ character ∧ character ≤ '9'

def numeral (digits : List Char) : Nat :=
  digits.foldl (fun number digit => 10 * number + (digit.toNat - '0'.toNat)) 0

def splitSign : List Char → Bool × List Char
  | '-' :: rest => (true, rest)
  | '+' :: rest => (false, rest)
  | rest => (false, rest)

def splitDigits (text : List Char) : List Char × List Char :=
  (text.takeWhile isDigit, text.dropWhile isDigit)

/--
Read an exponent that fills the whole of a text; no text at all is the exponent
zero.
-/
def exponent? : List Char → Option Int
  | [] => some 0
  | mark :: rest =>
    if mark = 'e' ∨ mark = 'E' then
      let (negative, written) := splitSign rest
      let (digits, after) := splitDigits written
      if digits.isEmpty ∨ !after.isEmpty then
        none
      else if negative then
        some (-(numeral digits : Int))
      else
        some (numeral digits)
    else
      none

def splitFraction : List Char → List Char × List Char
  | '.' :: rest => splitDigits rest
  | rest => ([], rest)

def parse? (text : String) : Option Decimal :=
  let (negative, written) := splitSign text.toList
  let (whole, afterWhole) := splitDigits written
  let (fraction, after) := splitFraction afterWhole
  if whole.isEmpty ∧ fraction.isEmpty then
    none
  else
    (exponent? after).map fun exponent =>
      ⟨negative, numeral (whole ++ fraction), exponent - fraction.length⟩

/--
The double-precision number nearest to a decimal. A decimal beyond a power of
ten that no double reaches is infinite or zero at once.
-/
def toDouble (decimal : Decimal) : Double :=
  let top : Int := (Nat.toDigits 10 decimal.digits).length + decimal.exponent
  if decimal.digits = 0 ∨ top < -400 then
    .ofMagnitude decimal.negative 0
  else if 400 < top then
    .infinity decimal.negative
  else
    match decimal.exponent with
    | .ofNat power =>
      .rounded decimal.negative (decimal.digits * Nat.pow 10 power * Double.unitsPerOne) 1
    | .negSucc power =>
      .rounded decimal.negative (decimal.digits * Double.unitsPerOne) (Nat.pow 10 (power + 1))

end Decimal

/-- The words for numbers that are not finite, in any case of letters. -/
def Double.ofWord? (negative : Bool) (letters : List Char) : Option Double :=
  match String.ofList (letters.map Char.toLower) with
  | "inf" | "infinity" => some (.infinity negative)
  | "nan" => some (.notNumber negative)
  | _ => none

def Double.ofText? (text : String) : Option Double :=
  match Decimal.parse? text with
  | some decimal => some decimal.toDouble
  | none =>
    let (negative, letters) := Decimal.splitSign text.toList
    ofWord? negative letters

end Toolshed
