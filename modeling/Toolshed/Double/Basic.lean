namespace Toolshed

/-!
# Double-precision numbers

The numbers of the language are the binary64 numbers of IEEE 754, kept as their
bits. Every finite one is a whole multiple of the smallest positive one, so its
exact value is a sign and a natural number of such units.
-/

structure Double where
  bits : UInt64
  deriving Repr, DecidableEq, Inhabited

namespace Double

def code (number : Double) : Nat :=
  number.bits.toNat

def binade : Nat :=
  Nat.pow 2 52

def signWeight : Nat :=
  Nat.pow 2 63

def infinityCode : Nat :=
  0x7ff * binade

def isNegative (number : Double) : Bool :=
  signWeight ≤ number.code

def magnitude (number : Double) : Nat :=
  number.code % signWeight

def isNaN (number : Double) : Bool :=
  infinityCode < number.magnitude

def isInfinite (number : Double) : Bool :=
  number.magnitude = infinityCode

def isZero (number : Double) : Bool :=
  number.magnitude = 0

def ofMagnitude (negative : Bool) (magnitude : Nat) : Double :=
  ⟨UInt64.ofNat (if negative then signWeight + magnitude else magnitude)⟩

def zero : Double :=
  ⟨0⟩

def infinity (negative : Bool) : Double :=
  ofMagnitude negative infinityCode

def notNumber (negative : Bool) : Double :=
  ofMagnitude negative (infinityCode + binade / 2)

def invalid : Double :=
  notNumber true

def shift (number : Double) : Nat :=
  number.magnitude / binade - 1

def significand (number : Double) : Nat :=
  if number.magnitude < binade then
    number.magnitude
  else
    binade + number.magnitude % binade

/-- The size of a finite number, counted in the smallest positive number. -/
def units (number : Double) : Nat :=
  number.significand * Nat.pow 2 number.shift

def unitsPerOne : Nat :=
  Nat.pow 2 1074

def value (number : Double) : Int :=
  if number.isNegative then -(number.units : Int) else number.units

def nearestEven (numerator denominator : Nat) : Nat :=
  let quotient := numerator / denominator
  let twice := 2 * (numerator % denominator)
  if denominator < twice ∨ (twice = denominator ∧ quotient % 2 = 1) then
    quotient + 1
  else
    quotient

/--
The code of the number nearest to a quotient of units; infinity if it is too
large. The code of a number grows with its value, so a significand that rounds
up to the next binade needs no other case.
-/
def roundedCode (numerator denominator : Nat) : Nat :=
  let shift := (numerator / denominator).log2 - 52
  min (shift * binade + nearestEven numerator (denominator * Nat.pow 2 shift)) infinityCode

def rounded (negative : Bool) (numerator denominator : Nat) : Double :=
  ofMagnitude negative (roundedCode numerator denominator)

end Double

end Toolshed
