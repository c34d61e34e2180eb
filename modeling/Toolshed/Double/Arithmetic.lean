import Toolshed.Double.Basic

namespace Toolshed

/-!
# Arithmetic of double-precision numbers

Each operation computes its exact result and rounds once, to nearest with halves
to even. An operand that is no number is handed on, the left one first.
-/

namespace Double

def negate (number : Double) : Double :=
  ⟨number.bits ^^^ 0x8000000000000000⟩

def ofUnits (negativeZero : Bool) (value : Int) : Double :=
  if value = 0 then
    ofMagnitude negativeZero 0
  else
    rounded (value < 0) value.natAbs 1

def addNumbers (left right : Double) : Double :=
  if left.isInfinite then
    if right.isInfinite ∧ left.isNegative ≠ right.isNegative then invalid else left
  else if right.isInfinite then
    right
  else
    ofUnits (left.isNegative && right.isNegative) (left.value + right.value)

def add (left right : Double) : Double :=
  if left.isNaN then left
  else if right.isNaN then right
  else addNumbers left right

def subtract (left right : Double) : Double :=
  if left.isNaN then left
  else if right.isNaN then right
  else addNumbers left right.negate

def multiply (left right : Double) : Double :=
  let negative := left.isNegative != right.isNegative
  if left.isNaN then left
  else if right.isNaN then right
  else if left.isInfinite ∨ right.isInfinite then
    if left.isZero ∨ right.isZero then invalid else infinity negative
  else
    rounded negative (left.units * right.units) unitsPerOne

def divide (left right : Double) : Double :=
  let negative := left.isNegative != right.isNegative
  if left.isNaN then left
  else if right.isNaN then right
  else if left.isInfinite then
    if right.isInfinite then invalid else infinity negative
  else if right.isInfinite then
    ofMagnitude negative 0
  else if right.isZero then
    if left.isZero then invalid else infinity negative
  else
    rounded negative (left.units * unitsPerOne) right.units

/--
What is left of the first number after whole multiples of the second; it has the
sign of the first.
-/
def remainder (left right : Double) : Double :=
  if left.isNaN then left
  else if right.isNaN then right
  else if left.isInfinite ∨ right.isZero then invalid
  else if right.isInfinite then left
  else rounded left.isNegative (left.units % right.units) 1

def rank (number : Double) : Int :=
  if number.isNegative then -(number.magnitude : Int) else number.magnitude

/--
Whether the first number is below the second; nothing is below or above a NaN.
-/
def less (left right : Double) : Bool :=
  !left.isNaN && !right.isNaN && decide (left.rank < right.rank)

def lessEqual (left right : Double) : Bool :=
  !left.isNaN && !right.isNaN && decide (left.rank ≤ right.rank)

/--
Whether two numbers are equal: the two zeros are, and a NaN equals nothing.
-/
def equal (left right : Double) : Bool :=
  !left.isNaN && !right.isNaN && decide (left.rank = right.rank)

end Double

end Toolshed
