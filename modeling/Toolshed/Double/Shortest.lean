import Toolshed.Double.Basic

namespace Toolshed

/-!
# Shortest decimals

The decimal of a finite number has the fewest digits that read back as that
number, and of those the nearest one. On the grids of one to seventeen digits the
two neighbours of the number are tried against the interval of what rounds to it.
-/

/--
The decimal `digits` times ten to the power `power`, less `Shortest.scale`
powers of ten.
-/
structure GridPoint where
  digits : Nat
  power : Nat
  deriving Repr, DecidableEq

namespace Shortest

def scale : Nat :=
  400

def maxDigits : Nat :=
  17

/--
A positive finite number and the reals that round to it, as fractions of one
`denominator`: from `value - below` to `value + above`.
-/
structure Interval where
  value : Nat
  below : Nat
  above : Nat
  denominator : Nat
  closed : Bool
  deriving Repr, DecidableEq

/--
The interval of a positive finite number, scaled up. The gap below the first
number of a binade is half the gap above it.
-/
def interval (number : Double) : Interval :=
  let step := Nat.pow 2 number.shift * Nat.pow 10 scale
  let narrow := number.significand = Double.binade ∧ 0 < number.shift
  { value := 4 * number.significand * step
    below := if narrow then step else 2 * step
    above := 2 * step
    denominator := 4 * Double.unitsPerOne
    closed := number.significand % 2 = 0 }

def Interval.reaches (interval : Interval) (distance bound : Nat) : Bool :=
  if interval.closed then distance ≤ bound else distance < bound

/--
The point of a grid that rounds to the number: of two such points the nearer, of
two equally near ones the larger.
-/
def Interval.gridPoint? (interval : Interval) (power : Nat) : Option GridPoint :=
  let cell := interval.denominator * Nat.pow 10 power
  let lower := interval.value / cell
  let past := interval.value % cell
  let lowerFits := interval.reaches past interval.below
  let upperFits := interval.reaches (cell - past) interval.above
  if lowerFits ∧ (!upperFits ∨ 2 * past < cell) then
    some ⟨lower, power⟩
  else if upperFits then
    some ⟨lower + 1, power⟩
  else
    none

def decimal (number : Double) : GridPoint :=
  let interval := interval number
  let whole := interval.value / interval.denominator
  let length := (Nat.toDigits 10 whole).length
  let grids := (List.range maxDigits).map fun extra => length - (extra + 1)
  (grids.findSome? interval.gridPoint?).getD ⟨whole, 0⟩

def paddedDigits (width number : Nat) : List Char :=
  let digits := Nat.toDigits 10 number
  List.replicate (width - digits.length) '0' ++ digits

/--
A decimal without an exponent. The fraction has no zeros at its end, and an
empty one no point.
-/
def positional (point : GridPoint) : List Char :=
  if scale ≤ point.power then
    Nat.toDigits 10 point.digits ++ List.replicate (point.power - scale) '0'
  else
    let places := scale - point.power
    let digits := paddedDigits (places + 1) point.digits
    let whole := digits.take (digits.length - places)
    let fraction :=
      ((digits.drop (digits.length - places)).reverse.dropWhile fun digit => digit = '0').reverse
    if fraction.isEmpty then whole else whole ++ '.' :: fraction

end Shortest

def Double.sizeText (number : Double) : String :=
  if number.isZero then
    "0"
  else
    String.ofList (Shortest.positional (Shortest.decimal number))

end Toolshed
