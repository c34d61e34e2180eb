import Mathlib.Algebra.Order.Ring.Nat
import Mathlib.Data.Nat.Log
import Mathlib.Tactic.Ring
import Toolshed.Double.Basic

namespace Toolshed

/-!
# The numbers that round to a double

A quotient of units rounds to a finite number if it is at most half a step away
from it, by the step on its side. An even significand also takes the two ends.
-/

namespace Double

variable {numerator denominator : Nat}
variable {rounded shift : Nat}

theorem nearestEven_eq (positive : 0 < denominator)
    (above : 2 * rounded * denominator ≤ 2 * numerator + denominator)
    (below : 2 * numerator ≤ (2 * rounded + 1) * denominator)
    (aboveOdd : rounded % 2 = 1 → 2 * rounded * denominator < 2 * numerator + denominator)
    (belowOdd : rounded % 2 = 1 → 2 * numerator < (2 * rounded + 1) * denominator) :
    nearestEven numerator denominator = rounded := by
  have split := Nat.div_add_mod numerator denominator
  have small := Nat.mod_lt numerator positive
  unfold nearestEven
  generalize numerator / denominator = quotient at *
  -- The quotient rounds down to the result or to the one before it.
  have notAbove : quotient ≤ rounded := by
    by_contra larger
    obtain ⟨more, rfl⟩ := Nat.exists_eq_add_of_lt (Nat.lt_of_not_le larger)
    have expanded : denominator * (rounded + more + 1) =
        rounded * denominator + more * denominator + denominator := by ring
    have isBelow : (2 * rounded + 1) * denominator = 2 * (rounded * denominator) + denominator := by
      ring
    omega
  have notBelow : rounded ≤ quotient + 1 := by
    by_contra larger
    obtain ⟨more, rfl⟩ := Nat.exists_eq_add_of_lt (Nat.lt_of_not_le larger)
    have expanded : 2 * (quotient + 1 + more + 1) * denominator =
        2 * (denominator * quotient) + 2 * (more * denominator) + 4 * denominator := by ring
    omega
  rcases Nat.lt_or_eq_of_le notAbove with smaller | rfl
  · obtain rfl : rounded = quotient + 1 := by omega
    have expanded : 2 * (quotient + 1) * denominator =
        2 * (denominator * quotient) + 2 * denominator := by ring
    rw [if_pos (by omega)]
  · have isBelow : (2 * quotient + 1) * denominator =
        2 * (denominator * quotient) + denominator := by ring
    rw [if_neg (by omega)]

theorem shift_mul_add_significand (number : Double) :
    number.shift * binade + number.significand = number.magnitude := by
  have positive : 0 < binade := by decide
  unfold shift significand
  split
  · rename_i small
    rw [Nat.div_eq_of_lt small]
    simp
  · rename_i large
    have split := Nat.div_add_mod number.magnitude binade
    obtain ⟨exponent, isSucc⟩ : ∃ exponent, number.magnitude / binade = exponent + 1 :=
      Nat.exists_eq_succ_of_ne_zero
        (Nat.ne_of_gt (Nat.div_pos (Nat.le_of_not_lt large) positive))
    rw [isSucc] at split ⊢
    have expanded : binade * (exponent + 1) = exponent * binade + binade := by ring
    rw [Nat.add_sub_cancel]
    omega

def Narrow (number : Double) : Prop :=
  number.significand = binade ∧ 0 < number.shift

instance (number : Double) : Decidable number.Narrow :=
  inferInstanceAs (Decidable (_ ∧ _))

def slack (number : Double) : Nat :=
  if number.Narrow then 1 else 2

/-- The quotient is no further than halfway to a neighbour, and as far only from an even double. -/
structure Rounds (number : Double) (numerator denominator : Nat) : Prop where
  lower :
    4 * number.significand * (denominator * 2 ^ number.shift) ≤
      4 * numerator + number.slack * (denominator * 2 ^ number.shift)
  upper :
    4 * numerator ≤
      4 * number.significand * (denominator * 2 ^ number.shift) +
        2 * (denominator * 2 ^ number.shift)
  lowerOdd :
    number.significand % 2 = 1 →
      4 * number.significand * (denominator * 2 ^ number.shift) <
        4 * numerator + number.slack * (denominator * 2 ^ number.shift)
  upperOdd :
    number.significand % 2 = 1 →
      4 * numerator <
        4 * number.significand * (denominator * 2 ^ number.shift) +
          2 * (denominator * 2 ^ number.shift)

theorem significand_lt (number : Double) : number.significand < 2 * binade := by
  have positive : 0 < binade := by decide
  unfold significand
  split
  · omega
  · have := Nat.mod_lt number.magnitude positive
    omega

theorem binade_le_significand {number : Double} (positive : 0 < number.shift) :
    binade ≤ number.significand := by
  unfold significand
  split
  · rename_i small
    unfold shift at positive
    rw [Nat.div_eq_of_lt small] at positive
    exact absurd positive (by decide)
  · exact Nat.le_add_right _ _

theorem log2_sub_eq (positive : 0 < denominator)
    (lower : binade * (denominator * 2 ^ shift) ≤ numerator ∨ shift = 0)
    (upper : numerator < 2 * binade * (denominator * 2 ^ shift)) :
    (numerator / denominator).log2 - 52 = shift := by
  have isBinade : binade = 2 ^ 52 := rfl
  have small : numerator / denominator < 2 ^ (52 + shift + 1) := by
    refine (Nat.div_lt_iff_lt_mul positive).mpr (Nat.lt_of_lt_of_eq upper ?_)
    rw [isBinade]
    ring
  rcases Nat.eq_zero_or_pos (numerator / denominator) with isZero | nonzero
  · rcases lower with lower | rfl
    · have tooSmall := (Nat.div_eq_zero_iff_lt positive).mp isZero
      have above : denominator ≤ binade * (denominator * 2 ^ shift) := by
        rw [← Nat.mul_assoc, Nat.mul_comm binade, Nat.mul_assoc]
        exact Nat.le_mul_of_pos_right _ (Nat.mul_pos (by decide) (Nat.two_pow_pos shift))
      omega
    · rw [isZero]
      rfl
  · have bounded := (Nat.log2_lt (Nat.ne_of_gt nonzero)).mpr small
    rcases lower with lower | rfl
    · have large : 2 ^ (52 + shift) ≤ numerator / denominator := by
        refine (Nat.le_div_iff_mul_le positive).mpr (Nat.le_trans (Nat.le_of_eq ?_) lower)
        rw [isBinade]
        ring
      have reached := (Nat.le_log2 (Nat.ne_of_gt nonzero)).mpr large
      omega
    · omega

theorem roundedCode_eq (isShift : (numerator / denominator).log2 - 52 = shift)
    (isRounded : nearestEven numerator (denominator * 2 ^ shift) = rounded)
    (finite : shift * binade + rounded ≤ infinityCode) :
    roundedCode numerator denominator = shift * binade + rounded := by
  unfold roundedCode
  simp only [isShift, Nat.pow_eq, isRounded]
  exact Nat.min_eq_left finite

namespace Rounds

variable {number : Double}

theorem step_pos (positive : 0 < denominator) (shift : Nat) : 0 < denominator * 2 ^ shift :=
  Nat.mul_pos positive (Nat.two_pow_pos shift)

variable (rounds : number.Rounds numerator denominator)
include rounds

theorem roundedCode_below
    (positive : 0 < denominator) (finite : number.magnitude < infinityCode)
    (narrow : number.Narrow) (inside : numerator < binade * (denominator * 2 ^ number.shift)) :
    roundedCode numerator denominator = number.magnitude := by
  obtain ⟨shift, isSucc⟩ := Nat.exists_eq_succ_of_ne_zero (Nat.ne_of_gt narrow.2)
  have halved : denominator * 2 ^ number.shift = 2 * (denominator * 2 ^ shift) := by
    rw [isSucc, Nat.pow_succ]
    ring
  have code : shift * binade + 2 * binade = number.magnitude := by
    rw [← number.shift_mul_add_significand, narrow.1, isSucc, Nat.succ_mul shift]
    omega
  have slackOne : number.slack = 1 := if_pos narrow
  have lower := rounds.lower
  rw [halved] at inside
  rw [halved, narrow.1, slackOne] at lower
  have stepPos := step_pos positive shift
  have stepLe : denominator * 2 ^ shift ≤ binade * (denominator * 2 ^ shift) :=
    Nat.le_mul_of_pos_left _ (by decide)
  have isLower : 4 * binade * (2 * (denominator * 2 ^ shift)) =
      8 * (binade * (denominator * 2 ^ shift)) := by ring
  have isInside : binade * (2 * (denominator * 2 ^ shift)) =
      2 * (binade * (denominator * 2 ^ shift)) := by ring
  have isShift : (numerator / denominator).log2 - 52 = shift := by
    refine log2_sub_eq positive (.inl (by omega)) ?_
    rw [Nat.mul_assoc]
    omega
  have isRounded : nearestEven numerator (denominator * 2 ^ shift) = 2 * binade := by
    have isAbove : 2 * (2 * binade) * (denominator * 2 ^ shift) =
        4 * (binade * (denominator * 2 ^ shift)) := by ring
    have isBelow : (2 * (2 * binade) + 1) * (denominator * 2 ^ shift) =
        4 * (binade * (denominator * 2 ^ shift)) + denominator * 2 ^ shift := by ring
    refine nearestEven_eq stepPos (by omega) (by omega) ?_ ?_
    · intro odd
      omega
    · intro odd
      omega
  rw [Double.roundedCode_eq isShift isRounded (by omega), code]

theorem roundedCode_inside
    (positive : 0 < denominator) (finite : number.magnitude < infinityCode)
    (inside : number.Narrow → binade * (denominator * 2 ^ number.shift) ≤ numerator) :
    roundedCode numerator denominator = number.magnitude := by
  have code := number.shift_mul_add_significand
  have bounded := number.significand_lt
  have slackLe : number.slack ≤ 2 := by
    unfold slack
    split <;> decide
  obtain ⟨lower, upper, lowerOdd, upperOdd⟩ := rounds
  have stepPos := step_pos positive number.shift
  have slackStep : number.slack * (denominator * 2 ^ number.shift) ≤
      2 * (denominator * 2 ^ number.shift) := Nat.mul_le_mul_right _ slackLe
  rw [Nat.mul_assoc] at lower upper lowerOdd upperOdd
  have isShift : (numerator / denominator).log2 - 52 = number.shift := by
    refine log2_sub_eq positive ?_ ?_
    · rcases Nat.eq_zero_or_pos number.shift with isZero | nonzero
      · exact .inr isZero
      · rcases Nat.lt_or_eq_of_le (binade_le_significand nonzero) with larger | isBinade
        · have above : (binade + 1) * (denominator * 2 ^ number.shift) ≤
              number.significand * (denominator * 2 ^ number.shift) :=
            Nat.mul_le_mul_right _ larger
          rw [Nat.add_mul] at above
          exact .inl (by omega)
        · exact .inl (inside ⟨isBinade.symm, nonzero⟩)
    · have above : (number.significand + 1) * (denominator * 2 ^ number.shift) ≤
          2 * binade * (denominator * 2 ^ number.shift) :=
        Nat.mul_le_mul_right _ bounded
      rw [Nat.add_mul] at above
      omega
  have isRounded : nearestEven numerator (denominator * 2 ^ number.shift) =
      number.significand := by
    have isAbove : 2 * number.significand * (denominator * 2 ^ number.shift) =
        2 * (number.significand * (denominator * 2 ^ number.shift)) := Nat.mul_assoc _ _ _
    have isBelow : (2 * number.significand + 1) * (denominator * 2 ^ number.shift) =
        2 * (number.significand * (denominator * 2 ^ number.shift)) +
          denominator * 2 ^ number.shift := by ring
    refine nearestEven_eq stepPos (by omega) (by omega) ?_ ?_
    · intro odd
      omega
    · intro odd
      omega
  rw [Double.roundedCode_eq isShift isRounded (by omega), code]

theorem roundedCode_eq (positive : 0 < denominator)
    (finite : number.magnitude < infinityCode) :
    roundedCode numerator denominator = number.magnitude := by
  by_cases atEdge : number.Narrow ∧ numerator < binade * (denominator * 2 ^ number.shift)
  · exact rounds.roundedCode_below positive finite atEdge.1 atEdge.2
  · exact rounds.roundedCode_inside positive finite fun narrow =>
      Nat.le_of_not_lt fun below => atEdge ⟨narrow, below⟩

theorem of_proportional {otherNumerator otherDenominator : Nat}
    (positive : 0 < denominator)
    (otherPositive : 0 < otherDenominator)
    (same : otherNumerator * denominator = numerator * otherDenominator) :
    number.Rounds otherNumerator otherDenominator := by
  -- Both sides of each bound are scaled by the one denominator and freed from the other.
  have scaled : ∀ factor,
      denominator * (factor * (otherDenominator * 2 ^ number.shift)) =
        otherDenominator * (factor * (denominator * 2 ^ number.shift)) := by
    intro factor
    ring
  have scaledSum : ∀ factor,
      denominator * (4 * otherNumerator + factor * (otherDenominator * 2 ^ number.shift)) =
        otherDenominator * (4 * numerator + factor * (denominator * 2 ^ number.shift)) := by
    intro factor
    calc denominator * (4 * otherNumerator + factor * (otherDenominator * 2 ^ number.shift))
        = 4 * (otherNumerator * denominator) +
            otherDenominator * (factor * (denominator * 2 ^ number.shift)) := by ring
      _ = otherDenominator * (4 * numerator + factor * (denominator * 2 ^ number.shift)) := by
          rw [same]
          ring
  have scaledNumerator :
      denominator * (4 * otherNumerator) = otherDenominator * (4 * numerator) := by
    have sum := scaledSum 0
    simpa using sum
  have scaledUpper :
      denominator * (4 * number.significand * (otherDenominator * 2 ^ number.shift) +
          2 * (otherDenominator * 2 ^ number.shift)) =
        otherDenominator * (4 * number.significand * (denominator * 2 ^ number.shift) +
          2 * (denominator * 2 ^ number.shift)) := by
    ring
  constructor
  · refine Nat.le_of_mul_le_mul_left ?_ positive
    rw [scaled, scaledSum]
    exact Nat.mul_le_mul_left _ rounds.lower
  · refine Nat.le_of_mul_le_mul_left ?_ positive
    rw [scaledNumerator, scaledUpper]
    exact Nat.mul_le_mul_left _ rounds.upper
  · intro odd
    refine Nat.lt_of_mul_lt_mul_left (a := denominator) ?_
    rw [scaled, scaledSum]
    exact Nat.mul_lt_mul_of_pos_left (rounds.lowerOdd odd) otherPositive
  · intro odd
    refine Nat.lt_of_mul_lt_mul_left (a := denominator) ?_
    rw [scaledNumerator, scaledUpper]
    exact Nat.mul_lt_mul_of_pos_left (rounds.upperOdd odd) otherPositive

end Rounds

end Double

end Toolshed
