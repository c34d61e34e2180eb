import Mathlib.Data.List.TakeWhile
import Toolshed.Double.Decimal
import Toolshed.Double.Shortest
import Toolshed.Proofs.Double.Rounding

namespace Toolshed

/-!
# Decimals read back

The shortest decimal of a number lies in the interval of what rounds to it, so
its digits read back as the number. On the grid of seventeen digits a cell is
smaller than the interval, so there is always such a decimal.
-/

namespace Shortest

open Double

variable {power exponent value width : Nat} {digit : Char} {point : GridPoint}
variable {whole fraction : List Char}

namespace Interval

variable {interval : Interval} {power : Nat} {point : GridPoint}
variable {distance bound : Nat}

def cell (interval : Interval) (power : Nat) : Nat :=
  interval.denominator * 10 ^ power

structure Contains (interval : Interval) (digits power : Nat) : Prop where
  lower : interval.value ≤ digits * interval.cell power + interval.below
  upper : digits * interval.cell power ≤ interval.value + interval.above
  lowerOpen :
    interval.closed = false →
      interval.value < digits * interval.cell power + interval.below
  upperOpen :
    interval.closed = false →
      digits * interval.cell power < interval.value + interval.above

theorem cell_pos (positive : 0 < interval.denominator) (power : Nat) : 0 < interval.cell power :=
  Nat.mul_pos positive (Nat.pow_pos (by decide))

theorem reaches_le (reaches : interval.reaches distance bound = true) :
    distance ≤ bound ∧ (interval.closed = false → distance < bound) := by
  unfold Interval.reaches at reaches
  split at reaches
  · exact ⟨of_decide_eq_true reaches, by simp_all⟩
  · have below := of_decide_eq_true reaches
    exact ⟨Nat.le_of_lt below, fun _ => below⟩

theorem le_of_not_reaches (outside : interval.reaches distance bound = false) :
    bound ≤ distance := by
  unfold Interval.reaches at outside
  split at outside
  · exact Nat.le_of_lt (Nat.lt_of_not_le (of_decide_eq_false outside))
  · exact Nat.le_of_not_lt (of_decide_eq_false outside)

theorem gridPoint?_cases (interval : Interval) (power : Nat) :
    (interval.reaches (interval.value % interval.cell power) interval.below = true ∧
        interval.gridPoint? power = some ⟨interval.value / interval.cell power, power⟩) ∨
      (interval.reaches (interval.cell power - interval.value % interval.cell power)
          interval.above = true ∧
        interval.gridPoint? power = some ⟨interval.value / interval.cell power + 1, power⟩) ∨
      (interval.reaches (interval.value % interval.cell power) interval.below = false ∧
        interval.reaches (interval.cell power - interval.value % interval.cell power)
          interval.above = false ∧
        interval.gridPoint? power = none) := by
  have unfolded : interval.gridPoint? power =
      if interval.reaches (interval.value % interval.cell power) interval.below = true ∧
          ((!interval.reaches (interval.cell power - interval.value % interval.cell power)
            interval.above) = true ∨
              2 * (interval.value % interval.cell power) < interval.cell power) then
        some ⟨interval.value / interval.cell power, power⟩
      else if interval.reaches (interval.cell power - interval.value % interval.cell power)
          interval.above = true then
        some ⟨interval.value / interval.cell power + 1, power⟩
      else none := rfl
  rw [unfolded]
  split
  · rename_i isLower
    exact .inl ⟨isLower.1, rfl⟩
  · rename_i notLower
    split
    · rename_i isUpper
      exact .inr (.inl ⟨isUpper, rfl⟩)
    · rename_i notUpper
      have isFalse := (Bool.not_eq_true _).mp notUpper
      refine .inr (.inr ⟨?_, isFalse, rfl⟩)
      simpa [isFalse] using notLower

theorem contains_of_gridPoint? (positive : 0 < interval.denominator) (wide : 0 < interval.above)
    (found : interval.gridPoint? power = some point) :
    interval.Contains point.digits point.power := by
  have cellPos := cell_pos positive power
  have split := Nat.div_add_mod' interval.value (interval.cell power)
  have small := Nat.mod_lt interval.value cellPos
  rcases gridPoint?_cases interval power with ⟨reaches, isPoint⟩ | ⟨reaches, isPoint⟩ | isNone
  · obtain rfl := Option.some.inj (isPoint.symm.trans found)
    obtain ⟨reached, inside⟩ := reaches_le reaches
    have lowerOpen : interval.closed = false →
        interval.value < interval.value / interval.cell power * interval.cell power +
          interval.below := by
      intro isOpen
      have := inside isOpen
      omega
    show interval.Contains (interval.value / interval.cell power) power
    exact ⟨by omega, by omega, lowerOpen, fun _ => by omega⟩
  · obtain rfl := Option.some.inj (isPoint.symm.trans found)
    obtain ⟨reached, inside⟩ := reaches_le reaches
    have next := Nat.add_one_mul (interval.value / interval.cell power) (interval.cell power)
    have upperOpen : interval.closed = false →
        (interval.value / interval.cell power + 1) * interval.cell power <
          interval.value + interval.above := by
      intro isOpen
      have := inside isOpen
      omega
    show interval.Contains (interval.value / interval.cell power + 1) power
    exact ⟨by omega, by omega, fun _ => by omega, upperOpen⟩
  · rw [isNone.2.2] at found
    cases found

theorem gridPoint?_ne_none (positive : 0 < interval.denominator)
    (fine : interval.cell power < interval.below + interval.above) :
    interval.gridPoint? power ≠ none := by
  intro none
  rcases gridPoint?_cases interval power with ⟨_, isPoint⟩ | ⟨_, isPoint⟩ | ⟨below, above, _⟩
  · rw [isPoint] at none
    cases none
  · rw [isPoint] at none
    cases none
  · have pastBelow := le_of_not_reaches below
    have pastAbove := le_of_not_reaches above
    have small := Nat.mod_lt interval.value (cell_pos positive power)
    omega

end Interval

variable {number : Double}

theorem value_interval (number : Double) :
    (interval number).value = 4 * number.significand * (10 ^ scale * 2 ^ number.shift) := by
  rw [Nat.mul_comm (10 ^ scale), interval, Nat.pow_eq, Nat.pow_eq]

theorem below_interval (number : Double) :
    (interval number).below = number.slack * (10 ^ scale * 2 ^ number.shift) := by
  rw [Nat.mul_comm (10 ^ scale), interval, Nat.pow_eq, Nat.pow_eq]
  by_cases narrow : number.Narrow
  · rw [slack, if_pos narrow, Nat.one_mul]
    exact if_pos narrow
  · rw [slack, if_neg narrow]
    exact if_neg narrow

theorem above_interval (number : Double) :
    (interval number).above = 2 * (10 ^ scale * 2 ^ number.shift) := by
  rw [Nat.mul_comm (10 ^ scale), interval, Nat.pow_eq, Nat.pow_eq]

theorem cell_interval (number : Double) (power : Nat) :
    (interval number).cell power = 4 * unitsPerOne * 10 ^ power :=
  rfl

theorem closed_interval (number : Double) :
    (interval number).closed = decide (number.significand % 2 = 0) :=
  rfl

theorem Interval.Contains.rounds {digits : Nat}
    (contains : (interval number).Contains digits power) :
    number.Rounds (digits * 10 ^ power * unitsPerOne) (10 ^ scale) := by
  have isPoint : digits * (interval number).cell power =
      4 * (digits * 10 ^ power * unitsPerOne) := by
    rw [cell_interval]
    ring
  obtain ⟨lower, upper, lowerOpen, upperOpen⟩ := contains
  rw [isPoint, value_interval] at lower upper lowerOpen upperOpen
  rw [below_interval] at lower lowerOpen
  rw [above_interval] at upper upperOpen
  have isOpen : number.significand % 2 = 1 → (interval number).closed = false := by
    intro odd
    exact decide_eq_false (by omega)
  exact ⟨lower, upper, fun odd => lowerOpen (isOpen odd), fun odd => upperOpen (isOpen odd)⟩

theorem significand_pos (nonzero : number.magnitude ≠ 0) : 0 < number.significand := by
  unfold significand
  split
  · exact Nat.pos_of_ne_zero nonzero
  · exact Nat.lt_of_lt_of_le (by decide) (Nat.le_add_right _ _)

theorem fine_grid (enough : 10 ^ 16 * (interval number).cell power ≤ (interval number).value) :
    (interval number).cell power < (interval number).below + (interval number).above := by
  have stepPos : 0 < 10 ^ scale * 2 ^ number.shift :=
    Nat.mul_pos (Nat.pow_pos (by decide)) (Nat.two_pow_pos _)
  rw [value_interval] at enough
  rw [below_interval, above_interval]
  generalize 10 ^ scale * 2 ^ number.shift = step at *
  have bounded := number.significand_lt
  have isBinade : binade = 4503599627370496 := rfl
  unfold slack
  split
  · rename_i narrow
    rw [narrow.1, isBinade] at enough
    omega
  · have product : number.significand * step ≤ 9007199254740991 * step :=
      Nat.mul_le_mul_right _ (by omega)
    rw [Nat.mul_assoc] at enough
    omega

theorem two_pow_mul_le (exponent more : Nat) :
    2 ^ (3 * exponent) * 10 ^ more ≤ 10 ^ (exponent + more) := by
  rw [Nat.pow_mul, Nat.pow_add]
  exact Nat.mul_le_mul_right _ (Nat.pow_le_pow_left (by decide) exponent)

theorem unitsPerOne_mul_le {more : Nat} (large : 358 + more ≤ exponent) :
    unitsPerOne * 10 ^ more ≤ 10 ^ exponent := by
  have isTriple : 3 * 358 = 1074 := by decide
  have bound := two_pow_mul_le 358 more
  rw [isTriple] at bound
  exact bound.trans (Nat.pow_le_pow_right (by decide) large)

theorem unitsPerOne_pos : 0 < unitsPerOne :=
  Nat.two_pow_pos 1074

theorem denominator_pos (number : Double) : 0 < (interval number).denominator :=
  Nat.mul_pos (by decide) unitsPerOne_pos

theorem length_whole (nonzero : number.magnitude ≠ 0) :
    17 < (Nat.toDigits 10 ((interval number).value / (interval number).denominator)).length := by
  have units : unitsPerOne * 10 ^ 17 ≤ 10 ^ scale := unitsPerOne_mul_le (by decide)
  have large : 4 * 10 ^ scale ≤ (interval number).value := by
    rw [value_interval, Nat.mul_assoc]
    refine Nat.mul_le_mul_left 4 ?_
    calc 10 ^ scale = 1 * (10 ^ scale * 1) := by ring
      _ ≤ number.significand * (10 ^ scale * 2 ^ number.shift) :=
          Nat.mul_le_mul (significand_pos nonzero)
            (Nat.mul_le_mul_left _ (Nat.two_pow_pos _))
  by_contra short
  have small := (Nat.length_toDigits_le_iff (by decide) (by decide)).mp (Nat.le_of_not_lt short)
  have below : (interval number).value < 10 ^ 17 * (4 * unitsPerOne) :=
    (Nat.div_lt_iff_lt_mul (denominator_pos number)).mp small
  omega

theorem contains_decimal (nonzero : number.magnitude ≠ 0) :
    (interval number).Contains (decimal number).digits (decimal number).power := by
  have long := length_whole nonzero
  unfold decimal
  dsimp only
  generalize isLength :
    (Nat.toDigits 10 ((interval number).value / (interval number).denominator)).length = length
  have wide : 0 < (interval number).above := by
    rw [above_interval]
    exact Nat.mul_pos (by decide) (Nat.mul_pos (Nat.pow_pos (by decide)) (Nat.two_pow_pos _))
  have enough : 10 ^ 16 * (interval number).cell (length - 17) ≤ (interval number).value := by
    have reached : 10 ^ (length - 1) ≤ (interval number).value / (interval number).denominator := by
      by_contra small
      have short := (Nat.length_toDigits_le_iff (by decide) (by omega)).mpr (Nat.lt_of_not_le small)
      omega
    calc 10 ^ 16 * (interval number).cell (length - 17)
        = 10 ^ (16 + (length - 17)) * (interval number).denominator := by
          rw [Interval.cell]
          ring
      _ ≤ (interval number).value := by
          rw [show 16 + (length - 17) = length - 1 by omega]
          exact (Nat.le_div_iff_mul_le (denominator_pos number)).mp reached
  cases found : List.findSome? (interval number).gridPoint?
      ((List.range maxDigits).map fun extra => length - (extra + 1)) with
  | none =>
    have isNone := List.findSome?_eq_none_iff.mp found (length - 17)
      (List.mem_map.mpr ⟨16, by decide, rfl⟩)
    exact absurd isNone (Interval.gridPoint?_ne_none (denominator_pos number) (fine_grid enough))
  | some point =>
    obtain ⟨power, _, isPoint⟩ := List.exists_of_findSome?_eq_some found
    exact Interval.contains_of_gridPoint? (denominator_pos number) wide isPoint

theorem numeral_eq (digits : List Char) : Decimal.numeral digits = Nat.ofDigitChars 10 digits 0 :=
  Nat.ofDigitChars_eq_foldl.symm

theorem numeral_toDigits (value : Nat) : Decimal.numeral (Nat.toDigits 10 value) = value :=
  (numeral_eq _).trans Nat.ofDigitChars_ten_toDigits

theorem numeral_append (first second : List Char) :
    Decimal.numeral (first ++ second) =
      10 ^ second.length * Decimal.numeral first + Decimal.numeral second := by
  rw [numeral_eq, numeral_eq, numeral_eq, Nat.ofDigitChars_append,
    Nat.ofDigitChars_eq_ofDigitChars_zero]

theorem numeral_replicate_zero (count : Nat) : Decimal.numeral (List.replicate count '0') = 0 := by
  induction count with
  | zero => rfl
  | succ count ih =>
    have first : Decimal.numeral ['0'] = 0 := rfl
    rw [List.replicate_succ, ← List.singleton_append, numeral_append, ih]
    rfl

theorem isDigit_of_mem_toDigits (member : digit ∈ Nat.toDigits 10 value) :
    Decimal.isDigit digit = true := by
  have isDigit := Nat.isDigit_of_mem_toDigits (by decide) (by decide) member
  simp only [Char.isDigit, Bool.and_eq_true, decide_eq_true_eq] at isDigit
  exact decide_eq_true isDigit

theorem isDigit_of_mem_zeros {count : Nat} (member : digit ∈ List.replicate count '0') :
    Decimal.isDigit digit = true := by
  rw [List.eq_of_mem_replicate member]
  decide

theorem head?_toDigits (positive : 0 < value) : (Nat.toDigits 10 value).head? ≠ some '0' := by
  induction value using Nat.strongRecOn with
  | ind value ih =>
    rw [Nat.toDigits_eq_if (by decide)]
    split
    · rename_i small
      have all : ∀ digit < 10, 0 < digit → Nat.digitChar digit ≠ '0' := by decide
      simpa using all value small positive
    · obtain ⟨first, later, split⟩ := List.exists_cons_of_ne_nil
        (Nat.toDigits_ne_nil : Nat.toDigits 10 (value / 10) ≠ [])
      have notZero := ih (value / 10) (by omega) (by omega)
      rw [split] at notZero ⊢
      exact notZero

structure Writes (whole fraction : List Char) (point : GridPoint) : Prop where
  nonempty : whole ≠ []
  wholeDigits : ∀ digit ∈ whole, Decimal.isDigit digit = true
  fractionDigits : ∀ digit ∈ fraction, Decimal.isDigit digit = true
  noZero : whole.head? = some '0' → whole.length = 1
  value :
    Decimal.numeral (whole ++ fraction) * 10 ^ scale =
      point.digits * 10 ^ point.power * 10 ^ fraction.length

theorem exists_zeros (digits : List Char) :
    ∃ count,
      digits =
        (digits.reverse.dropWhile fun digit => digit = '0').reverse ++
          List.replicate count '0' := by
  have zeros : digits.reverse.takeWhile (fun digit => digit = '0') =
      List.replicate (digits.reverse.takeWhile fun digit => digit = '0').length '0' := by
    refine List.eq_replicate_of_mem fun digit member => ?_
    simpa using List.mem_takeWhile_imp member
  refine ⟨(digits.reverse.takeWhile fun digit => digit = '0').length, ?_⟩
  have whole := congrArg List.reverse
    (List.takeWhile_append_dropWhile (p := fun digit => digit = '0') (l := digits.reverse))
  rw [List.reverse_append, List.reverse_reverse, zeros, List.reverse_replicate] at whole
  exact whole.symm

theorem head?_append_toDigits (positive : 0 < value) (later : List Char) :
    (Nat.toDigits 10 value ++ later).head? ≠ some '0' := by
  have notZero := head?_toDigits positive
  obtain ⟨first, others, split⟩ := List.exists_cons_of_ne_nil
    (Nat.toDigits_ne_nil : Nat.toDigits 10 value ≠ [])
  rw [split] at notZero ⊢
  exact notZero

theorem writes_whole (positive : 0 < point.digits) (large : scale ≤ point.power) :
    Writes (Nat.toDigits 10 point.digits ++ List.replicate (point.power - scale) '0') [] point := by
  constructor
  · exact List.append_ne_nil_of_left_ne_nil Nat.toDigits_ne_nil _
  · intro digit member
    rcases List.mem_append.mp member with inDigits | inZeros
    · exact isDigit_of_mem_toDigits inDigits
    · exact isDigit_of_mem_zeros inZeros
  · exact List.forall_mem_nil _
  · intro isZero
    exact absurd isZero (head?_append_toDigits positive _)
  · have isPower : 10 ^ point.power = 10 ^ (point.power - scale) * 10 ^ scale := by
      rw [← Nat.pow_add, Nat.sub_add_cancel large]
    rw [List.append_nil, numeral_append, numeral_toDigits, numeral_replicate_zero,
      List.length_replicate, isPower]
    simp only [List.length_nil]
    ring

theorem isDigit_of_mem_paddedDigits (member : digit ∈ paddedDigits width value) :
    Decimal.isDigit digit = true := by
  rcases List.mem_append.mp member with inZeros | inDigits
  · exact isDigit_of_mem_zeros inZeros
  · exact isDigit_of_mem_toDigits inDigits

theorem numeral_paddedDigits (width value : Nat) :
    Decimal.numeral (paddedDigits width value) = value := by
  unfold paddedDigits
  rw [numeral_append, numeral_replicate_zero, numeral_toDigits, Nat.mul_zero, Nat.zero_add]

theorem le_length_paddedDigits (width value : Nat) : width ≤ (paddedDigits width value).length := by
  unfold paddedDigits
  rw [List.length_append, List.length_replicate]
  omega

theorem head?_paddedDigits (positive : 0 < value)
    (longer : width < (paddedDigits width value).length) :
    (paddedDigits width value).head? ≠ some '0' := by
  unfold paddedDigits at longer ⊢
  dsimp only at longer ⊢
  rw [List.length_append, List.length_replicate] at longer
  rw [show width - (Nat.toDigits 10 value).length = 0 by omega]
  exact head?_toDigits positive

theorem writes_fraction (zeros : Nat) (positive : 0 < point.digits)
    (places : (fraction ++ List.replicate zeros '0').length = scale - point.power)
    (small : point.power < scale)
    (split :
      whole ++ (fraction ++ List.replicate zeros '0') =
        paddedDigits (scale - point.power + 1) point.digits) : Writes whole fraction point := by
  have long := le_length_paddedDigits (scale - point.power + 1) point.digits
  have length := congrArg List.length split
  rw [List.length_append] at length
  have nonempty : whole ≠ [] := by
    rintro rfl
    simp only [List.length_nil] at length
    omega
  have areDigits : ∀ digit ∈ whole ++ (fraction ++ List.replicate zeros '0'),
      Decimal.isDigit digit = true := by
    rw [split]
    exact fun digit => isDigit_of_mem_paddedDigits
  refine ⟨nonempty, fun digit member => areDigits digit (by simp [member]),
    fun digit member => areDigits digit (by simp [member]), ?_, ?_⟩
  · intro isZero
    by_contra notOne
    have longer : scale - point.power + 1 <
        (paddedDigits (scale - point.power + 1) point.digits).length := by
      omega
    obtain ⟨first, later, rfl⟩ := List.exists_cons_of_ne_nil nonempty
    exact head?_paddedDigits positive longer (split ▸ isZero)
  · rw [List.length_append, List.length_replicate] at places
    have numeral : point.digits =
        10 ^ zeros * Decimal.numeral (whole ++ fraction) := by
      rw [← numeral_paddedDigits (scale - point.power + 1) point.digits, ← split,
        ← List.append_assoc, numeral_append, numeral_replicate_zero, List.length_replicate,
        Nat.add_zero]
    have power : 10 ^ scale = 10 ^ zeros * 10 ^ point.power * 10 ^ fraction.length := by
      rw [← Nat.pow_add, ← Nat.pow_add]
      exact congrArg (10 ^ ·) (by omega)
    rw [power, numeral]
    ring

theorem positional_writes (positive : 0 < point.digits) :
    ∃ whole fraction,
      positional point = whole ++ (if fraction.isEmpty then [] else '.' :: fraction) ∧
        Writes whole fraction point := by
  unfold positional
  split
  · rename_i large
    exact ⟨_, [], by simp, writes_whole positive large⟩
  · rename_i small
    dsimp only
    generalize isDigits : paddedDigits (scale - point.power + 1) point.digits = digits
    have long := le_length_paddedDigits (scale - point.power + 1) point.digits
    rw [isDigits] at long
    obtain ⟨zeros, isSplit⟩ := exists_zeros (digits.drop (digits.length - (scale - point.power)))
    generalize List.reverse (List.dropWhile _ _) = fraction at isSplit ⊢
    refine ⟨digits.take (digits.length - (scale - point.power)), fraction, ?_,
      writes_fraction zeros positive ?_ (Nat.lt_of_not_le small) ?_⟩
    · split <;> simp
    · rw [← isSplit, List.length_drop]
      omega
    · rw [← isSplit, List.take_append_drop, isDigits]

theorem shift_le (finite : number.magnitude < infinityCode) : number.shift ≤ 2045 := by
  have below : number.magnitude / binade < 0x7ff := (Nat.div_lt_iff_lt_mul (by decide)).mpr finite
  unfold shift
  omega

variable {numeral places : Nat}

theorem pow_places_le (rounds : number.Rounds (numeral * unitsPerOne) (10 ^ places))
    (nonzero : number.magnitude ≠ 0) : 10 ^ places ≤ 2 * (numeral * unitsPerOne) := by
  have slackLe : number.slack ≤ 2 := by
    unfold slack
    split <;> decide
  have lower := rounds.lower
  have step : 10 ^ places ≤ 10 ^ places * 2 ^ number.shift :=
    Nat.le_mul_of_pos_right _ (Nat.two_pow_pos _)
  have least : 1 * (10 ^ places * 2 ^ number.shift) ≤
      number.significand * (10 ^ places * 2 ^ number.shift) :=
    Nat.mul_le_mul_right _ (significand_pos nonzero)
  have most : number.slack * (10 ^ places * 2 ^ number.shift) ≤
      2 * (10 ^ places * 2 ^ number.shift) :=
    Nat.mul_le_mul_right _ slackLe
  rw [Nat.mul_assoc] at lower
  omega

theorem two_pow_le_units (small : exponent ≤ 2098) : 2 ^ exponent ≤ 10 ^ 342 * unitsPerOne := by
  calc 2 ^ exponent ≤ 2 ^ (3 * 342 + 1074) := Nat.pow_le_pow_right (by decide) (by omega)
    _ = 2 ^ (3 * 342) * unitsPerOne := Nat.pow_add 2 (3 * 342) 1074
    _ ≤ 10 ^ 342 * unitsPerOne := by
        have bound := two_pow_mul_le 342 0
        exact Nat.mul_le_mul_right _ (by simpa using bound)

theorem numeral_lt (rounds : number.Rounds (numeral * unitsPerOne) (10 ^ places))
    (finite : number.magnitude < infinityCode) : numeral < 10 ^ (400 + places) := by
  have upper := rounds.upper
  have above : (number.significand + 1) * (10 ^ places * 2 ^ number.shift) ≤
      2 * binade * (10 ^ places * 2 ^ number.shift) :=
    Nat.mul_le_mul_right _ number.significand_lt
  have scaled : 2 * binade * (10 ^ places * 2 ^ number.shift) ≤
      10 ^ 342 * 10 ^ places * unitsPerOne := by
    calc 2 * binade * (10 ^ places * 2 ^ number.shift)
        = 10 ^ places * 2 ^ (53 + number.shift) := by
          rw [Nat.pow_add, show 2 * binade = 2 ^ 53 from rfl]
          ring
      _ ≤ 10 ^ places * (10 ^ 342 * unitsPerOne) :=
          Nat.mul_le_mul_left _ (two_pow_le_units (by have := shift_le finite; omega))
      _ = 10 ^ 342 * 10 ^ places * unitsPerOne := by ring
  rw [Nat.add_mul, Nat.one_mul] at above
  rw [Nat.mul_assoc] at upper
  have product : numeral * unitsPerOne ≤ 10 ^ 342 * 10 ^ places * unitsPerOne := by omega
  have bound := Nat.le_of_mul_le_mul_right product unitsPerOne_pos
  rw [← Nat.pow_add] at bound
  exact Nat.lt_of_le_of_lt bound (Nat.pow_lt_pow_right (by decide) (by omega))

theorem toDouble_eq (rounds : number.Rounds (numeral * unitsPerOne) (10 ^ places))
    (nonzero : number.magnitude ≠ 0) (finite : number.magnitude < infinityCode) :
    Decimal.toDouble ⟨false, numeral, -places⟩ = .ofMagnitude false number.magnitude := by
  have lower := pow_places_le rounds nonzero
  have positive : numeral ≠ 0 := by
    rintro rfl
    have := Nat.pow_pos (n := places) (show 0 < 10 by decide)
    omega
  have notSmall : ¬ ((Nat.toDigits 10 numeral).length + 400 < places) := by
    intro small
    have below : numeral < 10 ^ (Nat.toDigits 10 numeral).length :=
      (Nat.length_toDigits_le_iff (by decide) Nat.length_toDigits_pos).mp (Nat.le_refl _)
    have scaled : unitsPerOne * 10 ^ ((Nat.toDigits 10 numeral).length + 1) ≤ 10 ^ places :=
      unitsPerOne_mul_le (by omega)
    have product : numeral * unitsPerOne <
        10 ^ (Nat.toDigits 10 numeral).length * unitsPerOne :=
      Nat.mul_lt_mul_of_pos_right below unitsPerOne_pos
    rw [Nat.pow_succ, ← Nat.mul_assoc, Nat.mul_comm unitsPerOne] at scaled
    omega
  have notLarge : (Nat.toDigits 10 numeral).length ≤ 400 + places :=
    (Nat.length_toDigits_le_iff (by decide) (by omega)).mpr (numeral_lt rounds finite)
  have isRounded : Double.rounded false (numeral * unitsPerOne) (10 ^ places) =
      .ofMagnitude false number.magnitude := by
    unfold Double.rounded
    rw [rounds.roundedCode_eq (Nat.pow_pos (by decide)) finite]
  unfold Decimal.toDouble
  dsimp only
  rw [if_neg (by omega), if_neg (by omega)]
  generalize unitsPerOne = units at isRounded
  cases places with
  | zero =>
    show Double.rounded false (numeral * Nat.pow 10 0 * units) 1 = _
    rw [Nat.mul_one]
    exact isRounded
  | succ places => exact isRounded

theorem digits_pos (nonzero : number.magnitude ≠ 0) : 0 < (decimal number).digits := by
  have lower := pow_places_le (contains_decimal nonzero).rounds nonzero
  have positive : 0 < 10 ^ scale := Nat.pow_pos (by decide)
  refine Nat.pos_of_ne_zero fun isZero => ?_
  rw [isZero] at lower
  omega

theorem Writes.toDouble_eq (writes : Writes whole fraction (decimal number))
    (nonzero : number.magnitude ≠ 0) (finite : number.magnitude < infinityCode) :
    Decimal.toDouble ⟨false, Decimal.numeral (whole ++ fraction), -fraction.length⟩ =
      .ofMagnitude false number.magnitude := by
  refine Shortest.toDouble_eq ?_ nonzero finite
  refine (contains_decimal nonzero).rounds.of_proportional (Nat.pow_pos (by decide))
    (Nat.pow_pos (by decide)) ?_
  rw [Nat.mul_right_comm, writes.value]
  ring

end Shortest

end Toolshed
