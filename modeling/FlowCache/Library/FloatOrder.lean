import FlowCache.Library.BinaryFloat

/-!
# Rounding and order

Rounding to the nearest number keeps the order of values and leaves numbers as they are.
Values are not negative here.
-/

namespace BinaryFloat

/-! ## Integers -/

theorem floor_le_nearestEven (value : Rat) : ⌊value⌋ ≤ nearestEven value := by
  unfold nearestEven
  split <;> omega

theorem nearestEven_le_floor_succ (value : Rat) : nearestEven value ≤ ⌊value⌋ + 1 := by
  unfold nearestEven
  split <;> omega

theorem nearestEven_mono {first second : Rat} (order : first ≤ second) :
    nearestEven first ≤ nearestEven second := by
  rcases (Int.floor_le_floor order).lt_or_eq with below | same
  · calc nearestEven first ≤ ⌊first⌋ + 1 := nearestEven_le_floor_succ first
      _ ≤ ⌊second⌋ := below
      _ ≤ nearestEven second := floor_le_nearestEven second
  · by_cases down : second - ⌊second⌋ < 1 / 2 ∨ second - ⌊second⌋ = 1 / 2 ∧ ⌊second⌋ % 2 = 0
    · have firstDown : first - ⌊first⌋ < 1 / 2 ∨ first - ⌊first⌋ = 1 / 2 ∧ ⌊first⌋ % 2 = 0 := by
        rw [same]
        rcases order.lt_or_eq with less | equal
        · left
          rcases down with less' | ⟨half, -⟩ <;> linarith
        · rw [equal]
          exact down
      rw [nearestEven, nearestEven, if_pos down, if_pos firstDown, same]
    · rw [nearestEven.eq_def second, if_neg down, ← same]
      exact nearestEven_le_floor_succ first

theorem nearestEven_nonneg {value : Rat} (nonneg : 0 ≤ value) : 0 ≤ nearestEven value := by
  have mono := nearestEven_mono nonneg
  rwa [← Int.cast_zero, nearestEven_intCast] at mono

/-- What is closer to the integer below rounds below. -/
theorem nearestEven_lt {value : Rat} {bound : Int} (below : value < bound - 1 / 2) :
    nearestEven value < bound := by
  have floor : ⌊value⌋ < bound := by
    rw [Int.floor_lt]
    linarith
  rcases (show ⌊value⌋ + 1 ≤ bound from floor).lt_or_eq with less | same
  · exact (nearestEven_le_floor_succ value).trans_lt less
  · have close : value - ⌊value⌋ < 1 / 2 := by
      have cast : (⌊value⌋ : Rat) + 1 = bound := by exact_mod_cast same
      linarith
    rw [nearestEven, if_pos (.inl close)]
    exact floor

/-! ## Numbers of a format -/

namespace BinaryFormat

variable {format : BinaryFormat} {value : Rat}

/-- The unit in the last place. -/
def unit (format : BinaryFormat) (value : Rat) : Rat := 2 ^ format.unitExponent value

theorem unit_pos (format : BinaryFormat) (value : Rat) : 0 < format.unit value :=
  zpow_pos two_pos _

theorem nearest_eq (format : BinaryFormat) (value : Rat) :
    format.nearest value = nearestEven (value / format.unit value) * format.unit value := rfl

@[simp] theorem nearest_zero : format.nearest 0 = 0 := by
  have rounded := nearestEven_intCast 0
  rw [Int.cast_zero] at rounded
  rw [nearest_eq, zero_div, rounded, Int.cast_zero, zero_mul]

theorem nearest_nonneg (format : BinaryFormat) (nonneg : 0 ≤ value) :
    0 ≤ format.nearest value := by
  have quotient := nearestEven_nonneg (div_nonneg nonneg (format.unit_pos value).le)
  exact mul_nonneg (by exact_mod_cast quotient) (format.unit_pos value).le

/-- A multiple of the unit above a value is above what the value rounds to. -/
theorem nearest_le_of_multiple {significand : Int}
    (order : value ≤ significand * format.unit value) :
    format.nearest value ≤ significand * format.unit value := by
  have rounded := nearestEven_mono ((div_le_iff₀ (format.unit_pos value)).mpr order)
  rw [nearestEven_intCast] at rounded
  exact mul_le_mul_of_nonneg_right (by exact_mod_cast rounded) (format.unit_pos value).le

theorem le_nearest_of_multiple {significand : Int}
    (order : significand * format.unit value ≤ value) :
    significand * format.unit value ≤ format.nearest value := by
  have rounded := nearestEven_mono ((le_div_iff₀ (format.unit_pos value)).mpr order)
  rw [nearestEven_intCast] at rounded
  exact mul_le_mul_of_nonneg_right (by exact_mod_cast rounded) (format.unit_pos value).le

theorem smallest_le_unitExponent (format : BinaryFormat) (value : Rat) :
    format.smallest ≤ format.unitExponent value := le_max_left _ _

theorem log_le_of_unitExponent (format : BinaryFormat) (value : Rat) :
    Int.log 2 |value| ≤ format.unitExponent value + (format.precision - 1) := by
  have bound := le_max_right format.smallest (Int.log 2 |value| - (format.precision - 1))
  rw [← unitExponent] at bound
  omega

/-- Every power of two from the unit on is a multiple of the unit. -/
theorem two_zpow_eq_mul_unit (format : BinaryFormat) (value : Rat) {exponent : Int}
    (order : format.unitExponent value ≤ exponent) :
    (2 : Rat) ^ exponent =
      ((2 ^ (exponent - format.unitExponent value).toNat : Int) : Rat) * format.unit value := by
  have nonneg : 0 ≤ exponent - format.unitExponent value := by omega
  rw [unit, Int.cast_pow, Int.cast_ofNat, ← zpow_natCast, Int.toNat_of_nonneg nonneg,
    ← zpow_add₀ two_ne_zero]
  congr 1
  omega

theorem nearest_le_two_zpow {exponent : Int} (order : format.unitExponent value ≤ exponent)
    (below : value ≤ 2 ^ exponent) : format.nearest value ≤ 2 ^ exponent := by
  rw [format.two_zpow_eq_mul_unit value order] at below ⊢
  exact nearest_le_of_multiple below

theorem two_zpow_le_nearest {exponent : Int} (order : format.unitExponent value ≤ exponent)
    (above : 2 ^ exponent ≤ value) : 2 ^ exponent ≤ format.nearest value := by
  rw [format.two_zpow_eq_mul_unit value order] at above ⊢
  exact le_nearest_of_multiple above

/-- Rounding keeps the order. -/
theorem nearest_mono {first second : Rat} (nonneg : 0 ≤ first) (order : first ≤ second) :
    format.nearest first ≤ format.nearest second := by
  rcases nonneg.lt_or_eq with positive | zero
  swap
  · rw [← zero, nearest_zero]
    exact format.nearest_nonneg (zero ▸ order)
  have secondPositive := positive.trans_le order
  have logs := Int.log_mono_right (b := 2) positive order
  have precise := format.precise
  have exponents : format.unitExponent first ≤ format.unitExponent second := by
    rw [unitExponent, unitExponent, abs_of_pos positive, abs_of_pos secondPositive]
    omega
  rcases exponents.lt_or_eq with apart | same
  · -- a power of two lies between the two values, and both units divide it
    have smallest := format.smallest_le_unitExponent first
    have secondExponent : format.unitExponent second =
        max format.smallest (Int.log 2 second - (format.precision - 1)) := by
      rw [unitExponent, abs_of_pos secondPositive]
    have secondLog : format.unitExponent second =
        Int.log 2 second - (format.precision - 1) := by omega
    have firstLog := format.log_le_of_unitExponent first
    rw [abs_of_pos positive] at firstLog
    have between : first ≤ 2 ^ Int.log 2 second := by
      apply le_of_lt
      exact (Int.lt_zpow_iff_log_lt one_lt_two positive).mpr (by omega)
    have reached : (2 : Rat) ^ Int.log 2 second ≤ second :=
      Int.zpow_log_le_self one_lt_two secondPositive
    exact (nearest_le_two_zpow (by omega) between).trans (two_zpow_le_nearest (by omega) reached)
  · have units : format.unit first = format.unit second := by rw [unit, unit, same]
    have rounded := nearestEven_mono
      (div_le_div_of_nonneg_right order (format.unit_pos second).le)
    rw [nearest_eq, nearest_eq, units]
    exact mul_le_mul_of_nonneg_right (by exact_mod_cast rounded) (format.unit_pos second).le

/-- What a value rounds to is a number. -/
theorem nearest_nearest (nonneg : 0 ≤ value) :
    format.nearest (format.nearest value) = format.nearest value := by
  obtain ⟨significand, same⟩ : ∃ significand : Int,
      format.nearest value = significand * format.unit value := ⟨_, nearest_eq format value⟩
  rcases (format.nearest_nonneg nonneg).lt_or_eq with positive | zero
  swap
  · rw [← zero, nearest_zero]
  have logs := format.log_le_of_unitExponent value
  have precise := format.precise
  have smallest := format.smallest_le_unitExponent value
  have bounded : format.nearest value ≤ 2 ^ (format.unitExponent value + format.precision) := by
    apply nearest_le_two_zpow (by omega)
    have magnitude : |value| ≤ 2 ^ (Int.log 2 |value| + 1) :=
      (Int.lt_zpow_succ_log_self one_lt_two _).le
    exact (le_abs_self value).trans
      (magnitude.trans (zpow_le_zpow_right₀ one_le_two (by omega)))
  have exponent : format.unitExponent (format.nearest value) =
      max format.smallest (Int.log 2 (format.nearest value) - (format.precision - 1)) := by
    rw [unitExponent, abs_of_pos positive]
  rcases bounded.lt_or_eq with below | atPower
  · -- the unit of the rounded value divides the unit of the value
    have log := (Int.lt_zpow_iff_log_lt one_lt_two positive).mp below
    have divides : format.unitExponent (format.nearest value) ≤ format.unitExponent value := by
      rw [exponent]
      omega
    refine nearest_of_multiple (significand * 2 ^
      (format.unitExponent value - format.unitExponent (format.nearest value)).toNat) ?_
    have units := format.two_zpow_eq_mul_unit (format.nearest value) divides
    rw [Int.cast_mul, mul_assoc]
    exact same.trans (congrArg _ units)
  · have log : Int.log 2 (format.nearest value) =
        format.unitExponent value + format.precision := by
      rw [atPower]
      exact Int.log_zpow one_lt_two _
    have divides : format.unitExponent (format.nearest value) ≤
        format.unitExponent value + format.precision := by
      rw [exponent, log]
      omega
    exact nearest_of_multiple _ (atPower.trans (format.two_zpow_eq_mul_unit _ divides))

/-- A value below a power of two that the unit divides, with a whole unit between. -/
theorem nearest_lt_two_zpow {exponent : Int} (fine : format.smallest ≤ exponent - format.precision)
    (nonneg : 0 ≤ value)
    (below : value ≤ 2 ^ exponent - 2 ^ (exponent - format.precision)) :
    format.nearest value < 2 ^ exponent := by
  have gap : (0 : Rat) < 2 ^ (exponent - (format.precision : Int)) := zpow_pos two_pos _
  rcases nonneg.lt_or_eq with positive | zero
  swap
  · rw [← zero, nearest_zero]
    exact zpow_pos two_pos _
  have log := (Int.lt_zpow_iff_log_lt one_lt_two positive).mp
    (show value < ((2 : Nat) : Rat) ^ exponent by push_cast; linarith)
  have divides : format.unitExponent value ≤ exponent - format.precision := by
    rw [unitExponent, abs_of_pos positive]
    omega
  have precise := format.precise
  have large :=
    format.two_zpow_eq_mul_unit value (show format.unitExponent value ≤ exponent by omega)
  have small := format.two_zpow_eq_mul_unit value divides
  rw [large, small, ← sub_mul, ← Int.cast_sub] at below
  have rounded := nearest_le_of_multiple below
  rw [Int.cast_sub, sub_mul, ← large, ← small] at rounded
  linarith

/-- The product of a positive integer and a number that is at least one unit below 1 stays
below the integer. -/
theorem nearest_mul_natCast_lt {fraction : Rat} {count : Nat} (positive : 0 < count)
    (fits : count < 2 ^ format.precision) (fine : format.smallest ≤ -format.precision)
    (nonneg : 0 ≤ fraction) (below : fraction ≤ 1 - 1 / 2 ^ format.precision) :
    format.nearest (fraction * count) < count := by
  obtain ⟨exponent, low, high⟩ : ∃ exponent : Nat,
      2 ^ exponent ≤ count ∧ count < 2 ^ (exponent + 1) :=
    ⟨Nat.log 2 count, Nat.pow_log_le_self 2 positive.ne', Nat.lt_pow_succ_log_self one_lt_two _⟩
  have precise := format.precise
  have productNonneg : 0 ≤ fraction * count := mul_nonneg nonneg (Nat.cast_nonneg count)
  have lowCast : (2 : Rat) ^ (exponent : Int) ≤ count := by
    rw [zpow_natCast]
    exact_mod_cast low
  have productBound : fraction * count ≤ count - count / 2 ^ format.precision := by
    calc fraction * count ≤ (1 - 1 / 2 ^ format.precision) * count :=
          mul_le_mul_of_nonneg_right below (Nat.cast_nonneg count)
      _ = count - count / 2 ^ format.precision := by ring
  rcases low.lt_or_eq with above | atPower
  · rcases lt_or_ge (fraction * count) (2 ^ (exponent : Int)) with small | reached
    · have aboveCast : (2 : Rat) ^ (exponent : Int) < count := by
        rw [zpow_natCast]
        exact_mod_cast above
      rcases productNonneg.lt_or_eq with valuePositive | zero
      swap
      · rw [← zero, nearest_zero]
        exact_mod_cast positive
      have log : Int.log 2 (fraction * count) < exponent :=
        (Int.lt_zpow_iff_log_lt one_lt_two valuePositive).mp small
      refine (nearest_le_two_zpow ?_ small.le).trans_lt aboveCast
      rw [unitExponent, abs_of_pos valuePositive]
      omega
    · have valuePositive : 0 < fraction * count :=
        (zpow_pos two_pos (exponent : Int)).trans_le reached
      have log : Int.log 2 (fraction * count) = exponent := by
        apply le_antisymm
        · apply Int.lt_add_one_iff.mp
          apply (Int.lt_zpow_iff_log_lt one_lt_two valuePositive).mp
          have highCast : (count : Rat) < 2 ^ (exponent + 1) := by exact_mod_cast high
          have loss : (0 : Rat) ≤ count / 2 ^ format.precision := by positivity
          have cast : (((2 : Nat) : Rat)) ^ ((exponent : Int) + 1) = 2 ^ (exponent + 1) := by
            rw [← zpow_natCast]
            norm_num
          rw [cast]
          linarith
        · exact (Int.zpow_le_iff_le_log one_lt_two valuePositive).mp (by simpa using reached)
      have small : exponent < format.precision := by
        by_contra large
        exact absurd (low.trans_lt fits) (not_lt.mpr (Nat.pow_le_pow_right two_pos (by omega)))
      have unitExponent_eq : format.unitExponent (fraction * count) =
          exponent - (format.precision - 1) := by
        rw [unitExponent, abs_of_pos valuePositive, log]
        omega
      obtain ⟨rest, rest_eq⟩ := Nat.exists_eq_add_of_lt small
      have unit_eq : format.unit (fraction * count) = 1 / 2 ^ rest := by
        rw [unit, unitExponent_eq, one_div, ← zpow_natCast, ← zpow_neg]
        congr 1
        omega
      have multiple : (count : Rat) =
          ((count * 2 ^ rest : Int) : Rat) * format.unit (fraction * count) := by
        rw [unit_eq]
        push_cast
        field_simp
      have half : format.unit (fraction * count) / 2 < count / 2 ^ format.precision := by
        have aboveCast : (2 : Rat) ^ exponent < count := by exact_mod_cast above
        rw [unit_eq, rest_eq, pow_succ, pow_add]
        rw [lt_div_iff₀ (by positivity)]
        calc 1 / (2 : Rat) ^ rest / 2 * (2 ^ exponent * 2 ^ rest * 2) = 2 ^ exponent := by
              field_simp
          _ < count := aboveCast
      have quotient : fraction * count / format.unit (fraction * count) <
          ((count * 2 ^ rest : Int) : Rat) - 1 / 2 := by
        rw [div_lt_iff₀ (format.unit_pos _), sub_mul, ← multiple]
        linarith
      have rounded : (nearestEven (fraction * count / format.unit (fraction * count)) : Rat) <
          ((count * 2 ^ rest : Int) : Rat) := by exact_mod_cast nearestEven_lt quotient
      rw [nearest_eq]
      exact (mul_lt_mul_of_pos_right rounded (format.unit_pos _)).trans_eq multiple.symm
  · have count_eq : (count : Rat) = 2 ^ (exponent : Int) := by
      rw [zpow_natCast]
      exact_mod_cast atPower.symm
    rw [count_eq] at productBound ⊢
    apply nearest_lt_two_zpow (by omega) (count_eq ▸ productNonneg)
    rw [zpow_sub₀ two_ne_zero, zpow_natCast 2 format.precision]
    exact productBound

end BinaryFormat

end BinaryFloat
