import Mathlib.Algebra.Order.Field.Rat
import Mathlib.Data.Int.Log
import Mathlib.Data.Rat.Floor
import Mathlib.Tactic.FieldSimp
import Mathlib.Tactic.Linarith
import Mathlib.Tactic.NormNum

/-!
# Binary floating point

The numbers of a binary format are the multiples of a power of two, the unit in the last
place, that depends on the magnitude.  A value rounds to the nearest of them, and to the
one with the even significand when two are equally near.
-/

namespace BinaryFloat

/-- A binary format: the bits of a significand, the exponent of the smallest positive
number and the exponent from which a number is too large. -/
structure BinaryFormat where
  precision : Nat
  smallest : Int
  overflow : Nat
  precise : 2 ≤ precision
  fine : smallest ≤ 0

/-- The format of 64 bits. -/
def binary64 : BinaryFormat where
  precision := 53
  smallest := -1074
  overflow := 1024
  precise := by decide
  fine := by decide

/-- The nearest integer, the even one of two. -/
def nearestEven (value : Rat) : Int :=
  if value - ⌊value⌋ < 1 / 2 ∨ value - ⌊value⌋ = 1 / 2 ∧ ⌊value⌋ % 2 = 0 then
    ⌊value⌋
  else
    ⌊value⌋ + 1

@[simp] theorem nearestEven_intCast (value : Int) : nearestEven value = value := by
  simp [nearestEven]

/-- Half way above an even integer. -/
theorem nearestEven_half (value : Int) : nearestEven (2 * value + 1 / 2 : Rat) = 2 * value := by
  have below : ⌊(2 * value + 1 / 2 : Rat)⌋ = 2 * value := by
    rw [Int.floor_eq_iff]
    push_cast
    constructor <;> linarith
  rw [nearestEven, below, if_pos]
  refine .inr ⟨?_, by omega⟩
  push_cast
  ring

namespace BinaryFormat

/-- The exponent of the unit in the last place. -/
def unitExponent (format : BinaryFormat) (value : Rat) : Int :=
  max format.smallest (Int.log 2 |value| - (format.precision - 1))

/-- The number nearest to a value, when there is no largest number. -/
def nearest (format : BinaryFormat) (value : Rat) : Rat :=
  nearestEven (value / 2 ^ format.unitExponent value) * 2 ^ format.unitExponent value

/-- A value has no finite number near it. -/
def Overflows (format : BinaryFormat) (value : Rat) : Prop :=
  2 ^ format.overflow ≤ |format.nearest value|

instance (format : BinaryFormat) : DecidablePred format.Overflows :=
  fun value => inferInstanceAs (Decidable (2 ^ format.overflow ≤ |format.nearest value|))

variable {format : BinaryFormat}

/-- A multiple of its unit is a number. -/
theorem nearest_of_multiple {value : Rat} (significand : Int)
    (multiple : value = significand * 2 ^ format.unitExponent value) :
    format.nearest value = value := by
  have quotient : value / 2 ^ format.unitExponent value = significand :=
    (div_eq_iff (zpow_ne_zero _ two_ne_zero)).mpr multiple
  rw [nearest, quotient, nearestEven_intCast, ← multiple]

/-- Integers whose bits fit in a significand. -/
theorem nearest_natCast {value : Nat} (fits : value < 2 ^ format.precision) :
    format.nearest value = value := by
  have precise := format.precise
  have bits := Nat.log_lt_of_lt_pow' (by omega) fits
  have exponent : format.unitExponent value ≤ 0 := by
    rw [unitExponent, Nat.abs_cast, Int.log_natCast]
    exact max_le format.fine (by omega)
  obtain ⟨shift, shift_eq⟩ := Int.exists_eq_neg_ofNat exponent
  refine nearest_of_multiple (value * 2 ^ shift) ?_
  rw [shift_eq]
  push_cast
  rw [zpow_neg, zpow_natCast, mul_assoc, mul_inv_cancel₀ (by positivity), mul_one]

theorem unitExponent_of_log {value : Nat} (log : Nat.log 2 value = format.precision) :
    format.unitExponent value = 1 := by
  have fine := format.fine
  rw [unitExponent, Nat.abs_cast, Int.log_natCast, log, max_eq_right (by omega)]
  omega

/-- The first power of two whose bits do not fit. -/
theorem nearest_two_pow :
    format.nearest (2 ^ format.precision : Nat) = (2 ^ format.precision : Nat) := by
  have precise := format.precise
  have exponent := unitExponent_of_log (Nat.log_pow one_lt_two format.precision)
  obtain ⟨rest, rest_eq⟩ := Nat.exists_eq_add_of_le precise
  refine nearest_of_multiple (2 * 2 ^ rest) ?_
  rw [exponent, rest_eq]
  push_cast
  ring

/-- The integer after it lies half way between two numbers and rounds down. -/
theorem nearest_two_pow_succ :
    format.nearest (2 ^ format.precision + 1 : Nat) = (2 ^ format.precision : Nat) := by
  have precise := format.precise
  have log : Nat.log 2 (2 ^ format.precision + 1) = format.precision := by
    have large := Nat.one_lt_two_pow (show format.precision ≠ 0 by omega)
    refine Nat.log_eq_of_pow_le_of_lt_pow (by omega) ?_
    rw [pow_succ]
    omega
  obtain ⟨rest, rest_eq⟩ := Nat.exists_eq_add_of_le precise
  have half : ((2 ^ format.precision + 1 : Nat) : Rat) / 2 ^ (1 : Int) =
      2 * ((2 ^ rest : Int) : Rat) + 1 / 2 := by
    rw [rest_eq, zpow_one, pow_add]
    push_cast
    ring
  rw [nearest, unitExponent_of_log log, half, nearestEven_half, rest_eq]
  push_cast
  ring

end BinaryFormat

end BinaryFloat
