import FlowCache.Library.FloatOrder

/-!
# Rounding

Numbers computed by the program are those of binary floating point.  Where a result is
rounded, the model rounds it here; the rounding is monotone and leaves numbers alone.
-/

namespace FlowCache

open BinaryFloat

/-- The number a real result rounds to. -/
def float (value : Rat) : Rat := binary64.nearest value

theorem float_mono {first second : Rat} (nonneg : 0 ≤ first) (order : first ≤ second) :
    float first ≤ float second := BinaryFormat.nearest_mono nonneg order

theorem float_float {value : Rat} (nonneg : 0 ≤ value) : float (float value) = float value :=
  BinaryFormat.nearest_nearest nonneg

theorem float_nonneg {value : Rat} (nonneg : 0 ≤ value) : 0 ≤ float value :=
  binary64.nearest_nonneg nonneg

@[simp] theorem float_zero : float 0 = 0 := BinaryFormat.nearest_zero

@[simp] theorem float_one : float 1 = 1 := by
  have exact_one := @BinaryFormat.nearest_natCast binary64 1 (by decide)
  exact_mod_cast exact_one

/-- From `2 ^ 53` on, adding at most 1 changes nothing. -/
theorem float_le_two_pow {value : Rat} (nonneg : 0 ≤ value) (small : value ≤ 2 ^ 53 + 1) :
    float value ≤ 2 ^ 53 := by
  have rounded : float (2 ^ 53 + 1 : Nat) = (2 ^ 53 : Nat) :=
    @BinaryFormat.nearest_two_pow_succ binary64
  calc float value ≤ float (2 ^ 53 + 1 : Nat) :=
        float_mono nonneg (by exact_mod_cast small)
    _ = (2 ^ 53 : Nat) := rounded
    _ = 2 ^ 53 := by norm_num

end FlowCache
