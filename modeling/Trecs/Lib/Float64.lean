import Mathlib.Data.Int.Log
import Mathlib.Data.Rat.Floor
import Mathlib.Tactic.Linarith
import Mathlib.Tactic.Positivity

/-!
# Double Precision

A finite `float64` is a rational number, and an operation gives the exact result
rounded to 53 significant bits, to the even one of two neighbours that are
equally near. The range of the exponent is left out. Numbers that come from
seconds and nanoseconds are far from both of its ends.

## Main definitions

* `roundEven`: The nearest integer.
* `float64`: The nearest number with 53 significant bits.
* `truncate`: The integer part, as a conversion to an integer takes it.

## Theorems

* `abs_float64_sub_le`: The relative error of a rounding.
-/

namespace Trecs

/-- The nearest integer, and the even one of two that are equally near. -/
def roundEven (x : ℚ) : ℤ :=
  if x - ⌊x⌋ < 1 / 2 ∨ x - ⌊x⌋ = 1 / 2 ∧ ⌊x⌋ % 2 = 0 then ⌊x⌋ else ⌊x⌋ + 1

theorem abs_roundEven_sub_le (x : ℚ) : |roundEven x - x| ≤ 1 / 2 := by
  have hle := Int.floor_le x
  have hlt := Int.lt_floor_add_one x
  unfold roundEven
  split
  · rename_i hdown
    rw [abs_le]
    rcases hdown with hless | ⟨htie, _⟩
    · constructor <;> linarith
    · constructor <;> linarith
  · rename_i hup
    have hhalf : 1 / 2 ≤ x - ⌊x⌋ := not_lt.mp (fun hless => hup (Or.inl hless))
    rw [abs_le]
    push_cast
    constructor <;> linarith

/-- The distance between neighbours with 53 significant bits. -/
def spacing (x : ℚ) : ℚ := 2 ^ (Int.log 2 |x| - 52)

/-- The nearest number with 53 significant bits. -/
def float64 (x : ℚ) : ℚ := roundEven (x / spacing x) * spacing x

theorem abs_float64_sub_le (x : ℚ) : |float64 x - x| ≤ |x| / 2 ^ 53 := by
  have hpos : 0 < spacing x := zpow_pos two_pos _
  by_cases hx : x = 0
  · rw [hx]
    decide +kernel
  · have hspacing : spacing x ≤ |x| / 2 ^ 52 := by
      rw [spacing, zpow_sub₀ two_ne_zero]
      have hlog := Int.zpow_log_le_self Nat.one_lt_two (abs_pos.mpr hx)
      push_cast at hlog
      gcongr
      norm_num
    have hscale : float64 x - x = (roundEven (x / spacing x) - x / spacing x) * spacing x := by
      rw [float64, sub_mul, div_mul_cancel₀ _ hpos.ne']
    rw [hscale, abs_mul, abs_of_pos hpos]
    calc |(roundEven (x / spacing x) : ℚ) - x / spacing x| * spacing x
        ≤ 1 / 2 * (|x| / 2 ^ 52) := by
          gcongr
          exact abs_roundEven_sub_le _
      _ = |x| / 2 ^ 53 := by ring

/-- A nanosecond is lost beside 194 days of seconds. -/
example : float64 (16777216 + 1 / 1000000000) = 16777216 := by decide +kernel

/-- The integer part, towards zero. -/
def truncate (x : ℚ) : ℤ := x.num.tdiv x.den

theorem truncate_eq_floor (x : ℚ) (hx : 0 ≤ x) : truncate x = ⌊x⌋ := by
  rw [truncate, Rat.floor_def', Int.tdiv_eq_ediv_of_nonneg (Rat.num_nonneg.mpr hx)]

end Trecs
