import Mathlib.Data.Rat.Floor
import JobBoard.Model.Pricing

/-!
# Rounding

`mathRound n d` is the quotient of two integers rounded to the nearest integer, halves up:
Mathlib's `round` of the rational number.
-/

set_option autoImplicit false

namespace JobBoard

section

variable {n m d k : Int}

theorem mathRound_eq_round (n : Int) (hd : 0 < d) : mathRound n d = round ((n : Rat) / d) := by
  obtain ⟨e, rfl⟩ := Int.eq_ofNat_of_zero_le (Int.le_of_lt hd)
  have he : (e : Rat) ≠ 0 := by
    have : e ≠ 0 := by omega
    exact_mod_cast this
  have hfloor := Rat.floor_intCast_div_natCast (2 * n + e) (2 * e)
  rw [round_eq, mathRound]
  push_cast at hfloor ⊢
  rw [← hfloor]
  congr 1
  field_simp

/-- The rounded quotient is the integer `k` when it is at most a half below and less than a half
above `k`. -/
theorem mathRound_iff (hd : 0 < d) :
    mathRound n d = k ↔ 2 * d * k ≤ 2 * n + d ∧ 2 * n + d < 2 * d * (k + 1) := by
  have hpos : 0 < 2 * d := by omega
  unfold mathRound
  rw [le_antisymm_iff, ← Int.lt_add_one_iff, Int.ediv_lt_iff_lt_mul hpos,
    Int.le_ediv_iff_mul_le hpos, Int.mul_comm k, Int.mul_comm (k + 1), and_comm]

theorem mathRound_mono (hd : 0 < d) (h : n ≤ m) : mathRound n d ≤ mathRound m d :=
  Int.ediv_le_ediv (by omega) (by omega)

theorem mathRound_mul (hd : 0 < d) : mathRound (d * k) d = k := by
  rw [mathRound_iff hd, Int.mul_add]
  constructor
  · linarith
  · linarith

theorem mathRound_nonneg (hd : 0 < d) (h : 0 ≤ n) : 0 ≤ mathRound n d :=
  Int.ediv_nonneg (by omega) (by omega)

theorem mathRound_le_iff (hd : 0 < d) : mathRound n d ≤ k ↔ 2 * n + d < 2 * d * (k + 1) := by
  have hpos : 0 < 2 * d := by omega
  unfold mathRound
  rw [← Int.lt_add_one_iff, Int.ediv_lt_iff_lt_mul hpos, Int.mul_comm (k + 1)]

/-- A quotient of at most `k` is rounded to at most `k`. -/
theorem mathRound_le (hd : 0 < d) (h : n ≤ d * k) : mathRound n d ≤ k :=
  (mathRound_mono hd h).trans_eq (mathRound_mul hd)

/-- The rounding error. -/
theorem abs_mathRound_sub (n : Int) (hd : 0 < d) :
    |(mathRound n d : Rat) - (n : Rat) / d| ≤ 1 / 2 := by
  rw [mathRound_eq_round n hd, abs_sub_comm]
  exact abs_sub_round _

end

end JobBoard
