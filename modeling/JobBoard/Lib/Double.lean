import Mathlib.Data.Nat.Log
import Mathlib.Algebra.Group.Nat.Defs

/-!
# Whole numbers in double precision

The double that is nearest to a whole number, ties to the even one: a sum or a product of two
doubles, where it is whole. Up to `2 ^ 53` it is the number itself.
-/

set_option autoImplicit false

namespace Double

/-- The distance between the doubles from `n` on. -/
def unit (n : Nat) : Nat := 2 ^ (Nat.log2 n - 52)

def roundNat (n : Nat) : Nat :=
  if 2 * (n % unit n) < unit n ∨ (2 * (n % unit n) = unit n ∧ n / unit n % 2 = 0) then
    n / unit n * unit n
  else (n / unit n + 1) * unit n

def round : Int → Int
  | .ofNat n => roundNat n
  | .negSucc n => -roundNat (n + 1)

theorem unit_pos (n : Nat) : 0 < unit n := Nat.two_pow_pos _

theorem roundNat_le_half (n : Nat) : 2 * roundNat n ≤ 2 * n + unit n := by
  have hsplit := Nat.div_add_mod' n (unit n)
  have hpos := unit_pos n
  unfold roundNat
  split
  · omega
  · next h =>
    rw [Nat.add_mul, Nat.one_mul]
    omega

theorem roundNat_exact {n : Nat} (h : n < 2 ^ 53) : roundNat n = n := by
  have hunit : unit n = 1 := by
    have hlog : Nat.log2 n ≤ 52 := by
      rcases Nat.eq_zero_or_pos n with rfl | hn
      · decide
      · exact Nat.le_of_lt_succ ((Nat.log2_lt hn.ne').2 h)
    rw [unit, Nat.sub_eq_zero_of_le hlog, Nat.pow_zero]
  unfold roundNat
  rw [hunit, Nat.mod_one, if_pos (.inl (by omega)), Nat.div_one, Nat.mul_one]

/-- The relative error. -/
theorem roundNat_le (n : Nat) : 2 ^ 53 * roundNat n ≤ 2 ^ 53 * n + n := by
  by_cases h : n < 2 ^ 53
  · rw [roundNat_exact h]
    omega
  · have hn : n ≠ 0 := by
      rintro rfl
      exact h (by decide)
    have hlog : 53 ≤ Nat.log2 n := (Nat.le_log2 hn).2 (not_lt.1 h)
    have hunit : 2 ^ 52 * unit n ≤ n := by
      rw [unit, ← Nat.pow_add, Nat.add_sub_cancel' (Nat.le_of_succ_le hlog)]
      exact Nat.log2_self_le hn
    have hhalf := roundNat_le_half n
    omega

/-- A product with a fraction of 32 bits below 1 stays below the other factor. -/
theorem roundNat_mul_lt {u m : Nat} (hu : u < 2 ^ 32) (hm : 0 < m) :
    roundNat (u * m) < 2 ^ 32 * m := by
  have hle := roundNat_le (u * m)
  have hmul : u * m ≤ (2 ^ 32 - 1) * m := Nat.mul_le_mul_right m (by omega)
  omega

end Double
