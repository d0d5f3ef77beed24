import JobBoard.Model.Rounding

/-!
# The VAT of an invoice

`computeVat` adds the VAT to an amount, and `computeVatFromTtc` takes it out of one. Each rounds
once, in opposite directions: the first undoes the second except where the amount is 3 modulo 6,
and the second always undoes the first.
-/

set_option autoImplicit false

namespace JobBoard

section

variable (h t : Int)

theorem vatAmount_eq : (computeVat h).vatAmount = (2 * h + 5) / 10 := by
  show (2 * (h * 20) + 100) / (2 * 100) = (2 * h + 5) / 10
  omega

theorem amountHT_eq : (computeVatFromTtc t).amountHT = (5 * t + 3) / 6 := by
  show (2 * (t * 100) + (100 + 20)) / (2 * (100 + 20)) = (5 * t + 3) / 6
  omega

theorem amountTTC_eq : (computeVat h).amountTTC = h + (computeVat h).vatAmount := rfl

theorem computeVatFromTtc_vatAmount :
    (computeVatFromTtc t).vatAmount = t - (computeVatFromTtc t).amountHT := rfl

theorem computeVat_sum :
    (computeVat h).amountHT + (computeVat h).vatAmount = (computeVat h).amountTTC := rfl

theorem computeVatFromTtc_sum :
    (computeVatFromTtc t).amountHT + (computeVatFromTtc t).vatAmount =
      (computeVatFromTtc t).amountTTC := by
  show (computeVatFromTtc t).amountHT + (t - (computeVatFromTtc t).amountHT) = t
  omega

theorem computeVat_error : |((computeVat h).vatAmount : Rat) - h / 5| ≤ 1 / 2 := by
  have hround := abs_mathRound_sub (h * VAT_RATE_PERCENT) (show (0 : Int) < 100 by decide)
  have hrate : ((h * VAT_RATE_PERCENT : Int) : Rat) / (100 : Int) = h / 5 := by
    simp only [VAT_RATE_PERCENT]
    push_cast
    ring
  rwa [hrate] at hround

theorem computeVatFromTtc_error : |((computeVatFromTtc t).amountHT : Rat) - t / 1.2| ≤ 1 / 2 := by
  have hround := abs_mathRound_sub (t * 100) (show (0 : Int) < 100 + VAT_RATE_PERCENT by decide)
  have hrate : ((t * 100 : Int) : Rat) / (100 + VAT_RATE_PERCENT : Int) = t / 1.2 := by
    simp only [VAT_RATE_PERCENT]
    push_cast
    ring
  rwa [hrate] at hround

/-- The VAT that was added is taken out again. -/
theorem computeVatFromTtc_computeVat :
    (computeVatFromTtc (computeVat h).amountTTC).amountHT = h := by
  rw [amountHT_eq, amountTTC_eq, vatAmount_eq]
  omega

/-- The VAT that was taken out is added again, except at the residue 3 modulo 6. -/
theorem computeVat_computeVatFromTtc :
    (computeVat (computeVatFromTtc t).amountHT).amountTTC = if t % 6 = 3 then t + 1 else t := by
  rw [amountTTC_eq, vatAmount_eq, amountHT_eq]
  have hres : t % 6 = 0 ∨ t % 6 = 1 ∨ t % 6 = 2 ∨ t % 6 = 3 ∨ t % 6 = 4 ∨ t % 6 = 5 := by omega
  split
  · omega
  · rcases hres with h | h | h | h | h | h <;> omega

/-! ## Amounts in centimes -/

/-- `v` is at most `v'` in each amount. -/
def VatBreakdown.le (v v' : VatBreakdown) : Prop :=
  v.amountHT ≤ v'.amountHT ∧ v.vatAmount ≤ v'.vatAmount ∧ v.amountTTC ≤ v'.amountTTC

theorem computeVat_mono {h h' : Int} (hle : h ≤ h') : (computeVat h).le (computeVat h') := by
  have hvat : (computeVat h).vatAmount ≤ (computeVat h').vatAmount := by
    rw [vatAmount_eq, vatAmount_eq]
    omega
  exact ⟨hle, hvat, Int.add_le_add hle hvat⟩

theorem computeVatFromTtc_mono {t t' : Int} (hle : t ≤ t') :
    (computeVatFromTtc t).le (computeVatFromTtc t') := by
  refine ⟨?_, ?_, hle⟩
  · rw [amountHT_eq, amountHT_eq]
    omega
  · rw [computeVatFromTtc_vatAmount, computeVatFromTtc_vatAmount, amountHT_eq, amountHT_eq]
    omega

/-- The rules of a breakdown of an amount whose VAT is not negative. -/
structure VatBreakdown.Sound (v : VatBreakdown) : Prop where
  sum : v.amountHT + v.vatAmount = v.amountTTC
  vat : 0 ≤ v.vatAmount

theorem computeVat_sound (h : Nat) : (computeVat h).Sound where
  sum := computeVat_sum h
  vat := by
    rw [vatAmount_eq]
    omega

theorem computeVatFromTtc_sound (t : Nat) : (computeVatFromTtc t).Sound where
  sum := computeVatFromTtc_sum t
  vat := by
    rw [computeVatFromTtc_vatAmount, amountHT_eq]
    omega

end

theorem vat_arithmetic :
    (∀ h : Nat, (computeVat h).Sound ∧ |((computeVat h).vatAmount : Rat) - h / 5| ≤ 1 / 2) ∧
    (∀ t : Nat, (computeVatFromTtc t).Sound ∧
      |((computeVatFromTtc t).amountHT : Rat) - t / 1.2| ≤ 1 / 2) ∧
    (∀ h : Nat, (computeVatFromTtc (computeVat h).amountTTC).amountHT = h) ∧
    (∀ t : Nat, (computeVat (computeVatFromTtc t).amountHT).amountTTC =
      if t % 6 = 3 then t + 1 else t) ∧
    (∀ a b : Nat, (computeVat a).le (computeVat (a + b))) ∧
    ∀ a b : Nat, (computeVatFromTtc a).le (computeVatFromTtc (a + b)) := by
  refine ⟨fun h => ⟨computeVat_sound h, computeVat_error h⟩,
    fun t => ⟨computeVatFromTtc_sound t, computeVatFromTtc_error t⟩,
    fun h => computeVatFromTtc_computeVat h, fun t => ?_, fun a b => ?_, fun a b => ?_⟩
  · rw [computeVat_computeVatFromTtc]
    split <;> split <;> omega
  · exact computeVat_mono (by omega)
  · exact computeVatFromTtc_mono (by omega)

end JobBoard
