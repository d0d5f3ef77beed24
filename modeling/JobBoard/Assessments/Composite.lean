import Mathlib.Tactic.Linarith
import Mathlib.Tactic.Positivity
import Mathlib.Order.Interval.Set.Basic
import JobBoard.Model.Rounding
import JobBoard.Assessments.Scoring

/-!
# The composite score

`computeCompositeScore` over the rational numbers. The weights are settings, any two numbers, of
which only the sum is checked: the composite is a mean of the two sub-scores exactly where no
weight is negative, or their sum is not positive (`composite_sound_iff`). The hundredths that
`WebhookService.compositeScore` computes for whole weights are the same.
-/

set_option autoImplicit false

namespace JobBoard.Assessments

namespace Composite

/-- What the provider reports, in points. -/
structure Reported where
  technicalScore : Option Rat
  psychotechnicalScore : Option Rat
  score : Rat
  maxScore : Rat
  deriving DecidableEq

/-- `Math.round(x * 100) / 100`. -/
def toHundredths (x : Rat) : Rat := (round (x * 100) : Int) / 100

section

variable (getNumber : String → Option Rat)

def techWeight : Rat := (getNumber "score_technique_weight").getD 60

def psychoWeight : Rat := (getNumber "score_psychotechnique_weight").getD 40

def computeCompositeScore (result : Reported) : Rat :=
  match result.technicalScore, result.psychotechnicalScore with
  | some technicalScore, some psychotechnicalScore =>
    let totalWeight := techWeight getNumber + psychoWeight getNumber
    if totalWeight ≤ 0 then 0
    else
      let weighted := (technicalScore * techWeight getNumber +
        psychotechnicalScore * psychoWeight getNumber) / totalWeight
      toHundredths weighted
  | _, _ => if result.maxScore > 0 then toHundredths (result.score / result.maxScore * 100) else 0

/-- The composite of two sub-scores. -/
def composite (technicalScore psychotechnicalScore : Rat) : Rat :=
  computeCompositeScore getNumber ⟨some technicalScore, some psychotechnicalScore, 0, 0⟩

end

/-! ## Two decimals -/

theorem round_mono {x y : Rat} (h : x ≤ y) : round x ≤ round y := by
  rw [round_eq, round_eq]
  exact Int.floor_mono (by linarith)

theorem toHundredths_mono {x y : Rat} (h : x ≤ y) : toHundredths x ≤ toHundredths y := by
  have hround : (round (x * 100) : Rat) ≤ round (y * 100) := by
    exact_mod_cast round_mono (by linarith)
  exact div_le_div_of_nonneg_right hround (by norm_num)

theorem toHundredths_intCast (n : Int) : toHundredths (n : Rat) = n := by
  unfold toHundredths
  rw [show (n : Rat) * 100 = ((n * 100 : Int) : Rat) by push_cast; rfl, round_intCast]
  push_cast
  field_simp

/-- What is rounded to the integer `c`. -/
theorem toHundredths_eq_intCast {x : Rat} {c : Int} :
    toHundredths x = c ↔ -1 / 200 ≤ x - c ∧ x - c < 1 / 200 := by
  have hcast : toHundredths x = c ↔ round (x * 100) = c * 100 := by
    unfold toHundredths
    rw [div_eq_iff (by norm_num)]
    exact_mod_cast Iff.rfl
  rw [hcast, round_eq_iff, Set.mem_Ico]
  push_cast
  constructor
  · rintro ⟨hlow, hhigh⟩
    exact ⟨by linarith, by linarith⟩
  · rintro ⟨hlow, hhigh⟩
    exact ⟨by linarith, by linarith⟩

/-! ## The mean -/

section

variable {getNumber : String → Option Rat} {t t' p p' : Rat}

theorem composite_eq (t p : Rat) :
    composite getNumber t p =
      if techWeight getNumber + psychoWeight getNumber ≤ 0 then 0
      else toHundredths ((t * techWeight getNumber + p * psychoWeight getNumber) /
        (techWeight getNumber + psychoWeight getNumber)) := rfl

theorem composite_mono (ht : 0 ≤ techWeight getNumber) (hp : 0 ≤ psychoWeight getNumber)
    (htt : t ≤ t') (hpp : p ≤ p') : composite getNumber t p ≤ composite getNumber t' p' := by
  rw [composite_eq, composite_eq]
  split
  · exact le_rfl
  · next hsum =>
    refine toHundredths_mono (div_le_div_of_nonneg_right ?_ (not_le.1 hsum).le)
    exact add_le_add (mul_le_mul_of_nonneg_right htt ht) (mul_le_mul_of_nonneg_right hpp hp)

/-- A mean of equal sub-scores. -/
theorem composite_self (n : Int)
    (hsum : 0 < techWeight getNumber + psychoWeight getNumber) :
    composite getNumber n n = n := by
  rw [composite_eq, if_neg (not_le.2 hsum), ← mul_add, mul_div_assoc, div_self hsum.ne', mul_one,
    toHundredths_intCast]

theorem composite_mem (ht : 0 ≤ techWeight getNumber) (hp : 0 ≤ psychoWeight getNumber)
    (htm : t ∈ Set.Icc 0 100) (hpm : p ∈ Set.Icc 0 100) :
    composite getNumber t p ∈ Set.Icc (0 : Rat) 100 := by
  by_cases hsum : techWeight getNumber + psychoWeight getNumber ≤ 0
  · rw [composite_eq, if_pos hsum]
    exact ⟨le_rfl, by norm_num⟩
  · have hlow := composite_mono ht hp htm.1 hpm.1
    have hhigh := composite_mono ht hp htm.2 hpm.2
    have hzero : composite getNumber 0 0 = 0 := composite_self 0 (not_le.1 hsum)
    have hfull : composite getNumber 100 100 = 100 := composite_self 100 (not_le.1 hsum)
    exact ⟨hzero ▸ hlow, hfull ▸ hhigh⟩

end

/-- For sub-scores between 0 and 100 the composite is between 0 and 100, and a better sub-score
does not lower it. -/
structure Sound (getNumber : String → Option Rat) : Prop where
  range : ∀ t p, t ∈ Set.Icc 0 100 → p ∈ Set.Icc 0 100 →
    composite getNumber t p ∈ Set.Icc (0 : Rat) 100
  technical : ∀ t t' p, t ∈ Set.Icc 0 100 → t' ∈ Set.Icc 0 100 → p ∈ Set.Icc 0 100 → t ≤ t' →
    composite getNumber t p ≤ composite getNumber t' p
  psychotechnical : ∀ t p p', t ∈ Set.Icc 0 100 → p ∈ Set.Icc 0 100 → p' ∈ Set.Icc 0 100 →
    p ≤ p' → composite getNumber t p ≤ composite getNumber t p'

/-- Where the one weight is negative, the half that the other one is rounded up from is lost. -/
theorem lowered_of_neg {w v : Rat} (hv : v < 0) (hsum : 0 < w + v) :
    ∃ t, t ∈ Set.Icc (0 : Rat) 100 ∧
      toHundredths ((t * w + 100 * v) / (w + v)) < toHundredths ((t * w + 0 * v) / (w + v)) := by
  have hw : 0 < w := by linarith
  have hle : w + v ≤ 200 * w := by linarith
  refine ⟨(w + v) / (200 * w), ⟨by positivity, ?_⟩, ?_⟩
  · rw [div_le_iff₀ (by positivity)]
    linarith
  · have hhalf : (w + v) / (200 * w) * w = (w + v) / 200 := by field_simp
    have hup : toHundredths (((w + v) / 200 + 0 * v) / (w + v)) = 1 / 100 := by
      have hx : ((w + v) / 200 + 0 * v) / (w + v) = 1 / 200 := by
        field_simp
        ring
      rw [hx]
      norm_num [toHundredths, round_eq]
    have hdown : toHundredths (((w + v) / 200 + 100 * v) / (w + v)) ≤ 0 := by
      have hx : ((w + v) / 200 + 100 * v) / (w + v) < 1 / 200 := by
        rw [div_lt_iff₀ hsum]
        linarith
      have hround : round (((w + v) / 200 + 100 * v) / (w + v) * 100) ≤ 0 := by
        rw [round_eq, ← Int.lt_add_one_iff, Int.floor_lt]
        push_cast
        linarith
      have hcast : (round (((w + v) / 200 + 100 * v) / (w + v) * 100) : Rat) ≤ 0 := by
        exact_mod_cast hround
      exact div_nonpos_of_nonpos_of_nonneg hcast (by norm_num)
    rw [hhalf, hup]
    exact lt_of_le_of_lt hdown (by norm_num)

theorem composite_sound_iff (getNumber : String → Option Rat) :
    Sound getNumber ↔ techWeight getNumber + psychoWeight getNumber ≤ 0 ∨
      (0 ≤ techWeight getNumber ∧ 0 ≤ psychoWeight getNumber) := by
  constructor
  · intro h
    by_contra hneg
    rw [not_or, not_le, not_and_or, not_le, not_le] at hneg
    obtain ⟨hsum, htech | hpsycho⟩ := hneg
    · obtain ⟨p, hp, hlt⟩ := lowered_of_neg htech (add_comm (techWeight getNumber) _ ▸ hsum)
      have hle := h.technical 0 100 p ⟨le_rfl, by norm_num⟩ ⟨by norm_num, le_rfl⟩ hp (by norm_num)
      rw [composite_eq, composite_eq, if_neg (not_le.2 hsum), if_neg (not_le.2 hsum)] at hle
      rw [add_comm (p * _), add_comm (psychoWeight getNumber), add_comm (p * _)] at hlt
      exact absurd hlt (not_lt.2 hle)
    · obtain ⟨t, ht, hlt⟩ := lowered_of_neg hpsycho hsum
      have hle := h.psychotechnical t 0 100 ht ⟨le_rfl, by norm_num⟩ ⟨by norm_num, le_rfl⟩
        (by norm_num)
      rw [composite_eq, composite_eq, if_neg (not_le.2 hsum), if_neg (not_le.2 hsum)] at hle
      exact absurd hlt (not_lt.2 hle)
  · rintro (hsum | ⟨ht, hp⟩)
    · have hzero : ∀ t p, composite getNumber t p = 0 := fun t p => by
        rw [composite_eq, if_pos hsum]
      refine ⟨fun t p _ _ => ?_, fun t t' p _ _ _ _ => ?_, fun t p p' _ _ _ _ => ?_⟩
      · rw [hzero]
        exact ⟨le_rfl, by norm_num⟩
      · rw [hzero, hzero]
      · rw [hzero, hzero]
    · exact ⟨fun t p => composite_mem ht hp, fun t t' p _ _ _ hle => composite_mono ht hp hle le_rfl,
        fun t p p' _ _ _ hle => composite_mono ht hp le_rfl hle⟩

/-- A weight of -100 beside one of 200. -/
def negativeWeight : String → Option Rat
  | "score_technique_weight" => some 200
  | "score_psychotechnique_weight" => some (-100)
  | _ => none

/-- 100 and 0 make 200. -/
theorem composite_out_of_range : ¬ ∀ getNumber : String → Option Rat, Sound getNumber := by
  intro h
  have hrange := ((h negativeWeight).range 100 0 ⟨by norm_num, le_rfl⟩ ⟨le_rfl, by norm_num⟩).2
  have htwice : composite negativeWeight 100 0 = 200 := by
    have ht : techWeight negativeWeight = 200 := rfl
    have hp : psychoWeight negativeWeight = -100 := rfl
    rw [composite_eq, ht, hp]
    norm_num [toHundredths]
  rw [htwice] at hrange
  norm_num at hrange

end Composite

end JobBoard.Assessments
