import Mathlib.Tactic.Common

/-!
# The proleptic Gregorian calendar

`civil z` is the year, the month and the day of the day number `z`, counted from 1970-01-01. The
years are counted from March in eras of 400 years, so that the leap day is the last of its year.
Different days have different dates (`civil_injective`).
-/

set_option autoImplicit false

namespace Calendar

/-- The era of a day, and the day in it. -/
def era (z : Int) : Int := (z + 719468) / 146097

def dayOfEra (z : Int) : Int := z + 719468 - era z * 146097

def yearOfEra (doe : Int) : Int := (doe - doe / 1460 + doe / 36524 - doe / 146096) / 365

/-- The day in a year that begins in March. -/
def dayOfYear (doe : Int) : Int :=
  doe - (365 * yearOfEra doe + yearOfEra doe / 4 - yearOfEra doe / 100)

/-- March is the month 0. -/
def monthOfYear (doy : Int) : Int := (5 * doy + 2) / 153

def civil (z : Int) : Int × Int × Int :=
  let doy := dayOfYear (dayOfEra z)
  let mp := monthOfYear doy
  (yearOfEra (dayOfEra z) + era z * 400 + (if mp < 10 then 0 else 1),
    if mp < 10 then mp + 3 else mp - 9, doy - (153 * mp + 2) / 5 + 1)

example : civil 0 = (1970, 1, 1) ∧ civil 19782 = (2024, 2, 29) ∧ civil 19783 = (2024, 3, 1) := by
  decide

section

variable {z z' doe doy : Int}

theorem dayOfEra_bounds (z : Int) : 0 ≤ dayOfEra z ∧ dayOfEra z ≤ 146096 := by
  unfold dayOfEra era
  omega

theorem yearOfEra_bounds (h : 0 ≤ doe) (h' : doe ≤ 146096) :
    0 ≤ yearOfEra doe ∧ yearOfEra doe ≤ 399 := by
  unfold yearOfEra
  omega

theorem dayOfYear_bounds (h : 0 ≤ doe) (h' : doe ≤ 146096) :
    0 ≤ dayOfYear doe ∧ dayOfYear doe ≤ 365 := by
  have hy := yearOfEra_bounds h h'
  unfold dayOfYear
  have hyoe : yearOfEra doe = (doe - doe / 1460 + doe / 36524 - doe / 146096) / 365 := rfl
  generalize yearOfEra doe = yoe at hy hyoe ⊢
  -- the centuries and the last day of the era decide the leap years that are passed
  have hcentury : doe / 36524 = 0 ∨ doe / 36524 = 1 ∨ doe / 36524 = 2 ∨ doe / 36524 = 3 ∨
      doe / 36524 = 4 := by omega
  have hlast : doe / 146096 = 0 ∨ doe / 146096 = 1 := by omega
  have hyears : yoe / 100 = 0 ∨ yoe / 100 = 1 ∨ yoe / 100 = 2 ∨ yoe / 100 = 3 := by omega
  generalize hc : doe / 36524 = century at hcentury hyoe
  generalize hl : doe / 146096 = last at hlast hyoe
  generalize hy₁ : yoe / 100 = years at hyears ⊢
  rcases hcentury with rfl | rfl | rfl | rfl | rfl <;> rcases hlast with rfl | rfl <;>
    rcases hyears with rfl | rfl | rfl | rfl <;> omega

theorem monthOfYear_bounds (h : 0 ≤ doy) (h' : doy ≤ 365) :
    0 ≤ monthOfYear doy ∧ monthOfYear doy ≤ 11 := by
  unfold monthOfYear
  omega

theorem civil_bounds (z : Int) :
    1 ≤ (civil z).2.1 ∧ (civil z).2.1 ≤ 12 ∧ 1 ≤ (civil z).2.2 ∧ (civil z).2.2 ≤ 31 := by
  obtain ⟨h, h'⟩ := dayOfEra_bounds z
  obtain ⟨hdoy, hdoy'⟩ := dayOfYear_bounds h h'
  obtain ⟨hmp, hmp'⟩ := monthOfYear_bounds hdoy hdoy'
  simp only [civil]
  refine ⟨?_, ?_, ?_, ?_⟩
  · split <;> omega
  · split <;> omega
  · unfold monthOfYear at *
    omega
  · unfold monthOfYear at *
    omega

/-- The days from 0001-01-01 on. -/
theorem one_le_year (h : -719162 ≤ z) : 1 ≤ (civil z).1 := by
  have hera : 0 ≤ era z := by
    unfold era
    omega
  obtain ⟨hz, hz₁⟩ := dayOfEra_bounds z
  have hyoe := yearOfEra_bounds hz hz₁
  have hdef : dayOfEra z = z + 719468 - era z * 146097 := rfl
  have hday : dayOfYear (dayOfEra z) = dayOfEra z - (365 * yearOfEra (dayOfEra z) +
    yearOfEra (dayOfEra z) / 4 - yearOfEra (dayOfEra z) / 100) := rfl
  simp only [civil]
  unfold monthOfYear
  split <;> omega

/-- The days up to 9999-12-31. -/
theorem year_le (h : z ≤ 2932896) : (civil z).1 ≤ 9999 := by
  have hera : era z ≤ 24 := by
    unfold era
    omega
  obtain ⟨hz, hz₁⟩ := dayOfEra_bounds z
  have hyoe := yearOfEra_bounds hz hz₁
  have hdef : dayOfEra z = z + 719468 - era z * 146097 := rfl
  have hday : dayOfYear (dayOfEra z) = dayOfEra z - (365 * yearOfEra (dayOfEra z) +
    yearOfEra (dayOfEra z) / 4 - yearOfEra (dayOfEra z) / 100) := rfl
  simp only [civil]
  unfold monthOfYear
  split <;> omega

/-- The day is found again from its date. -/
theorem civil_injective (h : civil z = civil z') : z = z' := by
  obtain ⟨hz, hz₁⟩ := dayOfEra_bounds z
  obtain ⟨hz', hz'₁⟩ := dayOfEra_bounds z'
  have hyoe := yearOfEra_bounds hz hz₁
  have hyoe' := yearOfEra_bounds hz' hz'₁
  have hdoy := dayOfYear_bounds hz hz₁
  have hdoy' := dayOfYear_bounds hz' hz'₁
  have hmp := monthOfYear_bounds hdoy.1 hdoy.2
  have hmp' := monthOfYear_bounds hdoy'.1 hdoy'.2
  simp only [civil, Prod.mk.injEq] at h
  obtain ⟨hyear, hmonth, hday⟩ := h
  have hsame : monthOfYear (dayOfYear (dayOfEra z)) = monthOfYear (dayOfYear (dayOfEra z')) := by
    split at hmonth <;> split at hmonth <;> omega
  rw [hsame] at hyear hday
  have hera : era z = era z' := by omega
  have hyears : yearOfEra (dayOfEra z) = yearOfEra (dayOfEra z') := by omega
  have hdays : dayOfYear (dayOfEra z) = dayOfYear (dayOfEra z') := by omega
  unfold dayOfYear at hdays
  rw [hyears] at hdays
  unfold dayOfEra at hdays
  omega

end

end Calendar
