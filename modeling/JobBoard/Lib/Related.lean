import Mathlib.Data.List.Forall2
import Mathlib.Data.List.Sort

/-!
# Lists related row by row

What functions that treat related rows alike make of two lists that are related row by
row (`List.Forall₂ R`): the same map, related orders, and the same row found.
-/

set_option autoImplicit false

namespace List.Forall₂

variable {α β γ : Type} {R : α → β → Prop} {l : List α} {m : List β}

theorem map_eq (h : Forall₂ R l m) {f : α → γ} {g : β → γ} (hfg : ∀ a b, R a b → f a = g b) :
    l.map f = m.map g := by
  induction h with
  | nil => rfl
  | cons hab _ ih => rw [List.map_cons, List.map_cons, hfg _ _ hab, ih]

theorem filter_filter (h : Forall₂ R l m) {p : α → Bool} {q : β → Bool}
    (hpq : ∀ a b, R a b → p a = q b) : Forall₂ R (l.filter p) (m.filter q) :=
  List.rel_filter (fun a b hab => by
    show p a = true ↔ q b = true
    rw [hpq a b hab]) h

/-- Either both lists have no row with the property, or the first ones are related. -/
theorem find?_find? (h : Forall₂ R l m) {p : α → Bool} {q : β → Bool}
    (hpq : ∀ a b, R a b → p a = q b) :
    (l.find? p = none ∧ m.find? q = none) ∨
      ∃ a b, l.find? p = some a ∧ m.find? q = some b ∧ R a b := by
  induction h with
  | nil => exact .inl ⟨rfl, rfl⟩
  | @cons a b _ _ hab _ ih =>
    rw [List.find?_cons, List.find?_cons, ← hpq a b hab]
    cases hp : p a with
    | true => exact .inr ⟨a, b, rfl, rfl, hab⟩
    | false => exact ih

variable {r : α → α → Prop} {s : β → β → Prop} [DecidableRel r] [DecidableRel s]

theorem orderedInsert (h : Forall₂ R l m) (hrs : ∀ a b a' b', R a b → R a' b' → (r a a' ↔ s b b'))
    {a : α} {b : β} (hab : R a b) : Forall₂ R (l.orderedInsert r a) (m.orderedInsert s b) := by
  induction h with
  | nil => exact .cons hab .nil
  | @cons a' b' l m hab' hlm ih =>
    simp only [List.orderedInsert]
    by_cases hr : r a a'
    · rw [if_pos hr, if_pos ((hrs _ _ _ _ hab hab').1 hr)]
      exact .cons hab (.cons hab' hlm)
    · rw [if_neg hr, if_neg fun hs => hr ((hrs _ _ _ _ hab hab').2 hs)]
      exact .cons hab' ih

theorem insertionSort (h : Forall₂ R l m)
    (hrs : ∀ a b a' b', R a b → R a' b' → (r a a' ↔ s b b')) :
    Forall₂ R (l.insertionSort r) (m.insertionSort s) := by
  induction h with
  | nil => exact .nil
  | cons hab _ ih => exact ih.orderedInsert hrs hab

end List.Forall₂
