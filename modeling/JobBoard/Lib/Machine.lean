import Mathlib.Logic.Relation
import Mathlib.Data.List.Induction

/-!
# Machines with labelled steps

`next s l` is the state after the step `l`, if it can be taken in `s`. `Run next ok` are the runs
whose steps satisfy `ok` in the states they are taken in, and `runLabels` checks one of them.
`after` is the state after a list of steps; `after_keeps` carries what is known of the state and of
the steps so far.
-/

set_option autoImplicit false

namespace Machine

variable {S L : Type}

def Step (next : S → L → Option S) (ok : S → L → Prop) (s s' : S) : Prop :=
  ∃ l, ok s l ∧ next s l = some s'

abbrev Run (next : S → L → Option S) (ok : S → L → Prop) : S → S → Prop :=
  Relation.ReflTransGen (Step next ok)

/-- The state after the labels, if each satisfies `ok` and can be taken. -/
def runLabels (next : S → L → Option S) (ok : S → L → Bool) (s : S) : List L → Option S
  | [] => some s
  | l :: ls => if ok s l then (next s l).bind fun s' => runLabels next ok s' ls else none

/-- The state after the steps, if each can be taken. -/
def after (next : S → L → Option S) (s : S) : List L → Option S
  | [] => some s
  | l :: ls => (next s l).bind fun s' => after next s' ls

section

variable {next : S → L → Option S} {ok : S → L → Prop} {s s' : S}

/-- What every step keeps holds after a run. -/
theorem Run.keeps {P : S → Prop} (h : Run next ok s s') (h₀ : P s)
    (hstep : ∀ {t l t'}, P t → ok t l → next t l = some t' → P t') : P s' := by
  induction h with
  | refl => exact h₀
  | tail _ hs ih =>
    obtain ⟨l, hok, hn⟩ := hs
    exact hstep ih hok hn

theorem Run.mono {ok' : S → L → Prop} (h : Run next ok s s') (hok : ∀ t l, ok t l → ok' t l) :
    Run next ok' s s' := by
  induction h with
  | refl => exact .refl
  | tail _ hs ih =>
    obtain ⟨l, hl, hn⟩ := hs
    exact ih.tail ⟨l, hok _ _ hl, hn⟩

theorem after_snoc (s : S) (ls : List L) (l : L) :
    after next s (ls ++ [l]) = (after next s ls).bind fun t => next t l := by
  induction ls generalizing s with
  | nil => exact Option.bind_fun_some (next s l)
  | cons k ls ih =>
    show (next s k).bind (fun s' => after next s' (ls ++ [l])) = ((next s k).bind _).bind _
    rw [Option.bind_assoc]
    exact congrArg _ (funext fun s' => ih s')

theorem after_keeps {I : List L → S → Prop} {ls : List L} (h : after next s ls = some s')
    (h₀ : I [] s) (hstep : ∀ {ks t l t'}, after next s ks = some t → I ks t → next t l = some t' →
      I (ks ++ [l]) t') : I ls s' := by
  induction ls using List.reverseRecOn generalizing s' with
  | nil =>
    cases h
    exact h₀
  | append_singleton ks l ih =>
    rw [after_snoc] at h
    obtain ⟨t, ht, hn⟩ := Option.bind_eq_some_iff.1 h
    exact hstep ht (ih ht) hn

theorem run_of_labels {ok : S → L → Bool} {ls : List L} (h : runLabels next ok s ls = some s') :
    Run next (fun s l => ok s l = true) s s' := by
  induction ls generalizing s with
  | nil =>
    cases h
    exact .refl
  | cons l ls ih =>
    unfold runLabels at h
    split at h
    · next hok =>
      obtain ⟨t, hn, h⟩ := Option.bind_eq_some_iff.1 h
      exact .head ⟨l, hok, hn⟩ (ih h)
    · cases h

end

end Machine
