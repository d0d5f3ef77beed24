import Mathlib.Data.List.Induction
import Mathlib.Data.List.Nodup
import Mathlib.Algebra.GroupWithZero.Nat

/-!
# Keys in the order of their first occurrence

What a loop leaves as the keys of a map that remembers the order in which they were added.
-/

set_option autoImplicit false

namespace Grouping

variable {κ : Type} [DecidableEq κ]

def firsts (keys : List κ) : List κ :=
  keys.foldl (fun ds d => if d ∈ ds then ds else ds ++ [d]) []

theorem firsts_snoc (keys : List κ) (k : κ) :
    firsts (keys ++ [k]) = if k ∈ firsts keys then firsts keys else firsts keys ++ [k] := by
  unfold firsts
  rw [List.foldl_append]
  rfl

theorem firsts_nodup (keys : List κ) : (firsts keys).Nodup := by
  induction keys using List.reverseRecOn with
  | nil => exact List.nodup_nil
  | append_singleton keys k ih =>
    rw [firsts_snoc]
    split
    · exact ih
    · next h => exact List.concat_eq_append ▸ ih.concat h

theorem mem_firsts {keys : List κ} {k : κ} : k ∈ firsts keys ↔ k ∈ keys := by
  induction keys using List.reverseRecOn with
  | nil => exact Iff.rfl
  | append_singleton keys k' ih =>
    rw [firsts_snoc, List.mem_append, List.mem_singleton, ← ih]
    split
    · next h => exact ⟨Or.inl, fun hk => hk.elim id fun hk => hk ▸ h⟩
    · rw [List.mem_append, List.mem_singleton]

/-- Counted by different keys, everything with one of the keys is counted once. -/
theorem sum_count {ks : List κ} (hks : ks.Nodup) (keys : List κ) :
    (ks.map fun k => keys.count k).sum = keys.countP fun k => k ∈ ks := by
  induction ks with
  | nil => simp
  | cons k ks ih =>
    obtain ⟨hk, hks⟩ := List.nodup_cons.1 hks
    have hsplit : ∀ keys : List κ, (keys.countP fun x => x ∈ k :: ks) =
        keys.count k + keys.countP fun x => x ∈ ks := by
      intro keys
      induction keys with
      | nil => rfl
      | cons x keys ihx =>
        rw [List.countP_cons, List.countP_cons, List.count_cons, ihx]
        by_cases hx : x = k
        · subst hx
          simp only [List.mem_cons_self, hk, decide_true, decide_false, beq_self_eq_true, if_true,
            Bool.false_eq_true, if_false]
          omega
        · simp only [List.mem_cons, hx, false_or, beq_iff_eq, if_false]
          omega
    rw [List.map_cons, List.sum_cons, ih hks, hsplit]

end Grouping
