import Mathlib.Data.List.Sort

/-!
# Ordered answers

The rows of a query in an order in which some rows may be equal: these come in any order. What
every such answer puts in order is a fact about pairs of rows (`pairwise_iff`).
-/

set_option autoImplicit false

namespace OrderBy

variable {α : Type} {le : α → α → Prop} {xs ys : List α}

/-- The rows `xs` in the order `le`. -/
structure OrderedBy (le : α → α → Prop) (xs ys : List α) : Prop where
  perm : ys.Perm xs
  ordered : ys.Pairwise le

section

variable [DecidableRel le] [Std.Total le] [IsTrans α le]

theorem insertionSort_orderedBy (xs : List α) : OrderedBy le xs (xs.insertionSort le) :=
  ⟨List.perm_insertionSort le xs, List.pairwise_insertionSort le xs⟩

/-- Of two rows that may come in this order, some answer has them so. -/
theorem exists_answer [DecidableEq α] {x y : α} (hx : x ∈ xs) (hy : y ∈ xs) (hne : x ≠ y)
    (hle : le x y) : ∃ ys, OrderedBy le xs ys ∧ [x, y].Sublist ys := by
  have hperm : (x :: xs.erase x).Perm xs := (List.perm_cons_erase hx).symm
  have hsub : [x, y].Sublist (x :: xs.erase x) := by
    refine List.Sublist.cons_cons x (List.singleton_sublist.2 ?_)
    exact (List.mem_erase_of_ne hne.symm).2 hy
  have hanswer : OrderedBy le _ _ := insertionSort_orderedBy (x :: xs.erase x)
  exact ⟨_, ⟨hanswer.perm.trans hperm, hanswer.ordered⟩,
    List.pair_sublist_insertionSort hle hsub⟩

theorem pairwise_iff [DecidableEq α] (hnodup : xs.Nodup) {P : α → α → Prop} :
    (∀ ys, OrderedBy le xs ys → ys.Pairwise P) ↔
      ∀ x ∈ xs, ∀ y ∈ xs, x ≠ y → le x y → P x y := by
  constructor
  · intro h x hx y hy hne hle
    obtain ⟨ys, hys, hsub⟩ := exists_answer hx hy hne hle
    exact List.pairwise_pair.1 ((h ys hys).sublist hsub)
  · intro h ys hys
    have hne : ys.Pairwise (· ≠ ·) := hys.perm.nodup_iff.2 hnodup
    refine List.Pairwise.imp_of_mem (fun hx hy hxy => ?_) (hys.ordered.and hne)
    exact h _ (hys.perm.mem_iff.1 hx) _ (hys.perm.mem_iff.1 hy) hxy.2 hxy.1

end

end OrderBy
