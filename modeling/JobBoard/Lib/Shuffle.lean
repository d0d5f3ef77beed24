/-!
# Shuffles

The shuffle of Fisher and Yates, from the last element down: each is swapped with one that is not
after it. Whatever the choices are, the result is a permutation.
-/

set_option autoImplicit false

namespace Shuffle

variable {α σ : Type} {n : Nat}

/-- The choice of a place from `0` to `i`, and the state of the generator after it. -/
abbrev Pick (σ : Type) := σ → (i : Nat) → Fin (i + 1) × σ

/-- `for (let i = k - 1; i > 0; i--)`. -/
def loop (pick : Pick σ) : (k : Nat) → k ≤ n → σ → Vector α n → Vector α n
  | 0, _, _, copy => copy
  | i + 1, h, s, copy =>
    if i = 0 then copy
    else
      let (j, s) := pick s i
      loop pick i (Nat.le_of_succ_le h) s
        (copy.swap i j h (Nat.lt_of_lt_of_le j.isLt h))

def shuffle (pick : Pick σ) (s : σ) (items : List α) : List α :=
  (loop pick items.length (Nat.le_refl _) s ⟨items.toArray, List.size_toArray⟩).toList

variable {pick : Pick σ} {s : σ} {items : List α}

theorem loop_perm : ∀ (k : Nat) (h : k ≤ n) (s : σ) (copy : Vector α n),
    (loop pick k h s copy).Perm copy
  | 0, _, _, _ => .rfl
  | i + 1, h, s, copy => by
    unfold loop
    split
    · exact .rfl
    · exact (loop_perm i _ _ _).trans (Vector.swap_perm h _)

theorem perm : (shuffle pick s items).Perm items :=
  (loop_perm items.length (Nat.le_refl _) s ⟨items.toArray, List.size_toArray⟩).toList

@[simp] theorem length : (shuffle pick s items).length = items.length := perm.length_eq

@[simp] theorem mem {a : α} : a ∈ shuffle pick s items ↔ a ∈ items := perm.mem_iff

end Shuffle
