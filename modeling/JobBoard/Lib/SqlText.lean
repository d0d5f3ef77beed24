import Mathlib.Data.List.Basic

/-!
# The text of a `WHERE` clause

A query builder assembles a condition as a text: atoms joined by `AND` and `OR` in
the order in which they were added, with no parentheses but those inside an atom. The
text is read from left to right, and `AND` binds tighter than `OR`. An atom is a
predicate of the row; one that SQL leaves unknown counts as false, which is what
`WHERE` makes of a combination of unknowns without a `NOT`.
-/

set_option autoImplicit false

namespace Sql

/-- The word before an atom. -/
inductive Joint where
  | and | or
  deriving DecidableEq, Repr

structure Condition (ρ : Type) where
  first : ρ → Bool
  rest : List (Joint × (ρ → Bool))

namespace Condition

variable {ρ : Type}

def atom (p : ρ → Bool) : Condition ρ := ⟨p, []⟩

/-- The text of `c`, the word `AND`, and the text of `d`. -/
def andWhere (c d : Condition ρ) : Condition ρ := ⟨c.first, c.rest ++ (.and, d.first) :: d.rest⟩

/-- The same with the word `OR`. -/
def orText (c d : Condition ρ) : Condition ρ := ⟨c.first, c.rest ++ (.or, d.first) :: d.rest⟩

/-- The rest of a text, after a conjunction whose value is `acc`. -/
def value (row : ρ) : Bool → List (Joint × (ρ → Bool)) → Bool
  | acc, [] => acc
  | acc, (.and, p) :: rest => value row (acc && p row) rest
  -- an OR closes the conjunction before it
  | acc, (.or, p) :: rest => acc || value row (p row) rest

def holds (c : Condition ρ) (row : ρ) : Bool := value row (c.first row) c.rest

/-- The texts in turn, each joined to those before it. -/
def andAll (c : Condition ρ) (ds : List (Condition ρ)) : Condition ρ := ds.foldl andWhere c

/-- No `OR` outside an atom. -/
def Conjunctive (c : Condition ρ) : Prop := ∀ j ∈ c.rest, j.1 = .and

/-! ## Values of texts -/

@[simp] theorem holds_atom (p : ρ → Bool) (row : ρ) : (atom p).holds row = p row := rfl

theorem conjunctive_atom (p : ρ → Bool) : (atom p).Conjunctive := nofun

theorem Conjunctive.andWhere {c d : Condition ρ} (hc : c.Conjunctive) (hd : d.Conjunctive) :
    (c.andWhere d).Conjunctive := by
  intro j hj
  simp only [Condition.andWhere, List.mem_append, List.mem_cons] at hj
  rcases hj with hj | rfl | hj
  · exact hc j hj
  · rfl
  · exact hd j hj

/-- A conjunction is read before what follows it. -/
theorem value_append {row : ρ} {l : List (Joint × (ρ → Bool))} (hl : ∀ j ∈ l, j.1 = .and)
    (acc : Bool) (r : List (Joint × (ρ → Bool))) :
    value row acc (l ++ r) = value row (value row acc l) r := by
  induction l generalizing acc with
  | nil => rfl
  | cons j l ih =>
    obtain ⟨w, p⟩ := j
    have hw : w = .and := hl (w, p) List.mem_cons_self
    subst hw
    exact ih (fun j hj => hl j (List.mem_cons_of_mem _ hj)) (acc && p row)

/-- The value before a conjunction is one more factor of it. -/
theorem value_and {row : ρ} {l : List (Joint × (ρ → Bool))} (hl : ∀ j ∈ l, j.1 = .and)
    (a acc : Bool) : value row (a && acc) l = (a && value row acc l) := by
  induction l generalizing acc with
  | nil => rfl
  | cons j l ih =>
    obtain ⟨w, p⟩ := j
    have hw : w = .and := hl (w, p) List.mem_cons_self
    subst hw
    show value row (a && acc && p row) l = (a && value row (acc && p row) l)
    rw [Bool.and_assoc, ih fun j hj => hl j (List.mem_cons_of_mem _ hj)]

theorem holds_andWhere {c d : Condition ρ} (hc : c.Conjunctive) (hd : d.Conjunctive) (row : ρ) :
    (c.andWhere d).holds row = (c.holds row && d.holds row) := by
  unfold holds andWhere
  rw [value_append hc]
  exact value_and hd _ _

/-- An `OR` in the text that is added takes the whole text before it as one of its sides. -/
theorem holds_andWhere_orText {c : Condition ρ} (hc : c.Conjunctive) (p q : ρ → Bool) (row : ρ) :
    (c.andWhere ((atom p).orText (atom q))).holds row = (c.holds row && p row || q row) := by
  unfold holds andWhere
  rw [value_append hc]
  rfl

theorem Conjunctive.andAll {c : Condition ρ} {ds : List (Condition ρ)} (hc : c.Conjunctive)
    (hd : ∀ d ∈ ds, d.Conjunctive) : (c.andAll ds).Conjunctive := by
  induction ds generalizing c with
  | nil => exact hc
  | cons d ds ih =>
    exact ih (hc.andWhere (hd d List.mem_cons_self)) fun e he => hd e (List.mem_cons_of_mem _ he)

theorem holds_andAll {c : Condition ρ} {ds : List (Condition ρ)} (hc : c.Conjunctive)
    (hd : ∀ d ∈ ds, d.Conjunctive) (row : ρ) :
    (c.andAll ds).holds row = (c.holds row && ds.all (·.holds row)) := by
  induction ds generalizing c with
  | nil => simp [Condition.andAll]
  | cons d ds ih =>
    have hd' : d.Conjunctive := hd d List.mem_cons_self
    have hrest : ∀ e ∈ ds, e.Conjunctive := fun e he => hd e (List.mem_cons_of_mem _ he)
    calc ((c.andWhere d).andAll ds).holds row
        = ((c.andWhere d).holds row && ds.all (·.holds row)) := ih (hc.andWhere hd') hrest
      _ = (c.holds row && d.holds row && ds.all (·.holds row)) := by
        rw [holds_andWhere hc hd']
      _ = (c.holds row && (d :: ds).all (·.holds row)) := by
        rw [Bool.and_assoc, List.all_cons]

end Condition

end Sql
