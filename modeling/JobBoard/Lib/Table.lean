import Mathlib.Data.List.Nodup

/-!
# Tables with a primary key

A `Table key` is a list of rows, oldest first, no two of which have the same
`key`: the primary key is a field of the table, so that a row is found by it
(`Table.get?_of_mem`) without an invariant to carry around.
-/

set_option autoImplicit false

namespace Txn

variable {α κ : Type} {key : α → κ}

structure Table (key : α → κ) where
  rows : List α
  nodup : (rows.map key).Nodup

namespace Table

instance [DecidableEq α] : DecidableEq (Table key) := fun t u =>
  decidable_of_iff (t.rows = u.rows) ⟨fun h => by cases t; cases u; simp_all, fun h => h ▸ rfl⟩

def empty : Table key := ⟨[], List.nodup_nil⟩

instance : EmptyCollection (Table key) := ⟨empty⟩

@[simp] theorem empty_rows : (∅ : Table key).rows = [] := rfl

variable [DecidableEq κ]

/-- The row with primary key `k`. -/
def get? (t : Table key) (k : κ) : Option α := t.rows.find? fun r => key r = k

/-- `INSERT`: nothing happens when the key is taken (the statement fails before). -/
def insert (t : Table key) (r : α) : Table key :=
  if h : key r ∈ t.rows.map key then t
  else ⟨t.rows ++ [r], by
    rw [List.map_append, List.nodup_append]
    refine ⟨t.nodup, by simp, ?_⟩
    rintro a ha b hb rfl
    simp only [List.map_cons, List.map_nil, List.mem_singleton] at hb
    exact h (hb ▸ ha)⟩

/-- `UPDATE ... WHERE p`. -/
def modifyWhere (t : Table key) (p : α → Bool) (f : α → α) (hf : ∀ r, key (f r) = key r) :
    Table key :=
  ⟨t.rows.map fun r => if p r then f r else r, by
    have : (t.rows.map fun r => if p r then f r else r).map key = t.rows.map key := by
      rw [List.map_map]
      apply List.map_congr_left
      intro r _
      simp only [Function.comp]
      split <;> simp [hf]
    rw [this]
    exact t.nodup⟩

/-- The rows with some of their columns. -/
def map {β : Type} {key' : β → κ} (t : Table key) (f : α → β) (hf : ∀ r, key' (f r) = key r) :
    Table key' :=
  ⟨t.rows.map f, by
    rw [List.map_map, show key' ∘ f = key from funext hf]
    exact t.nodup⟩

/-- `UPDATE ... WHERE key = k`. -/
def modify (t : Table key) (k : κ) (f : α → α) (hf : ∀ r, key (f r) = key r) : Table key :=
  t.modifyWhere (fun r => key r = k) f hf

/-- `DELETE ... WHERE key = k`. -/
def delete (t : Table key) (k : κ) : Table key :=
  ⟨t.rows.filter fun r => key r ≠ k, (List.filter_sublist.map key).nodup t.nodup⟩

/-- `DELETE ... WHERE p`. -/
def deleteWhere (t : Table key) (p : α → Bool) : Table key :=
  ⟨t.rows.filter fun r => !p r, (List.filter_sublist.map key).nodup t.nodup⟩

/-- `INSERT ... ON CONFLICT (key) DO UPDATE`. -/
def upsert (t : Table key) (r : α) (f : α → α) (hf : ∀ r, key (f r) = key r) : Table key :=
  if (t.get? (key r)).isSome then t.modify (key r) f hf else t.insert r

section

variable {t : Table key} {r : α} {k : κ}

omit [DecidableEq κ] in
theorem eq_of_key {r' : α} (hr : r ∈ t.rows) (hr' : r' ∈ t.rows) (h : key r = key r') : r = r' :=
  List.inj_on_of_nodup_map t.nodup hr hr' h

theorem key_of_get? (h : t.get? k = some r) : key r = k := by
  simpa using List.find?_some h

theorem mem_of_get? (h : t.get? k = some r) : r ∈ t.rows := List.mem_of_find?_eq_some h

theorem get?_of_mem (h : r ∈ t.rows) : t.get? (key r) = some r := by
  cases hf : t.get? (key r) with
  | none =>
    have := List.find?_eq_none.1 hf r h
    simp at this
  | some x => rw [eq_of_key (mem_of_get? hf) h (key_of_get? hf)]

theorem get?_eq_some : t.get? k = some r ↔ r ∈ t.rows ∧ key r = k :=
  ⟨fun h => ⟨mem_of_get? h, key_of_get? h⟩, fun ⟨h, hk⟩ => hk ▸ get?_of_mem h⟩

theorem get?_eq_none : t.get? k = none ↔ ∀ r ∈ t.rows, key r ≠ k := by
  simp [get?, List.find?_eq_none]

/-- An insert that checks the primary key and a unique column goes through. -/
theorem violation_none {β : Type} {p : α → Bool} {a b : β} :
    (if (t.get? k).isSome then some a else if t.rows.any p then some b else none) = none ↔
      ∀ r ∈ t.rows, key r ≠ k ∧ ¬ p r = true := by
  cases hk : t.get? k with
  | some r =>
    simp only [Option.isSome_some, if_true, reduceCtorEq, false_iff]
    exact fun h => (h r (mem_of_get? hk)).1 (key_of_get? hk)
  | none =>
    have hfree := get?_eq_none.1 hk
    simp only [Option.isSome_none, Bool.false_eq_true, if_false, ite_eq_right_iff, reduceCtorEq,
      imp_false, List.any_eq_true, not_exists, not_and]
    exact ⟨fun h r hr => ⟨hfree r hr, h r hr⟩, fun h r hr => (h r hr).2⟩

theorem delete_of_none (h : t.get? k = none) : (t.delete k).rows = t.rows :=
  List.filter_eq_self.2 fun r hr => by simpa using get?_eq_none.1 h r hr

theorem insert_rows (h : t.get? (key r) = none) : (t.insert r).rows = t.rows ++ [r] := by
  have : key r ∉ t.rows.map key := by
    rintro hm
    obtain ⟨x, hx, hk⟩ := List.mem_map.1 hm
    exact get?_eq_none.1 h x hx hk
  simp [insert, this]

theorem map_insert {β : Type} {key' : β → κ} {f : α → β} (hf : ∀ r, key' (f r) = key r) :
    (t.insert r).map f hf = (t.map f hf).insert (f r) := by
  have hkeys : (t.map f hf).rows.map key' = t.rows.map key := by
    rw [map, List.map_map, show key' ∘ f = key from funext hf]
  unfold insert
  by_cases h : key r ∈ t.rows.map key
  · have h' : key' (f r) ∈ (t.map f hf).rows.map key' := by rwa [hkeys, hf]
    rw [dif_pos h, dif_pos h']
  · have h' : key' (f r) ∉ (t.map f hf).rows.map key' := by rwa [hkeys, hf]
    rw [dif_neg h, dif_neg h']
    simp only [map, List.map_append, List.map_cons, List.map_nil]

theorem mem_insert_of_mem {x : α} (h : x ∈ t.rows) : x ∈ (t.insert r).rows := by
  unfold insert
  split
  · exact h
  · exact List.mem_append_left _ h

theorem mem_insert {x : α} (h : x ∈ (t.insert r).rows) : x ∈ t.rows ∨ x = r := by
  unfold insert at h
  split at h
  · exact .inl h
  · exact (List.mem_append.1 h).imp_right List.mem_singleton.1

/-- Also when the insert is refused, the rows that were there stay. -/
theorem get?_insert_of_some {x : α} (h : t.get? k = some x) : (t.insert r).get? k = some x := by
  unfold insert
  split
  · exact h
  · simp [get?] at h ⊢
    simp [h]

theorem get?_insert_self (h : t.get? (key r) = none) : (t.insert r).get? (key r) = some r := by
  rw [get?_eq_some, insert_rows h]
  exact ⟨List.mem_append_right _ List.mem_cons_self, rfl⟩

theorem get?_insert_ne (h : key r ≠ k) : (t.insert r).get? k = t.get? k := by
  unfold insert
  split
  · rfl
  · simp [get?, List.find?_append, h]

theorem get?_insert (h : t.get? (key r) = none) :
    (t.insert r).get? k = if key r = k then some r else t.get? k := by
  split
  · next hk => rw [← hk, get?_insert_self h]
  · next hk => exact get?_insert_ne hk

theorem get?_modify (f : α → α) (hf : ∀ r, key (f r) = key r) {k' : κ} :
    (t.modify k f hf).get? k' = if k' = k then (t.get? k').map f else t.get? k' := by
  have hkey : ∀ r, key (if decide (key r = k) = true then f r else r) = key r := by
    intro r
    split <;> simp [hf]
  simp only [get?, modify, modifyWhere, List.find?_map, Function.comp_def, hkey]
  cases hfind : t.rows.find? (fun r => decide (key r = k')) with
  | none => simp
  | some x =>
    have hx : key x = k' := by simpa using List.find?_some hfind
    subst hx
    split <;> simp_all

omit [DecidableEq κ] in
/-- The first row with a property that the update keeps. -/
theorem find?_modifyWhere {p : α → Bool} (f : α → α) (hf : ∀ r, key (f r) = key r) {q : α → Bool}
    (hq : ∀ r, q (f r) = q r) :
    (t.modifyWhere p f hf).rows.find? q = (t.rows.find? q).map fun r => if p r then f r else r := by
  have hfun : (q ∘ fun r => if p r then f r else r) = q := by
    funext r
    simp only [Function.comp]
    split
    · exact hq r
    · rfl
  show (t.rows.map fun r => if p r then f r else r).find? q = _
  rw [List.find?_map, hfun]

theorem get?_modifyWhere {p : α → Bool} (f : α → α) (hf : ∀ r, key (f r) = key r) :
    (t.modifyWhere p f hf).get? k = (t.get? k).map fun r => if p r then f r else r :=
  find?_modifyWhere f hf fun r => by rw [hf]

theorem get?_upsert_self (f : α → α) (hf : ∀ r, key (f r) = key r) :
    (t.upsert r f hf).get? (key r) = some (((t.get? (key r)).map f).getD r) := by
  unfold upsert
  cases h : t.get? (key r) with
  | none => simp [get?_insert_self h]
  | some x => simp [get?_modify, h]

theorem get?_upsert_ne (f : α → α) (hf : ∀ r, key (f r) = key r) (h : k ≠ key r) :
    (t.upsert r f hf).get? k = t.get? k := by
  unfold upsert
  split
  · rw [get?_modify, if_neg h]
  · exact get?_insert_ne (Ne.symm h)

theorem get?_deleteWhere (p : α → Bool) :
    (t.deleteWhere p).get? k = (t.get? k).filter fun r => !p r := by
  cases h : t.get? k with
  | none =>
    rw [Option.filter_none, get?_eq_none]
    exact fun r hr => get?_eq_none.1 h r (List.mem_filter.1 hr).1
  | some x =>
    obtain ⟨hx, rfl⟩ := get?_eq_some.1 h
    cases hp : p x with
    | true =>
      simp only [Option.filter_some, hp, Bool.not_true, Bool.false_eq_true, if_false]
      refine get?_eq_none.2 fun r hr hk => ?_
      obtain ⟨hr, hpr⟩ := List.mem_filter.1 hr
      rw [eq_of_key hr hx hk, hp] at hpr
      cases hpr
    | false =>
      simp only [Option.filter_some, hp, Bool.not_false, if_true]
      exact get?_eq_some.2 ⟨List.mem_filter.2 ⟨hx, by rw [hp]; rfl⟩, rfl⟩

theorem get?_delete {k' : κ} : (t.delete k').get? k = if k = k' then none else t.get? k := by
  split
  · next hk =>
    subst hk
    exact get?_eq_none.2 fun r hr => by simpa using (List.mem_filter.1 hr).2
  · next hk =>
    cases h : t.get? k with
    | none => exact get?_eq_none.2 fun r hr => get?_eq_none.1 h r (List.mem_filter.1 hr).1
    | some x =>
      obtain ⟨hx, rfl⟩ := get?_eq_some.1 h
      exact get?_eq_some.2 ⟨List.mem_filter.2 ⟨hx, by simpa using hk⟩, rfl⟩

theorem find?_modify (f : α → α) (hf : ∀ r, key (f r) = key r) {q : α → Bool}
    (hq : ∀ r, q (f r) = q r) :
    (t.modify k f hf).rows.find? q =
      (t.rows.find? q).map fun r => if key r = k then f r else r := by
  rw [modify, find?_modifyWhere f hf hq]
  simp only [decide_eq_true_eq]

end

/-- A bound of the keys that are used. -/
theorem exists_above {key : α → Nat} (t : Table key) : ∃ n, ∀ r ∈ t.rows, key r < n := by
  induction t.rows with
  | nil => exact ⟨0, nofun⟩
  | cons r rs ih =>
    obtain ⟨n, hn⟩ := ih
    refine ⟨n + key r + 1, fun x hx => ?_⟩
    rcases List.mem_cons.1 hx with rfl | hx
    · omega
    · have := hn x hx
      omega

end Table

end Txn
