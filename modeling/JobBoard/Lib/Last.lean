import JobBoard.Lib.Sound

/-!
# The last call

In a run whose calls do not overlap, only the call started last moves the
database. What its program ensures when nobody interferes (`Answers`) holds in
the state in which it returns or fails, until another call starts:
`System.Reach.ends`.
-/

set_option autoImplicit false

namespace Txn

open Prog

variable {D W K ε α Op : Type}

/-- Nobody interferes with the calls of the runs `R`. -/
def System.rulesAlone (Y : System D W K ε α Op) (R : Runs D W Op) (op : Op) : Rules D W K ε :=
  ⟨fun _ d d' => d' = d, fun e => Y.isFault e = true, fun d ws => R.adm op d ws = true⟩

/-- What is known of the last call at the database `d`: it answers with `Q`, or
throws with `E`. -/
def Call.Last (S : Store D W K) (L : Rules D W K ε) (Q : D → α → Prop) (E : D → ε → Prop) (d : D) :
    Call D W ε α → Prop
  | .idle => False
  | .run none p => ∃ c, Answers S L (fun _ e d => E d e) p (fun σ d a => σ.tx = none ∧ Q d a)
      ⟨none, c⟩ d
  | .run (some tx) p => ∃ c, ∃ H : ε → D → Prop,
      (∀ e d', H e d' → Answers S L (fun _ e d => E d e) (tx.onError e)
        (fun σ d a => σ.tx = none ∧ Q d a) ⟨none, c⟩ d') ∧
      Answers S L (fun _ e d => E d e) p (fun σ d a => σ.tx = none ∧ Q d a)
        ⟨some (tx.pending, H), c⟩ d
  | .done (.ok a) => Q d a
  | .done (.error e) => E d e

section

variable [DecidableEq K] {Y : System D W K ε α Op} {R : Runs D W Op} {s s' : State D W ε α Op}
  {Q : D → α → Prop} {E : D → ε → Prop} {i : Nat} {op : Op}

theorem System.stepCall_last {tx : Option (OpenTx D W ε α)} {p : Prog D W ε α}
    (hi : s.ops[i]? = some op) (hcall : s.call i = .run tx p)
    (hadm : Y.admits R s (.step i) = true) (hn : Y.stepCall s i tx p = some s')
    (h : (s.call i).Last Y.store (Y.rulesAlone R op) Q E s.db) :
    (s'.call i).Last Y.store (Y.rulesAlone R op) Q E s'.db := by
  rw [hcall] at h
  cases p with
  | ret a =>
    cases tx with
    | none =>
      cases hn
      obtain ⟨c, -, h⟩ := h
      rw [State.set_self]
      exact h
    | some tx => cases hn
  | throw e =>
    cases tx with
    | none =>
      cases hn
      obtain ⟨c, h⟩ := h
      rw [State.set_self]
      exact h
    | some tx =>
      cases hn
      obtain ⟨c, H, hH, h⟩ := h
      rw [State.set_self]
      exact ⟨c, hH e s.db h⟩
  | stmt w k =>
    simp only [System.admits, hi, hcall] at hadm
    cases tx with
    | none =>
      simp only [System.stepCall] at hn
      split at hn
      · cases hn
        obtain ⟨c, h⟩ := h
        rw [State.set_self, State.set_db, State.autocommit_db]
        exact ⟨c, ((h s.db rfl).2 hadm).2⟩
      · cases hn
    | some tx =>
      simp only [System.stepCall] at hn
      split at hn
      · cases hn
        obtain ⟨c, H, hH, h⟩ := h
        rw [State.set_self]
        exact ⟨c, H, hH, (h s.db rfl).2 hadm⟩
      · cases hn
  | aside w k =>
    have hs' : s' = (s.autocommit Y.store i (w s.db)).set i (.run tx (k s.db)) := by
      cases tx <;> simp only [System.stepCall] at hn <;> split at hn <;> simp_all
    subst hs'
    rw [State.set_self, State.set_db, State.autocommit_db]
    cases tx with
    | none =>
      obtain ⟨c, h⟩ := h
      exact ⟨c, (h s.db rfl).2.2⟩
    | some tx =>
      obtain ⟨c, H, hH, h⟩ := h
      exact ⟨c, H, hH, (h s.db rfl).2.2⟩
  | openTx hd k =>
    cases tx with
    | none =>
      cases hn
      obtain ⟨c, -, h⟩ := h
      rw [State.set_self]
      exact ⟨c, _, fun _ _ h => h, (h s.db rfl).2⟩
    | some tx => cases hn
  | commit k =>
    cases tx with
    | none =>
      cases hn
      obtain ⟨c, h⟩ := h
      rw [State.set_self]
      exact ⟨c, (h s.db rfl).2⟩
    | some tx =>
      cases hn
      obtain ⟨c, H, -, h⟩ := h
      rw [State.set_self]
      exact ⟨_, (h s.db rfl).2.2⟩

omit [DecidableEq K] in
theorem System.faultCall_last {tx : Option (OpenTx D W ε α)} {p : Prog D W ε α} {e : ε}
    (he : Y.isFault e = true) (hcall : s.call i = .run tx p)
    (hn : Y.faultCall s i e tx p = some s')
    (h : (s.call i).Last Y.store (Y.rulesAlone R op) Q E s.db) :
    (s'.call i).Last Y.store (Y.rulesAlone R op) Q E s'.db := by
  rw [hcall] at h
  cases tx with
  | none =>
    obtain ⟨c, h⟩ := h
    have key : s' = s.set i (.run none (.throw e)) ∧ E s.db e := by
      cases p with
      | ret a => cases hn
      | throw e' => cases hn
      | stmt w k =>
        cases hn
        exact ⟨rfl, (h s.db rfl).1 e he⟩
      | aside w k =>
        cases hn
        exact ⟨rfl, (h s.db rfl).1 e he⟩
      | openTx hd k =>
        cases hn
        exact ⟨rfl, (h.2 s.db rfl).1 e he⟩
      | commit k =>
        cases hn
        exact ⟨rfl, (h s.db rfl).1 e he⟩
    obtain ⟨rfl, hE⟩ := key
    rw [State.set_self]
    exact ⟨c, hE⟩
  | some tx =>
    obtain ⟨c, H, hH, h⟩ := h
    have key : s' = s.set i (.run none (tx.onError e)) ∧ H e s.db := by
      cases p with
      | ret a => cases hn
      | throw e' => cases hn
      | stmt w k =>
        cases hn
        exact ⟨rfl, (h s.db rfl).1 e he⟩
      | aside w k =>
        cases hn
        exact ⟨rfl, (h s.db rfl).1 e he⟩
      | openTx hd k => exact absurd h.1 (by simp)
      | commit k =>
        cases hn
        exact ⟨rfl, (h s.db rfl).1 e he⟩
    obtain ⟨rfl, hH'⟩ := key
    rw [State.set_self]
    exact ⟨c, hH e s.db hH'⟩

end

/-! ## Runs -/

section

variable [DecidableEq K] {Y : System D W K ε α Op} {R : Runs D W Op} {d₀ : D}
  {s s' : State D W ε α Op} {i : Nat} {tx : Option (OpenTx D W ε α)} {p : Prog D W ε α}

/-- Calls are started one after the other, and only the last one may be running. -/
structure State.OnlyLast (s : State D W ε α Op) : Prop where
  idle : ∀ j, s.ops.length ≤ j → s.call j = .idle
  running : ∀ j, (s.call j).isRunning = true → s.ops.length = j + 1

theorem State.OnlyLast.frame (h : s.OnlyLast) (hi : (s.call i).isRunning = true)
    (hs : s.Frame i s') : s'.OnlyLast := by
  have hlen := h.running i hi
  constructor
  · intro j hj
    rw [hs.ops] at hj
    rw [hs.call j (by omega)]
    exact h.idle j hj
  · intro j hj
    rw [hs.ops]
    by_cases e : j = i
    · rw [e]
      exact hlen
    · rw [hs.call j e] at hj
      exact h.running j hj

theorem System.Reach.onlyLast (hserial : R.serial = true) (h : Y.Reach R d₀ s) : s.OnlyLast := by
  induction h with
  | init => exact ⟨fun _ _ => rfl, fun _ h => by cases h⟩
  | @step s s' l _ hadm hn ih =>
    cases l with
    | spawn op =>
      cases hn
      simp only [System.admits, hserial, Bool.not_true, Bool.false_or, Bool.and_eq_true,
        List.all_eq_true, List.mem_range, Bool.not_eq_true'] at hadm
      constructor
      · intro j hj
        simp only [State.set_ops, List.length_append, List.length_singleton] at hj
        rw [State.set_other (by omega)]
        exact ih.idle j (by omega)
      · intro j hj
        simp only [State.set_ops, List.length_append, List.length_singleton]
        by_cases e : j = s.ops.length
        · rw [e]
        · rw [State.set_other e] at hj
          have hlt := ih.running j hj
          rw [hadm.2 j (by omega)] at hj
          cases hj
    | step i =>
      simp only [System.next] at hn
      split at hn
      · next tx p hcall => exact ih.frame (by rw [hcall]; rfl) (System.stepCall_frame hn)
      · cases hn
    | fault i e =>
      simp only [System.next] at hn
      split at hn
      · next tx p hcall =>
        split at hn
        · exact ih.frame (by rw [hcall]; rfl) (System.faultCall_frame hn)
        · cases hn
      · cases hn

/-- The last call of a run without overlaps ends as its program does when it is
run alone from a database of the run. -/
theorem System.Reach.ends {Q : Nat → Op → D → α → Prop} {E : Nat → Op → D → ε → Prop}
    (hserial : R.serial = true)
    (hprog : ∀ {t : State D W ε α Op} {i op}, Y.Reach R d₀ t → R.ops t.db op = true →
      Answers Y.store (Y.rulesAlone R op) (fun _ e d => E i op d e) (Y.prog i op)
        (fun σ d a => σ.tx = none ∧ Q i op d a) ⟨none, []⟩ t.db)
    (h : Y.Reach R d₀ s) {i : Nat} {op : Op} (hlen : s.ops.length = i + 1)
    (hop : s.ops[i]? = some op) :
    (s.call i).Last Y.store (Y.rulesAlone R op) (Q i op) (E i op) s.db := by
  induction h generalizing i op with
  | init => cases hlen
  | @step s s' l hr hadm hn ih =>
    have hlast := hr.onlyLast hserial
    cases l with
    | spawn op' =>
      cases hn
      simp only [State.set_ops, List.length_append, List.length_singleton] at hlen
      have hi : i = s.ops.length := by omega
      subst hi
      simp only [State.set_ops, List.getElem?_concat_length, Option.some.injEq] at hop
      simp only [System.admits, Bool.and_eq_true] at hadm
      rw [State.set_self, ← hop]
      exact ⟨[], hprog (t := s) hr hadm.1⟩
    | step j =>
      simp only [System.next] at hn
      split at hn
      · next tx p hcall =>
        have hops := (System.stepCall_frame hn).ops
        rw [hops] at hlen hop
        have hj := hlast.running j (by rw [hcall]; rfl)
        have hij : j = i := by omega
        subst hij
        exact System.stepCall_last hop hcall hadm hn (ih hlen hop)
      · cases hn
    | fault j e =>
      simp only [System.next] at hn
      split at hn
      · next tx p hcall =>
        split at hn
        · next he =>
          have hops := (System.faultCall_frame hn).ops
          rw [hops] at hlen hop
          have hj := hlast.running j (by rw [hcall]; rfl)
          have hij : j = i := by omega
          subst hij
          exact System.faultCall_last he hcall hn (ih hlen hop)
        · cases hn
      · cases hn

/-- The same of its answer alone. -/
theorem System.Reach.last {Q : Nat → Op → D → α → Prop} (hserial : R.serial = true)
    (hprog : ∀ {t : State D W ε α Op} {i op}, Y.Reach R d₀ t → R.ops t.db op = true →
      Answers Y.store (Y.rulesAlone R op) (fun _ _ _ => True) (Y.prog i op)
        (fun σ d a => σ.tx = none ∧ Q i op d a) ⟨none, []⟩ t.db)
    (h : Y.Reach R d₀ s) {i : Nat} {op : Op} (hlen : s.ops.length = i + 1)
    (hop : s.ops[i]? = some op) :
    (s.call i).Last Y.store (Y.rulesAlone R op) (Q i op) (fun _ _ => True) s.db :=
  h.ends (E := fun _ _ _ _ => True) hserial hprog hlen hop

end

end Txn
