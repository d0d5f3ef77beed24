import JobBoard.Lib.History
import JobBoard.Lib.Leaves

/-!
# What holds whenever no call runs

For calls that run one at a time. `p.settles S adm P Q tx d`: the rest `p` of a call, from the
committed database `d`, returns in `Q` or ends in `P`, where the writes of its statements outside
transactions are admitted by `adm`, and a statement fails only where `P` holds.
`System.Within.settled` is the rule.
-/

set_option autoImplicit false

namespace Txn

variable {D W K ε α β Op : Type}

/-- The writes of the open transaction, and what holds where an error leaves it. -/
abbrev Uncommitted (D W ε : Type) := Option (List W × (ε → D → Prop))

/-- The same writes, and no more asked of the database that an error leaves. -/
inductive Uncommitted.Le : Uncommitted D W ε → Uncommitted D W ε → Prop where
  | none : Le none none
  | some {ws h h'} (hh : ∀ e d, h e d → h' e d) : Le (some (ws, h)) (some (ws, h'))

namespace Prog

section

variable (S : Store D W K) (adm : D → List W → Prop) (P : D → Prop) (Q : D → α → Prop)

def settles : Prog D W ε α → Uncommitted D W ε → D → Prop
  | ret a, tx, d => tx = none ∧ Q d a
  | throw _, none, d => P d
  | throw e, some (_, h), d => h e d
  | stmt w k, none, d => adm d (w d) → (k d).settles none (S.applyAll d (w d))
  | stmt w k, some (ws, h), d =>
    (k (S.applyAll d ws)).settles (some (ws ++ w (S.applyAll d ws), h)) d
  | aside w k, none, d => adm d (w d) → (k d).settles none (S.applyAll d (w d))
  | aside w k, some tx, d => (k d).settles (some tx) (S.applyAll d (w d))
  | openTx h k, tx, d => tx = none ∧ (∀ e d', P d' → (h e).settles none d') ∧
    k.settles (some ([], fun e d' => (h e).settles none d')) d
  | commit k, none, d => k.settles none d
  | commit k, some (ws, _), d => k.settles none (S.applyAll d ws)

end

section

variable {S : Store D W K} {adm : D → List W → Prop} {P : D → Prop} {Q Q' : D → α → Prop} {d : D}
  {St As : List W → Prop} {Er : ε → Prop}

theorem settles_bind_tx {R : D → β → Prop} {p : Prog D W ε α} {f : α → Prog D W ε β}
    (hf : ∀ d a, Q d a → (f a).settles S adm P R none d) {tx tx' : Uncommitted D W ε}
    (htx : Uncommitted.Le tx tx') (h : p.settles S adm P Q tx d) :
    (p >>= f).settles S adm P R tx' d := by
  induction p generalizing d tx tx' with
  | ret a =>
    obtain ⟨rfl, hQ⟩ := h
    cases htx
    exact hf d a hQ
  | throw e =>
    cases htx with
    | none => exact h
    | some hh => exact hh e d h
  | stmt w k ih =>
    cases htx with
    | none => exact fun hadm => ih d .none (h hadm)
    | some hh => exact ih _ (.some hh) h
  | aside w k ih =>
    cases htx with
    | none => exact fun hadm => ih d .none (h hadm)
    | some hh => exact ih d (.some hh) h
  | openTx hd k ihh ihk =>
    obtain ⟨rfl, hhd, hk⟩ := h
    cases htx
    refine ⟨rfl, fun e d' hd' => ihh e .none (hhd e d' hd'), ihk (.some fun e d' he => ?_) hk⟩
    exact ihh e .none he
  | commit k ih =>
    cases htx with
    | none => exact ih .none h
    | some hh => exact ih .none h

theorem settles_bind {R : D → β → Prop} {p : Prog D W ε α} {f : α → Prog D W ε β}
    (h : p.settles S adm P Q none d) (hf : ∀ d a, Q d a → (f a).settles S adm P R none d) :
    (p >>= f).settles S adm P R none d := settles_bind_tx hf .none h

theorem settles_select {R : D → β → Prop} {g : D → α} {f : α → Prog D W ε β}
    (h : (f (g d)).settles S adm P R none d) : (select g >>= f).settles S adm P R none d :=
  fun _ => h

/-- A plain piece, from what it leaves when nothing interrupts it. -/
theorem Plain.settles {p : Prog D W ε α} (hp : p.Plain St As Er)
    (h : p.leaves S d (fun d' _ => P d') Q) : p.settles S adm P Q none d := by
  induction p generalizing d with
  | ret a => exact ⟨rfl, h⟩
  | throw e => exact h
  | stmt w k ih => exact fun _ => ih d (hp d).2 (leaves_stmt.1 h)
  | aside w k ih => exact fun _ => ih d (hp d).2 (leaves_aside.1 h)
  | openTx h k => exact hp.elim
  | commit k => exact hp.elim

/-- A plain piece whose statements keep `P` where they are admitted. -/
theorem Plain.settles_keeps {p : Prog D W ε α} (hp : p.Plain St As Er)
    (hst : ∀ ws d, St ws → adm d ws → P d → P (S.applyAll d ws))
    (has : ∀ ws d, As ws → adm d ws → P d → P (S.applyAll d ws)) (h : P d) :
    p.settles S adm P (fun d _ => P d) none d := by
  induction p generalizing d with
  | ret a => exact ⟨rfl, h⟩
  | throw e => exact h
  | stmt w k ih => exact fun hadm => ih d (hp d).2 (hst _ d (hp d).1 hadm h)
  | aside w k ih => exact fun hadm => ih d (hp d).2 (has _ d (hp d).1 hadm h)
  | openTx h k => exact hp.elim
  | commit k => exact hp.elim

/-- The pieces of a transaction. -/
theorem Plain.settles_pending {R : D → β → Prop} {p : Prog D W ε α}
    (hp : p.Plain St (fun _ => False) Er) {f : α → Prog D W ε β} {ws : List W}
    {h : ε → D → Prop}
    (hk : match (p.solo S (S.applyAll d ws)).2 with
      | .ok a => (f a).settles S adm P R
        (some (ws ++ (p.solo S (S.applyAll d ws)).1.flatten, h)) d
      | .error e => h e d) : (p >>= f).settles S adm P R (some (ws, h)) d := by
  induction p generalizing ws with
  | ret a =>
    rw [solo_ret] at hk
    simpa only [ret_bind, List.flatten_nil, List.append_nil] using hk
  | throw e => exact hk
  | stmt w k ih =>
    refine ih _ (hp _).2 ?_
    rw [solo] at hk
    rw [Store.applyAll_append, List.append_assoc]
    cases hw : w (S.applyAll d ws) with
    | nil =>
      rw [hw] at hk
      exact hk
    | cons x xs =>
      rw [hw] at hk
      simpa only [emit, List.flatten_cons] using hk
  | aside w k => exact (hp d).1.elim
  | openTx h k => exact hp.elim
  | commit k => exact hp.elim

/-- A transaction: all of its writes, or the handler. -/
theorem settles_transaction {body : Prog D W ε β} (hbody : body.Plain St (fun _ => False) Er)
    {h : ε → Prog D W ε α} {k : β → Prog D W ε α}
    (hh : ∀ e d', P d' → (h e).settles S adm P Q none d')
    (hleaves : body.leaves S d (fun _ e => (h e).settles S adm P Q none d)
      fun d' c => (k c).settles S adm P Q none d') :
    (transaction body h k).settles S adm P Q none d := by
  refine ⟨rfl, hh, hbody.settles_pending ?_⟩
  unfold leaves at hleaves
  rw [Store.applyAll_nil]
  cases hr : (body.solo S d).2 with
  | error e =>
    rw [hr] at hleaves
    exact hleaves
  | ok c =>
    rw [hr] at hleaves
    show (k c).settles S adm P Q none (S.applyAll d ([] ++ (body.solo S d).1.flatten))
    rw [List.nil_append, Store.applyGroups_flatten]
    exact hleaves

end

end Prog

/-! ## The rule -/

section

variable {S : Store D W K} (adm : D → List W → Prop) (P : D → Prop)

/-- What holds of the rest of a call. -/
structure Call.Settles (S : Store D W K) (adm : D → List W → Prop) (P : D → Prop) (d : D)
    (tx : Option (OpenTx D W ε α)) (p : Prog D W ε α) : Prop where
  ends : p.settles S adm P (fun d _ => P d) (tx.map fun t => (t.pending, fun e d' =>
    (t.onError e).settles S adm P (fun d _ => P d) none d')) d
  handles : ∀ t, tx = some t → ∀ e d', P d' →
    (t.onError e).settles S adm P (fun d _ => P d) none d'

/-- At most one call runs, and it will end in `P`. -/
def State.Settling (S : Store D W K) (adm : D → List W → Prop) (P : D → Prop)
    (s : State D W ε α Op) : Prop :=
  (s.Idle ∧ P s.db) ∨ ∃ i tx p, s.call i = .run tx p ∧ (∀ j, j ≠ i → (s.call j).isRunning = false) ∧
    Call.Settles S adm P s.db tx p

end

section

variable [DecidableEq K] {Y : System D W K ε α Op} {ok : State D W ε α Op → Label ε Op → Prop}
  {adm : D → List W → Prop} {P : D → Prop} {d₀ : D} {s s' : State D W ε α Op}

/-- The condition `ok` of a run is enough for the invariant `P`. -/
structure Settled (Y : System D W K ε α Op) (ok : State D W ε α Op → Label ε Op → Prop)
    (adm : D → List W → Prop) (P : D → Prop) : Prop where
  alone : ∀ {s op}, ok s (.spawn op) → s.Idle
  admits : ∀ {s i}, ok s (.step i) → adm s.db (s.issues i)
  fails : ∀ {s i e}, ok s (.fault i e) → P s.db
  prog : ∀ i op d, P d → (Y.prog i op).settles Y.store adm P (fun d _ => P d) none d

omit [DecidableEq K] in
theorem State.settling_run {i : Nat} {d : D} {tx : Option (OpenTx D W ε α)} {p : Prog D W ε α}
    (hothers : ∀ j, j ≠ i → (s.call j).isRunning = false) {S : Store D W K}
    (hdb : s.db = d) (h : Call.Settles S adm P d tx p) : (s.set i (.run tx p)).Settling S adm P := by
  refine .inr ⟨i, tx, p, State.set_self i _, fun j hj => ?_, ?_⟩
  · rw [State.set_other hj]
    exact hothers j hj
  · rw [State.set_db, hdb]
    exact h

omit [DecidableEq K] in
theorem State.settling_done {i : Nat} {r : Except ε α} {S : Store D W K}
    (hothers : ∀ j, j ≠ i → (s.call j).isRunning = false) (h : P s.db) :
    (s.set i (.done r)).Settling S adm P := by
  refine .inl ⟨fun j => ?_, by rwa [State.set_db]⟩
  by_cases hj : j = i
  · subst hj
    rw [State.set_self]
    rfl
  · rw [State.set_other hj]
    exact hothers j hj

theorem System.stepCall_settling {i : Nat} {tx : Option (OpenTx D W ε α)} {p : Prog D W ε α}
    (hcall : s.call i = .run tx p) (hothers : ∀ j, j ≠ i → (s.call j).isRunning = false)
    (hadm : adm s.db (s.issues i)) (h : Call.Settles Y.store adm P s.db tx p)
    (hn : Y.stepCall s i tx p = some s') : s'.Settling Y.store adm P := by
  have hauto : ∀ ws j, j ≠ i → ((s.autocommit Y.store i ws).call j).isRunning = false := by
    intro ws j hj
    rw [State.autocommit_call]
    exact hothers j hj
  obtain ⟨hends, hhandles⟩ := h
  cases tx with
  | none =>
    cases p with
    | ret a =>
      cases hn
      exact State.settling_done hothers hends.2
    | throw e =>
      cases hn
      exact State.settling_done hothers hends
    | stmt w k =>
      simp only [System.stepCall] at hn
      split at hn
      · cases hn
        have hissues : s.issues i = w s.db := by
          unfold State.issues
          rw [hcall]
        rw [hissues] at hadm
        exact State.settling_run (hauto _) (State.autocommit_db ..) ⟨hends hadm, fun t ht => by cases ht⟩
      · cases hn
    | aside w k =>
      simp only [System.stepCall] at hn
      split at hn
      · cases hn
        have hissues : s.issues i = w s.db := by
          unfold State.issues
          rw [hcall]
        rw [hissues] at hadm
        exact State.settling_run (hauto _) (State.autocommit_db ..) ⟨hends hadm, fun t ht => by cases ht⟩
      · cases hn
    | openTx hd k =>
      cases hn
      obtain ⟨-, hh, hk⟩ := hends
      refine State.settling_run hothers rfl ⟨hk, fun t ht e d' hd' => ?_⟩
      cases ht
      exact hh e d' hd'
    | commit k =>
      cases hn
      exact State.settling_run hothers rfl ⟨hends, fun t ht => by cases ht⟩
  | some tx =>
    cases p with
    | ret a => cases hn
    | throw e =>
      cases hn
      exact State.settling_run hothers rfl ⟨hends, fun t ht => by cases ht⟩
    | stmt w k =>
      simp only [System.stepCall] at hn
      split at hn
      · cases hn
        refine State.settling_run hothers rfl ⟨hends, fun t ht e d' hd' => ?_⟩
        cases ht
        exact hhandles tx rfl e d' hd'
      · cases hn
    | aside w k =>
      simp only [System.stepCall] at hn
      split at hn
      · cases hn
        exact State.settling_run (hauto _) (State.autocommit_db ..) ⟨hends, hhandles⟩
      · cases hn
    | openTx hd k => cases hn
    | commit k =>
      cases hn
      exact State.settling_run (s := s.publish Y.store i true tx.pending) hothers rfl
        ⟨hends, fun t ht => by cases ht⟩

omit [DecidableEq K] in
theorem System.faultCall_settling {i : Nat} {e : ε} {tx : Option (OpenTx D W ε α)}
    {p : Prog D W ε α} (hothers : ∀ j, j ≠ i → (s.call j).isRunning = false) (hP : P s.db)
    (h : Call.Settles Y.store adm P s.db tx p) (hn : Y.faultCall s i e tx p = some s') :
    s'.Settling Y.store adm P := by
  cases tx with
  | none =>
    cases p <;> cases hn
    all_goals exact State.settling_run hothers rfl ⟨hP, fun t ht => by cases ht⟩
  | some tx =>
    cases p <;> cases hn
    all_goals exact State.settling_run hothers rfl ⟨h.handles tx rfl e _ hP, fun t ht => by cases ht⟩

theorem System.Within.settling (hY : Settled Y ok adm P) (h₀ : P d₀) (h : Y.Within ok d₀ s) :
    s.Settling Y.store adm P := by
  induction h with
  | init => exact .inl ⟨fun _ => rfl, h₀⟩
  | @step s s' l hw hok hn ih =>
    cases l with
    | spawn op =>
      cases hn
      have hidle : s.Idle := hY.alone hok
      have hP : P s.db := by
        rcases ih with ⟨-, hP⟩ | ⟨i, tx, p, hcall, -⟩
        · exact hP
        · have hrun := hidle i
          rw [hcall] at hrun
          cases hrun
      exact State.settling_run (s := { s with ops := s.ops ++ [op] }) (fun j _ => hidle j) rfl
        ⟨hY.prog _ op s.db hP, fun t ht => by cases ht⟩
    | step i =>
      simp only [System.next] at hn
      split at hn
      · next tx p hcall =>
        rcases ih with ⟨hidle, -⟩ | ⟨j, tx', p', hcall', hothers, hsettles⟩
        · have hrun := hidle i
          rw [hcall] at hrun
          cases hrun
        · have hij : i = j := by
            by_contra hne
            have hrun := hothers i hne
            rw [hcall] at hrun
            cases hrun
          subst hij
          rw [hcall] at hcall'
          cases hcall'
          exact System.stepCall_settling hcall hothers (hY.admits hok) hsettles hn
      · cases hn
    | fault i e =>
      simp only [System.next] at hn
      split at hn
      · next tx p hcall =>
        split at hn
        · rcases ih with ⟨hidle, -⟩ | ⟨j, tx', p', hcall', hothers, hsettles⟩
          · have hrun := hidle i
            rw [hcall] at hrun
            cases hrun
          · have hij : i = j := by
              by_contra hne
              have hrun := hothers i hne
              rw [hcall] at hrun
              cases hrun
            subst hij
            rw [hcall] at hcall'
            cases hcall'
            exact System.faultCall_settling hothers (hY.fails hok) hsettles hn
        · cases hn
      · cases hn

/-- Whenever no call runs, `P` holds. -/
theorem System.Within.settled (hY : Settled Y ok adm P) (h₀ : P d₀) (h : Y.Within ok d₀ s)
    (hidle : s.Idle) : P s.db := by
  rcases h.settling hY h₀ with ⟨-, hP⟩ | ⟨i, tx, p, hcall, -⟩
  · exact hP
  · have hrun := hidle i
    rw [hcall] at hrun
    cases hrun

end

end Txn
