import JobBoard.Lib.Removal
import JobBoard.Lib.Solo

/-!
# Calls that nobody interrupts

`p.exec S none d` is the database that a program leaves, started on `d`, and its result or
error, when nobody interferes and nothing fails. Unlike `solo` it also runs transactions, and
the handlers of those that are rolled back. `System.Ends.of_exec`: the steps of the system lead
there.
-/

set_option autoImplicit false

namespace Txn

variable {D W K ε α β Op : Type}

/-- The writes of the open transaction, and how the call goes on after an error. -/
abbrev InTransaction (D W ε α : Type) := Option (List W × (ε → D → D × Except ε α))

namespace Prog

def exec (S : Store D W K) : Prog D W ε α → InTransaction D W ε α → D → D × Except ε α
  | ret a, _, d => (d, .ok a)
  | throw e, none, d => (d, .error e)
  | throw e, some (_, h), d => h e d
  | stmt w k, none, d => (k d).exec S none (S.applyAll d (w d))
  | stmt w k, some (ws, h), d =>
    (k (S.applyAll d ws)).exec S (some (ws ++ w (S.applyAll d ws), h)) d
  | aside w k, tx, d => (k d).exec S tx (S.applyAll d (w d))
  | openTx h k, _, d => k.exec S (some ([], fun e d' => (h e).exec S none d')) d
  | commit k, none, d => k.exec S none d
  | commit k, some (ws, _), d => k.exec S none (S.applyAll d ws)

/-- A transaction is opened where none is open, and closed before the end. -/
def Bracketed : Bool → Prog D W ε α → Prop
  | b, ret _ => b = false
  | _, throw _ => True
  | b, stmt _ k => ∀ d, (k d).Bracketed b
  | b, aside _ k => ∀ d, (k d).Bracketed b
  | b, openTx h k => b = false ∧ (∀ e, (h e).Bracketed false) ∧ k.Bracketed true
  | _, commit k => k.Bracketed false

section

variable {S : Store D W K} {St As : List W → Prop} {Er : ε → Prop} {d : D}

theorem Plain.bracketed_bind {p : Prog D W ε α} (hp : p.Plain St As Er) {f : α → Prog D W ε β}
    {b : Bool} (hf : ∀ a, (f a).Bracketed b) : (p >>= f).Bracketed b := by
  induction p with
  | ret a => exact hf a
  | throw e => trivial
  | stmt w k ih => exact fun d => ih d (hp d).2
  | aside w k ih => exact fun d => ih d (hp d).2
  | openTx h k => exact hp.elim
  | commit k => exact hp.elim

theorem Plain.bracketed {p : Prog D W ε α} (hp : p.Plain St As Er) : p.Bracketed false := by
  induction p with
  | ret a => rfl
  | throw e => trivial
  | stmt w k ih => exact fun d => ih d (hp d).2
  | aside w k ih => exact fun d => ih d (hp d).2
  | openTx h k => exact hp.elim
  | commit k => exact hp.elim

theorem bracketed_transaction {body : Prog D W ε β} (hbody : body.Plain St As Er)
    {h : ε → Prog D W ε α} {k : β → Prog D W ε α} (hh : ∀ e, (h e).Bracketed false)
    (hk : ∀ b, (k b).Bracketed false) : (transaction body h k).Bracketed false :=
  ⟨rfl, hh, hbody.bracketed_bind fun b => hk b⟩

theorem applyGroups_emit (ws : List W) (r : List (List W) × Except ε α) :
    S.applyGroups d (emit ws r).1 = S.applyGroups (S.applyAll d ws) r.1 := by
  cases ws <;> rfl

theorem emit_result (ws : List W) (r : List (List W) × Except ε α) : (emit ws r).2 = r.2 := by
  cases ws <;> rfl

theorem flatten_emit (ws : List W) (r : List (List W) × Except ε α) :
    (emit ws r).1.flatten = ws ++ r.1.flatten := by
  cases ws <;> rfl

/-- Outside a transaction a plain program leaves what it publishes. -/
theorem Plain.exec_bind {p : Prog D W ε α} (hp : p.Plain St As Er) (f : α → Prog D W ε β) :
    (p >>= f).exec S none d =
      match (p.solo S d).2 with
      | .ok a => (f a).exec S none (S.applyGroups d (p.solo S d).1)
      | .error e => (S.applyGroups d (p.solo S d).1, .error e) := by
  induction p generalizing d with
  | ret a => rfl
  | throw e => rfl
  | stmt w k ih =>
    rw [stmt_bind, exec, solo, applyGroups_emit, emit_result]
    exact ih d (hp d).2
  | aside w k ih =>
    rw [aside_bind, exec, solo, applyGroups_emit, emit_result]
    exact ih d (hp d).2
  | openTx h k => exact hp.elim
  | commit k => exact hp.elim

/-- Inside one it adds to the pending writes, and an error goes to the handler. -/
theorem Plain.exec_pending {p : Prog D W ε α} (hp : p.Plain St (fun _ => False) Er)
    (f : α → Prog D W ε β) (ws : List W) (h : ε → D → D × Except ε β) :
    (p >>= f).exec S (some (ws, h)) d =
      match (p.solo S (S.applyAll d ws)).2 with
      | .ok a => (f a).exec S (some (ws ++ (p.solo S (S.applyAll d ws)).1.flatten, h)) d
      | .error e => h e d := by
  induction p generalizing ws with
  | ret a =>
    simp only [ret_bind, solo, List.flatten_nil, List.append_nil]
  | throw e => rfl
  | stmt w k ih =>
    rw [stmt_bind, exec, solo, emit_result, flatten_emit, ← List.append_assoc, ih _ (hp _).2,
      Store.applyAll_append]
  | aside w k => exact (hp d).1.elim
  | openTx h k => exact hp.elim
  | commit k => exact hp.elim

/-- A read leaves nothing behind. -/
theorem exec_select_bind (f : D → β) (k : β → Prog D W ε α) :
    (select f >>= k).exec S none d = (k (f d)).exec S none d := rfl

theorem exec_transaction {body : Prog D W ε β} (hbody : body.Plain St (fun _ => False) Er)
    (h : ε → Prog D W ε α) (k : β → Prog D W ε α) :
    (transaction body h k).exec S none d =
      match (body.solo S d).2 with
      | .ok b => (k b).exec S none (S.applyGroups d (body.solo S d).1)
      | .error e => (h e).exec S none d := by
  have hpending := hbody.exec_pending (S := S) (d := d) (fun b => commit (k b)) []
    fun e d' => (h e).exec S none d'
  rw [transaction, exec, hpending, Store.applyAll_nil]
  cases (body.solo S d).2 with
  | ok b => simp only [List.nil_append, exec, Store.applyGroups_flatten]
  | error e => rfl

end

end Prog

/-! ## The steps of the system -/

open Prog

section

variable [DecidableEq K] (Y : System D W K ε α Op)

/-- After some steps of call `i` alone, the call has ended as `r` says. -/
def System.Ends (i : Nat) (s : State D W ε α Op) (r : D × Except ε α) : Prop :=
  ∃ n s', Y.runLabels .all s (List.replicate n (.step i)) = some s' ∧ s.Frame i s' ∧
    s'.db = r.1 ∧ s'.call i = .done r.2

variable {Y} {s s' : State D W ε α Op} {i : Nat} {r : D × Except ε α}

omit [DecidableEq K] in
theorem State.Frame.trans {s'' : State D W ε α Op} (h : s.Frame i s') (h' : s'.Frame i s'') :
    s.Frame i s'' := by
  obtain ⟨gs, hlog, hgs⟩ := h.log
  obtain ⟨gs', hlog', hgs'⟩ := h'.log
  refine ⟨h'.ops.trans h.ops, fun j hj => (h'.call j hj).trans (h.call j hj), gs ++ gs', ?_, ?_⟩
  · rw [hlog', hlog, List.append_assoc]
  · exact fun g hg => (List.mem_append.1 hg).elim (hgs g) (hgs' g)

theorem System.Ends.step {tx : Option (OpenTx D W ε α)} {p : Prog D W ε α}
    (hcall : s.call i = .run tx p) (hn : Y.stepCall s i tx p = some s') (h : Y.Ends i s' r) :
    Y.Ends i s r := by
  obtain ⟨n, s'', hrun, hframe, hdb, hdone⟩ := h
  refine ⟨n + 1, s'', ?_, (System.stepCall_frame hn).trans hframe, hdb, hdone⟩
  have hnext : Y.next s (.step i) = some s' := by
    simp only [System.next, hcall]
    exact hn
  rw [List.replicate_succ, System.runLabels, System.admits_all, if_pos rfl, hnext]
  exact hrun

/-- Nobody else holds a lock. -/
def State.AloneAt (S : Store D W K) (s : State D W ε α Op) (i : Nat) : Prop :=
  ∀ j, j ≠ i → (s.call j).held S = []

theorem State.AloneAt.free {S : Store D W K} (h : s.AloneAt S i) (ws : List W) :
    s.free S i ws = true := by
  refine List.all_eq_true.2 fun j _ => ?_
  by_cases hj : j = i
  · simp [hj]
  · simp [h j hj]

omit [DecidableEq K] in
theorem State.AloneAt.frame {S : Store D W K} (h : s.AloneAt S i) (hs : s.Frame i s') :
    s'.AloneAt S i := by
  intro j hj
  rw [hs.call j hj]
  exact h j hj

/-- How the rest of a call goes on after an error. -/
def OpenTx.exec (S : Store D W K) (tx : OpenTx D W ε α) : List W × (ε → D → D × Except ε α) :=
  (tx.pending, fun e d => (tx.onError e).exec S none d)

theorem System.Ends.of_exec (p : Prog D W ε α) :
    ∀ {s : State D W ε α Op} {tx : Option (OpenTx D W ε α)}, s.call i = .run tx p →
      s.AloneAt Y.store i → p.Bracketed tx.isSome →
        (∀ t, tx = some t → ∀ e s', s'.call i = .run none (t.onError e) → s'.AloneAt Y.store i →
          Y.Ends i s' ((t.onError e).exec Y.store none s'.db)) →
          Y.Ends i s (p.exec Y.store (tx.map (·.exec Y.store)) s.db) := by
  induction p with
  | ret a =>
    intro s tx hcall _ hp _
    cases tx with
    | none =>
      refine .step hcall rfl ⟨0, _, rfl, .refl _ _, rfl, ?_⟩
      exact State.set_self _ _
    | some tx => cases hp
  | throw e =>
    intro s tx hcall halone _ hh
    cases tx with
    | none =>
      refine .step hcall rfl ⟨0, _, rfl, .refl _ _, rfl, ?_⟩
      exact State.set_self _ _
    | some tx =>
      have hn : Y.stepCall s i (some tx) (.throw e) = some (s.set i (.run none (tx.onError e))) := rfl
      exact .step hcall hn (hh tx rfl e _ (State.set_self _ _)
        (halone.frame (System.stepCall_frame hn)))
  | stmt w k ih =>
    intro s tx hcall halone hp hh
    cases tx with
    | none =>
      have hn : Y.stepCall s i none (.stmt w k) =
          some ((s.autocommit Y.store i (w s.db)).set i (.run none (k s.db))) := by
        simp only [System.stepCall, halone.free, if_true]
      have hend := ih s.db (State.set_self i _) (halone.frame (System.stepCall_frame hn))
        (hp s.db) (fun t ht => by cases ht)
      rw [State.set_db, State.autocommit_db] at hend
      exact .step hcall hn hend
    | some tx =>
      have hn : Y.stepCall s i (some tx) (.stmt w k) = some (s.set i (.run
          (some ⟨tx.pending ++ w (Y.store.applyAll s.db tx.pending), tx.onError⟩)
            (k (Y.store.applyAll s.db tx.pending)))) := by
        simp only [System.stepCall, halone.free, if_true]
      have hend := ih _ (State.set_self i _) (halone.frame (System.stepCall_frame hn)) (hp _)
        (fun t ht => by cases ht; exact hh tx rfl)
      exact .step hcall hn hend
  | aside w k ih =>
    intro s tx hcall halone hp hh
    have hn : Y.stepCall s i tx (.aside w k) =
        some ((s.autocommit Y.store i (w s.db)).set i (.run tx (k s.db))) := by
      cases tx <;> simp only [System.stepCall, halone.free, if_true]
    have hend := ih s.db (State.set_self i _) (halone.frame (System.stepCall_frame hn)) (hp s.db) hh
    rw [State.set_db, State.autocommit_db] at hend
    exact .step hcall hn hend
  | openTx h k ihh ihk =>
    intro s tx hcall halone hp _
    obtain ⟨htx, hhandler, hk⟩ := hp
    cases tx with
    | none =>
      have hn : Y.stepCall s i none (.openTx h k) = some (s.set i (.run (some ⟨[], h⟩) k)) := rfl
      have hend := ihk (State.set_self i _) (halone.frame (System.stepCall_frame hn)) hk
        (fun t ht e s' hcall' halone' => by
          cases ht
          exact ihh e hcall' halone' (hhandler e) fun t ht => by cases ht)
      exact .step hcall hn hend
    | some tx => cases htx
  | commit k ih =>
    intro s tx hcall halone hp _
    cases tx with
    | none =>
      have hn : Y.stepCall s i none (.commit k) = some (s.set i (.run none k)) := rfl
      exact .step hcall hn (ih (State.set_self i _) (halone.frame (System.stepCall_frame hn)) hp
        fun t ht => by cases ht)
    | some tx =>
      have hn : Y.stepCall s i (some tx) (.commit k) =
          some ((s.publish Y.store i true tx.pending).set i (.run none k)) := rfl
      exact .step hcall hn (ih (State.set_self i _) (halone.frame (System.stepCall_frame hn)) hp
        fun t ht => by cases ht)

omit [DecidableEq K] in
/-- A call that is started when no other runs is alone. -/
theorem State.Idle.aloneAt_spawn {S : Store D W K} (hidle : s.Idle) {op : Op}
    {p : Prog D W ε α} :
    (State.set { s with ops := s.ops ++ [op] } s.ops.length (.run none p)).AloneAt S
      s.ops.length := by
  intro j hj
  have hrest := hidle j
  rw [State.set_other hj]
  cases hc : s.call j with
  | run tx p => rw [hc] at hrest; cases hrest
  | idle => rfl
  | done r => rfl

/-- A call that is started when no other runs can end as `exec` says. -/
theorem System.Reach.exec {d : D} (h : Y.Reachable d s) (hidle : s.Idle) {op : Op}
    (hop : (Y.prog s.ops.length op).Bracketed false) :
    ∃ s', Y.Reachable d s' ∧ s'.ops = s.ops ++ [op] ∧
      s'.db = ((Y.prog s.ops.length op).exec Y.store none s.db).1 ∧
      s'.call s.ops.length = .done ((Y.prog s.ops.length op).exec Y.store none s.db).2 := by
  let s₁ : State D W ε α Op :=
    State.set { s with ops := s.ops ++ [op] } s.ops.length (.run none (Y.prog s.ops.length op))
  have halone : s₁.AloneAt Y.store s.ops.length := hidle.aloneAt_spawn
  obtain ⟨n, s', hrun, hframe, hdb, hdone⟩ := System.Ends.of_exec (Y := Y) _
    (State.set_self s.ops.length _ : s₁.call s.ops.length = _) halone hop fun t ht => by cases ht
  refine ⟨s', System.runLabels_reach ?_ hrun, hframe.ops, hdb, hdone⟩
  exact .step (.spawn op) h (System.admits_all s _) rfl

end

end Txn
