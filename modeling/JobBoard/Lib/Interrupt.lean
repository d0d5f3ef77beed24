import JobBoard.Lib.Exec

/-!
# Calls that fail on the way

`p.interrupted S n d`: the program runs from `d`, nobody interferes, and its statement number `n`
fails without effect (the first one is number 0). It is for programs that open no transaction.
`System.Reach.interrupted`: the system has such runs.
-/

set_option autoImplicit false

namespace Txn

variable {D D' W W' K K' ε α β Op : Type}

/-- How a program ends: where it returns, it has run `n - left` statements. -/
inductive Outcome (ε α : Type) where
  | returned (a : α) (left : Nat)
  | thrown (e : ε)
  | failed
  deriving DecidableEq, Repr

namespace Prog

def interrupted (S : Store D W K) : Prog D W ε α → Nat → D → D × Outcome ε α
  | ret a, n, d => (d, .returned a n)
  | throw e, _, d => (d, .thrown e)
  | stmt _ _, 0, d => (d, .failed)
  | stmt w k, n + 1, d => (k d).interrupted S n (S.applyAll d (w d))
  | aside _ _, 0, d => (d, .failed)
  | aside w k, n + 1, d => (k d).interrupted S n (S.applyAll d (w d))
  | openTx _ k, n, d => k.interrupted S n d
  | commit k, n, d => k.interrupted S n d

section

variable {S : Store D W K} {n : Nat} {d : D}

/-- What follows a program that has returned. -/
def andGo (f : α → Nat → D → D × Outcome ε β) : D × Outcome ε α → D × Outcome ε β
  | (d, .returned a n) => f a n d
  | (d, .thrown e) => (d, .thrown e)
  | (d, .failed) => (d, .failed)

theorem interrupted_bind (p : Prog D W ε α) (f : α → Prog D W ε β) :
    (p >>= f).interrupted S n d =
      andGo (fun a n d => (f a).interrupted S n d) (p.interrupted S n d) := by
  induction p generalizing n d with
  | ret a => rfl
  | throw e => rfl
  | stmt w k ih =>
    cases n with
    | zero => rfl
    | succ n => exact ih d
  | aside w k ih =>
    cases n with
    | zero => rfl
    | succ n => exact ih d
  | openTx h k _ ih => exact ih
  | commit k ih => exact ih

@[simp] theorem interrupted_ret (a : α) :
    (ret a : Prog D W ε α).interrupted S n d = (d, .returned a n) := rfl

@[simp] theorem interrupted_throw (e : ε) :
    (throw e : Prog D W ε α).interrupted S n d = (d, .thrown e) := rfl

@[simp] theorem interrupted_select_zero (f : D → α) :
    (select f : Prog D W ε α).interrupted S 0 d = (d, .failed) := rfl

@[simp] theorem interrupted_select (f : D → α) :
    (select f : Prog D W ε α).interrupted S (n + 1) d = (d, .returned (f d) n) := rfl

@[simp] theorem interrupted_write_zero (f : D → List W) :
    (write f : Prog D W ε Unit).interrupted S 0 d = (d, .failed) := rfl

@[simp] theorem interrupted_write (f : D → List W) :
    (write f : Prog D W ε Unit).interrupted S (n + 1) d =
      (S.applyAll d (f d), .returned () n) := rfl

@[simp] theorem interrupted_query_zero (f : D → Except ε (List W × α)) :
    (query f : Prog D W ε α).interrupted S 0 d = (d, .failed) := rfl

@[simp] theorem interrupted_query (f : D → Except ε (List W × α)) :
    (query f : Prog D W ε α).interrupted S (n + 1) d =
      match f d with
      | .ok r => (S.applyAll d r.1, .returned r.2 n)
      | .error e => (d, .thrown e) := by
  simp only [query, interrupted]
  cases f d <;> rfl

@[simp] theorem andGo_returned (f : α → Nat → D → D × Outcome ε β) (a : α) :
    andGo f (d, .returned a n) = f a n d := rfl

@[simp] theorem andGo_thrown (f : α → Nat → D → D × Outcome ε β) (e : ε) :
    andGo f (d, .thrown e) = (d, .thrown e) := rfl

@[simp] theorem andGo_failed (f : α → Nat → D → D × Outcome ε β) :
    andGo f (d, .failed) = (d, .failed) := rfl

/-- What the writes of a program keep, wherever it fails. -/
theorem Plain.interrupted_keeps {St As : List W → Prop} {Er : ε → Prop} {P : D → Prop}
    {p : Prog D W ε α} (hp : p.Plain St As Er) (hSt : ∀ ws d, St ws → P d → P (S.applyAll d ws))
    (hAs : ∀ ws d, As ws → P d → P (S.applyAll d ws)) (hd : P d) :
    P (p.interrupted S n d).1 := by
  induction p generalizing n d with
  | ret a => exact hd
  | throw e => exact hd
  | stmt w k ih =>
    cases n with
    | zero => exact hd
    | succ n => exact ih d (hp d).2 (hSt _ _ (hp d).1 hd)
  | aside w k ih =>
    cases n with
    | zero => exact hd
    | succ n => exact ih d (hp d).2 (hAs _ _ (hp d).1 hd)
  | openTx h k => exact hp.elim
  | commit k => exact hp.elim

end

end Prog

/-! ## Runs of the system -/

section

variable [DecidableEq K] {Y : System D W K ε α Op} {s : State D W ε α Op} {i : Nat} {d₀ : D}

/-- A statement of a call outside transactions fails, and the call ends with the error. -/
theorem System.Reach.fails_at (h : Y.Reachable d₀ s) {p : Prog D W ε α}
    (hcall : s.call i = .run none p) (hret : ∀ a, p ≠ .ret a) (hthrow : ∀ e, p ≠ .throw e) {e : ε}
    (he : Y.isFault e = true) :
    ∃ s', Y.Reachable d₀ s' ∧ s'.ops = s.ops ∧ s'.db = s.db ∧ s'.call i = .done (.error e) := by
  have hn : Y.next s (.fault i e) = some (s.set i (.run none (.throw e))) := by
    simp only [System.next, hcall, he, if_true]
    cases p with
    | ret a => exact absurd rfl (hret a)
    | throw e' => exact absurd rfl (hthrow e')
    | _ => rfl
  have hn' : Y.next (s.set i (.run none (.throw e))) (.step i) =
      some ((s.set i (.run none (.throw e))).set i (.done (.error e))) := by
    simp only [System.next, State.set_self]
    rfl
  exact ⟨_, .step _ (.step _ h (System.admits_all _ _) hn) (System.admits_all _ _) hn', rfl, rfl,
    State.set_self _ _⟩

/-- A statement of a call that runs alone succeeds. -/
theorem System.Reach.goes_on (h : Y.Reachable d₀ s) {p q : Prog D W ε α} {ws : List W}
    (hcall : s.call i = .run none p) (halone : s.AloneAt Y.store i)
    (hn : Y.stepCall s i none p = some ((s.autocommit Y.store i ws).set i (.run none q))) :
    ∃ s', Y.Reachable d₀ s' ∧ s'.ops = s.ops ∧ s'.db = Y.store.applyAll s.db ws ∧
      s'.call i = .run none q ∧ s'.AloneAt Y.store i := by
  have hnext : Y.next s (.step i) = some ((s.autocommit Y.store i ws).set i (.run none q)) := by
    simp only [System.next, hcall]
    exact hn
  refine ⟨_, .step _ h (System.admits_all _ _) hnext, (System.stepCall_frame hn).ops, ?_,
    State.set_self _ _, halone.frame (System.stepCall_frame hn)⟩
  rw [State.set_db, State.autocommit_db]

theorem System.Reach.interrupted_from {St As : List W → Prop} {Er : ε → Prop} {d' : D} {e : ε}
    (he : Y.isFault e = true) {p : Prog D W ε α} (hp : p.Plain St As Er) {n : Nat}
    (h : Y.Reachable d₀ s) (hcall : s.call i = .run none p) (halone : s.AloneAt Y.store i)
    (hr : p.interrupted Y.store n s.db = (d', .failed)) :
    ∃ s', Y.Reachable d₀ s' ∧ s'.ops = s.ops ∧ s'.db = d' ∧ s'.call i = .done (.error e) := by
  induction p generalizing n s with
  | ret a => cases hr
  | throw e' => cases hr
  | stmt w k ih =>
    cases n with
    | zero =>
      obtain ⟨s', hs', hops, hdb, hdone⟩ := h.fails_at hcall (fun _ hp => by cases hp) (fun _ hp => by cases hp) he
      exact ⟨s', hs', hops, hdb.trans (Prod.mk.inj hr).1, hdone⟩
    | succ n =>
      have hn : Y.stepCall s i none (.stmt w k) =
          some ((s.autocommit Y.store i (w s.db)).set i (.run none (k s.db))) := by
        simp only [System.stepCall, halone.free, if_true]
      obtain ⟨s₁, hs₁, hops₁, hdb₁, hcall₁, halone₁⟩ := h.goes_on hcall halone hn
      have hr₁ : (k s.db).interrupted Y.store n s₁.db = (d', .failed) := by
        rw [hdb₁]
        exact hr
      obtain ⟨s', hs', hops, hdone⟩ := ih s.db (hp s.db).2 hs₁ hcall₁ halone₁ hr₁
      exact ⟨s', hs', hops.trans hops₁, hdone⟩
  | aside w k ih =>
    cases n with
    | zero =>
      obtain ⟨s', hs', hops, hdb, hdone⟩ := h.fails_at hcall (fun _ hp => by cases hp) (fun _ hp => by cases hp) he
      exact ⟨s', hs', hops, hdb.trans (Prod.mk.inj hr).1, hdone⟩
    | succ n =>
      have hn : Y.stepCall s i none (.aside w k) =
          some ((s.autocommit Y.store i (w s.db)).set i (.run none (k s.db))) := by
        simp only [System.stepCall, halone.free, if_true]
      obtain ⟨s₁, hs₁, hops₁, hdb₁, hcall₁, halone₁⟩ := h.goes_on hcall halone hn
      have hr₁ : (k s.db).interrupted Y.store n s₁.db = (d', .failed) := by
        rw [hdb₁]
        exact hr
      obtain ⟨s', hs', hops, hdone⟩ := ih s.db (hp s.db).2 hs₁ hcall₁ halone₁ hr₁
      exact ⟨s', hs', hops.trans hops₁, hdone⟩
  | openTx h k => exact hp.elim
  | commit k => exact hp.elim

/-- A call that is started when no other runs can fail at any of its statements. -/
theorem System.Reach.interrupted (h : Y.Reachable d₀ s) (hidle : s.Idle) {op : Op}
    {St As : List W → Prop} {Er : ε → Prop} (hp : (Y.prog s.ops.length op).Plain St As Er) {n : Nat}
    {d' : D} {e : ε} (he : Y.isFault e = true)
    (hr : (Y.prog s.ops.length op).interrupted Y.store n s.db = (d', .failed)) :
    ∃ s', Y.Reachable d₀ s' ∧ s'.ops = s.ops ++ [op] ∧ s'.db = d' ∧
      s'.call s.ops.length = .done (.error e) := by
  let s₁ : State D W ε α Op :=
    State.set { s with ops := s.ops ++ [op] } s.ops.length (.run none (Y.prog s.ops.length op))
  have halone : s₁.AloneAt Y.store s.ops.length := hidle.aloneAt_spawn
  exact System.Reach.interrupted_from (s := s₁) he hp
    (.step (.spawn op) h (System.admits_all s _) rfl) (State.set_self _ _) halone hr

end

end Txn
