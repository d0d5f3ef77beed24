import JobBoard.Lib.Plain

/-!
# Interleaved runs of programs

A `System` is a store, the program of each operation and the errors that may
interrupt a statement. A state holds the committed database, the calls started
so far and the log of the write groups that reached the committed database, in
commit order. Reads are READ COMMITTED: a statement sees the committed database
with the writes of its own open transaction. A statement whose writes need a
lock that another open transaction holds waits; it is evaluated when it runs.

`Sound.good` is the rule for invariants: programs verified one at a time with
`wp` keep them in every interleaving.
-/

set_option autoImplicit false

namespace Txn

variable {D W K ε α Op : Type}

structure OpenTx (D W ε α : Type) where
  pending : List W
  onError : ε → Prog D W ε α

inductive Call (D W ε α : Type) where
  | idle
  | run (tx : Option (OpenTx D W ε α)) (p : Prog D W ε α)
  | done (r : Except ε α)

namespace Call

def pending : Call D W ε α → List W
  | run (some tx) _ => tx.pending
  | _ => []

/-- The locks of the call's open transaction. -/
def held (S : Store D W K) (c : Call D W ε α) : List K := S.locks c.pending

def isRunning : Call D W ε α → Bool
  | run _ _ => true
  | _ => false

@[simp] theorem held_none (S : Store D W K) (p : Prog D W ε α) :
    (run none p).held S = [] := rfl

@[simp] theorem held_done (S : Store D W K) (r : Except ε α) :
    (done r : Call D W ε α).held S = [] := rfl

@[simp] theorem held_idle (S : Store D W K) : (idle : Call D W ε α).held S = [] := rfl

@[simp] theorem held_some (S : Store D W K) (tx : OpenTx D W ε α) (p : Prog D W ε α) :
    (run (some tx) p).held S = S.locks tx.pending := rfl

@[simp] theorem isRunning_run (tx : Option (OpenTx D W ε α)) (p : Prog D W ε α) :
    (run tx p).isRunning = true := rfl

@[simp] theorem isRunning_idle : (idle : Call D W ε α).isRunning = false := rfl

@[simp] theorem isRunning_done (r : Except ε α) :
    (done r : Call D W ε α).isRunning = false := rfl

end Call

/-! ## States -/

/-- Writes that reached the committed database together, by which call, and
whether by the commit of a transaction or by a statement of its own. -/
structure Group (W : Type) where
  call : Nat
  viaTx : Bool
  writes : List W
  deriving DecidableEq, Repr

structure State (D W ε α Op : Type) where
  db : D
  ops : List Op
  call : Nat → Call D W ε α
  log : List (Group W)

inductive Label (ε Op : Type) where
  | spawn (op : Op)
  | step (i : Nat)
  | fault (i : Nat) (e : ε)

structure System (D W K ε α Op : Type) where
  store : Store D W K
  prog : Nat → Op → Prog D W ε α
  isFault : ε → Bool

def State.init (d : D) : State D W ε α Op := ⟨d, [], fun _ => .idle, []⟩

def State.set (s : State D W ε α Op) (i : Nat) (c : Call D W ε α) : State D W ε α Op :=
  { s with call := fun j => if j = i then c else s.call j }

/-- The writes `ws` of call `i` reach the committed database. -/
def State.publish (S : Store D W K) (s : State D W ε α Op) (i : Nat) (viaTx : Bool)
    (ws : List W) : State D W ε α Op :=
  { s with db := S.applyAll s.db ws, log := s.log ++ [⟨i, viaTx, ws⟩] }

/-- A statement outside a transaction commits by itself, if it writes. -/
def State.autocommit (S : Store D W K) (s : State D W ε α Op) (i : Nat) (ws : List W) :
    State D W ε α Op :=
  match ws with
  | [] => s
  | w :: ws => s.publish S i false (w :: ws)

section

variable {s : State D W ε α Op}

@[simp] theorem State.set_db (i : Nat) (c : Call D W ε α) : (s.set i c).db = s.db := rfl

@[simp] theorem State.set_ops (i : Nat) (c : Call D W ε α) : (s.set i c).ops = s.ops := rfl

@[simp] theorem State.set_log (i : Nat) (c : Call D W ε α) : (s.set i c).log = s.log := rfl

@[simp] theorem State.set_self (i : Nat) (c : Call D W ε α) : (s.set i c).call i = c := by
  simp [State.set]

theorem State.set_other {i j : Nat} (h : j ≠ i) (c : Call D W ε α) :
    (s.set i c).call j = s.call j := by
  simp [State.set, h]

@[simp] theorem State.publish_call (S : Store D W K) (i : Nat) (b : Bool) (ws : List W) :
    (s.publish S i b ws).call = s.call := rfl

@[simp] theorem State.publish_ops (S : Store D W K) (i : Nat) (b : Bool) (ws : List W) :
    (s.publish S i b ws).ops = s.ops := rfl

@[simp] theorem State.autocommit_call (S : Store D W K) (i : Nat) (ws : List W) :
    (s.autocommit S i ws).call = s.call := by
  cases ws <;> rfl

theorem State.publish_log (S : Store D W K) (i : Nat) (b : Bool) (ws : List W) :
    (s.publish S i b ws).log = s.log ++ [⟨i, b, ws⟩] := rfl

end

/-! ## Steps -/

/-- No other open transaction holds a lock that `ws` needs. -/
def State.free [DecidableEq K] (S : Store D W K) (s : State D W ε α Op) (i : Nat)
    (ws : List W) : Bool :=
  (List.range s.ops.length).all fun j =>
    j == i || (S.locks ws).all fun k => !((s.call j).held S).contains k

/-- The runs under study: which operations may start on a committed database,
which statements an operation may issue on what it sees, and whether an
operation only starts once the ones before it have finished. -/
structure Runs (D W Op : Type) where
  ops : D → Op → Bool
  adm : Op → D → List W → Bool
  serial : Bool

def Runs.all : Runs D W Op := ⟨fun _ _ => true, fun _ _ _ => true, false⟩

namespace System

variable [DecidableEq K] (Y : System D W K ε α Op)

def view (tx : Option (OpenTx D W ε α)) (d : D) : D :=
  match tx with
  | none => d
  | some tx => Y.store.applyAll d tx.pending

/-- Call `i` in the state `run tx p` takes its next step. -/
def stepCall (s : State D W ε α Op) (i : Nat) :
    Option (OpenTx D W ε α) → Prog D W ε α → Option (State D W ε α Op)
  | none, .ret a => some (s.set i (.done (.ok a)))
  | some _, .ret _ => none
  | none, .throw e => some (s.set i (.done (.error e)))
  | some tx, .throw e => some (s.set i (.run none (tx.onError e)))
  | none, .stmt w k =>
    if s.free Y.store i (w s.db) then
      some ((s.autocommit Y.store i (w s.db)).set i (.run none (k s.db)))
    else none
  | some tx, .stmt w k =>
    let v := Y.store.applyAll s.db tx.pending
    if s.free Y.store i (w v) then
      some (s.set i (.run (some ⟨tx.pending ++ w v, tx.onError⟩) (k v)))
    else none
  | tx, .aside w k =>
    if s.free Y.store i (w s.db) then
      some ((s.autocommit Y.store i (w s.db)).set i (.run tx (k s.db)))
    else none
  | none, .openTx h k => some (s.set i (.run (some ⟨[], h⟩) k))
  | some _, .openTx _ _ => none
  | none, .commit k => some (s.set i (.run none k))
  | some tx, .commit k => some ((s.publish Y.store i true tx.pending).set i (.run none k))

/-- The statement call `i` is about to run fails with `e`: the open transaction
rolls back and its error continuation takes over. -/
def faultCall (_ : System D W K ε α Op) (s : State D W ε α Op) (i : Nat) (e : ε) :
    Option (OpenTx D W ε α) → Prog D W ε α → Option (State D W ε α Op)
  | _, .ret _ => none
  | _, .throw _ => none
  | none, _ => some (s.set i (.run none (.throw e)))
  | some tx, _ => some (s.set i (.run none (tx.onError e)))

def next (s : State D W ε α Op) : Label ε Op → Option (State D W ε α Op)
  | .spawn op =>
    let i := s.ops.length
    some (State.set { s with ops := s.ops ++ [op] } i (.run none (Y.prog i op)))
  | .step i =>
    match s.call i with
    | .run tx p => Y.stepCall s i tx p
    | _ => none
  | .fault i e =>
    match s.call i with
    | .run tx p => if Y.isFault e then Y.faultCall s i e tx p else none
    | _ => none

/-- The label is not one that the runs `R` exclude. -/
def admits (R : Runs D W Op) (s : State D W ε α Op) : Label ε Op → Bool
  | .spawn op => R.ops s.db op &&
      (!R.serial || (List.range s.ops.length).all fun i => !(s.call i).isRunning)
  | .step i =>
    match s.ops[i]?, s.call i with
    | some op, .run tx (.stmt w _) => R.adm op (Y.view tx s.db) (w (Y.view tx s.db))
    | _, _ => true
  | .fault _ _ => true

/-- The states of the runs `R` from `d`. -/
inductive Reach (R : Runs D W Op) (d : D) : State D W ε α Op → Prop
  | init : Reach R d (State.init d)
  | step {s s' : State D W ε α Op} (l : Label ε Op) : Reach R d s → Y.admits R s l = true →
      Y.next s l = some s' → Reach R d s'

/-- The states of all runs from `d`. -/
abbrev Reachable (d : D) (s : State D W ε α Op) : Prop := Y.Reach .all d s

/-- The run with the given labels, if `R` admits it. -/
def runLabels (R : Runs D W Op) (s : State D W ε α Op) :
    List (Label ε Op) → Option (State D W ε α Op)
  | [] => some s
  | l :: ls => if Y.admits R s l then (Y.next s l).bind fun s' => runLabels R s' ls else none

variable {Y}

theorem runLabels_reach {R : Runs D W Op} {d : D} {s s' : State D W ε α Op}
    {ls : List (Label ε Op)} (h : Y.Reach R d s) (hr : Y.runLabels R s ls = some s') :
    Y.Reach R d s' := by
  induction ls generalizing s with
  | nil => simp only [runLabels, Option.some.injEq] at hr; exact hr ▸ h
  | cons l ls ih =>
    simp only [runLabels] at hr
    split at hr
    · next hadm =>
      obtain ⟨s₁, hn, hr⟩ := Option.bind_eq_some_iff.1 hr
      exact ih (.step l h hadm hn) hr
    · cases hr

/-- A checked run from `d` ends in a reachable state. -/
theorem reach_of_run {R : Runs D W Op} {d : D} {ls : List (Label ε Op)} {β : Type}
    {p : State D W ε α Op → β} {b : β}
    (h : (Y.runLabels R (State.init d) ls).map p = some b) : ∃ s, Y.Reach R d s ∧ p s = b := by
  obtain ⟨s, hr, hp⟩ := Option.map_eq_some_iff.1 h
  exact ⟨s, runLabels_reach .init hr, hp⟩

end System

/-! ## Frames -/

/-- A step of call `i` starts no call, leaves the other calls alone and adds only
groups of its own to the log. -/
structure State.Frame (s : State D W ε α Op) (i : Nat) (s' : State D W ε α Op) : Prop where
  ops : s'.ops = s.ops
  call : ∀ j, j ≠ i → s'.call j = s.call j
  log : ∃ gs, s'.log = s.log ++ gs ∧ ∀ g ∈ gs, g.call = i

section

variable {s s' : State D W ε α Op} {i : Nat}

theorem State.autocommit_db (S : Store D W K) (ws : List W) :
    (s.autocommit S i ws).db = S.applyAll s.db ws := by
  cases ws <;> rfl

theorem State.Frame.refl (s : State D W ε α Op) (i : Nat) : s.Frame i s :=
  ⟨rfl, fun _ _ => rfl, [], by simp, by simp⟩

theorem State.Frame.set (h : s.Frame i s') (c : Call D W ε α) : s.Frame i (s'.set i c) :=
  ⟨h.ops, fun j hj => (State.set_other hj c).trans (h.call j hj), h.log⟩

theorem State.Frame.publish (S : Store D W K) (b : Bool) (ws : List W) :
    s.Frame i (s.publish S i b ws) :=
  ⟨rfl, fun _ _ => rfl, [⟨i, b, ws⟩], rfl, by simp⟩

theorem State.Frame.autocommit (S : Store D W K) (ws : List W) :
    s.Frame i (s.autocommit S i ws) := by
  cases ws with
  | nil => exact .refl s i
  | cons w ws => exact .publish S false (w :: ws)

variable {Y : System D W K ε α Op} {tx : Option (OpenTx D W ε α)} {p : Prog D W ε α}

theorem System.stepCall_frame [DecidableEq K] (hn : Y.stepCall s i tx p = some s') :
    s.Frame i s' := by
  cases tx <;> cases p <;> simp only [System.stepCall] at hn
  all_goals
    first
    | cases hn
    | (split at hn <;> cases hn)
  all_goals
    first
    | exact (State.Frame.refl s i).set _
    | exact (State.Frame.autocommit Y.store _).set _
    | exact (State.Frame.publish Y.store true _).set _

theorem System.faultCall_frame {e : ε} (hn : Y.faultCall s i e tx p = some s') :
    s.Frame i s' := by
  cases tx <;> cases p <;> cases hn <;> exact (State.Frame.refl s i).set _

/-- A step starts a call, or is one of a call that is running. -/
theorem System.next_cases [DecidableEq K] {l : Label ε Op} (hn : Y.next s l = some s') :
    (∃ op, l = .spawn op ∧
      s' = State.set { s with ops := s.ops ++ [op] } s.ops.length
        (.run none (Y.prog s.ops.length op))) ∨
    ∃ i, (s.call i).isRunning = true ∧ s.Frame i s' := by
  cases l with
  | spawn op =>
    cases hn
    exact .inl ⟨op, rfl, rfl⟩
  | step i =>
    simp only [System.next] at hn
    split at hn
    · next tx p hcall => exact .inr ⟨i, by rw [hcall]; rfl, System.stepCall_frame hn⟩
    · cases hn
  | fault i e =>
    simp only [System.next] at hn
    split at hn
    · next tx p hcall =>
      split at hn
      · exact .inr ⟨i, by rw [hcall]; rfl, System.faultCall_frame hn⟩
      · cases hn
    · cases hn

end

/-! ## Handlers -/

/-- The handlers that the call has, or may still install, satisfy `H`. -/
def Call.Handled (H : (ε → Prog D W ε α) → Prop) : Call D W ε α → Prop
  | .run none p => p.Handlers H
  | .run (some tx) p => H tx.onError ∧ (∀ e, (tx.onError e).Handlers H) ∧ p.Handlers H
  | _ => True

section

variable [DecidableEq K] {Y : System D W K ε α Op} {H : (ε → Prog D W ε α) → Prop}
  {s s' : State D W ε α Op}

theorem State.set_handled (hs : ∀ j, (s.call j).Handled H) (i : Nat) {c : Call D W ε α}
    (hc : c.Handled H) (j : Nat) : ((s.set i c).call j).Handled H := by
  by_cases hj : j = i
  · subst hj
    rw [State.set_self]
    exact hc
  · rw [State.set_other hj]
    exact hs j

theorem System.stepCall_handled (hs : ∀ j, (s.call j).Handled H) {i : Nat}
    {tx : Option (OpenTx D W ε α)} {p : Prog D W ε α} (hi : s.call i = .run tx p)
    (hn : Y.stepCall s i tx p = some s') (j : Nat) : (s'.call j).Handled H := by
  have hc := hs i
  rw [hi] at hc
  have hauto : ∀ ws, ∀ j, ((s.autocommit Y.store i ws).call j).Handled H := by
    intro ws j
    rw [State.autocommit_call]
    exact hs j
  cases tx with
  | none =>
    cases p with
    | ret a =>
      cases hn
      refine State.set_handled hs i ?_ j
      exact trivial
    | throw e =>
      cases hn
      refine State.set_handled hs i ?_ j
      exact trivial
    | stmt w k =>
      simp only [System.stepCall] at hn
      split at hn
      · cases hn
        refine State.set_handled (hauto _) i ?_ j
        exact hc s.db
      · cases hn
    | aside w k =>
      simp only [System.stepCall] at hn
      split at hn
      · cases hn
        refine State.set_handled (hauto _) i ?_ j
        exact hc s.db
      · cases hn
    | openTx h k =>
      cases hn
      refine State.set_handled hs i ?_ j
      exact hc
    | commit k =>
      cases hn
      refine State.set_handled hs i ?_ j
      exact hc
  | some tx =>
    obtain ⟨hH, hh, hp⟩ := hc
    cases p with
    | ret a => cases hn
    | throw e =>
      cases hn
      refine State.set_handled hs i ?_ j
      exact hh e
    | stmt w k =>
      simp only [System.stepCall] at hn
      split at hn
      · cases hn
        refine State.set_handled hs i ?_ j
        exact ⟨hH, hh, hp _⟩
      · cases hn
    | aside w k =>
      simp only [System.stepCall] at hn
      split at hn
      · cases hn
        refine State.set_handled (hauto _) i ?_ j
        exact ⟨hH, hh, hp _⟩
      · cases hn
    | openTx h k => cases hn
    | commit k =>
      cases hn
      refine State.set_handled hs i ?_ j
      exact hp

omit [DecidableEq K] in
theorem System.faultCall_handled (hs : ∀ j, (s.call j).Handled H) {i : Nat} {e : ε}
    {tx : Option (OpenTx D W ε α)} {p : Prog D W ε α} (hi : s.call i = .run tx p)
    (hn : Y.faultCall s i e tx p = some s') (j : Nat) : (s'.call j).Handled H := by
  have hc := hs i
  rw [hi] at hc
  cases tx with
  | none =>
    cases p with
    | ret a => cases hn
    | throw e' => cases hn
    | _ =>
      cases hn
      refine State.set_handled hs i ?_ j
      exact trivial
  | some tx =>
    obtain ⟨hH, hh, hp⟩ := hc
    cases p with
    | ret a => cases hn
    | throw e' => cases hn
    | _ =>
      cases hn
      refine State.set_handled hs i ?_ j
      exact hh e

/-- Along every run, the handler of an open transaction is one of its program. -/
theorem System.Reach.handled {R : Runs D W Op} {d : D}
    (hprog : ∀ i op d, R.ops d op = true → (Y.prog i op).Handlers H) (h : Y.Reach R d s) (j : Nat) :
    (s.call j).Handled H := by
  induction h generalizing j with
  | init => trivial
  | @step s s' l hr hadm hn ih =>
    cases l with
    | spawn op =>
      cases hn
      have hop : R.ops s.db op = true := by
        simp only [System.admits, Bool.and_eq_true] at hadm
        exact hadm.1
      refine State.set_handled ih _ ?_ j
      exact hprog _ op s.db hop
    | step i =>
      simp only [System.next] at hn
      split at hn
      · next tx p hcall => exact System.stepCall_handled ih hcall hn j
      · cases hn
    | fault i e =>
      simp only [System.next] at hn
      split at hn
      · next tx p hcall =>
        split at hn
        · exact System.faultCall_handled ih hcall hn j
        · cases hn
      · cases hn

end

/-! ## Logs -/

/-- The database after the groups of a log, from `d`. -/
def replay (S : Store D W K) (d : D) (log : List (Group W)) : D :=
  log.foldl (fun d g => S.applyAll d g.writes) d

@[simp] theorem replay_nil (S : Store D W K) (d : D) : replay S d [] = d := rfl

theorem replay_snoc (S : Store D W K) (d : D) (log : List (Group W)) (g : Group W) :
    replay S d (log ++ [g]) = S.applyAll (replay S d log) g.writes := by
  simp [replay, List.foldl_append]

/-- What the transactions of call `i` have committed. -/
def commitsOf (i : Nat) (log : List (Group W)) : List (List W) :=
  (log.filter fun g => g.call == i && g.viaTx).map (·.writes)

@[simp] theorem commitsOf_nil (i : Nat) : commitsOf i ([] : List (Group W)) = [] := rfl

theorem commitsOf_append (i : Nat) (l r : List (Group W)) :
    commitsOf i (l ++ r) = commitsOf i l ++ commitsOf i r := by
  simp [commitsOf, List.filter_append]

@[simp] theorem commitsOf_tx (i : Nat) (ws : List W) : commitsOf i [⟨i, true, ws⟩] = [ws] := by
  simp [commitsOf]

@[simp] theorem commitsOf_auto (i j : Nat) (ws : List W) : commitsOf i [⟨j, false, ws⟩] = [] := by
  simp [commitsOf]

theorem commitsOf_other {i j : Nat} (h : j ≠ i) (b : Bool) (ws : List W) :
    commitsOf i [⟨j, b, ws⟩] = [] := by
  simp [commitsOf, h]

/-- The groups of a call that only writes in transactions. -/
theorem groups_of_commits (i : Nat) {log : List (Group W)}
    (h : ∀ g ∈ log, g.call = i → g.viaTx = true) :
    log.filter (fun g => g.call == i) = (commitsOf i log).map fun ws => ⟨i, true, ws⟩ := by
  induction log with
  | nil => rfl
  | cons g log ih =>
    have ih := ih fun x hx => h x (List.mem_cons_of_mem _ hx)
    have hcons : commitsOf i (g :: log) = commitsOf i [g] ++ commitsOf i log :=
      commitsOf_append i [g] log
    obtain ⟨j, b, ws⟩ := g
    by_cases hj : j = i
    · subst hj
      have hb : b = true := h _ List.mem_cons_self rfl
      subst hb
      rw [hcons, commitsOf_tx, List.filter_cons_of_pos (by simp), ih]
      rfl
    · rw [hcons, commitsOf_other hj, List.filter_cons_of_neg (by simpa using hj), ih]
      rfl

section

variable {s : State D W ε α Op}

theorem free_iff [DecidableEq K] (S : Store D W K) (i : Nat) (ws : List W)
    (hidle : ∀ j, s.ops.length ≤ j → s.call j = .idle) :
    s.free S i ws = true ↔ ∀ j, j ≠ i → ∀ k ∈ (s.call j).held S, k ∉ S.locks ws := by
  simp only [State.free, List.all_eq_true, List.mem_range, Bool.or_eq_true, beq_iff_eq,
    Bool.not_eq_true', List.contains_eq_mem, decide_eq_false_iff_not]
  constructor
  · intro h j hj k hk hkw
    by_cases hlt : j < s.ops.length
    · rcases h j hlt with h | h
      · exact hj h
      · exact h k hkw hk
    · rw [hidle j (by omega)] at hk
      simp at hk
  · intro h j _
    by_cases hj : j = i
    · exact .inl hj
    · exact .inr fun k hk hk' => h j hj k hk' hk

end

end Txn
