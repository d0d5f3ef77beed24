import JobBoard.Lib.Table

/-!
# A queue of jobs

The queue holds one job of an id at a time: to add an id that is there changes nothing, whatever
the state of the job. A worker takes a waiting job and holds it until it completes the job, which
then leaves the queue, or until the job is released. A release counts as an attempt; after the
last one the job stays in the queue, as failed, until it is evicted.

`live_apply` is all that happens to a job that has not failed.
-/

set_option autoImplicit false

inductive JobState where
  | waiting
  | active (worker : Nat)
  | failed
  deriving DecidableEq, Repr

structure Job (κ : Type) where
  id : κ
  state : JobState
  attemptsMade : Nat
  deriving DecidableEq, Repr

section

variable {κ : Type}

/-- The state of a job after a worker has given it up. -/
def Job.released (attempts : Nat) (j : Job κ) : Job κ :=
  match j.state with
  | .active _ =>
    { j with
      state := if j.attemptsMade + 1 < attempts then .waiting else .failed
      attemptsMade := j.attemptsMade + 1 }
  | _ => j

def Job.taken (worker : Nat) (j : Job κ) : Job κ :=
  if j.state = .waiting then { j with state := .active worker } else j

theorem Job.released_id (attempts : Nat) (j : Job κ) : (j.released attempts).id = j.id := by
  unfold Job.released
  split <;> rfl

theorem Job.taken_id (worker : Nat) (j : Job κ) : (j.taken worker).id = j.id := by
  unfold Job.taken
  split <;> rfl

end

abbrev JobQueue (κ : Type) := Txn.Table fun j : Job κ => j.id

namespace JobQueue

inductive Op (κ : Type) where
  | add (id : κ)
  | take (id : κ) (worker : Nat)
  | complete (id : κ) (worker : Nat)
  | release (id : κ)
  | evict (id : κ)
  deriving DecidableEq, Repr

variable {κ : Type} [DecidableEq κ]

/-- `attempts` is how often a job may be taken. -/
def Op.apply (attempts : Nat) (q : JobQueue κ) : Op κ → JobQueue κ
  | add id => q.insert ⟨id, .waiting, 0⟩
  | take id worker => q.modify id (Job.taken worker) (Job.taken_id worker)
  | complete id worker => q.deleteWhere fun j => decide (j.id = id) && j.state = .active worker
  | release id => q.modify id (Job.released attempts) (Job.released_id attempts)
  | evict id => q.deleteWhere fun j => decide (j.id = id) && j.state = .failed

def state? (q : JobQueue κ) (id : κ) : Option JobState := (q.get? id).map (·.state)

/-- A worker has the job, or will have it. -/
def Live (q : JobQueue κ) (id : κ) : Prop :=
  q.state? id = some .waiting ∨ ∃ worker, q.state? id = some (.active worker)

section

variable {q : JobQueue κ} {id : κ}

theorem live_iff : q.Live id ↔ ∃ j, q.get? id = some j ∧ j.state ≠ .failed := by
  unfold Live state?
  constructor
  · rintro (h | ⟨worker, h⟩)
    · obtain ⟨j, hj, hstate⟩ := Option.map_eq_some_iff.1 h
      exact ⟨j, hj, by rw [hstate]; exact JobState.noConfusion⟩
    · obtain ⟨j, hj, hstate⟩ := Option.map_eq_some_iff.1 h
      exact ⟨j, hj, by rw [hstate]; exact JobState.noConfusion⟩
  · rintro ⟨j, hj, hstate⟩
    rw [hj, Option.map_some]
    cases hs : j.state with
    | waiting => exact .inl rfl
    | active worker => exact .inr ⟨worker, rfl⟩
    | failed => exact absurd hs hstate

/-- After it was added, a job is in the queue, in whatever state. -/
theorem add_state (attempts : Nat) (q : JobQueue κ) (id : κ) :
    ((Op.add id).apply attempts q).Live id ∨
      ((Op.add id).apply attempts q).state? id = some .failed := by
  have hsome : ∃ j, ((Op.add id).apply attempts q).get? id = some j := by
    cases h : q.get? id with
    | some j => exact ⟨j, Txn.Table.get?_insert_of_some h⟩
    | none =>
      have hnone : q.get? (Job.mk id .waiting 0).id = none := h
      exact ⟨_, Txn.Table.get?_insert_self hnone⟩
  obtain ⟨j, hj⟩ := hsome
  by_cases hfailed : j.state = .failed
  · exact .inr (by rw [state?, hj, Option.map_some, hfailed])
  · exact .inl (live_iff.2 ⟨j, hj, hfailed⟩)

/-- A job that has not failed stays so, but that its holder completes it, or that its last attempt
fails. -/
theorem live_apply (attempts : Nat) (h : q.Live id) (op : Op κ) : (op.apply attempts q).Live id ∨
    (∃ worker, op = .complete id worker ∧ q.state? id = some (.active worker)) ∨
    (op = .release id ∧ (op.apply attempts q).state? id = some .failed) := by
  obtain ⟨j, hj, hstate⟩ := live_iff.1 h
  have hid : j.id = id := by
    have hkey := Txn.Table.key_of_get? hj
    exact hkey
  have kept : ∀ q' : JobQueue κ, q'.get? id = some j → q'.Live id :=
    fun q' hq' => live_iff.2 ⟨j, hq', hstate⟩
  cases op with
  | add id' => exact .inl (kept _ (Txn.Table.get?_insert_of_some hj))
  | take id' worker =>
    have hget : ((Op.take id' worker).apply attempts q).get? id =
        if id = id' then (q.get? id).map (Job.taken worker) else q.get? id :=
      Txn.Table.get?_modify (Job.taken worker) (Job.taken_id worker)
    rw [hj, Option.map_some] at hget
    split at hget
    · refine .inl (live_iff.2 ⟨_, hget, ?_⟩)
      unfold Job.taken
      split
      · exact JobState.noConfusion
      · exact hstate
    · exact .inl (kept _ hget)
  | complete id' worker =>
    have hget : ((Op.complete id' worker).apply attempts q).get? id = (q.get? id).filter
        fun j => !(decide (j.id = id') && decide (j.state = .active worker)) :=
      Txn.Table.get?_deleteWhere _
    rw [hj, Option.filter_some] at hget
    split at hget
    · exact .inl (kept _ hget)
    · next hholds =>
      have hboth : j.id = id' ∧ j.state = .active worker := by simpa using hholds
      obtain ⟨rfl, hactive⟩ := hboth
      refine .inr (.inl ⟨worker, by rw [hid], ?_⟩)
      rw [state?, hj, Option.map_some, hactive]
  | release id' =>
    have hget : ((Op.release id').apply attempts q).get? id =
        if id = id' then (q.get? id).map (Job.released attempts) else q.get? id :=
      Txn.Table.get?_modify (Job.released attempts) (Job.released_id attempts)
    rw [hj, Option.map_some] at hget
    split at hget
    · next heq =>
      by_cases hlast : (j.released attempts).state = .failed
      · refine .inr (.inr ⟨by rw [heq], ?_⟩)
        rw [state?, hget, Option.map_some, hlast]
      · exact .inl (live_iff.2 ⟨_, hget, hlast⟩)
    · exact .inl (kept _ hget)
  | evict id' =>
    have hget : ((Op.evict id').apply attempts q).get? id = (q.get? id).filter
        fun j => !(decide (j.id = id') && decide (j.state = .failed)) :=
      Txn.Table.get?_deleteWhere _
    rw [hj, Option.filter_some, if_pos (by simp [hstate])] at hget
    exact .inl (kept _ hget)

end

end JobQueue
