import JobBoard.Subscriptions.Interleaving

/-!
# Status changes

Each operation, on the row it loaded, changes the status along an edge of
`SUBSCRIPTION_STATUS_TRANSITIONS` (`Saves.status`); only the admin `cancel` does
not ask the table, and takes an EXPIRED row to CANCELLED. But `save` writes the
status of the loaded entity whatever the row has become: a call that waits
between its read and its `save` undoes the status that others have committed
(`stale_save_resurrects`). `committed_status_changes` says that nothing else goes
wrong: in the runs in which each `UPDATE` of the status column finds the row in
the status its call has loaded, all committed changes are edges.
-/

set_option autoImplicit false

namespace JobBoard

open Txn Prog

/-! ## One call -/

theorem Saves.status {op : Op} {l e : Subscription} (h : Saves op l e) :
    e.status = l.status ∨ e.status ∈ SUBSCRIPTION_STATUS_TRANSITIONS l.status ∨
      (∃ id, op = .adminCancel id) ∧ l.status = .expired := by
  cases op <;> simp only [Saves] at h
  case handleWebhook delivery =>
    obtain ⟨event, -, h⟩ := h
    cases event <;> simp only [EventSaves] at h
    case subscriptionActivated =>
      obtain ⟨-, hl | hl, _, _, rfl⟩ := h <;> simp [hl, SUBSCRIPTION_STATUS_TRANSITIONS]
    case subscriptionRenewed =>
      obtain ⟨-, hl | hl, _, rfl⟩ := h <;>
        simp [hl, PaymentWebhookService.renewed, SUBSCRIPTION_STATUS_TRANSITIONS]
    case paymentFailed =>
      obtain ⟨-, hl, rfl⟩ := h
      simp [hl, SUBSCRIPTION_STATUS_TRANSITIONS]
    case subscriptionPastDue =>
      obtain ⟨-, hl, _, rfl⟩ := h
      simp [hl, SUBSCRIPTION_STATUS_TRANSITIONS]
    case subscriptionCancelled =>
      obtain ⟨-, hedge, rfl⟩ := h
      exact .inr (.inl hedge)
  case cancelSubscription =>
    obtain ⟨-, rfl⟩ := h
    exact .inl rfl
  case changePlan =>
    obtain ⟨-, _, rfl⟩ := h
    exact .inl rfl
  case redeem =>
    obtain ⟨-, _, _, _, rfl⟩ := h
    exact .inl rfl
  case adminCancel id =>
    obtain ⟨-, _, rfl⟩ := h
    cases hl : l.status <;> simp [SUBSCRIPTION_STATUS_TRANSITIONS]
  case adminSuspend =>
    obtain ⟨-, hl | hl | hl, rfl⟩ := h <;> simp [hl, SUBSCRIPTION_STATUS_TRANSITIONS]
  case adminReactivate =>
    obtain ⟨-, hl, rfl⟩ := h
    simp [hl, SUBSCRIPTION_STATUS_TRANSITIONS]
  case assignPlan =>
    obtain ⟨-, hl, _, rfl⟩ := h
    simp only [LIVE_STATUSES, List.mem_cons, List.not_mem_nil, or_false] at hl
    rcases hl with hl | hl | hl | hl <;> simp [hl, SUBSCRIPTION_STATUS_TRANSITIONS]

/-! ## The condition -/

def Op.isAdminCancel : Op → Bool
  | .adminCancel _ => true
  | _ => false

/-- An `UPDATE` that sets the status column finds the row in the status the call
has loaded, and an admin `cancel` does not find it EXPIRED. -/
def statusAsLoaded (op : Op) (d : Db) : Write → Bool
  | .saveSubscription l e r =>
    e.status = r.status || (d.subscription? l.id).all fun row =>
      row.status = l.status && !(op.isAdminCancel && row.status = .expired)
  | _ => true

/-- The runs in which no `save` sets a status on a row it does not know. -/
def freshStatusRuns : Runs Db Write Op :=
  ⟨fun _ _ => true, fun op d ws => ws.all (statusAsLoaded op d), false⟩

theorem statusAsLoaded_save {op : Op} {d : Db} {l e r row : Subscription}
    (h : freshStatusRuns.adm op d [.saveSubscription l e r] = true) (hne : e.status ≠ r.status)
    (hrow : d.subscription? l.id = some row) :
    row.status = l.status ∧ ¬ ((∃ id, op = .adminCancel id) ∧ row.status = .expired) := by
  simp only [freshStatusRuns, List.all_cons, List.all_nil, Bool.and_true, statusAsLoaded,
    Bool.or_eq_true, decide_eq_true_eq, hne, false_or, hrow, Option.all_some, Bool.and_eq_true,
    Bool.not_eq_true', Bool.and_eq_false_iff, decide_eq_false_iff_not] at h
  refine ⟨h.1, ?_⟩
  rintro ⟨⟨id, rfl⟩, hx⟩
  rcases h.2 with h | h
  · cases h
  · exact h hx

theorem freshStatus_interleavable : Interleavable freshStatusRuns (fun _ => True) NoMore where
  adm := by
    intro op d d' es hes hr _ h
    cases hes with
    | @save l e r v u hv hl hsaves hu hr' hunique =>
      have hlock : Key.row "subscriptions" l.id ∈ store.locks [.saveSubscription l e r] := by
        simp [Store.locks, store, Write.keys, hsaves.id_eq.1]
      simp only [freshStatusRuns, List.all_cons, statusAsLoaded, hr.row l.id hlock] at h ⊢
      exact h
    | insert => rfl
    | consume => rfl
  inv := fun _ h => h
  step := fun _ _ => trivial
  more := noMore_reliable _ _

theorem RowStep.status {op : Op} {d : Db} {es : List Write} {row row' : Subscription}
    (h : RowStep op d es row row') (hadm : freshStatusRuns.adm op d es = true)
    (hrow : d.subscription? row.id = some row) :
    row'.status = row.status ∨ row'.status ∈ SUBSCRIPTION_STATUS_TRANSITIONS row.status := by
  cases h with
  | same => exact .inl rfl
  | @save l e r hes hl hc hs =>
    subst hes
    rcases setColumn_eq e.status r.status row.status with h | ⟨h, hne⟩
    · exact .inl h
    · obtain ⟨hst, hcancel⟩ := statusAsLoaded_save hadm hne (hl ▸ hrow)
      rcases hs.status with he | he | he
      · exact .inl (h.trans (he.trans hst.symm))
      · refine .inr ?_
        rw [hst]
        show setColumn e.status r.status row.status ∈ _
        rw [h]
        exact he
      · exact absurd (hst ▸ he) hcancel
  | consume => exact .inl rfl

/-! ## Runs -/

/-- Every committed change of a status is an edge of the table. -/
def CommitsAreTransitions (d₀ : Db) (log : List (Txn.Group Write)) : Prop :=
  ∀ l g r, log = l ++ g :: r → ∀ id row row',
    (replay store d₀ l).subscription? id = some row →
    (replay store d₀ (l ++ [g])).subscription? id = some row' →
    row'.status = row.status ∨ row'.status ∈ SUBSCRIPTION_STATUS_TRANSITIONS row.status

/-- Terminal statuses stay, and ACTIVE never goes back to TRIAL. -/
def TerminalStays (d₀ : Db) (log : List (Txn.Group Write)) : Prop :=
  ∀ l m r, log = l ++ m ++ r → ∀ id row row',
    (replay store d₀ l).subscription? id = some row →
    (replay store d₀ (l ++ m)).subscription? id = some row' →
    (row.status = .cancelled ∨ row.status = .expired → row'.status = row.status) ∧
    (row.status = .active → row'.status ≠ .trial)

/-- What a path of transitions preserves. -/
structure StatusKept (a b : SubscriptionStatus) : Prop where
  terminal : a = .cancelled ∨ a = .expired → b = a
  trial : b = .trial → a = .trial

theorem StatusKept.of_edge {a b : SubscriptionStatus}
    (h : b = a ∨ b ∈ SUBSCRIPTION_STATUS_TRANSITIONS a) : StatusKept a b := by
  rcases h with rfl | h
  · exact ⟨fun _ => rfl, id⟩
  · constructor <;> cases a <;> cases b <;> simp_all [SUBSCRIPTION_STATUS_TRANSITIONS]

theorem StatusKept.trans {a b c : SubscriptionStatus} (hab : StatusKept a b)
    (hbc : StatusKept b c) : StatusKept a c where
  terminal := by
    intro h
    have hb := hab.terminal h
    rw [← hb] at h
    rw [hbc.terminal h, hb]
  trial := fun h => hab.trial (hbc.trial h)

theorem freshStatus_step {config : Config} {d₀ : Db} {s : RunState}
    (hs : (system config).Reach freshStatusRuns d₀ s) {l r : List (Txn.Group Write)}
    {g : Txn.Group Write} (hlog : s.log = l ++ g :: r) {id : Id} {row : Subscription}
    (hrow : (replay store d₀ l).subscription? id = some row) :
    ∃ row', (replay store d₀ (l ++ [g])).subscription? id = some row' ∧
      (row'.status = row.status ∨ row'.status ∈ SUBSCRIPTION_STATUS_TRANSITIONS row.status) := by
  obtain ⟨op, -, -, hg⟩ := interleaved_log freshStatus_interleavable trivial hs hlog
  obtain ⟨row', hrow', h⟩ := group_row hg hrow
  refine ⟨row', by rw [replay_snoc]; exact hrow', ?_⟩
  rcases h with rfl | ⟨d₁, es, hd₁, hP, -, hstep⟩
  · exact .inl rfl
  · refine hstep.status hP.2 ?_
    rw [Db.subscription?, hd₁, Table.key_of_get? hrow]
    exact hrow

/-- In every interleaved run in which each `UPDATE` of the status column finds
the row as its call has loaded it, committed status changes are transitions. -/
theorem committed_status_changes (config : Config) (d₀ : Db) (s : RunState)
    (hs : (system config).Reach freshStatusRuns d₀ s) :
    CommitsAreTransitions d₀ s.log ∧ TerminalStays d₀ s.log ∧ s.db = replay store d₀ s.log := by
  refine ⟨?_, ?_, ((interleaved_sound config freshStatus_interleavable).good trivial hs).replay⟩
  · intro l g r hlog id row row' hrow hrow'
    obtain ⟨x, hx, h⟩ := freshStatus_step hs hlog hrow
    rw [hrow'] at hx
    cases hx
    exact h
  · intro l m r hlog id row row' hrow hrow'
    have hkept := rows_along (fun a b => StatusKept a.status b.status)
      (fun _ => .of_edge (.inl rfl)) StatusKept.trans
      (fun l g r hlog id row hrow => by
        obtain ⟨x, hx, h⟩ := freshStatus_step hs hlog hrow
        exact ⟨x, hx, .of_edge h⟩) hlog hrow
    obtain ⟨x, hx, hk⟩ := hkept
    rw [hrow'] at hx
    cases hx
    refine ⟨hk.terminal, fun ha ht => ?_⟩
    rw [hk.trial ht] at ha
    cases ha

/-! ## Stale saves -/

/-- A plan change waits for Stripe while an admin cancels the subscription. -/
def staleSaveRun : List (Label Error Op) :=
  [.spawn (.changePlan 300 .growth), .step 0, .step 0, .step 0, .spawn (.adminCancel 50),
    .step 1, .step 1, .step 1, .step 1, .step 0, .step 0]

/-- The status of a row after the first `n` commits, and after all of them. -/
def statusAt (d₀ : Db) (log : List (Txn.Group Write)) (id : Id) (n : Nat) :
    Option SubscriptionStatus × Option SubscriptionStatus :=
  (((replay store d₀ (log.take n)).subscription? id).map (·.status),
    ((replay store d₀ (log.take n ++ log.drop n)).subscription? id).map (·.status))

/-- The `save` of the plan change takes the row from CANCELLED back to ACTIVE. -/
theorem stale_save_resurrects :
    ¬ ∀ (config : Config) (d₀ : Db) (s : RunState), (system config).Reachable d₀ s →
      CommitsAreTransitions d₀ s.log ∧ TerminalStays d₀ s.log := by
  intro h
  have hrun : ((system .default).runLabels .all (State.init paidCompany) staleSaveRun).map
      (fun s => statusAt paidCompany s.log 50 2) = some (some .cancelled, some .active) := by
    decide
  obtain ⟨s, hs, hst⟩ := System.reach_of_run hrun
  simp only [statusAt, Prod.mk.injEq, Option.map_eq_some_iff] at hst
  obtain ⟨⟨row, hrow, hc⟩, row', hrow', ha⟩ := hst
  have := ((h .default paidCompany s hs).2 _ _ [] (by simp) 50 row row' hrow hrow').1 (.inl hc)
  rw [ha, hc] at this
  cases this

/-- The condition admits calls that do not overlap: the same two, one after the other. -/
theorem committed_status_changes_serial :
    ∃ s : RunState, s.db.subscriptions.rows.map (·.status) = [.cancelled] ∧
      CommitsAreTransitions paidCompany s.log ∧ TerminalStays paidCompany s.log ∧
      s.db = replay store paidCompany s.log := by
  have hrun : ((system .default).runLabels freshStatusRuns (State.init paidCompany)
      (.spawn (.changePlan 300 .growth) :: List.replicate 7 (.step 0) ++
        .spawn (.adminCancel 50) :: List.replicate 5 (.step 1))).map
      (fun s => s.db.subscriptions.rows.map (·.status)) = some [.cancelled] := by
    decide
  obtain ⟨s, hs, hst⟩ := System.reach_of_run hrun
  exact ⟨s, hst, committed_status_changes .default paidCompany s hs⟩

end JobBoard
