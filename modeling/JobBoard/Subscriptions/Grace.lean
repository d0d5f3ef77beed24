import JobBoard.Subscriptions.Handling
import JobBoard.Subscriptions.PastDue

/-!
# The grace period

A PAST_DUE row keeps access for some days after `pastDueSince`. The invoices that
fail set it and the renewals clear it, but a failed Checkout session makes a row
PAST_DUE without it, and an activation, an admin `cancel` and an admin `suspend`
take a PAST_DUE row elsewhere and leave it: `past_due_without_since`.
`past_due_since_first_failure` says that in the runs without these four
`pastDueSince` is the time of the first failure of the episode.
-/

set_option autoImplicit false

namespace JobBoard

open Txn Prog StripePaymentProvider

/-! ## The condition -/

/-- No failed session saves a row, and no activation, `cancel` or `suspend` of an
admin saves a PAST_DUE one. -/
def keepsGrace (op : Op) (d : Db) : Write → Bool
  | .saveSubscription l _ _ =>
    match op with
    | .handleWebhook (some event) => event.type ∉ FAILURE_EVENT_TYPES &&
      (event.type ∉ ACTIVATING_EVENT_TYPES || (d.subscription? l.id).all (·.status ≠ .pastDue))
    | .adminCancel _ | .adminSuspend _ => (d.subscription? l.id).all (·.status ≠ .pastDue)
    | _ => true
  | _ => true

/-- The runs in which all `save`s keep the grace period. -/
def graceRuns : Runs Db Write Op :=
  ⟨fun _ _ => true, fun op d ws => ws.all (keepsGrace op d), false⟩

/-- `pastDueSince` is set on PAST_DUE rows and on no other. -/
def Subscription.GraceKept (s : Subscription) : Prop :=
  s.pastDueSince.isSome = true ↔ s.status = .pastDue

def Db.GraceKept (d : Db) : Prop := ∀ id r, d.subscription? id = some r → r.GraceKept

/-! ## One call -/

section

variable {op : Op} {d : Db} {row e : Subscription}

/-- How a call moves a row into, through or out of PAST_DUE. -/
theorem Saves.grace (h : Saves op row e) (hrow : d.subscription? row.id = some row)
    (hadm : graceRuns.adm op d [.saveSubscription row e row] = true) (hkept : row.GraceKept) :
    e.GraceKept ∧ (e.status = .pastDue →
      (row.status = .pastDue ∧ e.pastDueSince = row.pastDueSince) ∨
      (row.status ≠ .pastDue ∧ ∃ event providerEventId sub, op = .handleWebhook (some event) ∧
        toDomainEvent event = .ok (.subscriptionPastDue providerEventId sub) ∧
        row.externalSubscriptionId = some sub)) := by
  unfold Subscription.GraceKept at hkept ⊢
  simp only [graceRuns, List.all_cons, List.all_nil, Bool.and_true, keepsGrace, hrow,
    Option.all_some] at hadm
  cases op <;> simp only [Saves] at h
  case handleWebhook delivery =>
    obtain ⟨ev, hev, h⟩ := h
    cases delivery with
    | none => cases hev
    | some event =>
      change toDomainEvent event = .ok ev at hev
      have hreports := toDomainEvent_reports hev
      simp only [Bool.and_eq_true, Bool.or_eq_true, decide_eq_true_eq] at hadm
      cases ev <;> simp only [EventSaves, PaymentWebhookService.renewed, Reports] at h hreports
      case subscriptionActivated =>
        obtain ⟨-, -, _, _, rfl⟩ := h
        obtain ⟨-, htype, -⟩ := hreports
        have hst : row.status ≠ .pastDue := hadm.2.resolve_left (fun h => h htype)
        simpa using fun hs => hst (hkept.1 hs)
      case subscriptionRenewed =>
        obtain ⟨-, hst, _, rfl⟩ := h
        rcases hst with hst | hst <;> simp [hst] at hkept ⊢
        exact hkept
      case paymentFailed => exact absurd hreports.2.1 hadm.1
      case subscriptionPastDue e sub =>
        obtain ⟨hsub, hst, _, rfl⟩ := h
        exact ⟨by simp, fun _ => .inr ⟨by simp [hst], event, e, sub, rfl, hev, hsub⟩⟩
      case subscriptionCancelled =>
        obtain ⟨-, -, rfl⟩ := h
        simp
  case cancelSubscription =>
    obtain ⟨-, rfl⟩ := h
    exact ⟨hkept, fun he => .inl ⟨he, rfl⟩⟩
  case changePlan =>
    obtain ⟨-, _, rfl⟩ := h
    exact ⟨hkept, fun he => .inl ⟨he, rfl⟩⟩
  case redeem =>
    obtain ⟨-, _, _, _, rfl⟩ := h
    exact ⟨hkept, fun he => .inl ⟨he, rfl⟩⟩
  case adminCancel =>
    obtain ⟨-, _, rfl⟩ := h
    have hst : row.status ≠ .pastDue := by simpa using hadm
    simpa using fun hs => hst (hkept.1 hs)
  case adminSuspend =>
    obtain ⟨-, -, rfl⟩ := h
    have hst : row.status ≠ .pastDue := by simpa using hadm
    simpa using fun hs => hst (hkept.1 hs)
  case adminReactivate =>
    obtain ⟨-, hst, rfl⟩ := h
    simpa [hst] using hkept
  case assignPlan =>
    obtain ⟨-, -, _, rfl⟩ := h
    simp

theorem Inserts.grace {v : Db} (h : Inserts op v row) : row.status ≠ .pastDue ∧ row.Clean := by
  cases op <;> simp only [Inserts] at h
  case handleWebhook =>
    obtain ⟨_, _, _, _, _, -, -, hst, -, -, -, hclean, -⟩ := h
    exact ⟨by simp [hst], hclean⟩
  case createCompany =>
    obtain ⟨hst, -, -, hclean⟩ := h
    exact ⟨by simp [hst], hclean⟩
  case assignPlan =>
    obtain ⟨-, hst, -, -, hclean, -⟩ := h
    exact ⟨by simp [hst], hclean⟩

end

/-- The failed payment is recorded with the time at which it is handled. -/
theorem markSubscriptionPastDue_alone {config : Config} {uuid : Id} {e sub : String} {d : Db}
    {t : List Write × Db} (h : HandledAlone config uuid (.subscriptionPastDue e sub) d t)
    {l x r : Subscription} (hw : .saveSubscription l x r ∈ t.1) :
    x.pastDueSince = some t.2.now := by
  obtain ⟨-, h⟩ := h
  -- the writes of the tail are on other connections
  have tail : ∀ {a : AuditLog} {c : Id} {s t : List Write × Db},
      (do AuditService.log a
          let _ ← sendToRecruiters c
          return () : M Unit).Yields store AtOnce s t () →
      t.1 = s.1 ∧ t.2.now = s.2.now := by
    intro a c s t h
    simp only [yields_bind, log_yields] at h
    obtain ⟨_, _, rfl, _, _, hr, rfl, -⟩ := h
    rw [sendToRecruiters_yields hr]
    exact ⟨rfl, rfl⟩
  unfold PaymentWebhookService.applyEffect PaymentWebhookService.markSubscriptionPastDue
    SubscriptionRepository.findOne at h
  rw [yields_bind] at h
  obtain ⟨t₁, found, hfind, h⟩ := h
  obtain ⟨rfl, -⟩ := select_yields.1 hfind
  split at h
  · exact h.elim
  · next row hrow =>
    split at h
    · simp only [yields_bind, yields_ofExcept, now, select_yields] at h
      obtain ⟨_, _, ⟨rfl, -⟩, _, time, ⟨rfl, htime⟩, _, _, hsave, h⟩ := h
      obtain ⟨hws, hnow⟩ := tail (by simpa only [yields_bind] using h)
      obtain ⟨rfl, r', -, hcase⟩ := save_yields.1 hsave
      have hmarker : time = d.now := htime.trans (noTick_now (by simp [Write.NoTick]) d)
      rcases hcase with ⟨rfl, -⟩ | ⟨rfl, -, -⟩
      · rw [hws] at hw
        simp at hw
      · rw [hws] at hw
        simp only [List.cons_append, List.nil_append, List.mem_cons, reduceCtorEq,
          Write.saveSubscription.injEq, List.not_mem_nil, or_false, false_or] at hw
        obtain ⟨-, rfl, -⟩ := hw
        rw [hnow, ← hmarker]
    · obtain ⟨hws, -⟩ := tail h
      rw [hws] at hw
      simp at hw

/-! ## Runs -/

theorem grace_serializable : Serializable graceRuns fun _ => True where
  adm := by
    intro op d d' es hd h
    simp only [graceRuns, List.all_eq_true] at h ⊢
    intro w hw
    have := h w hw
    cases w <;> first | exact this | simpa only [keepsGrace, hd.subscription?] using this
  inv := fun _ h => h
  step := fun _ _ => trivial

/-- A group that records a failed payment records it at its time. -/
def RecordsNow (op : Op) (d : Db) (ws : List Write) : Prop :=
  ∀ event providerEventId sub, op = .handleWebhook (some event) →
    toDomainEvent event = .ok (.subscriptionPastDue providerEventId sub) →
    ∀ l x r, .saveSubscription l x r ∈ ws → x.pastDueSince = some d.now

theorem grace_sound (config : Config) :
    Sound (system config) (serially graceRuns).alone (fun _ => True) fun _ op =>
      (Spec.effect store Write.Quiet (SerialEffect graceRuns op)).and
        ⟨fun _ _ d ws => RecordsNow op d ws, fun _ _ _ => True, fun _ _ _ => True⟩ := by
  refine serial_and (E := fun _ op _ d ws => RecordsNow op d ws) grace_serializable
    fun {i op d} _ _ => ?_
  by_cases hop : ∃ event providerEventId sub, op = .handleWebhook (some event) ∧
      toDomainEvent event = .ok (.subscriptionPastDue providerEventId sub)
  · obtain ⟨event, e, sub, rfl, hev⟩ := hop
    show wp store _ _ _ (PaymentWebhookService.handleWebhook config i (some event) >>= _) _ _ d
    rw [wp_bind]
    refine handleWebhook_alone (fun _ _ _ h => h) (fun k d' ws hws => ?_) (fun _ _ _ => trivial)
      (fun _ => rfl) fun ev t hev' ht => ?_
    · obtain ⟨w, rfl, hw⟩ := hws
      rintro _ _ _ _ _ l x r hmem
      rw [List.mem_singleton] at hmem
      exact (hmem ▸ hw : (Write.saveSubscription l x r).Outside).elim
    · change toDomainEvent event = .ok ev at hev'
      rw [hev] at hev'
      cases hev'
      exact ⟨fun _ _ _ _ _ l x r hw => markSubscriptionPastDue_alone ht hw, rfl⟩
  · refine program_wp config i op (fun _ _ d ws event e sub hop' hev => ?_) (fun _ _ _ => trivial)
      (fun _ _ _ => rfl) d
    exact absurd ⟨event, e, sub, hop', hev⟩ hop

/-- The row `id` is PAST_DUE since the commit `g`, after the groups `l` and before
the groups `r`, by which a failed payment was handled. -/
structure Episode (d₀ : Db) (s : RunState) (id : Id) (row : Subscription) (l : List (Txn.Group Write))
    (g : Txn.Group Write) (r : List (Txn.Group Write)) : Prop where
  failure : ∃ x event, (replay store d₀ l).subscription? id = some x ∧ x.status ≠ .pastDue ∧
    s.ops[g.call]? = some (.handleWebhook (some event)) ∧ event.type = "invoice.payment_failed" ∧
    event.isAbout x = true
  start : row.pastDueSince = some (replay store d₀ l).now
  since : ∀ m n, r = m ++ n → ∃ x, (replay store d₀ (l ++ g :: m)).subscription? id = some x ∧
    x.status = .pastDue ∧ x.pastDueSince = row.pastDueSince

section

variable {config : Config} {d₀ : Db} {s : RunState}

theorem grace_log (hs : (system config).Reach (oneAtATime graceRuns) d₀ s)
    {l r : List (Txn.Group Write)} {g : Txn.Group Write} (hlog : s.log = l ++ g :: r) :
    ∃ op, s.ops[g.call]? = some op ∧
      Single store Write.Quiet (SerialEffect graceRuns op) (replay store d₀ l) g.writes ∧
      RecordsNow op (replay store d₀ l) g.writes := by
  obtain ⟨op, hop, -, _, hg, hnow⟩ := ((grace_sound config).good trivial hs).log hlog
  exact ⟨op, hop, hg, hnow⟩

/-- Every row keeps its grace period, and each episode has begun with a failure. -/
theorem grace_run (h₀ : d₀.subscriptions = ∅)
    (hs : (system config).Reach (oneAtATime graceRuns) d₀ s) {l r : List (Txn.Group Write)}
    (hlog : s.log = l ++ r) {id : Id} {row : Subscription}
    (hrow : (replay store d₀ l).subscription? id = some row) :
    row.GraceKept ∧ (row.status = .pastDue → ∃ l₁ g l₂, l = l₁ ++ g :: l₂ ∧
      Episode d₀ s id row l₁ g l₂) := by
  induction l using List.reverseRecOn generalizing r row with
  | nil =>
    rw [replay_nil, Db.subscription?, h₀] at hrow
    cases hrow
  | append_singleton l g ih =>
    have hlog' : s.log = l ++ g :: r := by simp [hlog]
    obtain ⟨op, hop, hg, hnow⟩ := grace_log hs hlog'
    rw [replay_snoc] at hrow
    cases hold : (replay store d₀ l).subscription? id with
    | none =>
      obtain ⟨-, -, -, hins⟩ := serial_new hg grace_serializable hold hrow
      obtain ⟨hst, hsince, -⟩ := hins.grace
      refine ⟨?_, fun h => absurd h hst⟩
      simp [Subscription.GraceKept, hsince, hst]
    | some old =>
      obtain ⟨hkept, hepisode⟩ := ih hlog' hold
      obtain ⟨x, hx, hstep⟩ := serial_row hg grace_serializable hold
      rw [hrow] at hx
      cases hx
      -- the episode of the row before goes on, when its status and its time stay
      have onward : old.status = .pastDue → row.status = .pastDue →
          row.pastDueSince = old.pastDueSince →
          ∃ l₁ g₁ l₂, l ++ [g] = l₁ ++ g₁ :: l₂ ∧ Episode d₀ s id row l₁ g₁ l₂ := by
        intro hst hst' hsince
        obtain ⟨l₁, g₁, l₂, rfl, hep⟩ := hepisode hst
        refine ⟨l₁, g₁, l₂ ++ [g], by simp, hep.failure, hsince ▸ hep.start, fun m n hmn => ?_⟩
        rcases List.eq_nil_or_concat n with rfl | ⟨n', g', rfl⟩
        · rw [List.append_nil] at hmn
          subst hmn
          refine ⟨row, ?_, hst', rfl⟩
          rw [← List.cons_append, ← List.append_assoc, replay_snoc]
          exact hrow
        · rw [List.concat_eq_append, ← List.append_assoc] at hmn
          obtain ⟨x, hx, hxst, hxs⟩ := hep.since m n' (List.append_inj' hmn rfl).1
          exact ⟨x, hx, hxst, hxs.trans hsince.symm⟩
      cases hstep with
      | same => exact ⟨hkept, fun h => onward h h rfl⟩
      | consume => exact ⟨hkept, fun h => onward h h rfl⟩
      | save hsaves hw hadm =>
        have hold' : (replay store d₀ l).subscription? old.id = some old := by
          rw [Table.key_of_get? hold]
          exact hold
        obtain ⟨hkept', hmove⟩ := hsaves.grace hold' hadm hkept
        refine ⟨hkept', fun hst => ?_⟩
        rcases hmove hst with ⟨hold_st, hsince⟩ | ⟨hold_st, event, e, sub, rfl, hev, hext⟩
        · exact onward hold_st hst hsince
        · have hreports := toDomainEvent_reports hev
          have habout : event.isAbout old = true := by
            simp [StripeEvent.isAbout, hext, subscription_of_pastDue hreports]
          refine ⟨l, g, [], rfl, ⟨old, event, hold, hold_st, hop, hreports.2.1, habout⟩,
            hnow event e sub rfl hev _ _ _ hw, fun m n hmn => ?_⟩
          obtain ⟨rfl, -⟩ := List.nil_eq_append_iff.1 hmn
          exact ⟨row, by rw [replay_snoc]; exact hrow, hst, rfl⟩

end

/-- Each row has `pastDueSince` exactly while it is PAST_DUE, and then it is the
time of the failure that began the episode, from which access lasts for the
grace period. -/
structure GraceFromFirstFailure (d₀ : Db) (s : RunState) : Prop where
  kept : s.db.GraceKept
  episode : ∀ id row, s.db.subscription? id = some row → row.status = .pastDue →
    ∃ l g r, s.log = l ++ g :: r ∧ Episode d₀ s id row l g r ∧
      ∀ gracePeriodDays time, isSubscriptionWithinAccess row gracePeriodDays time = true ↔
        time < addDays (replay store d₀ l).now gracePeriodDays

/-- From a table without subscriptions, in the runs one call at a time that keep
the grace period, `pastDueSince` is the time of the first failure. -/
theorem past_due_since_first_failure (config : Config) (d₀ : Db) (h₀ : d₀.subscriptions = ∅)
    (s : RunState) (hs : (system config).Reach (oneAtATime graceRuns) d₀ s) :
    GraceFromFirstFailure d₀ s := by
  have hdb : s.db = replay store d₀ s.log := ((grace_sound config).good trivial hs).replay
  have hlog : s.log = s.log ++ [] := by simp
  constructor
  · intro id row hrow
    rw [hdb] at hrow
    exact (grace_run h₀ hs hlog hrow).1
  · intro id row hrow hst
    rw [hdb] at hrow
    obtain ⟨l, g, r, hl, hep⟩ := (grace_run h₀ hs hlog hrow).2 hst
    refine ⟨l, g, r, hl, hep, fun gracePeriodDays time => ?_⟩
    simp [isSubscriptionWithinAccess, hst, hep.start]

/-! ## A failed session -/

/-- The status of the row 0 and its `pastDueSince`. -/
def graceOf (d : Db) : Option (SubscriptionStatus × Option Time) :=
  (d.subscription? 0).map fun r => (r.status, r.pastDueSince)

/-- The payment of the session that pays the row fails: the row is PAST_DUE, with
access for ever. -/
theorem past_due_without_since :
    ¬ ∀ (config : Config) (d₀ : Db) (s : RunState), d₀.subscriptions = ∅ →
      (system config).Reach (oneAtATime .all) d₀ s → GraceFromFirstFailure d₀ s := by
  intro h
  have hrun : ((system .default).runLabels (oneAtATime .all) (State.init verifiedUser)
      (alone 0 (.createCompany 300 ⟨"Atlas", "001234567000089", none⟩) 12 ++
        alone 1 (.handleWebhook (some
          (checkoutEvent "evt_1" "checkout.session.completed" "cs_1" "sub_1"))) 18 ++
        alone 2 (.handleWebhook (some
          (checkoutEvent "evt_2" "checkout.session.async_payment_failed" "cs_1" "sub_1"))) 8)).map
      (fun s => graceOf s.db) = some (some (.pastDue, none)) := by
    decide
  obtain ⟨s, hs, hst⟩ := System.reach_of_run hrun
  simp only [graceOf, Option.map_eq_some_iff, Prod.mk.injEq] at hst
  obtain ⟨row, hrow, hdue, hsince⟩ := hst
  have := ((h .default verifiedUser s rfl hs).kept 0 row hrow).2 hdue
  rw [hsince] at this
  cases this

/-- A failed payment of an invoice. -/
def failedInvoice (id invoice sub : String) : StripeEvent :=
  ⟨id, "invoice.payment_failed", ⟨invoice, none, none, none, none, some sub, 0, "open"⟩⟩

/-- The condition admits a failed invoice. -/
theorem past_due_since_failed_invoice :
    ∃ s : RunState, graceOf s.db = some (.pastDue, some 5) ∧ GraceFromFirstFailure verifiedUser s := by
  have hrun : ((system .default).runLabels (oneAtATime graceRuns) (State.init verifiedUser)
      (alone 0 (.createCompany 300 ⟨"Atlas", "001234567000089", none⟩) 12 ++
        alone 1 (.handleWebhook (some
          (checkoutEvent "evt_1" "checkout.session.completed" "cs_1" "sub_1"))) 18 ++
        alone 2 (.clock 5) 2 ++
        alone 3 (.handleWebhook (some (failedInvoice "evt_2" "in_1" "sub_1"))) 10)).map
      (fun s => graceOf s.db) = some (some (.pastDue, some 5)) := by
    decide
  obtain ⟨s, hs, hst⟩ := System.reach_of_run hrun
  exact ⟨s, hst, past_due_since_first_failure .default verifiedUser rfl s hs⟩

end JobBoard
