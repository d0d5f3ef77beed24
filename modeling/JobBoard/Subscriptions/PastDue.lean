import JobBoard.Subscriptions.Serial

/-!
# Who makes a row PAST_DUE

Stripe reports a failed payment of a subscription by the subscription's id, and
a failed or abandoned Checkout session by its company. `markPastDue` demotes the
ACTIVE row of that company, whichever subscription paid it:
`abandoned_session_demotes`. `past_due_owned` says that nothing else goes wrong.
-/

set_option autoImplicit false

namespace JobBoard

open Txn Prog StripePaymentProvider

namespace StripeEvent

/-- The Stripe subscription an event is about. -/
def subscription (event : StripeEvent) : Option String :=
  if event.type ∈ ACTIVATING_EVENT_TYPES ++ FAILURE_EVENT_TYPES then event.object.subscription
  else if event.type ∈ ["invoice.paid", "invoice.payment_failed"] then
    event.object.parentSubscription
  else if event.type ∈ ["customer.subscription.updated", "customer.subscription.deleted"] then
    some event.object.id
  else none

/-- The event is about the Stripe subscription that pays the row. -/
def isAbout (event : StripeEvent) (row : Subscription) : Bool :=
  row.externalSubscriptionId.isSome && event.subscription = row.externalSubscriptionId

end StripeEvent

/-! ## The condition -/

/-- The failed or abandoned Checkout session a call is about. -/
def Op.failedSession : Op → Option StripeEvent
  | .handleWebhook (some event) => if event.type ∈ FAILURE_EVENT_TYPES then some event else none
  | _ => none

/-- A failed session only saves the row that its own subscription pays. -/
def sessionOwnsRow (op : Op) (d : Db) : Write → Bool
  | .saveSubscription l _ _ =>
    op.failedSession.all fun event => (d.subscription? l.id).all event.isAbout
  | _ => true

/-- The runs in which failed sessions only save rows of their own. -/
def sessionRuns : Runs Db Write Op :=
  ⟨fun _ _ => true, fun op d ws => ws.all (sessionOwnsRow op d), false⟩

/-- Any other `UPDATE` that makes an ACTIVE row PAST_DUE finds it with the status
and the subscription its call has loaded. -/
def pastDueAsLoaded (op : Op) (d : Db) : Write → Bool
  | .saveSubscription l e r =>
    op.failedSession.isSome || e.status = r.status || e.status ≠ .pastDue ||
      (d.subscription? l.id).all fun row => row.status ≠ .active ||
        (l.status = .active && l.externalSubscriptionId = row.externalSubscriptionId)
  | _ => true

/-- The interleaved runs in which the rows a call makes PAST_DUE are its own. -/
def pastDueRuns : Runs Db Write Op :=
  ⟨fun _ _ => true, fun op d ws => ws.all fun w => sessionOwnsRow op d w && pastDueAsLoaded op d w,
    false⟩

section

variable {op : Op} {d : Db} {es : List Write} {l e r row row' : Subscription} {event : StripeEvent}

theorem sessionOwnsRow_save (h : sessionOwnsRow op d (.saveSubscription l e r) = true)
    (hev : op.failedSession = some event) (hrow : d.subscription? l.id = some row) :
    event.isAbout row = true := by
  simpa [sessionOwnsRow, hev, hrow] using h

theorem pastDueAsLoaded_save (h : pastDueAsLoaded op d (.saveSubscription l e r) = true)
    (hev : op.failedSession = none) (hne : e.status ≠ r.status) (he : e.status = .pastDue)
    (hrow : d.subscription? l.id = some row) (hactive : row.status = .active) :
    l.status = .active ∧ l.externalSubscriptionId = row.externalSubscriptionId := by
  have hr : ¬ SubscriptionStatus.pastDue = r.status := he ▸ hne
  simpa [pastDueAsLoaded, hev, he, hr, hrow, hactive] using h

theorem failedSession_eq (h : op.failedSession = some event) :
    op = .handleWebhook (some event) := by
  unfold Op.failedSession at h
  split at h
  · split at h
    · cases h
      rfl
    · cases h
  · cases h

/-! ## What an event may save -/

theorem subscription_of_pastDue {providerEventId sub : String}
    (h : Reports event (.subscriptionPastDue providerEventId sub)) :
    event.subscription = some sub := by
  obtain ⟨-, htype, hsub⟩ := h
  unfold StripeEvent.subscription
  simp [htype, hsub, ACTIVATING_EVENT_TYPES, FAILURE_EVENT_TYPES]

/-- A call that makes the ACTIVE row it loaded PAST_DUE handles an event about
its subscription, or a failed session. -/
theorem Saves.pastDue (h : Saves op l e) (hl : l.status = .active) (he : e.status = .pastDue)
    (hsession : op.failedSession = none) :
    ∃ event, op = .handleWebhook (some event) ∧ event.isAbout l = true := by
  cases op <;> simp only [Saves] at h
  case handleWebhook delivery =>
    obtain ⟨ev, hev, h⟩ := h
    cases delivery with
    | none => cases hev
    | some event =>
      refine ⟨event, rfl, ?_⟩
      change toDomainEvent event = .ok ev at hev
      cases ev <;> simp only [EventSaves] at h
      case subscriptionActivated =>
        obtain ⟨-, -, _, _, rfl⟩ := h
        cases he
      case subscriptionRenewed =>
        obtain ⟨-, -, _, rfl⟩ := h
        cases he
      case paymentFailed =>
        obtain ⟨-, this, -⟩ := toDomainEvent_reports hev
        simp [Op.failedSession, this] at hsession
      case subscriptionPastDue =>
        obtain ⟨hsub, -⟩ := h
        simp [StripeEvent.isAbout, hsub, subscription_of_pastDue (toDomainEvent_reports hev)]
      case subscriptionCancelled =>
        obtain ⟨-, -, rfl⟩ := h
        cases he
  all_goals
    exfalso
    grind

theorem RowStep.pastDue (h : RowStep op d es row row') (hadm : pastDueRuns.adm op d es = true)
    (hrow : d.subscription? row.id = some row) (hactive : row.status = .active)
    (hdue : row'.status = .pastDue) :
    ∃ event, op = .handleWebhook (some event) ∧ event.isAbout row = true := by
  cases h with
  | same =>
    rw [hactive] at hdue
    cases hdue
  | @save l e r hes hl hc hs =>
    subst hes
    rw [← hl] at hrow
    simp only [pastDueRuns, List.all_cons, List.all_nil, Bool.and_true, Bool.and_eq_true] at hadm
    cases hev : op.failedSession with
    | some event => exact ⟨event, failedSession_eq hev, sessionOwnsRow_save hadm.1 hev hrow⟩
    | none =>
      change setColumn e.status r.status row.status = .pastDue at hdue
      rcases setColumn_eq e.status r.status row.status with h | ⟨h, hne⟩
      · rw [h, hactive] at hdue
        cases hdue
      · rw [h] at hdue
        obtain ⟨hla, hext⟩ := pastDueAsLoaded_save hadm.2 hev hne hdue hrow hactive
        obtain ⟨event, hop, habout⟩ := hs.pastDue hla hdue hev
        exact ⟨event, hop, by rw [← habout]; simp [StripeEvent.isAbout, hext]⟩
  | consume =>
    change row.status = .pastDue at hdue
    rw [hactive] at hdue
    cases hdue

/-- A failed session changes no row that another subscription pays. -/
theorem RowStep.failedSession (h : RowStep op d es row row')
    (hadm : pastDueRuns.adm op d es = true) (hev : op.failedSession = some event)
    (hrow : d.subscription? row.id = some row) (hother : event.isAbout row = false) :
    row' = row := by
  cases h with
  | same => rfl
  | @save l e r hes hl hc hs =>
    subst hes
    rw [← hl] at hrow
    simp only [pastDueRuns, List.all_cons, List.all_nil, Bool.and_true, Bool.and_eq_true] at hadm
    rw [sessionOwnsRow_save hadm.1 hev hrow] at hother
    cases hother
  | consume hes hop =>
    obtain ⟨_, _, _, rfl⟩ := hop
    cases hev

end

/-! ## Runs -/

theorem pastDue_interleavable : Interleavable pastDueRuns (fun _ => True) NoMore where
  adm := by
    intro op d d' es hes hr _ h
    cases hes with
    | @save l e r v u hv hl hsaves hu hr' hunique =>
      have hlock : Key.row "subscriptions" l.id ∈ store.locks [.saveSubscription l e r] := by
        simp [Store.locks, store, Write.keys, hsaves.id_eq.1]
      simp only [pastDueRuns, List.all_cons, sessionOwnsRow, pastDueAsLoaded, hr.row l.id hlock]
        at h ⊢
      exact h
    | insert => rfl
    | consume => rfl
  inv := fun _ h => h
  step := fun _ _ => trivial
  more := noMore_reliable _ _

theorem sessions_serializable : Serializable sessionRuns fun _ => True where
  adm := by
    intro op d d' es hd h
    simp only [sessionRuns, List.all_eq_true] at h ⊢
    intro w hw
    have := h w hw
    cases w <;> first | exact this | simpa only [sessionOwnsRow, hd.subscription?] using this
  inv := fun _ h => h
  step := fun _ _ => trivial

/-- One at a time, a row is as its call has loaded it. -/
theorem sessions_effect {op : Op} {d : Db} {es : List Write} (h : SerialEffect sessionRuns op d es) :
    Effect pastDueRuns op d es := by
  obtain ⟨heff, hadm⟩ := h
  refine ⟨heff.interleaved, ?_⟩
  simp only [sessionRuns, pastDueRuns, List.all_eq_true] at hadm ⊢
  intro w hw
  rw [hadm w hw, Bool.true_and]
  cases heff with
  | save hv hl hsaves hu hr hunique =>
    simp only [List.mem_singleton] at hw
    subst hw
    obtain ⟨-, hrow, rfl⟩ := SubEffect.save_loaded (.save hv hl hsaves hu hr hunique)
    simp only [pastDueAsLoaded, hrow, Option.all_some]
    cases hst : Subscription.status _ <;> simp
  | insert => simp only [List.mem_singleton] at hw; subst hw; rfl
  | consume => simp only [List.mem_singleton] at hw; subst hw; rfl

/-- Only an event about a row's own Stripe subscription took it from ACTIVE to PAST_DUE. -/
def OwnPastDue (d₀ : Db) (s : RunState) : Prop :=
  ∀ l g r, s.log = l ++ g :: r → ∀ id row row',
    (replay store d₀ l).subscription? id = some row →
    (replay store d₀ (l ++ [g])).subscription? id = some row' →
    row.status = .active → row'.status = .pastDue →
    ∃ event, s.ops[g.call]? = some (.handleWebhook (some event)) ∧ event.isAbout row = true

/-- A failed session changed no row that another subscription pays. -/
def SessionsKeepOthers (d₀ : Db) (s : RunState) : Prop :=
  ∀ l g r, s.log = l ++ g :: r → ∀ op event, s.ops[g.call]? = some op →
    op.failedSession = some event → ∀ id row, (replay store d₀ l).subscription? id = some row →
    event.isAbout row = false → (replay store d₀ (l ++ [g])).subscription? id = some row

theorem pastDue_of_effects {d₀ : Db} {s : RunState} (h : ∀ l g r, s.log = l ++ g :: r →
      ∃ op, s.ops[g.call]? = some op ∧
        Single store Write.Quiet (Effect pastDueRuns op) (replay store d₀ l) g.writes) :
    OwnPastDue d₀ s ∧ SessionsKeepOthers d₀ s := by
  constructor
  · intro l g r hlog id row row' hrow hrow' hactive hdue
    obtain ⟨op, hop, hg⟩ := h l g r hlog
    obtain ⟨x, hx, hstep⟩ := group_row hg hrow
    rw [replay_snoc] at hrow'
    rw [hrow'] at hx
    cases hx
    rcases hstep with rfl | ⟨d₁, es, hd₁, hP, -, hstep⟩
    · rw [hactive] at hdue
      cases hdue
    · have hrow₁ : d₁.subscription? row.id = some row := by
        rw [Db.subscription?, hd₁, Table.key_of_get? hrow]
        exact hrow
      obtain ⟨event, rfl, habout⟩ := hstep.pastDue hP.2 hrow₁ hactive hdue
      exact ⟨event, hop, habout⟩
  · intro l g r hlog op event hop hev id row hrow hother
    obtain ⟨op', hop', hg⟩ := h l g r hlog
    rw [hop] at hop'
    cases hop'
    obtain ⟨x, hx, hstep⟩ := group_row hg hrow
    rw [replay_snoc, hx]
    rcases hstep with rfl | ⟨d₁, es, hd₁, hP, -, hstep⟩
    · rfl
    · have hrow₁ : d₁.subscription? row.id = some row := by
        rw [Db.subscription?, hd₁, Table.key_of_get? hrow]
        exact hrow
      rw [hstep.failedSession hP.2 hev hrow₁ hother]

/-- A Checkout session of the company 0 that expired: no subscription was created. -/
def expiredSession (id session : String) : StripeEvent :=
  ⟨id, "checkout.session.expired", ⟨session, some 0, some .starter, none, none, none, 0, "expired"⟩⟩

/-- The company pays through one session, and another one it had opened expires. -/
def abandonedSessionRun : List (Label Error Op) :=
  alone 0 (.createCompany 300 ⟨"Atlas", "001234567000089", none⟩) 12 ++
  alone 1 (.handleWebhook (some
    (checkoutEvent "evt_1" "checkout.session.completed" "cs_1" "sub_1"))) 18 ++
  alone 2 (.handleWebhook (some (expiredSession "evt_2" "cs_2"))) 8

/-- The status and the Stripe subscription of the row 0. -/
def paidBy (d : Db) : Option (SubscriptionStatus × Option String) :=
  (d.subscription? 0).map fun r => (r.status, r.externalSubscriptionId)

end JobBoard
