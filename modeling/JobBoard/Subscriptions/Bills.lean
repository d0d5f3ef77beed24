import JobBoard.Lib.Confined
import JobBoard.Subscriptions.Prices

/-!
# What is invoiced

Only the handlers of events insert invoices (`program_confined`). When the rows are in step with
Stripe, the invoice of an event is for what Stripe has charged for it, and its emission does not
fail for the price (`handleWebhook_bills`).
-/

set_option autoImplicit false

namespace JobBoard

open Txn Prog StripePaymentProvider SubscriptionCheckoutService

/-! ## Amounts -/

/-- The invoice of the event, for what Stripe has charged. -/
def BillsCharge (checkouts : String → CheckoutSession) (calls : List StripeCall) (ev : WebhookEvent)
    (invoice : Invoice) : Prop :=
  invoice.stripeInvoiceId = ev.providerEventId ∧
    charged checkouts calls ev = some (invoice.amountTTC, invoice.currency)

section

variable {config : Config} {checkouts : String → CheckoutSession} {calls : List StripeCall}
  {ev : WebhookEvent} {plan : SubscriptionPlan} {amount : Int} {uuid : Id}

theorem amountTTC_ok (h : amountTTC config plan = .ok amount) :
    ∃ price, resolveMonthlyPriceHtInCentimes plan config = .ok price ∧
      (computeVat price).amountTTC = amount := by
  unfold amountTTC at h
  cases hprice : resolveMonthlyPriceHtInCentimes plan config with
  | ok price =>
    rw [hprice] at h
    exact ⟨price, rfl, Except.ok.inj h⟩
  | error e =>
    rw [hprice] at h
    cases h

/-- Without an error, the amount is that of a proration or the price of the plan. -/
theorem amounts_priced (h : amountTTC config plan = .ok amount) (params : EmitParams)
    (hplan : params.subscription.plan = plan) :
    ∃ vat, InvoiceEmissionService.amounts config params = .ok vat ∧
      vat.amountTTC = params.amountTTCOverride.getD amount := by
  unfold InvoiceEmissionService.amounts
  cases params.amountTTCOverride with
  | some amountTTC => exact ⟨_, rfl, by simp [computeVatFromTtc]⟩
  | none =>
    obtain ⟨price, hprice, hamount⟩ := amountTTC_ok h
    rw [hplan, hprice]
    exact ⟨computeVat price, rfl, hamount⟩

theorem unpriced_ne {e : Error} (h : ∀ m, e ≠ .internalServerError m)
    (hquota : e ≠ .enterpriseQuotaNotAutomated) : ¬ e.Unpriced config := by
  rintro ⟨plan, hprice⟩
  rcases resolveMonthlyPrice_error hprice with he | he
  · exact hquota he
  · exact h _ he

theorem besides_unpriced (P : Invoice → Prop) :
    Besides (fun ws => ∀ i, .insertInvoice i ∈ ws → P i) OutsideWrites
      fun e => ¬ e.Unpriced config where
  nil := by simp
  write := fun w hw i hi => absurd (List.mem_singleton.1 hi).symm (hw i)
  outside := fun w hw => ⟨w, rfl, hw⟩
  err := fun _ => unpriced_ne

/-- An event that is charged at the price of the plan is invoiced at what is charged. -/
theorem emits_charged (ev : WebhookEvent) (hcurrency : config.getCurrency = "MAD")
    (hplan : amountTTC config plan = .ok amount) (hcharged : charged checkouts calls ev =
      some (ev.amountTTCOverride.getD amount, config.getCurrency)) :
    Emits config uuid ev.providerEventId ev.amountTTCOverride plan
      (fun ws => ∀ i, .insertInvoice i ∈ ws → BillsCharge checkouts calls ev i)
      fun e => ¬ e.Unpriced config := by
  intro subscription company hsame
  obtain ⟨vat, hvat, hamount⟩ := amounts_priced hplan
    ⟨subscription, company, ev.providerEventId, ev.amountTTCOverride⟩ hsame
  refine ⟨fun error herr => ?_, fun vat' issuedAt number hok i hi => ?_⟩
  · rw [hvat] at herr
    cases herr
  · rw [hvat] at hok
    cases hok
    cases List.mem_singleton.1 hi
    refine ⟨rfl, ?_⟩
    rw [hcharged, hcurrency]
    exact congrArg (fun a => some (a, "MAD")) hamount.symm

theorem quota_priced (h : amountTTC config plan = .ok amount) {e : Error}
    (he : resolveContactQuotaForPlan plan config = .error e) : ¬ e.Unpriced config := by
  obtain ⟨price, hprice, -⟩ := amountTTC_ok h
  unfold resolveContactQuotaForPlan at he
  split at he
  · next hplan =>
    simp [resolveMonthlyPriceHtInCentimes, hplan] at hprice
  · split at he
    · cases he
      rintro ⟨plan', hprice'⟩
      rcases resolveMonthlyPrice_error hprice' with he | he
      · cases he
      · exact price_ne (by decide) (by decide) he.symm
    · cases he

end

/-! ## Deliveries -/

/-- The subscriptions, the markers and the calls to Stripe are the same. -/
structure SameBooks (d d' : Db) : Prop where
  subscriptions : d'.subscriptions = d.subscriptions
  markers : d'.processedWebhookEvents = d.processedWebhookEvents
  calls : d'.stripeCalls = d.stripeCalls

theorem SameBooks.trans {a b c : Db} (hab : SameBooks a b) (hbc : SameBooks b c) : SameBooks a c :=
  ⟨hbc.subscriptions.trans hab.subscriptions, hbc.markers.trans hab.markers,
    hbc.calls.trans hab.calls⟩

theorem OutsideWrites.sameBooks {ws : List Write} (h : OutsideWrites ws) (d : Db) :
    SameBooks d (store.applyAll d ws) := by
  obtain ⟨w, rfl, hw⟩ := h
  cases w <;> first | exact hw.elim | exact ⟨rfl, rfl, rfl⟩

section

variable {config : Config} {checkouts : String → CheckoutSession} {d d' : Db} {sub : String}

theorem InStep.congr (h : InStep config checkouts d) (hd : SameBooks d d') :
    InStep config checkouts d' := by
  obtain ⟨hs, hm, hc⟩ := hd
  refine ⟨?_, ?_, ?_, ?_⟩
  · rw [hc]
    exact h.told
  · rw [hs, hc]
    exact h.paid
  · rw [hs]
    exact h.unique
  · unfold Db.Knows Db.Completed
    rw [hs, hc, hm]
    exact h.completed

/-- Outside its transaction, a delivery leaves the books alone. -/
theorem HandledAlone.sameBooks {uuid : Id} {ev : WebhookEvent} {t : List Write × Db}
    (h : HandledAlone config uuid ev d t) : SameBooks d t.2 := by
  have hrely : ∀ k a b, AtOnce k a b → (fun (_ : List Key) => SameBooks) k a b := by
    rintro k a b rfl
    exact ⟨rfl, rfl, rfl⟩
  exact ((alonePermits.applyEffect_plain (fun _ _ => trivial) (fun _ _ => trivial) config uuid
    ev).yields (fun _ _ => ⟨rfl, rfl, rfl⟩) .trans id (fun _ _ d hws => hws.sameBooks d)
    (yields_mono hrely h.2)).1

/-- The first activation of a subscription finds it at the price of its session. -/
theorem InStep.activated (h : InStep config checkouts d) {event : StripeEvent}
    {e session : String} {companyId uuid : Id} {plan : SubscriptionPlan}
    (hgenuine : genuine checkouts d (.handleWebhook (some event)) = true)
    (hev : toDomainEvent event = .ok (.subscriptionActivated e session sub companyId plan))
    (hnone : PaymentWebhookService.markerViolation (PaymentWebhookService.marker uuid
      (.subscriptionActivated e session sub companyId plan)) d = none) :
    e = (checkouts sub).completed ∧ ¬ d.Knows sub ∧
      Priced config checkouts d.stripeCalls plan sub := by
  simp only [genuine, hev, Bool.and_eq_true, decide_eq_true_eq, Option.any_eq_true] at hgenuine
  obtain ⟨rfl, c, hc, hopens⟩ := hgenuine
  have hnew : ¬ d.Knows sub := by
    intro hknows
    obtain ⟨m, hm, he⟩ := h.completed sub hknows
    exact (markerViolation_none.1 hnone m hm).2 he
  refine ⟨rfl, hnew, ?_⟩
  have hfirst : ∀ c ∈ d.stripeCalls, c.changed sub = none := by
    intro c hc
    by_contra hne
    exact hnew (.inr ⟨c, hc, hne⟩)
  have htold := h.told c (List.mem_of_getElem? hc)
  cases c with
  | createCheckoutSession companyId' plan' amount currency =>
    simp only [StripeCall.opens, Bool.and_eq_true, decide_eq_true_eq] at hopens
    obtain ⟨-, rfl⟩ := hopens
    obtain ⟨hamount, rfl⟩ := htold
    exact ⟨amount, hamount, priceOf_opened hfirst hc⟩
  | cancelAtPeriodEnd => cases hopens
  | changeSubscriptionPlan => cases hopens

/-- The invoices of a complete run are among those of its statements. -/
theorem invoices_yields {P : Invoice → Prop} {As : List Write → Prop} {Er : Error → Prop} {p : M Unit}
    (hp : p.Plain (fun ws => ∀ i, .insertInvoice i ∈ ws → P i) As Er) {s t : List Write × Db}
    {rely : List Key → Db → Db → Prop} (hy : p.Yields store rely s t ())
    (hs : ∀ i, .insertInvoice i ∈ s.1 → P i) : ∀ i, .insertInvoice i ∈ t.1 → P i := by
  obtain ⟨es, ht, hes⟩ := hp.yields_writes hy
  intro i hi
  rw [ht] at hi
  rcases List.mem_append.1 hi with hi | hi
  · exact hs i hi
  · obtain ⟨ws, hws, hi⟩ := List.mem_flatten.1 hi
    exact hes ws hws i hi

open PaymentWebhookService in
/-- Alone, a delivery invoices what Stripe has charged for its event, and does not fail for the
price. -/
theorem handleWebhook_bills {uuid : Id} {event : StripeEvent} {L : Rules Db Write Key Error}
    (hL : ∀ h d d', L.rely h d d' → AtOnce h d d') (hfault : ∀ e, L.fault e → isFault e = true)
    (hcurrency : config.getCurrency = "MAD") (hin : InStep config checkouts d)
    (hgenuine : genuine checkouts d (.handleWebhook (some event)) = true)
    {Q : Local Db Write Error → Db → Bool → Prop} (hQ : ∀ c d b, Q ⟨none, c⟩ d b) :
    wp store L
      (fun viaTx _ _ ws => viaTx = true → ∀ i, .insertInvoice i ∈ ws →
        ∃ ev, toDomainEvent event = .ok ev ∧ BillsCharge checkouts d.stripeCalls ev i)
      (fun _ e _ => ∀ ev, toDomainEvent event = .ok ev → ev.isCharge = true → ¬ e.Unpriced config)
      (handleWebhook config uuid (some event)) Q ⟨none, []⟩ d := by
  have hno : ∀ e, isFault e = true → ¬ e.Unpriced config := by
    intro e he
    refine unpriced_ne ?_ ?_
    · rintro m rfl
      cases he
    · rintro rfl
      cases he
  refine handleWebhook_rule hL (fun e _ => ∀ ev, toDomainEvent event = .ok ev →
      ev.isCharge = true → ¬ e.Unpriced config) (fun e he ev hok => ?_) (fun d' => hQ [] d' true)
    (fun _ _ he => he) (fun e _ he _ _ _ => hno e (hfault e he))
    (fun c _ _ _ _ => unpriced_ne (fun _ h => by cases h) fun h => by cases h)
    fun ev H K hev hnone hH hK => ?_
  · change toDomainEvent event = .error e at he
    rw [he] at hok
    cases hok
  change toDomainEvent event = .ok ev at hev
  have hH' : ∀ e d', (ev.isCharge = true → ¬ e.Unpriced config) → H e d' := by
    refine fun e d' he => hH e d' fun ev' hev' => ?_
    rw [hev] at hev'
    cases hev'
    exact he
  -- the statements of the handler decide
  have finish : ∀ {p : M Unit} {Er : Error → Prop},
      p.Plain (fun ws => ∀ i, .insertInvoice i ∈ ws → BillsCharge checkouts d.stripeCalls ev i)
        OutsideWrites Er → (∀ e d', Er e → H e d') → (∀ e, L.fault e → Er e) →
      wp store L (fun viaTx _ _ ws => viaTx = true → ∀ i, .insertInvoice i ∈ ws →
          ∃ ev, toDomainEvent event = .ok ev ∧ BillsCharge checkouts d.stripeCalls ev i)
        (fun _ e _ => ∀ ev, toDomainEvent event = .ok ev → ev.isCharge = true → ¬ e.Unpriced config)
        p K ⟨some ([.insertProcessedWebhookEvent (marker uuid ev)], H), []⟩ d := by
    intro p Er hp hEr hEr'
    refine hp.wp hEr hEr' (fun k d' ws _ _ h => by cases h) fun t _ hy => hK t.1 t.2 (fun _ i hi => ?_)
      (hQ _ _ _)
    exact ⟨ev, hev, invoices_yields hp hy (by simp) i hi⟩
  have hunpriced : ∀ e d', ¬ e.Unpriced config → H e d' := fun e d' he => hH' e d' fun _ => he
  have hfault' : ∀ e, L.fault e → ¬ e.Unpriced config := fun e he => hno e (hfault e he)
  cases hrej : rejection ev with
  | none =>
    cases ev with
    | subscriptionActivated e session sub companyId plan =>
      obtain ⟨-, -, amount, hamount, hprice⟩ := hin.activated hgenuine hev hnone
      refine finish (activateSubscription_besides (besides_unpriced _)
        (fun _ he => quota_priced hamount he) ?_) hunpriced hfault'
      exact emits_charged (.subscriptionActivated e session sub companyId plan) hcurrency hamount
        hprice
    | paymentFailed e companyId reason =>
      exact finish (markPastDue_besides (besides_unpriced _) e companyId reason) hunpriced hfault'
    | ignored => exact finish (plain_ret ()) hunpriced hfault'
    | subscriptionRenewed => cases hrej
    | subscriptionPastDue => cases hrej
    | subscriptionPlanChanged => cases hrej
    | subscriptionCancelled => cases hrej
  | some r =>
    obtain ⟨sub, error⟩ := r
    obtain ⟨p, k, happly, hnone', -, hfound, hplain⟩ := applyEffect_lookup config uuid hrej
    rw [happly, wp_bind]
    intro d₁ hd₁
    cases hL _ _ _ hd₁
    refine ⟨fun e he => hunpriced e d (hfault' e he), fun _ => ?_⟩
    simp only [Store.view_some, afterStmt, List.append_nil]
    show wp store L _ _ (k (d.subscriptions.rows.find? p)) _ _ _
    cases hrow : d.subscriptions.rows.find? p with
    | none =>
      rw [hnone']
      refine hH' _ d fun hcharge => ?_
      rintro ⟨plan, hprice⟩
      rcases resolveMonthlyPrice_error hprice with he | he
      · obtain ⟨m, rfl⟩ := rejection_internal hrej
        cases he
      · exact rejection_ne_price hrej hcharge plan he.symm
    | some row =>
      have hsub := hfound row (List.find?_some hrow)
      obtain ⟨-, amount, hamount, hprice⟩ :=
        hin.paid row (List.mem_of_find?_eq_some hrow) sub hsub
      refine finish (hplain row (besides_unpriced _) fun hcharge => ?_) hunpriced hfault'
      refine emits_charged ev hcurrency hamount ?_
      cases ev <;> simp only [rejection, Option.some.injEq, Prod.mk.injEq, reduceCtorEq] at hrej
      case subscriptionRenewed =>
        obtain ⟨rfl, -⟩ := hrej
        exact hprice
      case subscriptionPlanChanged e sub' amountTTC =>
        obtain ⟨rfl, -⟩ := hrej
        simp only [charged, hprice]
        rfl
      case subscriptionPastDue => cases hcharge
      case subscriptionCancelled => cases hcharge

end

/-! ## The other calls -/

/-- The write inserts no invoice and changes no price at Stripe. -/
def Write.Unbilled (config : Config) : Write → Prop
  | .callStripe c => c.Told config ∧ ∀ sub, c.changed sub = none
  | .insertInvoice _ => False
  | _ => True

theorem Write.Unbilled.told {config : Config} {w : Write} (h : w.Unbilled config) : w.Told config := by
  cases w <;> first | exact h | trivial

section

variable {config : Config} {α : Type}

theorem confined_insertUnique {violated : Db → Option String} {w : Write} {a : α}
    (hw : w.Unbilled config) : (insertUnique violated w a).Confined (Write.Unbilled config) := by
  refine confined_query fun d r hr x hx => ?_
  split at hr
  · cases hr
  · cases hr
    rw [List.mem_singleton] at hx
    exact hx ▸ hw

theorem confined_one {w : Write} (hw : w.Unbilled config) :
    (write fun _ => [w] : M Unit).Confined (Write.Unbilled config) :=
  confined_write fun _ x hx => by rw [List.mem_singleton] at hx; exact hx ▸ hw

theorem confined_log (a : AuditLog) :
    (AuditService.log a).Confined (Write.Unbilled config) :=
  confined_outside fun _ x hx => by rw [List.mem_singleton] at hx; subst hx; trivial

theorem confined_call {c : StripeCall} (hc : c.Told config ∧ ∀ sub, c.changed sub = none) :
    (PaymentProvider.call c).Confined (Write.Unbilled config) :=
  confined_outside fun _ x hx => by rw [List.mem_singleton] at hx; subst hx; exact hc

theorem confined_save (l e : Subscription) :
    (SubscriptionRepository.save l e).Confined (Write.Unbilled config) := by
  refine (confined_select _).bind fun r => ?_
  split
  · trivial
  · split
    · trivial
    · exact confined_insertUnique trivial

theorem confined_resolveCompanyId (user : Id) :
    (SubscriptionGuardService.resolveCompanyId user).Confined (Write.Unbilled config) := by
  refine (confined_select _).bind fun a => ?_
  split <;> trivial

theorem confined_load (id : Id) :
    (SubscriptionAdminService.load id).Confined (Write.Unbilled config) := by
  refine (confined_select _).bind fun a => ?_
  split <;> trivial

theorem confined_createCompany (uuid user : Id) (dto : CreateCompanyDto) :
    (CompanyService.createCompany uuid user dto).Confined (Write.Unbilled config) := by
  unfold CompanyService.createCompany
  refine (confined_select _).bind fun found => ?_
  split
  · trivial
  · split
    · trivial
    · refine (confined_select _).bind fun recruiter => ?_
      split
      · trivial
      · refine (confined_select _).bind fun taken => ?_
        split
        · trivial
        · refine (confined_insertUnique (by trivial)).bind fun _ => (confined_insertUnique (by trivial)).bind
            fun _ => Confined.bind ?_ fun _ => (confined_select _).bind fun _ =>
            (confined_select _).bind fun _ => (confined_select _).bind fun _ =>
            (confined_insertUnique (by trivial)).bind fun _ => (confined_log _).bind fun _ => trivial
          split
          · exact confined_one (by trivial)
          · trivial

theorem confined_createCheckoutSession (user : Id) (plan : SubscriptionPlan) :
    (createCheckoutSession config user plan).Confined (Write.Unbilled config) := by
  unfold createCheckoutSession
  refine (confined_resolveCompanyId user).bind fun companyId => (confined_select _).bind fun found => ?_
  split
  · trivial
  · cases hamount : amountTTC config plan with
    | error e => trivial
    | ok amount => exact confined_call ⟨⟨hamount, rfl⟩, fun _ => rfl⟩

theorem confined_cancelSubscription (user : Id) :
    (cancelSubscription user).Confined (Write.Unbilled config) := by
  unfold cancelSubscription
  refine (confined_resolveCompanyId user).bind fun companyId => (confined_select _).bind fun found => ?_
  split
  · trivial
  · split
    · trivial
    · split
      · exact (confined_call ⟨by trivial, fun _ => rfl⟩).bind fun _ => (confined_save _ _).bind fun _ =>
          trivial
      · trivial

theorem confined_redeem (uuid user : Id) (code : String) :
    (TrialCodeRedemptionService.redeem config uuid user code).Confined (Write.Unbilled config) := by
  unfold TrialCodeRedemptionService.redeem
  refine (confined_resolveCompanyId user).bind fun companyId =>
    confined_transaction ?_ (fun _ => trivial) fun _ => trivial
  unfold TrialCodeRedemptionService.redeemFor
  refine (confined_select _).bind fun found => ?_
  split
  · trivial
  · refine (confined_select _).bind fun code => ?_
    split
    · trivial
    · refine (confined_select _).bind fun time => ?_
      split
      · trivial
      · refine (confined_select _).bind fun time => ((confined_insertUnique (by trivial)).mapError _).bind
          fun _ => Confined.bind (confined_query fun d r hr x hx => ?_) fun _ =>
          (confined_ofExcept _).bind fun _ => (confined_select _).bind fun _ => confined_save _ _
        split at hr
        · split at hr
          · cases hr
            rw [List.mem_singleton] at hx
            subst hx
            trivial
          · cases hr
        · cases hr

theorem confined_revoke (id : Id) :
    (TrialCodeAdminService.revoke id).Confined (Write.Unbilled config) := by
  unfold TrialCodeAdminService.revoke TrialCodeRepository.save
  refine (confined_select _).bind fun found => ?_
  split
  · trivial
  · split
    · trivial
    · refine (confined_select _).bind fun reread => ?_
      split
      · trivial
      · split
        · trivial
        · exact (confined_one (by trivial)).bind fun _ => trivial

theorem confined_suspend (id : Id) :
    (SubscriptionAdminService.suspend id).Confined (Write.Unbilled config) := by
  unfold SubscriptionAdminService.suspend
  refine (confined_load id).bind fun l => ?_
  split
  · trivial
  · split
    · trivial
    · exact confined_save _ _

theorem confined_reactivate (id : Id) :
    (SubscriptionAdminService.reactivate id).Confined (Write.Unbilled config) := by
  unfold SubscriptionAdminService.reactivate
  refine (confined_load id).bind fun l => ?_
  split
  · trivial
  · refine (confined_select _).bind fun elsewhere => ?_
    split
    · trivial
    · exact confined_save _ _

theorem confined_assignPlan (uuid companyId : Id) (plan : SubscriptionPlan) (quota : Option Int) :
    (SubscriptionAdminService.assignPlan config uuid companyId plan quota).Confined
      (Write.Unbilled config) := by
  unfold SubscriptionAdminService.assignPlan
  refine (confined_select _).bind fun company => ?_
  split
  · trivial
  · refine (confined_ofExcept _).bind fun quota => (confined_select _).bind fun existing =>
      (confined_select _).bind fun time => ?_
    split
    · exact confined_save _ _
    · exact confined_insertUnique (by trivial)

theorem confined_openConversation (uuid user candidate : Id) (body : String) :
    (ConversationService.openConversation config uuid user candidate body).Confined
      (Write.Unbilled config) := by
  unfold ConversationService.openConversation SubscriptionGuardService.assertActiveSubscription
  refine Confined.bind ?_ fun companyId => (confined_select _).bind fun found => ?_
  · refine (confined_select _).bind fun recruiter => ?_
    split
    · trivial
    · refine (confined_select _).bind fun subscription => (confined_select _).bind fun time => ?_
      split
      · split <;> trivial
      · trivial
  · split
    · trivial
    · refine confined_transaction ?_ (fun e => ?_) fun _ => trivial
      · refine Confined.bind ?_ fun _ => (confined_insertUnique (by trivial)).bind fun _ =>
          (confined_insertUnique (by trivial)).bind fun _ => trivial
        refine Confined.bind ((confined_select _).bind fun _ => (confined_select _).bind fun _ =>
          confined_ofExcept _) fun id => confined_query fun d r hr x hx => ?_
        split at hr
        · split at hr
          · cases hr
            rw [List.mem_singleton] at hx
            subst hx
            trivial
          · cases hr
        · cases hr
      · unfold ConversationService.onError
        split
        · refine (confined_select _).bind fun thread => ?_
          split <;> trivial
        · trivial

/-- Only deliveries insert invoices, and only `changePlan` changes a price at Stripe. -/
theorem program_confined (i : Nat) {op : Op} (hop : op.changesPlan = false)
    (hdelivery : ∀ delivery, op ≠ .handleWebhook delivery) :
    (program config i op).Confined (Write.Unbilled config) := by
  cases op with
  | clock ms => exact (confined_one (by trivial)).bind fun _ => trivial
  | createCompany user dto => exact (confined_createCompany i user dto).bind fun _ => trivial
  | handleWebhook delivery => exact absurd rfl (hdelivery delivery)
  | createCheckoutSession user plan =>
    exact (confined_createCheckoutSession user plan).bind fun _ => trivial
  | cancelSubscription user => exact (confined_cancelSubscription user).bind fun _ => trivial
  | changePlan => cases hop
  | redeem user code => exact (confined_redeem i user code).bind fun _ => trivial
  | createTrialCode dto => exact ((confined_insertUnique (by trivial)).mapError _).bind fun _ => trivial
  | revokeTrialCode id => exact (confined_revoke id).bind fun _ => trivial
  | adminCancel id =>
    exact ((confined_load id).bind fun _ => (confined_select _).bind fun _ =>
      confined_save _ _).bind fun _ => trivial
  | adminSuspend id => exact (confined_suspend id).bind fun _ => trivial
  | adminReactivate id => exact (confined_reactivate id).bind fun _ => trivial
  | assignPlan companyId plan quota =>
    exact (confined_assignPlan i companyId plan quota).bind fun _ => trivial
  | openConversation user candidate body =>
    exact (confined_openConversation i user candidate body).bind fun _ => trivial

end

end JobBoard
