import JobBoard.Subscriptions.Handling

/-!
# Why a handler fails

What the handlers of events write and throw besides their invoices and their refusals
(`Besides`). A handler that knows the subscription by its id looks for its row first
(`applyEffect_lookup`): it refuses the event when there is none, and otherwise it fails for the
price only if it emits an invoice whose amount it cannot tell (`Emits`).
-/

set_option autoImplicit false

namespace JobBoard

open Txn Prog StripePaymentProvider

/-! ## Pieces -/

/-- The statements that insert no invoice are permitted, and so are the errors that are neither
refusals nor errors of the configuration. -/
structure Besides (St As : List Write → Prop) (Er : Error → Prop) : Prop where
  nil : St []
  write : ∀ w : Write, (∀ i, w ≠ .insertInvoice i) → St [w]
  outside : ∀ w : Write, w.Outside → As [w]
  err : ∀ e : Error, (∀ m, e ≠ .internalServerError m) → e ≠ .enterpriseQuotaNotAutomated → Er e

/-- What an emission of the event for a subscription with the plan issues and throws. -/
def Emits (config : Config) (uuid : Id) (e : String) (amountTTCOverride : Option Int)
    (plan : SubscriptionPlan) (St : List Write → Prop) (Er : Error → Prop) : Prop :=
  ∀ subscription company, subscription.plan = plan →
    (∀ error, InvoiceEmissionService.amounts config ⟨subscription, company, e, amountTTCOverride⟩ =
      .error error → Er error) ∧
    ∀ vat issuedAt number,
      InvoiceEmissionService.amounts config ⟨subscription, company, e, amountTTCOverride⟩ = .ok vat →
      St [.insertInvoice (InvoiceEmissionService.invoiceData uuid
        ⟨subscription, company, e, amountTTCOverride⟩ vat issuedAt number)]

namespace Besides

variable {St As : List Write → Prop} {Er : Error → Prop} (h : Besides St As Er)

include h

theorem now : now.Plain St As Er := plain_select h.nil _

theorem log (a : AuditLog) : (AuditService.log a).Plain St As Er :=
  plain_outside fun _ => h.outside _ trivial

theorem sendToRecruiters (c : Id) : (sendToRecruiters c).Plain St As Er := plain_select h.nil _

theorem notify (a : AuditLog) (c : Id) : (do
    AuditService.log a
    let _ ← JobBoard.sendToRecruiters c
    return () : M Unit).Plain St As Er :=
  (h.log a).bind fun _ => (h.sendToRecruiters c).bind fun _ => plain_ret _

theorem violated (c : String) : Er (uniqueViolation c) :=
  h.err _ (fun _ he => by cases he) fun he => by cases he

theorem entityNotFound (entity : String) : Er (.entityNotFound entity) :=
  h.err _ (fun _ he => by cases he) fun he => by cases he

theorem assertTransition (a b : SubscriptionStatus) :
    (ofExcept (assertValidSubscriptionTransition a b) : M Unit).Plain St As Er := by
  refine plain_ofExcept fun e he => ?_
  unfold assertValidSubscriptionTransition at he
  split at he <;> cases he
  exact h.err _ (fun _ he => by cases he) fun he => by cases he

theorem findCompanyOrFail (c : Id) : (findCompanyOrFail c).Plain St As Er := by
  refine Plain.bind (plain_select h.nil _) fun a => ?_
  split
  · trivial
  · exact h.entityNotFound _

theorem markConverted (c : Id) : (markConvertedIfApplicable c).Plain St As Er := by
  refine plain_write fun v => ?_
  split
  · exact h.write _ fun _ he => by cases he
  · exact h.nil

/-- What follows an `INSERT` goes on with its result. -/
theorem insertUnique {α β : Type} {violated : Db → Option String} {w : Write} {a : α} {f : α → M β}
    (hw : St [w]) (hf : (f a).Plain St As Er) :
    (insertUnique violated w a >>= f).Plain St As Er := by
  refine plain_query_bind h.nil (fun v r hr => ?_) fun v error hr => ?_
  · split at hr
    · cases hr
    · cases hr
      exact ⟨hw, hf⟩
  · split at hr
    · cases hr
      exact h.violated _
    · cases hr

theorem save {α : Type} {l e : Subscription} {f : Subscription → M α} (hf : (f e).Plain St As Er) :
    (SubscriptionRepository.save l e >>= f).Plain St As Er := by
  unfold SubscriptionRepository.save
  rw [Prog.bind_assoc]
  refine Plain.bind (plain_select h.nil _) fun r => ?_
  split
  · exact h.entityNotFound _
  · split
    · exact hf
    · exact h.insertUnique (h.write _ fun _ he => by cases he) hf

theorem insert {α : Type} {s : Subscription} {f : Subscription → M α} (hf : (f s).Plain St As Er) :
    (SubscriptionRepository.insert s >>= f).Plain St As Er :=
  h.insertUnique (h.write _ fun _ he => by cases he) hf

theorem allocateInvoiceNumber (y : Int) : (allocateInvoiceNumber y).Plain St As Er := by
  have hlock : (lockInvoiceSequence y).Plain St As Er := by
    refine plain_query h.nil (fun v r hr => ?_) fun v error hr => ?_
    · split at hr
      · cases hr
      · cases hr
        exact h.write _ fun _ he => by cases he
    · split at hr
      · cases hr
        exact h.entityNotFound _
      · cases hr
  refine (plain_write fun v => ?_).bind fun _ => hlock.bind fun _ =>
    (plain_select h.nil _).bind fun _ =>
    (plain_write fun _ => h.write _ fun _ he => by cases he).bind fun _ => plain_ret _
  split
  · exact h.nil
  · exact h.write _ fun _ he => by cases he

theorem emit {config : Config} {uuid : Id} {e : String} {amountTTCOverride : Option Int}
    {subscription : Subscription}
    (hemits : Emits config uuid e amountTTCOverride subscription.plan St Er) (company : Company) :
    (InvoiceEmissionService.emit config uuid
      ⟨subscription, company, e, amountTTCOverride⟩).Plain St As Er := by
  obtain ⟨herr, hinvoice⟩ := hemits subscription company rfl
  unfold InvoiceEmissionService.emit
  cases hvat : InvoiceEmissionService.amounts config ⟨subscription, company, e, amountTTCOverride⟩ with
  | error error => exact herr error hvat
  | ok vat =>
    exact h.now.bind fun issuedAt => (h.allocateInvoiceNumber _).bind fun number =>
      Plain.bind (plain_outside fun _ => h.outside _ trivial) fun _ =>
      plain_insertUnique h.nil (hinvoice vat issuedAt number hvat) fun _ c _ => h.violated c

end Besides

/-! ## Events -/

namespace WebhookEvent

/-- Stripe has charged a cycle or a proration. -/
def isCharge : WebhookEvent → Bool
  | subscriptionActivated .. | subscriptionRenewed .. | subscriptionPlanChanged .. => true
  | _ => false

/-- The amount of a proration, which is not computed from the plan. -/
def amountTTCOverride : WebhookEvent → Option Int
  | subscriptionPlanChanged _ _ amountTTC => some amountTTC
  | _ => none

end WebhookEvent

namespace PaymentWebhookService

/-- The subscription that a later event is about, and the error of a handler that
does not know it. -/
def rejection : WebhookEvent → Option (String × Error)
  | .subscriptionRenewed _ sub => some (sub, .internalServerError
      ("subscription.renewed for unknown or " ++ "non-ACTIVE/PAST_DUE Stripe subscription " ++ sub))
  | .subscriptionPastDue _ sub => some (sub, .internalServerError
      ("invoice.payment_failed for unknown Stripe subscription " ++ sub))
  | .subscriptionPlanChanged _ sub _ => some (sub, .internalServerError
      ("invoice.paid (subscription_update) for unknown " ++ "Stripe subscription " ++ sub))
  | .subscriptionCancelled _ sub reason => some (sub, .internalServerError
      (reason ++ " for unknown Stripe subscription " ++ sub))
  | _ => none

theorem rejection_internal {ev : WebhookEvent} {sub : String} {error : Error}
    (h : rejection ev = some (sub, error)) : ∃ m, error = .internalServerError m := by
  cases ev <;> simp only [rejection, Option.some.injEq, Prod.mk.injEq, reduceCtorEq] at h <;>
    exact ⟨_, h.2.symm⟩

variable {St As : List Write → Prop} {Er : Error → Prop} {ev : WebhookEvent} {sub : String}
  {error : Error} {config : Config} {uuid : Id}

theorem markPastDue_besides (h : Besides St As Er) (e : String) (companyId : Id) (reason : String) :
    (markPastDue e companyId reason).Plain St As Er := by
  unfold markPastDue
  refine Plain.bind (plain_select h.nil _) fun found => ?_
  split
  · exact h.log _
  · exact (h.assertTransition _ _).bind fun _ => h.save (h.log _)

theorem activateSubscription_besides (h : Besides St As Er) {e : String} {companyId : Id}
    {plan : SubscriptionPlan}
    (hquota : ∀ error, resolveContactQuotaForPlan plan config = .error error → Er error)
    (hemits : Emits config uuid e none plan St Er) :
    (activateSubscription config uuid e sub companyId plan).Plain St As Er := by
  unfold activateSubscription
  refine (plain_ofExcept hquota).bind fun quota => Plain.bind (plain_select h.nil _) fun eligible =>
    h.now.bind fun time => ?_
  have rest : ∀ s : Subscription, s.plan = plan → (do
      AuditService.log ⟨none, .paymentReceived, "subscription", s.id,
        [("companyId", .id companyId), ("plan", .plan plan), ("contactQuota", .num quota),
          ("providerEventId", .str e)]⟩
      markConvertedIfApplicable companyId
      let company ← findCompanyOrFail companyId
      let _ ← InvoiceEmissionService.emit config uuid ⟨s, company, e, none⟩
      return () : M Unit).Plain St As Er := fun s hs =>
    (h.log _).bind fun _ => (h.markConverted _).bind fun _ => (h.findCompanyOrFail _).bind fun _ =>
      (h.emit (hs ▸ hemits) _).bind fun _ => plain_ret _
  split
  · exact (h.assertTransition _ _).bind fun _ => h.save (rest _ rfl)
  · exact h.insert (rest _ rfl)

/-- A handler that knows subscriptions by their id looks for the row first, and
refuses the event for no other reason. -/
theorem applyEffect_lookup (config : Config) (uuid : Id) (h : rejection ev = some (sub, error)) :
    ∃ p k, applyEffect config uuid ev = (SubscriptionRepository.findOne p >>= k) ∧
      k none = .throw error ∧
      (∀ row : Subscription, row.externalSubscriptionId = some sub →
        row.status = .active ∨ row.status = .pastDue → p row = true) ∧
      (∀ row : Subscription, p row = true → row.externalSubscriptionId = some sub) ∧
      ∀ row {St As : List Write → Prop} {Er : Error → Prop}, Besides St As Er →
        (ev.isCharge = true →
          Emits config uuid ev.providerEventId ev.amountTTCOverride row.plan St Er) →
        (k (some row)).Plain St As Er := by
  cases ev <;> simp only [rejection, Option.some.injEq, Prod.mk.injEq, reduceCtorEq] at h
  case subscriptionRenewed e sub' =>
    obtain ⟨rfl, rfl⟩ := h
    refine ⟨_, _, rfl, rfl, fun row hext hst => by simpa [hext] using hst, fun row hp => ?_,
      fun row _ _ _ hb hemits => ?_⟩
    · simp only [Bool.and_eq_true, decide_eq_true_eq] at hp
      exact hp.1
    · refine Plain.bind ?_ fun _ => hb.now.bind fun time => hb.save ((hb.log _).bind fun _ =>
        Plain.bind ?_ fun _ => (hb.findCompanyOrFail _).bind fun _ =>
        (hb.emit (hemits rfl) _).bind fun _ => plain_ret _)
      · split
        · exact hb.assertTransition _ _
        · trivial
      · split
        · exact hb.sendToRecruiters _
        · exact plain_ret _
  case subscriptionPastDue e sub' =>
    obtain ⟨rfl, rfl⟩ := h
    refine ⟨_, _, rfl, rfl, fun row hext _ => by simp [hext], fun row hp => of_decide_eq_true hp,
      fun row _ _ _ hb _ => ?_⟩
    show Plain _ _ _ (if row.status = .active then _ else _)
    split
    · exact (hb.assertTransition _ _).bind fun _ => hb.now.bind fun _ => hb.save (hb.notify _ _)
    · exact hb.notify _ _
  case subscriptionPlanChanged e sub' amountTTC =>
    obtain ⟨rfl, rfl⟩ := h
    refine ⟨_, _, rfl, rfl, fun row hext _ => by simp [hext], fun row hp => of_decide_eq_true hp,
      fun row _ _ _ hb hemits => ?_⟩
    exact (hb.findCompanyOrFail _).bind fun _ => (hb.emit (hemits rfl) _).bind fun _ => hb.log _
  case subscriptionCancelled e sub' reason =>
    obtain ⟨rfl, rfl⟩ := h
    refine ⟨_, _, rfl, rfl, fun row hext _ => by simp [hext], fun row hp => of_decide_eq_true hp,
      fun row _ _ _ hb _ => ?_⟩
    show Plain _ _ _ (if row.status = .cancelled then _ else _)
    split
    · exact plain_ret _
    · exact (hb.assertTransition _ _).bind fun _ => hb.save (hb.notify _ _)

end PaymentWebhookService

/-! ## Errors of the configuration -/

/-- The plan has no price. -/
def Error.Unpriced (config : Config) (e : Error) : Prop :=
  ∃ plan, resolveMonthlyPriceHtInCentimes plan config = .error e

theorem resolveMonthlyPrice_error {config : Config} {plan : SubscriptionPlan} {e : Error}
    (h : resolveMonthlyPriceHtInCentimes plan config = .error e) :
    e = .enterpriseQuotaNotAutomated ∨
      e = .internalServerError ("No price configured for plan " ++ plan.toString) := by
  unfold resolveMonthlyPriceHtInCentimes at h
  split at h
  · cases h
    exact .inl rfl
  · split at h
    · cases h
      exact .inr rfl
    · cases h

/-- The texts of the other errors differ from that of a plan without a price. -/
theorem price_ne {text rest : String} {plan : SubscriptionPlan}
    (h : text.toList[3]? ≠ some 'p') (hlen : 3 < text.toList.length) :
    Error.internalServerError ("No price configured for plan " ++ plan.toString) ≠
      .internalServerError (text ++ rest) := by
  intro he
  injection he with he
  have hthird := congrArg (fun s : String => s.toList[3]?) he
  simp only [String.toList_append] at hthird
  rw [List.getElem?_append_left hlen, List.getElem?_append_left (by decide)] at hthird
  exact h hthird.symm

end JobBoard
