import JobBoard.Services.Webhook

/-!
# What billing issues

The handling of an event is one plain program: it writes rows of subscriptions,
invoices, invoice sequences and redemptions on its transaction, audit entries
and PDFs outside of it, and no error it meets is a violation of the markers'
constraint; only the `save`s of subscriptions meet the index on active
subscriptions. `Permits` collects what a result about such programs must allow, so
that each function is looked at once; `Invoices` and `Notes` are its parts for
programs that write no audit entry, or none of a received payment.
-/

set_option autoImplicit false

namespace JobBoard

open Txn Prog

/-- The writes of invoicing on the caller's transaction. -/
def Write.OfInvoicing : Write → Prop
  | .insertInvoiceSequence _ | .lockInvoiceSequence _ | .setLastNumber .. | .insertInvoice _ => True
  | .setConvertedAt .. => True
  | _ => False

/-- The writes to the subscriptions table that are not increments. -/
def Write.OfSubscription : Write → Prop
  | .insertSubscription _ | .saveSubscription .. => True
  | _ => False

/-- The writes outside the transaction. -/
def Write.Outside : Write → Prop
  | .insertAuditLog _ | .upload _ => True
  | _ => False

/-- The error is a violation of the markers' unique constraint. -/
def Error.isMarkerViolation (e : Error) : Bool :=
  isUniqueViolation e (some PROCESSED_WEBHOOK_EVENT_UNIQUE_CONSTRAINT)

/-- The error is a violation of the index on active subscriptions. -/
def Error.isSlotViolation (e : Error) : Bool :=
  isUniqueViolation e (some SUBSCRIPTION_ACTIVE_UNIQUE_CONSTRAINT)

/-- The statements, uploads and errors of invoicing are permitted. -/
structure Invoices (St As : List Write → Prop) (Er : Error → Prop) : Prop where
  nil : St []
  invoicing : ∀ w : Write, w.OfInvoicing → St [w]
  upload : ∀ o : StoredObject, As [.upload o]
  err : ∀ e : Error, e.isMarkerViolation = false → e.isSlotViolation = false → Er e

/-- Also the audit entries of anything but a received payment. -/
structure Notes (St As : List Write → Prop) (Er : Error → Prop) : Prop extends
    Invoices St As Er where
  note : ∀ a : AuditLog, a.action ≠ .paymentReceived → As [.insertAuditLog a]

/-- Also those of a received payment. -/
structure Permits (St As : List Write → Prop) (Er : Error → Prop) : Prop extends
    Notes St As Er where
  payment : ∀ a : AuditLog, a.action = .paymentReceived → As [.insertAuditLog a]

theorem Permits.of_outside {St As : List Write → Prop} {Er : Error → Prop} (nil : St [])
    (invoicing : ∀ w : Write, w.OfInvoicing → St [w]) (outside : ∀ w : Write, w.Outside → As [w])
    (err : ∀ e : Error, e.isMarkerViolation = false → e.isSlotViolation = false → Er e) :
    Permits St As Er where
  nil := nil
  invoicing := invoicing
  upload := fun _ => outside _ trivial
  note := fun _ _ => outside _ trivial
  payment := fun _ _ => outside _ trivial
  err := err

section

variable {St As : List Write → Prop} {Er : Error → Prop}

section

variable (h : Invoices St As Er)

include h

theorem Invoices.now_plain : now.Plain St As Er := plain_select h.nil _

theorem Invoices.sendToRecruiters_plain (c : Id) : (sendToRecruiters c).Plain St As Er :=
  plain_select h.nil _

theorem Invoices.findCompanyOrFail_plain (c : Id) : (findCompanyOrFail c).Plain St As Er := by
  refine (plain_select h.nil _).bind fun a => ?_
  split
  · trivial
  · exact h.err _ rfl rfl

theorem Invoices.markConverted_plain (c : Id) : (markConvertedIfApplicable c).Plain St As Er := by
  refine plain_write fun v => ?_
  split
  · exact h.invoicing _ trivial
  · exact h.nil

theorem Invoices.allocateInvoiceNumber_plain (y : Int) : (allocateInvoiceNumber y).Plain St As Er := by
  refine (plain_write fun v => ?_).bind fun _ => (plain_query h.nil (fun v r hf => ?_)
    fun v e hf => ?_).bind fun _ => (plain_select h.nil _).bind fun _ =>
    (plain_write fun v => h.invoicing (.setLastNumber ..) trivial).bind fun _ => trivial
  · split
    · exact h.nil
    · exact h.invoicing _ trivial
  · split at hf
    · cases hf
    · cases hf
      exact h.invoicing _ trivial
  · split at hf
    · cases hf
      exact h.err _ rfl rfl
    · cases hf

theorem Invoices.ofQuota_plain (plan : SubscriptionPlan) (config : Config) :
    (ofExcept (resolveContactQuotaForPlan plan config) : M Int).Plain St As Er := by
  refine plain_ofExcept fun e he => ?_
  unfold resolveContactQuotaForPlan at he
  split at he
  · cases he
    exact h.err _ rfl rfl
  · split at he
    · cases he
      exact h.err _ rfl rfl
    · cases he

theorem Invoices.amounts_plain (config : Config) (params : EmitParams) :
    (ofExcept (InvoiceEmissionService.amounts config params) : M VatBreakdown).Plain St As Er := by
  refine plain_ofExcept fun e he => ?_
  unfold InvoiceEmissionService.amounts at he
  split at he
  · cases he
  · unfold resolveMonthlyPriceHtInCentimes at he
    split at he
    · cases he
      exact h.err _ rfl rfl
    · split at he
      · cases he
        exact h.err _ rfl rfl
      · cases he

theorem Invoices.insertInvoice_plain (i : Invoice) {α : Type} (a : α) :
    (insertUnique (fun db => db.invoiceViolation i) (.insertInvoice i) a).Plain St As Er := by
  refine plain_insertUnique h.nil (h.invoicing _ trivial) fun db c hc => ?_
  unfold Db.invoiceViolation at hc
  split at hc
  · cases hc
    exact h.err _ (by decide) (by decide)
  · split at hc
    · cases hc
      exact h.err _ (by decide) (by decide)
    · split at hc
      · cases hc
        exact h.err _ (by decide) (by decide)
      · cases hc

theorem Invoices.emit_plain (config : Config) (uuid : Id) (params : EmitParams) :
    (InvoiceEmissionService.emit config uuid params).Plain St As Er :=
  (h.amounts_plain config params).bind fun _ => h.now_plain.bind fun _ =>
    (h.allocateInvoiceNumber_plain _).bind fun _ =>
    (plain_outside fun _ => h.upload _).bind fun _ => h.insertInvoice_plain _ _

theorem Invoices.assertTransition_plain (a b : SubscriptionStatus) :
    (ofExcept (assertValidSubscriptionTransition a b) : M Unit).Plain St As Er := by
  refine plain_ofExcept fun e he => ?_
  unfold assertValidSubscriptionTransition at he
  split at he <;> cases he
  exact h.err _ rfl rfl

variable (hsub : ∀ w : Write, w.OfSubscription → St [w])
  (herr : ∀ e : Error, e.isMarkerViolation = false → Er e)

include hsub herr

theorem Invoices.save_plain (l e : Subscription) :
    (SubscriptionRepository.save l e).Plain St As Er := by
  refine Plain.bind (plain_select h.nil _) fun r => ?_
  split
  · exact h.err _ rfl rfl
  · split
    · trivial
    · refine plain_insertUnique h.nil (hsub _ trivial) fun db c hc => herr _ ?_
      obtain ⟨row, -, hv⟩ := Option.bind_eq_some_iff.1 hc
      unfold Db.subscriptionViolation at hv
      split at hv
      · cases hv; decide
      · cases hv

theorem Invoices.insert_plain (s : Subscription) :
    (SubscriptionRepository.insert s).Plain St As Er := by
  refine plain_insertUnique h.nil (hsub _ trivial) fun db c hc => herr _ ?_
  unfold Db.insertSubscriptionViolation Db.subscriptionViolation at hc
  split at hc
  · cases hc; decide
  · split at hc
    · cases hc; decide
    · cases hc

end

/-! ## The effects of events -/

section

variable (h : Notes St As Er)

include h

theorem Notes.log_plain (a : AuditLog) (ha : a.action ≠ .paymentReceived) :
    (AuditService.log a).Plain St As Er := plain_outside fun _ => h.note a ha

variable (hsub : ∀ w : Write, w.OfSubscription → St [w])
  (herr : ∀ e : Error, e.isMarkerViolation = false → Er e)

include hsub herr

theorem Notes.markPastDue_plain (e : String) (companyId : Id) (reason : String) :
    (PaymentWebhookService.markPastDue e companyId reason).Plain St As Er := by
  unfold PaymentWebhookService.markPastDue
  refine Plain.bind (plain_select h.nil _) fun found => ?_
  split
  · exact h.log_plain _ (by simp)
  · exact (h.assertTransition_plain _ _).bind fun _ => (h.save_plain hsub herr _ _).bind fun _ =>
      h.log_plain _ (by simp)

theorem Notes.markSubscriptionPastDue_plain (e sub : String) :
    (PaymentWebhookService.markSubscriptionPastDue e sub).Plain St As Er := by
  unfold PaymentWebhookService.markSubscriptionPastDue
  refine Plain.bind (plain_select h.nil _) fun found => ?_
  split
  · exact h.err _ rfl rfl
  · have tail : ∀ (a : AuditLog) c, a.action ≠ .paymentReceived → (do
        AuditService.log a
        let _ ← sendToRecruiters c
        return () : M Unit).Plain St As Er := fun a c ha =>
      (h.log_plain a ha).bind fun _ => (h.sendToRecruiters_plain c).bind fun _ => plain_ret _
    split
    · exact (h.assertTransition_plain _ _).bind fun _ => h.now_plain.bind fun _ =>
        (h.save_plain hsub herr _ _).bind fun _ => tail _ _ (by simp)
    · exact tail _ _ (by simp)

theorem Notes.cancelSubscription_plain (e sub reason : String) :
    (PaymentWebhookService.cancelSubscription e sub reason).Plain St As Er := by
  unfold PaymentWebhookService.cancelSubscription
  refine Plain.bind (plain_select h.nil _) fun found => ?_
  split
  · exact h.err _ rfl rfl
  · split
    · exact plain_ret _
    · exact (h.assertTransition_plain _ _).bind fun _ => (h.save_plain hsub herr _ _).bind fun _ =>
        (h.log_plain _ (by simp)).bind fun _ => (h.sendToRecruiters_plain _).bind fun _ => plain_ret _

end

section

variable (h : Permits St As Er)

include h

theorem Permits.log_plain (a : AuditLog) : (AuditService.log a).Plain St As Er := by
  by_cases ha : a.action = .paymentReceived
  · exact plain_outside fun _ => h.payment a ha
  · exact h.toNotes.log_plain a ha

theorem Permits.handlePlanChangeInvoice_plain (config : Config) (uuid : Id) (e sub : String)
    (amountTTC : Int) :
    (PaymentWebhookService.handlePlanChangeInvoice config uuid e sub amountTTC).Plain St As Er := by
  unfold PaymentWebhookService.handlePlanChangeInvoice
  refine Plain.bind (plain_select h.nil _) fun a => ?_
  split
  · exact h.err _ rfl rfl
  · exact (h.findCompanyOrFail_plain _).bind fun _ => (h.emit_plain _ _ _).bind fun _ =>
      h.log_plain _

/-! ## The effects of events -/

variable (hsub : ∀ w : Write, w.OfSubscription → St [w])
  (herr : ∀ e : Error, e.isMarkerViolation = false → Er e)

include hsub herr

theorem Permits.activateSubscription_plain (config : Config) (uuid : Id) (e sub : String)
    (companyId : Id) (plan : SubscriptionPlan) :
    (PaymentWebhookService.activateSubscription config uuid e sub companyId plan).Plain St As Er := by
  unfold PaymentWebhookService.activateSubscription
  refine (h.ofQuota_plain _ _).bind fun quota => Plain.bind (plain_select h.nil _) fun eligible =>
    h.now_plain.bind fun time => ?_
  have rest : ∀ s : Subscription, (do
      AuditService.log ⟨none, .paymentReceived, "subscription", s.id,
        [("companyId", .id companyId), ("plan", .plan plan), ("contactQuota", .num quota),
          ("providerEventId", .str e)]⟩
      markConvertedIfApplicable companyId
      let company ← findCompanyOrFail companyId
      let _ ← InvoiceEmissionService.emit config uuid ⟨s, company, e, none⟩
      return () : M Unit).Plain St As Er := fun s =>
    (h.log_plain _).bind fun _ => (h.markConverted_plain _).bind fun _ =>
      (h.findCompanyOrFail_plain _).bind fun _ => (h.emit_plain _ _ _).bind fun _ => plain_ret _
  split
  · refine (h.assertTransition_plain _ _).bind fun _ => (h.save_plain hsub herr _ _).bind fun s => ?_
    exact rest s
  · refine (h.insert_plain hsub herr _).bind fun s => ?_
    exact rest s

theorem Permits.renewSubscription_plain (config : Config) (uuid : Id) (e sub : String) :
    (PaymentWebhookService.renewSubscription config uuid e sub).Plain St As Er := by
  unfold PaymentWebhookService.renewSubscription
  refine Plain.bind (plain_select h.nil _) fun found => ?_
  split
  · exact h.err _ rfl rfl
  · next s =>
    have hassert : (ofExcept (if s.status = .pastDue then
        assertValidSubscriptionTransition s.status .active else .ok ()) : M Unit).Plain St As Er := by
      split
      · exact h.assertTransition_plain _ _
      · trivial
    refine Plain.bind (by simpa only [decide_eq_true_eq] using hassert) fun _ =>
      h.now_plain.bind fun _ =>
      (h.save_plain hsub herr _ _).bind fun _ => (h.log_plain _).bind fun _ => Plain.bind ?_ fun _ =>
      (h.findCompanyOrFail_plain _).bind fun _ => (h.emit_plain _ _ _).bind fun _ => plain_ret _
    split
    · exact h.sendToRecruiters_plain _
    · exact plain_ret _

/-- The handling of an event issues nothing else. -/
theorem Permits.applyEffect_plain (config : Config) (uuid : Id) (event : WebhookEvent) :
    (PaymentWebhookService.applyEffect config uuid event).Plain St As Er := by
  cases event with
  | subscriptionActivated => exact h.activateSubscription_plain hsub herr config uuid _ _ _ _
  | subscriptionRenewed => exact h.renewSubscription_plain hsub herr config uuid _ _
  | paymentFailed => exact h.markPastDue_plain hsub herr _ _ _
  | subscriptionPastDue => exact h.markSubscriptionPastDue_plain hsub herr _ _
  | subscriptionPlanChanged => exact h.handlePlanChangeInvoice_plain config uuid _ _ _
  | subscriptionCancelled => exact h.cancelSubscription_plain hsub herr _ _ _
  | ignored => exact plain_ret _

end

end

end JobBoard
