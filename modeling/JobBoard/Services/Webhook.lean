import JobBoard.Services.Invoicing
import JobBoard.Services.Lifecycle

/-!
# Stripe webhooks

`StripePaymentProvider.toDomainEvent` and `PaymentWebhookService`. A delivery is
handled in one transaction: the marker of the event first, its effect second.
Signature verification is Stripe's: a delivery is the verified event, or `none`
when the signature is rejected. Mails to recruiters are best effort and change
nothing, so that only the query of the recipients is kept of them.
-/

set_option autoImplicit false

namespace JobBoard

open Txn Prog

namespace StripePaymentProvider

def ACTIVATING_EVENT_TYPES : List String := ["checkout.session.completed"]

def FAILURE_EVENT_TYPES : List String :=
  ["checkout.session.async_payment_failed", "checkout.session.expired"]

def RENEWAL_BILLING_REASON : String := "subscription_cycle"

def INITIAL_PAYMENT_BILLING_REASON : String := "subscription_create"

def PLAN_CHANGE_BILLING_REASON : String := "subscription_update"

def RETRIES_EXHAUSTED_STATUS : String := "unpaid"

def toInvoicePaidDomainEvent (event : StripeEvent) : Except Error WebhookEvent :=
  let billingReason := event.object.billingReason
  if billingReason = some INITIAL_PAYMENT_BILLING_REASON then
    .ok (.ignored event.id ("invoice.paid for the initial subscription_create payment " ++
      "(already handled via checkout.session.completed)"))
  else if billingReason = some RENEWAL_BILLING_REASON then
    match truthy event.object.parentSubscription with
    | none => .error (.internalServerError ("Stripe event " ++ event.id ++
        " is a subscription_cycle invoice with no subscription reference"))
    | some providerSubscriptionId => .ok (.subscriptionRenewed event.id providerSubscriptionId)
  else if billingReason = some PLAN_CHANGE_BILLING_REASON then
    match truthy event.object.parentSubscription with
    | none => .error (.internalServerError ("Stripe event " ++ event.id ++
        " is a subscription_update invoice with no subscription reference"))
    | some providerSubscriptionId =>
      .ok (.subscriptionPlanChanged event.id providerSubscriptionId event.object.amountPaid)
  else
    .ok (.ignored event.id ("invoice.paid with billing_reason=" ++ billingReason.getD "unknown"))

def toDomainEvent (event : StripeEvent) : Except Error WebhookEvent :=
  if event.type ∈ ACTIVATING_EVENT_TYPES then
    match event.object.metadataCompanyId, event.object.metadataPlan with
    | some companyId, some plan =>
      match truthy event.object.subscription with
      | none => .error (.internalServerError ("Stripe event " ++ event.id ++
          " completed a session with no subscription — expected mode: 'subscription'"))
      | some providerSubscriptionId =>
        .ok (.subscriptionActivated event.id event.object.id providerSubscriptionId companyId plan)
    | _, _ => .error (.internalServerError ("Stripe event " ++ event.id ++
        " is missing companyId/plan metadata"))
  else if event.type = "invoice.paid" then toInvoicePaidDomainEvent event
  else if event.type = "invoice.payment_failed" then
    match truthy event.object.parentSubscription with
    | none => .ok (.ignored event.id "invoice.payment_failed with no subscription reference")
    | some providerSubscriptionId => .ok (.subscriptionPastDue event.id providerSubscriptionId)
  else if event.type = "customer.subscription.updated" ∨
      event.type = "customer.subscription.deleted" then
    if event.type = "customer.subscription.deleted" ∨
        event.object.status = RETRIES_EXHAUSTED_STATUS then
      .ok (.subscriptionCancelled event.id event.object.id
        (if event.type = "customer.subscription.deleted" then "subscription_deleted"
          else "retries_exhausted"))
    else
      .ok (.ignored event.id ("customer.subscription.updated with status=" ++ event.object.status))
  else if event.type ∈ FAILURE_EVENT_TYPES then
    match event.object.metadataCompanyId with
    | none => .ok (.ignored event.id (event.type ++ " without companyId metadata"))
    | some companyId => .ok (.paymentFailed event.id companyId event.type)
  else .ok (.ignored event.id ("unhandled event type " ++ event.type))

/-- `verifyAndParseWebhook`, given what Stripe's `constructEvent` returns. -/
def verifyAndParseWebhook (delivery : Option StripeEvent) : Except Error WebhookEvent :=
  match delivery with
  | none => .error .invalidWebhookSignature
  | some event => toDomainEvent event

/-- What the Stripe event says when it is read as a domain event. -/
def Reports (event : StripeEvent) : WebhookEvent → Prop
  | .subscriptionActivated e session sub companyId plan =>
    e = event.id ∧ event.type ∈ ACTIVATING_EVENT_TYPES ∧ session = event.object.id ∧
      event.object.subscription = some sub ∧ event.object.metadataCompanyId = some companyId ∧
      event.object.metadataPlan = some plan
  | .subscriptionRenewed e sub =>
    e = event.id ∧ event.type = "invoice.paid" ∧
      event.object.billingReason = some RENEWAL_BILLING_REASON ∧
      event.object.parentSubscription = some sub
  | .subscriptionPlanChanged e sub amountTTC =>
    e = event.id ∧ event.type = "invoice.paid" ∧
      event.object.billingReason = some PLAN_CHANGE_BILLING_REASON ∧
      event.object.parentSubscription = some sub ∧ amountTTC = event.object.amountPaid
  | .paymentFailed e companyId reason =>
    e = event.id ∧ event.type ∈ FAILURE_EVENT_TYPES ∧
      event.object.metadataCompanyId = some companyId ∧ reason = event.type
  | .subscriptionPastDue e sub =>
    e = event.id ∧ event.type = "invoice.payment_failed" ∧
      event.object.parentSubscription = some sub
  | .subscriptionCancelled e sub _ =>
    e = event.id ∧ (event.type = "customer.subscription.updated" ∨
      event.type = "customer.subscription.deleted") ∧ sub = event.object.id
  | .ignored e _ => e = event.id

theorem toInvoicePaidDomainEvent_reports {event : StripeEvent} {ev : WebhookEvent}
    (htype : event.type = "invoice.paid") (h : toInvoicePaidDomainEvent event = .ok ev) :
    Reports event ev := by
  simp only [toInvoicePaidDomainEvent] at h
  split at h
  · cases h
    rfl
  · split at h
    · next hreason =>
      split at h
      · cases h
      · next sub hsub =>
        cases h
        exact ⟨rfl, htype, hreason, truthy_some hsub⟩
    · split at h
      · next hreason =>
        split at h
        · cases h
        · next sub hsub =>
          cases h
          exact ⟨rfl, htype, hreason, truthy_some hsub, rfl⟩
      · cases h
        rfl

theorem toDomainEvent_reports {event : StripeEvent} {ev : WebhookEvent}
    (h : toDomainEvent event = .ok ev) : Reports event ev := by
  unfold toDomainEvent at h
  split at h
  · next htype =>
    split at h
    · next companyId plan hc hp =>
      split at h
      · cases h
      · next sub hsub =>
        cases h
        exact ⟨rfl, htype, rfl, truthy_some hsub, hc, hp⟩
    · cases h
  · split at h
    · next htype => exact toInvoicePaidDomainEvent_reports htype h
    · split at h
      · next htype =>
        split at h
        · cases h
          rfl
        · next sub hsub =>
          cases h
          exact ⟨rfl, htype, truthy_some hsub⟩
      · split at h
        · next htype =>
          split at h
          · cases h
            exact ⟨rfl, htype, rfl⟩
          · cases h
            rfl
        · split at h
          · next htype =>
            split at h
            · cases h
              rfl
            · next companyId hc =>
              cases h
              exact ⟨rfl, htype, hc, rfl⟩
          · cases h
            rfl

end StripePaymentProvider

/-- `DunningNotificationService.sendToRecruiters`: the recipients. -/
def sendToRecruiters (companyId : Id) : M (List Recruiter) :=
  select fun db => db.recruiters.rows.filter (·.companyId == companyId)

/-- `TrialConversionService.markConvertedIfApplicable`. -/
def markConvertedIfApplicable (companyId : Id) : M Unit :=
  write fun db =>
    if db.trialCodeRedemptions.rows.any fun r => r.companyId = companyId && r.convertedAt = none
    then [.setConvertedAt companyId db.now] else []

namespace PaymentWebhookService

def PROVIDER_NAME : String := "stripe"

def BILLING_PERIOD_DAYS : Int := 30

section

variable (config : Config) (uuid : Id)

def activateSubscription (providerEventId providerSubscriptionId : String) (companyId : Id)
    (plan : SubscriptionPlan) : M Unit := do
  let quota ← ofExcept (resolveContactQuotaForPlan plan config)
  let eligible ← SubscriptionRepository.findNewest fun s =>
    s.companyId = companyId && (s.status = .trial || s.status = .pastDue)
  let time ← now
  let periodEnd := addDays time BILLING_PERIOD_DAYS
  let subscription ← match eligible with
    | some eligible => do
      ofExcept (assertValidSubscriptionTransition eligible.status .active)
      SubscriptionRepository.save eligible
        { eligible with
          status := .active
          plan := plan
          contactQuota := quota
          contactsUsed := 0
          externalSubscriptionId := some providerSubscriptionId
          endsAt := some periodEnd }
    | none =>
      SubscriptionRepository.insert
        { id := uuid
          companyId := companyId
          plan := plan
          status := .active
          externalSubscriptionId := some providerSubscriptionId
          startsAt := time
          endsAt := some periodEnd
          contactQuota := quota
          contactsUsed := 0
          pastDueSince := none
          cancelAtPeriodEnd := false
          createdAt := time }
  AuditService.log ⟨none, .paymentReceived, "subscription", subscription.id,
    [("companyId", .id companyId), ("plan", .plan plan), ("contactQuota", .num quota),
      ("providerEventId", .str providerEventId)]⟩
  markConvertedIfApplicable companyId
  let company ← findCompanyOrFail companyId
  let _ ← InvoiceEmissionService.emit config uuid ⟨subscription, company, providerEventId, none⟩
  return ()

/-- The row after a renewal. -/
def renewed (subscription : Subscription) (time : Time) : Subscription :=
  { subscription with
    status := .active
    pastDueSince := if subscription.status = .pastDue then none else subscription.pastDueSince
    endsAt := some (addDays (subscription.endsAt.getD time) BILLING_PERIOD_DAYS)
    contactsUsed := 0 }

def renewSubscription (providerEventId providerSubscriptionId : String) : M Unit := do
  match ← SubscriptionRepository.findOne fun s =>
      s.externalSubscriptionId = some providerSubscriptionId &&
        (s.status = .active || s.status = .pastDue) with
  | none => throw (.internalServerError ("subscription.renewed for unknown or " ++
      "non-ACTIVE/PAST_DUE Stripe subscription " ++ providerSubscriptionId))
  | some subscription =>
    let wasResumedFromPastDue : Bool := subscription.status = .pastDue
    ofExcept (if wasResumedFromPastDue then
      assertValidSubscriptionTransition subscription.status .active else .ok ())
    let time ← now
    let saved ← SubscriptionRepository.save subscription (renewed subscription time)
    AuditService.log ⟨none, .paymentReceived, "subscription", saved.id,
      [("companyId", .id saved.companyId), ("renewal", .bool true),
        ("resumedFromPastDue", .bool wasResumedFromPastDue), ("newPeriodEnd", .date saved.endsAt),
        ("providerEventId", .str providerEventId)]⟩
    let _ ← (if wasResumedFromPastDue then sendToRecruiters saved.companyId else pure [])
    let company ← findCompanyOrFail saved.companyId
    let _ ← InvoiceEmissionService.emit config uuid ⟨saved, company, providerEventId, none⟩
    return ()

def markPastDue (providerEventId : String) (companyId : Id) (reason : String) : M Unit := do
  match ← SubscriptionRepository.findOne fun s => s.companyId = companyId && s.status = .active with
  | none =>
    AuditService.log ⟨none, .paymentFailed, "company", companyId,
      [("reason", .str reason), ("providerEventId", .str providerEventId)]⟩
  | some active =>
    ofExcept (assertValidSubscriptionTransition active.status .pastDue)
    let saved ← SubscriptionRepository.save active { active with status := .pastDue }
    AuditService.log ⟨none, .paymentFailed, "subscription", saved.id,
      [("reason", .str reason), ("providerEventId", .str providerEventId)]⟩

def markSubscriptionPastDue (providerEventId providerSubscriptionId : String) : M Unit := do
  match ← SubscriptionRepository.findOne fun s =>
      s.externalSubscriptionId = some providerSubscriptionId with
  | none => throw (.internalServerError
      ("invoice.payment_failed for unknown Stripe subscription " ++ providerSubscriptionId))
  | some subscription =>
    if subscription.status = .active then
      ofExcept (assertValidSubscriptionTransition subscription.status .pastDue)
      let time ← now
      let _ ← SubscriptionRepository.save subscription
        { subscription with status := .pastDue, pastDueSince := some time }
    AuditService.log ⟨none, .subscriptionPastDue, "subscription", subscription.id,
      [("companyId", .id subscription.companyId), ("providerEventId", .str providerEventId)]⟩
    let _ ← sendToRecruiters subscription.companyId
    return ()

def handlePlanChangeInvoice (providerEventId providerSubscriptionId : String) (amountTTC : Int) :
    M Unit := do
  match ← SubscriptionRepository.findOne fun s =>
      s.externalSubscriptionId = some providerSubscriptionId with
  | none => throw (.internalServerError ("invoice.paid (subscription_update) for unknown " ++
      "Stripe subscription " ++ providerSubscriptionId))
  | some subscription =>
    let company ← findCompanyOrFail subscription.companyId
    let _ ← InvoiceEmissionService.emit config uuid
      ⟨subscription, company, providerEventId, some amountTTC⟩
    AuditService.log ⟨none, .paymentReceived, "subscription", subscription.id,
      [("companyId", .id subscription.companyId), ("proration", .bool true),
        ("amountTTC", .num amountTTC), ("providerEventId", .str providerEventId)]⟩

def cancelSubscription (providerEventId providerSubscriptionId reason : String) : M Unit := do
  match ← SubscriptionRepository.findOne fun s =>
      s.externalSubscriptionId = some providerSubscriptionId with
  | none => throw (.internalServerError
      (reason ++ " for unknown Stripe subscription " ++ providerSubscriptionId))
  | some subscription =>
    if subscription.status = .cancelled then return ()
    else
      ofExcept (assertValidSubscriptionTransition subscription.status .cancelled)
      let _ ← SubscriptionRepository.save subscription
        { subscription with status := .cancelled, pastDueSince := none }
      AuditService.log ⟨none, .subscriptionCancelled, "subscription", subscription.id,
        [("companyId", .id subscription.companyId), ("reason", .str reason),
          ("providerEventId", .str providerEventId)]⟩
      let _ ← sendToRecruiters subscription.companyId
      return ()

def applyEffect (event : WebhookEvent) : M Unit :=
  match event with
  | .subscriptionActivated e _ sub companyId plan =>
    activateSubscription config uuid e sub companyId plan
  | .subscriptionRenewed e sub => renewSubscription config uuid e sub
  | .paymentFailed e companyId reason => markPastDue e companyId reason
  | .subscriptionPastDue e sub => markSubscriptionPastDue e sub
  | .subscriptionPlanChanged e sub amountTTC => handlePlanChangeInvoice config uuid e sub amountTTC
  | .subscriptionCancelled e sub reason => cancelSubscription e sub reason
  | .ignored _ _ => return ()

end

/-- The row that marks an event as processed. -/
def marker (uuid : Id) (event : WebhookEvent) : ProcessedWebhookEvent :=
  ⟨uuid, event.providerEventId, PROVIDER_NAME, event.type⟩

/-- The constraint that a marker would violate. -/
def markerViolation (m : ProcessedWebhookEvent) (db : Db) : Option String :=
  if (db.processedWebhookEvents.get? m.id).isSome then some "PK_processed_webhook_events"
  else if db.processedWebhookEvents.rows.any (·.providerEventId == m.providerEventId) then
    some PROCESSED_WEBHOOK_EVENT_UNIQUE_CONSTRAINT
  else none

def insertMarker (m : ProcessedWebhookEvent) : M Unit :=
  insertUnique (markerViolation m) (.insertProcessedWebhookEvent m) ()

/-- The `catch` of `handleWebhook`. -/
def onError (error : Error) : M Bool :=
  if isUniqueViolation error (some PROCESSED_WEBHOOK_EVENT_UNIQUE_CONSTRAINT) then return true
  else throw error

/-- The handling of a parsed event; the result is `alreadyProcessed`. -/
def handleEvent (config : Config) (uuid : Id) (event : WebhookEvent) : M Bool :=
  transaction
    (do
      insertMarker (marker uuid event)
      applyEffect config uuid event)
    onError fun _ => return false

/-- `handleWebhook`. -/
def handleWebhook (config : Config) (uuid : Id) (delivery : Option StripeEvent) : M Bool := do
  let event ← ofExcept (StripePaymentProvider.verifyAndParseWebhook delivery)
  handleEvent config uuid event

end PaymentWebhookService

end JobBoard
