import JobBoard.Lib.Table

/-!
# Entities, events and errors

The rows of the tables that billing, subscriptions and messaging read and
write, with the columns their services use, the Stripe events and the domain
events they are translated to, and the exceptions of these services.

Row ids (uuids) are natural numbers, ids given by Stripe are strings, a
`Date` is its number of milliseconds and amounts are integer centimes. Columns
that none of the modelled services reads or writes are left out.
-/

set_option autoImplicit false

namespace JobBoard

open Txn

abbrev Id := Nat

/-- Milliseconds since 1970-01-01T00:00:00Z. -/
abbrev Time := Int

def msPerDay : Int := 86400000

/-- `addDays` of date-utils.ts, on a server running in UTC. -/
def addDays (date : Time) (days : Int) : Time := date + days * msPerDay

/-- `Date.prototype.getFullYear` in UTC, by the proleptic Gregorian calendar. -/
def getFullYear (date : Time) : Int :=
  let z := date / msPerDay + 719468
  let era := z / 146097
  let doe := z - era * 146097
  let yoe := (doe - doe / 1460 + doe / 36524 - doe / 146096) / 365
  let doy := doe - (365 * yoe + yoe / 4 - yoe / 100)
  let mp := (5 * doy + 2) / 153
  yoe + era * 400 + (if mp < 10 then 0 else 1)

example : getFullYear 1767225599999 = 2025 ∧ getFullYear 1767225600000 = 2026 := by decide

/-! ## Enumerations -/

inductive SubscriptionPlan where
  | starter | growth | scale | enterprise
  deriving DecidableEq, Repr

inductive SubscriptionStatus where
  | trial | active | pastDue | suspended | cancelled | expired
  deriving DecidableEq, Repr

namespace SubscriptionPlan

def toString : SubscriptionPlan → String
  | starter => "starter"
  | growth => "growth"
  | scale => "scale"
  | enterprise => "enterprise"

end SubscriptionPlan

namespace SubscriptionStatus

def toString : SubscriptionStatus → String
  | trial => "trial"
  | active => "active"
  | pastDue => "past_due"
  | suspended => "suspended"
  | cancelled => "cancelled"
  | expired => "expired"

end SubscriptionStatus

inductive TrialCodeStatus where
  | active | revoked
  deriving DecidableEq, Repr

inductive Role where
  | candidate | recruiter | companyAdmin | moderator | admin
  deriving DecidableEq, Repr

inductive MessageSenderRole where
  | candidate | recruiter
  deriving DecidableEq, Repr

inductive AuditAction where
  | paymentReceived | paymentFailed | subscriptionPastDue | subscriptionCancelled
  | subscriptionPlanChanged | companyCreated
  | assessmentStarted | assessmentMultiAccountFlagged | assessmentResumed | assessmentIncident
  | assessmentProctoringFlagged | assessmentCompleted | scoreCalculated
  | moderationAction | shortlistEntryAdded
  deriving DecidableEq, Repr

/-! ## Rows -/

structure User where
  id : Id
  emailVerified : Bool
  roles : List Role
  deriving DecidableEq, Repr

structure Company where
  id : Id
  name : String
  ice : Option String
  registrationNumber : Option String
  deriving DecidableEq, Repr

structure Recruiter where
  id : Id
  userId : Id
  companyId : Id
  deriving DecidableEq, Repr

structure Subscription where
  id : Id
  companyId : Id
  plan : SubscriptionPlan
  status : SubscriptionStatus
  externalSubscriptionId : Option String
  startsAt : Time
  endsAt : Option Time
  contactQuota : Int
  contactsUsed : Int
  pastDueSince : Option Time
  cancelAtPeriodEnd : Bool
  createdAt : Time
  deriving DecidableEq, Repr

structure ProcessedWebhookEvent where
  id : Id
  providerEventId : String
  provider : String
  eventType : String
  deriving DecidableEq, Repr

/-- The primary key is the year. -/
structure InvoiceSequence where
  year : Int
  lastNumber : Nat
  deriving DecidableEq, Repr

structure Invoice where
  id : Id
  subscriptionId : Id
  companyId : Id
  invoiceNumber : String
  amountHT : Int
  vatRate : Int
  vatAmount : Int
  amountTTC : Int
  currency : String
  companyIce : String
  issuedAt : Time
  pdfStorageKey : String
  stripeInvoiceId : String
  deriving DecidableEq, Repr

structure TrialCode where
  id : Id
  code : String
  plan : SubscriptionPlan
  trialDurationDays : Int
  maxUses : Int
  usedCount : Int
  status : TrialCodeStatus
  expiresAt : Option Time
  deriving DecidableEq, Repr

structure TrialCodeRedemption where
  id : Id
  trialCodeId : Id
  companyId : Id
  redeemedAt : Time
  convertedAt : Option Time
  deriving DecidableEq, Repr

structure CandidateProfile where
  id : Id
  userId : Id
  deriving DecidableEq, Repr

structure Conversation where
  id : Id
  candidateId : Id
  recruiterId : Id
  companyId : Id
  deriving DecidableEq, Repr

structure Message where
  id : Id
  conversationId : Id
  senderId : Id
  senderRole : MessageSenderRole
  body : String
  deriving DecidableEq, Repr

/-- A value of the `metadata` column of an audit entry. -/
inductive MetaValue where
  | id (v : Id)
  | str (v : String)
  | num (v : Int)
  | bool (v : Bool)
  | plan (v : SubscriptionPlan)
  | date (v : Option Time)
  deriving DecidableEq, Repr

structure AuditLog where
  actorId : Option Id
  action : AuditAction
  entityType : String
  entityId : Id
  metadata : List (String × MetaValue)
  deriving DecidableEq, Repr

structure InvoicePdfParams where
  invoiceNumber : String
  issuedAt : Time
  issuerName : String
  issuerIce : String
  issuerAddress : String
  companyName : String
  companyIce : String
  planLabel : String
  amountHT : Int
  vatRate : Int
  vatAmount : Int
  amountTTC : Int
  currency : String
  deriving DecidableEq, Repr

/-- The bytes of a generated invoice: what is printed on it, and which
generation they come from (two generations never give the same bytes). -/
structure InvoicePdf where
  params : InvoicePdfParams
  generation : Id
  deriving DecidableEq, Repr

structure StoredObject where
  key : String
  body : InvoicePdf
  contentType : String
  deriving DecidableEq, Repr

/-- A call that reached Stripe. -/
inductive StripeCall where
  | createCheckoutSession (companyId : Id) (plan : SubscriptionPlan) (amount : Int)
      (currency : String)
  | cancelAtPeriodEnd (providerSubscriptionId : String)
  | changeSubscriptionPlan (providerSubscriptionId : String) (plan : SubscriptionPlan)
      (amount : Int) (currency : String)
  deriving DecidableEq, Repr

/-! ## Events -/

/-- `event.data.object`: the fields the adapter reads, absent ones `none`. An
id given as a string or as an expanded object is the id. -/
structure StripeObject where
  id : String
  metadataCompanyId : Option Id
  metadataPlan : Option SubscriptionPlan
  subscription : Option String
  billingReason : Option String
  parentSubscription : Option String
  amountPaid : Int
  status : String
  deriving DecidableEq, Repr

structure StripeEvent where
  id : String
  type : String
  object : StripeObject
  deriving DecidableEq, Repr

/-- The domain events of payment.port.ts. -/
inductive WebhookEvent where
  | subscriptionActivated (providerEventId providerSessionId providerSubscriptionId : String)
      (companyId : Id) (plan : SubscriptionPlan)
  | subscriptionRenewed (providerEventId providerSubscriptionId : String)
  | paymentFailed (providerEventId : String) (companyId : Id) (reason : String)
  | subscriptionPastDue (providerEventId providerSubscriptionId : String)
  | subscriptionPlanChanged (providerEventId providerSubscriptionId : String) (amountTTC : Int)
  | subscriptionCancelled (providerEventId providerSubscriptionId reason : String)
  | ignored (providerEventId reason : String)
  deriving DecidableEq, Repr

namespace WebhookEvent

def providerEventId : WebhookEvent → String
  | subscriptionActivated e _ _ _ _ => e
  | subscriptionRenewed e _ => e
  | paymentFailed e _ _ => e
  | subscriptionPastDue e _ => e
  | subscriptionPlanChanged e _ _ => e
  | subscriptionCancelled e _ _ => e
  | ignored e _ => e

def type : WebhookEvent → String
  | subscriptionActivated .. => "subscription.activated"
  | subscriptionRenewed .. => "subscription.renewed"
  | paymentFailed .. => "payment.failed"
  | subscriptionPastDue .. => "subscription.past_due"
  | subscriptionPlanChanged .. => "subscription.plan_changed"
  | subscriptionCancelled .. => "subscription.cancelled"
  | ignored .. => "ignored"

end WebhookEvent

/-! ## Errors -/

/-- What the services throw. `queryFailed` is TypeORM's `QueryFailedError` with
the Postgres code and constraint, `unavailable` any other failure of a query,
an upload or a call to Stripe. -/
inductive Error where
  | queryFailed (code : String) (constraint : Option String)
  | unavailable
  | entityNotFound (entity : String)
  | badRequest (message : String)
  | forbidden (message : String)
  | notFound (message : String)
  | conflict (message : String)
  | internalServerError (message : String)
  | invalidWebhookSignature
  | invalidSubscriptionTransition (source target : SubscriptionStatus)
  | enterpriseQuotaNotAutomated
  | companyAlreadySubscribed (companyId : Id)
  | noActiveSubscriptionToCancel (companyId : Id)
  | noActiveSubscriptionToChangePlan (companyId : Id)
  | samePlan (plan : SubscriptionPlan)
  | invalidTrialCode
  | trialCodeNotEligible
  | trialCodeAlreadyRedeemed
  | subscriptionInactive (companyId : Id)
  | contactQuotaExceeded (companyId : Id)
  | multipleActiveSubscriptions (companyId : Id) (count : Nat)
  | candidateProfileNotFound (candidateProfileId : Id)
  | cooldownActive (reEligibleAt : String)
  | timeExceeded
  deriving DecidableEq, Repr

namespace Error

/-- The text of the exception. -/
def message : Error → String
  | queryFailed code _ => "query failed with " ++ code
  | unavailable => "unavailable"
  | entityNotFound entity => "Could not find any entity of type \"" ++ entity ++ "\""
  | badRequest m => m
  | forbidden m => m
  | notFound m => m
  | conflict m => m
  | internalServerError m => m
  | invalidWebhookSignature => "Invalid payment webhook signature"
  | invalidSubscriptionTransition a b =>
    "Cannot transition subscription from \"" ++ a.toString ++ "\" to \"" ++ b.toString ++ "\""
  | enterpriseQuotaNotAutomated =>
    "Enterprise plan contact quota is negotiated per contract, not automated — this plan " ++
      "cannot be provisioned from a webhook"
  | companyAlreadySubscribed c =>
    "Company " ++ ToString.toString c ++ " already has an active or trial subscription"
  | noActiveSubscriptionToCancel c =>
    "Company " ++ ToString.toString c ++ " has no active subscription to cancel"
  | noActiveSubscriptionToChangePlan c =>
    "Company " ++ ToString.toString c ++ " has no active subscription to change the plan of"
  | samePlan p => "Subscription is already on the " ++ p.toString ++ " plan"
  | invalidTrialCode => "This trial code is not valid"
  | trialCodeNotEligible => "A trial code can only be redeemed while on a trial subscription"
  | trialCodeAlreadyRedeemed => "This company has already redeemed a trial code"
  | subscriptionInactive c => "No active subscription for company " ++ ToString.toString c
  | contactQuotaExceeded c => "Contact quota exceeded for company " ++ ToString.toString c
  | multipleActiveSubscriptions c n =>
    "Data invariant violation: company " ++ ToString.toString c ++ " has " ++ ToString.toString n ++
      " active subscriptions, expected exactly 1"
  | candidateProfileNotFound id => "Candidate profile " ++ ToString.toString id ++ " not found"
  | cooldownActive reEligibleAt =>
    "Cooldown period active. Re-eligible on " ++ (reEligibleAt.splitOn "T").headD ""
  | timeExceeded => "Le temps imparti pour l’évaluation est dépassé."

end Error

def POSTGRES_UNIQUE_VIOLATION : String := "23505"

/-- `isUniqueViolation`: any unique violation, or one of the named constraint. -/
def isUniqueViolation (error : Error) (constraintName : Option String := none) : Bool :=
  match error with
  | .queryFailed code constraint =>
    if code ≠ POSTGRES_UNIQUE_VIOLATION then false
    else match constraintName with
      | none => true
      | some name => constraint == some name
  | _ => false

def uniqueViolation (constraint : String) : Error :=
  .queryFailed POSTGRES_UNIQUE_VIOLATION (some constraint)

/-- A string that is absent or empty is falsy. -/
def truthy (s : Option String) : Option String :=
  match s with
  | some "" => none
  | s => s

theorem truthy_some {s : Option String} {x : String} (h : truthy s = some x) : s = some x := by
  unfold truthy at h
  split at h
  · cases h
  · exact h

/-! ## Saving an entity -/

/-- `SET column = entity.column`, when it differs from the re-read value. -/
def setColumn {α : Type} [DecidableEq α] (entity reread row : α) : α :=
  if entity = reread then row else entity

theorem setColumn_eq {α : Type} [DecidableEq α] (entity reread row : α) :
    setColumn entity reread row = row ∨
      (setColumn entity reread row = entity ∧ entity ≠ reread) := by
  unfold setColumn
  split
  · exact .inl rfl
  · next h => exact .inr ⟨rfl, h⟩

@[simp] theorem setColumn_self {α : Type} [DecidableEq α] (entity row : α) :
    setColumn entity entity row = row := by
  simp [setColumn]

theorem setColumn_reread {α : Type} [DecidableEq α] (entity row : α) :
    setColumn entity row row = entity := by
  unfold setColumn
  split
  · next h => exact h.symm
  · rfl

end JobBoard
