import JobBoard.Lib.Sys
import JobBoard.Services.Webhook
import JobBoard.Services.Checkout
import JobBoard.Services.Conversations
import JobBoard.Services.TrialCodes

/-!
# The system of all calls

`Op` is a call of one of the services (or the passing of time), and `system`
runs any number of them interleaved, statement by statement. The number of a
call stands for the uuids the database generates for its rows.
-/

set_option autoImplicit false

namespace JobBoard

open Txn Prog

inductive Op where
  | clock (ms : Nat)
  | createCompany (userId : Id) (dto : CreateCompanyDto)
  | handleWebhook (delivery : Option StripeEvent)
  | createCheckoutSession (userId : Id) (plan : SubscriptionPlan)
  | cancelSubscription (userId : Id)
  | changePlan (userId : Id) (plan : SubscriptionPlan)
  | redeem (userId : Id) (code : String)
  | createTrialCode (dto : CreateTrialCodeDto)
  | revokeTrialCode (id : Id)
  | adminCancel (id : Id)
  | adminSuspend (id : Id)
  | adminReactivate (id : Id)
  | assignPlan (companyId : Id) (plan : SubscriptionPlan) (contactQuota : Option Int)
  | openConversation (recruiterUserId candidateProfileId : Id) (firstMessageBody : String)
  deriving DecidableEq, Repr

inductive Result where
  | unit
  | alreadyProcessed (b : Bool)
  | periodEnd (t : Option Time)
  | subscription (s : Subscription)
  | company (c : Company) (s : Subscription)
  | conversation (c : Conversation)
  | trialCode (c : TrialCode)
  deriving DecidableEq, Repr

/-- The errors a statement or an outside call may fail with by itself. -/
def isFault : Error → Bool
  | .unavailable => true
  | .queryFailed code _ => code ≠ POSTGRES_UNIQUE_VIOLATION
  | _ => false

theorem isFault_not_unique {e : Error} (h : isFault e = true) (constraintName : Option String) :
    isUniqueViolation e constraintName = false := by
  cases e with
  | queryFailed code constraint =>
    have hcode : code ≠ POSTGRES_UNIQUE_VIOLATION := by simpa [isFault] using h
    simp only [isUniqueViolation, hcode, ne_eq, not_false_eq_true, if_true]
  | unavailable => rfl
  | _ => cases h

def program (config : Config) (uuid : Id) : Op → M Result
  | .clock ms => do
    write fun _ => [.tick ms]
    return .unit
  | .createCompany userId dto => do
    let r ← CompanyService.createCompany uuid userId dto
    return .company r.1 r.2
  | .handleWebhook delivery => do
    return .alreadyProcessed (← PaymentWebhookService.handleWebhook config uuid delivery)
  | .createCheckoutSession userId plan => do
    SubscriptionCheckoutService.createCheckoutSession config userId plan
    return .unit
  | .cancelSubscription userId => do
    return .periodEnd (← SubscriptionCheckoutService.cancelSubscription userId)
  | .changePlan userId plan => do
    return .subscription (← SubscriptionCheckoutService.changePlan config userId plan)
  | .redeem userId code => do
    return .subscription (← TrialCodeRedemptionService.redeem config uuid userId code)
  | .createTrialCode dto => do
    return .trialCode (← TrialCodeAdminService.create uuid dto)
  | .revokeTrialCode id => do
    return .trialCode (← TrialCodeAdminService.revoke id)
  | .adminCancel id => do
    return .subscription (← SubscriptionAdminService.cancel id)
  | .adminSuspend id => do
    return .subscription (← SubscriptionAdminService.suspend id)
  | .adminReactivate id => do
    return .subscription (← SubscriptionAdminService.reactivate id)
  | .assignPlan companyId plan contactQuota => do
    return .subscription
      (← SubscriptionAdminService.assignPlan config uuid companyId plan contactQuota)
  | .openConversation recruiterUserId candidateProfileId firstMessageBody => do
    return .conversation (← ConversationService.openConversation config uuid recruiterUserId
      candidateProfileId firstMessageBody)

def system (config : Config) : System Db Write Key Error Result Op :=
  ⟨store, program config, isFault⟩

abbrev RunState := State Db Write Error Result Op

/-- What a call has returned. -/
def answer (s : RunState) (i : Nat) : Option Result :=
  match s.call i with
  | .done (.ok r) => some r
  | _ => none

/-- What a call has thrown. -/
def thrown (s : RunState) (i : Nat) : Option Error :=
  match s.call i with
  | .done (.error e) => some e
  | _ => none

theorem thrown_eq {s : RunState} {i : Nat} {e : Error} (h : thrown s i = some e) :
    s.call i = .done (.error e) := by
  unfold thrown at h
  split at h
  · next e' he =>
    cases h
    exact he
  · cases h

/-- The runs `R` one call at a time. -/
def oneAtATime (R : Runs Db Write Op) : Runs Db Write Op := { R with serial := true }

/-! ## Small databases and runs -/

/-- A user who may create a company, and a candidate. -/
def verifiedUser : Db :=
  { Db.empty with
    users := Table.insert ∅ ⟨300, true, []⟩
    candidateProfiles := Table.insert ∅ ⟨400, 301⟩ }

/-- An event about a Checkout session of the company 0. -/
def checkoutEvent (id type session sub : String) : StripeEvent :=
  ⟨id, type, ⟨session, some 0, some .starter, some sub, none, none, 0, "complete"⟩⟩

/-- The renewal invoice of a Stripe subscription. -/
def renewalInvoice (id invoice sub : String) : StripeEvent :=
  ⟨id, "invoice.paid", ⟨invoice, none, none, none, some "subscription_cycle", some sub, 118800,
    "paid"⟩⟩

/-- Call `i` runs alone, in `n` steps. -/
def alone (i : Nat) (op : Op) (n : Nat) : List (Label Error Op) :=
  .spawn op :: List.replicate n (.step i)

/-- A company with one recruiter and an ACTIVE subscription, and a candidate. -/
def paidCompany : Db :=
  { Db.empty with
    companies := Table.insert ∅ ⟨100, "Atlas", some "001234567000089", none⟩
    recruiters := Table.insert ∅ ⟨200, 300, 100⟩
    candidateProfiles := Table.insert ∅ ⟨400, 301⟩
    subscriptions := Table.insert ∅
      { id := 50
        companyId := 100
        plan := .starter
        status := .active
        externalSubscriptionId := some "sub_1"
        startsAt := 0
        endsAt := some 2592000000
        contactQuota := 15
        contactsUsed := 3
        pastDueSince := none
        cancelAtPeriodEnd := false
        createdAt := 0 } }

end JobBoard
