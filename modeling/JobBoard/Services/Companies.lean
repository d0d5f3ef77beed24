import JobBoard.Services.Lifecycle

/-!
# Companies: creation, access, quota and administration

`CompanyService.createCompany`, `SubscriptionGuardService`,
`ContactQuotaService.consumeOneContact` and `SubscriptionAdminService`.
-/

set_option autoImplicit false

namespace JobBoard

open Txn Prog

/-! ## The guard -/

namespace SubscriptionGuardService

def findNewestOf (companyId : Id) : M (Option Subscription) :=
  SubscriptionRepository.findNewest fun s => s.companyId = companyId

/-- `assertActiveSubscription`; the result is the company. -/
def assertActiveSubscription (config : Config) (userId : Id) : M Id := do
  match ← findRecruiter userId with
  | none => throw (.forbidden "Aucun compte recruteur associé à cet utilisateur")
  | some recruiter =>
    let subscription ← findNewestOf recruiter.companyId
    let time ← now
    match subscription with
    | some subscription =>
      if isSubscriptionWithinAccess subscription config.gracePeriodDays time then
        return recruiter.companyId
      else
        throw (.forbidden "Un abonnement actif est requis pour accéder à cette fonctionnalité")
    | none =>
      throw (.forbidden "Un abonnement actif est requis pour accéder à cette fonctionnalité")

def resolveCompanyId (userId : Id) : M Id := do
  match ← findRecruiter userId with
  | none => throw (.notFound "No company associated with this account")
  | some recruiter => return recruiter.companyId

end SubscriptionGuardService

/-! ## The contact quota -/

namespace ContactQuotaService

def ACTIVE_SUBSCRIPTION_STATUSES : List SubscriptionStatus := [.trial, .active]

/-- The rows the quota service counts as the active subscriptions of a company:
`status IN (trial, active)` and `ends_at IS NULL OR ends_at > now`. -/
def isActiveSubscription (companyId : Id) (time : Time) (s : Subscription) : Bool :=
  s.companyId = companyId && s.status ∈ ACTIVE_SUBSCRIPTION_STATUSES &&
    match s.endsAt with
    | none => true
    | some endsAt => endsAt > time

/-- What `resolveActiveSubscriptionId` makes of the rows it finds. -/
def resolveFrom (companyId : Id) (found : List Subscription) : Except Error Id :=
  match found with
  | [] => .error (.subscriptionInactive companyId)
  | [s] => .ok s.id
  | found => .error (.multipleActiveSubscriptions companyId found.length)

def resolveActiveSubscriptionId (companyId : Id) : M Id := do
  let time ← now
  let found ← select fun db => db.subscriptions.rows.filter (isActiveSubscription companyId time)
  ofExcept (resolveFrom companyId found)

/-- `UPDATE ... SET contacts_used = contacts_used + 1 WHERE id = :id AND
contacts_used < contact_quota`. -/
def consume (companyId subscriptionId : Id) : M Unit :=
  query fun db =>
    match db.subscription? subscriptionId with
    | some s =>
      if s.contactsUsed < s.contactQuota then .ok ([.incrementContactsUsed subscriptionId], ())
      else .error (.contactQuotaExceeded companyId)
    | none => .error (.contactQuotaExceeded companyId)

def consumeOneContact (companyId : Id) : M Unit := do
  let subscriptionId ← resolveActiveSubscriptionId companyId
  consume companyId subscriptionId

end ContactQuotaService

/-! ## Administration -/

namespace SubscriptionAdminService

def load (id : Id) : M Subscription := do
  match ← select fun db => db.subscription? id with
  | none => throw (.notFound "Subscription not found")
  | some sub => return sub

def cancel (id : Id) : M Subscription := do
  let sub ← load id
  let time ← now
  SubscriptionRepository.save sub
    { sub with status := .cancelled, endsAt := some time, cancelAtPeriodEnd := false }

def suspend (id : Id) : M Subscription := do
  let sub ← load id
  if sub.status = .cancelled ∨ sub.status = .expired then
    throw (.badRequest "A cancelled or expired subscription cannot be suspended")
  else if sub.status = .suspended then
    throw (.badRequest "Subscription is already suspended")
  else
    SubscriptionRepository.save sub { sub with status := .suspended, cancelAtPeriodEnd := false }

def reactivate (id : Id) : M Subscription := do
  let sub ← load id
  if sub.status ≠ .suspended then
    throw (.badRequest "Only a suspended subscription can be reactivated")
  else
    let liveElsewhere ← select fun db => db.activeElsewhere sub.id sub.companyId
    if liveElsewhere then
      throw (.conflict "The company already has an active or trial subscription")
    else
      SubscriptionRepository.save sub { sub with status := .active }

def resolveQuota (config : Config) (plan : SubscriptionPlan) (override : Option Int) :
    Except Error Int :=
  match override with
  | some quota => .ok quota
  | none =>
    if plan = .enterprise then
      .error (.badRequest
        "A contact quota is required for the Enterprise plan (negotiated per contract)")
    else resolveContactQuotaForPlan plan config

def assignPlan (config : Config) (uuid companyId : Id) (plan : SubscriptionPlan)
    (contactQuota : Option Int) : M Subscription := do
  match ← select fun db => db.companies.get? companyId with
  | none => throw (.notFound "Company not found")
  | some company =>
    let quota ← ofExcept (resolveQuota config plan contactQuota)
    let existing ← SubscriptionRepository.findNewest fun s =>
      s.companyId = company.id && s.status ∈ LIVE_STATUSES
    let time ← now
    match existing with
    | some existing =>
      SubscriptionRepository.save existing
        { existing with
          plan := plan
          contactQuota := quota
          status := .active
          cancelAtPeriodEnd := false
          pastDueSince := none
          endsAt := none }
    | none =>
      SubscriptionRepository.insert
        { id := uuid
          companyId := company.id
          plan := plan
          status := .active
          externalSubscriptionId := none
          startsAt := time
          endsAt := none
          contactQuota := quota
          contactsUsed := 0
          pastDueSince := none
          cancelAtPeriodEnd := false
          createdAt := time }

end SubscriptionAdminService

/-! ## Creation -/

structure CreateCompanyDto where
  name : String
  ice : String
  registrationNumber : Option String
  deriving DecidableEq, Repr

namespace CompanyService

def DEFAULT_TRIAL_DURATION_DAYS : Int := 14

def DEFAULT_STARTER_CONTACT_QUOTA : Int := 15

def insertCompany (c : Company) : M Unit :=
  insertUnique
    (fun db =>
      if (db.companies.get? c.id).isSome then some "PK_companies"
      else if c.ice.isSome && db.companies.rows.any (·.ice == c.ice) then some "UQ_companies_ice"
      else none)
    (.insertCompany c) ()

def insertRecruiter (r : Recruiter) : M Unit :=
  insertUnique
    (fun db =>
      if (db.recruiters.get? r.id).isSome then some "PK_recruiters"
      else if db.recruiters.rows.any (·.userId == r.userId) then some "UQ_recruiters_user_id"
      else none)
    (.insertRecruiter r) ()

/-- Each statement commits by itself. -/
def createCompany (uuid userId : Id) (dto : CreateCompanyDto) : M (Company × Subscription) := do
  match ← select fun db => db.users.get? userId with
  | none => throw (.notFound "User not found")
  | some user =>
    if ¬ user.emailVerified then
      throw (.forbidden "A verified professional email is required to create a company")
    else if (← findRecruiter userId).isSome then
      throw (.conflict "You are already attached to a company")
    else if ← select fun db => db.companies.rows.any (·.ice == some dto.ice) then
      throw (.conflict "A company with this ICE already exists")
    else
      let company : Company := ⟨uuid, dto.name, some dto.ice, dto.registrationNumber⟩
      insertCompany company
      insertRecruiter ⟨uuid, userId, company.id⟩
      (if .companyAdmin ∉ user.roles then
        write fun _ => [.updateRoles userId (user.roles ++ [.companyAdmin])]
      else pure ())
      let trialDurationDays ← select fun db => db.trialDurationDays
      let starterContactQuota ← select fun db => db.planStarterContacts
      let startsAt ← now
      let endsAt := addDays startsAt (trialDurationDays.getD DEFAULT_TRIAL_DURATION_DAYS)
      let subscription ← SubscriptionRepository.insert
        { id := uuid
          companyId := company.id
          plan := .starter
          status := .trial
          externalSubscriptionId := none
          startsAt := startsAt
          endsAt := some endsAt
          contactQuota := starterContactQuota.getD DEFAULT_STARTER_CONTACT_QUOTA
          contactsUsed := 0
          pastDueSince := none
          cancelAtPeriodEnd := false
          createdAt := startsAt }
      AuditService.log ⟨some userId, .companyCreated, "company", company.id,
        [("name", .str company.name), ("plan", .plan subscription.plan),
          ("trialEndsAt", .date (some endsAt))]⟩
      return (company, subscription)

end CompanyService

end JobBoard
