import JobBoard.Services.Companies

/-!
# Checkout and trial codes

`SubscriptionCheckoutService` and `TrialCodeRedemptionService`. A call to Stripe
is a step of its own: it may fail, and other calls run before it and after it.
-/

set_option autoImplicit false

namespace JobBoard

open Txn Prog

/-- A method of `PaymentProvider` that calls Stripe. -/
def PaymentProvider.call (c : StripeCall) : M Unit := outside fun _ => [.callStripe c]

namespace SubscriptionCheckoutService

section

variable (config : Config)

/-- What Stripe charges for a plan: the configured price with VAT. -/
def amountTTC (plan : SubscriptionPlan) : Except Error Int :=
  (resolveMonthlyPriceHtInCentimes plan config).map fun amountHT => (computeVat amountHT).amountTTC

def createCheckoutSession (userId : Id) (plan : SubscriptionPlan) : M Unit := do
  let companyId ← SubscriptionGuardService.resolveCompanyId userId
  match ← SubscriptionRepository.findOne fun s => s.companyId = companyId && s.status = .active with
  | some _ => throw (.companyAlreadySubscribed companyId)
  | none =>
    let amount ← ofExcept (amountTTC config plan)
    PaymentProvider.call (.createCheckoutSession companyId plan amount config.getCurrency)

/-- The row `cancelSubscription` and `changePlan` work on. -/
def findPayable (companyId : Id) : M (Option Subscription) :=
  SubscriptionRepository.findNewest fun s =>
    s.companyId = companyId && (s.status = .active || s.status = .pastDue)

/-- The result is `periodEnd`. -/
def cancelSubscription (userId : Id) : M (Option Time) := do
  let companyId ← SubscriptionGuardService.resolveCompanyId userId
  match ← findPayable companyId with
  | none => throw (.noActiveSubscriptionToCancel companyId)
  | some subscription =>
    match truthy subscription.externalSubscriptionId with
    | none => throw (.noActiveSubscriptionToCancel companyId)
    | some externalSubscriptionId =>
      if ¬ subscription.cancelAtPeriodEnd then
        PaymentProvider.call (.cancelAtPeriodEnd externalSubscriptionId)
        let _ ← SubscriptionRepository.save subscription
          { subscription with cancelAtPeriodEnd := true }
      return subscription.endsAt

def changePlan (userId : Id) (plan : SubscriptionPlan) : M Subscription := do
  let companyId ← SubscriptionGuardService.resolveCompanyId userId
  match ← findPayable companyId with
  | none => throw (.noActiveSubscriptionToChangePlan companyId)
  | some subscription =>
    match truthy subscription.externalSubscriptionId with
    | none => throw (.noActiveSubscriptionToChangePlan companyId)
    | some externalSubscriptionId =>
      if subscription.plan = plan then throw (.samePlan plan)
      else
        let newQuota ← ofExcept (resolveContactQuotaForPlan plan config)
        let amount ← ofExcept (amountTTC config plan)
        PaymentProvider.call
          (.changeSubscriptionPlan externalSubscriptionId plan amount config.getCurrency)
        let saved ← SubscriptionRepository.save subscription
          { subscription with plan := plan, contactQuota := newQuota }
        AuditService.log ⟨some userId, .subscriptionPlanChanged, "subscription", saved.id,
          [("companyId", .id companyId), ("planChange", .bool true),
            ("previousPlan", .plan subscription.plan), ("newPlan", .plan plan),
            ("newContactQuota", .num newQuota)]⟩
        return saved

end

end SubscriptionCheckoutService

namespace TrialCodeRedemptionService

def isCurrentlyRedeemable (trialCode : TrialCode) (time : Time) : Bool :=
  trialCode.status = .active &&
    (match trialCode.expiresAt with
      | none => true
      | some expiresAt => time < expiresAt) &&
    trialCode.usedCount < trialCode.maxUses

/-- The constraint that the redemption `r` would violate. -/
def redemptionViolation (r : TrialCodeRedemption) (db : Db) : Option String :=
  if (db.trialCodeRedemptions.get? r.id).isSome then some "PK_trial_code_redemptions"
  else if db.trialCodeRedemptions.rows.any (·.companyId == r.companyId) then
    some TRIAL_CODE_REDEMPTION_COMPANY_UNIQUE_CONSTRAINT
  else none

/-- The `INSERT` of the redemption, with the `catch` around it. -/
def insertRedemption (r : TrialCodeRedemption) : M Unit :=
  mapError
    (fun error =>
      if isUniqueViolation error (some TRIAL_CODE_REDEMPTION_COMPANY_UNIQUE_CONSTRAINT) then
        .trialCodeAlreadyRedeemed
      else error)
    (insertUnique (redemptionViolation r) (.insertRedemption r) ())

/-- `UPDATE trial_codes SET used_count = used_count + 1 WHERE id = :id AND
used_count < max_uses AND status = 'active'`. -/
def claim (trialCodeId : Id) : M Unit :=
  query fun db =>
    match db.trialCodes.get? trialCodeId with
    | some code =>
      if code.usedCount < code.maxUses ∧ code.status = .active then
        .ok ([.incrementUsedCount trialCodeId], ())
      else .error .invalidTrialCode
    | none => .error .invalidTrialCode

/-- The body of the transaction of `redeem`. -/
def redeemFor (config : Config) (uuid companyId : Id) (code : String) : M Subscription := do
  match ← SubscriptionRepository.findNewest fun s =>
      s.companyId = companyId && s.status = .trial with
  | none => throw .trialCodeNotEligible
  | some subscription =>
    match ← select fun db => db.trialCodes.rows.find? (·.code == code) with
    | none => throw .invalidTrialCode
    | some trialCode =>
      if ¬ isCurrentlyRedeemable trialCode (← now) then throw .invalidTrialCode
      else
        insertRedemption ⟨uuid, trialCode.id, companyId, ← now, none⟩
        claim trialCode.id
        let contactQuota ← ofExcept (resolveContactQuotaForPlan trialCode.plan config)
        let time ← now
        SubscriptionRepository.save subscription
          { subscription with
            plan := trialCode.plan
            contactQuota := contactQuota
            endsAt := some (addDays time trialCode.trialDurationDays) }

def redeem (config : Config) (uuid userId : Id) (code : String) : M Subscription := do
  let companyId ← SubscriptionGuardService.resolveCompanyId userId
  transaction (redeemFor config uuid companyId code) throw pure

end TrialCodeRedemptionService

end JobBoard
