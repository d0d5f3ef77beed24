import JobBoard.Model.Statements
import JobBoard.Model.Pricing

/-!
# Subscription status and access

`subscription-lifecycle.ts` and `subscription-access.ts`: the transitions a
status may take, and whether a row grants access at a time.
-/

set_option autoImplicit false

namespace JobBoard

open Txn Prog SubscriptionStatus

def SUBSCRIPTION_STATUS_TRANSITIONS : SubscriptionStatus → List SubscriptionStatus
  | trial => [active, expired, cancelled, suspended]
  | active => [pastDue, cancelled, suspended]
  | pastDue => [active, cancelled, suspended]
  | suspended => [active, cancelled, expired]
  | cancelled => []
  | expired => []

def assertValidSubscriptionTransition (source target : SubscriptionStatus) : Except Error Unit :=
  if target ∈ SUBSCRIPTION_STATUS_TRANSITIONS source then .ok ()
  else .error (.invalidSubscriptionTransition source target)

/-- `isSubscriptionWithinAccess`. -/
def isSubscriptionWithinAccess (subscription : Subscription) (gracePeriodDays : Int)
    (now : Time) : Bool :=
  match subscription.status with
  | active => true
  | trial =>
    match subscription.endsAt with
    | none => true
    | some endsAt => endsAt > now
  | pastDue =>
    match subscription.pastDueSince with
    | none => true
    | some since => addDays since gracePeriodDays > now
  | _ => false

/-- `LIVE_STATUSES` of subscription-admin.service.ts. -/
def LIVE_STATUSES : List SubscriptionStatus := [trial, active, pastDue, suspended]

end JobBoard
