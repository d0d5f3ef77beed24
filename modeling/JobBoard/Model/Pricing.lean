import JobBoard.Model.Entities

/-!
# Plans, prices and VAT

`plan-quota.ts` and `tax.ts`: what a plan allows and costs, from the
configuration, and the VAT on it. `Math.round` of a quotient of integers is
`mathRound`, half up.
-/

set_option autoImplicit false

namespace JobBoard

/-- The configuration the billing services read. -/
structure Config where
  /-- `business.plans.<plan>.contacts` and `.price` (whole MAD before tax). -/
  contacts : SubscriptionPlan → Option Int
  price : SubscriptionPlan → Option Int
  currency : Option String
  subscriptionGracePeriodDays : Option Int
  issuerName : String
  issuerIce : String
  issuerAddress : String

namespace Config

/-- The defaults of business.config.ts. -/
def default : Config where
  contacts
    | .starter => some 15
    | .growth => some 60
    | .scale => some 200
    | .enterprise => none
  price
    | .starter => some 990
    | .growth => some 2900
    | .scale => some 6900
    | .enterprise => none
  currency := some "MAD"
  subscriptionGracePeriodDays := some 7
  issuerName := ""
  issuerIce := ""
  issuerAddress := ""

def getCurrency (c : Config) : String := c.currency.getD "MAD"

def gracePeriodDays (c : Config) : Int := c.subscriptionGracePeriodDays.getD 7

end Config

def resolveContactQuotaForPlan (plan : SubscriptionPlan) (config : Config) : Except Error Int :=
  if plan = .enterprise then .error .enterpriseQuotaNotAutomated
  else
    match config.contacts plan with
    | none => .error (.internalServerError
        ("No contact quota configured for plan " ++ plan.toString))
    | some quota => .ok quota

def resolveMonthlyPriceHtInCentimes (plan : SubscriptionPlan) (config : Config) :
    Except Error Int :=
  if plan = .enterprise then .error .enterpriseQuotaNotAutomated
  else
    match config.price plan with
    | none => .error (.internalServerError ("No price configured for plan " ++ plan.toString))
    | some price => .ok (price * 100)

def VAT_RATE_PERCENT : Int := 20

structure VatBreakdown where
  amountHT : Int
  vatAmount : Int
  amountTTC : Int
  deriving DecidableEq, Repr

/-- `Math.round(n / d)` for `0 < d`. -/
def mathRound (n d : Int) : Int := (2 * n + d) / (2 * d)

def computeVat (amountHT : Int) : VatBreakdown :=
  let vatAmount := mathRound (amountHT * VAT_RATE_PERCENT) 100
  ⟨amountHT, vatAmount, amountHT + vatAmount⟩

def computeVatFromTtc (amountTTC : Int) : VatBreakdown :=
  let amountHT := mathRound (amountTTC * 100) (100 + VAT_RATE_PERCENT)
  ⟨amountHT, amountTTC - amountHT, amountTTC⟩

example : computeVat 99000 = ⟨99000, 19800, 118800⟩ := by decide

end JobBoard
