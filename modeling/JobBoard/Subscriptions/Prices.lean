import JobBoard.Subscriptions.Tracking

/-!
# What Stripe charges

Stripe charges the price it was told last (`priceOf`): by the Checkout session that has created
the subscription, and then by each `changePlan`. An invoice is computed from the plan of the row.
`InStep` says that the two agree; `InStep.step` and `InStep.planChanged` keep it from a group of
writes to the next one.
-/

set_option autoImplicit false

namespace JobBoard

open Txn Prog StripePaymentProvider SubscriptionCheckoutService

/-! ## Prices -/

namespace StripeCall

/-- The price that the call gives to the subscription, with its currency. -/
def changed (sub : String) : StripeCall → Option (Int × String)
  | changeSubscriptionPlan providerSubscriptionId _ amount currency =>
    if providerSubscriptionId = sub then some (amount, currency) else none
  | _ => none

/-- The price of the subscription that the Checkout session creates. -/
def opened : StripeCall → Option (Int × String)
  | createCheckoutSession _ _ amount currency => some (amount, currency)
  | _ => none

/-- The session is for the company and the plan. -/
def opens (companyId : Id) (plan : SubscriptionPlan) : StripeCall → Bool
  | createCheckoutSession c p _ _ => c = companyId && p = plan
  | _ => false

/-- A session is opened at the price of its plan. -/
def Told (config : Config) : StripeCall → Prop
  | createCheckoutSession _ plan amount currency =>
    amountTTC config plan = .ok amount ∧ currency = config.getCurrency
  | _ => True

end StripeCall

/-- Where a Stripe subscription comes from: the call that has opened its Checkout session, and
the id of the event that reports the completion of it. -/
structure CheckoutSession where
  call : Nat
  completed : String

/-- The price last set at Stripe for the subscription. -/
def priceOf (checkouts : String → CheckoutSession) (calls : List StripeCall) (sub : String) :
    Option (Int × String) :=
  (calls.filterMap (·.changed sub)).getLast?.or (calls[(checkouts sub).call]?.bind (·.opened))

/-- What Stripe charges for the event, once it has received the calls. -/
def charged (checkouts : String → CheckoutSession) (calls : List StripeCall) :
    WebhookEvent → Option (Int × String)
  | .subscriptionActivated _ _ sub _ _ => priceOf checkouts calls sub
  | .subscriptionRenewed _ sub => priceOf checkouts calls sub
  | .subscriptionPlanChanged _ sub amountTTC =>
    (priceOf checkouts calls sub).map fun price => (amountTTC, price.2)
  | _ => none

section

variable {checkouts : String → CheckoutSession} {calls cs : List StripeCall} {c : StripeCall}
  {sub : String} {price : Int × String}

theorem priceOf_append (h : ∀ c ∈ cs, c.changed sub = none)
    (hprice : priceOf checkouts calls sub = some price) :
    priceOf checkouts (calls ++ cs) sub = some price := by
  have hcs : cs.filterMap (·.changed sub) = [] := List.filterMap_eq_nil_iff.2 h
  unfold priceOf at hprice ⊢
  rw [List.filterMap_append, hcs, List.append_nil]
  cases hlast : (calls.filterMap (·.changed sub)).getLast? with
  | some last =>
    rw [hlast] at hprice
    exact hprice
  | none =>
    rw [hlast, Option.none_or] at hprice
    obtain ⟨c, hc, hopened⟩ := Option.bind_eq_some_iff.1 hprice
    have hlt := (List.getElem?_eq_some_iff.1 hc).1
    rw [Option.none_or, List.getElem?_append_left hlt, hc]
    exact hopened

theorem priceOf_changed (h : c.changed sub = some price) :
    priceOf checkouts (calls ++ [c]) sub = some price := by
  simp [priceOf, List.filterMap_append, h]

/-- The price of a new subscription is that of its session. -/
theorem priceOf_opened (h : ∀ c ∈ calls, c.changed sub = none)
    (hc : calls[(checkouts sub).call]? = some c) : priceOf checkouts calls sub = c.opened := by
  simp [priceOf, List.filterMap_eq_nil_iff.2 h, hc]

end

/-! ## The condition -/

/-- The activations that Stripe reports: the event of the session that has created the
subscription, with the company and the plan that it was opened for. -/
def genuine (checkouts : String → CheckoutSession) (d : Db) : Op → Bool
  | .handleWebhook (some event) =>
    match toDomainEvent event with
    | .ok (.subscriptionActivated e _ sub companyId plan) =>
      e = (checkouts sub).completed &&
        (d.stripeCalls[(checkouts sub).call]?).any (·.opens companyId plan)
    | _ => true
  | _ => true

/-- The two plans have one price, or none. -/
def samePrice (config : Config) (p q : SubscriptionPlan) : Bool :=
  (amountTTC config p).toOption = (amountTTC config q).toOption

/-- An admin gives a row that Stripe bills no plan of another price. -/
def keepsPrice (config : Config) (op : Op) (d : Db) : Write → Bool
  | .saveSubscription l e _ =>
    match op with
    | .assignPlan .. => (d.subscription? l.id).all fun row =>
      row.externalSubscriptionId = none || samePrice config row.plan e.plan
    | _ => true
  | _ => true

/-- All calls, with the activations that Stripe reports. -/
def genuineRuns (checkouts : String → CheckoutSession) : Runs Db Write Op :=
  ⟨genuine checkouts, fun _ _ _ => true, false⟩

/-- Those in which admins leave the prices of the billed rows alone. -/
def pricedRuns (config : Config) (checkouts : String → CheckoutSession) : Runs Db Write Op :=
  { genuineRuns checkouts with adm := fun op d ws => ws.all (keepsPrice config op d) }

theorem priced_serializable (config : Config) (checkouts : String → CheckoutSession) :
    Serializable (pricedRuns config checkouts) fun _ => True where
  adm := by
    intro op d d' es hd h
    simp only [pricedRuns, List.all_eq_true] at h ⊢
    intro w hw
    have := h w hw
    cases w <;> first | exact this | simpa only [keepsPrice, hd.subscription?] using this
  inv := fun _ h => h
  step := fun _ _ => trivial

/-! ## In step -/

/-- Stripe charges the price of the plan. -/
def Priced (config : Config) (checkouts : String → CheckoutSession) (calls : List StripeCall)
    (plan : SubscriptionPlan) (sub : String) : Prop :=
  ∃ amount, amountTTC config plan = .ok amount ∧
    priceOf checkouts calls sub = some (amount, config.getCurrency)

/-- A row carries the subscription, or `changePlan` has changed its price. -/
def Db.Knows (d : Db) (sub : String) : Prop :=
  (∃ row ∈ d.subscriptions.rows, row.externalSubscriptionId = some sub) ∨
    ∃ c ∈ d.stripeCalls, c.changed sub ≠ none

/-- The completion of the session of the subscription has been handled. -/
def Db.Completed (checkouts : String → CheckoutSession) (d : Db) (sub : String) : Prop :=
  ∃ m ∈ d.processedWebhookEvents.rows, m.providerEventId = (checkouts sub).completed

/-- The rows have the plans that Stripe charges. -/
structure InStep (config : Config) (checkouts : String → CheckoutSession) (d : Db) : Prop where
  told : ∀ c ∈ d.stripeCalls, c.Told config
  paid : ∀ row ∈ d.subscriptions.rows, ∀ sub, row.externalSubscriptionId = some sub →
    row.status ≠ .trial ∧ Priced config checkouts d.stripeCalls row.plan sub
  unique : ∀ row ∈ d.subscriptions.rows, ∀ row' ∈ d.subscriptions.rows, ∀ sub,
    row.externalSubscriptionId = some sub → row'.externalSubscriptionId = some sub →
    row.id = row'.id
  completed : ∀ sub, d.Knows sub → d.Completed checkouts sub

/-- A row that carried the subscription before, with a plan of the same price. -/
def Keeps (config : Config) (d : Db) (row' : Subscription) (sub : String) : Prop :=
  ∃ row ∈ d.subscriptions.rows, row.id = row'.id ∧ row.externalSubscriptionId = some sub ∧
    (row.status ≠ .trial → row'.status ≠ .trial) ∧ samePrice config row.plan row'.plan = true

/-- A row that is the first to carry the subscription. -/
structure Takes (config : Config) (checkouts : String → CheckoutSession) (d d' : Db)
    (row' : Subscription) (sub : String) : Prop where
  new : ¬ d.Knows sub
  status : row'.status ≠ .trial
  priced : Priced config checkouts d'.stripeCalls row'.plan sub
  completed : d'.Completed checkouts sub

/-- What a group of writes does to rows, calls and markers: it changes no price at Stripe, and
one row at most. -/
structure Steps (config : Config) (checkouts : String → CheckoutSession) (d d' : Db) : Prop where
  markers : ∀ m ∈ d.processedWebhookEvents.rows, m ∈ d'.processedWebhookEvents.rows
  calls : ∃ cs, d'.stripeCalls = d.stripeCalls ++ cs ∧
    ∀ c ∈ cs, c.Told config ∧ ∀ sub, c.changed sub = none
  rows : ∃ id, ∀ row' ∈ d'.subscriptions.rows, row' ∈ d.subscriptions.rows ∨
    row'.id = id ∧ ∀ sub, row'.externalSubscriptionId = some sub →
      Keeps config d row' sub ∨ Takes config checkouts d d' row' sub

section

variable {config : Config} {checkouts : String → CheckoutSession} {d d' : Db} {row' : Subscription}
  {sub : String}

theorem Keeps.of_mem (h : row' ∈ d.subscriptions.rows)
    (hsub : row'.externalSubscriptionId = some sub) : Keeps config d row' sub :=
  ⟨row', h, rfl, hsub, id, by simp [samePrice]⟩

theorem Keeps.knows (h : Keeps config d row' sub) : d.Knows sub := by
  obtain ⟨row, hrow, -, hsub, -⟩ := h
  exact .inl ⟨row, hrow, hsub⟩

theorem Db.Completed.mono (h : d.Completed checkouts sub)
    (hm : ∀ m ∈ d.processedWebhookEvents.rows, m ∈ d'.processedWebhookEvents.rows) :
    d'.Completed checkouts sub := by
  obtain ⟨m, hmem, he⟩ := h
  exact ⟨m, hm m hmem, he⟩

/-- A price that no new call changes is charged for any plan of the same price. -/
theorem Priced.append {calls cs : List StripeCall} {p q : SubscriptionPlan}
    (h : Priced config checkouts calls p sub) (hcs : ∀ c ∈ cs, c.changed sub = none)
    (hsame : samePrice config p q = true) : Priced config checkouts (calls ++ cs) q sub := by
  obtain ⟨amount, hamount, hprice⟩ := h
  refine ⟨amount, ?_, priceOf_append hcs hprice⟩
  simp only [samePrice, decide_eq_true_eq, hamount, Except.toOption] at hsame
  cases hq : amountTTC config q with
  | ok a =>
    rw [hq] at hsame
    cases hsame
    rfl
  | error e =>
    rw [hq] at hsame
    cases hsame

/-- The rows stay in step. -/
theorem InStep.step (h : InStep config checkouts d) (hs : Steps config checkouts d d') :
    InStep config checkouts d' := by
  obtain ⟨hmarkers, ⟨cs, hcalls, hcs⟩, id, hrows⟩ := hs
  have hcase : ∀ row' ∈ d'.subscriptions.rows, ∀ sub, row'.externalSubscriptionId = some sub →
      Keeps config d row' sub ∨ Takes config checkouts d d' row' sub ∧ row'.id = id := by
    intro row' hrow' sub hsub
    rcases hrows row' hrow' with hmem | ⟨hid, hnew⟩
    · exact .inl (.of_mem hmem hsub)
    · exact (hnew sub hsub).imp_right fun ht => ⟨ht, hid⟩
  refine ⟨?_, ?_, ?_, ?_⟩
  · intro c hc
    rw [hcalls] at hc
    exact (List.mem_append.1 hc).elim (h.told c) fun hc => (hcs c hc).1
  · intro row' hrow' sub hsub
    rcases hcase row' hrow' sub hsub with ⟨row, hrow, -, hsub', hst, hsame⟩ | ⟨ht, -⟩
    · obtain ⟨htrial, hpriced⟩ := h.paid row hrow sub hsub'
      rw [hcalls]
      exact ⟨hst htrial, hpriced.append (fun c hc => (hcs c hc).2 sub) hsame⟩
    · exact ⟨ht.status, ht.priced⟩
  · intro row₁ hrow₁ row₂ hrow₂ sub hsub₁ hsub₂
    rcases hcase row₁ hrow₁ sub hsub₁ with hk₁ | ⟨ht₁, hid₁⟩
    · rcases hcase row₂ hrow₂ sub hsub₂ with hk₂ | ⟨ht₂, -⟩
      · obtain ⟨r₁, hr₁, hid₁, hs₁, -⟩ := hk₁
        obtain ⟨r₂, hr₂, hid₂, hs₂, -⟩ := hk₂
        rw [← hid₁, ← hid₂]
        exact h.unique r₁ hr₁ r₂ hr₂ sub hs₁ hs₂
      · exact absurd hk₁.knows ht₂.new
    · rcases hcase row₂ hrow₂ sub hsub₂ with hk₂ | ⟨-, hid₂⟩
      · exact absurd hk₂.knows ht₁.new
      · rw [hid₁, hid₂]
  · rintro sub (⟨row', hrow', hsub⟩ | ⟨c, hc, hchanged⟩)
    · rcases hcase row' hrow' sub hsub with hk | ⟨ht, -⟩
      · exact (h.completed sub hk.knows).mono hmarkers
      · exact ht.completed
    · rw [hcalls] at hc
      rcases List.mem_append.1 hc with hc | hc
      · exact (h.completed sub (.inr ⟨c, hc, hchanged⟩)).mono hmarkers
      · exact absurd ((hcs c hc).2 sub) hchanged

/-- Stripe is told the new price of a subscription, and its row gets the plan. -/
theorem InStep.planChanged (h : InStep config checkouts d) {row : Subscription}
    (hrow : row ∈ d.subscriptions.rows) (hsub : row.externalSubscriptionId = some sub)
    {plan : SubscriptionPlan} {amount : Int} (hamount : amountTTC config plan = .ok amount)
    (hmarkers : d'.processedWebhookEvents = d.processedWebhookEvents)
    (hcalls : d'.stripeCalls =
      d.stripeCalls ++ [.changeSubscriptionPlan sub plan amount config.getCurrency])
    (hrows : ∀ row' ∈ d'.subscriptions.rows, row'.id ≠ row.id ∧ row' ∈ d.subscriptions.rows ∨
      row'.id = row.id ∧ row'.externalSubscriptionId = some sub ∧ row'.status ≠ .trial ∧
        row'.plan = plan) : InStep config checkouts d' := by
  have hbefore : ∀ row' ∈ d'.subscriptions.rows, ∀ sub', row'.externalSubscriptionId = some sub' →
      ∃ r ∈ d.subscriptions.rows, r.id = row'.id ∧ r.externalSubscriptionId = some sub' := by
    intro row' hrow' sub' hsub'
    rcases hrows row' hrow' with ⟨-, hmem⟩ | ⟨hid, hext, -⟩
    · exact ⟨row', hmem, rfl, hsub'⟩
    · rw [hext] at hsub'
      cases hsub'
      exact ⟨row, hrow, hid.symm, hsub⟩
  refine ⟨?_, ?_, ?_, ?_⟩
  · intro c hc
    rw [hcalls] at hc
    rcases List.mem_append.1 hc with hc | hc
    · exact h.told c hc
    · rw [List.mem_singleton] at hc
      subst hc
      trivial
  · intro row' hrow' sub' hsub'
    rw [hcalls]
    rcases hrows row' hrow' with ⟨hid, hmem⟩ | ⟨hid, hext, hst, hplan⟩
    · -- another row is paid by another subscription
      have hne : sub ≠ sub' := by
        rintro rfl
        exact hid (h.unique row' hmem row hrow sub hsub' hsub)
      obtain ⟨htrial, hpriced⟩ := h.paid row' hmem sub' hsub'
      refine ⟨htrial, hpriced.append (fun c hc => ?_) (by simp [samePrice])⟩
      rw [List.mem_singleton] at hc
      subst hc
      exact if_neg hne
    · rw [hext] at hsub'
      cases hsub'
      rw [hplan]
      exact ⟨hst, amount, hamount, priceOf_changed (if_pos rfl)⟩
  · intro row₁ hrow₁ row₂ hrow₂ sub' hsub₁ hsub₂
    obtain ⟨r₁, hr₁, hid₁, hs₁⟩ := hbefore row₁ hrow₁ sub' hsub₁
    obtain ⟨r₂, hr₂, hid₂, hs₂⟩ := hbefore row₂ hrow₂ sub' hsub₂
    rw [← hid₁, ← hid₂]
    exact h.unique r₁ hr₁ r₂ hr₂ sub' hs₁ hs₂
  · intro sub' hknows
    unfold Db.Completed
    rw [hmarkers]
    refine h.completed sub' ?_
    rcases hknows with ⟨row', hrow', hsub'⟩ | ⟨c, hc, hchanged⟩
    · obtain ⟨r, hr, -, hs⟩ := hbefore row' hrow' sub' hsub'
      exact .inl ⟨r, hr, hs⟩
    · rw [hcalls] at hc
      rcases List.mem_append.1 hc with hc | hc
      · exact .inr ⟨c, hc, hchanged⟩
      · rw [List.mem_singleton] at hc
        subst hc
        have hsame : sub = sub' := by
          by_contra hne
          exact hchanged (if_neg hne)
        exact .inl ⟨row, hrow, hsame ▸ hsub⟩

end

/-! ## Groups of writes -/

/-- What a write tells Stripe. -/
def Write.stripeCall : Write → Option StripeCall
  | .callStripe c => some c
  | _ => none

/-- The write changes no price at Stripe, and tells it those of the configuration. -/
def Write.Told (config : Config) : Write → Prop
  | .callStripe c => c.Told config ∧ ∀ sub, c.changed sub = none
  | _ => True

def Op.changesPlan : Op → Bool
  | .changePlan .. => true
  | _ => false

theorem stripeCalls_applyAll (d : Db) (ws : List Write) :
    (store.applyAll d ws).stripeCalls = d.stripeCalls ++ ws.filterMap (·.stripeCall) := by
  induction ws generalizing d with
  | nil => exact (List.append_nil _).symm
  | cons w ws ih =>
    rw [Store.applyAll_cons, ih]
    cases w <;> first | rfl | exact List.append_assoc _ _ _

theorem markers_applyAll (d : Db) (ws : List Write) {m : ProcessedWebhookEvent}
    (h : m ∈ d.processedWebhookEvents.rows) :
    m ∈ (store.applyAll d ws).processedWebhookEvents.rows := by
  induction ws generalizing d with
  | nil => exact h
  | cons w ws ih =>
    refine ih _ ?_
    cases w <;> first | exact h | exact Table.mem_insert_of_mem h

section

variable {config : Config} {checkouts : String → CheckoutSession} {op : Op} {d : Db}
  {ws : List Write} {row e row' : Subscription} {sub : String}

/-- A `save` keeps the subscription of the row and the price of its plan, unless it is that of
an activation. -/
theorem Saves.keeps (h : Saves op row e) (hop : op.changesPlan = false)
    (hadm : keepsPrice config op d (.saveSubscription row e row) = true)
    (hrow : d.subscription? row.id = some row)
    (hpaid : ∀ sub, row.externalSubscriptionId = some sub → row.status ≠ .trial)
    (hsub : e.externalSubscriptionId = some sub) :
    (row.externalSubscriptionId = some sub ∧ (row.status ≠ .trial → e.status ≠ .trial) ∧
      samePrice config row.plan e.plan = true) ∨
    ∃ delivery event session companyId, op = .handleWebhook delivery ∧
      verifyAndParseWebhook delivery =
        .ok (.subscriptionActivated event session sub companyId e.plan) ∧ e.status = .active := by
  have hsame : ∀ plan, samePrice config plan plan = true := fun plan => by simp [samePrice]
  cases op <;> simp only [Saves] at h
  case handleWebhook delivery =>
    obtain ⟨ev, hev, h⟩ := h
    cases ev <;> simp only [EventSaves] at h
    case subscriptionActivated event session sub' companyId plan =>
      obtain ⟨-, -, _, _, rfl⟩ := h
      obtain rfl : sub' = sub := Option.some.inj hsub
      exact .inr ⟨delivery, event, session, companyId, rfl, hev, rfl⟩
    case subscriptionRenewed =>
      obtain ⟨-, -, _, rfl⟩ := h
      exact .inl ⟨hsub, fun _ => by simp [PaymentWebhookService.renewed], hsame _⟩
    case paymentFailed =>
      obtain ⟨-, -, rfl⟩ := h
      exact .inl ⟨hsub, fun _ => by simp, hsame _⟩
    case subscriptionPastDue =>
      obtain ⟨-, -, _, rfl⟩ := h
      exact .inl ⟨hsub, fun _ => by simp, hsame _⟩
    case subscriptionCancelled =>
      obtain ⟨-, -, rfl⟩ := h
      exact .inl ⟨hsub, fun _ => by simp, hsame _⟩
  case cancelSubscription =>
    obtain ⟨-, rfl⟩ := h
    exact .inl ⟨hsub, id, hsame _⟩
  case changePlan => cases hop
  case redeem =>
    -- a row that is paid is no trial
    obtain ⟨htrial, _, _, _, rfl⟩ := h
    exact absurd htrial (hpaid sub hsub)
  case adminCancel =>
    obtain ⟨-, _, rfl⟩ := h
    exact .inl ⟨hsub, fun _ => by simp, hsame _⟩
  case adminSuspend =>
    obtain ⟨-, -, rfl⟩ := h
    exact .inl ⟨hsub, fun _ => by simp, hsame _⟩
  case adminReactivate =>
    obtain ⟨-, -, rfl⟩ := h
    exact .inl ⟨hsub, fun _ => by simp, hsame _⟩
  case assignPlan =>
    obtain ⟨-, -, _, rfl⟩ := h
    change row.externalSubscriptionId = some sub at hsub
    refine .inl ⟨hsub, fun _ => by simp, ?_⟩
    simpa [keepsPrice, hrow, hsub] using hadm

/-- A group of writes keeps the rows in step, when what it activates is new to the database and
has the price of its plan. -/
theorem InStep.group (h : InStep config checkouts d)
    (hg : Single store Write.Quiet (SerialEffect (pricedRuns config checkouts) op) d ws)
    (hop : op.changesPlan = false) (htold : ∀ w ∈ ws, w.Told config)
    (hact : ∀ delivery event session sub companyId plan, op = .handleWebhook delivery →
      verifyAndParseWebhook delivery =
        .ok (.subscriptionActivated event session sub companyId plan) →
      ¬ d.Knows sub ∧ Priced config checkouts (store.applyAll d ws).stripeCalls plan sub ∧
        (store.applyAll d ws).Completed checkouts sub) :
    InStep config checkouts (store.applyAll d ws) := by
  refine h.step ⟨fun m hm => markers_applyAll d ws hm, ⟨_, stripeCalls_applyAll d ws, ?_⟩, ?_⟩
  · intro c hc
    obtain ⟨w, hw, hcall⟩ := List.mem_filterMap.1 hc
    have ht := htold w hw
    cases w <;> cases hcall
    exact ht
  · have hser := priced_serializable config checkouts
    obtain ⟨k, hother⟩ := serial_other hg hser
    refine ⟨k, fun row' hrow' => ?_⟩
    have hget : (store.applyAll d ws).subscription? row'.id = some row' := Table.get?_of_mem hrow'
    by_cases hid : row'.id = k
    · refine .inr ⟨hid, fun sub hsub => ?_⟩
      cases hbefore : d.subscription? row'.id with
      | none =>
        obtain ⟨-, -, -, hins⟩ := serial_new hg hser hbefore hget
        cases op <;> simp only [Inserts] at hins
        case handleWebhook delivery =>
          obtain ⟨event, session, sub', companyId, plan, hev, -, hst, -, hext, rfl, -⟩ := hins
          rw [hext] at hsub
          cases hsub
          obtain ⟨hnew, hpriced, hdone⟩ := hact delivery event session sub companyId _ rfl hev
          exact .inr ⟨hnew, by simp [hst], hpriced, hdone⟩
        case createCompany =>
          rw [hins.2.2.1] at hsub
          cases hsub
        case assignPlan =>
          rw [hins.2.2.2.1] at hsub
          cases hsub
      | some row =>
        have hmem : row ∈ d.subscriptions.rows := Table.mem_of_get? hbefore
        have hkey : row.id = row'.id := Table.key_of_get? hbefore
        obtain ⟨r, hr, hstep⟩ := serial_row hg hser hbefore
        rw [hget] at hr
        cases hr
        cases hstep with
        | same => exact .inl (.of_mem hmem hsub)
        | consume => exact .inl ⟨row, hmem, rfl, hsub, id, by simp [samePrice]⟩
        | save hs hw hadm =>
          have hadm : keepsPrice config op d (.saveSubscription row row' row) = true := by
            simpa [pricedRuns] using hadm
          rcases hs.keeps hop hadm (by rw [hkey]; exact hbefore)
            (fun sub hsub => (h.paid row hmem sub hsub).1) hsub with
            hk | ⟨delivery, event, session, companyId, rfl, hev, hst⟩
          · exact .inl ⟨row, hmem, hkey, hk⟩
          · obtain ⟨hnew, hpriced, hdone⟩ := hact delivery event session sub companyId _ rfl hev
            exact .inr ⟨hnew, by simp [hst], hpriced, hdone⟩
    · rw [hother _ hid] at hget
      exact .inl (Table.mem_of_get? hget)

end

end JobBoard
