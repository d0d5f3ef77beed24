import Mathlib.Data.List.Pairwise
import JobBoard.Billing.Deliveries
import JobBoard.Lib.Publish

/-!
# The audit trail of payments

`AuditService.log` writes on a connection of its own, so that a PAYMENT_RECEIVED
entry stays when the transaction it stands in fails, and the redelivery of the
event writes another one. A delivery of an activation, a renewal or a plan change
writes at most one entry, carrying the id of its event, and has written one if
it commits (`Trail`). Hence the trail of an event is exact if and only if every
delivery that has written its entry has committed (`audit_trail_exact`).
-/

set_option autoImplicit false

namespace JobBoard

open Txn Prog PaymentWebhookService

/-- The entry is a received payment of the event `e`. -/
def AuditLog.isPaymentOf (a : AuditLog) (e : String) : Bool :=
  a.action = .paymentReceived && a.metadata.contains ("providerEventId", .str e)

/-- The PAYMENT_RECEIVED entries of an event. -/
def Db.paymentEntries (d : Db) (e : String) : Nat := d.auditLogs.countP (·.isPaymentOf e)

/-- The events that bring a payment: activations, renewals and plan changes. -/
def WebhookEvent.isPayment : WebhookEvent → Bool
  | subscriptionActivated .. | subscriptionRenewed .. | subscriptionPlanChanged .. => true
  | _ => false

/-- The PAYMENT_RECEIVED entry that a write inserts. -/
def Write.payment : Write → Option AuditLog
  | .insertAuditLog a => if a.action = .paymentReceived then some a else none
  | _ => none

/-- The PAYMENT_RECEIVED entries among published groups. -/
def payments (gs : List (Bool × List Write)) : List AuditLog :=
  (gs.flatMap (·.2)).filterMap Write.payment

@[simp] theorem payments_nil : payments [] = [] := rfl

@[simp] theorem payments_append (gs hs : List (Bool × List Write)) :
    payments (gs ++ hs) = payments gs ++ payments hs := by
  simp [payments]

/-! ## One delivery -/

/-- What a delivery of `event` has published. -/
structure Trail (event : WebhookEvent) (gs : List (Bool × List Write)) : Prop where
  once : (payments gs).length ≤ 1
  own : ∀ a ∈ payments gs, event.isPayment = true ∧
    ∀ e, a.isPaymentOf e = true ↔ e = event.providerEventId
  commit : (∃ g ∈ gs, g.1 = true) → event.isPayment = true → payments gs ≠ []

/-- The entries that the effect of `event` has written by its end. -/
def Written (event : WebhookEvent) (as : List AuditLog) : Prop :=
  if event.isPayment then
    ∃ a, as = [a] ∧ ∀ e, a.isPaymentOf e = true ↔ e = event.providerEventId
  else as = []

/-- The writes insert no PAYMENT_RECEIVED entry. -/
def Quiet (ws : List Write) : Prop := ws.filterMap Write.payment = []

/-- Nothing is committed, and the entries published are `as`. -/
def Uncommitted (as : List AuditLog) (gs : List (Bool × List Write)) : Prop :=
  payments gs = as ∧ ∀ g ∈ gs, g.1 = false

section

variable {event : WebhookEvent} {gs : List (Bool × List Write)} {as : List AuditLog}
  {ws : List Write}

theorem payments_quiet {b : Bool} (h : Quiet ws) : payments [(b, ws)] = [] := by
  unfold Quiet at h
  rw [payments, List.flatMap_singleton, h]

theorem Uncommitted.quiet (h : Uncommitted as gs) (hq : Quiet ws) :
    Uncommitted as (gs ++ [(false, ws)]) := by
  refine ⟨by rw [payments_append, h.1, payments_quiet hq, List.append_nil], fun g hg => ?_⟩
  rw [List.mem_append, List.mem_singleton] at hg
  rcases hg with hg | rfl
  · exact h.2 g hg
  · rfl

theorem Uncommitted.trail (h : Uncommitted as gs) (has : as = [] ∨ Written event as) :
    Trail event gs := by
  have hcommit : ¬∃ g ∈ gs, g.1 = true := fun ⟨g, hg, hb⟩ => by
    rw [h.2 g hg] at hb
    cases hb
  have hnone : as = [] → Trail event gs := fun he =>
    ⟨by simp [h.1, he], by simp [h.1, he], fun hc => absurd hc hcommit⟩
  rcases has with he | hw
  · exact hnone he
  · unfold Written at hw
    split at hw
    · next hp =>
      obtain ⟨a, ha, hown⟩ := hw
      refine ⟨by simp [h.1, ha], fun b hb => ?_, fun hc => absurd hc hcommit⟩
      rw [h.1, ha, List.mem_singleton] at hb
      subst hb
      exact ⟨hp, hown⟩
    · exact hnone hw

/-- A commit after the effect leaves the trail as it is. -/
theorem Uncommitted.commit_trail (h : Uncommitted as gs) (has : Written event as) (hq : Quiet ws) :
    Trail event (gs ++ [(true, ws)]) := by
  have ht := h.trail (.inr has)
  have hp : payments (gs ++ [(true, ws)]) = payments gs := by
    rw [payments_append, payments_quiet hq, List.append_nil]
  refine ⟨by rw [hp]; exact ht.once, by rw [hp]; exact ht.own, fun _ hpay => ?_⟩
  rw [hp, h.1]
  unfold Written at has
  rw [if_pos hpay] at has
  obtain ⟨a, rfl, -⟩ := has
  simp

end

/-! ## The effect of an event -/

/-- The handler of a delivery, as far as its entries are concerned. -/
abbrev AnyHandler : Error → List (Bool × List Write) → Prop := fun _ _ => True

abbrev EffectPost (α : Type) := Pending Write Error → List (Bool × List Write) → α → Prop

section

variable {fault : Error → Prop} {event : WebhookEvent} {as : List AuditLog} {α : Type}
  {ps : List Write} {gs : List (Bool × List Write)}

/-- The post condition is met with the entries `as` published. -/
def EffectPost.Accepts (Q : EffectPost α) (as : List AuditLog) : Prop :=
  ∀ ps gs a, Quiet ps → Uncommitted as gs → Q (some (ps, AnyHandler)) gs a

/-- A piece of the effect that writes no PAYMENT_RECEIVED entry. -/
theorem quiet_publishes {p : M α} (hp : p.Plain Quiet Quiet fun _ => True)
    (has : as = [] ∨ Written event as) (hps : Quiet ps) (hgs : Uncommitted as gs)
    {Q : EffectPost α} (hQ : Q.Accepts as) :
    p.publishes fault (Trail event) Q (some (ps, AnyHandler)) gs :=
  hp.publishes (fun _ _ h hw _ => h.quiet hw) (fun _ h => h.trail has) (fun _ _ _ => trivial)
    (fun _ _ h h' => by unfold Quiet at *; rw [List.filterMap_append, h, h']; rfl) hQ hps hgs

theorem quiet_then {β : Type} {p : M α} {f : α → M β} (hp : p.Plain Quiet Quiet fun _ => True)
    (has : as = [] ∨ Written event as) (hps : Quiet ps) (hgs : Uncommitted as gs)
    {Q : EffectPost β} (hf : ∀ ps gs a, Quiet ps → Uncommitted as gs →
      (f a).publishes fault (Trail event) Q (some (ps, AnyHandler)) gs) :
    (p >>= f).publishes fault (Trail event) Q (some (ps, AnyHandler)) gs := by
  rw [publishes_bind]
  exact quiet_publishes hp has hps hgs hf

/-- The entry of a payment. -/
theorem log_then {β : Type} {a : AuditLog} {f : Unit → M β} (ha : Written event [a])
    (haction : a.action = .paymentReceived) (hgs : Uncommitted [] gs)
    {Q : EffectPost β} (hf : ∀ gs, Uncommitted [a] gs →
      (f ()).publishes fault (Trail event) Q (some (ps, AnyHandler)) gs) :
    (AuditService.log a >>= f).publishes fault (Trail event) Q (some (ps, AnyHandler)) gs := by
  have hnew : Uncommitted [a] (gs ++ [(false, [.insertAuditLog a])]) := by
    refine ⟨?_, fun g hg => ?_⟩
    · rw [payments_append, hgs.1]
      simp [payments, Write.payment, haction]
    · rw [List.mem_append, List.mem_singleton] at hg
      rcases hg with hg | rfl
      · exact hgs.2 g hg
      · rfl
  rw [publishes_bind]
  exact outside_publishes (by simp) (fun _ _ => trivial) (hnew.trail (.inr ha)) (hf _ hnew)

theorem quietNotes : Notes Quiet Quiet fun _ => True where
  nil := rfl
  invoicing := fun w hw => by cases w <;> first | rfl | exact hw.elim
  upload := fun _ => rfl
  note := fun a ha => by simp [Quiet, Write.payment, ha]
  err := fun _ _ _ => trivial

theorem quietSubscription (w : Write) (hw : w.OfSubscription) : Quiet [w] := by
  cases w <;> first | rfl | exact hw.elim

variable {config : Config} {uuid : Id} {Q : EffectPost Unit}

/-- What follows the entry of a payment. -/
theorem emission_publishes {company : M Company} (hcompany : company.Plain Quiet Quiet fun _ => True)
    {params : Company → EmitParams} (has : Written event as) (hQ : Q.Accepts as) (hps : Quiet ps)
    (hgs : Uncommitted as gs) :
    (company >>= fun c => InvoiceEmissionService.emit config uuid (params c) >>= fun _ =>
      return ()).publishes fault (Trail event) Q (some (ps, AnyHandler)) gs :=
  quiet_then hcompany (.inr has) hps hgs fun _ _ _ hps hgs =>
    quiet_publishes ((quietNotes.emit_plain _ _ _).bind fun _ => plain_ret _) (.inr has) hps hgs hQ

theorem activateSubscription_publishes {e session sub : String} {companyId : Id}
    {plan : SubscriptionPlan}
    (hQ : ∀ as, Written (.subscriptionActivated e session sub companyId plan) as → Q.Accepts as)
    (hps : Quiet ps) (hgs : Uncommitted [] gs) :
    (activateSubscription config uuid e sub companyId plan).publishes fault
      (Trail (.subscriptionActivated e session sub companyId plan)) Q (some (ps, AnyHandler)) gs := by
  unfold activateSubscription
  refine quiet_then (quietNotes.ofQuota_plain _ _) (.inl rfl) hps hgs fun _ _ quota hps hgs =>
    quiet_then (plain_select quietNotes.nil _) (.inl rfl) hps hgs fun _ _ eligible hps hgs =>
    quiet_then quietNotes.now_plain (.inl rfl) hps hgs fun _ _ time hps hgs => ?_
  have rest : ∀ (s : Subscription) ps gs, Quiet ps → Uncommitted [] gs → (do
      AuditService.log ⟨none, .paymentReceived, "subscription", s.id,
        [("companyId", .id companyId), ("plan", .plan plan), ("contactQuota", .num quota),
          ("providerEventId", .str e)]⟩
      markConvertedIfApplicable companyId
      let company ← findCompanyOrFail companyId
      let _ ← InvoiceEmissionService.emit config uuid ⟨s, company, e, none⟩
      return () : M Unit).publishes fault
        (Trail (.subscriptionActivated e session sub companyId plan)) Q (some (ps, AnyHandler)) gs := by
    intro s ps gs hps hgs
    have hw : Written (.subscriptionActivated e session sub companyId plan)
        [⟨none, .paymentReceived, "subscription", s.id, [("companyId", .id companyId),
          ("plan", .plan plan), ("contactQuota", .num quota), ("providerEventId", .str e)]⟩] :=
      ⟨_, rfl, by simp [AuditLog.isPaymentOf, WebhookEvent.providerEventId]⟩
    exact log_then hw rfl hgs fun _ hgs =>
      quiet_then (quietNotes.markConverted_plain _) (.inr hw) hps hgs fun _ _ _ hps hgs =>
      emission_publishes (quietNotes.findCompanyOrFail_plain _) hw (hQ _ hw) hps hgs
  split
  · exact quiet_then (quietNotes.assertTransition_plain _ _) (.inl rfl) hps hgs fun _ _ _ hps hgs =>
      quiet_then (quietNotes.save_plain quietSubscription (fun _ _ => trivial) _ _) (.inl rfl) hps hgs
        fun ps gs s hps hgs => rest s ps gs hps hgs
  · exact quiet_then (quietNotes.insert_plain quietSubscription (fun _ _ => trivial) _) (.inl rfl) hps
      hgs fun ps gs s hps hgs => rest s ps gs hps hgs

theorem renewSubscription_publishes {e sub : String}
    (hQ : ∀ as, Written (.subscriptionRenewed e sub) as → Q.Accepts as)
    (hps : Quiet ps) (hgs : Uncommitted [] gs) :
    (renewSubscription config uuid e sub).publishes fault (Trail (.subscriptionRenewed e sub)) Q
      (some (ps, AnyHandler)) gs := by
  unfold renewSubscription
  refine quiet_then (plain_select quietNotes.nil _) (.inl rfl) hps hgs fun _ _ found hps hgs => ?_
  split
  · trivial
  · next s =>
    have hassert : (ofExcept (if s.status = .pastDue then
        assertValidSubscriptionTransition s.status .active else .ok ()) : M Unit).Plain Quiet Quiet
          fun _ => True := by
      split
      · exact quietNotes.assertTransition_plain _ _
      · trivial
    refine quiet_then (by simpa only [decide_eq_true_eq] using hassert) (.inl rfl) hps hgs
      fun _ _ _ hps hgs => quiet_then quietNotes.now_plain (.inl rfl) hps hgs fun _ _ time hps hgs =>
      quiet_then (quietNotes.save_plain quietSubscription (fun _ _ => trivial) _ _) (.inl rfl) hps hgs
      fun _ _ saved hps hgs => ?_
    have hw : Written (.subscriptionRenewed e sub)
        [⟨none, .paymentReceived, "subscription", saved.id, [("companyId", .id saved.companyId),
          ("renewal", .bool true), ("resumedFromPastDue", .bool (s.status = .pastDue)),
          ("newPeriodEnd", .date saved.endsAt), ("providerEventId", .str e)]⟩] :=
      ⟨_, rfl, by simp [AuditLog.isPaymentOf, WebhookEvent.providerEventId]⟩
    refine log_then hw rfl hgs fun _ hgs => quiet_then ?_ (.inr hw) hps hgs fun _ _ _ hps hgs =>
      emission_publishes (quietNotes.findCompanyOrFail_plain _) hw (hQ _ hw) hps hgs
    split
    · exact quietNotes.sendToRecruiters_plain _
    · exact plain_ret _

theorem handlePlanChangeInvoice_publishes {e sub : String} {amountTTC : Int}
    (hQ : ∀ as, Written (.subscriptionPlanChanged e sub amountTTC) as → Q.Accepts as)
    (hps : Quiet ps) (hgs : Uncommitted [] gs) :
    (handlePlanChangeInvoice config uuid e sub amountTTC).publishes fault
      (Trail (.subscriptionPlanChanged e sub amountTTC)) Q (some (ps, AnyHandler)) gs := by
  unfold handlePlanChangeInvoice
  refine quiet_then (plain_select quietNotes.nil _) (.inl rfl) hps hgs fun _ _ found hps hgs => ?_
  split
  · trivial
  · next s =>
    have hw : Written (.subscriptionPlanChanged e sub amountTTC)
        [⟨none, .paymentReceived, "subscription", s.id, [("companyId", .id s.companyId),
          ("proration", .bool true), ("amountTTC", .num amountTTC), ("providerEventId", .str e)]⟩] :=
      ⟨_, rfl, by simp [AuditLog.isPaymentOf, WebhookEvent.providerEventId]⟩
    refine quiet_then (quietNotes.findCompanyOrFail_plain _) (.inl rfl) hps hgs fun _ _ _ hps hgs =>
      quiet_then (quietNotes.emit_plain _ _ _) (.inl rfl) hps hgs fun _ _ _ hps hgs => ?_
    exact log_then hw rfl hgs fun _ hgs => hQ _ hw _ _ () hps hgs

/-- What the effect of an event publishes. -/
theorem applyEffect_publishes (hQ : ∀ as, Written event as → Q.Accepts as) (hps : Quiet ps)
    (hgs : Uncommitted [] gs) :
    (applyEffect config uuid event).publishes fault (Trail event) Q (some (ps, AnyHandler)) gs := by
  have hsub := quietSubscription
  have herr : ∀ e : Error, e.isMarkerViolation = false → True := fun _ _ => trivial
  cases event with
  | subscriptionActivated => exact activateSubscription_publishes hQ hps hgs
  | subscriptionRenewed => exact renewSubscription_publishes hQ hps hgs
  | subscriptionPlanChanged => exact handlePlanChangeInvoice_publishes hQ hps hgs
  | paymentFailed =>
    exact quiet_publishes (quietNotes.markPastDue_plain hsub herr _ _ _) (.inl rfl) hps hgs (hQ _ rfl)
  | subscriptionPastDue =>
    exact quiet_publishes (quietNotes.markSubscriptionPastDue_plain hsub herr _ _) (.inl rfl) hps hgs
      (hQ _ rfl)
  | subscriptionCancelled =>
    exact quiet_publishes (quietNotes.cancelSubscription_plain hsub herr _ _ _) (.inl rfl) hps hgs
      (hQ _ rfl)
  | ignored => exact quiet_publishes (plain_ret ()) (.inl rfl) hps hgs (hQ _ rfl)

end

/-! ## Runs -/

theorem trail_nil (event : WebhookEvent) : Trail event [] :=
  ⟨by simp, by simp, by simp⟩

/-- What a call has published of payments. -/
def CallTrail (op : Op) (gs : List (Bool × List Write)) : Prop :=
  match op with
  | .handleWebhook delivery =>
    match StripePaymentProvider.verifyAndParseWebhook delivery with
    | .ok event => Trail event gs
    | .error _ => payments gs = []
  | _ => payments gs = []

theorem callTrail_ok {delivery : Option StripeEvent} {event : WebhookEvent}
    (hev : StripePaymentProvider.verifyAndParseWebhook delivery = .ok event) :
    CallTrail (.handleWebhook delivery) = Trail event := by
  funext gs
  simp only [CallTrail, hev]

theorem deliveryTrail_program (config : Config) (i : Nat) (op : Op) (hop : op.isDeliveryOrClock = true) :
    (program config i op).publishes (fun e => isFault e = true) (CallTrail op) (fun _ _ _ => True)
      none [] := by
  cases op with
  | clock ms => exact fun _ => ⟨rfl, trivial⟩
  | handleWebhook delivery =>
    show (handleWebhook config i delivery >>= _).publishes _ _ _ _ _
    rw [publishes_bind]
    unfold handleWebhook
    cases hev : StripePaymentProvider.verifyAndParseWebhook delivery with
    | error e => trivial
    | ok event =>
      rw [callTrail_ok hev]
      refine ⟨rfl, ?_⟩
      have hopen : (fun e gs => (onError e).publishes (fun e => isFault e = true) (Trail event)
          (fun tx gs a => (pure (Result.alreadyProcessed a) : M Result).publishes
            (fun e => isFault e = true) (Trail event) (fun _ _ _ => True) tx gs) none gs) =
          AnyHandler := by
        funext e gs
        unfold onError
        split <;> exact eq_true trivial
      have hmarker : (insertMarker (marker i event)).Plain Quiet Quiet fun _ => True :=
        plain_insertUnique rfl rfl fun _ _ _ => trivial
      rw [hopen, publishes_bind, publishes_bind]
      have hnone : Uncommitted [] [] := ⟨payments_nil, by simp⟩
      refine quiet_publishes hmarker (.inl rfl) (List.filterMap_nil) hnone fun ps gs _ hps hgs => ?_
      refine applyEffect_publishes (fun as has ps gs _ hps hgs => ?_) hps hgs
      exact ⟨fun _ _ => trivial, hgs.commit_trail has hps, trivial⟩
  | _ => cases hop

/-- The event that call `i` delivers. -/
def deliveredEvent (s : RunState) (i : Nat) : Option WebhookEvent :=
  match s.ops[i]? with
  | some (.handleWebhook delivery) =>
    (StripePaymentProvider.verifyAndParseWebhook delivery).toOption
  | _ => none

/-- Call `i` has written a PAYMENT_RECEIVED entry of the event `e`. -/
def WroteEntry (s : RunState) (e : String) (i : Nat) : Prop :=
  ∃ a ∈ payments (publishedBy i s.log), a.isPaymentOf e = true

def CommittedBy (s : RunState) (i : Nat) : Prop := ∃ g ∈ s.log, g.call = i ∧ g.viaTx = true

/-- The effect of a payment with the event id `e` has committed. -/
def PaymentCommitted (s : RunState) (e : String) : Prop :=
  ∃ i event, deliveredEvent s i = some event ∧ event.isPayment = true ∧
    event.providerEventId = e ∧ CommittedBy s i

/-- The audit trail matches the committed effects: one entry of a payment whose
effect has committed, none before. -/
structure TrailExact (s : RunState) (e : String) : Prop where
  committed : PaymentCommitted s e → s.db.paymentEntries e = 1
  uncommitted : ¬PaymentCommitted s e → s.db.paymentEntries e = 0

/-- The entries of the event among the writes. -/
def entriesOf (e : String) (ws : List Write) : List AuditLog :=
  (ws.filterMap Write.payment).filter (·.isPaymentOf e)

/-- The calls that have written the entries of the event, in their order. -/
def entryCalls (e : String) (log : List (Txn.Group Write)) : List Nat :=
  log.flatMap fun g => (entriesOf e g.writes).map fun _ => g.call

theorem paymentEntries_applyAll (e : String) (d : Db) (ws : List Write) :
    (store.applyAll d ws).paymentEntries e = d.paymentEntries e + (entriesOf e ws).length := by
  induction ws generalizing d with
  | nil => rfl
  | cons w ws ih =>
    rw [Store.applyAll_cons, ih]
    have hstep : (store.apply d w).paymentEntries e =
        d.paymentEntries e + (entriesOf e [w]).length := by
      cases w with
      | insertAuditLog a =>
        by_cases ha : a.action = .paymentReceived
        · simp [Db.paymentEntries, store, Write.apply, entriesOf, Write.payment, ha,
            List.countP_eq_length_filter]
        · simp [Db.paymentEntries, store, Write.apply, entriesOf, Write.payment, ha,
            List.countP_append, AuditLog.isPaymentOf]
      | _ => rfl
    have happ : entriesOf e (w :: ws) = entriesOf e [w] ++ entriesOf e ws := by
      simp only [entriesOf, ← List.filter_append, ← List.filterMap_append, List.singleton_append]
    rw [hstep, happ, List.length_append]
    omega

theorem paymentEntries_replay (e : String) (d₀ : Db) (log : List (Txn.Group Write)) :
    (replay store d₀ log).paymentEntries e = d₀.paymentEntries e + (entryCalls e log).length := by
  induction log using List.reverseRecOn with
  | nil => rfl
  | append_singleton log g ih =>
    rw [replay_snoc, paymentEntries_applyAll, ih]
    simp only [entryCalls, List.flatMap_append, List.flatMap_singleton, List.length_append,
      List.length_map]
    omega

theorem count_entryCalls (e : String) (i : Nat) (log : List (Txn.Group Write)) :
    (entryCalls e log).count i =
      ((payments (publishedBy i log)).filter (·.isPaymentOf e)).length := by
  induction log with
  | nil => rfl
  | cons g log ih =>
    have hcons : entryCalls e (g :: log) =
        List.replicate (entriesOf e g.writes).length g.call ++ entryCalls e log := by
      simp [entryCalls, List.map_const']
    rw [hcons, List.count_append, ih, List.count_replicate, ← List.singleton_append,
      publishedBy_append, payments_append, List.filter_append, List.length_append]
    by_cases hi : g.call = i
    · subst hi
      rw [publishedBy_self]
      simp [payments, entriesOf]
    · have hother : publishedBy i [g] = [] := publishedBy_other (by simpa using hi)
      simp [hother, hi]

theorem mem_entryCalls {s : RunState} {e : String} {i : Nat} :
    i ∈ entryCalls e s.log ↔ WroteEntry s e i := by
  rw [← List.count_pos_iff, count_entryCalls, List.length_pos_iff_exists_mem]
  simp only [List.mem_filter, WroteEntry]

section

variable {config : Config} {d₀ : Db} {s : RunState} {e : String} {i j : Nat}

/-- The trail of every call, in every reachable state. -/
theorem callTrail (hs : (system config).Reach deliveryRuns d₀ s) :
    s.Fresh ∧ ∀ i op, s.ops[i]? = some op → CallTrail op (publishedBy i s.log) := by
  have hnil : ∀ (i : Nat) op, CallTrail op [] := by
    intro i op
    unfold CallTrail
    split
    · split
      · exact trail_nil _
      · rfl
    · rfl
  obtain ⟨hfresh, hcalls⟩ := System.Reach.publishes (J := fun _ => CallTrail) hnil
    (fun i op _ hop => deliveryTrail_program config i op hop) hs
  exact ⟨hfresh, fun i op hi => (hcalls i op hi).1⟩

theorem deliveredEvent_trail (hs : (system config).Reach deliveryRuns d₀ s) {event : WebhookEvent}
    (hi : deliveredEvent s i = some event) : Trail event (publishedBy i s.log) := by
  unfold deliveredEvent at hi
  split at hi
  · next delivery hop =>
    have ht := (callTrail hs).2 i _ hop
    cases hev : StripePaymentProvider.verifyAndParseWebhook delivery with
    | error e => simp [hev, Except.toOption] at hi
    | ok ev =>
      rw [hev] at hi
      cases hi
      rwa [callTrail_ok hev] at ht
  · cases hi

/-- An entry is written by a delivery of its event, and once. -/
theorem WroteEntry.event (hs : (system config).Reach deliveryRuns d₀ s) (h : WroteEntry s e i) :
    ∃ event, deliveredEvent s i = some event ∧ event.isPayment = true ∧
      event.providerEventId = e := by
  obtain ⟨hfresh, hcalls⟩ := callTrail hs
  obtain ⟨a, ha, hae⟩ := h
  cases hop : s.ops[i]? with
  | none =>
    have hnone : publishedBy i s.log = [] := publishedBy_other fun g hg hgi => by
      have hlt := hfresh.log g hg
      rw [hgi] at hlt
      rw [List.getElem?_eq_none_iff] at hop
      omega
    rw [hnone] at ha
    cases ha
  | some op =>
    have ht := hcalls i op hop
    cases op with
    | handleWebhook delivery =>
      cases hev : StripePaymentProvider.verifyAndParseWebhook delivery with
      | error e =>
        simp only [CallTrail, hev] at ht
        rw [ht] at ha
        cases ha
      | ok event =>
        rw [callTrail_ok hev] at ht
        obtain ⟨hp, hown⟩ := ht.own a ha
        exact ⟨event, by simp [deliveredEvent, hop, hev, Except.toOption], hp, ((hown e).1 hae).symm⟩
    | _ =>
      rw [show payments (publishedBy i s.log) = [] from ht] at ha
      cases ha

theorem entryCalls_nodup (hs : (system config).Reach deliveryRuns d₀ s) :
    (entryCalls e s.log).Nodup := by
  rw [List.nodup_iff_count_le_one]
  intro i
  by_cases hi : i ∈ entryCalls e s.log
  · obtain ⟨event, hev, -⟩ := (mem_entryCalls.1 hi).event hs
    rw [count_entryCalls]
    exact Nat.le_trans (List.length_filter_le _ _) (deliveredEvent_trail hs hev).once
  · rw [List.count_eq_zero.2 hi]
    omega

/-- A delivery of a payment that has committed has written its entry. -/
theorem CommittedBy.wrote (hs : (system config).Reach deliveryRuns d₀ s) {event : WebhookEvent}
    (hev : deliveredEvent s i = some event) (hp : event.isPayment = true) (h : CommittedBy s i) :
    WroteEntry s event.providerEventId i := by
  obtain ⟨g, hg, hgi, hb⟩ := h
  have ht := deliveredEvent_trail hs hev
  have hmem : (true, g.writes) ∈ publishedBy i s.log :=
    List.mem_map.2 ⟨g, List.mem_filter.2 ⟨hg, by simp [hgi]⟩, by rw [hb]⟩
  obtain ⟨a, ha⟩ := List.exists_mem_of_ne_nil _ (ht.commit ⟨_, hmem, rfl⟩ hp)
  exact ⟨a, ha, ((ht.own a ha).2 _).2 rfl⟩

/-- The deliveries of one event that commit are one. -/
theorem CommittedBy.unique (hs : (system config).Reach deliveryRuns d₀ s) {ev ev' : WebhookEvent}
    (hi : deliveredEvent s i = some ev) (hj : deliveredEvent s j = some ev')
    (heq : ev.providerEventId = ev'.providerEventId) (hci : CommittedBy s i)
    (hcj : CommittedBy s j) : i = j := by
  have honce := deliveries_exactly_once config d₀ s hs
  -- a commit inserts the marker of its delivery's event
  have marked : ∀ {k event}, deliveredEvent s k = some event → ∀ g ∈ s.log, g.call = k →
      g.viaTx = true → markedEvent g = some event.providerEventId := by
    intro k event hk g hg hgk hb
    obtain ⟨l, r, hlog⟩ := List.append_of_mem hg
    obtain ⟨delivery, hop, event', es, hev', hws, -⟩ := honce.commits l g r hlog hb
    rw [hgk] at hop
    simp only [deliveredEvent, hop, hev', Except.toOption, Option.some.injEq] at hk
    subst hk
    simp only [markedEvent, hws, marker]
  obtain ⟨g, hg, hgi, hgb⟩ := hci
  obtain ⟨g', hg', hgj, hgb'⟩ := hcj
  have hpair := List.pairwise_filterMap.1 honce.once.1
  by_cases hgg : g = g'
  · rw [← hgi, ← hgj, hgg]
  · have hsymm : Std.Symm fun a a' : Txn.Group Write => ∀ b, markedEvent a = some b →
        ∀ b', markedEvent a' = some b' → b ≠ b' :=
      ⟨fun a b hab x hx y hy => (hab y hy x hx).symm⟩
    exact absurd heq
      (hpair.forall hg hg' hgg _ (marked hi g hg hgi hgb) _ (marked hj g' hg' hgj hgb'))

end

/-- In every run of deliveries the audit trail of an event is exact if and only if
every delivery that has written its entry has committed. -/
theorem audit_trail_exact (config : Config) (d₀ : Db) (s : RunState) (e : String)
    (hs : (system config).Reach deliveryRuns d₀ s) (h₀ : d₀.paymentEntries e = 0) :
    TrailExact s e ↔ ∀ i, WroteEntry s e i → CommittedBy s i := by
  have hcount : s.db.paymentEntries e = (entryCalls e s.log).length := by
    have hdb : s.db = replay store d₀ s.log := ((deliveries_sound config).good trivial hs).replay
    rw [hdb, paymentEntries_replay, h₀, Nat.zero_add]
  constructor
  · rintro ⟨hcommitted, huncommitted⟩ i hi
    have hmem := mem_entryCalls.2 hi
    by_cases hp : PaymentCommitted s e
    · obtain ⟨j, event, hev, hpay, rfl, hj⟩ := hp
      have hone := hcommitted ⟨j, event, hev, hpay, rfl, hj⟩
      rw [hcount, List.length_eq_one_iff] at hone
      obtain ⟨k, hk⟩ := hone
      have hjmem := mem_entryCalls.2 (hj.wrote hs hev hpay)
      rw [hk, List.mem_singleton] at hmem hjmem
      rw [hmem, ← hjmem]
      exact hj
    · have hzero := huncommitted hp
      rw [hcount, List.length_eq_zero_iff] at hzero
      rw [hzero] at hmem
      cases hmem
  · intro h
    constructor
    · rintro ⟨j, event, hev, hpay, rfl, hj⟩
      have hjmem := mem_entryCalls.2 (hj.wrote hs hev hpay)
      have hall : ∀ i ∈ entryCalls event.providerEventId s.log, i = j := by
        intro i hi
        have hwrote := mem_entryCalls.1 hi
        obtain ⟨ev, hev', -, heq⟩ := hwrote.event hs
        exact CommittedBy.unique hs hev' hev heq (h i hwrote) hj
      have hle := List.nodup_iff_count_le_one.1 (entryCalls_nodup (e := event.providerEventId) hs) j
      rw [hcount]
      have hpos := List.count_pos_iff.2 hjmem
      have hrep := List.eq_replicate_of_mem hall
      rw [hrep, List.count_replicate_self] at hle hpos
      omega
    · intro hp
      rw [hcount, List.length_eq_zero_iff, List.eq_nil_iff_forall_not_mem]
      intro i hi
      have hwrote := mem_entryCalls.1 hi
      obtain ⟨event, hev, hpay, heq⟩ := hwrote.event hs
      exact hp ⟨i, event, hev, hpay, heq, h i hwrote⟩

/-- A delivery of the renewal that fails after `n` steps, then its redelivery. -/
def failedThenRedelivered (n : Nat) : List (Label Error Op) :=
  alone 0 (.handleWebhook (some renewalEvent)) n ++ .fault 0 .unavailable :: .step 0 ::
    alone 1 (.handleWebhook (some renewalEvent)) 17

/-- The upload of the invoice fails: the renewal is rolled back, its entry stays,
and the redelivery writes a second one. -/
theorem entry_survives_rollback : ∃ s : RunState,
    (system .default).Reach deliveryRuns paidCompany s ∧ thrown s 0 = some .unavailable ∧
    answer s 1 = some (.alreadyProcessed false) ∧ PaymentCommitted s "evt_1" ∧
    s.db.paymentEntries "evt_1" = 2 ∧ ¬TrailExact s "evt_1" := by
  have hrun : ((system .default).runLabels deliveryRuns (State.init paidCompany)
      (failedThenRedelivered 13)).map
      (fun s => (thrown s 0, answer s 1, deliveredEvent s 1,
        s.log.any fun g => g.call == 1 && g.viaTx, s.db.paymentEntries "evt_1")) =
      some (some .unavailable, some (.alreadyProcessed false),
        some (.subscriptionRenewed "evt_1" "sub_1"), true, 2) := by
    decide
  obtain ⟨s, hs, hst⟩ := System.reach_of_run hrun
  simp only [Prod.mk.injEq, List.any_eq_true, Bool.and_eq_true, beq_iff_eq] at hst
  obtain ⟨h0, h1, hev, ⟨g, hg, hgi, hb⟩, htwo⟩ := hst
  have hp : PaymentCommitted s "evt_1" := ⟨1, _, hev, rfl, rfl, g, hg, hgi, hb⟩
  refine ⟨s, hs, h0, h1, hp, htwo, fun h => ?_⟩
  have hone := h.committed hp
  rw [htwo] at hone
  cases hone

/-- The first delivery fails before its entry. -/
theorem audit_trail_exact_redelivered : ∃ s : RunState, thrown s 0 = some .unavailable ∧
    s.db.paymentEntries "evt_1" = 1 ∧ TrailExact s "evt_1" := by
  have hrun : ((system .default).runLabels deliveryRuns (State.init paidCompany)
      (failedThenRedelivered 5)).map
      (fun s => (thrown s 0, entryCalls "evt_1" s.log,
        s.log.any fun g => g.call == 1 && g.viaTx, s.db.paymentEntries "evt_1")) =
      some (some .unavailable, [1], true, 1) := by
    decide
  obtain ⟨s, hs, hst⟩ := System.reach_of_run hrun
  simp only [Prod.mk.injEq, List.any_eq_true, Bool.and_eq_true, beq_iff_eq] at hst
  obtain ⟨h0, hcalls, ⟨g, hg, hgi, hb⟩, hone⟩ := hst
  refine ⟨s, h0, hone, (audit_trail_exact .default paidCompany s "evt_1" hs rfl).2 fun i hi => ?_⟩
  have hmem := mem_entryCalls.2 hi
  rw [hcalls, List.mem_singleton] at hmem
  exact ⟨g, hg, hgi.trans hmem.symm, hb⟩

end JobBoard
