import JobBoard.Billing.Statements
import JobBoard.Lib.Effects
import JobBoard.Services.System

/-!
# What each call does to the subscriptions table

Every call issues at most one statement that changes the subscriptions table.
`SubEffect` lists these statements, with what the call has read before: which
row it loaded and what it makes of it (`Saves`), or which rows it found missing
before it inserts one (`Inserts`). `program_effects` proves that this is all,
for every operation; the invariants of the table follow from it and from
nothing else of the programs.
-/

set_option autoImplicit false

namespace JobBoard

open Txn Prog

/-- The write leaves the subscriptions table alone. -/
def Write.Quiet : Write → Prop
  | .insertSubscription _ | .saveSubscription .. | .incrementContactsUsed _ => False
  | _ => True

theorem Write.Quiet.subscriptions {w : Write} (h : w.Quiet) (db : Db) :
    (w.apply db).subscriptions = db.subscriptions := by
  cases w <;> first | rfl | exact h.elim

theorem quiet_subscriptions {ws : List Write} (h : ∀ w ∈ ws, w.Quiet) (db : Db) :
    (store.applyAll db ws).subscriptions = db.subscriptions := by
  induction ws generalizing db with
  | nil => rfl
  | cons w ws ih =>
    rw [Store.applyAll_cons, ih fun x hx => h x (List.mem_cons_of_mem _ hx)]
    exact (h w List.mem_cons_self).subscriptions db

/-! ## The effects -/

/-- What handling an event makes of the row it loaded. -/
def EventSaves : WebhookEvent → Subscription → Subscription → Prop
  | .subscriptionActivated _ _ sub companyId plan, l, e =>
    l.companyId = companyId ∧ (l.status = .trial ∨ l.status = .pastDue) ∧ ∃ quota t,
      e = { l with status := .active, plan := plan, contactQuota := quota, contactsUsed := 0,
                   externalSubscriptionId := some sub, endsAt := some t }
  | .subscriptionRenewed _ sub, l, e =>
    l.externalSubscriptionId = some sub ∧ (l.status = .active ∨ l.status = .pastDue) ∧ ∃ t,
      e = PaymentWebhookService.renewed l t
  | .paymentFailed _ companyId _, l, e =>
    l.companyId = companyId ∧ l.status = .active ∧ e = { l with status := .pastDue }
  | .subscriptionPastDue _ sub, l, e =>
    l.externalSubscriptionId = some sub ∧ l.status = .active ∧ ∃ t,
      e = { l with status := .pastDue, pastDueSince := some t }
  | .subscriptionCancelled _ sub _, l, e =>
    l.externalSubscriptionId = some sub ∧
      .cancelled ∈ SUBSCRIPTION_STATUS_TRANSITIONS l.status ∧
      e = { l with status := .cancelled, pastDueSince := none }
  | .subscriptionPlanChanged .., _, _ => False
  | .ignored .., _, _ => False

/-- What a call makes of the row it loaded. -/
def Saves : Op → Subscription → Subscription → Prop
  | .handleWebhook delivery, l, e => ∃ event,
      StripePaymentProvider.verifyAndParseWebhook delivery = .ok event ∧ EventSaves event l e
  | .cancelSubscription _, l, e => (l.status = .active ∨ l.status = .pastDue) ∧
      e = { l with cancelAtPeriodEnd := true }
  | .changePlan _ plan, l, e => (l.status = .active ∨ l.status = .pastDue) ∧ ∃ quota,
      e = { l with plan := plan, contactQuota := quota }
  | .redeem .., l, e => l.status = .trial ∧ ∃ plan quota t,
      e = { l with plan := plan, contactQuota := quota, endsAt := some t }
  | .adminCancel id, l, e => l.id = id ∧ ∃ t,
      e = { l with status := .cancelled, endsAt := some t, cancelAtPeriodEnd := false }
  | .adminSuspend id, l, e => l.id = id ∧
      (l.status = .trial ∨ l.status = .active ∨ l.status = .pastDue) ∧
      e = { l with status := .suspended, cancelAtPeriodEnd := false }
  | .adminReactivate id, l, e => l.id = id ∧ l.status = .suspended ∧ e = { l with status := .active }
  | .assignPlan companyId plan _, l, e => l.companyId = companyId ∧ l.status ∈ LIVE_STATUSES ∧
      ∃ quota, e = { l with plan := plan, contactQuota := quota, status := .active,
                            cancelAtPeriodEnd := false, pastDueSince := none, endsAt := none }
  | _, _, _ => False

/-- No payment of the row has failed, and nobody has cancelled it. -/
def Subscription.Clean (s : Subscription) : Prop :=
  s.pastDueSince = none ∧ s.cancelAtPeriodEnd = false

/-- The row a call inserts, and what it has seen in the database before. -/
def Inserts : Op → Db → Subscription → Prop
  | .handleWebhook delivery, v, s => ∃ providerEventId session sub companyId plan,
      StripePaymentProvider.verifyAndParseWebhook delivery =
        .ok (.subscriptionActivated providerEventId session sub companyId plan) ∧
      s.companyId = companyId ∧ s.status = .active ∧ s.contactsUsed = 0 ∧
      s.externalSubscriptionId = some sub ∧ s.plan = plan ∧ s.Clean ∧
      ∀ r ∈ v.subscriptions.rows, r.companyId = companyId → r.status ≠ .trial ∧ r.status ≠ .pastDue
  | .assignPlan companyId _ _, v, s =>
      s.companyId = companyId ∧ s.status = .active ∧ s.contactsUsed = 0 ∧
      s.externalSubscriptionId = none ∧ s.Clean ∧
      ∀ r ∈ v.subscriptions.rows, r.companyId = companyId → r.status ∉ LIVE_STATUSES
  | .createCompany .., _, s => s.status = .trial ∧ s.contactsUsed = 0 ∧
      s.externalSubscriptionId = none ∧ s.Clean
  | _, _, _ => False

/-- The statements of a call that change the subscriptions table; `ρ` relates
the database it has seen to the database `d` that the statement sees. -/
inductive SubEffect (ρ : Db → Db → Prop) (op : Op) (d : Db) : List Write → Prop
  | save {l e r v u : _} (hv : ρ v d) (hl : l ∈ v.subscriptions.rows) (hsaves : Saves op l e)
      (hu : ρ u d) (hr : u.subscription? l.id = some r)
      (hunique : e.status ≠ r.status → ∀ row, d.subscription? l.id = some row →
        d.subscriptionViolation (e.overwrite r row) = none) :
      SubEffect ρ op d [.saveSubscription l e r]
  | insert {s v : _} (hv : ρ v d) (hs : Inserts op v s)
      (hunique : d.insertSubscriptionViolation s = none) :
      SubEffect ρ op d [.insertSubscription s]
  | consume {user candidate body id s : _} (hop : op = .openConversation user candidate body)
      (hs : d.subscription? id = some s) (hlt : s.contactsUsed < s.contactQuota) :
      SubEffect ρ op d [.incrementContactsUsed id]

theorem Saves.id_eq {op : Op} {l e : Subscription} (h : Saves op l e) :
    e.id = l.id ∧ e.companyId = l.companyId := by
  cases op <;> simp only [Saves] at h
  case handleWebhook delivery =>
    obtain ⟨event, -, h⟩ := h
    cases event <;> simp only [EventSaves, PaymentWebhookService.renewed] at h <;> grind
  all_goals grind

/-! ## The rules of the repository -/

/-- The relation between earlier and later views. -/
structure Knows (ρ : Db → Db → Prop) : Prop where
  refl : ∀ d, ρ d d
  trans : ∀ {a b c}, ρ a b → ρ b c → ρ a c

section

variable {ρ : Db → Db → Prop} {op : Op} {α : Type} {τ : Trace} {d : Db}

theorem Knows.quiet (hρ : Knows ρ) {p : M α} (hp : p.Quiet Write.Quiet)
    {Q : Trace → Db → α → Prop} (hQ : ∀ d' a, (τ.spent = false → ρ d d') → Q τ d' a) :
    p.effects ρ Write.Quiet (SubEffect ρ op) Q τ d :=
  hp.effects hρ.refl hρ.trans hQ

/-- A piece that changes nothing after which nothing is asked. -/
theorem quiet_end (hρ : Knows ρ) {p : M α} (hp : p.Quiet Write.Quiet) :
    p.effects ρ Write.Quiet (SubEffect ρ op) (fun τ' _ _ => τ'.inTx = τ.inTx) τ d :=
  hρ.quiet hp fun _ _ _ => rfl

theorem save_effects (hρ : Knows ρ) (hτ : τ.spent = false) {l e : Subscription}
    {Q : Trace → Db → Subscription → Prop} {v : Db} (hv : ρ v d) (hl : l ∈ v.subscriptions.rows)
    (hs : Saves op l e) (hQ : ∀ τ' d', τ'.inTx = τ.inTx → Q τ' d' e) :
    (SubscriptionRepository.save l e).effects ρ Write.Quiet (SubEffect ρ op) Q τ d := by
  unfold SubscriptionRepository.save
  rw [effects_bind]
  refine effects_select fun u hu => ?_
  have hu := hu hτ
  split
  · trivial
  · next r hr =>
    split
    · exact hQ _ _ rfl
    · refine effects_query hτ fun w res hw hf => ?_
      rw [hs.id_eq.1] at hf hr
      split at hf
      · cases hf
      · next hnone =>
        cases hf
        refine ⟨.save (hρ.trans hv (hρ.trans hu hw)) hl hs hw hr ?_, hQ _ _ rfl⟩
        intro _ row hrow
        simpa [hrow] using hnone

theorem insert_effects (hτ : τ.spent = false) {s : Subscription}
    {Q : Trace → Db → Subscription → Prop} (hs : ∀ w, ρ d w → ∃ v, ρ v w ∧ Inserts op v s)
    (hQ : ∀ τ' d', τ'.inTx = τ.inTx → Q τ' d' s) :
    (SubscriptionRepository.insert s).effects ρ Write.Quiet (SubEffect ρ op) Q τ d := by
  refine effects_query hτ fun w res hw hf => ?_
  split at hf
  · cases hf
  · next hnone =>
    cases hf
    obtain ⟨v, hv, hins⟩ := hs w hw
    exact ⟨.insert hv hins hnone, hQ _ _ rfl⟩

/-- The row a query by newest or by any order returns is a row of the table. -/
theorem newest_filter_mem {rs : List Subscription} {p : Subscription → Bool} {r : Subscription}
    (h : newest (rs.filter p) = some r) : r ∈ rs ∧ p r = true :=
  List.mem_filter.1 (newest_mem h)

theorem newest_filter_none {rs : List Subscription} {p : Subscription → Bool}
    (h : newest (rs.filter p) = none) {r : Subscription} (hr : r ∈ rs) : p r = false := by
  have := List.filter_eq_nil_iff.1 (newest_eq_none.1 h) r hr
  simpa using this

end

/-! ## Quiet pieces -/

theorem quiet_insertUnique {α : Type} {violated : Db → Option String} {w : Write} {a : α}
    (h : w.Quiet) : (insertUnique violated w a).Quiet Write.Quiet := by
  refine quiet_query fun v r hf => ?_
  split at hf
  · cases hf
  · cases hf
    simpa using h

theorem quiet_now : now.Quiet Write.Quiet := quiet_select _

/-- What billing issues besides the writes of subscriptions is quiet. -/
theorem quietBilling : Permits (fun ws => ∀ w ∈ ws, w.Quiet) (fun ws => ∀ w ∈ ws, w.Quiet)
    fun _ => True := by
  refine .of_outside (by simp) (fun w hw x hx => ?_) (fun w hw x hx => ?_) fun _ _ _ => trivial
  · rw [List.mem_singleton] at hx
    subst hx
    cases x <;> trivial
  · rw [List.mem_singleton] at hx
    subst hx
    cases x <;> trivial

theorem quiet_call (c : StripeCall) : (PaymentProvider.call c).Quiet Write.Quiet :=
  quiet_outside fun _ x hx => by simp only [List.mem_singleton] at hx; subst hx; trivial

theorem quiet_insertRedemption (r : TrialCodeRedemption) :
    (TrialCodeRedemptionService.insertRedemption r).Quiet Write.Quiet :=
  (quiet_insertUnique (by trivial)).mapError fun _ _ => trivial

theorem quiet_claim (id : Id) : (TrialCodeRedemptionService.claim id).Quiet Write.Quiet := by
  refine quiet_query fun v r hf x hx => ?_
  split at hf
  · split at hf
    · cases hf
      simp only [List.mem_singleton] at hx
      subst hx
      trivial
    · cases hf
  · cases hf

theorem quiet_createTrialCode (uuid : Id) (dto : CreateTrialCodeDto) :
    (TrialCodeAdminService.create uuid dto).Quiet Write.Quiet :=
  (quiet_insertUnique (by trivial)).mapError fun _ _ => trivial

theorem quiet_revoke (id : Id) : (TrialCodeAdminService.revoke id).Quiet Write.Quiet := by
  refine (quiet_select _).bind fun found => ?_
  split
  · trivial
  · split
    · trivial
    · refine (quiet_select _).bind fun reread => ?_
      split
      · trivial
      · split
        · trivial
        · refine (quiet_write fun _ x hx => ?_).bind fun _ => quiet_ret _
          simp only [List.mem_singleton] at hx
          subst hx
          trivial

theorem quiet_assertActiveSubscription (config : Config) (user : Id) :
    (SubscriptionGuardService.assertActiveSubscription config user).Quiet Write.Quiet := by
  refine (quiet_select _).bind fun a => ?_
  split
  · trivial
  · refine (quiet_select _).bind fun b => quiet_now.bind fun t => ?_
    split
    · split <;> trivial
    · trivial

theorem quiet_resolveActiveSubscriptionId (companyId : Id) :
    (ContactQuotaService.resolveActiveSubscriptionId companyId).Quiet Write.Quiet :=
  quiet_now.bind fun _ => (quiet_select _).bind fun _ => quiet_ofExcept _

/-! ## The operations -/

section

variable {ρ : Db → Db → Prop} (hρ : Knows ρ) (config : Config) (uuid : Id)

/-- Nothing is asked of a finished call but that its transaction is over. -/
abbrev Over {α : Type} (inTx : Bool) : Trace → Db → α → Prop := fun τ _ _ => τ.inTx = inTx

theorem findPayable_effects {op : Op} {τ : Trace} {d : Db} {companyId : Id} (hτ : τ.spent = false)
    {Q : Trace → Db → Option Subscription → Prop}
    (hQ : ∀ v r, ρ d v → (∀ l, r = some l → l ∈ v.subscriptions.rows ∧
      (l.status = .active ∨ l.status = .pastDue)) → Q τ v r) :
    (SubscriptionCheckoutService.findPayable companyId).effects ρ Write.Quiet (SubEffect ρ op)
      Q τ d := by
  refine effects_select fun v hv => hQ v _ (hv hτ) fun l hl => ?_
  obtain ⟨hmem, hp⟩ := newest_filter_mem hl
  simp only [Bool.and_eq_true, Bool.or_eq_true, decide_eq_true_eq] at hp
  exact ⟨hmem, hp.2⟩

theorem load_effects {op : Op} {id : Id} {d : Db} {τ : Trace} (hτ : τ.spent = false)
    {Q : Trace → Db → Subscription → Prop}
    (hQ : ∀ v l, ρ d v → l ∈ v.subscriptions.rows → l.id = id → Q τ v l) :
    (SubscriptionAdminService.load id).effects ρ Write.Quiet (SubEffect ρ op) Q τ d := by
  unfold SubscriptionAdminService.load
  rw [effects_bind]
  refine effects_select fun v hv => ?_
  split
  · trivial
  · next l hl => exact hQ v l (hv hτ) (Table.mem_of_get? hl) (Table.key_of_get? hl)

include hρ

theorem resolveCompanyId_effects {op : Op} {τ : Trace} {d : Db} {userId : Id}
    {Q : Trace → Db → Id → Prop} (hQ : ∀ d' c, (τ.spent = false → ρ d d') → Q τ d' c) :
    (SubscriptionGuardService.resolveCompanyId userId).effects ρ Write.Quiet (SubEffect ρ op) Q τ d := by
  refine hρ.quiet ?_ hQ
  refine (quiet_select _).bind fun a => ?_
  split <;> trivial

theorem activateSubscription_effects {delivery : Option StripeEvent} {e session sub : String}
    {companyId : Id} {plan : SubscriptionPlan} {τ : Trace} {d : Db} (hτ : τ.spent = false)
    (hev : StripePaymentProvider.verifyAndParseWebhook delivery =
      .ok (.subscriptionActivated e session sub companyId plan)) :
    (PaymentWebhookService.activateSubscription config uuid e sub companyId plan).effects ρ
      Write.Quiet (SubEffect ρ (.handleWebhook delivery)) (Over τ.inTx) τ d := by
  unfold PaymentWebhookService.activateSubscription
  rw [effects_bind]
  refine effects_ofExcept fun quota _ => ?_
  rw [effects_bind]
  refine effects_select fun v hv => ?_
  have hv := hv hτ
  rw [effects_bind]
  refine effects_select fun w hw => ?_
  have hw := hw hτ
  -- the saved row is followed by quiet statements only
  have rest : ∀ (s : Subscription) τ' d', τ'.inTx = τ.inTx →
      Prog.effects ρ Write.Quiet (SubEffect ρ (.handleWebhook delivery))
        (do AuditService.log ⟨none, .paymentReceived, "subscription", s.id,
              [("companyId", .id companyId), ("plan", .plan plan), ("contactQuota", .num quota),
                ("providerEventId", .str e)]⟩
            markConvertedIfApplicable companyId
            let company ← findCompanyOrFail companyId
            let _ ← InvoiceEmissionService.emit config uuid ⟨s, company, e, none⟩
            return ()) (Over τ.inTx) τ' d' := by
    intro s τ' d' hτ'
    refine hρ.quiet ((quietBilling.log_plain _).bind fun _ => (quietBilling.markConverted_plain _).bind fun _ =>
      (quietBilling.findCompanyOrFail_plain _).bind fun _ => (quietBilling.emit_plain _ _ _).bind fun _ => quiet_ret _)
      fun _ _ _ => hτ'
  split
  · next l hl =>
    obtain ⟨hmem, hp⟩ := newest_filter_mem hl
    simp only [Bool.and_eq_true, Bool.or_eq_true, decide_eq_true_eq] at hp
    rw [effects_bind]
    refine effects_ofExcept fun _ _ => ?_
    rw [effects_bind]
    refine save_effects hρ hτ hw hmem ⟨_, hev, hp.1, hp.2, quota, _, rfl⟩ ?_
    exact fun τ' d' hτ' => rest _ τ' d' hτ'
  · next hl =>
    rw [effects_bind]
    refine insert_effects hτ (fun w' hw' => ⟨v, hρ.trans hw hw', e, session, sub, companyId, plan,
      hev, rfl, rfl, rfl, rfl, rfl, ⟨rfl, rfl⟩, ?_⟩) fun τ' d' hτ' => rest _ τ' d' hτ'
    intro r hr hc
    have := newest_filter_none hl hr
    simp only [hc, decide_true, Bool.true_and, Bool.or_eq_false_iff, decide_eq_false_iff_not] at this
    exact this

theorem renewSubscription_effects {delivery : Option StripeEvent} {e sub : String} {τ : Trace}
    {d : Db} (hτ : τ.spent = false)
    (hev : StripePaymentProvider.verifyAndParseWebhook delivery = .ok (.subscriptionRenewed e sub)) :
    (PaymentWebhookService.renewSubscription config uuid e sub).effects ρ
      Write.Quiet (SubEffect ρ (.handleWebhook delivery)) (Over τ.inTx) τ d := by
  unfold PaymentWebhookService.renewSubscription
  rw [effects_bind]
  refine effects_select fun v hv => ?_
  split
  · trivial
  · next l hl =>
    have hmem := List.mem_of_find?_eq_some hl
    have hp := List.find?_some hl
    simp only [Bool.and_eq_true, Bool.or_eq_true, decide_eq_true_eq] at hp
    rw [effects_bind]
    refine effects_ofExcept fun _ _ => ?_
    rw [effects_bind]
    refine effects_select fun w hw => ?_
    rw [effects_bind]
    refine save_effects hρ hτ (hw hτ) hmem ⟨_, hev, hp.1, hp.2, _, rfl⟩ fun τ' d' hτ' => ?_
    refine hρ.quiet ?_ ?_
    · refine (quietBilling.log_plain _).bind fun _ => Plain.bind ?_ fun _ =>
        (quietBilling.findCompanyOrFail_plain _).bind fun _ => (quietBilling.emit_plain _ _ _).bind fun _ => quiet_ret _
      split
      · exact quietBilling.sendToRecruiters_plain _
      · exact quiet_ret _
    · exact fun _ _ _ => hτ'

theorem markPastDue_effects {delivery : Option StripeEvent} {e reason : String} {companyId : Id}
    {τ : Trace} {d : Db} (hτ : τ.spent = false)
    (hev : StripePaymentProvider.verifyAndParseWebhook delivery =
      .ok (.paymentFailed e companyId reason)) :
    (PaymentWebhookService.markPastDue e companyId reason).effects ρ
      Write.Quiet (SubEffect ρ (.handleWebhook delivery)) (Over τ.inTx) τ d := by
  unfold PaymentWebhookService.markPastDue
  rw [effects_bind]
  refine effects_select fun v hv => ?_
  split
  · exact quiet_end hρ (quietBilling.log_plain _)
  · next l hl =>
    have hmem := List.mem_of_find?_eq_some hl
    have hp := List.find?_some hl
    simp only [Bool.and_eq_true, decide_eq_true_eq] at hp
    rw [effects_bind]
    refine effects_ofExcept fun _ _ => ?_
    rw [effects_bind]
    refine save_effects hρ hτ (hρ.refl v) hmem ⟨_, hev, hp.1, hp.2, rfl⟩ fun τ' d' hτ' => ?_
    exact hρ.quiet (quietBilling.log_plain _) fun _ _ _ => hτ'

theorem markSubscriptionPastDue_effects {delivery : Option StripeEvent} {e sub : String}
    {τ : Trace} {d : Db} (hτ : τ.spent = false)
    (hev : StripePaymentProvider.verifyAndParseWebhook delivery = .ok (.subscriptionPastDue e sub)) :
    (PaymentWebhookService.markSubscriptionPastDue e sub).effects ρ
      Write.Quiet (SubEffect ρ (.handleWebhook delivery)) (Over τ.inTx) τ d := by
  unfold PaymentWebhookService.markSubscriptionPastDue
  rw [effects_bind]
  refine effects_select fun v hv => ?_
  split
  · trivial
  · next l hl =>
    have hmem := List.mem_of_find?_eq_some hl
    have hp := List.find?_some hl
    simp only [decide_eq_true_eq] at hp
    have tail : ∀ a : AuditLog, (do
        AuditService.log a
        let _ ← sendToRecruiters l.companyId
        return () : M Unit).Quiet Write.Quiet := fun a =>
      (quietBilling.log_plain _).bind fun _ => (quietBilling.sendToRecruiters_plain _).bind fun _ => quiet_ret _
    split
    · next hact =>
      rw [effects_bind]
      refine effects_ofExcept fun _ _ => ?_
      rw [effects_bind]
      refine effects_select fun w hw => ?_
      rw [effects_bind]
      refine save_effects hρ hτ (hw hτ) hmem ⟨_, hev, hp, hact, _, rfl⟩ fun τ' d' hτ' => ?_
      exact hρ.quiet (tail _) fun _ _ _ => hτ'
    · exact quiet_end hρ (tail _)

theorem cancelSubscription_effects {delivery : Option StripeEvent} {e sub reason : String}
    {τ : Trace} {d : Db} (hτ : τ.spent = false)
    (hev : StripePaymentProvider.verifyAndParseWebhook delivery =
      .ok (.subscriptionCancelled e sub reason)) :
    (PaymentWebhookService.cancelSubscription e sub reason).effects ρ
      Write.Quiet (SubEffect ρ (.handleWebhook delivery)) (Over τ.inTx) τ d := by
  unfold PaymentWebhookService.cancelSubscription
  rw [effects_bind]
  refine effects_select fun v hv => ?_
  split
  · trivial
  · next l hl =>
    have hmem := List.mem_of_find?_eq_some hl
    have hp := List.find?_some hl
    simp only [decide_eq_true_eq] at hp
    split
    · exact rfl
    · rw [effects_bind]
      refine effects_ofExcept fun _ hok => ?_
      rw [effects_bind]
      have hedge : .cancelled ∈ SUBSCRIPTION_STATUS_TRANSITIONS l.status := by
        unfold assertValidSubscriptionTransition at hok
        split at hok
        · assumption
        · cases hok
      refine save_effects hρ hτ (hρ.refl v) hmem ⟨_, hev, hp, hedge, rfl⟩ fun τ' d' hτ' => ?_
      exact hρ.quiet ((quietBilling.log_plain _).bind fun _ => (quietBilling.sendToRecruiters_plain _).bind fun _ =>
        quiet_ret _) fun _ _ _ => hτ'

theorem applyEffect_effects {delivery : Option StripeEvent} {event : WebhookEvent} {τ : Trace}
    {d : Db} (hτ : τ.spent = false)
    (hev : StripePaymentProvider.verifyAndParseWebhook delivery = .ok event) :
    (PaymentWebhookService.applyEffect config uuid event).effects ρ
      Write.Quiet (SubEffect ρ (.handleWebhook delivery)) (Over τ.inTx) τ d := by
  cases event with
  | subscriptionActivated => exact activateSubscription_effects hρ config uuid hτ hev
  | subscriptionRenewed => exact renewSubscription_effects hρ config uuid hτ hev
  | paymentFailed => exact markPastDue_effects hρ hτ hev
  | subscriptionPastDue => exact markSubscriptionPastDue_effects hρ hτ hev
  | subscriptionPlanChanged => exact quiet_end hρ (quietBilling.handlePlanChangeInvoice_plain config uuid _ _ _)
  | subscriptionCancelled => exact cancelSubscription_effects hρ hτ hev
  | ignored => exact rfl

theorem handleWebhook_effects {delivery : Option StripeEvent} {d : Db} :
    (PaymentWebhookService.handleWebhook config uuid delivery).effects ρ
      Write.Quiet (SubEffect ρ (.handleWebhook delivery)) (Over false) ⟨false, false⟩ d := by
  unfold PaymentWebhookService.handleWebhook
  rw [effects_bind]
  refine effects_ofExcept fun event hev => effects_transaction rfl (fun e => ?_) ?_
  · unfold PaymentWebhookService.onError
    split
    · exact rfl
    · trivial
  · rw [effects_bind]
    have hmarker : (PaymentWebhookService.insertMarker (PaymentWebhookService.marker uuid event)).Quiet
        Write.Quiet := quiet_insertUnique trivial
    refine hρ.quiet hmarker fun d' _ _ => ?_
    exact effects_mono (applyEffect_effects hρ config uuid rfl hev) fun _ _ _ _ => rfl

theorem checkout_cancelSubscription_effects {userId : Id} {d : Db} :
    (SubscriptionCheckoutService.cancelSubscription userId).effects ρ Write.Quiet
      (SubEffect ρ (.cancelSubscription userId)) (Over false) ⟨false, false⟩ d := by
  unfold SubscriptionCheckoutService.cancelSubscription
  rw [effects_bind]
  refine resolveCompanyId_effects hρ fun d₁ companyId _ => ?_
  rw [effects_bind]
  refine findPayable_effects rfl fun v r _ hr => ?_
  split
  · trivial
  · next l =>
    obtain ⟨hmem, hst⟩ := hr l rfl
    split
    · trivial
    · split
      · rw [effects_bind]
        refine hρ.quiet (quiet_call _) fun w _ hw => ?_
        rw [effects_bind]
        exact save_effects hρ rfl (hw rfl) hmem ⟨hst, rfl⟩ fun _ _ hτ' => hτ'
      · exact rfl

theorem changePlan_effects {userId : Id} {plan : SubscriptionPlan} {d : Db} :
    (SubscriptionCheckoutService.changePlan config userId plan).effects ρ Write.Quiet
      (SubEffect ρ (.changePlan userId plan)) (Over false) ⟨false, false⟩ d := by
  unfold SubscriptionCheckoutService.changePlan
  rw [effects_bind]
  refine resolveCompanyId_effects hρ fun d₁ companyId _ => ?_
  rw [effects_bind]
  refine findPayable_effects rfl fun v r _ hr => ?_
  split
  · trivial
  · next l =>
    obtain ⟨hmem, hst⟩ := hr l rfl
    split
    · trivial
    · split
      · trivial
      · rw [effects_bind]
        refine effects_ofExcept fun quota _ => ?_
        rw [effects_bind]
        refine effects_ofExcept fun amount _ => ?_
        rw [effects_bind]
        refine hρ.quiet (quiet_call _) fun w _ hw => ?_
        rw [effects_bind]
        refine save_effects hρ rfl (hw rfl) hmem ⟨hst, _, rfl⟩ fun τ' d' hτ' => ?_
        exact hρ.quiet ((quietBilling.log_plain _).bind fun _ => quiet_ret _) fun _ _ _ => hτ'

theorem redeem_effects {userId : Id} {code : String} {d : Db} :
    (TrialCodeRedemptionService.redeem config uuid userId code).effects ρ Write.Quiet
      (SubEffect ρ (.redeem userId code)) (Over false) ⟨false, false⟩ d := by
  unfold TrialCodeRedemptionService.redeem
  rw [effects_bind]
  refine resolveCompanyId_effects hρ fun d₁ companyId _ => ?_
  refine effects_transaction rfl (fun e => trivial) ?_
  unfold TrialCodeRedemptionService.redeemFor
  rw [effects_bind]
  refine effects_select fun v hv => ?_
  split
  · trivial
  · next l hl =>
    obtain ⟨hmem, hp⟩ := newest_filter_mem hl
    simp only [Bool.and_eq_true, decide_eq_true_eq] at hp
    rw [effects_bind]
    refine effects_select fun w hw => ?_
    split
    · trivial
    · rw [effects_bind]
      refine effects_select fun w' hw' => ?_
      split
      · trivial
      · rw [effects_bind]
        refine effects_select fun w₁ hw₁ => ?_
        rw [effects_bind]
        refine hρ.quiet (quiet_insertRedemption _) fun w₂ _ hw₂ => ?_
        rw [effects_bind]
        refine hρ.quiet (quiet_claim _) fun w₃ _ hw₃ => ?_
        rw [effects_bind]
        refine effects_ofExcept fun quota _ => ?_
        rw [effects_bind]
        refine effects_select fun w₄ hw₄ => ?_
        refine save_effects hρ rfl ?_ hmem ⟨hp.2, _, _, _, rfl⟩ fun _ _ _ => rfl
        exact hρ.trans (hw rfl) (hρ.trans (hw' rfl) (hρ.trans (hw₁ rfl) (hρ.trans (hw₂ rfl)
          (hρ.trans (hw₃ rfl) (hw₄ rfl)))))

theorem cancel_effects {id : Id} {d : Db} :
    (SubscriptionAdminService.cancel id).effects ρ Write.Quiet
      (SubEffect ρ (.adminCancel id)) (Over false) ⟨false, false⟩ d := by
  unfold SubscriptionAdminService.cancel
  rw [effects_bind]
  refine load_effects rfl fun v l _ hmem hid => ?_
  rw [effects_bind]
  refine effects_select fun w hw => ?_
  exact save_effects hρ rfl (hw rfl) hmem ⟨hid, _, rfl⟩ fun _ _ hτ' => hτ'

theorem suspend_effects {id : Id} {d : Db} :
    (SubscriptionAdminService.suspend id).effects ρ Write.Quiet
      (SubEffect ρ (.adminSuspend id)) (Over false) ⟨false, false⟩ d := by
  unfold SubscriptionAdminService.suspend
  rw [effects_bind]
  refine load_effects rfl fun v l _ hmem hid => ?_
  split
  · trivial
  · next hterm =>
    split
    · trivial
    · next hsus =>
      have hst : l.status = .trial ∨ l.status = .active ∨ l.status = .pastDue := by
        cases hl : l.status <;> simp_all
      exact save_effects hρ rfl (hρ.refl v) hmem ⟨hid, hst, rfl⟩ fun _ _ hτ' => hτ'

theorem reactivate_effects {id : Id} {d : Db} :
    (SubscriptionAdminService.reactivate id).effects ρ Write.Quiet
      (SubEffect ρ (.adminReactivate id)) (Over false) ⟨false, false⟩ d := by
  unfold SubscriptionAdminService.reactivate
  rw [effects_bind]
  refine load_effects rfl fun v l _ hmem hid => ?_
  split
  · trivial
  · next hsus =>
    rw [effects_bind]
    refine effects_select fun w hw => ?_
    split
    · trivial
    · exact save_effects hρ rfl (hw rfl) hmem ⟨hid, Decidable.not_not.1 hsus, rfl⟩
        fun _ _ hτ' => hτ'

theorem assignPlan_effects {companyId : Id} {plan : SubscriptionPlan} {contactQuota : Option Int}
    {d : Db} :
    (SubscriptionAdminService.assignPlan config uuid companyId plan contactQuota).effects ρ
      Write.Quiet (SubEffect ρ (.assignPlan companyId plan contactQuota)) (Over false)
      ⟨false, false⟩ d := by
  unfold SubscriptionAdminService.assignPlan
  rw [effects_bind]
  refine effects_select fun v hv => ?_
  split
  · trivial
  · next company hc =>
    have hid : company.id = companyId := Table.key_of_get? hc
    rw [effects_bind]
    refine effects_ofExcept fun quota _ => ?_
    rw [effects_bind]
    refine effects_select fun w hw => ?_
    rw [effects_bind]
    refine effects_select fun w' hw' => ?_
    split
    · next l hl =>
      obtain ⟨hmem, hp⟩ := newest_filter_mem hl
      simp only [Bool.and_eq_true, decide_eq_true_eq] at hp
      exact save_effects hρ rfl (hw' rfl) hmem ⟨hp.1.trans hid, hp.2, quota, rfl⟩
        fun _ _ hτ' => hτ'
    · next hl =>
      refine insert_effects rfl (fun u hu => ⟨w, hρ.trans (hw' rfl) hu, hid, rfl, rfl, rfl,
        ⟨rfl, rfl⟩, ?_⟩)
        fun _ _ hτ' => hτ'
      intro r hr hrc
      have := newest_filter_none hl hr
      simpa [hrc, hid] using this

theorem createCompany_effects {userId : Id} {dto : CreateCompanyDto} {d : Db} :
    (CompanyService.createCompany uuid userId dto).effects ρ Write.Quiet
      (SubEffect ρ (.createCompany userId dto)) (Over false) ⟨false, false⟩ d := by
  unfold CompanyService.createCompany
  rw [effects_bind]
  refine effects_select fun v hv => ?_
  split
  · trivial
  · next user hu =>
    split
    · trivial
    · rw [effects_bind]
      refine effects_select fun v₁ hv₁ => ?_
      split
      · trivial
      · rw [effects_bind]
        refine effects_select fun v₂ hv₂ => ?_
        split
        · trivial
        · rw [effects_bind]
          refine hρ.quiet (quiet_insertUnique (by trivial)) fun _ _ _ => ?_
          rw [effects_bind]
          refine hρ.quiet (quiet_insertUnique (by trivial)) fun _ _ _ => ?_
          rw [effects_bind]
          refine hρ.quiet ?_ fun _ _ _ => ?_
          · split
            · exact quiet_write fun _ x hx => by
                simp only [List.mem_singleton] at hx
                subst hx
                trivial
            · exact quiet_ret _
          · rw [effects_bind]
            refine effects_select fun _ _ => ?_
            rw [effects_bind]
            refine effects_select fun _ _ => ?_
            rw [effects_bind]
            refine effects_select fun _ _ => ?_
            rw [effects_bind]
            refine insert_effects rfl (fun w _ => ⟨w, hρ.refl w, rfl, rfl, rfl, rfl, rfl⟩)
              fun τ' d' hτ' => ?_
            exact hρ.quiet ((quietBilling.log_plain _).bind fun _ => quiet_ret _) fun _ _ _ => hτ'

theorem openConversation_effects {user candidate : Id} {body : String} {d : Db} :
    (ConversationService.openConversation config uuid user candidate body).effects ρ Write.Quiet
      (SubEffect ρ (.openConversation user candidate body)) (Over false) ⟨false, false⟩ d := by
  unfold ConversationService.openConversation
  rw [effects_bind]
  refine hρ.quiet (quiet_assertActiveSubscription config user) fun d₁ companyId _ => ?_
  rw [effects_bind]
  refine effects_select fun v hv => ?_
  split
  · trivial
  · refine effects_transaction rfl (fun e => ?_) ?_
    · unfold ConversationService.onError
      split
      · rw [effects_bind]
        refine effects_select fun _ _ => ?_
        split
        · exact rfl
        · trivial
      · trivial
    · unfold ConversationService.createThread ContactQuotaService.consumeOneContact
      rw [effects_bind, effects_bind]
      refine hρ.quiet (quiet_resolveActiveSubscriptionId companyId) fun w id hw => ?_
      refine effects_query rfl fun u res hu hf => ?_
      split at hf
      · next s hs =>
        split at hf
        · next hlt =>
          cases hf
          refine ⟨.consume rfl hs hlt, ?_⟩
          exact hρ.quiet ((quiet_insertUnique (by trivial)).bind fun _ =>
            (quiet_insertUnique (by trivial)).bind fun _ => quiet_ret _) fun _ _ _ => rfl
        · cases hf
      · cases hf

theorem createCheckoutSession_effects {userId : Id} {plan : SubscriptionPlan} {d : Db} :
    (SubscriptionCheckoutService.createCheckoutSession config userId plan).effects ρ Write.Quiet
      (SubEffect ρ (.createCheckoutSession userId plan)) (Over false) ⟨false, false⟩ d := by
  unfold SubscriptionCheckoutService.createCheckoutSession
  rw [effects_bind]
  refine resolveCompanyId_effects hρ fun d₁ companyId _ => ?_
  rw [effects_bind]
  refine effects_select fun v hv => ?_
  split
  · trivial
  · exact hρ.quiet ((quiet_ofExcept _).bind fun _ => quiet_call _) fun _ _ _ => rfl

/-- Every call changes the subscriptions table as `SubEffect` says, once. -/
theorem program_effects (op : Op) (d : Db) :
    (program config uuid op).effects ρ Write.Quiet (SubEffect ρ op) (Over false)
      ⟨false, false⟩ d := by
  -- the result of the call is wrapped without a statement
  have wrap : ∀ {α : Type} {p : M α} {f : α → Result},
      p.effects ρ Write.Quiet (SubEffect ρ op) (Over false) ⟨false, false⟩ d →
      (p >>= fun a => pure (f a)).effects ρ Write.Quiet (SubEffect ρ op) (Over false)
        ⟨false, false⟩ d := by
    intro α p f h
    rw [effects_bind]
    exact effects_mono h fun _ _ _ h => h
  cases op with
  | clock ms =>
    refine wrap (hρ.quiet (quiet_write fun _ x hx => ?_) fun _ _ _ => rfl)
    simp only [List.mem_singleton] at hx
    subst hx
    trivial
  | createCompany userId dto => exact wrap (createCompany_effects hρ uuid)
  | handleWebhook delivery => exact wrap (handleWebhook_effects hρ config uuid)
  | createCheckoutSession userId plan => exact wrap (createCheckoutSession_effects hρ config)
  | cancelSubscription userId => exact wrap (checkout_cancelSubscription_effects hρ)
  | changePlan userId plan => exact wrap (changePlan_effects hρ config)
  | redeem userId code => exact wrap (redeem_effects hρ config uuid)
  | createTrialCode dto => exact wrap (hρ.quiet (quiet_createTrialCode uuid dto) fun _ _ _ => rfl)
  | revokeTrialCode id => exact wrap (hρ.quiet (quiet_revoke id) fun _ _ _ => rfl)
  | adminCancel id => exact wrap (cancel_effects hρ)
  | adminSuspend id => exact wrap (suspend_effects hρ)
  | adminReactivate id => exact wrap (reactivate_effects hρ)
  | assignPlan companyId plan quota => exact wrap (assignPlan_effects hρ config uuid)
  | openConversation user candidate body => exact wrap (openConversation_effects hρ config uuid)

end

end JobBoard
