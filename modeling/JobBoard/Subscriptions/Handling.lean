import JobBoard.Billing.Deliveries
import JobBoard.Subscriptions.Serial

/-!
# Handling an event alone

A delivery that nobody interferes with commits the writes of one complete run of
`applyEffect`, begun with the event's marker inserted (`handleWebhook_alone`).
What the run of a handler reads, writes and records is said once, by a
`…_yields` lemma of each piece.
-/

set_option autoImplicit false

namespace JobBoard

open Txn Prog PaymentWebhookService

/-! ## The clock -/

/-- The write does not move the clock. -/
def Write.NoTick : Write → Prop
  | .tick _ => False
  | _ => True

theorem noTick_now {ws : List Write} (h : ∀ w ∈ ws, w.NoTick) (d : Db) :
    (store.applyAll d ws).now = d.now := by
  induction ws generalizing d with
  | nil => rfl
  | cons w ws ih =>
    rw [Store.applyAll_cons, ih fun x hx => h x (List.mem_cons_of_mem _ hx)]
    have hw := h w List.mem_cons_self
    cases w <;> first | rfl | exact hw.elim

/-! ## One delivery -/

/-- The body of a delivery's transaction, alone on the database `d`: what it
wrote, and the database with its audit entries and uploads. -/
def HandledAlone (config : Config) (uuid : Id) (event : WebhookEvent) (d : Db)
    (t : List Write × Db) : Prop :=
  markerViolation (marker uuid event) d = none ∧
    (applyEffect config uuid event).Yields store AtOnce
      ([.insertProcessedWebhookEvent (marker uuid event)], d) t ()

/-- Every statement of a handler is permitted, when only its asides are looked at. -/
theorem alonePermits : Permits (fun _ => True) OutsideWrites fun _ => True :=
  .of_outside trivial (fun _ _ => trivial) (fun w hw => ⟨w, rfl, hw⟩) fun _ _ _ => trivial

/-- A delivery that nobody interferes with is its handler, begun with the marker inserted. -/
theorem handleWebhook_rule {config : Config} {uuid : Id} {delivery : Option StripeEvent}
    {L : Rules Db Write Key Error} (hL : ∀ h d d', L.rely h d d' → AtOnce h d d')
    {G : Bool → List Key → Db → List Write → Prop} {err : List (List Write) → Error → Db → Prop}
    {Q : Local Db Write Error → Db → Bool → Prop} {d : Db} (Er : Error → Db → Prop)
    (hparse : ∀ e, StripePaymentProvider.verifyAndParseWebhook delivery = .error e → err [] e d)
    (hmarked : ∀ d', Q ⟨none, []⟩ d' true) (herr : ∀ e d', Er e d' → err [] e d')
    (hfault : ∀ e d', L.fault e → Er e d') (hviolated : ∀ c d', Er (uniqueViolation c) d')
    (hbody : ∀ event H (K : Local Db Write Error → Db → Unit → Prop),
      StripePaymentProvider.verifyAndParseWebhook delivery = .ok event →
      markerViolation (marker uuid event) d = none → (∀ e d', Er e d' → H e d') →
      (∀ ws d', G true [] d' ws → Q ⟨none, [ws]⟩ (store.applyAll d' ws) false →
        K ⟨some (ws, H), []⟩ d' ()) →
      wp store L G err (applyEffect config uuid event) K
        ⟨some ([.insertProcessedWebhookEvent (marker uuid event)], H), []⟩ d) :
    wp store L G err (handleWebhook config uuid delivery) Q ⟨none, []⟩ d := by
  unfold handleWebhook
  cases hev : StripePaymentProvider.verifyAndParseWebhook delivery with
  | error e => exact hparse e hev
  | ok event =>
    have hhandler : ∀ e d', Er e d' → wp store L G err (onError e) Q ⟨none, []⟩ d' := by
      intro e d' he
      unfold onError
      split
      · exact hmarked d'
      · exact herr e d' he
    refine ⟨rfl, fun d₁ hd₁ => ⟨fun e he => herr e d₁ (hfault e d₁ he), ?_⟩⟩
    cases hL _ _ _ hd₁
    rw [wp_bind, wp_bind]
    refine wp_query fun d₂ hd₂ => ?_
    cases hL _ _ _ hd₂
    refine ⟨fun e he => hhandler e d (hfault e d he), fun e he => ?_, fun ws a hok => ?_⟩
    · split at he
      · cases he
        exact hhandler _ d (hviolated _ d)
      · cases he
    · split at hok
      · cases hok
      · next hnone =>
        cases hok
        refine hbody event _ _ hev hnone hhandler fun ws d₃ hG hQ d₄ hd₄ => ?_
        cases hL _ _ _ hd₄
        exact ⟨fun e he => hhandler e d₃ (hfault e d₃ he), hG, hQ⟩

theorem handleWebhook_alone {config : Config} {uuid : Id} {delivery : Option StripeEvent}
    {L : Rules Db Write Key Error} (hL : ∀ h d d', L.rely h d d' → AtOnce h d d')
    {G : Bool → List Key → Db → List Write → Prop} {err : List (List Write) → Error → Db → Prop}
    {Q : Local Db Write Error → Db → Bool → Prop} {d : Db}
    (hG : ∀ k d' ws, OutsideWrites ws → G false k d' ws) (herr : ∀ c e d', err c e d')
    (hmarked : ∀ d', Q ⟨none, []⟩ d' true)
    (hcommit : ∀ event t, StripePaymentProvider.verifyAndParseWebhook delivery = .ok event →
      HandledAlone config uuid event d t →
      G true [] t.2 t.1 ∧ Q ⟨none, [t.1]⟩ (store.applyAll t.2 t.1) false) :
    wp store L G err (handleWebhook config uuid delivery) Q ⟨none, []⟩ d := by
  refine handleWebhook_rule hL (fun _ _ => True) (fun e _ => herr [] e d) hmarked
    (fun e d' _ => herr [] e d') (fun _ _ _ => trivial) (fun _ _ => trivial)
    fun event H K hev hnone hH hK => ?_
  have hplain := alonePermits.applyEffect_plain (fun _ _ => trivial) (fun _ _ => trivial) config
    uuid event
  refine hplain.wp (fun e d' _ => hH e d' trivial) (fun _ _ => trivial)
    (fun k d' ws hws _ => hG k d' ws hws) fun t _ hy => ?_
  obtain ⟨hG, hQ⟩ := hcommit event t hev ⟨hnone, yields_mono hL hy⟩
  exact hK t.1 t.2 hG hQ

/-! ## The pieces of a handler -/

section

variable {s t : List Write × Db}

theorem save_yields {l e a : Subscription} :
    (SubscriptionRepository.save l e).Yields store AtOnce s t a ↔
      a = e ∧ ∃ r, (store.applyAll s.2 s.1).subscription? e.id = some r ∧
        ((t = s ∧ e.overwrite r r = r) ∨ (t = (s.1 ++ [.saveSubscription l e r], s.2) ∧
          e.overwrite r r ≠ r ∧
          (store.applyAll s.2 s.1).subscriptionViolation (e.overwrite r r) = none)) := by
  obtain ⟨ps, d⟩ := s
  unfold SubscriptionRepository.save
  simp only [yields_bind, yields_select]
  constructor
  · rintro ⟨_, _, ⟨_, rfl, rfl, rfl⟩, h⟩
    split at h
    · exact h.elim
    · next r hr =>
      split at h
      · next hsame =>
        obtain ⟨rfl, rfl⟩ := h
        exact ⟨rfl, r, hr, .inl ⟨rfl, hsame⟩⟩
      · next hne =>
        obtain ⟨_, rfl, hviol, rfl, rfl⟩ := yields_insertUnique.1 h
        simp only [hr, Option.bind_some] at hviol
        exact ⟨rfl, r, hr, .inr ⟨rfl, hne, hviol⟩⟩
  · rintro ⟨rfl, r, hr, h⟩
    refine ⟨_, _, ⟨d, rfl, rfl, rfl⟩, ?_⟩
    simp only [hr]
    rcases h with ⟨rfl, hsame⟩ | ⟨rfl, hne, hviol⟩
    · rw [if_pos hsame]
      exact ⟨rfl, rfl⟩
    · rw [if_neg hne, yields_insertUnique]
      exact ⟨d, rfl, by simpa only [hr, Option.bind_some] using hviol, rfl, rfl⟩

theorem log_yields {entry : AuditLog} {b : Unit} :
    (AuditService.log entry).Yields store AtOnce s t b ↔
      t = (s.1, store.applyAll s.2 [.insertAuditLog entry]) := by
  unfold AuditService.log
  rw [yields_outside]
  constructor
  · rintro ⟨_, rfl, rfl⟩
    rfl
  · rintro rfl
    exact ⟨s.2, rfl, rfl⟩

theorem sendToRecruiters_yields {companyId : Id} {b : List Recruiter} :
    (sendToRecruiters companyId).Yields store AtOnce s t b → t = s := by
  unfold sendToRecruiters
  rw [yields_select]
  rintro ⟨_, rfl, rfl, -⟩
  rfl

/-- A piece of a handler that is quiet leaves the subscriptions alone. -/
theorem quiet_yields {α : Type} {p : M α} (hp : p.Quiet Write.Quiet) {b : α}
    (h : p.Yields store AtOnce s t b) :
    SameSubs (store.applyAll s.2 s.1) (store.applyAll t.2 t.1) := by
  have hy : p.Yields store (fun _ => SameSubs) s t b := yields_mono (fun _ d d' he => by
    rw [show d' = d from he]
    exact knows_sameSubs.refl d) h
  obtain ⟨hd, es, ht, hes⟩ := hp.yields (fun _ d => knows_sameSubs.refl d) knows_sameSubs.trans id
    (fun ws _ d hws => sameSubs_quiet hws d) hy
  rw [ht, Store.applyAll_append]
  refine knows_sameSubs.trans (hd.applyAll s.1) (sameSubs_quiet (fun w hw => ?_) _)
  obtain ⟨ws, hws, hw⟩ := List.mem_flatten.1 hw
  exact hes ws hws w hw

/-- `findOne` and the queries that return the newest row, alone. -/
theorem select_yields {α : Type} {f : Db → α} {b : α} :
    (select f : M α).Yields store AtOnce s t b ↔ t = s ∧ b = f (store.applyAll s.2 s.1) := by
  rw [yields_select]
  constructor
  · rintro ⟨_, rfl, rfl, rfl⟩
    exact ⟨rfl, rfl⟩
  · rintro ⟨rfl, rfl⟩
    exact ⟨t.2, rfl, rfl, rfl⟩

end

end JobBoard
