import JobBoard.Subscriptions.Serial

/-!
# The live slot of a company

`LIVE_STATUSES` are the four statuses that hold the single live slot of a
company, the index of the database guards two of them. An activation that finds
no TRIAL or PAST_DUE row inserts a new one, also when the company has a
SUSPENDED row: then two rows are live, and the renewal of one fails once an
admin has reactivated the other (`two_live_rows`). `live_slot` says that this
and stale `save`s are all that goes wrong.
-/

set_option autoImplicit false

namespace JobBoard

open Txn Prog

namespace Subscription

/-- The row holds the live slot of its company. -/
def isLive (s : Subscription) : Bool := s.status ∈ LIVE_STATUSES

theorem isLive_of_index {s : Subscription} (h : s.status.inActiveIndex = true) :
    s.isLive = true := by
  unfold isLive
  cases hs : s.status <;> simp_all [SubscriptionStatus.inActiveIndex, LIVE_STATUSES]

end Subscription

/-- At most one row of a company is live. -/
def Db.OneLive (d : Db) : Prop :=
  ∀ id id' r r', d.subscription? id = some r → d.subscription? id' = some r' →
    r.companyId = r'.companyId → r.isLive = true → r'.isLive = true → id = id'

/-! ## The condition -/

/-- An `INSERT` finds no row of the company that is PAST_DUE or SUSPENDED, and
an `UPDATE` that sets a live status finds a live row. -/
def keepsSlot (d : Db) : Write → Bool
  | .insertSubscription s => d.subscriptions.rows.all fun r =>
    r.companyId ≠ s.companyId || (r.status ≠ .pastDue && r.status ≠ .suspended)
  | .saveSubscription l e r => e.status = r.status || !e.isLive ||
    (d.subscription? l.id).all (·.isLive)
  | _ => true

/-- The runs in which all writes keep the slot. -/
def liveSlotRuns : Runs Db Write Op :=
  ⟨fun _ _ => true, fun _ d ws => ws.all (keepsSlot d), false⟩

theorem keepsSlot_insert {op : Op} {d : Db} {s : Subscription} :
    liveSlotRuns.adm op d [.insertSubscription s] = true ↔
      ∀ id r, d.subscription? id = some r → r.companyId = s.companyId →
        r.status ≠ .pastDue ∧ r.status ≠ .suspended := by
  simp only [liveSlotRuns, List.all_cons, List.all_nil, Bool.and_true, keepsSlot, List.all_eq_true,
    Bool.or_eq_true, Bool.and_eq_true, decide_eq_true_eq]
  constructor
  · intro h id r hr hc
    rcases h r (Table.mem_of_get? hr) with h | h
    · exact absurd hc h
    · exact h
  · intro h r hr
    by_cases hc : r.companyId = s.companyId
    · exact .inr (h r.id r (Table.get?_of_mem hr) hc)
    · exact .inl hc

theorem keepsSlot_save {op : Op} {d : Db} {l e r row : Subscription}
    (h : liveSlotRuns.adm op d [.saveSubscription l e r] = true) (hne : e.status ≠ r.status)
    (hlive : e.isLive = true) (hrow : d.subscription? l.id = some row) : row.isLive = true := by
  simpa [liveSlotRuns, keepsSlot, hne, hlive, hrow] using h

/-! ## One effect -/

section

variable {op : Op} {d : Db} {es : List Write}

/-- A live row after an effect was live before, or has just been inserted. -/
theorem RowStep.live {row row' : Subscription} (h : RowStep op d es row row')
    (hadm : liveSlotRuns.adm op d es = true) (hrow : d.subscription? row.id = some row)
    (hlive : row'.isLive = true) : row.isLive = true := by
  cases h with
  | same => exact hlive
  | @save l e r hes hl hc hs =>
    subst hes
    unfold Subscription.isLive at hlive ⊢
    change decide (setColumn e.status r.status row.status ∈ LIVE_STATUSES) = true at hlive
    rcases setColumn_eq e.status r.status row.status with h | ⟨h, hne⟩
    · rw [h] at hlive
      exact hlive
    · rw [h] at hlive
      exact keepsSlot_save hadm hne hlive (hl ▸ hrow)
  | consume => exact hlive

theorem insert_finds_slot {s : Subscription} (hs : s.status.inActiveIndex = true)
    (hunique : d.insertSubscriptionViolation s = none)
    (hadm : liveSlotRuns.adm op d [.insertSubscription s] = true) {id : Id} {r : Subscription}
    (hr : d.subscription? id = some r) (hc : r.companyId = s.companyId) : r.isLive = false := by
  obtain ⟨hnone, hviol⟩ := insertViolation_none hunique
  have hid : r.id ≠ s.id := by
    intro h
    rw [← Table.key_of_get? hr, h, hnone] at hr
    cases hr
  have hindex := subscriptionViolation_none.1 hviol hs r (Table.mem_of_get? hr) hid hc
  obtain ⟨hp, hsus⟩ := keepsSlot_insert.1 hadm id r hr hc
  unfold Subscription.isLive
  cases hst : r.status <;> simp_all [SubscriptionStatus.inActiveIndex, LIVE_STATUSES]

theorem oneLive_step (hd : d.OneLive) (h : Effect liveSlotRuns op d es) :
    (store.applyAll d es).OneLive := by
  obtain ⟨heff, hadm⟩ := h
  -- where a live row of the new table comes from
  have before : ∀ id r', (store.applyAll d es).subscription? id = some r' → r'.isLive = true →
      (∃ r, d.subscription? id = some r ∧ r.companyId = r'.companyId ∧ r.isLive = true) ∨
      (es = [.insertSubscription r'] ∧ r'.id = id ∧
        ∀ id r, d.subscription? id = some r → r.companyId = r'.companyId → r.isLive = false) := by
    intro id r' hr' hlive
    cases hrow : d.subscription? id with
    | none =>
      obtain ⟨rfl, hunique, v, -, hins⟩ := heff.new hrow hr'
      refine .inr ⟨rfl, Table.key_of_get? hr', fun id r hr hc => ?_⟩
      exact insert_finds_slot hins.inActiveIndex hunique hadm hr hc
    | some row =>
      obtain ⟨row', hrow', hstep⟩ := heff.row hrow
      rw [hr'] at hrow'
      cases hrow'
      have hid : d.subscription? row.id = some row := by rw [Table.key_of_get? hrow]; exact hrow
      exact .inl ⟨row, rfl, hstep.companyId.symm, hstep.live hadm hid hlive⟩
  intro id id' r r' hr hr' hc hl hl'
  rcases before id r hr hl with ⟨x, hx, hxc, hxl⟩ | ⟨he, hid, hnone⟩
  · rcases before id' r' hr' hl' with ⟨y, hy, hyc, hyl⟩ | ⟨-, -, hnone'⟩
    · exact hd id id' x y hx hy (by rw [hxc, hyc, hc]) hxl hyl
    · rw [hnone' id x hx (hxc.trans hc)] at hxl
      cases hxl
  · rcases before id' r' hr' hl' with ⟨y, hy, hyc, hyl⟩ | ⟨he', hid', -⟩
    · rw [hnone id' y hy (hyc.trans hc.symm)] at hyl
      cases hyl
    · rw [he] at he'
      cases he'
      exact hid.symm.trans hid'

end

/-! ## Interleaved calls -/

/-- Under the index entry of a company, no row of it becomes live. -/
def LiveRely (h : List Key) (d d' : Db) : Prop :=
  ∀ c, .activeIndex c ∈ h → ∀ id r', d'.subscription? id = some r' → r'.companyId = c →
    r'.isLive = true → ∃ r, d.subscription? id = some r ∧ r.isLive = true

theorem liveRely_reliable : Reliable (Effect liveSlotRuns) Db.OneLive LiveRely where
  of_eq := by
    intro h d d' he c _ id r' hr' _ hl
    rw [Db.subscription?, he] at hr'
    exact ⟨r', hr', hl⟩
  trans := by
    intro h a b c hr hab hbc co hk id r'' hr'' hco hl
    obtain ⟨r', hr', hl'⟩ := hbc co hk id r'' hr'' hco hl
    obtain ⟨x, hx, hxc⟩ := hr.persist id r' hr'
    rw [hr''] at hx
    cases hx
    exact hab co hk id r' hr' (hxc ▸ hco) hl'
  mono := fun hx hk c hc => hx c (hk _ hc)
  step := by
    intro op d es ks _ heffect hks c hc id r' hr' hco hl
    obtain ⟨heff, hadm⟩ := heffect
    cases hrow : d.subscription? id with
    | none =>
      obtain ⟨rfl, -, v, -, hins⟩ := heff.new hrow hr'
      refine absurd ?_ (hks _ hc)
      simp [Store.locks, store, Write.keys, hins.inActiveIndex, hco]
    | some row =>
      obtain ⟨row', hrow', hstep⟩ := heff.row hrow
      rw [hr'] at hrow'
      cases hrow'
      have hid : d.subscription? row.id = some row := by rw [Table.key_of_get? hrow]; exact hrow
      exact ⟨row, rfl, hstep.live hadm hid hl⟩

theorem liveSlot_interleavable : Interleavable liveSlotRuns Db.OneLive LiveRely where
  adm := by
    intro op d d' es hes hr hx h
    cases hes with
    | @save l e r v u hv hl hsaves hu hr' hunique =>
      have hlock : Key.row "subscriptions" l.id ∈ store.locks [.saveSubscription l e r] := by
        simp [Store.locks, store, Write.keys, hsaves.id_eq.1]
      simp only [liveSlotRuns, List.all_cons, keepsSlot, hr.row l.id hlock] at h ⊢
      exact h
    | @insert s v hv hs hunique =>
      refine keepsSlot_insert.2 fun id r' hr' hc => ?_
      -- the row would be live, and so would have been at the `INSERT`
      have hlock : Key.activeIndex s.companyId ∈ store.locks [.insertSubscription s] := by
        simp [Store.locks, store, Write.keys, hs.inActiveIndex]
      by_contra hbad
      have hlive : r'.isLive = true := by
        unfold Subscription.isLive
        cases hst : r'.status <;> simp_all [LIVE_STATUSES]
      obtain ⟨r, hr₀, hl₀⟩ := hx _ hlock id r' hr' hc hlive
      obtain ⟨y, hy, hyc⟩ := hr.persist id r hr₀
      rw [hr'] at hy
      cases hy
      have := insert_finds_slot hs.inActiveIndex hunique h hr₀ (hyc.symm.trans hc)
      rw [this] at hl₀
      cases hl₀
    | consume => rfl
  inv := by
    intro d d' he h id id' r r' hr hr'
    rw [Db.subscription?, he] at hr hr'
    exact h id id' r r' hr hr'
  step := oneLive_step
  more := liveRely_reliable

/-- With one live row for each company, a live row may take any status. -/
theorem Db.OneLive.noViolation {d : Db} (h : d.OneLive) {row s : Subscription}
    (hrow : d.subscription? s.id = some row) (hlive : row.isLive = true)
    (hc : s.companyId = row.companyId) : d.subscriptionViolation s = none := by
  rw [subscriptionViolation_none]
  intro _ r hr hid hrc
  by_contra hact
  have hact : r.status.inActiveIndex = true := by simpa using hact
  exact hid (h r.id s.id r row (Table.get?_of_mem hr) hrow (hrc.trans hc)
    (Subscription.isLive_of_index hact) hlive)

/-! ## Calls one at a time -/

theorem liveSlot_serializable : Serializable liveSlotRuns Db.OneLive where
  adm := by
    intro op d d' es hd h
    simp only [liveSlotRuns, List.all_eq_true] at h ⊢
    intro w hw
    have := h w hw
    cases w <;> first | exact this | simpa only [keepsSlot, hd.subscription?] using this |
      (unfold SameSubs at hd; simpa only [keepsSlot, hd] using this)
  inv := fun hd h => liveSlot_interleavable.inv hd h
  step := fun h hP => oneLive_step h ⟨hP.1.interleaved, hP.2⟩

section

variable {L : Rules Db Write Key Error} {err : List (List Write) → Error → Db → Prop}
  {σ : Local Db Write Error} {d : Db} (hL : ∀ h d d', L.rely h d d' → SameSubs d d')
  (hfault : ∀ e, L.fault e → e.isSlotViolation = false)

/-- The statements of billing that leave subscriptions alone do not meet the index. -/
theorem calmBilling : Permits (fun ws => ∀ w ∈ ws, w.Quiet) (fun ws => ∀ w ∈ ws, w.Quiet)
    fun e => e.isSlotViolation = false :=
  { quietBilling with err := fun _ _ h => h }

/-- All errors but a violation of the index may leave the program. -/
def MayFail (err : List (List Write) → Error → Db → Prop) (σ : Local Db Write Error) : Prop :=
  ∀ e d, e.isSlotViolation = false → σ.fails err e d

theorem MayFail.same (h : MayFail err σ) {τ : Local Db Write Error} (hτ : σ.SameHandler τ) :
    MayFail err τ :=
  fun e d he => hτ.fails (h e d he)

include hL hfault

/-- The `save` of a live row does not meet the index. -/
theorem save_answers (herr : MayFail err σ)
    {l e : Subscription} (hl : (store.view σ d).subscription? l.id = some l)
    (hid : e.id = l.id) (hlive : l.isLive = true)
    (hone : (store.view σ d).OneLive) {Q : Local Db Write Error → Db → Subscription → Prop}
    (hQ : ∀ τ d', σ.SameHandler τ → Q τ d' e) :
    Answers store L err (SubscriptionRepository.save l e) Q σ d := by
  unfold SubscriptionRepository.save Answers
  rw [wp_bind]
  refine answers_select fun d₁ hr₁ => ⟨fun e he => herr e d₁ (hfault e he), fun τ d₂ hτ hv => ?_⟩
  have h₁ : SameSubs (store.view σ d) (store.view σ d₁) := SameSubs.applyAll (hL _ _ _ hr₁) _
  rw [hid, h₁.subscription?, hl]
  show Answers store L err (if e.overwrite l l = l then _ else _) Q τ d₂
  split
  · exact hQ τ d₂ hτ
  · refine answers_query fun d₃ hr₃ => ⟨fun e he => hτ.fails (herr e d₃ (hfault e he)), ?_, ?_⟩
    · have h₃ : SameSubs (store.view σ d) (store.view τ d₃) := by
        refine knows_sameSubs.trans h₁ ?_
        rw [← hv]
        exact SameSubs.applyAll (hL _ _ _ hr₃) _
      intro e' d₄ he'
      have hnone := hone.noViolation (s := e.overwrite l l)
        (by rw [Subscription.overwrite_id]; exact hl) hlive (Subscription.overwrite_companyId _ _ _)
      simp only [h₃.subscription?, hl, Option.bind_some, h₃.violation, hnone] at he'
      cases he'
    · intro ws a υ d₄ hok hυ _
      split at hok
      · cases hok
      · cases hok
        exact hQ υ d₄ (hτ.trans hυ)

/-- The `INSERT` of a row does not meet the index, when no row of its company is live. -/
theorem insert_answers (herr : MayFail err σ) {s : Subscription}
    (hnone : ∀ r ∈ (store.view σ d).subscriptions.rows, r.companyId = s.companyId →
      r.isLive = false) {Q : Local Db Write Error → Db → Subscription → Prop}
    (hQ : ∀ τ d', σ.SameHandler τ → Q τ d' s) :
    Answers store L err (SubscriptionRepository.insert s) Q σ d := by
  refine answers_query fun d₁ hr => ⟨fun e he => herr e d₁ (hfault e he), ?_, ?_⟩
  · have h₁ : SameSubs (store.view σ d) (store.view σ d₁) := SameSubs.applyAll (hL _ _ _ hr) _
    have hviol : (store.view σ d₁).subscriptionViolation s = none := by
      rw [h₁.violation, subscriptionViolation_none]
      intro _ r hr _ hc
      by_contra hact
      have := Subscription.isLive_of_index (by simpa using hact)
      rw [hnone r hr hc] at this
      cases this
    intro e d₂ he
    simp only [Db.insertSubscriptionViolation, hviol] at he
    split at he
    · next c hc =>
      cases he
      split at hc
      · cases hc
        exact herr _ _ (by decide)
      · cases hc
    · cases he
  · intro ws a τ d₂ hok hτ _
    split at hok
    · cases hok
    · cases hok
      exact hQ τ d₂ hτ

theorem calm_select {β : Type} {f : Db → β} {Q : Local Db Write Error → Db → β → Prop}
    (herr : MayFail err σ)
    (hQ : ∀ v τ d', SameSubs (store.view σ d) v → σ.SameHandler τ →
      SameSubs (store.view σ d) (store.view τ d') → Q τ d' (f v)) :
    Answers store L err (select f) Q σ d := by
  refine answers_select fun d₁ hr => ⟨fun e he => herr e d₁ (hfault e he), fun τ d₂ hτ hv => ?_⟩
  have h₁ : SameSubs (store.view σ d) (store.view σ d₁) := SameSubs.applyAll (hL _ _ _ hr) _
  exact hQ _ τ d₂ h₁ hτ (by rw [hv]; exact h₁)

theorem renewSubscription_answers (config : Config) (uuid : Id) (e sub : String)
    (herr : MayFail err σ) (hone : (store.view σ d).OneLive)
    {Q : Local Db Write Error → Db → Unit → Prop} (hQ : ∀ τ d' b, σ.SameHandler τ → Q τ d' b) :
    Answers store L err (PaymentWebhookService.renewSubscription config uuid e sub) Q σ d := by
  unfold PaymentWebhookService.renewSubscription Answers
  rw [wp_bind]
  refine calm_select hL hfault herr fun v τ d₁ hv hτ hd₁ => ?_
  split
  · exact herr.same hτ _ _ rfl
  · next l hl =>
    have hmem := List.mem_of_find?_eq_some hl
    have hp := List.find?_some hl
    simp only [Bool.and_eq_true, Bool.or_eq_true, decide_eq_true_eq] at hp
    have hlive : l.isLive = true := by
      unfold Subscription.isLive
      rcases hp.2 with h | h <;> simp [h, LIVE_STATUSES]
    have hassert : (ofExcept (if decide (l.status = .pastDue) = true then
        assertValidSubscriptionTransition l.status .active else .ok ()) : M Unit).Plain
        (fun ws => ∀ w ∈ ws, w.Quiet) (fun ws => ∀ w ∈ ws, w.Quiet)
        fun e => e.isSlotViolation = false := by
      split
      · exact calmBilling.assertTransition_plain _ _
      · trivial
    dsimp only
    rw [wp_bind]
    refine calm_answers hL hfault (herr.same hτ) hassert fun υ d₂ _ hυ hd₂ => ?_
    rw [wp_bind]
    refine calm_select hL hfault (herr.same (hτ.trans hυ)) fun v₃ υ₃ d₃ _ hυ₃ hd₃ => ?_
    rw [wp_bind]
    have hsame := knows_sameSubs.trans hd₁ (knows_sameSubs.trans hd₂ hd₃)
    have hσ₃ := (hτ.trans hυ).trans hυ₃
    have hid : (PaymentWebhookService.renewed l v₃.now).id = l.id := rfl
    refine save_answers hL hfault (herr.same hσ₃) ?_ hid hlive
      (liveSlot_interleavable.inv hsame hone) fun υ₄ d₄ hυ₄ => ?_
    · rw [hsame.subscription?, ← hv.subscription?]
      exact Table.get?_of_mem hmem
    · refine calm_answers hL hfault (herr.same (hσ₃.trans hυ₄)) ?_
        fun υ₅ d₅ b hυ₅ _ => hQ υ₅ d₅ b ((hσ₃.trans hυ₄).trans hυ₅)
      refine (calmBilling.log_plain _).bind fun _ => Plain.bind ?_ fun _ =>
        (calmBilling.findCompanyOrFail_plain _).bind fun _ =>
        (calmBilling.emit_plain _ _ _).bind fun _ => plain_ret _
      split
      · exact calmBilling.sendToRecruiters_plain _
      · exact plain_ret _

theorem handleRenewal_answers (config : Config) (uuid : Id) {delivery : Option StripeEvent}
    {e sub : String}
    (hev : StripePaymentProvider.verifyAndParseWebhook delivery = .ok (.subscriptionRenewed e sub))
    (herr : ∀ c e d, e.isSlotViolation = false → err c e d) (hone : d.OneLive)
    {Q : Local Db Write Error → Db → Bool → Prop} (hQ : ∀ c d' b, Q ⟨none, c⟩ d' b) :
    Answers store L err (PaymentWebhookService.handleWebhook config uuid delivery) Q ⟨none, []⟩ d := by
  unfold PaymentWebhookService.handleWebhook
  rw [hev]
  refine answers_transaction hfault (herr []) (fun e' d' he' => ?_) (fun b c d' => hQ c d' false)
    fun {d₁ σ Q'} hr hpending herrσ hQ' => ?_
  · unfold PaymentWebhookService.onError
    split
    · exact hQ [] d' true
    · exact herr [] e' d' he'
  · unfold Answers
    rw [wp_bind]
    have hmarker : (PaymentWebhookService.insertMarker
        (PaymentWebhookService.marker uuid (.subscriptionRenewed e sub))).Plain
        (fun ws => ∀ w ∈ ws, w.Quiet) (fun ws => ∀ w ∈ ws, w.Quiet)
        fun e => e.isSlotViolation = false := by
      refine plain_insertUnique (by simp) (by simp [Write.Quiet]) fun db c hc => ?_
      unfold PaymentWebhookService.markerViolation at hc
      split at hc
      · cases hc
        decide
      · split at hc
        · cases hc
          decide
        · cases hc
    refine calm_answers hL hfault herrσ hmarker fun τ d₂ _ hτ hd₂ => ?_
    refine renewSubscription_answers hL hfault config uuid e sub
      (MayFail.same herrσ hτ) ?_ fun υ d₃ b hυ => hQ' υ d₃ b (hτ.trans hυ)
    refine liveSlot_interleavable.inv (knows_sameSubs.trans ?_ hd₂) hone
    rw [Store.view, hpending]
    exact hL _ _ _ hr

theorem reactivate_answers (id : Id) (herr : MayFail err σ) (hone : (store.view σ d).OneLive)
    {Q : Local Db Write Error → Db → Subscription → Prop} (hQ : ∀ τ d' s, σ.SameHandler τ → Q τ d' s) :
    Answers store L err (SubscriptionAdminService.reactivate id) Q σ d := by
  unfold SubscriptionAdminService.reactivate SubscriptionAdminService.load Answers
  rw [wp_bind, wp_bind]
  refine calm_select hL hfault herr fun v τ d₁ hv hτ hd₁ => ?_
  split
  · exact herr.same hτ _ _ rfl
  · next l hl =>
    show Answers store L err (if l.status ≠ .suspended then _ else _) Q τ d₁
    split
    · exact herr.same hτ _ _ rfl
    · next hsus =>
      have hsus : l.status = .suspended := by simpa using hsus
      have hlive : l.isLive = true := by simp [Subscription.isLive, hsus, LIVE_STATUSES]
      unfold Answers
      rw [wp_bind]
      refine calm_select hL hfault (herr.same hτ) fun v₂ τ₂ d₂ _ hτ₂ hd₂ => ?_
      split
      · exact herr.same (hτ.trans hτ₂) _ _ rfl
      · have hsame := knows_sameSubs.trans hd₁ hd₂
        have hid : ({ l with status := .active } : Subscription).id = l.id := rfl
        refine save_answers hL hfault (herr.same (hτ.trans hτ₂)) ?_ hid hlive
          (liveSlot_interleavable.inv hsame hone) fun τ₃ d₃ hτ₃ => ?_
        · rw [hsame.subscription?, ← hv.subscription?, Table.key_of_get? hl]
          exact hl
        · exact hQ τ₃ d₃ _ ((hτ.trans hτ₂).trans hτ₃)

theorem assignPlan_answers (config : Config) (uuid companyId : Id) (plan : SubscriptionPlan)
    (contactQuota : Option Int) (herr : MayFail err σ) (hone : (store.view σ d).OneLive)
    {Q : Local Db Write Error → Db → Subscription → Prop} (hQ : ∀ τ d' s, σ.SameHandler τ → Q τ d' s) :
    Answers store L err
      (SubscriptionAdminService.assignPlan config uuid companyId plan contactQuota) Q σ d := by
  unfold SubscriptionAdminService.assignPlan Answers
  rw [wp_bind]
  refine calm_select hL hfault herr fun v τ d₁ hv hτ hd₁ => ?_
  split
  · exact herr.same hτ _ _ rfl
  · next company hcompany =>
    rw [wp_bind]
    have hquota : (ofExcept (SubscriptionAdminService.resolveQuota config plan contactQuota) :
        M Int).Plain (fun ws => ∀ w ∈ ws, w.Quiet) (fun ws => ∀ w ∈ ws, w.Quiet)
        fun e => e.isSlotViolation = false := by
      unfold SubscriptionAdminService.resolveQuota
      split
      · trivial
      · split
        · exact plain_ofExcept fun e he => by cases he; rfl
        · exact calmBilling.ofQuota_plain plan config
    refine calm_answers hL hfault (herr.same hτ) hquota fun τ₂ d₂ quota hτ₂ hd₂ => ?_
    rw [wp_bind]
    refine calm_select hL hfault (herr.same (hτ.trans hτ₂)) fun v₃ τ₃ d₃ hv₃ hτ₃ hd₃ => ?_
    rw [wp_bind]
    have hσ₃ := (hτ.trans hτ₂).trans hτ₃
    have h₃ := knows_sameSubs.trans hd₁ (knows_sameSubs.trans hd₂ hd₃)
    refine calm_select hL hfault (herr.same hσ₃) fun time τ₄ d₄ _ hτ₄ hd₄ => ?_
    have hσ₄ := hσ₃.trans hτ₄
    have hsame := knows_sameSubs.trans h₃ hd₄
    have hread : SameSubs v₃ (store.view τ₄ d₄) :=
      knows_sameSubs.trans hv₃.symm (knows_sameSubs.trans hd₃ hd₄)
    split
    · next l hl =>
      obtain ⟨hmem, hp⟩ := newest_filter_mem hl
      simp only [Bool.and_eq_true, decide_eq_true_eq] at hp
      refine save_answers hL hfault (herr.same hσ₄) ?_ (by rfl) (by simpa [Subscription.isLive] using hp.2)
        (liveSlot_interleavable.inv hsame hone) fun τ₅ d₅ hτ₅ => hQ τ₅ d₅ _ (hσ₄.trans hτ₅)
      rw [hread.subscription?]
      exact Table.get?_of_mem hmem
    · next hl =>
      refine insert_answers hL hfault (herr.same hσ₄) ?_ fun τ₅ d₅ hτ₅ => hQ τ₅ d₅ _ (hσ₄.trans hτ₅)
      intro r hr hc
      unfold SameSubs at hread
      rw [hread] at hr
      have := newest_filter_none hl hr
      simp only [Subscription.isLive] at hc ⊢
      simpa [hc] using this

end

/-! ## Runs -/

/-- The operation makes the live row of a company ACTIVE: a renewal, a
reactivation or an assignment. -/
def Op.fillsSlot : Op → Bool
  | .handleWebhook delivery =>
    match StripePaymentProvider.verifyAndParseWebhook delivery with
    | .ok (.subscriptionRenewed ..) => true
    | _ => false
  | .adminReactivate _ => true
  | .assignPlan .. => true
  | _ => false

/-- The errors that a call may end with. -/
def slotErrors (op : Op) (e : Error) : Prop := op.fillsSlot = true → e.isSlotViolation = false

theorem liveSlot_answers (config : Config) :
    Sound (system config) (serially liveSlotRuns).alone Db.OneLive fun _ op => (Spec.effect store Write.Quiet (SerialEffect liveSlotRuns op)).answers (slotErrors op)
        fun _ => True := by
  refine (serial_sound config liveSlot_serializable).answers rfl fun {i op d} hone _ => ?_
  by_cases hop : op.fillsSlot = true
  · have hL : ∀ h d d', ((system config).rules (serially liveSlotRuns).alone op).rely h d d' →
        SameSubs d d' := fun _ _ _ h => congrArg _ h
    have hfault : ∀ e, ((system config).rules (serially liveSlotRuns).alone op).fault e →
        e.isSlotViolation = false := fun _ he => isFault_not_unique he _
    have herr : ∀ c, MayFail (fun _ e _ => slotErrors op e) ⟨none, c⟩ := fun _ _ _ he _ => he
    cases op with
    | handleWebhook delivery =>
      simp only [Op.fillsSlot] at hop
      split at hop
      · next e sub hev =>
        show wp store _ _ _ (PaymentWebhookService.handleWebhook config i delivery >>= _) _ _ d
        rw [wp_bind]
        exact handleRenewal_answers hL hfault config i hev herr hone fun _ _ _ => ⟨rfl, trivial⟩
      · cases hop
    | adminReactivate id =>
      show wp store _ _ _ (SubscriptionAdminService.reactivate id >>= _) _ _ d
      rw [wp_bind]
      exact reactivate_answers hL hfault id (herr _) hone fun τ _ _ hτ => ⟨hτ.tx_none, trivial⟩
    | assignPlan companyId plan quota =>
      show wp store _ _ _ (SubscriptionAdminService.assignPlan config i companyId plan quota >>= _)
        _ _ d
      rw [wp_bind]
      exact assignPlan_answers hL hfault config i companyId plan quota (herr _) hone
        fun τ _ _ hτ => ⟨hτ.tx_none, trivial⟩
    | _ => cases hop
  · exact program_answers config i op (fun _ _ _ h => absurd h hop) (fun _ _ _ => ⟨rfl, trivial⟩) d

/-- The slot of each company is kept in the runs `R`. -/
structure SlotKept (config : Config) (R : Runs Db Write Op) (d₀ : Db) : Prop where
  one : ∀ s, (system config).Reach R d₀ s → s.db.OneLive
  /-- An `UPDATE` of a live row never meets the index, whatever status it sets. -/
  update : ∀ s, (system config).Reach R d₀ s → ∀ id e r row,
    s.db.subscription? id = some row → row.isLive = true →
    s.db.subscriptionViolation (Subscription.overwrite e r row) = none
  /-- One at a time, renewals, reactivations and assignments never fail on the index. -/
  calls : ∀ s, (system config).Reach (oneAtATime R) d₀ s → ∀ i op e, s.ops[i]? = some op →
    op.fillsSlot = true → s.call i = .done (.error e) → e.isSlotViolation = false

theorem oneLive_of_empty {d : Db} (h : d.subscriptions = ∅) : d.OneLive := by
  intro id id' r r' hr
  rw [Db.subscription?, h] at hr
  cases hr

/-- From a table without rows, in all runs in which no subscription is inserted
besides a PAST_DUE or SUSPENDED one and no terminal row is revived, each company
has one live row and its renewal, reactivation and assignment do not fail. -/
theorem live_slot (config : Config) (d₀ : Db) (h₀ : d₀.subscriptions = ∅) :
    SlotKept config liveSlotRuns d₀ where
  one := fun s hs => ((interleaved_sound config liveSlot_interleavable).good
    (oneLive_of_empty h₀) hs).inv
  update := by
    intro s hs id e r row hrow hlive
    have hone := ((interleaved_sound config liveSlot_interleavable).good (oneLive_of_empty h₀) hs).inv
    have hsame : s.db.subscription? (e.overwrite r row).id = some row := by
      rw [Subscription.overwrite_id, Table.key_of_get? hrow]
      exact hrow
    exact hone.noViolation hsame hlive (Subscription.overwrite_companyId _ _ _)
  calls := by
    intro s hs i op e hop hfills hcall
    have hgood := (liveSlot_answers config).good (oneLive_of_empty h₀) hs
    have := hgood.call hop
    rw [hcall] at this
    exact this.2 hfills

/-! ## A second live row -/

/-- The company pays, is suspended, pays again through a second session (whose
activation inserts a second live row), falls past due and is reactivated: the
renewal of the second subscription fails. -/
def secondSlotRun : List (Label Error Op) :=
  alone 0 (.createCompany 300 ⟨"Atlas", "001234567000089", none⟩) 12 ++
  alone 1 (.handleWebhook (some
    (checkoutEvent "evt_1" "checkout.session.completed" "cs_1" "sub_1"))) 18 ++
  alone 2 (.adminSuspend 0) 4 ++
  alone 3 (.createCheckoutSession 300 .starter) 4 ++
  alone 4 (.handleWebhook (some
    (checkoutEvent "evt_2" "checkout.session.completed" "cs_2" "sub_2"))) 17 ++
  alone 5 (.handleWebhook (some
    (checkoutEvent "evt_3" "checkout.session.expired" "cs_3" "sub_3"))) 8 ++
  alone 6 (.adminReactivate 0) 5 ++
  alone 7 (.handleWebhook (some (renewalInvoice "evt_4" "in_1" "sub_2"))) 8

/-- The company and the status of a row. -/
def slotOf (s : RunState) (id : Id) : Option (Id × SubscriptionStatus) :=
  (s.db.subscription? id).map fun r => (r.companyId, r.status)

/-- Even one at a time, the calls leave two live rows, and a renewal fails on the index. -/
theorem two_live_rows :
    (¬ ∀ (config : Config) (d₀ : Db) (s : RunState), d₀.subscriptions = ∅ →
      (system config).Reach (oneAtATime .all) d₀ s → s.db.OneLive) ∧
    ¬ ∀ (config : Config) (d₀ : Db), d₀.subscriptions = ∅ → SlotKept config .all d₀ := by
  have hrun : ((system .default).runLabels (oneAtATime .all) (State.init verifiedUser)
      secondSlotRun).map (fun s => (slotOf s 0, slotOf s 4, thrown s 7,
        s.ops[7]?.map Op.fillsSlot)) =
      some (some (0, .active), some (0, .pastDue),
        some (uniqueViolation SUBSCRIPTION_ACTIVE_UNIQUE_CONSTRAINT), some true) := by
    decide
  obtain ⟨s, hs, hst⟩ := System.reach_of_run hrun
  simp only [Prod.mk.injEq, slotOf, Option.map_eq_some_iff] at hst
  obtain ⟨⟨r, hr, hrc, hra⟩, ⟨r', hr', hrc', hrp⟩, he, op, hop, hfills⟩ := hst
  constructor
  · intro h
    have hlive : r.isLive = true := by simp [Subscription.isLive, hra, LIVE_STATUSES]
    have hlive' : r'.isLive = true := by simp [Subscription.isLive, hrp, LIVE_STATUSES]
    have := h .default verifiedUser s rfl hs 0 4 r r' hr hr' (hrc.trans hrc'.symm) hlive hlive'
    cases this
  · intro h
    have := (h .default verifiedUser rfl).calls s hs 7 op _ hop hfills (thrown_eq he)
    exact absurd this (by decide)

/-- The condition admits a company that pays, is suspended, and is reactivated. -/
theorem live_slot_reactivated :
    (∃ s, (system .default).Reach (oneAtATime liveSlotRuns) verifiedUser s ∧
      slotOf s 0 = some (0, .active)) ∧ SlotKept .default liveSlotRuns verifiedUser := by
  have hrun : ((system .default).runLabels (oneAtATime liveSlotRuns) (State.init verifiedUser)
      (alone 0 (.createCompany 300 ⟨"Atlas", "001234567000089", none⟩) 12 ++
        alone 1 (.handleWebhook (some
          (checkoutEvent "evt_1" "checkout.session.completed" "cs_1" "sub_1"))) 18 ++
        alone 2 (.adminSuspend 0) 4 ++ alone 3 (.adminReactivate 0) 5)).map (slotOf · 0) =
      some (some (0, .active)) := by
    decide
  obtain ⟨s, hs, hst⟩ := System.reach_of_run hrun
  exact ⟨⟨s, hs, hst⟩, live_slot .default verifiedUser rfl⟩

end JobBoard
