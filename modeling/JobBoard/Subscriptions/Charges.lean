import JobBoard.Lib.History
import JobBoard.Subscriptions.Bills

/-!
# Invoices and charges

Stripe charges the price it was told last, and the invoice is computed from the plan of the row.
An admin gives a billed row another plan without telling Stripe (`plan_assigned`), a `changePlan`
that fails after its call to Stripe leaves the row behind, and the currency of an invoice is
`MAD` whatever Stripe was told. `invoices_charged` says that one at a time, nothing else brings
the two apart.
-/

set_option autoImplicit false

namespace JobBoard

open Txn Prog StripePaymentProvider SubscriptionCheckoutService

/-! ## The condition -/

/-- The write gives a subscription another price at Stripe. -/
def Write.changesPrice : Write → Bool
  | .callStripe (.changeSubscriptionPlan ..) => true
  | _ => false

def Write.savesRow : Write → Bool
  | .saveSubscription .. => true
  | _ => false

/-- The call has told Stripe another plan, and failed before it could save it. -/
def lostPlanChange (s : RunState) (i : Nat) : Bool :=
  (thrown s i).isSome && s.log.any (fun g => g.call == i && g.writes.any (·.changesPrice)) &&
    !s.log.any fun g => g.call == i && g.writes.any (·.savesRow)

/-- Stripe charges a plan that the row has not got. -/
def planLost (s : RunState) : Bool := (List.range s.ops.length).any (lostPlanChange s)

section

variable {s t : RunState} {op : Op} {gs : Published Write}

theorem tagged_any {n i : Nat} (h : i ≠ n) (p : Write → Bool) :
    ((tagged n gs).any fun g => g.call == i && g.writes.any p) = false := by
  simp [tagged, Ne.symm h]

/-- What is lost stays lost, while another call goes on. -/
theorem planLost_grows (hops : s.ops = t.ops ++ [op])
    (hothers : ∀ j, j ≠ t.ops.length → s.call j = t.call j)
    (hlog : s.log = t.log ++ tagged t.ops.length gs) (h : planLost t = true) :
    planLost s = true := by
  simp only [planLost, List.any_eq_true, List.mem_range] at h ⊢
  obtain ⟨i, hi, hlost⟩ := h
  have hne : i ≠ t.ops.length := by omega
  refine ⟨i, by rw [hops, List.length_append]; omega, ?_⟩
  unfold lostPlanChange at hlost ⊢
  rw [show thrown s i = thrown t i by simp only [thrown, hothers i hne], hlog, List.any_append,
    List.any_append, tagged_any hne, tagged_any hne, Bool.or_false, Bool.or_false]
  exact hlost

theorem planLost_after (h : planLost t = true) (d : Db) (r : Except Error Result) :
    planLost (t.after op gs d r) = true :=
  planLost_grows rfl (fun _ hj => if_neg hj) rfl h

/-- A call that fails between its call to Stripe and its `save`. -/
theorem planLost_failed (hlog : ∀ g ∈ t.log, g.call < t.ops.length) {g : Bool × List Write}
    (hg : g ∈ gs) (hchanges : g.2.any (·.changesPrice) = true)
    (hsaves : ∀ g ∈ gs, g.2.any (·.savesRow) = false) (d : Db) (e : Error) :
    planLost (t.after op gs d (.error e)) = true := by
  simp only [planLost, List.any_eq_true, List.mem_range]
  refine ⟨t.ops.length, by simp [State.after], ?_⟩
  have hthrown : thrown (t.after op gs d (.error e)) t.ops.length = some e := by
    simp [thrown, State.after]
  have hold : (t.log.any fun g => g.call == t.ops.length && g.writes.any (·.savesRow)) = false := by
    simp only [List.any_eq_false, Bool.and_eq_true, beq_iff_eq]
    rintro g hg ⟨hcall, -⟩
    have := hlog g hg
    omega
  have hnew : ((tagged t.ops.length gs).any fun g =>
      g.call == t.ops.length && g.writes.any (·.savesRow)) = false := by
    simp only [tagged, List.any_eq_false, List.mem_map, Bool.and_eq_true, beq_iff_eq]
    rintro g ⟨g', hg', rfl⟩ ⟨-, hs⟩
    rw [hsaves g' hg'] at hs
    cases hs
  have hcall : ((tagged t.ops.length gs).any fun g =>
      g.call == t.ops.length && g.writes.any (·.changesPrice)) = true :=
    List.any_eq_true.2 ⟨_, List.mem_map_of_mem hg, by
      simp only [hchanges, beq_self_eq_true, Bool.and_self]⟩
  unfold lostPlanChange
  rw [hthrown, State.after, List.any_append, List.any_append, hcall, hold, hnew]
  simp

end

/-! ## What is invoiced -/

/-- Every invoice is for an event, and for what Stripe has charged. -/
def InvoicesBillCharges (checkouts : String → CheckoutSession) (d₀ : Db) (ops : List Op)
    (log : List (Txn.Group Write)) : Prop :=
  ∀ l g r, log = l ++ g :: r → ∀ invoice, .insertInvoice invoice ∈ g.writes →
    ∃ event ev, ops[g.call]? = some (.handleWebhook (some event)) ∧ toDomainEvent event = .ok ev ∧
      BillsCharge checkouts (replay store d₀ l).stripeCalls ev invoice

/-- No delivery of an event that Stripe has charged fails for the price. -/
def ChargesPriced (config : Config) (s : RunState) : Prop :=
  ∀ i event ev e, s.ops[i]? = some (.handleWebhook (some event)) → toDomainEvent event = .ok ev →
    ev.isCharge = true → thrown s i = some e → ¬ e.Unpriced config

/-- The invoices of a run agree with what Stripe has charged. -/
structure InvoicesCharged (config : Config) (checkouts : String → CheckoutSession) (d₀ : Db)
    (s : RunState) : Prop where
  invoices : InvoicesBillCharges checkouts d₀ s.ops s.log
  emitted : ChargesPriced config s

/-- The log of a run, and the database that it leads to. -/
structure Books (checkouts : String → CheckoutSession) (d₀ : Db) (ops : List Op)
    (log : List (Txn.Group Write)) (d : Db) : Prop where
  replay : d = replay store d₀ log
  calls : ∀ g ∈ log, g.call < ops.length
  invoices : InvoicesBillCharges checkouts d₀ ops log

section

variable {config : Config} {checkouts : String → CheckoutSession} {d₀ d : Db} {ops : List Op}
  {log : List (Txn.Group Write)} {t : RunState} {op : Op} {gs : Published Write}

theorem Books.spawn (h : Books checkouts d₀ ops log d) (op : Op) :
    Books checkouts d₀ (ops ++ [op]) log d := by
  refine ⟨h.replay, fun g hg => ?_, fun l g r hlog invoice hi => ?_⟩
  · have := h.calls g hg
    rw [List.length_append]
    omega
  · obtain ⟨event, ev, hop, hrest⟩ := h.invoices l g r hlog invoice hi
    refine ⟨event, ev, ?_, hrest⟩
    rw [List.getElem?_append_left (List.getElem?_eq_some_iff.1 hop).1]
    exact hop

theorem Books.snoc (h : Books checkouts d₀ ops log d) {g : Txn.Group Write}
    (hcall : g.call < ops.length) (hg : ∀ invoice, .insertInvoice invoice ∈ g.writes →
      ∃ event ev, ops[g.call]? = some (.handleWebhook (some event)) ∧
        toDomainEvent event = .ok ev ∧ BillsCharge checkouts d.stripeCalls ev invoice) :
    Books checkouts d₀ ops (log ++ [g]) (store.applyAll d g.writes) := by
  refine ⟨?_, fun g' hg' => ?_, fun l g' r hlog invoice hi => ?_⟩
  · rw [replay_snoc, ← h.replay]
  · rcases List.mem_append.1 hg' with hg' | hg'
    · exact h.calls g' hg'
    · rw [List.mem_singleton] at hg'
      exact hg' ▸ hcall
  · rcases snoc_split hlog with ⟨rfl, rfl, -⟩ | ⟨r', -, hlog'⟩
    · rw [← h.replay]
      exact hg invoice hi
    · exact h.invoices l g' r' hlog' invoice hi

/-! ## Between the calls -/

/-- What holds when no call is running. -/
def Rest (config : Config) (checkouts : String → CheckoutSession) (d₀ : Db) (s : RunState) : Prop :=
  planLost s = true ∨ Books checkouts d₀ s.ops s.log s.db ∧ InStep config checkouts s.db ∧
    ChargesPriced config s

/-- What holds in the course of a call: a change of plan is not in step until it has saved. -/
def Mid (config : Config) (checkouts : String → CheckoutSession) (d₀ : Db) (t : RunState) (op : Op)
    (gs : Published Write) (d : Db) : Prop :=
  planLost t = true ∨
    Books checkouts d₀ (t.ops ++ [op]) (t.log ++ tagged t.ops.length gs) d ∧
      (op.changesPlan = false → InStep config checkouts d)

theorem ChargesPriced.after (h : ChargesPriced config t) {r : Except Error Result}
    (hnew : ∀ event ev e, op = .handleWebhook (some event) → toDomainEvent event = .ok ev →
      ev.isCharge = true → r = .error e → ¬ e.Unpriced config) :
    ChargesPriced config (t.after op gs d r) := by
  intro i event ev e hop hev hcharge hthrown
  have hcall := thrown_eq hthrown
  by_cases hi : i = t.ops.length
  · subst hi
    simp only [State.after, List.getElem?_concat_length, Option.some.injEq] at hop
    simp only [State.after, if_pos, Call.done.injEq] at hcall
    exact hnew event ev e hop hev hcharge hcall
  · have hlt : i < t.ops.length := by
      have := (List.getElem?_eq_some_iff.1 hop).1
      simp only [State.after, List.length_append, List.length_singleton] at this
      omega
    simp only [State.after, List.getElem?_append_left hlt] at hop
    simp only [State.after, if_neg hi] at hcall
    refine h i event ev e hop hev hcharge ?_
    simp only [thrown, hcall]

/-- A call ends in step. -/
theorem Rest.after (hbooks : Books checkouts d₀ (t.ops ++ [op]) (t.log ++ tagged t.ops.length gs) d)
    (hin : InStep config checkouts d) (h : ChargesPriced config t) {r : Except Error Result}
    (hnew : ∀ event ev e, op = .handleWebhook (some event) → toDomainEvent event = .ok ev →
      ev.isCharge = true → r = .error e → ¬ e.Unpriced config) :
    Rest config checkouts d₀ (t.after op gs d r) :=
  .inr ⟨hbooks, hin, h.after hnew⟩

/-- One more group of the call. -/
theorem Books.published
    (h : Books checkouts d₀ (t.ops ++ [op]) (t.log ++ tagged t.ops.length gs) d) {b : Bool}
    {ws : List Write} (hws : ∀ invoice, .insertInvoice invoice ∈ ws → ∃ event ev,
      op = .handleWebhook (some event) ∧ toDomainEvent event = .ok ev ∧
        BillsCharge checkouts d.stripeCalls ev invoice) :
    Books checkouts d₀ (t.ops ++ [op]) (t.log ++ tagged t.ops.length (gs ++ [(b, ws)]))
      (store.applyAll d ws) := by
  have hlog : t.log ++ tagged t.ops.length (gs ++ [(b, ws)]) =
      (t.log ++ tagged t.ops.length gs) ++ [⟨t.ops.length, b, ws⟩] := by
    simp [tagged]
  rw [hlog]
  refine h.snoc (g := ⟨t.ops.length, b, ws⟩) (by simp) fun invoice hi => ?_
  obtain ⟨event, ev, rfl, hrest⟩ := hws invoice hi
  exact ⟨event, ev, List.getElem?_concat_length, hrest⟩

end

/-! ## A change of plan -/

section

variable {config : Config} {user : Id} {plan : SubscriptionPlan} {fault : Error → Prop}
  {adm : Db → List Write → Prop} {J : Published Write → Db → Prop}
  {E : Published Write → Db → Error → Prop} {gs : Published Write} {d : Db}

/-- A `save` of its own that changes the row. -/
theorem save_alone {α : Type} {l e : Subscription} {k : Subscription → M α}
    {Q : Opened Db Write Error → Published Write → Db → α → Prop}
    (hrow : d.subscription? e.id = some l) (hne : e.overwrite l l ≠ l) (hE : ∀ error, E gs d error)
    (hJ : J (gs ++ [(false, [.saveSubscription l e l])]) (store.apply d (.saveSubscription l e l)))
    (hk : (k e).alone store fault adm J E Q none (gs ++ [(false, [.saveSubscription l e l])])
      (store.apply d (.saveSubscription l e l))) :
    (SubscriptionRepository.save l e >>= k).alone store fault adm J E Q none gs d := by
  unfold SubscriptionRepository.save
  rw [Prog.bind_assoc]
  refine alone_select_bind (fun error _ => hE error) ?_
  rw [hrow]
  simp only [if_neg hne]
  rw [alone_bind]
  refine alone_query (fun error _ => hE error) (fun error _ => hE error) fun ws a hok _ => ?_
  split at hok
  · cases hok
  · cases hok
    exact ⟨hJ, hk⟩

/-- `changePlan` fails before its call to Stripe, or goes on to save the row that it has read. -/
theorem changePlan_alone {Q : Opened Db Write Error → Published Write → Db → Subscription → Prop}
    (hbefore : ∀ error, E [] d error)
    (hchange : ∀ l sub quota amount, l ∈ d.subscriptions.rows →
      l.externalSubscriptionId = some sub → l.status = .active ∨ l.status = .pastDue →
      amountTTC config plan = .ok amount → ∀ call save, call =
        .callStripe (.changeSubscriptionPlan sub plan amount config.getCurrency) →
      save = .saveSubscription l { l with plan := plan, contactQuota := quota } l →
      (J [(false, [call])] (store.apply d call) ∧
        ∀ error, E [(false, [call])] (store.apply d call) error) ∧
      (J [(false, [call]), (false, [save])] (store.apply (store.apply d call) save) ∧
        ∀ error, E [(false, [call]), (false, [save])] (store.apply (store.apply d call) save)
          error) ∧
      ∀ entry a, J [(false, [call]), (false, [save]), (false, [.insertAuditLog entry])]
          (store.apply (store.apply (store.apply d call) save) (.insertAuditLog entry)) ∧
        Q none [(false, [call]), (false, [save]), (false, [.insertAuditLog entry])]
          (store.apply (store.apply (store.apply d call) save) (.insertAuditLog entry)) a) :
    (changePlan config user plan).alone store fault adm J E Q none [] d := by
  unfold changePlan SubscriptionGuardService.resolveCompanyId findRecruiter findPayable
    SubscriptionRepository.findNewest
  rw [Prog.bind_assoc]
  refine alone_select_bind (fun error _ => hbefore error) ?_
  split
  · exact hbefore _
  · next recruiter _ =>
    refine alone_select_bind (fun error _ => hbefore error) ?_
    split
    · exact hbefore _
    · next l hl =>
      obtain ⟨hmem, hp⟩ := newest_filter_mem hl
      simp only [Bool.and_eq_true, Bool.or_eq_true, decide_eq_true_eq] at hp
      split
      · exact hbefore _
      · next sub hsub =>
        split
        · exact hbefore _
        · next hplan =>
          cases hquota : resolveContactQuotaForPlan plan config with
          | error e => exact hbefore e
          | ok quota =>
            cases hamount : amountTTC config plan with
            | error e => exact hbefore e
            | ok amount =>
              obtain ⟨⟨hJ₁, hE₁⟩, ⟨hJ₂, hE₂⟩, h₃⟩ :=
                hchange l sub quota amount hmem (truthy_some hsub) hp.2 hamount _ _ rfl rfl
              refine alone_outside_bind (fun error _ => hbefore error) hJ₁ ?_
              refine save_alone (Table.get?_of_mem hmem) (fun hsame => hplan ?_) hE₁ hJ₂ ?_
              · -- the saved row has the new plan
                have := congrArg Subscription.plan hsame
                simpa [Subscription.overwrite, setColumn_reread, eq_comm] using this
              · obtain ⟨hJ₃, hQ⟩ := h₃ _ { l with plan := plan, contactQuota := quota }
                exact alone_outside_bind (fun error _ => hE₂ error) hJ₃ hQ

end

/-! ## A delivery -/

section

variable {config : Config} {checkouts : String → CheckoutSession} {d : Db} {i : Id}
  {event : StripeEvent} {ev : WebhookEvent} {t : List Write × Db}

theorem HandledAlone.writes (h : HandledAlone config i ev d t) : ∃ es,
    t.1 = .insertProcessedWebhookEvent (PaymentWebhookService.marker i ev) :: es ∧
      EffectWrites es := by
  obtain ⟨es, ht, hes⟩ := (applyEffect_deliveryPlain config i ev).yields_writes h.2
  refine ⟨es.flatten, ht, fun w hw => ?_⟩
  obtain ⟨ws, hws, hw⟩ := List.mem_flatten.1 hw
  exact hes ws hws w hw

theorem Write.OfEffect.told {w : Write} (h : w.OfEffect) : w.Told config := by
  cases w <;> first | trivial | exact (h.elim id id : False).elim

/-- The commit of a delivery keeps the rows in step. -/
theorem InStep.delivered (h : InStep config checkouts d)
    (hgenuine : genuine checkouts d (.handleWebhook (some event)) = true)
    (hev : toDomainEvent event = .ok ev) (hh : HandledAlone config i ev d t)
    (hg : Single store Write.Quiet
      (SerialEffect (pricedRuns config checkouts) (.handleWebhook (some event))) t.2 t.1) :
    InStep config checkouts (store.applyAll t.2 t.1) := by
  have hbooks := hh.sameBooks
  obtain ⟨es, hws, hes⟩ := hh.writes
  have htold : ∀ w ∈ t.1, w.Told config := by
    intro w hw
    rw [hws] at hw
    rcases List.mem_cons.1 hw with rfl | hw
    · trivial
    · exact (hes w hw).told
  refine (h.congr hbooks).group hg rfl htold
    fun delivery e session sub companyId plan hop hev' => ?_
  cases hop
  change toDomainEvent event = _ at hev'
  rw [hev] at hev'
  cases hev'
  obtain ⟨hcompleted, hnew, hpriced⟩ := h.activated hgenuine hev hh.1
  refine ⟨?_, ?_, ?_⟩
  · unfold Db.Knows
    rw [hbooks.subscriptions, hbooks.calls]
    exact hnew
  · rw [stripeCalls_applyAll, hbooks.calls]
    refine hpriced.append (fun c hc => ?_) (by simp [samePrice])
    obtain ⟨w, hw, hcall⟩ := List.mem_filterMap.1 hc
    have ht := htold w hw
    cases w <;> cases hcall
    exact ht.2 sub
  · have hfresh : t.2.processedWebhookEvents.get? i = none := by
      rw [hbooks.markers]
      exact Table.get?_eq_none.2 fun m hm => (markerViolation_none.1 hh.1 m hm).1
    rw [hws, Store.applyAll_cons]
    refine ⟨_, markers_applyAll _ es (m := PaymentWebhookService.marker i
      (.subscriptionActivated e session sub companyId plan)) ?_, hcompleted⟩
    show _ ∈ (t.2.processedWebhookEvents.insert _).rows
    rw [Table.insert_rows hfresh]
    exact List.mem_append_right _ (List.mem_singleton_self _)

end

/-! ## Runs -/

section

variable {config : Config} {checkouts : String → CheckoutSession} {d₀ : Db} {t : RunState} {op : Op}

/-- One call, alone, in the runs whose prices are kept. -/
abbrev CallRests (config : Config) (checkouts : String → CheckoutSession) (d₀ : Db) (t : RunState)
    (op : Op) : Prop :=
  (program config t.ops.length op).alone store (fun e => isFault e = true)
    (fun d ws => (pricedRuns config checkouts).adm op d ws = true) (Mid config checkouts d₀ t op)
    (fun gs d e => Rest config checkouts d₀ (t.after op gs d (.error e)))
    (fun tx gs d a => tx = none ∧ Rest config checkouts d₀ (t.after op gs d (.ok a))) none [] t.db

theorem rests_lost (hlost : planLost t = true) : CallRests config checkouts d₀ t op := by
  have hwp : wp store ((system config).rules (serially (pricedRuns config checkouts)).alone op)
      (fun _ _ _ _ => True) (fun _ _ _ => True) (program config t.ops.length op)
      (fun σ _ _ => σ.tx = none ∧ True) ⟨none, []⟩ t.db :=
    program_wp config t.ops.length op (fun _ _ _ _ => trivial) (fun _ _ _ => trivial)
      (fun _ _ _ => ⟨rfl, trivial⟩) t.db
  refine alone_of_wp (fun _ _ => rfl) (fun _ _ => .inl hlost) (fun _ _ => ?_) (fun _ _ => ?_)
    (.none []) (.inl hlost) hwp
  · exact .inl (planLost_after hlost _ _)
  · exact .inl (planLost_after hlost _ _)

theorem rests_changePlan {user : Id} {plan : SubscriptionPlan}
    (hbooks : Books checkouts d₀ t.ops t.log t.db) (hin : InStep config checkouts t.db)
    (hpriced : ChargesPriced config t) :
    CallRests config checkouts d₀ t (.changePlan user plan) := by
  have hbooks₀ := hbooks.spawn (.changePlan user plan)
  have hstart : Books checkouts d₀ (t.ops ++ [.changePlan user plan])
      (t.log ++ tagged t.ops.length []) t.db := by
    rw [show tagged t.ops.length ([] : Published Write) = [] from rfl, List.append_nil]
    exact hbooks₀
  have hnew : ∀ {r : Except Error Result} event ev e,
      Op.changePlan user plan = .handleWebhook (some event) → toDomainEvent event = .ok ev →
      ev.isCharge = true → r = .error e → ¬ e.Unpriced config := by
    intro r event ev e hop
    cases hop
  show (changePlan config user plan >>= fun a => pure (Result.subscription a)).alone
    _ _ _ _ _ _ _ _ _
  rw [alone_bind]
  refine changePlan_alone (fun error => .after hstart hin hpriced hnew)
    fun l sub quota amount hmem hsub hst hamount call save hcall hsave => ?_
  have hcallp : ∀ invoice, .insertInvoice invoice ∈ [call] → ∃ event ev,
      Op.changePlan user plan = .handleWebhook (some event) ∧ toDomainEvent event = .ok ev ∧
        BillsCharge checkouts t.db.stripeCalls ev invoice := by
    intro invoice hi
    rw [hcall, List.mem_singleton] at hi
    cases hi
  have hbooks₁ := hstart.published (b := false) hcallp
  have hbooks₂ := hbooks₁.published (b := false) fun invoice
      (hi : .insertInvoice invoice ∈ [save]) => by
    rw [hsave, List.mem_singleton] at hi
    cases hi
  -- the row has the plan that Stripe was told
  have hin₂ : InStep config checkouts (store.apply (store.apply t.db call) save) := by
    subst hcall hsave
    refine hin.planChanged hmem hsub hamount rfl rfl fun row' hrow' => ?_
    have hget : (store.applyAll (store.apply t.db (.callStripe
        (.changeSubscriptionPlan sub plan amount config.getCurrency)))
        [.saveSubscription l { l with plan := plan, contactQuota := quota } l]).subscription?
          row'.id = some row' := Table.get?_of_mem hrow'
    rw [subscription?_save] at hget
    split at hget
    · next hid =>
      have hrow : t.db.subscription? row'.id = some l := by
        rw [hid]
        exact Table.get?_of_mem hmem
      have heq : row' =
          Subscription.overwrite { l with plan := plan, contactQuota := quota } l l := by
        change (t.db.subscription? row'.id).map _ = some row' at hget
        rw [hrow] at hget
        exact (Option.some.inj hget).symm
      have hsaves : Saves (.changePlan user plan) l
          { l with plan := plan, contactQuota := quota } := ⟨hst, quota, rfl⟩
      rw [hsaves.overwrite] at heq
      subst heq
      refine .inr ⟨rfl, hsub, ?_, rfl⟩
      rcases hst with hst | hst <;> simp [hst]
    · next hid => exact .inl ⟨hid, Table.mem_of_get? hget⟩
  refine ⟨⟨.inr ⟨hbooks₁, fun h => by cases h⟩, fun error => ?_⟩,
    ⟨.inr ⟨hbooks₂, fun h => by cases h⟩, fun error => .after hbooks₂ hin₂ hpriced hnew⟩,
    fun entry a => ?_⟩
  · refine .inl (planLost_failed hbooks.calls (List.mem_singleton_self _) ?_ ?_ _ error)
    · subst hcall
      rfl
    · intro g hg
      rw [List.mem_singleton] at hg
      subst hg hcall
      rfl
  · have hbooks₃ := hbooks₂.published (b := false) fun invoice
        (hi : Write.insertInvoice invoice ∈ [.insertAuditLog entry]) => by
      rw [List.mem_singleton] at hi
      cases hi
    have hin₃ := hin₂.congr (OutsideWrites.sameBooks ⟨.insertAuditLog entry, rfl, trivial⟩ _)
    exact ⟨.inr ⟨hbooks₃, fun h => by cases h⟩, rfl, .after hbooks₃ hin₃ hpriced hnew⟩

/-- A call that is neither a delivery nor a change of plan. -/
theorem rests_unbilled (hop : (pricedRuns config checkouts).ops t.db op = true)
    (hchange : op.changesPlan = false) (hdelivery : ∀ delivery, op ≠ .handleWebhook delivery)
    (hbooks : Books checkouts d₀ t.ops t.log t.db) (hin : InStep config checkouts t.db)
    (hpriced : ChargesPriced config t) : CallRests config checkouts d₀ t op := by
  have hser := priced_serializable config checkouts
  have hwp := (program_confined t.ops.length hchange hdelivery).wp
    (Q := fun _ _ => True) (((serial_sound config hser).alone rfl).prog (d := t.db) trivial hop)
  have hnew : ∀ {r : Except Error Result} event ev e,
      op = .handleWebhook (some event) → toDomainEvent event = .ok ev →
      ev.isCharge = true → r = .error e → ¬ e.Unpriced config := by
    intro r event ev e hop
    exact absurd hop (hdelivery _)
  have hends : ∀ {gs d} {r : Except Error Result}, Mid config checkouts d₀ t op gs d →
      Rest config checkouts d₀ (t.after op gs d r) := by
    rintro gs d r (hlost | ⟨hb, hi⟩)
    · exact .inl (planLost_after hlost _ _)
    · exact .after hb (hi hchange) hpriced hnew
  refine alone_of_wp (J := Mid config checkouts d₀ t op)
    (E := fun gs d e => Rest config checkouts d₀ (t.after op gs d (.error e))) (fun _ _ => rfl)
    (fun hmid hg => ?_) (fun hmid _ => hends hmid) (fun hmid _ => hends hmid) (.none []) ?_ hwp
  · obtain ⟨hsingle, hws⟩ := hg
    rcases hmid with hlost | ⟨hb, hi⟩
    · exact .inl hlost
    · refine .inr ⟨hb.published fun invoice hinv => (hws _ hinv).elim, fun _ => ?_⟩
      refine (hi hchange).group hsingle hchange (fun w hw => (hws w hw).told) ?_
      intro delivery event session sub companyId plan hop'
      exact absurd hop' (hdelivery delivery)
  · refine .inr ⟨?_, fun _ => hin⟩
    simpa [tagged] using hbooks.spawn op

theorem rests_delivery {event : StripeEvent} (hcurrency : config.getCurrency = "MAD")
    (hop : (pricedRuns config checkouts).ops t.db (.handleWebhook (some event)) = true)
    (hbooks : Books checkouts d₀ t.ops t.log t.db) (hin : InStep config checkouts t.db)
    (hpriced : ChargesPriced config t) :
    CallRests config checkouts d₀ t (.handleWebhook (some event)) := by
  have hser := priced_serializable config checkouts
  let L := (system config).rules (serially (pricedRuns config checkouts)).alone
    (.handleWebhook (some event))
  -- what the transaction commits, and what it invoices
  have halone : wp store L
      (fun viaTx _ d ws => if viaTx then ∃ ev, toDomainEvent event = .ok ev ∧
        HandledAlone config t.ops.length ev t.db (ws, d) else OutsideWrites ws)
      (fun _ _ _ => True) (program config t.ops.length (.handleWebhook (some event)))
      (fun σ _ _ => σ.tx = none ∧ True) ⟨none, []⟩ t.db := by
    show wp store L _ _ (PaymentWebhookService.handleWebhook config _ (some event) >>= _) _ _ _
    rw [wp_bind]
    refine handleWebhook_alone (fun _ _ _ h => h) (fun _ _ _ h => h) (fun _ _ _ => trivial)
      (fun _ => ⟨rfl, trivial⟩) fun ev t hev ht => ⟨⟨ev, hev, ht⟩, rfl, trivial⟩
  have hbills : wp store L
      (fun viaTx _ _ ws => viaTx = true → ∀ invoice, .insertInvoice invoice ∈ ws →
        ∃ ev, toDomainEvent event = .ok ev ∧ BillsCharge checkouts t.db.stripeCalls ev invoice)
      (fun _ e _ => ∀ ev, toDomainEvent event = .ok ev → ev.isCharge = true → ¬ e.Unpriced config)
      (program config t.ops.length (.handleWebhook (some event)))
      (fun σ _ _ => σ.tx = none ∧ True) ⟨none, []⟩ t.db := by
    show wp store L _ _ (PaymentWebhookService.handleWebhook config _ (some event) >>= _) _ _ _
    rw [wp_bind]
    exact handleWebhook_bills (fun _ _ _ h => h) (fun _ h => h) hcurrency hin hop
      fun _ _ _ => ⟨rfl, trivial⟩
  have heffect : wp store L
      (fun _ _ => Single store Write.Quiet
        (SerialEffect (pricedRuns config checkouts) (.handleWebhook (some event))))
      (fun _ _ _ => True) (program config t.ops.length (.handleWebhook (some event)))
      (fun σ _ _ => σ.tx = none ∧ True) ⟨none, []⟩ t.db :=
    ((serial_sound config hser).alone rfl).prog trivial hop
  have hwp := wp_and_closed heffect (wp_and_closed halone hbills)
  have hends : ∀ {gs d} {r : Except Error Result},
      Mid config checkouts d₀ t (.handleWebhook (some event)) gs d →
      (∀ e, r = .error e → ∀ ev, toDomainEvent event = .ok ev → ev.isCharge = true →
        ¬ e.Unpriced config) →
      Rest config checkouts d₀ (t.after (.handleWebhook (some event)) gs d r) := by
    rintro gs d r (hlost | ⟨hb, hi⟩) hr
    · exact .inl (planLost_after hlost _ _)
    · refine .after hb (hi rfl) hpriced fun event' ev e heq hev hcharge he => ?_
      cases heq
      exact hr e he ev hev hcharge
  refine alone_of_wp (J := Mid config checkouts d₀ t (.handleWebhook (some event)))
    (E := fun gs d e => Rest config checkouts d₀
      (t.after (.handleWebhook (some event)) gs d (.error e))) (fun _ _ => rfl)
    (fun {gs d viaTx held ws} hmid hg => ?_) (fun hmid he => hends hmid ?_)
    (fun hmid _ => hends hmid fun _ h => by cases h) (.none []) ?_ hwp
  · obtain ⟨hsingle, hwrites, hinvoices⟩ := hg
    rcases hmid with hlost | ⟨hb, hi⟩
    · exact .inl hlost
    · cases viaTx with
      | true =>
        obtain ⟨ev, hev, hh⟩ := hwrites
        refine .inr ⟨hb.published fun invoice hinv => ?_, fun _ => hin.delivered hop hev hh hsingle⟩
        obtain ⟨ev', hev', hbill⟩ := hinvoices rfl invoice hinv
        refine ⟨event, ev', rfl, hev', ?_⟩
        rw [hh.sameBooks.calls]
        exact hbill
      | false =>
        obtain ⟨w, rfl, hw⟩ : OutsideWrites ws := hwrites
        refine .inr ⟨hb.published fun invoice hinv => ?_, fun _ => ?_⟩
        · rw [List.mem_singleton] at hinv
          subst hinv
          exact hw.elim
        · exact (hi rfl).congr (OutsideWrites.sameBooks ⟨w, rfl, hw⟩ d)
  · intro e heq
    cases heq
    exact he.2.2
  · refine .inr ⟨?_, fun _ => hin⟩
    simpa [tagged] using hbooks.spawn (.handleWebhook (some event))

/-- Each call that runs alone ends at rest. -/
theorem charges_alone (hcurrency : config.getCurrency = "MAD") :
    Alone (system config) (oneAtATime (pricedRuns config checkouts)) (Rest config checkouts d₀)
      (Mid config checkouts d₀) where
  begin {t op} _ ht _ := by
    rcases ht with hlost | ⟨hbooks, hin, -⟩
    · exact .inl hlost
    · refine .inr ⟨?_, fun _ => hin⟩
      simpa [tagged] using hbooks.spawn op
  prog {t op} _ ht hop := by
    show CallRests config checkouts d₀ t op
    rcases ht with hlost | ⟨hbooks, hin, hpriced⟩
    · exact rests_lost hlost
    · by_cases hdelivery : ∃ delivery, op = .handleWebhook delivery
      · obtain ⟨delivery, rfl⟩ := hdelivery
        cases delivery with
        | some event => exact rests_delivery hcurrency hop hbooks hin hpriced
        | none =>
          have hnone : Books checkouts d₀ (t.ops ++ [.handleWebhook none])
              (t.log ++ tagged t.ops.length []) t.db := by
            simpa [tagged] using hbooks.spawn (.handleWebhook none)
          exact .after hnone hin hpriced fun event ev e heq => by cases heq
      · by_cases hchange : op.changesPlan = true
        · cases op <;> cases hchange
          exact rests_changePlan hbooks hin hpriced
        · exact rests_unbilled hop (by simpa using hchange)
            (fun delivery h => hdelivery ⟨delivery, h⟩) hbooks hin hpriced

/-- In the runs one call at a time in which the activations are those that Stripe reports, admins
leave the prices of billed rows alone and no change of plan is lost on the way, every invoice is
for what Stripe has charged, and none fails for the price. -/
theorem invoices_charged (config : Config) (checkouts : String → CheckoutSession) (d₀ : Db)
    (s : RunState) (hcurrency : config.getCurrency = "MAD")
    (hrows : ∀ row ∈ d₀.subscriptions.rows, row.externalSubscriptionId = none)
    (hcalls : d₀.stripeCalls = [])
    (hs : (system config).Reach (oneAtATime (pricedRuns config checkouts)) d₀ s)
    (hlost : planLost s = false) : InvoicesCharged config checkouts d₀ s := by
  have hin : InStep config checkouts d₀ := by
    refine ⟨?_, ?_, ?_, ?_⟩
    · rw [hcalls]
      exact fun c hc => by cases hc
    · intro row hrow sub hsub
      rw [hrows row hrow] at hsub
      cases hsub
    · intro row hrow _ _ sub hsub
      rw [hrows row hrow] at hsub
      cases hsub
    · rintro sub (⟨row, hrow, hsub⟩ | ⟨c, hc, -⟩)
      · rw [hrows row hrow] at hsub
        cases hsub
      · rw [hcalls] at hc
        cases hc
  have hinit : Rest config checkouts d₀ (State.init d₀) := by
    refine .inr ⟨⟨rfl, fun g hg => ?_, fun l g r hlog => ?_⟩, hin, fun i event ev e hop => ?_⟩
    · cases hg
    · exact absurd hlog (by simp [State.init])
    · exact absurd hop (by simp [State.init])
  have hsits := hs.onward.sits (charges_alone hcurrency) rfl (fun _ => rfl) hinit
  rcases hsits with ⟨-, hrest⟩ | ⟨t, op, gs, hrun⟩
  · obtain ⟨hbooks, -, hpriced⟩ := hrest.resolve_left (by simp [hlost])
    exact ⟨hbooks.invoices, hpriced⟩
  · have hkept : planLost t ≠ true := fun h =>
      absurd (planLost_grows hrun.ops hrun.others hrun.log h) (by simp [hlost])
    obtain ⟨hbooks, -⟩ := hrun.inv.resolve_left hkept
    obtain ⟨-, -, hpriced⟩ := hrun.start.resolve_left hkept
    refine ⟨?_, fun i event ev e hop hev hcharge hthrown => ?_⟩
    · rw [hrun.ops, hrun.log]
      exact hbooks.invoices
    · -- the running call has thrown nothing
      have hcall := thrown_eq hthrown
      have hne : i ≠ t.ops.length := by
        rintro rfl
        have := hrun.running
        rw [hcall] at this
        cases this
      have hlt : i < t.ops.length := by
        have := (List.getElem?_eq_some_iff.1 hop).1
        rw [hrun.ops, List.length_append, List.length_singleton] at this
        omega
      rw [hrun.ops, List.getElem?_append_left hlt] at hop
      refine hpriced i event ev e hop hev hcharge ?_
      rw [hrun.others i hne] at hcall
      simp only [thrown, hcall]

end

/-! ## An assigned plan -/

/-- What the invoice that a write inserts is for. -/
def Write.invoiced : Write → Option (Int × String)
  | .insertInvoice invoice => some (invoice.amountTTC, invoice.currency)
  | _ => none

/-- A recruiter pays the starter plan, an admin assigns the growth plan to the row, and Stripe
charges the next period. -/
def assignedPlanRun : List (Label Error Op) :=
  alone 0 (.createCompany 300 ⟨"Atlas", "001234567000089", none⟩) 12 ++
  alone 1 (.createCheckoutSession 300 .starter) 4 ++
  alone 2 (.handleWebhook (some
    (checkoutEvent "evt_1" "checkout.session.completed" "cs_1" "sub_1"))) 18 ++
  alone 3 (.assignPlan 0 .growth none) 6 ++
  alone 4 (.handleWebhook (some (renewalInvoice "evt_2" "in_2" "sub_1"))) 17

set_option synthInstance.maxSize 256 in
/-- Stripe still charges the starter plan, and the invoice is for the growth plan. -/
theorem plan_assigned :
    ¬ ∀ (config : Config) (checkouts : String → CheckoutSession) (d₀ : Db) (s : RunState),
      (∀ row ∈ d₀.subscriptions.rows, row.externalSubscriptionId = none) → d₀.stripeCalls = [] →
      (system config).Reach (oneAtATime (genuineRuns checkouts)) d₀ s →
      InvoicesCharged config checkouts d₀ s := by
  intro h
  have hrun : ((system .default).runLabels (oneAtATime (genuineRuns fun _ => ⟨0, "evt_1"⟩))
      (State.init verifiedUser) assignedPlanRun).map (fun s =>
        (s.ops[4]?, (s.log.drop 12).map (fun g => (g.call, g.writes.filterMap Write.invoiced)),
          (replay store verifiedUser (s.log.take 12)).stripeCalls)) =
      some (some (.handleWebhook (some (renewalInvoice "evt_2" "in_2" "sub_1"))),
        [(4, [(348000, "MAD")])], [.createCheckoutSession 0 .starter 118800 "MAD"]) := by
    decide
  obtain ⟨s, hs, hst⟩ := System.reach_of_run hrun
  simp only [Prod.mk.injEq, List.map_eq_singleton_iff] at hst
  obtain ⟨hop, ⟨g, hdrop, hcall, hinvoiced⟩, hcalls⟩ := hst
  have hlog : s.log = s.log.take 12 ++ g :: [] := by
    rw [← hdrop]
    exact (List.take_append_drop 12 s.log).symm
  obtain ⟨w, hw, hwi⟩ := List.mem_filterMap.1 (hinvoiced ▸ List.mem_singleton_self _)
  cases w <;> simp only [Write.invoiced, Option.some.injEq, reduceCtorEq] at hwi
  obtain ⟨event, ev, hop', hev, -, hcharged⟩ :=
    (h .default _ verifiedUser s (by decide) rfl hs).invoices _ g [] hlog _ hw
  rw [hcall, hop] at hop'
  cases hop'
  cases hev
  simp only [Prod.mk.injEq] at hwi
  rw [hcalls, hwi.1, hwi.2] at hcharged
  exact absurd hcharged (by decide)

/-- The condition admits a paid activation and its renewal. -/
theorem invoices_charged_renewal :
    ∃ s : RunState, s.log.flatMap (fun g => g.writes.filterMap Write.invoiced) =
        [(118800, "MAD"), (118800, "MAD")] ∧
      InvoicesCharged .default (fun _ => ⟨0, "evt_1"⟩) verifiedUser s := by
  have hrun : ((system .default).runLabels
      (oneAtATime (pricedRuns .default fun _ => ⟨0, "evt_1"⟩)) (State.init verifiedUser)
      (assignedPlanRun.take 37 ++
        alone 3 (.handleWebhook (some (renewalInvoice "evt_2" "in_2" "sub_1"))) 17)).map
      (fun s => (s.log.flatMap (fun g => g.writes.filterMap Write.invoiced), planLost s)) =
      some ([(118800, "MAD"), (118800, "MAD")], false) := by
    decide
  obtain ⟨s, hs, hst⟩ := System.reach_of_run hrun
  simp only [Prod.mk.injEq] at hst
  obtain ⟨hinvoiced, hlost⟩ := hst
  exact ⟨s, hinvoiced,
    invoices_charged .default _ verifiedUser s rfl (by decide) rfl hs hlost⟩

end JobBoard
