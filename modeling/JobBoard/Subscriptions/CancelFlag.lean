import JobBoard.Lib.Last
import JobBoard.Subscriptions.Grace

/-!
# Cancelled at period end

`cancelAtPeriodEnd` says that Stripe was told not to renew the subscription that
pays the row, and `cancelSubscription` does not call Stripe when it is set. Three
admin operations clear it, an activation does not: it takes a PAST_DUE row that
was to end to ACTIVE, with another Stripe subscription and the old flag
(`flag_survives_activation`). `cancel_flag_told` says that this and stale `save`s
are all that goes wrong.
-/

set_option autoImplicit false

namespace JobBoard

open Txn Prog

/-- Stripe was told to end the subscription that pays the row. -/
def Subscription.ToldToCancel (s : Subscription) (d : Db) : Prop :=
  ∃ sub, s.externalSubscriptionId = some sub ∧ .cancelAtPeriodEnd sub ∈ d.stripeCalls

def Db.FlagsTold (d : Db) : Prop :=
  ∀ id row, d.subscription? id = some row → row.cancelAtPeriodEnd = true → row.ToldToCancel d

/-! ## The condition -/

/-- The Stripe subscription whose activation a call handles. -/
def Op.activates : Op → Option String
  | .handleWebhook delivery =>
    match StripePaymentProvider.verifyAndParseWebhook delivery with
    | .ok (.subscriptionActivated _ _ sub _ _) => some sub
    | _ => none
  | _ => none

/-- An activation saves no row that is to end with another subscription. -/
def activatesUnflagged (op : Op) (d : Db) : Write → Bool
  | .saveSubscription l _ _ =>
    op.activates.all fun sub => (d.subscription? l.id).all fun row =>
      !row.cancelAtPeriodEnd || row.externalSubscriptionId = some sub
  | _ => true

/-- The runs in which activations only save rows that are not to end. -/
def flagRuns : Runs Db Write Op :=
  ⟨fun _ _ => true, fun op d ws => ws.all (activatesUnflagged op d), false⟩

/-- An `UPDATE` of the flag or of the Stripe subscription finds them as its call
has loaded them. -/
def flagAsLoaded (d : Db) : Write → Bool
  | .saveSubscription l e r =>
    (e.cancelAtPeriodEnd = r.cancelAtPeriodEnd &&
        e.externalSubscriptionId = r.externalSubscriptionId) ||
      (d.subscription? l.id).all fun row => row.cancelAtPeriodEnd = l.cancelAtPeriodEnd &&
        row.externalSubscriptionId = l.externalSubscriptionId
  | _ => true

/-- The interleaved runs in which the flags a call saves are those of its row. -/
def freshFlagRuns : Runs Db Write Op :=
  ⟨fun _ _ => true, fun op d ws => ws.all fun w => activatesUnflagged op d w && flagAsLoaded d w,
    false⟩

section

variable {op : Op} {d : Db} {es : List Write} {l e r row row' : Subscription}

theorem activatesUnflagged_save {sub : String}
    (h : activatesUnflagged op d (.saveSubscription l e r) = true) (hop : op.activates = some sub)
    (hrow : d.subscription? l.id = some row) (hflag : row.cancelAtPeriodEnd = true) :
    row.externalSubscriptionId = some sub := by
  simpa [activatesUnflagged, hop, hrow, hflag] using h

theorem flagAsLoaded_save (h : flagAsLoaded d (.saveSubscription l e r) = true)
    (hrow : d.subscription? l.id = some row) :
    (e.cancelAtPeriodEnd = r.cancelAtPeriodEnd ∧
      e.externalSubscriptionId = r.externalSubscriptionId) ∨
    (row.cancelAtPeriodEnd = l.cancelAtPeriodEnd ∧
      row.externalSubscriptionId = l.externalSubscriptionId) := by
  simpa [flagAsLoaded, hrow] using h

/-! ## One call -/

/-- A call sets the flag of the row it loaded, clears it or keeps it, and only
an activation changes the subscription that pays the row. -/
theorem Saves.flag (h : Saves op l e) :
    (e.externalSubscriptionId = l.externalSubscriptionId ∧
      (e.cancelAtPeriodEnd = l.cancelAtPeriodEnd ∨ e.cancelAtPeriodEnd = false ∨
        ∃ user, op = .cancelSubscription user)) ∨
    (e.cancelAtPeriodEnd = l.cancelAtPeriodEnd ∧ ∃ sub, op.activates = some sub ∧
      e.externalSubscriptionId = some sub) := by
  cases op <;> simp only [Saves] at h
  case handleWebhook delivery =>
    obtain ⟨ev, hev, h⟩ := h
    cases ev <;> simp only [EventSaves, PaymentWebhookService.renewed] at h
    case subscriptionActivated =>
      obtain ⟨-, -, _, _, rfl⟩ := h
      exact .inr ⟨rfl, _, by simp only [Op.activates, hev], rfl⟩
    all_goals
      left
      grind
  case cancelSubscription user =>
    obtain ⟨-, rfl⟩ := h
    exact .inl ⟨rfl, .inr (.inr ⟨user, rfl⟩)⟩
  all_goals
    left
    grind

/-- What a row with the flag carries over one step. -/
theorem RowStep.told {v : Db} (h : RowStep op d es row row')
    (hadm : freshFlagRuns.adm op d es = true) (hrow : d.subscription? row.id = some row)
    (hcall : ∀ user, op = .cancelSubscription user → ∀ l e r, .saveSubscription l e r ∈ es →
      l.ToldToCancel v)
    (htold : row.cancelAtPeriodEnd = true → row.ToldToCancel v)
    (hflag : row'.cancelAtPeriodEnd = true) : row'.ToldToCancel v := by
  cases h with
  | same => exact htold hflag
  | @save l e r hes hl hc hs =>
    subst hes
    rw [← hl] at hrow
    simp only [freshFlagRuns, List.all_cons, List.all_nil, Bool.and_true, Bool.and_eq_true] at hadm
    change setColumn e.cancelAtPeriodEnd r.cancelAtPeriodEnd row.cancelAtPeriodEnd = true at hflag
    unfold Subscription.ToldToCancel
    show ∃ sub, setColumn e.externalSubscriptionId r.externalSubscriptionId
      row.externalSubscriptionId = some sub ∧ _
    rcases flagAsLoaded_save hadm.2 hrow with ⟨hf, he⟩ | ⟨hf, he⟩
    · rw [hf, setColumn_self] at hflag
      rw [he, setColumn_self]
      exact htold hflag
    · -- the new values are those of the entity or of the row, which has the loaded ones
      have hext : setColumn e.externalSubscriptionId r.externalSubscriptionId
          row.externalSubscriptionId = e.externalSubscriptionId ∨
          setColumn e.externalSubscriptionId r.externalSubscriptionId
          row.externalSubscriptionId = row.externalSubscriptionId := by
        rcases setColumn_eq e.externalSubscriptionId r.externalSubscriptionId
          row.externalSubscriptionId with h | h
        · exact .inr h
        · exact .inl h.1
      have hset : e.cancelAtPeriodEnd = true ∨ row.cancelAtPeriodEnd = true := by
        rcases setColumn_eq e.cancelAtPeriodEnd r.cancelAtPeriodEnd row.cancelAtPeriodEnd with h | h
        · exact .inr (h ▸ hflag)
        · exact .inl (h.1 ▸ hflag)
      rcases hs.flag with ⟨hse, hsf⟩ | ⟨hsf, sub, hop, hse⟩
      · have hsame : setColumn e.externalSubscriptionId r.externalSubscriptionId
            row.externalSubscriptionId = row.externalSubscriptionId := by
          rcases hext with h | h
          · rw [h, hse, he]
          · exact h
        rw [hsame]
        by_cases hrf : row.cancelAtPeriodEnd = true
        · exact htold hrf
        · have hef := hset.resolve_right hrf
          rcases hsf with hsf | hsf | ⟨user, rfl⟩
          · exact absurd (hf.trans (hsf.symm.trans hef)) hrf
          · rw [hsf] at hef
            cases hef
          · rw [he]
            exact hcall user rfl l e r (List.mem_singleton_self _)
      · have hrf : row.cancelAtPeriodEnd = true := by
          rcases hset with h | h
          · rw [hf, ← hsf, h]
          · exact h
        have hrow_ext := activatesUnflagged_save hadm.1 hop hrow hrf
        have hsame : setColumn e.externalSubscriptionId r.externalSubscriptionId
            row.externalSubscriptionId = row.externalSubscriptionId := by
          rcases hext with h | h
          · rw [h, hse, hrow_ext]
          · exact h
        rw [hsame]
        exact htold hrf
  | consume => exact htold hflag

end

/-! ## What Stripe was told -/

/-- What Stripe was told stays told. -/
def Recorded (d d' : Db) : Prop := ∀ c ∈ d.stripeCalls, c ∈ d'.stripeCalls

theorem recorded_applyAll (d : Db) (ws : List Write) : Recorded d (store.applyAll d ws) := by
  induction ws generalizing d with
  | nil => exact fun _ h => h
  | cons w ws ih =>
    intro c hc
    refine ih _ c ?_
    cases w <;> first | exact hc | exact List.mem_append_left _ hc

theorem Subscription.ToldToCancel.recorded {s : Subscription} {d d' : Db} (h : s.ToldToCancel d)
    (hd : Recorded d d') : s.ToldToCancel d' := by
  obtain ⟨sub, hext, hcall⟩ := h
  exact ⟨sub, hext, hd _ hcall⟩

/-- `cancelSubscription` saves a row whose subscription Stripe was told to end. -/
def SavesTold (op : Op) (d : Db) (ws : List Write) : Prop :=
  ∀ user, op = .cancelSubscription user → ∀ l e r, .saveSubscription l e r ∈ ws → l.ToldToCancel d

section

variable {L : Rules Db Write Key Error} {G : Bool → List Key → Db → List Write → Prop} {d : Db}

/-- A statement that writes nothing. -/
theorem read_wp {α β : Type} {f : Db → α} {k : α → M β} {Q : Local Db Write Error → Db → β → Prop}
    (h : ∀ d', L.rely [] d d' → wp store L G (fun _ _ _ => True) (k (f d')) Q ⟨none, []⟩ d') :
    wp store L G (fun _ _ _ => True) (select f >>= k) Q ⟨none, []⟩ d :=
  fun d' hd => ⟨fun _ _ => trivial, fun _ => ⟨fun hne => absurd rfl hne, h d' hd⟩⟩

/-- A `save` of its own, on databases that all satisfy `P`. -/
theorem save_wp {P : Db → Prop} (hP : ∀ h d d', L.rely h d d' → P d → P d') (hd : P d)
    {l e : Subscription} (hG : ∀ d' r, P d' → G false [] d' [.saveSubscription l e r])
    {Q : Local Db Write Error → Db → Subscription → Prop} (hQ : ∀ d' a, Q ⟨none, []⟩ d' a) :
    wp store L G (fun _ _ _ => True) (SubscriptionRepository.save l e) Q ⟨none, []⟩ d := by
  unfold SubscriptionRepository.save insertUnique
  refine read_wp fun d₁ hd₁ => ?_
  have h₁ := hP _ _ _ hd₁ hd
  split
  · trivial
  · next r hr =>
    split
    · exact hQ _ _
    · intro d₂ hd₂
      refine ⟨fun _ _ => trivial, fun _ => ?_⟩
      simp only [Store.view_none, afterStmt]
      split
      · next w hw =>
        split at hw
        · cases hw
        · cases hw
          exact ⟨fun _ => hG d₂ r (hP _ _ _ hd₂ h₁), hQ _ _⟩
      · exact ⟨fun hne => absurd rfl hne, trivial⟩

theorem cancelSubscription_told {user : Id} (hL : ∀ h d d', L.rely h d d' → Recorded d d')
    {Q : Local Db Write Error → Db → Option Time → Prop} (hQ : ∀ d' a, Q ⟨none, []⟩ d' a) :
    wp store L (fun _ _ => SavesTold (.cancelSubscription user)) (fun _ _ _ => True)
      (SubscriptionCheckoutService.cancelSubscription user) Q ⟨none, []⟩ d := by
  unfold SubscriptionCheckoutService.cancelSubscription SubscriptionGuardService.resolveCompanyId
    findRecruiter SubscriptionCheckoutService.findPayable SubscriptionRepository.findNewest
  rw [Prog.bind_assoc]
  refine read_wp fun d₁ _ => ?_
  split
  · trivial
  · refine read_wp fun d₂ _ => ?_
    split
    · trivial
    · next l hl =>
      split
      · trivial
      · next sub hsub =>
        split
        · intro d₃ _
          refine ⟨fun _ _ => trivial, fun _ user' _ l' e' r' hw => ?_, ?_⟩
          · simp at hw
          · have hcall : l.ToldToCancel
                (store.applyAll d₃ [.callStripe (.cancelAtPeriodEnd sub)]) :=
              ⟨sub, truthy_some hsub, List.mem_append_right _ (List.mem_singleton_self _)⟩
            show wp store L _ _ (SubscriptionRepository.save l _ >>= _) _ _ _
            rw [wp_bind]
            refine save_wp (fun h d d' hr ht => ht.recorded (hL h d d' hr)) hcall
              (fun d' r ht user' hop l' e' r' hw => ?_) fun _ _ => hQ _ _
            rw [List.mem_singleton] at hw
            cases hw
            exact ht
        · exact hQ _ _

end

/-! ## Runs -/

theorem freshFlag_interleavable : Interleavable freshFlagRuns (fun _ => True) NoMore where
  adm := by
    intro op d d' es hes hr _ h
    cases hes with
    | @save l e r v u hv hl hsaves hu hr' hunique =>
      have hlock : Key.row "subscriptions" l.id ∈ store.locks [.saveSubscription l e r] := by
        simp [Store.locks, store, Write.keys, hsaves.id_eq.1]
      simp only [freshFlagRuns, List.all_cons, activatesUnflagged, flagAsLoaded, hr.row l.id hlock]
        at h ⊢
      exact h
    | insert => rfl
    | consume => rfl
  inv := fun _ h => h
  step := fun _ _ => trivial
  more := noMore_reliable _ _

theorem flags_serializable : Serializable flagRuns fun _ => True where
  adm := by
    intro op d d' es hd h
    simp only [flagRuns, List.all_eq_true] at h ⊢
    intro w hw
    have := h w hw
    cases w <;> first | exact this | simpa only [activatesUnflagged, hd.subscription?] using this
  inv := fun _ h => h
  step := fun _ _ => trivial

/-- One at a time, a call saves the flag and the subscription of its row. -/
theorem flags_effect {op : Op} {d : Db} {es : List Write} (h : SerialEffect flagRuns op d es) :
    Effect freshFlagRuns op d es := by
  obtain ⟨heff, hadm⟩ := h
  refine ⟨heff.interleaved, ?_⟩
  simp only [flagRuns, freshFlagRuns, List.all_eq_true] at hadm ⊢
  intro w hw
  rw [hadm w hw, Bool.true_and]
  cases heff with
  | save hv hl hsaves hu hr hunique =>
    simp only [List.mem_singleton] at hw
    subst hw
    obtain ⟨-, hrow, rfl⟩ := SubEffect.save_loaded (.save hv hl hsaves hu hr hunique)
    simp [flagAsLoaded, hrow]
  | insert => simp only [List.mem_singleton] at hw; subst hw; rfl
  | consume => simp only [List.mem_singleton] at hw; subst hw; rfl

/-- What `cancelSubscription` does besides, as long as Stripe forgets nothing. -/
theorem told_sound {config : Config} {A : Assume Db Write Key Op} {I : Db → Prop}
    {spec : Nat → Op → Spec Db Write Key Error Result} (hS : Sound (system config) A I spec) :
    Sound (system config) { A with rely := fun h d d' => A.rely h d d' ∧ Recorded d d' }
      (fun d => I d ∧ True) fun i op =>
        (spec i op).and ⟨fun _ _ => SavesTold op, fun _ _ _ => True, fun _ _ _ => True⟩ := by
  have hS' := hS.strengthen (fun _ _ h => h : ∀ d, Recorded d d)
    (fun hab hbc c hc => hbc c (hab c hc))
    fun {_ _ _ _ d ws} _ (_ : True) _ => ⟨trivial, recorded_applyAll d ws⟩
  refine hS'.and (fun _ => trivial) (fun _ => trivial) fun {i op d} _ _ => ?_
  by_cases hop : ∃ user, op = .cancelSubscription user
  · obtain ⟨user, rfl⟩ := hop
    show wp store _ _ _ (SubscriptionCheckoutService.cancelSubscription user >>= _) _ _ d
    rw [wp_bind]
    refine cancelSubscription_told (fun _ _ _ h => ?_) fun _ _ => ⟨rfl, trivial⟩
    exact h.2
  · refine program_wp config i op (fun _ _ d ws user hop' => ?_) (fun _ _ _ => trivial)
      (fun _ _ _ => ⟨rfl, trivial⟩) d
    exact absurd ⟨user, hop'⟩ hop

theorem flagsTold_run {d₀ : Db} {log : List (Txn.Group Write)} (h₀ : d₀.FlagsTold)
    (h : ∀ l g r, log = l ++ g :: r → ∃ op,
      Single store Write.Quiet (Effect freshFlagRuns op) (replay store d₀ l) g.writes ∧
      SavesTold op (replay store d₀ l) g.writes) {l r : List (Txn.Group Write)} (hlog : log = l ++ r) :
    (replay store d₀ l).FlagsTold := by
  induction l using List.reverseRecOn generalizing r with
  | nil => exact h₀
  | append_singleton l g ih =>
    have hlog' : log = l ++ g :: r := by simp [hlog]
    have hl := ih hlog'
    obtain ⟨op, hg, hcall⟩ := h l g r hlog'
    intro id row hrow hflag
    rw [replay_snoc] at hrow ⊢
    refine Subscription.ToldToCancel.recorded ?_ (recorded_applyAll (replay store d₀ l) g.writes)
    cases hold : (replay store d₀ l).subscription? id with
    | none =>
      obtain ⟨v, hins⟩ := group_new hg hold hrow
      rw [hins.grace.2.2] at hflag
      cases hflag
    | some old =>
      obtain ⟨x, hx, hstep⟩ := group_row hg hold
      rw [hrow] at hx
      cases hx
      rcases hstep with rfl | ⟨d₁, es, hd₁, hP, hsub, hstep⟩
      · exact hl id row hold hflag
      · have hrow₁ : d₁.subscription? old.id = some old := by
          rw [Db.subscription?, hd₁, Table.key_of_get? hold]
          exact hold
        exact hstep.told hP.2 hrow₁ (fun user hop l e r hw => hcall user hop l e r (hsub _ hw))
          (hl id old hold) hflag

/-! ## Answers -/

/-- The row that pays for a company now. -/
def Db.payableOf (d : Db) (companyId : Id) : Option Subscription :=
  newest (d.subscriptions.rows.filter fun s =>
    s.companyId = companyId && (s.status = .active || s.status = .pastDue))

/-- Stripe will not renew the subscription that pays for the company of the user. -/
def Db.PaymentEnds (d : Db) (user : Id) : Prop :=
  ∃ recruiter row, d.recruiters.rows.find? (·.userId == user) = some recruiter ∧
    d.payableOf recruiter.companyId = some row ∧ row.cancelAtPeriodEnd = true ∧ row.ToldToCancel d

theorem newest_map {f : Subscription → Subscription} (hf : ∀ r, (f r).createdAt = r.createdAt)
    (rs : List Subscription) : newest (rs.map f) = (newest rs).map f := by
  induction rs with
  | nil => rfl
  | cons r rs ih =>
    simp only [List.map_cons, newest, ih]
    cases newest rs with
    | none => rfl
    | some s =>
      simp only [Option.map_some, hf]
      split <;> rfl

/-- An `UPDATE` of other columns leaves the row the one that pays. -/
theorem payableOf_save {d : Db} {l e : Subscription} (hid : e.id = l.id) (he : e.overwrite l l = e)
    (hst : e.status = l.status) {companyId : Id} (h : d.payableOf companyId = some l) :
    (store.applyAll d [.saveSubscription l e l]).payableOf companyId = some e := by
  have hrows : (store.applyAll d [.saveSubscription l e l]).subscriptions.rows =
      d.subscriptions.rows.map fun x => if x.id = e.id then e.overwrite l x else x := by
    simp [store, Write.apply, Table.modify, Table.modifyWhere]
  unfold Db.payableOf at h ⊢
  have hfilter : ((fun s : Subscription =>
      s.companyId = companyId && (s.status = .active || s.status = .pastDue)) ∘
      fun x => if x.id = e.id then e.overwrite l x else x) = fun s =>
      s.companyId = companyId && (s.status = .active || s.status = .pastDue) := by
    funext x
    simp only [Function.comp]
    split
    · simp [Subscription.overwrite, hst]
    · rfl
  rw [hrows, List.filter_map, hfilter, newest_map, h, Option.map_some, if_pos hid.symm, he]
  intro x
  split <;> rfl

namespace SubscriptionCheckoutService

section

variable {L : Rules Db Write Key Error} {d : Db}

/-- A `save` that nobody interferes with. -/
theorem save_answers (hL : ∀ h d d', L.rely h d d' → AtOnce h d d') {l e : Subscription}
    (hid : e.id = l.id) (hrow : d.subscription? l.id = some l)
    {Q : Local Db Write Error → Db → Subscription → Prop}
    (hsame : e.overwrite l l = l → Q ⟨none, []⟩ d e)
    (hsave : Q ⟨none, []⟩ (store.applyAll d [.saveSubscription l e l]) e) :
    Answers store L (fun _ _ _ => True) (SubscriptionRepository.save l e) Q ⟨none, []⟩ d := by
  unfold SubscriptionRepository.save insertUnique
  refine read_wp fun d₁ hd₁ => ?_
  cases hL _ _ _ hd₁
  rw [hid, hrow]
  simp only
  split
  · next h => exact hsame h
  · intro d₂ hd₂
    cases hL _ _ _ hd₂
    refine ⟨fun _ _ => trivial, fun _ => ?_⟩
    simp only [Store.view_none, afterStmt]
    split
    · next w hw =>
      split at hw
      · cases hw
      · cases hw
        exact ⟨fun _ => trivial, hsave⟩
    · exact ⟨fun _ => trivial, trivial⟩

/-- Alone, `cancelSubscription` returns when the payment of the company ends. -/
theorem cancelSubscription_answers (hL : ∀ h d d', L.rely h d d' → AtOnce h d d')
    (htold : d.FlagsTold) {user : Id} {Q : Local Db Write Error → Db → Option Time → Prop}
    (hQ : ∀ d' a, d'.PaymentEnds user → Q ⟨none, []⟩ d' a) :
    Answers store L (fun _ _ _ => True) (cancelSubscription user) Q ⟨none, []⟩ d := by
  unfold cancelSubscription SubscriptionGuardService.resolveCompanyId
    findRecruiter findPayable SubscriptionRepository.findNewest
  rw [Prog.bind_assoc]
  refine read_wp fun d₁ hd₁ => ?_
  cases hL _ _ _ hd₁
  cases hrec : d.recruiters.rows.find? (·.userId == user) with
  | none => trivial
  | some recruiter =>
    refine read_wp fun d₂ hd₂ => ?_
    cases hL _ _ _ hd₂
    cases hl : d.payableOf recruiter.companyId with
    | none =>
      rw [Db.payableOf] at hl
      rw [hl]
      trivial
    | some l =>
      have hl' := hl
      rw [Db.payableOf] at hl'
      rw [hl']
      have hrow : d.subscription? l.id = some l := Table.get?_of_mem (newest_filter_mem hl').1
      simp only
      split
      · trivial
      · next sub hsub =>
        split
        · next hflag =>
          intro d₃ hd₃
          cases hL _ _ _ hd₃
          refine ⟨fun _ _ => trivial, fun _ => trivial, ?_⟩
          show wp store L _ _ (SubscriptionRepository.save l _ >>= _) _ _ _
          rw [wp_bind]
          have he : ({ l with cancelAtPeriodEnd := true } : Subscription).overwrite l l =
              { l with cancelAtPeriodEnd := true } := by
            simp [Subscription.overwrite, setColumn_reread]
          refine save_answers (d := store.applyAll d [.callStripe (.cancelAtPeriodEnd sub)])
            (l := l) (e := { l with cancelAtPeriodEnd := true }) hL rfl hrow (fun hsame => ?_) ?_
          · rw [he] at hsame
            exact absurd (congrArg Subscription.cancelAtPeriodEnd hsame).symm hflag
          · have hpay := payableOf_save (d := store.applyAll d [.callStripe (.cancelAtPeriodEnd sub)])
              (l := l) (e := { l with cancelAtPeriodEnd := true }) rfl he rfl hl
            refine hQ _ _ ⟨recruiter, _, hrec, hpay, rfl, sub, truthy_some hsub, ?_⟩
            exact recorded_applyAll _ _ _ (List.mem_append_right _ (List.mem_singleton_self _))
        · next hflag =>
          have hflag : l.cancelAtPeriodEnd = true := by simpa using hflag
          exact hQ _ _ ⟨recruiter, l, hrec, hl, hflag, htold l.id l hrow hflag⟩

end

end SubscriptionCheckoutService

/-- What a call answers when it is run alone. -/
def Honest : Op → Db → Result → Prop
  | .cancelSubscription user, d, .periodEnd _ => d.PaymentEnds user
  | _, _, _ => True

theorem flagsTold_of_empty {d : Db} (h : d.subscriptions = ∅) : d.FlagsTold := by
  intro id row hrow
  rw [Db.subscription?, h] at hrow
  cases hrow

/-- From a table without subscriptions, one call at a time when activations save
no row that is to end, and interleaved when in addition the flags that a call
saves are those of its row, each flagged row is paid by a subscription that
Stripe was told to end. One call at a time, a `cancelSubscription` that has just
returned leaves the company with such a row. -/
theorem cancel_flag_told (config : Config) (d₀ : Db) (h₀ : d₀.subscriptions = ∅) :
    (∀ s : RunState, (system config).Reach (oneAtATime flagRuns) d₀ s ∨
      (system config).Reach freshFlagRuns d₀ s → s.db.FlagsTold) ∧
    ∀ s : RunState, (system config).Reach (oneAtATime flagRuns) d₀ s → ∀ i user periodEnd,
      s.ops.length = i + 1 → s.ops[i]? = some (.cancelSubscription user) →
      answer s i = some (.periodEnd periodEnd) → s.db.PaymentEnds user := by
  have told : ∀ s : RunState, (system config).Reach (oneAtATime flagRuns) d₀ s ∨
      (system config).Reach freshFlagRuns d₀ s → s.db.FlagsTold := by
    intro s hs
    rcases hs with hs | hs
    · have hgood := (told_sound (serial_sound config flags_serializable)).good ⟨trivial, trivial⟩ hs
      rw [hgood.replay]
      refine flagsTold_run (flagsTold_of_empty h₀) (fun l g r hlog => ?_) (List.append_nil s.log).symm
      obtain ⟨op, -, -, _, hg, hcall⟩ := hgood.log hlog
      exact ⟨op, hg.mono flags_effect, hcall⟩
    · have hgood := (told_sound (interleaved_sound config freshFlag_interleavable)).good
        ⟨trivial, trivial⟩ hs
      rw [hgood.replay]
      refine flagsTold_run (flagsTold_of_empty h₀) (fun l g r hlog => ?_) (List.append_nil s.log).symm
      obtain ⟨op, -, -, _, hg, hcall⟩ := hgood.log hlog
      exact ⟨op, hg, hcall⟩
  refine ⟨told, fun s hs i user periodEnd hlen hop hans => ?_⟩
  have hlast := System.Reach.last (Q := fun _ op => Honest op) rfl (fun {t i op} ht _ => ?_) hs hlen hop
  · unfold answer at hans
    split at hans
    · next r hr =>
      cases hans
      rw [hr] at hlast
      exact hlast
    · cases hans
  · have others : (∀ d a, Honest op d a) → Answers store
        ((system config).rulesAlone (oneAtATime flagRuns) op) (fun _ _ _ => True)
        (program config i op) (fun σ d a => σ.tx = none ∧ Honest op d a) ⟨none, []⟩ t.db :=
      fun h => program_answers config i op (fun _ _ _ => trivial) (fun _ _ _ => ⟨rfl, h _ _⟩) t.db
    cases op with
    | cancelSubscription user =>
      show wp store _ _ _ (SubscriptionCheckoutService.cancelSubscription user >>= _) _ _ t.db
      rw [wp_bind]
      exact SubscriptionCheckoutService.cancelSubscription_answers (fun _ _ _ h => h)
        (told t (.inl ht)) fun _ _ h => ⟨rfl, h⟩
    | _ => exact others fun _ _ => trivial

/-! ## An activation keeps the flag -/

/-- The payment of a subscription fails, the recruiter cancels it and subscribes
again. -/
def resubscribedRun : List (Label Error Op) :=
  alone 0 (.createCompany 300 ⟨"Atlas", "001234567000089", none⟩) 12 ++
  alone 1 (.createCheckoutSession 300 .starter) 4 ++
  alone 2 (.handleWebhook (some
    (checkoutEvent "evt_1" "checkout.session.completed" "cs_1" "sub_1"))) 18 ++
  alone 3 (.handleWebhook (some (failedInvoice "evt_2" "in_1" "sub_1"))) 10 ++
  alone 4 (.cancelSubscription 300) 6 ++
  alone 5 (.createCheckoutSession 300 .starter) 4 ++
  alone 6 (.handleWebhook (some
    (checkoutEvent "evt_3" "checkout.session.completed" "cs_2" "sub_2"))) 18

/-- The subscription that a call to Stripe ends. -/
def StripeCall.ended : StripeCall → Option String
  | cancelAtPeriodEnd sub => some sub
  | _ => none

/-- The row that pays for the company 0, with the subscriptions that Stripe was
told to end. -/
def paymentOf (d : Db) : Option (Option String × Bool) × List String :=
  ((d.payableOf 0).map fun r => (r.externalSubscriptionId, r.cancelAtPeriodEnd),
    d.stripeCalls.filterMap (·.ended))

theorem not_told {d : Db} {row : Subscription} {sub sub' : String}
    (h : paymentOf d = (some (some sub, true), [sub'])) (hne : sub ≠ sub')
    (hrow : d.payableOf 0 = some row) : row.cancelAtPeriodEnd = true ∧ ¬ row.ToldToCancel d := by
  simp only [paymentOf, hrow, Option.map_some, Prod.mk.injEq, Option.some.injEq] at h
  obtain ⟨⟨hext, hflag⟩, hended⟩ := h
  refine ⟨hflag, ?_⟩
  rintro ⟨x, hx, hcall⟩
  rw [hext] at hx
  cases hx
  have hmem : sub ∈ d.stripeCalls.filterMap (·.ended) := List.mem_filterMap.2 ⟨_, hcall, rfl⟩
  rw [hended, List.mem_singleton] at hmem
  exact hne hmem

/-- After the second activation the row is flagged and paid by a subscription
that Stripe was not told to end, and `cancelSubscription` does not tell it. -/
theorem flag_survives_activation :
    (¬ ∀ (config : Config) (d₀ : Db) (s : RunState), d₀.subscriptions = ∅ →
      (system config).Reach (oneAtATime .all) d₀ s → s.db.FlagsTold) ∧
    ¬ ∀ (config : Config) (d₀ : Db) (s : RunState), d₀.subscriptions = ∅ →
      (system config).Reach (oneAtATime .all) d₀ s → ∀ i user periodEnd,
      s.ops.length = i + 1 → s.ops[i]? = some (.cancelSubscription user) →
      answer s i = some (.periodEnd periodEnd) → s.db.PaymentEnds user := by
  constructor
  · intro h
    have hrun : ((system .default).runLabels (oneAtATime .all) (State.init verifiedUser)
        resubscribedRun).map (fun s => paymentOf s.db) =
        some (some (some "sub_2", true), ["sub_1"]) := by
      decide
    obtain ⟨s, hs, hst⟩ := System.reach_of_run hrun
    cases hrow : s.db.payableOf 0 with
    | none => simp [paymentOf, hrow] at hst
    | some row =>
      obtain ⟨hflag, hnot⟩ := not_told hst (by decide) hrow
      have hmem := (newest_filter_mem hrow).1
      exact hnot (h .default verifiedUser s rfl hs row.id row (Table.get?_of_mem hmem) hflag)
  · intro h
    have hrun : ((system .default).runLabels (oneAtATime .all) (State.init verifiedUser)
        (resubscribedRun ++ alone 7 (.cancelSubscription 300) 3)).map
        (fun s => (decide (s.ops.length = 8 ∧ s.ops[7]? = some (.cancelSubscription 300) ∧
            answer s 7 = some (.periodEnd (some 2592000000)) ∧
            s.db.recruiters.rows.find? (·.userId == 300) = some ⟨0, 300, 0⟩), paymentOf s.db)) =
        some (true, some (some "sub_2", true), ["sub_1"]) := by
      decide
    obtain ⟨s, hs, hst⟩ := System.reach_of_run hrun
    simp only [Prod.mk.injEq, decide_eq_true_eq] at hst
    obtain ⟨⟨hlen, hop, hans, hrecruiter⟩, hst⟩ := hst
    obtain ⟨recruiter, row, hrec, hrow, -, htold⟩ :=
      h .default verifiedUser s rfl hs 7 300 _ hlen hop hans
    rw [hrecruiter] at hrec
    cases hrec
    exact (not_told hst (by decide) hrow).2 htold

/-- The condition admits a cancellation, and a return after it. -/
theorem cancel_flag_told_once :
    ∃ s : RunState, paymentOf s.db = (some (some "sub_1", true), ["sub_1"]) ∧
      s.db.FlagsTold ∧ s.db.PaymentEnds 300 := by
  have hrun : ((system .default).runLabels (oneAtATime flagRuns) (State.init verifiedUser)
      (resubscribedRun.take 55)).map
      (fun s => (decide (s.ops.length = 5 ∧ s.ops[4]? = some (.cancelSubscription 300) ∧
          answer s 4 = some (.periodEnd (some 2592000000))), paymentOf s.db)) =
      some (true, some (some "sub_1", true), ["sub_1"]) := by
    decide
  obtain ⟨s, hs, hst⟩ := System.reach_of_run hrun
  simp only [Prod.mk.injEq, decide_eq_true_eq] at hst
  obtain ⟨⟨hlen, hop, hans⟩, hst⟩ := hst
  obtain ⟨htold, hreturn⟩ := cancel_flag_told .default verifiedUser rfl
  exact ⟨s, hst, htold s (.inl hs), hreturn s hs 4 300 _ hlen hop hans⟩

end JobBoard
