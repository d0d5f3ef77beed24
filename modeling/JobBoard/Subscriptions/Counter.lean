import JobBoard.Messaging.Opening
import JobBoard.Subscriptions.Interleaving

/-!
# The contact counter

`consumeOneContact` increments `contactsUsed` in the statement that checks the
quota, in the transaction that inserts the conversation
(`openings_sound`). An activation or a renewal sets it to 0; every other `save`
means to leave it alone (`Saves.contactsUsed`), but writes back the value the
call has loaded when the row it re-reads has another one: an increment in
between is lost (`stale_save_loses_contact`). In the runs in which those `save`s
re-read the counter they know, `contacts_used_counts` holds: the counter is the
number of conversations opened since the last reset.
-/

set_option autoImplicit false

namespace JobBoard

open Txn Prog

/-! ## One call -/

/-- The operation resets the counter: it handles an activation or a renewal. -/
def Op.resetsContacts : Op → Bool
  | .handleWebhook delivery =>
    match StripePaymentProvider.verifyAndParseWebhook delivery with
    | .ok (.subscriptionActivated ..) => true
    | .ok (.subscriptionRenewed ..) => true
    | _ => false
  | _ => false

theorem Saves.contactsUsed {op : Op} {l e : Subscription} (h : Saves op l e) :
    (op.resetsContacts = true ∧ e.contactsUsed = 0) ∨
      (op.resetsContacts = false ∧ e.contactsUsed = l.contactsUsed) := by
  cases op <;> simp only [Saves] at h
  case handleWebhook delivery =>
    obtain ⟨event, hev, h⟩ := h
    simp only [Op.resetsContacts, hev]
    cases event <;> simp only [EventSaves, PaymentWebhookService.renewed] at h
    case subscriptionActivated =>
      obtain ⟨-, -, _, _, rfl⟩ := h
      exact .inl ⟨rfl, rfl⟩
    case subscriptionRenewed =>
      obtain ⟨-, -, _, rfl⟩ := h
      exact .inl ⟨rfl, rfl⟩
    case paymentFailed =>
      obtain ⟨-, -, rfl⟩ := h
      exact .inr ⟨rfl, rfl⟩
    case subscriptionPastDue =>
      obtain ⟨-, -, _, rfl⟩ := h
      exact .inr ⟨rfl, rfl⟩
    case subscriptionCancelled =>
      obtain ⟨-, -, rfl⟩ := h
      exact .inr ⟨rfl, rfl⟩
  case cancelSubscription =>
    obtain ⟨-, rfl⟩ := h
    exact .inr ⟨rfl, rfl⟩
  case changePlan =>
    obtain ⟨-, _, rfl⟩ := h
    exact .inr ⟨rfl, rfl⟩
  case redeem =>
    obtain ⟨-, _, _, _, rfl⟩ := h
    exact .inr ⟨rfl, rfl⟩
  case adminCancel =>
    obtain ⟨-, _, rfl⟩ := h
    exact .inr ⟨rfl, rfl⟩
  case adminSuspend =>
    obtain ⟨-, -, rfl⟩ := h
    exact .inr ⟨rfl, rfl⟩
  case adminReactivate =>
    obtain ⟨-, -, rfl⟩ := h
    exact .inr ⟨rfl, rfl⟩
  case assignPlan =>
    obtain ⟨-, -, _, rfl⟩ := h
    exact .inr ⟨rfl, rfl⟩

theorem Inserts.contactsUsed {op : Op} {v : Db} {s : Subscription} (h : Inserts op v s) :
    s.contactsUsed = 0 := by
  cases op <;> simp only [Inserts] at h
  case createCompany => exact h.2.1
  case handleWebhook =>
    obtain ⟨_, _, _, _, _, _, _, _, hs, _⟩ := h
    exact hs
  case assignPlan => exact h.2.2.1

/-! ## Openings -/

/-- Whatever the others do, a group of an opening is the three writes of a
complete `createThread`. -/
def openingSpec (i : Nat) (op : Op) : Spec Db Write Key Error Result where
  guar := fun _ _ _ ws => ∀ user candidate body, op = .openConversation user candidate body →
    ∃ id company, ws = openingWrites id ⟨i, candidate, user, company⟩ (openingMessage i user body)
  err := fun _ _ _ => True
  post := fun _ _ _ => True

theorem openings_sound (config : Config) (R : Runs Db Write Op) :
    Sound (system config) ⟨R, fun _ _ _ => True, fun _ _ => True⟩ (fun _ => True) openingSpec where
  refl := trivial
  trans := fun _ _ => trivial
  weaken := fun _ => trivial
  settled := fun _ => trivial
  post := fun _ _ => trivial
  err := fun _ _ => trivial
  step := fun _ _ => ⟨trivial, trivial, fun _ _ _ _ => trivial⟩
  prog := by
    intro i op d _ _
    by_cases hop : ∃ user candidate body, op = .openConversation user candidate body
    · obtain ⟨user, candidate, body, rfl⟩ := hop
      show wp store _ _ _ (ConversationService.openConversation config i user candidate body >>= _)
        _ _ d
      rw [wp_bind]
      refine ConversationService.openConversation_wp (fun _ _ => trivial) (fun _ _ => trivial)
        (fun _ => trivial) (fun _ _ => trivial) (fun _ _ _ => ⟨rfl, trivial⟩) fun d₁ company t c d₂ _ hy _ => ?_
      refine ⟨?_, rfl, trivial⟩
      rintro user' candidate' body' ⟨⟩
      obtain ⟨rfl, id, -, -, -, -, -, -, -, -, -, -, -, -, -, -, -, ht⟩ :=
        ConversationService.createThread_yields hy
      exact ⟨id, company, ht⟩
    · refine effects_wp_true (fun _ _ _ _ user candidate body h => absurd ⟨_, _, _, h⟩ hop)
        (fun _ _ _ => trivial) (fun _ _ => trivial) (fun {τ _ a σ _} hQ hτ => ?_)
        (program_effects ⟨fun _ => trivial, fun _ _ => trivial⟩ config i op d) rfl
        (fun h => by cases h)
      rw [show τ.inTx = false from hQ] at hτ
      exact ⟨by simpa using hτ.symm, trivial⟩

/-! ## The condition -/

/-- A `save` that is no reset re-reads the counter that the call has loaded. -/
def counterAsLoaded (op : Op) : Write → Bool
  | .saveSubscription l _ r => op.resetsContacts || r.contactsUsed = l.contactsUsed
  | _ => true

/-- The runs in which no `save` writes back a counter it does not know. -/
def freshCounterRuns : Runs Db Write Op :=
  ⟨fun _ _ => true, fun op _ ws => ws.all (counterAsLoaded op), false⟩

theorem freshCounter_interleavable : Interleavable freshCounterRuns (fun _ => True) NoMore where
  adm := fun _ _ _ h => h
  inv := fun _ h => h
  step := fun _ _ => trivial
  more := noMore_reliable _ _

/-! ## One group -/

/-- The write sets the counter of the row. -/
def Write.setsCounter (id : Id) : Write → Bool
  | .saveSubscription _ e r => e.id = id && e.contactsUsed ≠ r.contactsUsed
  | _ => false

/-- The group resets the counter of the row. -/
def resetsCounter (id : Id) (g : Txn.Group Write) : Bool := g.writes.any (Write.setsCounter id)

def Write.isConversation : Write → Bool
  | .insertConversation _ => true
  | _ => false

/-- The number of conversations that the group opens with contacts of the row. -/
def openedOn (id : Id) (g : Txn.Group Write) : Nat :=
  if .incrementContactsUsed id ∈ g.writes then g.writes.countP Write.isConversation else 0

/-- From the counter `n`, the number of conversations opened since the last
reset of a stretch of the log. -/
def contactsSince (id : Id) (n : Int) (log : List (Txn.Group Write)) : Int :=
  log.foldl (fun n g => if resetsCounter id g then 0 else n + openedOn id g) n

theorem Write.Quiet.not_setsCounter {id : Id} {w : Write} (h : w.Quiet) :
    w.setsCounter id = false := by
  cases w <;> first | rfl | exact h.elim

theorem resetsCounter_effect {id : Id} {i : Nat} {b : Bool} {ps es qs : List Write}
    (hps : ∀ w ∈ ps, w.Quiet) (hqs : ∀ w ∈ qs, w.Quiet) :
    resetsCounter id ⟨i, b, ps ++ es ++ qs⟩ = es.any (Write.setsCounter id) := by
  have hps' : ps.any (Write.setsCounter id) = false :=
    List.any_eq_false.2 fun w hw => by simp [(hps w hw).not_setsCounter]
  have hqs' : qs.any (Write.setsCounter id) = false :=
    List.any_eq_false.2 fun w hw => by simp [(hqs w hw).not_setsCounter]
  simp [resetsCounter, hps', hqs']

theorem increment_mem_effect {id : Id} {ps es qs : List Write} (hps : ∀ w ∈ ps, w.Quiet)
    (hqs : ∀ w ∈ qs, w.Quiet) :
    .incrementContactsUsed id ∈ ps ++ es ++ qs ↔ .incrementContactsUsed id ∈ es := by
  simp only [List.mem_append]
  constructor
  · rintro ((h | h) | h)
    · exact (hps _ h).elim
    · exact h
    · exact (hqs _ h).elim
  · exact fun h => .inl (.inr h)

/-- A `save` that sets the counter is an activation's or a renewal's. -/
theorem save_resets {op : Op} {d : Db} {l e r : Subscription} (hs : Saves op l e)
    (hadm : freshCounterRuns.adm op d [.saveSubscription l e r] = true)
    (hne : e.contactsUsed ≠ r.contactsUsed) :
    op.resetsContacts = true ∧ e.contactsUsed = 0 := by
  rcases hs.contactsUsed with h | ⟨hop, he⟩
  · exact h
  · have : r.contactsUsed = l.contactsUsed := by
      simpa [freshCounterRuns, counterAsLoaded, hop] using hadm
    exact absurd (he.trans this.symm) hne

theorem resetsCounter_op {op : Op} {d : Db} {g : Txn.Group Write}
    (hg : Single store Write.Quiet (Effect freshCounterRuns op) d g.writes) {id : Id}
    (h : resetsCounter id g = true) : op.resetsContacts = true := by
  obtain ⟨i, b, ws⟩ := g
  rcases hg with hq | ⟨ps, es, qs, rfl, hps, hqs, heff, hadm⟩
  · obtain ⟨w, hw, hset⟩ := List.any_eq_true.1 h
    rw [(hq w hw).not_setsCounter] at hset
    cases hset
  · rw [resetsCounter_effect hps hqs] at h
    cases heff with
    | @save l e r v u hv hl hsaves hu hr hunique =>
      simp only [List.any_cons, List.any_nil, Bool.or_false, Write.setsCounter, Bool.and_eq_true,
        decide_eq_true_eq] at h
      exact (save_resets hsaves hadm h.2).1
    | insert => simp [Write.setsCounter] at h
    | consume => simp [Write.setsCounter] at h

/-- A group moves the counter of a row as `contactsSince` says. -/
theorem counter_step {op : Op} {d : Db} {g : Txn.Group Write}
    (hg : Single store Write.Quiet (Effect freshCounterRuns op) d g.writes)
    (hop : (openingSpec g.call op).guar g.viaTx [] d g.writes) {id : Id} {row : Subscription}
    (hrow : d.subscription? id = some row) :
    ∃ row', (store.applyAll d g.writes).subscription? id = some row' ∧
      row'.contactsUsed = contactsSince id row.contactsUsed [g] := by
  obtain ⟨i, b, ws⟩ := g
  simp only [contactsSince, List.foldl_cons, List.foldl_nil] at *
  rcases hg with hq | ⟨ps, es, qs, rfl, hps, hqs, hP⟩
  · have hr : resetsCounter id ⟨i, b, ws⟩ = false := by
      have : resetsCounter id ⟨i, b, ws ++ [] ++ []⟩ = [].any (Write.setsCounter id) :=
        resetsCounter_effect hq (by simp)
      simpa using this
    have ho : openedOn id ⟨i, b, ws⟩ = 0 := if_neg fun h => hq (.incrementContactsUsed id) h
    refine ⟨row, by rw [Db.subscription?, quiet_subscriptions hq]; exact hrow, ?_⟩
    simp [hr, ho]
  · rw [resetsCounter_effect hps hqs]
    have hafter : (store.applyAll d (ps ++ es ++ qs)).subscription? id =
        (store.applyAll (store.applyAll d ps) es).subscription? id := by
      rw [Store.applyAll_append, Store.applyAll_append, Db.subscription?, quiet_subscriptions hqs]
      rfl
    have hrow₁ : (store.applyAll d ps).subscription? id = some row := by
      rw [Db.subscription?, quiet_subscriptions hps]
      exact hrow
    rw [hafter]
    obtain ⟨heff, hadm⟩ := hP
    obtain ⟨row', hrow', hstep⟩ := heff.row hrow₁
    cases heff with
    | @save l e r v u hv hl hsaves hu hr hunique =>
      have ho : openedOn id ⟨i, b, ps ++ [.saveSubscription l e r] ++ qs⟩ = 0 :=
        if_neg fun h => by simpa using (increment_mem_effect hps hqs).1 h
      rw [subscription?_save, hrow₁, ho]
      by_cases hid : id = e.id
      · refine ⟨_, by rw [if_pos hid]; rfl, ?_⟩
        show setColumn e.contactsUsed r.contactsUsed row.contactsUsed = _
        by_cases hne : e.contactsUsed = r.contactsUsed
        · simp [Write.setsCounter, setColumn, hne]
        · have hzero : e.contactsUsed = 0 := (save_resets hsaves hadm hne).2
          have hr0 : (0 : Int) ≠ r.contactsUsed := hzero ▸ hne
          simp [Write.setsCounter, setColumn, hid, hzero, hr0]
      · refine ⟨row, by rw [if_neg hid], ?_⟩
        simp [Write.setsCounter, Ne.symm hid]
    | @insert s v hv hs hunique =>
      have ho : openedOn id ⟨i, b, ps ++ [.insertSubscription s] ++ qs⟩ = 0 :=
        if_neg fun h => by simpa using (increment_mem_effect hps hqs).1 h
      cases hstep with
      | same =>
        refine ⟨row, hrow', ?_⟩
        rw [ho]
        simp [Write.setsCounter]
      | save hes => cases hes
      | consume hes => cases hes
    | @consume user candidate body k s hop' hs hlt =>
      obtain ⟨id', company, hws⟩ := hop user candidate body hop'
      have hk : k = id' := by
        have : Write.incrementContactsUsed k ∈ openingWrites id' ⟨i, candidate, user, company⟩
            (openingMessage i user body) := by
          rw [← hws]
          simp
        simpa [openingWrites] using this
      have ho : openedOn id ⟨i, b, ps ++ [.incrementContactsUsed k] ++ qs⟩ =
          if id = k then 1 else 0 := by
        simp only [openedOn, hws]
        simp [openingWrites, Write.isConversation, List.countP_cons, hk]
      rw [ho, subscription?_consume, hrow₁]
      by_cases hid : id = k <;> simp [hid, Write.setsCounter]

/-! ## Runs -/

/-- No contact is lost: counters only go down when an activation or a renewal
sets them to 0, and count the conversations opened since. -/
structure CountsContacts (d₀ : Db) (s : RunState) : Prop where
  resets : ∀ g ∈ s.log, ∀ id, resetsCounter id g = true →
    ∃ op, s.ops[g.call]? = some op ∧ op.resetsContacts = true
  /-- An opening consumes one contact and inserts one conversation and its message. -/
  openings : ∀ g ∈ s.log, ∀ user candidate body,
    s.ops[g.call]? = some (.openConversation user candidate body) →
    ∃ id company, g.writes =
      openingWrites id ⟨g.call, candidate, user, company⟩ (openingMessage g.call user body)
  decreases : ∀ l g r, s.log = l ++ g :: r → ∀ id row row',
    (replay store d₀ l).subscription? id = some row →
    (replay store d₀ (l ++ [g])).subscription? id = some row' →
    row'.contactsUsed < row.contactsUsed → resetsCounter id g = true ∧ row'.contactsUsed = 0
  counted : ∀ l m r, s.log = l ++ m ++ r → ∀ id row row',
    (replay store d₀ l).subscription? id = some row →
    (replay store d₀ (l ++ m)).subscription? id = some row' →
    row'.contactsUsed = contactsSince id row.contactsUsed m
  inserted : ∀ l g r, s.log = l ++ g :: r → ∀ id row',
    (replay store d₀ l).subscription? id = none →
    (replay store d₀ (l ++ [g])).subscription? id = some row' → row'.contactsUsed = 0

section

variable {config : Config} {d₀ : Db} {s : RunState}

theorem opening_log {R : Runs Db Write Op} (hs : (system config).Reach R d₀ s)
    {l r : List (Txn.Group Write)} {g : Txn.Group Write} (hlog : s.log = l ++ g :: r) {op : Op}
    (hop : s.ops[g.call]? = some op) :
    (openingSpec g.call op).guar g.viaTx [] (replay store d₀ l) g.writes := by
  obtain ⟨op', hop', -, _, hg⟩ := ((openings_sound config R).good trivial hs).log hlog
  rw [hop] at hop'
  cases hop'
  exact hg

theorem freshCounter_step (hs : (system config).Reach freshCounterRuns d₀ s)
    {l r : List (Txn.Group Write)} {g : Txn.Group Write} (hlog : s.log = l ++ g :: r) {id : Id}
    {row : Subscription} (hrow : (replay store d₀ l).subscription? id = some row) :
    ∃ row', (replay store d₀ (l ++ [g])).subscription? id = some row' ∧
      row'.contactsUsed = contactsSince id row.contactsUsed [g] := by
  obtain ⟨op, hop, -, hg⟩ := interleaved_log freshCounter_interleavable trivial hs hlog
  obtain ⟨row', hrow', hcount⟩ := counter_step hg (opening_log hs hlog hop) hrow
  exact ⟨row', by rw [replay_snoc]; exact hrow', hcount⟩

theorem contactsSince_append (id : Id) (n : Int) (l m : List (Txn.Group Write)) :
    contactsSince id n (l ++ m) = contactsSince id (contactsSince id n l) m := by
  simp [contactsSince, List.foldl_append]

theorem contactsSince_lt {id : Id} {n : Int} {g : Txn.Group Write}
    (h : contactsSince id n [g] < n) : resetsCounter id g = true ∧ contactsSince id n [g] = 0 := by
  simp only [contactsSince, List.foldl_cons, List.foldl_nil] at h ⊢
  split
  · next hr => exact ⟨hr, rfl⟩
  · next hr =>
    rw [if_neg hr] at h
    omega

theorem contactsSince_counts (hs : (system config).Reach freshCounterRuns d₀ s)
    {l m r : List (Txn.Group Write)} (hlog : s.log = l ++ m ++ r) {id : Id} {row : Subscription}
    (hrow : (replay store d₀ l).subscription? id = some row) :
    ∃ row', (replay store d₀ (l ++ m)).subscription? id = some row' ∧
      row'.contactsUsed = contactsSince id row.contactsUsed m := by
  induction m using List.reverseRecOn generalizing r with
  | nil => exact ⟨row, by simpa using hrow, rfl⟩
  | append_singleton m g ih =>
    have hlog' : s.log = l ++ m ++ (g :: r) := by simp [hlog]
    obtain ⟨row₁, hrow₁, h₁⟩ := ih hlog'
    obtain ⟨row₂, hrow₂, h₂⟩ := freshCounter_step hs hlog' hrow₁
    refine ⟨row₂, by rw [← List.append_assoc]; exact hrow₂, ?_⟩
    rw [h₂, h₁, contactsSince_append]

theorem inserted_counter {R : Runs Db Write Op} {op : Op} {d : Db} {ws : List Write}
    (hg : Single store Write.Quiet (Effect R op) d ws) {id : Id} {row' : Subscription}
    (hn : d.subscription? id = none)
    (hrow' : (store.applyAll d ws).subscription? id = some row') : row'.contactsUsed = 0 := by
  rcases group_cases hg with he | ⟨d₁, es, hd₁, hP, he, -, -⟩
  · rw [Db.subscription?, he] at hrow'
    rw [Db.subscription?, hrow'] at hn
    cases hn
  · have hn₁ : d₁.subscription? id = none := by rw [Db.subscription?, hd₁]; exact hn
    obtain ⟨-, -, v, -, hins⟩ := hP.1.new hn₁ (by rw [Db.subscription?, ← he]; exact hrow')
    exact hins.contactsUsed

end

/-- In every interleaved run in which each `save` that is no reset re-reads the
counter its call has loaded, no contact is lost. -/
theorem contacts_used_counts (config : Config) (d₀ : Db) (s : RunState)
    (hs : (system config).Reach freshCounterRuns d₀ s) : CountsContacts d₀ s where
  resets := by
    intro g hg id hr
    obtain ⟨l, r, hlog⟩ := List.append_of_mem hg
    obtain ⟨op, hop, -, hsingle⟩ := interleaved_log freshCounter_interleavable trivial hs hlog
    exact ⟨op, hop, resetsCounter_op hsingle hr⟩
  openings := by
    intro g hg user candidate body hop
    obtain ⟨l, r, hlog⟩ := List.append_of_mem hg
    exact opening_log hs hlog hop user candidate body rfl
  decreases := by
    intro l g r hlog id row row' hrow hrow' hlt
    obtain ⟨x, hx, hcount⟩ := freshCounter_step hs hlog hrow
    rw [hrow'] at hx
    cases hx
    rw [hcount] at hlt ⊢
    exact contactsSince_lt hlt
  counted := by
    intro l m r hlog id row row' hrow hrow'
    obtain ⟨x, hx, hcount⟩ := contactsSince_counts hs hlog hrow
    rw [hrow'] at hx
    cases hx
    exact hcount
  inserted := by
    intro l g r hlog id row' hn hrow'
    obtain ⟨op, hop, -, hsingle⟩ := interleaved_log freshCounter_interleavable trivial hs hlog
    rw [replay_snoc] at hrow'
    exact inserted_counter hsingle hn hrow'

/-! ## Stale saves -/

/-- A plan change waits for Stripe while a recruiter opens a conversation. -/
def lostContactRun : List (Label Error Op) :=
  [.spawn (.changePlan 300 .growth), .step 0, .step 0, .step 0,
    .spawn (.openConversation 300 400 "Bonjour")] ++ List.replicate 11 (.step 1) ++
    [.step 0, .step 0]

/-- The counter of a row before and after the last commit. -/
def lastContacts (d₀ : Db) (log : List (Txn.Group Write)) (id : Id) : Option Int × Option Int :=
  (((replay store d₀ log.dropLast).subscription? id).map (·.contactsUsed),
    ((replay store d₀ log).subscription? id).map (·.contactsUsed))

/-- The `save` of the plan change takes the counter back from 4 to 3. -/
theorem stale_save_loses_contact :
    ¬ ∀ (config : Config) (d₀ : Db) (s : RunState), (system config).Reachable d₀ s →
      CountsContacts d₀ s := by
  intro h
  have hrun : ((system .default).runLabels .all (State.init paidCompany) lostContactRun).map
      (fun s => lastContacts paidCompany s.log 50) = some (some 4, some 3) := by
    decide
  obtain ⟨s, hs, hst⟩ := System.reach_of_run hrun
  simp only [lastContacts, Prod.mk.injEq, Option.map_eq_some_iff] at hst
  obtain ⟨⟨row, hrow, h4⟩, row', hrow', h3⟩ := hst
  rcases List.eq_nil_or_concat s.log with hnil | ⟨l, g, hlog⟩
  · rw [hnil, List.dropLast_nil] at hrow
    rw [hnil, hrow] at hrow'
    cases hrow'
    omega
  · rw [List.concat_eq_append] at hlog
    rw [hlog, List.dropLast_concat] at hrow
    rw [hlog] at hrow'
    have := ((h .default paidCompany s hs).decreases l g [] hlog 50 row row' hrow hrow'
      (by omega)).2
    omega

/-- The condition admits calls that do not overlap: the same two, one after the other. -/
theorem contacts_used_counts_serial :
    ∃ s : RunState, s.db.subscriptions.rows.map (·.contactsUsed) = [4] ∧
      CountsContacts paidCompany s := by
  have hrun : ((system .default).runLabels freshCounterRuns (State.init paidCompany)
      (.spawn (.changePlan 300 .growth) :: List.replicate 7 (.step 0) ++
        .spawn (.openConversation 300 400 "Bonjour") :: List.replicate 12 (.step 1))).map
      (fun s => s.db.subscriptions.rows.map (·.contactsUsed)) = some [4] := by
    decide
  obtain ⟨s, hs, hst⟩ := System.reach_of_run hrun
  exact ⟨s, hst, contacts_used_counts .default paidCompany s hs⟩

end JobBoard
