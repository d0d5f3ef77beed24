import Mathlib.Data.List.Induction
import JobBoard.Subscriptions.Effects

/-!
# Interleaved calls on the subscriptions table

What the calls rely on (`SubRely`): a row stays with its company, a locked row
does not change, and while a call holds the index entry of a company no other
row of the company enters the index. `SubEffect.row` says what one call
may make of a row, `interleaved_sound` that every interleaving of calls is made
of such steps.
-/

set_option autoImplicit false

namespace JobBoard

open Txn Prog

/-- Rows stay, with their company. -/
def Persist (d d' : Db) : Prop :=
  ∀ id r, d.subscription? id = some r →
    ∃ r', d'.subscription? id = some r' ∧ r'.companyId = r.companyId

theorem Persist.of_eq {d d' : Db} (h : d'.subscriptions = d.subscriptions) : Persist d d' := by
  intro id r hr
  exact ⟨r, by rw [Db.subscription?, h]; exact hr, rfl⟩

theorem knows_persist : Knows Persist where
  refl := fun d => .of_eq rfl
  trans := by
    intro a b c hab hbc id r hr
    obtain ⟨r', hr', hc'⟩ := hab id r hr
    obtain ⟨r'', hr'', hc''⟩ := hbc id r' hr'
    exact ⟨r'', hr'', hc''.trans hc'⟩

structure SubRely (h : List Key) (d d' : Db) : Prop where
  persist : Persist d d'
  row : ∀ id, .row "subscriptions" id ∈ h → d'.subscription? id = d.subscription? id
  company : ∀ c, .activeIndex c ∈ h → ∀ id r', d'.subscription? id = some r' → r'.companyId = c →
    r'.status.inActiveIndex = true →
    ∃ r, d.subscription? id = some r ∧ r.status.inActiveIndex = true

theorem SubRely.of_eq {h : List Key} {d d' : Db} (he : d'.subscriptions = d.subscriptions) :
    SubRely h d d' where
  persist := .of_eq he
  row := fun id _ => by rw [Db.subscription?, he]; rfl
  company := by
    intro c _ id r' hr' _ hact
    rw [Db.subscription?, he] at hr'
    exact ⟨r', hr', hact⟩

theorem SubRely.mono {h k : List Key} {d d' : Db} (hr : SubRely h d d') (hk : ∀ x ∈ k, x ∈ h) :
    SubRely k d d' :=
  ⟨hr.persist, fun id hid => hr.row id (hk _ hid), fun c hc => hr.company c (hk _ hc)⟩

theorem SubRely.trans {h : List Key} {a b c : Db} (hab : SubRely h a b) (hbc : SubRely h b c) :
    SubRely h a c where
  persist := knows_persist.trans hab.persist hbc.persist
  row := fun id hk => (hbc.row id hk).trans (hab.row id hk)
  company := by
    intro co hk id r'' hr'' hco hact
    obtain ⟨r', hr', hact'⟩ := hbc.company co hk id r'' hr'' hco hact
    obtain ⟨x, hx, hxc⟩ := hbc.persist id r' hr'
    rw [hr''] at hx
    cases hx
    exact hab.company co hk id r' hr' (hxc ▸ hco) hact'

/-! ## One effect -/

section

variable {d : Db} {id : Id}

theorem subscription?_save {l e r : Subscription} :
    (store.applyAll d [.saveSubscription l e r]).subscription? id =
      if id = e.id then (d.subscription? id).map (e.overwrite r) else d.subscription? id :=
  Table.get?_modify (e.overwrite r) fun _ => rfl

theorem subscription?_consume {k : Id} :
    (store.applyAll d [.incrementContactsUsed k]).subscription? id =
      if id = k then (d.subscription? id).map (fun s => { s with contactsUsed := s.contactsUsed + 1 })
      else d.subscription? id :=
  Table.get?_modify (fun s : Subscription => { s with contactsUsed := s.contactsUsed + 1 })
    fun _ => rfl

theorem subscription?_insert {s : Subscription} (h : d.subscription? s.id = none) :
    (store.applyAll d [.insertSubscription s]).subscription? id =
      if s.id = id then some s else d.subscription? id :=
  Table.get?_insert h

theorem insertViolation_none {s : Subscription} (h : d.insertSubscriptionViolation s = none) :
    d.subscription? s.id = none ∧ d.subscriptionViolation s = none := by
  unfold Db.insertSubscriptionViolation at h
  split at h
  · cases h
  · next hn => exact ⟨by simpa using hn, h⟩

theorem subscriptionViolation_none {s : Subscription} :
    d.subscriptionViolation s = none ↔
      (s.status.inActiveIndex = true → ∀ r ∈ d.subscriptions.rows, r.id ≠ s.id →
        r.companyId = s.companyId → r.status.inActiveIndex = false) := by
  unfold Db.subscriptionViolation Db.activeElsewhere
  by_cases hs : s.status.inActiveIndex = true <;> simp [hs]

end

/-- Holding the index entry of its company, a call may still write the row `s`. -/
theorem SubRely.noViolation {ks : List Key} {d d' : Db} (hr : SubRely ks d d') {s : Subscription}
    (hk : s.status.inActiveIndex = true → .activeIndex s.companyId ∈ ks)
    (h : d.subscriptionViolation s = none) : d'.subscriptionViolation s = none := by
  rw [subscriptionViolation_none] at h ⊢
  intro hact x hx hxid hxc
  by_contra hxact
  obtain ⟨z, hz, hzact⟩ := hr.company _ (hk hact) x.id x (Table.get?_of_mem hx) hxc
    (by simpa using hxact)
  obtain ⟨x', hx', hxc'⟩ := hr.persist x.id z hz
  rw [Db.subscription?, Table.get?_of_mem hx] at hx'
  cases hx'
  have := h hact z (Table.mem_of_get? hz) (by rw [Table.key_of_get? hz]; exact hxid)
    (hxc'.symm.trans hxc)
  rw [hzact] at this
  cases this

/-- What one call makes of a row that was there. -/
inductive RowStep (op : Op) (d : Db) (es : List Write) (row : Subscription) : Subscription → Prop
  | same : RowStep op d es row row
  | save {l e r : _} (hes : es = [.saveSubscription l e r]) (hl : l.id = row.id)
      (hc : l.companyId = row.companyId) (hs : Saves op l e) : RowStep op d es row (e.overwrite r row)
  | consume (hes : es = [.incrementContactsUsed row.id])
      (hop : ∃ user candidate body, op = .openConversation user candidate body)
      (hlt : row.contactsUsed < row.contactQuota) :
      RowStep op d es row { row with contactsUsed := row.contactsUsed + 1 }

section

variable {op : Op} {d : Db} {es : List Write}

theorem SubEffect.row (h : SubEffect Persist op d es) {id : Id} {row : Subscription}
    (hrow : d.subscription? id = some row) :
    ∃ row', (store.applyAll d es).subscription? id = some row' ∧ RowStep op d es row row' := by
  cases h with
  | @save l e r v u hv hl hsaves hu hr hunique =>
    rw [subscription?_save, hsaves.id_eq.1]
    split
    · next hid =>
      subst hid
      obtain ⟨x, hx, hc⟩ := hv l.id l (Table.get?_of_mem hl)
      rw [hrow] at hx
      cases hx
      refine ⟨_, by rw [hrow]; rfl, .save rfl (Table.key_of_get? hrow).symm hc.symm hsaves⟩
    · exact ⟨row, hrow, .same⟩
  | @insert s v hv hs hunique =>
    refine ⟨row, ?_, .same⟩
    have hn := (insertViolation_none hunique).1
    rw [subscription?_insert hn, if_neg]
    · exact hrow
    · rintro rfl
      rw [hn] at hrow
      cases hrow
  | @consume user candidate body k s hop hs hlt =>
    rw [subscription?_consume]
    split
    · next hid =>
      subst hid
      rw [hrow] at hs
      cases hs
      have hk : row.id = id := Table.key_of_get? hrow
      exact ⟨_, by rw [hrow]; rfl, .consume (by rw [hk]) ⟨_, _, _, hop⟩ hlt⟩
    · exact ⟨row, hrow, .same⟩

theorem RowStep.companyId {row row' : Subscription} (h : RowStep op d es row row') :
    row'.companyId = row.companyId := by
  cases h <;> rfl

theorem SubEffect.persist (h : SubEffect Persist op d es) :
    Persist d (store.applyAll d es) := by
  intro id r hr
  obtain ⟨r', hr', hstep⟩ := h.row hr
  exact ⟨r', hr', hstep.companyId⟩

/-- A row that was not there is the inserted one. -/
theorem SubEffect.new (h : SubEffect Persist op d es) {id : Id} {row' : Subscription}
    (hn : d.subscription? id = none) (hr : (store.applyAll d es).subscription? id = some row') :
    es = [.insertSubscription row'] ∧ d.insertSubscriptionViolation row' = none ∧
      ∃ v, Persist v d ∧ Inserts op v row' := by
  cases h with
  | save =>
    rw [subscription?_save] at hr
    split at hr <;> simp [hn] at hr
  | @insert s v hv hs hunique =>
    rw [subscription?_insert (insertViolation_none hunique).1] at hr
    split at hr
    · cases hr
      exact ⟨rfl, hunique, v, hv, hs⟩
    · rw [hn] at hr
      cases hr
  | consume =>
    rw [subscription?_consume] at hr
    split at hr <;> simp [hn] at hr

theorem Inserts.inActiveIndex {v : Db} {s : Subscription} (h : Inserts op v s) :
    s.status.inActiveIndex = true := by
  cases op <;> simp only [Inserts] at h
  case handleWebhook =>
    obtain ⟨_, _, _, _, _, _, _, hs, _⟩ := h
    rw [hs]; rfl
  case createCompany => rw [h.1]; rfl
  case assignPlan => rw [h.2.1]; rfl

/-- An effect is a step that the calls whose locks it leaves alone rely on. -/
theorem SubEffect.rely (h : SubEffect Persist op d es) {ks : List Key}
    (hk : ∀ k ∈ ks, k ∉ store.locks es) : SubRely ks d (store.applyAll d es) where
  persist := h.persist
  row := by
    intro id hid
    have hnot := hk _ hid
    cases h with
    | @save l e r v u hv hl hsaves hu hr hunique =>
      rw [subscription?_save, if_neg]
      rintro rfl
      exact hnot (by simp [Store.locks, store, Write.keys])
    | @insert s v hv hs hunique =>
      rw [subscription?_insert (insertViolation_none hunique).1, if_neg]
      rintro rfl
      exact hnot (by simp [Store.locks, store, Write.keys])
    | consume =>
      rw [subscription?_consume, if_neg]
      rintro rfl
      exact hnot (by simp [Store.locks, store, Write.keys])
  company := by
    intro c hc id r' hr' hco hact
    have hnot := hk _ hc
    cases hrow : d.subscription? id with
    | none =>
      obtain ⟨rfl, -, v, -, hins⟩ := h.new hrow hr'
      exact absurd (by simp [Store.locks, store, Write.keys, hins.inActiveIndex, hco]) hnot
    | some row =>
      obtain ⟨row', hrow', hstep⟩ := h.row hrow
      rw [hr'] at hrow'
      cases hrow'
      refine ⟨row, rfl, ?_⟩
      cases hstep with
      | same => exact hact
      | @save l e r hes hl hlc hs =>
        subst hes
        have hact : (setColumn e.status r.status row.status).inActiveIndex = true := hact
        rcases setColumn_eq e.status r.status row.status with h | ⟨h, hne⟩
        · rw [h] at hact
          exact hact
        · rw [h] at hact
          refine absurd ?_ hnot
          have : e.companyId = c := by
            rw [hs.id_eq.2, hlc]
            exact hco
          simp [Store.locks, store, Write.keys, hne, hact, this]
      | consume => exact hact

/-- An effect is not disturbed by the others while its locks are held. -/
theorem SubEffect.stable (h : SubEffect Persist op d es) {d' : Db}
    (hr : SubRely (store.locks es) d d') : SubEffect Persist op d' es := by
  cases h with
  | @save l e r v u hv hl hsaves hu hr' hunique =>
    refine .save (knows_persist.trans hv hr.persist) hl hsaves
      (knows_persist.trans hu hr.persist) hr' ?_
    intro hne row hrow
    have hlock : Key.row "subscriptions" l.id ∈ store.locks [.saveSubscription l e r] := by
      simp [Store.locks, store, Write.keys, hsaves.id_eq.1]
    rw [hr.row l.id hlock] at hrow
    obtain ⟨y, hy, hyc⟩ := hv l.id l (Table.get?_of_mem hl)
    rw [hrow] at hy
    cases hy
    refine hr.noViolation (fun hact => ?_) (hunique hne row hrow)
    have hact : (setColumn e.status r.status row.status).inActiveIndex = true := hact
    rw [setColumn, if_neg hne] at hact
    rw [Subscription.overwrite_companyId, hyc]
    simp [Store.locks, store, Write.keys, hsaves.id_eq.2, hne, hact]
  | @insert s v hv hs hunique =>
    refine .insert (knows_persist.trans hv hr.persist) hs ?_
    obtain ⟨hnone, hviol⟩ := insertViolation_none hunique
    have hlock : Key.row "subscriptions" s.id ∈ store.locks [.insertSubscription s] := by
      simp [Store.locks, store, Write.keys]
    unfold Db.insertSubscriptionViolation
    rw [hr.row s.id hlock, hnone]
    simp only [Option.isSome_none, Bool.false_eq_true, if_false]
    exact hr.noViolation (fun hact => by simp [Store.locks, store, Write.keys, hact]) hviol
  | @consume user candidate body k s hop hs hlt =>
    refine .consume hop ?_ hlt
    rw [hr.row k (by simp [Store.locks, store, Write.keys])]
    exact hs

end

/-! ## All calls -/

theorem SubRely.congr {ks : List Key} {d d' c c' : Db} (h : SubRely ks d d')
    (hd : c.subscriptions = d.subscriptions) (hd' : c'.subscriptions = d'.subscriptions) :
    SubRely ks c c' :=
  ((SubRely.of_eq hd.symm).trans h).trans (.of_eq hd')

/-- What a call relies on besides `SubRely`: quiet writes keep it, and so do the
effects `E` of the others, on a table with the invariant `I`. -/
structure Reliable (E : Op → Db → List Write → Prop) (I : Db → Prop)
    (X : List Key → Db → Db → Prop) : Prop where
  of_eq : ∀ {h d d'}, d'.subscriptions = d.subscriptions → X h d d'
  trans : ∀ {h a b c}, SubRely h b c → X h a b → X h b c → X h a c
  mono : ∀ {h k d d'}, X h d d' → (∀ x ∈ k, x ∈ h) → X k d d'
  step : ∀ {op d es ks}, I d → E op d es → (∀ k ∈ ks, k ∉ store.locks es) →
    X ks d (store.applyAll d es)

/-- Nothing more is relied on. -/
def NoMore : List Key → Db → Db → Prop := fun _ _ _ => True

theorem noMore_reliable (E : Op → Db → List Write → Prop) (I : Db → Prop) : Reliable E I NoMore where
  of_eq := fun _ => trivial
  trans := fun _ _ _ => trivial
  mono := fun _ _ => trivial
  step := fun _ _ _ => trivial

/-- Any calls, interleaved, in the runs `R`. -/
def interleaved (R : Runs Db Write Op) (X : List Key → Db → Db → Prop) : Assume Db Write Key Op :=
  ⟨R, fun h d d' => SubRely h d d' ∧ X h d d', fun _ _ => True⟩

/-- The effects that the runs `R` admit. -/
def Effect (R : Runs Db Write Op) (op : Op) (d : Db) (es : List Write) : Prop :=
  SubEffect Persist op d es ∧ R.adm op d es = true

/-- A group of writes that reaches the committed database makes at most one
effect. -/
theorem group_cases {R : Runs Db Write Op} {op : Op} {d : Db} {ws : List Write}
    (h : Single store Write.Quiet (Effect R op) d ws) :
    (store.applyAll d ws).subscriptions = d.subscriptions ∨
    ∃ d₁ es, d₁.subscriptions = d.subscriptions ∧ Effect R op d₁ es ∧
      (store.applyAll d ws).subscriptions = (store.applyAll d₁ es).subscriptions ∧
      (∀ k ∈ store.locks es, k ∈ store.locks ws) ∧ ∀ w ∈ es, w ∈ ws := by
  rcases h with hq | ⟨ps, es, qs, rfl, hps, hqs, hP⟩
  · exact .inl (quiet_subscriptions hq d)
  · refine .inr ⟨_, es, quiet_subscriptions hps d, hP, ?_, ?_, fun w hw => by simp [hw]⟩
    · rw [Store.applyAll_append, Store.applyAll_append, quiet_subscriptions hqs]
    · exact fun k hk => by simp only [Store.locks_append, List.mem_append, hk, or_true, true_or]

/-- What is asked of the runs under study, of an invariant of the table and of
what the calls rely on. -/
structure Interleavable (R : Runs Db Write Op) (I : Db → Prop) (X : List Key → Db → Db → Prop) :
    Prop where
  adm : ∀ {op d d' es}, SubEffect Persist op d es → SubRely (store.locks es) d d' →
    X (store.locks es) d d' → R.adm op d es = true → R.adm op d' es = true
  inv : ∀ {d d'}, d'.subscriptions = d.subscriptions → I d → I d'
  step : ∀ {op d es}, I d → Effect R op d es → I (store.applyAll d es)
  more : Reliable (Effect R) I X

section

variable {R : Runs Db Write Op} {I : Db → Prop} {X : List Key → Db → Db → Prop}

theorem Reliable.congr {E : Op → Db → List Write → Prop} (hX : Reliable E I X) {ks : List Key}
    {d d' c c' : Db} (h : X ks d d') (hr : SubRely ks d d')
    (hd : c.subscriptions = d.subscriptions) (hd' : c'.subscriptions = d'.subscriptions) :
    X ks c c' :=
  hX.trans (.of_eq hd') (hX.trans hr (hX.of_eq hd.symm) h) (hX.of_eq hd')

theorem Interleavable.laws (h : Interleavable R I X) (op : Op) :
    EffectLaws store (interleaved R X).rely Persist Write.Quiet (Effect R op) where
  refl := knows_persist.refl
  trans := knows_persist.trans
  steps := fun hq _ d => ⟨.of_eq (quiet_subscriptions hq d), h.more.of_eq (quiet_subscriptions hq d)⟩
  view := fun hr hq =>
    (SubRely.congr hr.1 (quiet_subscriptions hq _) (quiet_subscriptions hq _)).persist
  stable := by
    intro ks d d' ps es ⟨hr, hx⟩ hps hk hP
    have hsub := quiet_subscriptions hps
    have hr' : SubRely (store.locks es) (store.applyAll d ps) (store.applyAll d' ps) :=
      (hr.mono hk).congr (hsub d) (hsub d')
    have hx' : X (store.locks es) (store.applyAll d ps) (store.applyAll d' ps) :=
      h.more.congr (h.more.mono hx hk) (hr.mono hk) (hsub d) (hsub d')
    exact ⟨hP.1.stable hr', h.adm hP.1 hr' hx' hP.2⟩

theorem interleaved_sound (config : Config) (h : Interleavable R I X) :
    Sound (system config) (interleaved R X) I
      fun _ op => .effect store Write.Quiet (Effect R op) := by
  refine Sound.of_effects h.laws ⟨.of_eq rfl, h.more.of_eq rfl⟩
    (fun hab hbc => ⟨hab.1.trans hbc.1, h.more.trans hbc.1 hab.2 hbc.2⟩)
    (fun hr => ⟨hr.1.mono (by simp), h.more.mono hr.2 (by simp)⟩)
    (fun _ => trivial) ?_ fun _ _ => program_effects knows_persist config _ _ _
  intro op d ws hI hg
  rcases group_cases hg with he | ⟨d₁, es, hd₁, hP, he, hlocks, -⟩
  · exact ⟨h.inv he hI, trivial, fun _ _ _ => ⟨.of_eq he, h.more.of_eq he⟩⟩
  · have hI₁ := h.inv hd₁ hI
    refine ⟨h.inv he (h.step hI₁ hP), trivial, fun _ ks hks => ?_⟩
    have hfree : ∀ k ∈ ks, k ∉ store.locks es := fun k hk hk' => hks k hk (hlocks k hk')
    have hr := hP.1.rely hfree
    exact ⟨hr.congr hd₁.symm he, h.more.congr (h.more.step hI₁ hP hfree) hr hd₁.symm he⟩

end

/-- Every group of the log of an interleaved run makes at most one effect, on a
table with the invariant. -/
theorem interleaved_log {config : Config} {R : Runs Db Write Op} {I : Db → Prop}
    {X : List Key → Db → Db → Prop} (h : Interleavable R I X) {d₀ : Db} (h₀ : I d₀) {s : RunState}
    (hs : (system config).Reach R d₀ s) {l r : List (Txn.Group Write)} {g : Txn.Group Write}
    (hlog : s.log = l ++ g :: r) : ∃ op, s.ops[g.call]? = some op ∧ I (replay store d₀ l) ∧
      Single store Write.Quiet (Effect R op) (replay store d₀ l) g.writes :=
  by
    obtain ⟨op, hop, hI, _, hg⟩ := ((interleaved_sound config h).good h₀ hs).log hlog
    exact ⟨op, hop, hI, hg⟩

/-- What every commit does to a row, a stretch of commits does. -/
theorem rows_along (P : Subscription → Subscription → Prop) {d₀ : Db} {log : List (Txn.Group Write)}
    (refl : ∀ row, P row row) (trans : ∀ {a b c}, P a b → P b c → P a c)
    (step : ∀ l g r, log = l ++ g :: r → ∀ id row, (replay store d₀ l).subscription? id = some row →
      ∃ row', (replay store d₀ (l ++ [g])).subscription? id = some row' ∧ P row row')
    {l m r : List (Txn.Group Write)} (hlog : log = l ++ m ++ r) {id : Id} {row : Subscription}
    (hrow : (replay store d₀ l).subscription? id = some row) :
    ∃ row', (replay store d₀ (l ++ m)).subscription? id = some row' ∧ P row row' := by
  induction m using List.reverseRecOn generalizing r with
  | nil => exact ⟨row, by simpa using hrow, refl row⟩
  | append_singleton m g ih =>
    have hlog' : log = l ++ m ++ (g :: r) := by simp [hlog]
    obtain ⟨row₁, hrow₁, h₁⟩ := ih hlog'
    obtain ⟨row₂, hrow₂, h₂⟩ := step (l ++ m) g r hlog' id row₁ hrow₁
    exact ⟨row₂, by rw [← List.append_assoc]; exact hrow₂, trans h₁ h₂⟩

/-- A group of an interleaved run is one step of a row. -/
theorem group_row {R : Runs Db Write Op} {op : Op} {d : Db} {ws : List Write}
    (h : Single store Write.Quiet (Effect R op) d ws) {id : Id} {row : Subscription}
    (hrow : d.subscription? id = some row) :
    ∃ row', (store.applyAll d ws).subscription? id = some row' ∧ (row' = row ∨
      ∃ d₁ es, d₁.subscriptions = d.subscriptions ∧ Effect R op d₁ es ∧
        (∀ w ∈ es, w ∈ ws) ∧ RowStep op d₁ es row row') := by
  rcases group_cases h with he | ⟨d₁, es, hd₁, hP, he, -, hsub⟩
  · exact ⟨row, by rw [Db.subscription?, he]; exact hrow, .inl rfl⟩
  · have hrow₁ : d₁.subscription? id = some row := by rw [Db.subscription?, hd₁]; exact hrow
    obtain ⟨row', hrow', hstep⟩ := hP.1.row hrow₁
    refine ⟨row', by rw [Db.subscription?, he]; exact hrow', .inr ⟨d₁, es, hd₁, hP, hsub, hstep⟩⟩

/-- A row that a group brings into the table is the inserted one. -/
theorem group_new {R : Runs Db Write Op} {op : Op} {d : Db} {ws : List Write}
    (h : Single store Write.Quiet (Effect R op) d ws) {id : Id} {row' : Subscription}
    (hnone : d.subscription? id = none)
    (hrow' : (store.applyAll d ws).subscription? id = some row') : ∃ v, Inserts op v row' := by
  rcases group_cases h with he | ⟨d₁, es, hd₁, hP, he, -, -⟩
  · rw [Db.subscription?, he] at hrow'
    rw [Db.subscription?, hrow'] at hnone
    cases hnone
  · rw [Db.subscription?, he] at hrow'
    rw [Db.subscription?, ← hd₁] at hnone
    obtain ⟨-, -, v, -, hins⟩ := hP.1.new hnone hrow'
    exact ⟨v, hins⟩

end JobBoard
