import JobBoard.Subscriptions.Interleaving

/-!
# Calls one at a time

In the runs whose calls do not overlap, the table of subscriptions does not
change under a running call (`SameSubs`): what a call has read is still there
when it writes. `serial_sound` is the rule for invariants of such runs, and
`calm_answers` passes from statement to statement what a call knows.
-/

set_option autoImplicit false

namespace JobBoard

open Txn Prog

/-- Nobody moves the database. -/
def AtOnce (_ : List Key) (d d' : Db) : Prop := d' = d

/-- The table of subscriptions is the same. -/
def SameSubs (d d' : Db) : Prop := d'.subscriptions = d.subscriptions

theorem knows_sameSubs : Knows SameSubs where
  refl := fun _ => rfl
  trans := fun hab hbc => Eq.trans hbc hab

theorem SameSubs.symm {d d' : Db} (h : SameSubs d d') : SameSubs d' d := Eq.symm h

theorem SameSubs.subscription? {d d' : Db} (h : SameSubs d d') (id : Id) :
    d'.subscription? id = d.subscription? id := by
  rw [Db.subscription?, h]
  rfl

/-- What a write makes of the table depends on the table alone. -/
theorem SameSubs.applyAll {d d' : Db} (h : SameSubs d d') (ws : List Write) :
    SameSubs (store.applyAll d ws) (store.applyAll d' ws) := by
  induction ws generalizing d d' with
  | nil => exact h
  | cons w ws ih =>
    refine ih ?_
    unfold SameSubs at h ⊢
    cases w <;> first | exact h | simp only [store, Write.apply, h]

theorem sameSubs_quiet {ws : List Write} (h : ∀ w ∈ ws, w.Quiet) (d : Db) :
    SameSubs d (store.applyAll d ws) := quiet_subscriptions h d

theorem SameSubs.insertViolation {d d' : Db} (h : SameSubs d d') (s : Subscription) :
    d'.insertSubscriptionViolation s = d.insertSubscriptionViolation s := by
  unfold Db.insertSubscriptionViolation Db.subscriptionViolation Db.activeElsewhere
  rw [h.subscription?, h]

theorem SameSubs.violation {d d' : Db} (h : SameSubs d d') (s : Subscription) :
    d'.subscriptionViolation s = d.subscriptionViolation s := by
  unfold Db.subscriptionViolation Db.activeElsewhere
  rw [h]

theorem Inserts.sameSubs {op : Op} {v d : Db} {s : Subscription} (h : Inserts op v s)
    (hd : SameSubs v d) : Inserts op d s := by
  unfold SameSubs at hd
  cases op <;> first | exact h | (simp only [Inserts, hd] at h ⊢; exact h)

section

variable {op : Op} {d d' : Db} {es : List Write}

theorem SubEffect.congr (h : SubEffect SameSubs op d es) (hd : SameSubs d d') :
    SubEffect SameSubs op d' es := by
  cases h with
  | save hv hl hsaves hu hr hunique =>
    refine .save (knows_sameSubs.trans hv hd) hl hsaves (knows_sameSubs.trans hu hd) hr ?_
    intro hne row hrow
    rw [hd.subscription?] at hrow
    rw [hd.violation]
    exact hunique hne row hrow
  | insert hv hs hunique =>
    exact .insert (knows_sameSubs.trans hv hd) hs (by rw [hd.insertViolation]; exact hunique)
  | consume hop hs hlt => exact .consume hop (by rw [hd.subscription?]; exact hs) hlt

theorem SubEffect.interleaved (h : SubEffect SameSubs op d es) : SubEffect Persist op d es := by
  cases h with
  | save hv hl hsaves hu hr hunique =>
    exact .save (.of_eq hv) hl hsaves (.of_eq hu) hr hunique
  | insert hv hs hunique => exact .insert (.of_eq hv) hs hunique
  | consume hop hs hlt => exact .consume hop hs hlt

/-- One at a time, a `save` finds the row that its call has loaded. -/
theorem SubEffect.save_loaded {l e r : Subscription}
    (h : SubEffect SameSubs op d [.saveSubscription l e r]) :
    Saves op l e ∧ d.subscription? l.id = some l ∧ r = l := by
  cases h with
  | save hv hl hsaves hu hr hunique =>
    have hloaded : d.subscription? l.id = some l := by
      rw [SameSubs.subscription? hv]
      exact Table.get?_of_mem hl
    refine ⟨hsaves, hloaded, ?_⟩
    rw [← SameSubs.subscription? hu, hloaded] at hr
    exact (Option.some.inj hr).symm

end

/-! ## Runs -/

/-- The calls of the runs `R`, one at a time. -/
def serially (R : Runs Db Write Op) : Assume Db Write Key Op :=
  ⟨{ R with serial := true }, fun _ d d' => SameSubs d d', fun _ _ => True⟩

/-- The effects that the runs `R` admit one at a time. -/
def SerialEffect (R : Runs Db Write Op) (op : Op) (d : Db) (es : List Write) : Prop :=
  SubEffect SameSubs op d es ∧ R.adm op d es = true

/-- What is asked of the runs under study and of an invariant of the table. -/
structure Serializable (R : Runs Db Write Op) (I : Db → Prop) : Prop where
  adm : ∀ {op d d' es}, SameSubs d d' → R.adm op d es = true → R.adm op d' es = true
  inv : ∀ {d d'}, SameSubs d d' → I d → I d'
  step : ∀ {op d es}, I d → SerialEffect R op d es → I (store.applyAll d es)

section

variable {R : Runs Db Write Op} {I : Db → Prop}

theorem Serializable.laws (h : Serializable R I) (op : Op) :
    EffectLaws store (serially R).rely SameSubs Write.Quiet (SerialEffect R op) where
  refl := knows_sameSubs.refl
  trans := knows_sameSubs.trans
  steps := fun hq _ d => sameSubs_quiet hq d
  view := fun hr _ => SameSubs.applyAll hr _
  stable := fun hr _ _ hP =>
    ⟨hP.1.congr (SameSubs.applyAll hr _), h.adm (SameSubs.applyAll hr _) hP.2⟩

/-- A group makes at most one effect. -/
theorem serial_group {op : Op} {d : Db} {ws : List Write}
    (h : Single store Write.Quiet (SerialEffect R op) d ws) (hR : Serializable R I) :
    SameSubs d (store.applyAll d ws) ∨
    ∃ es, SerialEffect R op d es ∧ SameSubs (store.applyAll d es) (store.applyAll d ws) ∧
      ∀ w ∈ es, w ∈ ws := by
  rcases h with hq | ⟨ps, es, qs, rfl, hps, hqs, hP⟩
  · exact .inl (sameSubs_quiet hq d)
  · have hd := sameSubs_quiet hps d
    refine .inr ⟨es, ⟨hP.1.congr hd.symm, hR.adm hd.symm hP.2⟩, ?_, fun w hw => by simp [hw]⟩
    rw [Store.applyAll_append, Store.applyAll_append]
    exact knows_sameSubs.trans (hd.applyAll es) (sameSubs_quiet hqs _)

theorem serial_sound (config : Config) (h : Serializable R I) :
    Sound (system config) (serially R) I
      fun _ op => .effect store Write.Quiet (SerialEffect R op) := by
  refine Sound.of_effects h.laws rfl (fun hab hbc => knows_sameSubs.trans hab hbc) id
    (fun _ => trivial) ?_ fun _ _ => program_effects knows_sameSubs config _ _ _
  intro op d ws hI hg
  refine ⟨?_, trivial, fun hs => by cases hs⟩
  rcases serial_group (R := R) hg h with he | ⟨es, hP, he, -⟩
  · exact h.inv he hI
  · exact h.inv he (h.step hI hP)

/-- What a call does besides to the database, when nobody interferes. -/
theorem serial_and {config : Config} (hR : Serializable R I)
    {E : Nat → Op → Bool → Db → List Write → Prop}
    (h : ∀ {i op d}, I d → R.ops d op = true → wp store ((system config).rules (serially R).alone op)
      (fun b _ d ws => E i op b d ws) (fun _ _ _ => True) (program config i op)
      (fun σ _ _ => σ.tx = none) ⟨none, []⟩ d) :
    Sound (system config) (serially R).alone I fun i op =>
      (Spec.effect store Write.Quiet (SerialEffect R op)).and
        ⟨fun b _ d ws => E i op b d ws, fun _ _ _ => True, fun _ _ _ => True⟩ := by
  refine ((serial_sound config hR).alone rfl).and (fun _ => trivial) (fun _ => trivial)
    fun {i op d} hI hop => ?_
  refine wp_and (.refl _) (.refl _) (fun _ _ _ _ hg _ => hg) (fun _ _ _ _ _ => trivial)
    (fun σ σ' τ d a hb hq _ => ?_) (.none []) (h hI hop) (h hI hop)
  cases hb with
  | none c => exact ⟨rfl, trivial⟩
  | some ws c hH => cases hq

/-! ## Rows -/

/-- What a group of a serial run makes of a row. -/
inductive SerialRow (R : Runs Db Write Op) (op : Op) (d : Db) (ws : List Write)
    (row : Subscription) : Subscription → Prop
  | same : SerialRow R op d ws row row
  | save {e : _} (hs : Saves op row e) (hw : .saveSubscription row e row ∈ ws)
      (hadm : R.adm op d [.saveSubscription row e row] = true) : SerialRow R op d ws row e
  | consume (hop : ∃ user candidate body, op = .openConversation user candidate body) :
      SerialRow R op d ws row { row with contactsUsed := row.contactsUsed + 1 }

theorem Saves.overwrite {op : Op} {l e : Subscription} (h : Saves op l e) :
    e.overwrite l l = e := by
  have hkept : e.id = l.id ∧ e.companyId = l.companyId ∧ e.startsAt = l.startsAt ∧
      e.createdAt = l.createdAt := by
    cases op <;> simp only [Saves] at h
    case handleWebhook delivery =>
      obtain ⟨event, -, h⟩ := h
      cases event <;> simp only [EventSaves, PaymentWebhookService.renewed] at h <;> grind
    all_goals grind
  obtain ⟨hid, hc, hst, hcr⟩ := hkept
  cases e
  cases l
  simp only at hid hc hst hcr
  simp [Subscription.overwrite, setColumn_reread, hid, hc, hst, hcr]

theorem serial_row {op : Op} {d : Db} {ws : List Write}
    (h : Single store Write.Quiet (SerialEffect R op) d ws) (hR : Serializable R I) {id : Id}
    {row : Subscription} (hrow : d.subscription? id = some row) :
    ∃ row', (store.applyAll d ws).subscription? id = some row' ∧ SerialRow R op d ws row row' := by
  rcases serial_group h hR with hsame | ⟨es, ⟨heff, hadm⟩, hsame, hmem⟩
  · exact ⟨row, by rw [hsame.subscription?]; exact hrow, .same⟩
  · obtain ⟨row', hrow', hstep⟩ := heff.interleaved.row hrow
    rw [hsame.subscription?]
    refine ⟨row', hrow', ?_⟩
    cases hstep with
    | same => exact .same
    | @save l e r hes hl hc hs =>
      subst hes
      obtain ⟨-, hload, rfl⟩ := heff.save_loaded
      rw [hl, Table.key_of_get? hrow, hrow] at hload
      cases hload
      rw [hs.overwrite]
      exact .save hs (hmem _ (List.mem_singleton_self _)) hadm
    | consume hes hop => exact .consume hop

theorem serial_new {op : Op} {d : Db} {ws : List Write}
    (h : Single store Write.Quiet (SerialEffect R op) d ws) (hR : Serializable R I) {id : Id}
    {row' : Subscription} (hnone : d.subscription? id = none)
    (hrow' : (store.applyAll d ws).subscription? id = some row') :
    .insertSubscription row' ∈ ws ∧ R.adm op d [.insertSubscription row'] = true ∧
      d.insertSubscriptionViolation row' = none ∧ Inserts op d row' := by
  rcases serial_group h hR with hsame | ⟨es, ⟨heff, hadm⟩, hsame, hmem⟩
  · rw [hsame.subscription?, hnone] at hrow'
    cases hrow'
  · rw [hsame.subscription?] at hrow'
    obtain ⟨rfl, hunique, -⟩ := heff.interleaved.new hnone hrow'
    refine ⟨hmem _ (List.mem_singleton_self _), hadm, hunique, ?_⟩
    cases heff with
    | insert hv hs => exact hs.sameSubs hv

/-- A group changes one row at most. -/
theorem serial_other {op : Op} {d : Db} {ws : List Write}
    (h : Single store Write.Quiet (SerialEffect R op) d ws) (hR : Serializable R I) :
    ∃ k, ∀ id, id ≠ k → (store.applyAll d ws).subscription? id = d.subscription? id := by
  rcases serial_group h hR with hsame | ⟨es, ⟨heff, -⟩, hsame, -⟩
  · exact ⟨0, fun id _ => hsame.subscription? id⟩
  · cases heff with
    | @save l e r v u hv hl hsaves hu hr hunique =>
      refine ⟨e.id, fun id hid => ?_⟩
      rw [hsame.subscription?, subscription?_save, if_neg hid]
    | @insert s v hv hs hunique =>
      refine ⟨s.id, fun id hid => ?_⟩
      rw [hsame.subscription?, subscription?_insert (insertViolation_none hunique).1,
        if_neg (Ne.symm hid)]
    | @consume user candidate body k s hop hs hlt =>
      refine ⟨k, fun id hid => ?_⟩
      rw [hsame.subscription?, subscription?_consume, if_neg hid]

end

/-! ## Answers -/

section

variable {R : Runs Db Write Op} {α : Type} {L : Rules Db Write Key Error}
  {err : List (List Write) → Error → Db → Prop} {σ : Local Db Write Error} {d : Db}

/-- A piece of a call that leaves the table alone keeps what is known of it. -/
theorem calm_answers (hL : ∀ h d d', L.rely h d d' → SameSubs d d') {Er : Error → Prop}
    (hfault : ∀ e, L.fault e → Er e) (herr : ∀ e d, Er e → σ.fails err e d) {p : M α}
    (hp : p.Plain (fun ws => ∀ w ∈ ws, w.Quiet) (fun ws => ∀ w ∈ ws, w.Quiet) Er)
    {Q : Local Db Write Error → Db → α → Prop}
    (hQ : ∀ τ d' a, σ.SameHandler τ → SameSubs (store.view σ d) (store.view τ d') → Q τ d' a) :
    Answers store L err p Q σ d :=
  hp.answers knows_sameSubs.refl knows_sameSubs.trans (fun hr => SameSubs.applyAll (hL _ _ _ hr) _)
    (fun _ v hws => sameSubs_quiet hws v)
    (fun _ d hws => SameSubs.applyAll (sameSubs_quiet hws d) _) hfault herr hQ

/-- Every call closes its transaction, whatever it writes and answers. -/
theorem program_wp {G : Bool → List Key → Db → List Write → Prop} (config : Config) (i : Nat)
    (op : Op) (hG : ∀ b k d ws, G b k d ws) (herr : ∀ c e d, err c e d)
    {Q : Local Db Write Error → Db → Result → Prop} (hQ : ∀ c d a, Q ⟨none, c⟩ d a) (d : Db) :
    wp store L G err (program config i op) Q ⟨none, []⟩ d := by
  refine effects_wp_true hG herr (fun _ _ => trivial) (fun {τ _ a σ d} hτ h => ?_)
    (program_effects ⟨fun _ => trivial, fun _ _ => trivial⟩ config i op d) rfl fun h => by cases h
  rw [show τ.inTx = false from hτ] at h
  obtain ⟨tx, c⟩ := σ
  cases tx with
  | none => exact hQ c d a
  | some tx => cases h

theorem program_answers (config : Config) (i : Nat) (op : Op) (herr : ∀ c e d, err c e d)
    {Q : Local Db Write Error → Db → Result → Prop} (hQ : ∀ c d a, Q ⟨none, c⟩ d a) (d : Db) :
    Answers store L err (program config i op) Q ⟨none, []⟩ d :=
  program_wp config i op (fun _ _ _ _ => trivial) herr hQ d

end

end JobBoard
