import JobBoard.Lib.Trace
import JobBoard.Lib.Leaves
import JobBoard.Services.System

/-!
# The creation of a company

`createCompany` writes the company, its recruiter, the role of the user and the trial by
statements that commit one by one. Where it fails once the company is in, the request cannot be
repeated: the lookups at its start find the company, or the recruiter.
-/

set_option autoImplicit false

namespace JobBoard.Creation

open Txn Prog
open CompanyService (createCompany insertCompany insertRecruiter)

/-! ## The system -/

/-- Creations, while the other services write what they like. -/
inductive Op where
  | createCompany (userId : Id) (dto : CreateCompanyDto)
  | elsewhere (w : Write)
  deriving DecidableEq, Repr

inductive Result where
  | unit
  | company (c : Company) (s : Subscription)
  deriving DecidableEq, Repr

def program (uuid : Id) : Op → M Result
  | .createCompany userId dto => do
    let r ← createCompany uuid userId dto
    return .company r.1 r.2
  | .elsewhere w => do
    write fun _ => [w]
    return .unit

def system : System Db Write Key Error Result Op := ⟨store, program, isFault⟩

abbrev RunState := State Db Write Error Result Op

abbrev Log := List (Txn.Group Write)

/-! ## Companies and trials stay -/

def HasIce (db : Db) (ice : String) : Prop := ∃ c ∈ db.companies.rows, c.ice = some ice

/-- The company has a subscription, in whatever status. -/
def Subscribed (db : Db) (companyId : Id) : Prop :=
  ∃ s ∈ db.subscriptions.rows, s.companyId = companyId

section

variable {d₀ db : Db} {A L : Log}

theorem hasIce_apply {ice : String} (w : Write) (h : HasIce db ice) :
    HasIce (store.apply db w) ice := by
  cases w with
  | insertCompany c =>
    obtain ⟨c', hc', hice⟩ := h
    exact ⟨c', Table.mem_insert_of_mem hc', hice⟩
  | _ => exact h

/-- An update leaves the company of a row. -/
theorem subscribed_modify {companyId id : Id} (f : Subscription → Subscription)
    (hf : ∀ s, (f s).id = s.id) (hcompany : ∀ s, (f s).companyId = s.companyId)
    (h : Subscribed db companyId) :
    Subscribed { db with subscriptions := db.subscriptions.modify id f hf } companyId := by
  obtain ⟨s, hs, hs'⟩ := h
  refine ⟨_, List.mem_map_of_mem hs, ?_⟩
  split
  · exact (hcompany s).trans hs'
  · exact hs'

theorem subscribed_apply {companyId : Id} (w : Write) (h : Subscribed db companyId) :
    Subscribed (store.apply db w) companyId := by
  cases w with
  | insertSubscription s =>
    obtain ⟨s', hs', hcompany⟩ := h
    exact ⟨s', Table.mem_insert_of_mem hs', hcompany⟩
  | saveSubscription loaded entity reread =>
    exact subscribed_modify (entity.overwrite reread) (fun _ => rfl) (fun _ => rfl) h
  | incrementContactsUsed id =>
    exact subscribed_modify (fun s => { s with contactsUsed := s.contactsUsed + 1 })
      (fun _ => rfl) (fun _ => rfl) h
  | _ => exact h

theorem hasIce_later {ice : String} (hl : A <+: L) (h : HasIce (replay store d₀ A) ice) :
    HasIce (replay store d₀ L) ice :=
  replay_keeps (P := fun db : Db => HasIce db ice) (fun _ w h => hasIce_apply w h) hl h

theorem subscribed_later {companyId : Id} (hl : A <+: L)
    (h : Subscribed (replay store d₀ A) companyId) : Subscribed (replay store d₀ L) companyId :=
  replay_keeps (P := fun db : Db => Subscribed db companyId) (fun _ w h => subscribed_apply w h)
    hl h

end

/-! ## What a creation publishes -/

/-- Call `i` has inserted its company. -/
def Inserted (L : Log) (i : Nat) : Prop := ∃ A c, WrittenAt L A i (.insertCompany c)

/-- The first write of a creation is its company. -/
def Guarantee (d₀ : Db) (i : Nat) (op : Op) (L : Log) (w : Write) : Prop :=
  ∀ userId dto, op = .createCompany userId dto →
    match w with
    | .insertCompany c => c.ice = some dto.ice ∧ (replay store d₀ L).companies.get? c.id = none
    | .insertRecruiter r => Inserted L i ∧ r.companyId = i
    | _ => Inserted L i

/-- What has been written when a creation returns. -/
def Created (d₀ : Db) (i : Nat) (op : Op) (L : Log) (_ : Result) : Prop :=
  ∀ userId dto, op = .createCompany userId dto → Subscribed (replay store d₀ L) i

section

variable {d₀ : Db} {i : Nat} {L : Log} {userId : Id} {dto : CreateCompanyDto}

theorem Inserted.mono {L' : Log} (h : Inserted L i) (hl : L <+: L') : Inserted L' i := by
  obtain ⟨A, c, hA⟩ := h
  exact ⟨A, c, hA.mono hl⟩

abbrev Creates {α : Type} (d₀ : Db) (i : Nat) (op : Op) (p : M α) (Q : Log → α → Prop) (L : Log) :
    Prop :=
  p.Promises store d₀ i (Guarantee d₀ i op) (fun e => isFault e = true) Q L

/-- An insert that the database has checked. -/
theorem insertUnique_creates {α : Type} {op : Op} {violated : Db → Option String} {w : Write}
    {a : α} {Q : Log → α → Prop}
    (h : ∀ L', L <+: L' → violated (replay store d₀ L') = none →
      Guarantee d₀ i op L' w ∧ Q (L' ++ [⟨i, false, [w]⟩]) a) :
    Creates d₀ i op (insertUnique violated w a) Q L := by
  refine promises_query fun L' ws b hr hf => ?_
  split at hf
  · cases hf
  · next hnone =>
    cases hf
    obtain ⟨hw, hQ⟩ := h L' hr.onto hnone
    exact .inr ⟨w, rfl, hw, hQ⟩

theorem subscribed_inserted {s : Subscription}
    (hnone : (replay store d₀ L).insertSubscriptionViolation s = none) :
    Subscribed (replay store d₀ (L ++ [⟨i, false, [.insertSubscription s]⟩])) s.companyId := by
  rw [replay_snoc]
  refine ⟨s, ?_, rfl⟩
  have hid : (replay store d₀ L).subscriptions.get? s.id = none := by
    unfold Db.insertSubscriptionViolation Db.subscription? at hnone
    split at hnone
    · cases hnone
    · next hid => exact Option.not_isSome_iff_eq_none.1 hid
  show s ∈ ((replay store d₀ L).subscriptions.insert s).rows
  rw [Table.insert_rows hid]
  exact List.mem_append_right _ (List.mem_singleton_self s)

/-- The rest of `createCompany`, once the company has its recruiter and the user the role. -/
def provisionTrial (uuid userId : Id) (company : Company) : M (Company × Subscription) := do
  let trialDurationDays ← select fun db => db.trialDurationDays
  let starterContactQuota ← select fun db => db.planStarterContacts
  let startsAt ← now
  let endsAt := addDays startsAt
    (trialDurationDays.getD CompanyService.DEFAULT_TRIAL_DURATION_DAYS)
  let subscription ← SubscriptionRepository.insert
    { id := uuid
      companyId := company.id
      plan := .starter
      status := .trial
      externalSubscriptionId := none
      startsAt := startsAt
      endsAt := some endsAt
      contactQuota := starterContactQuota.getD CompanyService.DEFAULT_STARTER_CONTACT_QUOTA
      contactsUsed := 0
      pastDueSince := none
      cancelAtPeriodEnd := false
      createdAt := startsAt }
  AuditService.log ⟨some userId, .companyCreated, "company", company.id,
    [("name", .str company.name), ("plan", .plan subscription.plan),
      ("trialEndsAt", .date (some endsAt))]⟩
  return (company, subscription)

theorem provisionTrial_creates {company : Company} (hid : company.id = i) (h : Inserted L i) :
    Creates d₀ i (.createCompany userId dto) (provisionTrial i userId company)
      (fun L' _ => Subscribed (replay store d₀ L') i) L := by
  subst hid
  refine promises_bind.2 (promises_select fun L₁ h₁ => ?_)
  refine promises_bind.2 (promises_select fun L₂ h₂ => ?_)
  refine promises_bind.2 (promises_select fun L₃ h₃ => ?_)
  have h₃ : Inserted L₃ company.id := h.mono (h₁.onto.trans (h₂.onto.trans h₃.onto))
  refine promises_bind.2 (insertUnique_creates fun L₄ h₄ hfree => ⟨?_, ?_⟩)
  · rintro _ _ ⟨⟩
    exact h₃.mono h₄
  refine promises_bind.2 (promises_outside fun L₅ h₅ => ⟨?_, ?_⟩)
  · rintro _ _ ⟨⟩
    exact h₃.mono (h₄.trans ((List.prefix_append _ _).trans h₅.onto))
  · exact subscribed_later (h₅.onto.trans (List.prefix_append _ _)) (subscribed_inserted hfree)

theorem createCompany_creates :
    Creates d₀ i (.createCompany userId dto) (createCompany i userId dto)
      (fun L' _ => Subscribed (replay store d₀ L') i) L := by
  unfold createCompany
  refine promises_bind.2 (promises_select fun L₁ _ => ?_)
  split
  · trivial
  split
  · trivial
  refine promises_bind.2 (promises_select fun L₂ _ => ?_)
  split
  · trivial
  refine promises_bind.2 (promises_select fun L₃ _ => ?_)
  split
  · trivial
  refine promises_bind.2 (insertUnique_creates fun L₄ _ hfree => ⟨?_, ?_⟩)
  · rintro _ _ ⟨⟩
    refine ⟨rfl, ?_⟩
    split at hfree
    · cases hfree
    · next hid => exact Option.not_isSome_iff_eq_none.1 hid
  -- from here on the company is in
  refine promises_bind.2 (insertUnique_creates fun L₅ hl₅ _ => ⟨?_, ?_⟩)
  · rintro _ _ ⟨⟩
    exact ⟨⟨L₄, _, hl₅⟩, rfl⟩
  have hin : ∀ {L'}, L₅ <+: L' → Inserted L' i := fun hl => ⟨L₄, _, hl₅.trans hl⟩
  split
  · refine promises_bind.2 (promises_write fun L₆ h₆ => ⟨?_, ?_⟩)
    · rintro _ _ ⟨⟩
      exact hin ((List.prefix_append _ _).trans h₆.onto)
    · exact provisionTrial_creates rfl
        (hin ((List.prefix_append _ _).trans (h₆.onto.trans (List.prefix_append _ _))))
  · exact provisionTrial_creates rfl (hin (List.prefix_append _ _))

end

/-- Creations promise the company first, and the trial when they return. -/
theorem creation_traced (d₀ : Db) : Traced system d₀ (Guarantee d₀) (Created d₀) where
  prog := by
    intro i op L
    cases op with
    | createCompany userId dto =>
      refine promises_bind.2 (createCompany_creates.mono fun L' r hsub => ?_)
      rintro _ _ ⟨⟩
      exact hsub
    | elsewhere w =>
      refine promises_bind.2 (promises_write fun L' _ => ⟨?_, ?_⟩)
      · rintro _ _ ⟨⟩
      · rintro _ _ ⟨⟩
  mono := fun hl h userId dto hop => subscribed_later hl (h userId dto hop)

/-! ## Failures -/

/-- The call has changed nothing. -/
def Unchanged (s : RunState) (i : Nat) : Prop := ∀ g ∈ s.log, g.call ≠ i

/-- The user can repeat the request. -/
def Retries (db : Db) (userId : Id) (dto : CreateCompanyDto) : Prop :=
  ∃ uuid r, ((createCompany uuid userId dto).solo store db).2 = .ok r

/-- The founder is attached to a company that has no subscription. -/
def Stranded (s : RunState) (i : Nat) : Prop :=
  ∃ A r, WrittenAt s.log A i (.insertRecruiter r) ∧ ¬ Subscribed s.db r.companyId

/-- Call `i` is a creation that has failed. -/
def Fails (s : RunState) (i : Nat) (userId : Id) (dto : CreateCompanyDto) : Prop :=
  s.ops[i]? = some (.createCompany userId dto) ∧ ∃ e, s.call i = .done (.error e)

/-- The lookups of a retry find the company, unless they reject it before. -/
theorem retry_rejected {db : Db} {userId : Id} {dto : CreateCompanyDto} (h : HasIce db dto.ice) :
    ¬ Retries db userId dto := by
  rintro ⟨uuid, r, hr⟩
  obtain ⟨c, hc, hice⟩ := h
  have hany : db.companies.rows.any (·.ice == some dto.ice) = true :=
    List.any_eq_true.2 ⟨c, hc, by rw [hice]; exact beq_self_eq_true _⟩
  unfold createCompany findRecruiter at hr
  simp only [solo_bind, solo_select, andThen_nil] at hr
  split at hr
  · cases hr
  · split at hr
    · cases hr
    · simp only [solo_bind, solo_select, andThen_nil] at hr
      split at hr
      · cases hr
      · simp only [solo_bind, solo_select, andThen_nil, hany, if_true] at hr
        cases hr

section

variable {d₀ : Db} {s : RunState} {i : Nat} {userId : Id} {dto : CreateCompanyDto}

/-- What is known of a write of a creation. -/
theorem creation_written (h : system.Reachable d₀ s)
    (hop : s.ops[i]? = some (.createCompany userId dto)) {A : Log} {g : Txn.Group Write}
    (hlog : A ++ [g] <+: s.log) (hi : g.call = i) :
    ∃ w, g = ⟨i, false, [w]⟩ ∧ Guarantee d₀ i (.createCompany userId dto) A w := by
  subst hi
  obtain ⟨op, w, t, hg, hop', ht⟩ := (creation_traced d₀).published h.within hlog
  rw [hop] at hop'
  cases hop'
  exact ⟨w, hg, ht.promised⟩

/-- A creation that has changed something has inserted its company. -/
theorem inserted_of_changed (h : system.Reachable d₀ s)
    (hop : s.ops[i]? = some (.createCompany userId dto)) (hchanged : ¬ Unchanged s i) :
    Inserted s.log i := by
  by_contra hnot
  refine hchanged fun g hg hi => hnot ?_
  obtain ⟨A, B, hlog⟩ := List.append_of_mem hg
  have hprefix : A ++ [g] <+: s.log := ⟨B, by rw [hlog, List.append_assoc, List.singleton_append]⟩
  obtain ⟨w, rfl, hw⟩ := creation_written h hop hprefix hi
  have hpromised := hw userId dto rfl
  have hA : A <+: s.log := (List.prefix_append _ _).trans hprefix
  cases w with
  | insertCompany c => exact ⟨A, c, hprefix⟩
  | insertRecruiter r => exact hpromised.1.mono hA
  | _ => exact Inserted.mono hpromised hA

/-- The company that a creation has inserted stays. -/
theorem hasIce_of_inserted (h : system.Reachable d₀ s)
    (hop : s.ops[i]? = some (.createCompany userId dto)) (hin : Inserted s.log i) :
    HasIce s.db dto.ice := by
  obtain ⟨A, c, hA⟩ := hin
  obtain ⟨w, hw, hpromised⟩ := creation_written h hop hA rfl
  cases hw
  obtain ⟨hice, hfree⟩ := hpromised userId dto rfl
  rw [(creation_traced d₀).db h.within]
  refine hasIce_later hA ⟨c, ?_, hice⟩
  rw [replay_snoc]
  show c ∈ ((replay store d₀ A).companies.insert c).rows
  rw [Table.insert_rows hfree]
  exact List.mem_append_right _ (List.mem_singleton_self c)

end

/-- A creation that fails has changed nothing, or may be repeated, exactly when it fails before
its company is in; and where all that fail do so, no founder is left without a trial. -/
theorem creation_iff (d₀ : Db) (s : RunState) (h : system.Reachable d₀ s) :
    (∀ i userId dto, Fails s i userId dto →
      ((Unchanged s i ∨ Retries s.db userId dto) ↔ ¬ Inserted s.log i)) ∧
    ((∀ i userId dto, Fails s i userId dto → ¬ Inserted s.log i) →
      ∀ i userId dto, s.ops[i]? = some (.createCompany userId dto) →
        (s.call i).isRunning = false → ¬ Stranded s i) := by
  refine ⟨fun i userId dto hfails => ⟨?_, fun hnot => ?_⟩, fun hearly i userId dto hop hend => ?_⟩
  · rintro (hsame | hretries) hin
    · obtain ⟨A, c, B, hlog⟩ := hin
      refine hsame ⟨i, false, [.insertCompany c]⟩ ?_ rfl
      rw [← hlog]
      simp
    · exact retry_rejected (hasIce_of_inserted h hfails.1 hin) hretries
  · by_contra hneither
    exact hnot (inserted_of_changed h hfails.1 fun hsame => hneither (.inl hsame))
  · rintro ⟨A, r, hA, hnone⟩
    obtain ⟨w, hw, hpromised⟩ := creation_written h hop hA rfl
    cases hw
    obtain ⟨hin, hcompany⟩ := hpromised userId dto rfl
    rcases (creation_traced d₀).ended h.within hop hend with ⟨a, hcreated⟩ | ⟨e, he⟩
    · have hsub : Subscribed (replay store d₀ s.log) i := hcreated userId dto rfl
      have hdb : s.db = replay store d₀ s.log := (creation_traced d₀).db h.within
      rw [hdb, hcompany] at hnone
      exact hnone hsub
    · exact hearly i userId dto ⟨hop, e, he⟩ (hin.mono hA.onto)

/-- What a call has thrown. -/
def errorOf (s : RunState) (i : Nat) : Option Error :=
  match s.call i with
  | .done (.error e) => some e
  | _ => none

theorem fails_of {s : RunState} {i : Nat} {userId : Id} {dto : CreateCompanyDto} {e : Error}
    (h : (s.ops[i]?, errorOf s i) = (some (.createCompany userId dto), some e)) :
    Fails s i userId dto := by
  obtain ⟨hop, herror⟩ := Prod.mk.inj h
  refine ⟨hop, e, ?_⟩
  unfold errorOf at herror
  split at herror
  · next e' hcall => rw [hcall, Option.some.inj herror]
  · cases herror

/-- The request of the user 300. -/
def foundation : Op := .createCompany 300 ⟨"Atlas", "001234567000089", none⟩

theorem creation_iff_lookup_fails : ∃ s : RunState,
    Fails s 0 300 ⟨"Atlas", "001234567000089", none⟩ ∧
      ((Unchanged s 0 ∨ Retries s.db 300 ⟨"Atlas", "001234567000089", none⟩) ↔
        ¬ Inserted s.log 0) := by
  have hrun : (system.runLabels .all (State.init verifiedUser)
      [.spawn foundation, .step 0, .fault 0 .unavailable, .step 0]).map (fun s =>
        (s.ops[0]?, errorOf s 0)) = some (some foundation, some .unavailable) := by decide
  obtain ⟨s, hs, he⟩ := System.reach_of_run hrun
  exact ⟨s, fails_of he, (creation_iff verifiedUser s hs).1 0 _ _ (fails_of he)⟩

/-- The trial is not written: the founder is attached, and a retry is rejected. -/
theorem founder_stranded : ¬ ∀ (d₀ : Db) (s : RunState), system.Reachable d₀ s →
    ∀ i userId dto, Fails s i userId dto →
      (Unchanged s i ∨ Retries s.db userId dto) ∧ ¬ Stranded s i := by
  intro h
  have hrun : (system.runLabels .all (State.init verifiedUser)
      (.spawn foundation :: List.replicate 6 (.step 0) ++
        [.fault 0 .unavailable, .step 0])).map (fun s =>
        ((s.ops[0]?, errorOf s 0), s.log.map (·.call), s.db.recruiters.rows,
          s.db.subscriptions.rows)) =
      some ((some foundation, some .unavailable), [0, 0, 0], [⟨0, 300, 0⟩], []) := by decide
  obtain ⟨s, hs, he⟩ := System.reach_of_run hrun
  obtain ⟨hfails, hrest⟩ := Prod.mk.inj he
  have hlog : s.log.map (·.call) = [0, 0, 0] := (Prod.mk.inj hrest).1
  replace hfails := fails_of hfails
  have hchanged : ¬ Unchanged s 0 := by
    intro hsame
    have hmem : 0 ∈ s.log.map (·.call) := by
      rw [hlog]
      exact List.mem_cons_self
    obtain ⟨g, hg, hcall⟩ := List.mem_map.1 hmem
    exact hsame g hg hcall
  rcases (h _ s hs 0 _ _ hfails).1 with hsame | hretries
  · exact hchanged hsame
  · exact retry_rejected (hasIce_of_inserted hs hfails.1
      (inserted_of_changed hs hfails.1 hchanged)) hretries

end JobBoard.Creation
