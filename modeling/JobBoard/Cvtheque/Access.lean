import JobBoard.Messaging.Reopening
import JobBoard.Cvtheque.Ownership

/-!
# What a recruiter can do with a profile

`getCandidateDetail`, `addEntry` and `openConversation` start from the id of a profile. The
detail is there for the profiles that a search can show. A shortlist does not ask whether the
profile is suspended, and a conversation asks for nothing. `only_searchable_iff` says for which
databases this makes no difference.
-/

set_option autoImplicit false

namespace JobBoard

open Txn Prog ContactQuotaService ConversationService

/-! ## The guard -/

/-- The company for which the user passes `assertActiveSubscription`. -/
def Db.entitled? (config : Config) (d : Db) (user : Id) : Option Id :=
  match d.recruiters.rows.find? (·.userId == user) with
  | none => none
  | some recruiter =>
    match newest (d.subscriptions.rows.filter fun s => s.companyId = recruiter.companyId) with
    | none => none
    | some subscription =>
      if isSubscriptionWithinAccess subscription config.gracePeriodDays d.now then
        some recruiter.companyId
      else none

section

variable {config : Config} {d : Db} {uuid user candidate company : Id} {body : String}

/-- The guard only reads. -/
theorem guard_solo (config : Config) (d : Db) (user : Id) : ∃ message,
    (SubscriptionGuardService.assertActiveSubscription config user).solo store d =
      ([], match d.entitled? config user with
        | some company => .ok company
        | none => .error (.forbidden message)) := by
  unfold SubscriptionGuardService.assertActiveSubscription SubscriptionGuardService.findNewestOf
    SubscriptionRepository.findNewest findRecruiter now Db.entitled?
  rw [solo_bind, solo_select, andThen_nil]
  cases d.recruiters.rows.find? (·.userId == user) with
  | none => exact ⟨_, rfl⟩
  | some recruiter =>
    dsimp only
    rw [solo_bind, solo_select, andThen_nil, solo_bind, solo_select, andThen_nil]
    cases newest (d.subscriptions.rows.filter fun s => s.companyId = recruiter.companyId) with
    | none => exact ⟨_, rfl⟩
    | some subscription =>
      dsimp only
      split
      · exact ⟨"", rfl⟩
      · exact ⟨_, rfl⟩

/-! ## A new thread -/

theorem Db.thread?_none : d.thread? candidate company = none ↔
    ∀ x ∈ d.conversations.rows, ¬ (x.candidateId = candidate ∧ x.companyId = company) := by
  simp [Db.thread?, List.find?_eq_none]

/-- The transaction needs a contact, and no thread of the pair. -/
theorem createThread_needs {c : Conversation}
    (h : ((createThread uuid user candidate company body).solo store d).2 = .ok c) :
    d.ContactLeft company ∧ d.thread? candidate company = none := by
  cases hthread : d.thread? candidate company with
  | some c' =>
    obtain ⟨e, he, -⟩ := createThread_thread uuid user body hthread
    rw [he] at h
    cases h
  | none =>
    refine ⟨?_, rfl⟩
    by_contra hleft
    obtain ⟨e, -, hconsume⟩ := consumeOneContact_none hleft
    unfold createThread at h
    rw [solo_bind, hconsume, andThen_error] at h
    cases h

/-- That is enough, for an id that is not used yet. -/
theorem createThread_ok (hleft : d.ContactLeft company)
    (hthread : d.thread? candidate company = none) (hc : ∀ x ∈ d.conversations.rows, x.id ≠ uuid)
    (hm : ∀ x ∈ d.messages.rows, x.id ≠ uuid) :
    ((createThread uuid user candidate company body).solo store d).2 =
      .ok ⟨uuid, candidate, user, company⟩ := by
  obtain ⟨id, hconsume⟩ := consumeOneContact_left hleft
  have hconversation : conversationViolation ⟨uuid, candidate, user, company⟩
      (store.apply d (.incrementContactsUsed id)) = none :=
    conversationViolation_none.2 fun x hx => ⟨hc x hx, Db.thread?_none.1 hthread x hx⟩
  have hmessage : messageViolation ⟨uuid, uuid, user, .recruiter, body⟩
      (store.apply (store.apply d (.incrementContactsUsed id))
        (.insertConversation ⟨uuid, candidate, user, company⟩)) = none :=
    messageViolation_none.2 fun x hx => hm x hx
  unfold createThread
  rw [solo_bind, hconsume, andThen_ok, Store.applyGroups_cons, Store.applyGroups_nil,
    Store.applyAll_cons, Store.applyAll_nil]
  simp only [insertUnique, solo_bind, solo_query, hconversation, emit, andThen_ok,
    Store.applyGroups_cons, Store.applyGroups_nil, Store.applyAll_cons, Store.applyAll_nil,
    hmessage, solo_ret, pure_eq]

/-- The handler finds a thread that exists. -/
theorem onError_old {e : Error} {d' : Db} {c : Conversation}
    (h : (onError candidate company e).exec store none d = (d', .ok c)) :
    c ∈ d.conversations.rows := by
  unfold onError at h
  split at h
  · cases hthread : d.thread? candidate company with
    | some c' =>
      have hexec := onError_exec hthread e
      unfold onError at hexec
      rw [if_pos ‹_›, if_pos ‹_›] at hexec
      rw [hexec] at h
      cases h
      exact List.mem_of_find?_eq_some hthread
    | none =>
      unfold findThread at h
      rw [exec_select_bind, show d.conversations.rows.find? _ = none from hthread] at h
      cases h
  · cases h

/-- A call past the guard. -/
theorem openConversation_entitled (uuid : Id) (body : String)
    (h : d.entitled? config user = some company) :
    (openConversation config uuid user candidate body).exec store none d =
      match d.candidateProfiles.get? candidate with
      | none => (d, .error (.candidateProfileNotFound candidate))
      | some _ =>
        match ((createThread uuid user candidate company body).solo store d).2 with
        | .ok c => (store.applyGroups d
            ((createThread uuid user candidate company body).solo store d).1, .ok c)
        | .error e => (onError candidate company e).exec store none d := by
  have hplain : (SubscriptionGuardService.assertActiveSubscription config user).Plain (· = [])
      (fun _ => False) fun _ => True := assertActiveSubscription_plain config user fun _ => trivial
  obtain ⟨message, hguard⟩ := guard_solo config d user
  rw [h] at hguard
  unfold openConversation
  rw [hplain.exec_bind, hguard]
  show (match d.candidateProfiles.get? candidate with | none => _ | some _ => _ : M _).exec
    store none d = _
  cases d.candidateProfiles.get? candidate with
  | none => rfl
  | some profile =>
    show (transaction _ _ _).exec store none d = _
    rw [exec_transaction createThread_plain]
    cases ((createThread uuid user candidate company body).solo store d).2 <;> rfl

theorem openConversation_forbidden (candidate uuid : Id) (body : String)
    (h : d.entitled? config user = none) :
    ∃ message, (openConversation config uuid user candidate body).exec store none d =
      (d, .error (.forbidden message)) := by
  have hplain : (SubscriptionGuardService.assertActiveSubscription config user).Plain (· = [])
      (fun _ => False) fun _ => True := assertActiveSubscription_plain config user fun _ => trivial
  obtain ⟨message, hguard⟩ := guard_solo config d user
  rw [h] at hguard
  refine ⟨message, ?_⟩
  unfold openConversation
  rw [hplain.exec_bind, hguard]
  rfl

/-- Whether the recruiter can open a new thread with the profile. -/
theorem opens_iff : (∃ uuid body d' c, (openConversation config uuid user candidate body).exec
      store none d = (d', .ok c) ∧ c ∉ d.conversations.rows) ↔
    ∃ company, d.entitled? config user = some company ∧
      (d.candidateProfiles.get? candidate).isSome ∧ d.ContactLeft company ∧
      d.thread? candidate company = none := by
  constructor
  · rintro ⟨uuid, body, d', c, h, hnew⟩
    cases hentitled : d.entitled? config user with
    | none =>
      obtain ⟨message, hexec⟩ :=
        openConversation_forbidden candidate uuid body hentitled
      rw [hexec] at h
      cases h
    | some company =>
      rw [openConversation_entitled uuid body hentitled] at h
      cases hprofile : d.candidateProfiles.get? candidate with
      | none =>
        rw [hprofile] at h
        cases h
      | some profile =>
        rw [hprofile] at h
        cases hcreate : ((createThread uuid user candidate company body).solo store d).2 with
        | ok c' => exact ⟨company, rfl, rfl, createThread_needs hcreate⟩
        | error e =>
          simp only [hcreate] at h
          exact absurd (onError_old h) hnew
  · rintro ⟨company, hentitled, hprofile, hleft, hthread⟩
    obtain ⟨m, hm⟩ := Table.exists_above d.conversations
    obtain ⟨n, hn⟩ := Table.exists_above d.messages
    have hcreate : ((createThread (m + n) user candidate company "").solo store d).2 =
        .ok ⟨m + n, candidate, user, company⟩ := by
      refine createThread_ok hleft hthread (fun x hx hid => ?_) fun x hx hid => ?_
      · exact absurd (hid ▸ hm x hx) (Nat.not_lt.2 (Nat.le_add_right m n))
      · exact absurd (hid ▸ hn x hx) (Nat.not_lt.2 (Nat.le_add_left n m))
    obtain ⟨profile, hprofile⟩ := Option.isSome_iff_exists.1 hprofile
    refine ⟨m + n, "", store.applyGroups d
      ((createThread (m + n) user candidate company "").solo store d).1,
      ⟨m + n, candidate, user, company⟩, ?_, fun hold => ?_⟩
    · rw [openConversation_entitled _ _ hentitled]
      simp only [hprofile, hcreate]
    · have hbound : m + n < m := hm _ hold
      omega

end

end JobBoard

namespace JobBoard.Cvtheque

open Txn Prog Assessments

/-! ## A new entry of a shortlist -/

section

variable {config : Config} {env : Environment} {db : Db} {id caller company : Id}

theorem guard_zoomed (config : Config) (db : Db) (caller : Id) : ∃ message,
    (assertActiveSubscription config caller).solo store db =
      ([], match db.contacts.entitled? config caller with
        | some company => .ok company
        | none => .error (.forbidden message)) := by
  obtain ⟨message, hguard⟩ := guard_solo config db.contacts caller
  have hplain : (SubscriptionGuardService.assertActiveSubscription config caller).Plain (· = [])
      (fun _ => False) fun _ => True :=
    ConversationService.assertActiveSubscription_plain config caller fun _ => trivial
  have hzoom : (assertActiveSubscription config caller).solo store db =
      ([], ((SubscriptionGuardService.assertActiveSubscription config caller).solo JobBoard.store
        db.contacts).2) := (hplain.solo_zoom (fun _ h => h.elim) _ _ db).1
  rw [hguard] at hzoom
  exact ⟨message, hzoom⟩

theorem assertActiveSubscription_plain (config : Config) (caller : Id) :
    (assertActiveSubscription config caller).Plain (· = []) (fun _ => False) fun _ => True := by
  refine (ConversationService.assertActiveSubscription_plain config caller fun _ => trivial).zoom ?_
    fun _ h => h.elim
  rintro _ rfl
  rfl

/-- What is left of the call where the profile can be added. -/
def insertEntry (uuid caller company id : Id) (note : Option String) : M ShortlistEntry := do
  let entry ← insertUnique ShortlistService.entryViolation
    (fun time => ⟨uuid, company, id, caller, note, time⟩) .insertShortlistEntry
  AuditService.log ⟨some caller, .shortlistEntryAdded, "shortlist_entry", entry.id,
    [("companyId", .id company), ("candidateProfileId", .id id)]⟩
  return entry

theorem addEntry_entitled (uuid : Id) (note : Option String)
    (h : db.contacts.entitled? config caller = some company) :
    (ShortlistService.addEntry config uuid caller ⟨id, note⟩).exec store none db =
      match db.profiles.get? id with
      | none => (db, .error (.notFound "Candidate profile not found"))
      | some p =>
        if ¬ p.indexedInCvtheque ∨ p.visibility = .hidden then
          (db, .error (.notFound "Candidate profile not found"))
        else
          match ShortlistService.findEntry company id db with
          | some _ => (db, .error (.conflict "This candidate is already in your shortlist"))
          | none => (insertEntry uuid caller company id note).exec store none db := by
  obtain ⟨message, hguard⟩ := guard_zoomed config db caller
  rw [h] at hguard
  unfold ShortlistService.addEntry
  rw [(assertActiveSubscription_plain config caller).exec_bind, hguard]
  show (match db.profiles.get? id with | none => _ | some _ => _ : M _).exec store none db = _
  cases db.profiles.get? id with
  | none => rfl
  | some p =>
    dsimp only
    split
    · rfl
    · show (match ShortlistService.findEntry company id db with | some _ => _ | none => _ : M _).exec
        store none db = _
      cases ShortlistService.findEntry company id db with
      | some entry => rfl
      | none => rfl

theorem addEntry_forbidden (id uuid : Id) (note : Option String)
    (h : db.contacts.entitled? config caller = none) : ∃ message,
    (ShortlistService.addEntry config uuid caller ⟨id, note⟩).exec store none db =
      (db, .error (.forbidden message)) := by
  obtain ⟨message, hguard⟩ := guard_zoomed config db caller
  rw [h] at hguard
  refine ⟨message, ?_⟩
  unfold ShortlistService.addEntry
  rw [(assertActiveSubscription_plain config caller).exec_bind, hguard]
  rfl

theorem insertEntry_ok {uuid : Id} (hentry : ShortlistService.findEntry company id db = none)
    (hid : ∀ e ∈ db.shortlistEntries.rows, e.id ≠ uuid) :
    ∃ d' entry, (insertEntry uuid caller company id none).exec store none db = (d', .ok entry) := by
  have hviolation : ShortlistService.entryViolation ⟨uuid, company, id, caller, none, db.clock⟩ db =
      none := by
    unfold ShortlistService.entryViolation
    rw [Table.get?_eq_none.2 hid, hentry]
    rfl
  have hinsert : (insertUnique ShortlistService.entryViolation
      (fun time => ⟨uuid, company, id, caller, none, time⟩) Write.insertShortlistEntry).Plain
      (fun _ => True) (fun _ => False) fun _ => True :=
    plain_query trivial (fun _ _ _ => trivial) fun _ _ _ => trivial
  unfold insertEntry
  rw [hinsert.exec_bind]
  unfold insertUnique
  rw [solo_query, hviolation]
  exact ⟨_, _, rfl⟩

/-- Whether the recruiter can put the profile on the shortlist. -/
theorem shortlists_iff : (∃ uuid note d' entry,
      (ShortlistService.addEntry config uuid caller ⟨id, note⟩).exec store none db =
        (d', .ok entry)) ↔
    ∃ company p, db.contacts.entitled? config caller = some company ∧
      db.profiles.get? id = some p ∧ p.indexedInCvtheque = true ∧ p.visibility ≠ .hidden ∧
      ShortlistService.findEntry company id db = none := by
  constructor
  · rintro ⟨uuid, note, d', entry, h⟩
    cases hentitled : db.contacts.entitled? config caller with
    | none =>
      obtain ⟨message, hexec⟩ := addEntry_forbidden id uuid note hentitled
      rw [hexec] at h
      cases h
    | some company =>
      rw [addEntry_entitled uuid note hentitled] at h
      cases hprofile : db.profiles.get? id with
      | none =>
        rw [hprofile] at h
        cases h
      | some p =>
        rw [hprofile] at h
        dsimp only at h
        split at h
        · cases h
        · next hshown =>
          rw [not_or, not_not] at hshown
          cases hentry : ShortlistService.findEntry company id db with
          | some entry =>
            rw [hentry] at h
            cases h
          | none => exact ⟨company, p, rfl, rfl, hshown.1, hshown.2, hentry⟩
  · rintro ⟨company, p, hentitled, hprofile, hindexed, hvisible, hentry⟩
    obtain ⟨n, hn⟩ := Table.exists_above db.shortlistEntries
    obtain ⟨d', entry, hexec⟩ : ∃ d' entry, (insertEntry n caller company id none).exec store none
        db = (d', .ok entry) := insertEntry_ok hentry fun e he hid =>
      Nat.lt_irrefl _ (hid ▸ hn e he)
    refine ⟨n, none, d', entry, ?_⟩
    rw [addEntry_entitled n none hentitled]
    simp only [hprofile, hindexed, not_true_eq_false, false_or, if_neg hvisible, hentry]
    exact hexec

end

/-! ## Agreement with the search -/

/-- A search without a filter shows the profile, on one of its pages. -/
def Searchable (db : Db) (id : Id) : Prop :=
  ∃ r ∈ SearchService.joinedRows db, r.id = id ∧ SearchService.baseConditions.holds r = true

/-- Only a profile that can be searched can be opened, put on a shortlist, or contacted for the
first time. -/
structure OnlySearchable (config : Config) (env : Environment) (db : Db) (id : Id) : Prop where
  detail : ∀ {viewer view}, SearchService.getCandidateDetail env id viewer db = .ok view →
    Searchable db id
  shortlisted : ∀ {uuid callerId note d' entry},
    (ShortlistService.addEntry config uuid callerId ⟨id, note⟩).exec store none db =
      (d', .ok entry) → Searchable db id
  contacted : ∀ {uuid recruiterUserId body d' c},
    (ConversationService.openConversation config uuid recruiterUserId id body).exec
        JobBoard.store none db.contacts = (d', .ok c) →
      c ∉ db.contacts.conversations.rows → Searchable db id

/-- No company that passes the guard can put the profile on its shortlist. -/
def NotShortlisted (config : Config) (db : Db) (p : CandidateProfile) : Prop :=
  p.indexedInCvtheque = false ∨ p.visibility = .hidden ∨
    ∀ user company, db.contacts.entitled? config user = some company →
      (ShortlistService.findEntry company p.id db).isSome

/-- No company that passes the guard can open a new thread with the profile. -/
def NotContacted (config : Config) (db : Db) (p : CandidateProfile) : Prop :=
  ∀ user company, db.contacts.entitled? config user = some company →
    (db.contacts.thread? p.id company).isSome ∨ ¬ db.contacts.ContactLeft company

section

variable {config : Config} {env : Environment} {db : Db} {id : Id}

theorem id_of_get? {p : CandidateProfile} (hp : db.profiles.get? id = some p) : p.id = id := by
  have hkey := Table.key_of_get? hp
  exact hkey

theorem searchable_iff :
    Searchable db id ↔ ∃ p, db.profiles.get? id = some p ∧ Visible p := by
  constructor
  · rintro ⟨r, hr, rfl, hholds⟩
    obtain ⟨p, hp, rfl⟩ := List.mem_map.1 hr
    exact ⟨p, Table.get?_of_mem hp, SearchService.holds_baseConditions.1 hholds⟩
  · rintro ⟨p, hp, hvisible⟩
    have hid : p.id = id := id_of_get? hp
    exact ⟨SearchService.joinRow db p, List.mem_map_of_mem (Table.mem_of_get? hp), hid,
      SearchService.holds_baseConditions.2 hvisible⟩

theorem holds_detailConditions {r : Row} :
    (SearchService.detailConditions id).holds r = true ↔
      r.id = id ∧ SearchService.baseConditions.holds r = true := by
  open Sql.Condition in
  unfold SearchService.detailConditions
  rw [holds_andWhere (((conjunctive_atom _).andWhere (conjunctive_atom _)).andWhere
      (conjunctive_atom _)) (conjunctive_atom _),
    holds_andWhere ((conjunctive_atom _).andWhere (conjunctive_atom _)) (conjunctive_atom _),
    holds_andWhere (conjunctive_atom _) (conjunctive_atom _), SearchService.holds_baseConditions]
  simp only [holds_atom, SearchService.isVisible, Bool.and_eq_true, Bool.or_eq_true,
    decide_eq_true_eq]
  constructor
  · rintro ⟨⟨⟨hid, h⟩, h'⟩, h''⟩
    exact ⟨hid, h, h', h''⟩
  · rintro ⟨hid, h⟩
    exact ⟨⟨⟨hid, h.indexed⟩, h.active⟩, h.visible⟩

/-- The detail asks for what the search asks for. -/
theorem detail_searchable {viewer : CandidateDetailViewer} {view : CandidateDetail}
    (h : SearchService.getCandidateDetail env id viewer db = .ok view) : Searchable db id := by
  unfold SearchService.getCandidateDetail at h
  cases hfind : (SearchService.joinedRows db).find? (SearchService.detailConditions id).holds with
  | none =>
    rw [hfind] at h
    cases h
  | some r =>
    exact ⟨r, List.mem_of_find?_eq_some hfind,
      holds_detailConditions.1 (List.find?_some hfind)⟩

theorem contacts_profile :
    (db.contacts.candidateProfiles.get? id).isSome ↔ ∃ p, db.profiles.get? id = some p := by
  have hget : db.contacts.candidateProfiles.get? id =
      (db.profiles.get? id).map fun p => ⟨p.id, p.userId⟩ := List.find?_map ..
  rw [hget, Option.isSome_map, Option.isSome_iff_exists]

theorem only_searchable_iff (config : Config) (env : Environment) (db : Db) (id : Id) :
    OnlySearchable config env db id ↔ ∀ p, db.profiles.get? id = some p →
      Visible p ∨ NotShortlisted config db p ∧ NotContacted config db p := by
  constructor
  · intro h p hp
    have hid : p.id = id := id_of_get? hp
    by_cases hvisible : Visible p
    · exact .inl hvisible
    have hnot : ¬ Searchable db id := by
      rintro hs
      obtain ⟨p', hp', hvisible'⟩ := searchable_iff.1 hs
      rw [hp] at hp'
      cases hp'
      exact hvisible hvisible'
    refine .inr ⟨?_, fun user company hentitled => ?_⟩
    · by_cases hindexed : p.indexedInCvtheque = true
      · by_cases hhidden : p.visibility = .hidden
        · exact .inr (.inl hhidden)
        · refine .inr (.inr fun user company hentitled => ?_)
          by_contra hentry
          rw [hid, Option.not_isSome_iff_eq_none] at hentry
          obtain ⟨uuid, note, d', entry, hexec⟩ :=
            shortlists_iff.2 ⟨company, p, hentitled, hp, hindexed, hhidden, hentry⟩
          exact hnot (h.shortlisted hexec)
      · exact .inl (Bool.eq_false_iff.2 hindexed)
    · by_contra hcan
      rw [not_or, not_not, hid, Option.not_isSome_iff_eq_none] at hcan
      obtain ⟨uuid, body, d', c, hexec, hnew⟩ :=
        opens_iff.2 ⟨company, hentitled, contacts_profile.2 ⟨p, hp⟩, hcan.2, hcan.1⟩
      exact hnot (h.contacted hexec hnew)
  · intro h
    refine ⟨detail_searchable, fun hexec => ?_, fun hexec hnew => ?_⟩
    · obtain ⟨company, p, hentitled, hp, hindexed, hhidden, hentry⟩ :=
        shortlists_iff.1 ⟨_, _, _, _, hexec⟩
      rcases h p hp with hvisible | ⟨hnot, -⟩
      · exact searchable_iff.2 ⟨p, hp, hvisible⟩
      · have hid : p.id = id := id_of_get? hp
        rcases hnot with hnot | hnot | hnot
        · rw [hindexed] at hnot
          cases hnot
        · exact absurd hnot hhidden
        · have hsome := hnot _ _ hentitled
          rw [hid, hentry] at hsome
          cases hsome
    · obtain ⟨company, hentitled, hprofile, hleft, hthread⟩ :=
        opens_iff.1 ⟨_, _, _, _, hexec, hnew⟩
      obtain ⟨p, hp⟩ := contacts_profile.1 hprofile
      rcases h p hp with hvisible | ⟨-, hnot⟩
      · exact searchable_iff.2 ⟨p, hp, hvisible⟩
      · have hid : p.id = id := id_of_get? hp
        rcases hnot _ _ hentitled with hsome | hnone
        · rw [hid, hthread] at hsome
          cases hsome
        · exact absurd hleft hnone

end

/-! ## A suspended profile -/

/-- An indexed profile with its diploma, where the identity alone makes a profile complete, and
a company with a subscription. -/
def indexedProfile : Db :=
  { Db.empty with
    settings := ⟨fun key => if key = "completeness_weight_identity" then some 100 else none,
      fun _ => none⟩
    profiles := ⟨[{ CandidateProfileService.newProfile 1 1 0 with
      firstName := some "Lina"
      lastName := some "Amrani"
      headline := some "Data analyst"
      bio := some "SQL"
      visibility := .publicVisibility
      completeness := 100
      indexedInCvtheque := true }], by decide⟩
    documents := ⟨[⟨⟨1, 1, .diploma, "diploma", .clean⟩, "diploma.pdf", "application/pdf", 1⟩],
      by decide⟩
    base := paidCompany }

/-- The candidate asks for a visible profile. -/
def showAgain : UpdateProfileDto where
  firstName := none
  lastName := none
  headline := none
  bio := none
  school := none
  visibility := some .publicVisibility
  salaryMin := none
  salaryMax := none
  location := none
  availability := none
  mobility := none
  salaryCurrency := none
  salaryVisible := none

/-- A profile is suspended, its candidate makes it visible again, and a recruiter can put it on
a shortlist and write to it. -/
theorem suspended_reached : ¬ ∀ (config : Config) (env : Environment) (d₀ : Db) (s : RunState),
    (system config env).Reachable d₀ s → ∀ id, OnlySearchable config env s.db id := by
  intro h
  have hrun : ((system Config.default SearchService.sampleEnvironment).runLabels .all
      (State.init indexedProfile) (.spawn (.setModeration 1 .suspended 9) :: steps 0 5 ++
        .spawn (.updateProfile 1 showAgain) :: steps 1 13)).map (fun s =>
          ((s.call 1).isRunning, (s.db.profiles.get? 1).map (·.moderationStatus),
            ((ShortlistService.addEntry Config.default 2 300 ⟨1, none⟩).exec store none
              s.db).2.isOk,
            ((ConversationService.openConversation Config.default 2 300 1 "Bonjour").exec
              JobBoard.store none s.db.contacts).2.isOk)) =
      some (false, some .suspended, true, true) := by rfl
  obtain ⟨s, hs, he⟩ := System.reach_of_run hrun
  simp only [Prod.mk.injEq] at he
  obtain ⟨-, hstatus, hadded, -⟩ := he
  cases hexec : (ShortlistService.addEntry Config.default 2 300 ⟨1, none⟩).exec store none s.db with
  | mk d' r =>
    rw [hexec] at hadded
    cases r with
    | error e => cases hadded
    | ok entry =>
      obtain ⟨p, hp, hvisible⟩ := searchable_iff.1 ((h _ _ _ s hs 1).shortlisted hexec)
      rw [hp, Option.map_some, hvisible.active] at hstatus
      cases hstatus

end JobBoard.Cvtheque
