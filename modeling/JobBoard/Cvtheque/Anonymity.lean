import JobBoard.Lib.Related
import JobBoard.Cvtheque.Visibility

/-!
# What a company learns of a candidate

Two databases are indistinguishable for a company when they differ only in what the company
must not see: of profiles it has no conversation with, the last name beyond its initial, the
links, the CV and a masked salary. Every read of the CVthèque gives it the same answer in
both. The rows of the two databases correspond one to one (`SameRow`), and each filter, key
and column of a result is the same for corresponding rows.
-/

set_option autoImplicit false

namespace JobBoard.Cvtheque

open Txn Assessments SearchService

/-- The upper-cased first character of the trimmed name, when it is not blank. -/
def lastInitial (env : Environment) (lastName : Option String) : Option String :=
  (truthy (lastName.map trim)).map env.initial

theorem anonymizeLastName_eq (env : Environment) (lastName : Option String) :
    anonymizeLastName env lastName = (lastInitial env lastName).map (· ++ ".") := by
  unfold anonymizeLastName lastInitial
  cases truthy (lastName.map trim) with
  | none => rfl
  | some trimmed => rfl

/-- The salary range of the profile. -/
def salary (p : CandidateProfile) : Option Int × Option Int × String :=
  (p.salaryMin, p.salaryMax, p.salaryCurrency)

/-- `q` is `p`, but for the last name beyond its initial and a masked salary. -/
structure SamePreview (env : Environment) (p q : CandidateProfile) : Prop where
  columns : q =
    { p with
      lastName := q.lastName
      salaryMin := q.salaryMin
      salaryMax := q.salaryMax
      salaryCurrency := q.salaryCurrency }
  initial : lastInitial env p.lastName = lastInitial env q.lastName
  salary : p.salaryVisible = true → salary p = salary q

/-- The company has a conversation with a profile of the user. -/
def contactsUser (db : Db) (companyId userId : Id) : Bool :=
  db.profiles.rows.any fun p => p.userId = userId && hasContact db companyId p.id

/-- The two states differ only in data that the company must not see. -/
structure Indistinguishable (env : Environment) (companyId : Id) (d e : Db) : Prop where
  clock : d.clock = e.clock
  settings : d.settings = e.settings
  skills : d.skills = e.skills
  profileSkills : d.profileSkills = e.profileSkills
  experiences : d.experiences = e.experiences
  projects : d.projects = e.projects
  certifications : d.certifications = e.certifications
  assessments : d.assessments = e.assessments
  scores : d.scores = e.scores
  shortlistEntries : d.shortlistEntries = e.shortlistEntries
  base : d.base = e.base
  profiles : List.Forall₂ (fun p q : CandidateProfile =>
    SamePreview env p q ∧ (hasContact d companyId p.id = true → p = q))
    d.profiles.rows e.profiles.rows
  links : d.links.rows.filter (fun l => hasContact d companyId l.profileId) =
    e.links.rows.filter fun l => hasContact d companyId l.profileId
  documents :
    d.documents.rows.filter (fun doc => doc.type ≠ .cv || contactsUser d companyId doc.ownerId) =
      e.documents.rows.filter fun doc => doc.type ≠ .cv || contactsUser d companyId doc.ownerId

/-! ## Rows -/

/-- Corresponding rows of the two states. -/
structure SameRow (env : Environment) (d : Db) (companyId : Id) (r r' : Row) : Prop where
  preview : SamePreview env r.profile r'.profile
  contacted : hasContact d companyId r.id = true → r.profile = r'.profile
  value : r.bestScoreValue = r'.bestScoreValue
  percentile : r.bestScorePercentile = r'.bestScorePercentile
  count : r.assessmentCount = r'.assessmentCount

section

variable {env : Environment} {companyId : Id} {d e : Db}

section

variable {p q : CandidateProfile}

theorem SamePreview.id (h : SamePreview env p q) : p.id = q.id := by rw [h.columns]

theorem SamePreview.userId (h : SamePreview env p q) : p.userId = q.userId := by rw [h.columns]

theorem SamePreview.symm (h : SamePreview env p q) : SamePreview env q p where
  columns := by
    rw [h.columns]
  initial := h.initial.symm
  salary hq := by
    rw [h.columns] at hq
    exact (h.salary hq).symm

theorem SamePreview.anonymize (h : SamePreview env p q) :
    anonymizeLastName env p.lastName = anonymizeLastName env q.lastName := by
  rw [anonymizeLastName_eq, anonymizeLastName_eq, h.initial]

theorem SamePreview.visible (h : SamePreview env p q) : Visible p ↔ Visible q := by
  rw [h.columns]
  exact ⟨fun h => ⟨h.indexed, h.active, h.visible⟩, fun h => ⟨h.indexed, h.active, h.visible⟩⟩

end

theorem joinRow_same (h : Indistinguishable env companyId d e) {p q : CandidateProfile}
    (hpq : SamePreview env p q) (hcontact : hasContact d companyId p.id = true → p = q) :
    SameRow env d companyId (joinRow d p) (joinRow e q) := by
  have hscores : countedScores d p.userId = countedScores e q.userId := by
    simp only [countedScores, Db.now, h.scores, h.assessments, h.clock, hpq.userId]
    rfl
  refine ⟨hpq, hcontact, ?_, ?_, ?_⟩
  · simp only [joinRow, hscores]
  · simp only [joinRow, hscores]
  · simp only [joinRow, countAssessments, h.assessments, hpq.userId]

theorem joinedRows_same (h : Indistinguishable env companyId d e) :
    List.Forall₂ (SameRow env d companyId) (joinedRows d) (joinedRows e) := by
  unfold joinedRows
  rw [List.forall₂_map_left_iff, List.forall₂_map_right_iff]
  exact h.profiles.imp fun p q ⟨hpq, hcontact⟩ => joinRow_same h hpq hcontact

variable {r r' : Row}

theorem SameRow.id (h : SameRow env d companyId r r') : r.id = r'.id := h.preview.id

theorem SameRow.bestValue (h : SameRow env d companyId r r') : r.bestValue = r'.bestValue := by
  unfold Row.bestValue
  rw [h.value]

/-! ## The conditions of a search -/

theorem satisfies_of_same (hskills : d.skills = e.skills)
    (hprofileSkills : d.profileSkills = e.profileSkills)
    (hpreview : SamePreview env r.profile r'.profile) (hbest : r.bestValue = r'.bestValue)
    {filters : SearchCandidatesDto} (hs : Satisfies env filters d r) :
    Satisfies env filters e r' where
  skills names hnames hne := by
    obtain ⟨ps, hps, hprofile, hsk⟩ := hs.skills names hnames hne
    rw [hprofileSkills] at hps
    rw [hskills] at hsk
    exact ⟨ps, hps, hprofile.trans hpreview.id, hsk⟩
  scoreMin d hd := hbest ▸ hs.scoreMin d hd
  location text htext hne := by
    rw [hpreview.columns]
    exact hs.location text htext hne
  availability text htext hne := by
    rw [hpreview.columns]
    exact hs.availability text htext hne
  salaryMax max hmax := by
    obtain ⟨hvisible, salaryMin, hmin, hle⟩ := hs.salaryMax max hmax
    have hsalary := hpreview.salary hvisible
    simp only [salary, Prod.mk.injEq] at hsalary
    refine ⟨?_, salaryMin, hsalary.1 ▸ hmin, hle⟩
    rw [hpreview.columns]
    exact hvisible
  schools schools hschools hne := by
    rw [hpreview.columns]
    exact hs.schools schools hschools hne

theorem matchesQ_of_same (hpreview : SamePreview env r.profile r'.profile)
    {filters : SearchCandidatesDto} (hq : MatchesQ env filters r) : MatchesQ env filters r' := by
  intro q hfilter hne
  rw [hpreview.columns]
  exact hq q hfilter hne

theorem filterText_same (h : Indistinguishable env companyId d e)
    (hr : SameRow env d companyId r r') (filters : SearchCandidatesDto) :
    (filterText env filters d).holds r = (filterText env filters e).holds r' := by
  rw [Bool.eq_iff_iff, holds_filterText, holds_filterText]
  constructor
  · rintro ⟨hv, hs, hq⟩
    exact ⟨hr.preview.visible.1 hv,
      satisfies_of_same h.skills h.profileSkills hr.preview hr.bestValue hs,
      matchesQ_of_same hr.preview hq⟩
  · rintro ⟨hv, hs, hq⟩
    exact ⟨hr.preview.visible.2 hv,
      satisfies_of_same h.skills.symm h.profileSkills.symm hr.preview.symm hr.bestValue.symm hs,
      matchesQ_of_same hr.preview.symm hq⟩

/-! ## The key, the order and the page -/

theorem keyExpr_same (hr : SameRow env d companyId r r') (sort : Option SearchSort) :
    (resolveSort sort).keyExpr r = (resolveSort sort).keyExpr r' := by
  have htimes : r.profile.createdAt = r'.profile.createdAt ∧
      r.profile.updatedAt = r'.profile.updatedAt := by
    rw [hr.preview.columns]
    exact ⟨rfl, rfl⟩
  cases sort with
  | none => exact hr.bestValue
  | some s =>
    cases s with
    | scoreDesc | scoreAsc => exact hr.bestValue
    | recent => exact htimes.1
    | active => exact htimes.2

theorem before_same (sort : Option SearchSort) {a a' : Row}
    (ha : SameRow env d companyId a a') (hr : SameRow env d companyId r r') :
    (resolveSort sort).before a r = (resolveSort sort).before a' r' := by
  unfold SortConfig.before
  rw [keyExpr_same ha, keyExpr_same hr, ha.id, hr.id]

theorem cursorKey_same (hr : SameRow env d companyId r r') (sort : Option SearchSort) :
    cursorKey env sort r = cursorKey env sort r' := by
  unfold cursorKey
  rw [keyExpr_same hr]

/-- The two states build the same query, as far as corresponding rows can tell. -/
theorem buildQuery_same (h : Indistinguishable env companyId d e) (filters : SearchCandidatesDto) :
    (∃ error, buildQuery env filters d = .error error ∧ buildQuery env filters e = .error error) ∨
    ∃ condition condition', buildQuery env filters d = .ok condition ∧
      buildQuery env filters e = .ok condition' ∧
      ∀ r r', SameRow env d companyId r r' → condition.holds r = condition'.holds r' := by
  by_cases hnone : filters.cursor.bind decodeCursor = none
  · exact .inr ⟨_, _, buildQuery_no_cursor hnone, buildQuery_no_cursor hnone,
      fun r r' hr => filterText_same h hr filters⟩
  · cases hread : readCursor filters with
    | none =>
      unfold buildQuery
      cases hcursor : cursorConditions filters with
      | error error => exact .inl ⟨error, rfl, rfl⟩
      | ok cursor =>
        obtain ⟨error, herror⟩ := buildQuery_error env d hread hnone
        simp only [buildQuery, hcursor] at herror
        cases herror
    | some cursor =>
      obtain ⟨condition, hquery, hholds⟩ := buildQuery_cursor env d hread
      obtain ⟨condition', hquery', hholds'⟩ := buildQuery_cursor env e hread
      refine .inr ⟨condition, condition', hquery, hquery', fun r r' hr => ?_⟩
      rw [hholds, hholds', filterText_same h hr filters]
      unfold beyondKey tiesBeyond
      rw [keyExpr_same hr, hr.id]

theorem loadSkills_same (h : Indistinguishable env companyId d e) (profileId : Id) :
    loadSkills d profileId = loadSkills e profileId := by
  unfold loadSkills
  rw [h.profileSkills, h.skills]

theorem summary_same (h : Indistinguishable env companyId d e)
    (hr : SameRow env d companyId r r') (lastName : Option String) (anonymized : Option Bool) :
    summary d r lastName anonymized = summary e r' lastName anonymized := by
  unfold summary
  rw [loadSkills_same h, hr.id, hr.value, hr.percentile, hr.count, hr.preview.columns]

theorem preview_same (h : Indistinguishable env companyId d e)
    (hr : SameRow env d companyId r r') : preview env d r = preview env e r' := by
  unfold preview
  rw [hr.preview.anonymize, summary_same h hr]

theorem searchCandidates_same (h : Indistinguishable env companyId d e)
    (filters : SearchCandidatesDto) :
    searchCandidates env filters d = searchCandidates env filters e := by
  obtain ⟨error, hd, he⟩ | ⟨condition, condition', hd, he, hholds⟩ := buildQuery_same h filters
  · simp only [searchCandidates, hd, he]
  · have hrows : List.Forall₂ (SameRow env d companyId) (fetchRows condition filters d)
        (fetchRows condition' filters e) :=
      List.forall₂_take _ (((joinedRows_same h).filter_filter hholds).insertionSort
        fun a b a' b' ha hb => by rw [before_same filters.sort hb ha])
    have hitems : ∀ {l m : List Row}, List.Forall₂ (SameRow env d companyId) l m →
        l.map (preview env d) = m.map (preview env e) := fun hlm =>
      hlm.map_eq fun r r' hr => preview_same h hr
    have hcursors : ∀ {l m : List Row}, List.Forall₂ (SameRow env d companyId) l m →
        l.map (fun r => encodeCursor ⟨cursorKey env filters.sort r, some r.id⟩) =
          m.map fun r => encodeCursor ⟨cursorKey env filters.sort r, some r.id⟩ := fun hlm =>
      hlm.map_eq fun r r' hr => by rw [cursorKey_same hr, hr.id]
    by_cases hmore : (fetchRows condition filters d).length > pageLimit filters
    · have hmore' : (fetchRows condition' filters e).length > pageLimit filters :=
        hrows.length_eq ▸ hmore
      have hpage := List.forall₂_take (pageLimit filters) hrows
      simp only [searchCandidates, hd, he, if_pos hmore, if_pos hmore', ← List.getLast?_map,
        hcursors hpage, hitems hpage]
    · have hmore' : ¬ (fetchRows condition' filters e).length > pageLimit filters :=
        hrows.length_eq ▸ hmore
      simp only [searchCandidates, hd, he, if_neg hmore, if_neg hmore', hitems hrows]

/-! ## The detail and the shortlist -/

theorem hasContact_same (h : Indistinguishable env companyId d e) (company profileId : Id) :
    hasContact d company profileId = hasContact e company profileId := by
  unfold hasContact
  rw [h.base]

theorem detailConditions_same (hr : SameRow env d companyId r r') (id : Id) :
    (detailConditions id).holds r = (detailConditions id).holds r' := by
  have hcolumns := hr.preview.columns
  show (decide (r.id = id) && r.profile.indexedInCvtheque &&
      decide (r.profile.moderationStatus = .active) && isVisible r.profile) =
    (decide (r'.id = id) && r'.profile.indexedInCvtheque &&
      decide (r'.profile.moderationStatus = .active) && isVisible r'.profile)
  rw [hcolumns, hr.id]
  rfl

/-- A selection of rows from a part of the table on which the two states agree. -/
theorem filter_of_filter {α : Type} {l m : List α} {p q : α → Bool}
    (h : l.filter q = m.filter q) (hpq : ∀ a, p a = true → q a = true) :
    l.filter p = m.filter p := by
  have hsub : ∀ l : List α, (l.filter q).filter p = l.filter p := by
    intro l
    rw [List.filter_filter]
    apply List.filter_congr
    intro a _
    cases hp : p a with
    | false => rfl
    | true => rw [hpq a hp, Bool.and_self]
  rw [← hsub l, ← hsub m, h]

theorem loadLinks_same (h : Indistinguishable env companyId d e) {profileId : Id}
    (hcontact : hasContact d companyId profileId = true) :
    loadLinks d profileId = loadLinks e profileId := by
  unfold loadLinks
  rw [filter_of_filter h.links fun l hl => by
    rw [of_decide_eq_true hl]
    exact hcontact]

theorem loadCvDownload_same (h : Indistinguishable env companyId d e) {userId : Id}
    (hcontact : contactsUser d companyId userId = true) :
    loadCvDownload env d userId = loadCvDownload env e userId := by
  have hfind : d.documents.rows.find? (fun doc => doc.ownerId = userId && doc.type = .cv) =
      e.documents.rows.find? fun doc => doc.ownerId = userId && doc.type = .cv := by
    rw [← List.head?_filter, ← List.head?_filter, filter_of_filter h.documents fun doc hdoc => by
      simp only [Bool.and_eq_true, decide_eq_true_eq] at hdoc
      simp [hdoc.1, hcontact]]
  unfold loadCvDownload Db.now
  rw [hfind, h.clock]

theorem detailOf_same (h : Indistinguishable env companyId d e)
    (hr : SameRow env d companyId r r') (hmem : r ∈ joinedRows d) :
    detailOf env ⟨false, some companyId⟩ d r = detailOf env ⟨false, some companyId⟩ e r' := by
  have hrevealed : identityRevealed e ⟨false, some companyId⟩ r'.id =
      identityRevealed d ⟨false, some companyId⟩ r.id := by
    unfold identityRevealed
    rw [hr.id]
    simp only [hasContact_same h]
  have hsections : loadExperiences d r.id = loadExperiences e r'.id ∧
      loadProjects d r.id = loadProjects e r'.id ∧
      loadCertifications d r.id = loadCertifications e r'.id := by
    unfold loadExperiences loadProjects loadCertifications
    rw [h.experiences, h.projects, h.certifications, hr.id]
    exact ⟨rfl, rfl, rfl⟩
  obtain ⟨hexperiences, hprojects, hcertifications⟩ := hsections
  have hcolumns := hr.preview.columns
  have hsalary := hr.preview.salary
  simp only [salary, Prod.mk.injEq] at hsalary
  have hvisible : r.profile.salaryVisible = r'.profile.salaryVisible := by rw [hcolumns]
  unfold detailOf
  simp only [hrevealed, hexperiences, hprojects, hcertifications]
  cases hknown : identityRevealed d ⟨false, some companyId⟩ r.id with
  | true =>
    have hcontact : hasContact d companyId r.id = true := by
      simpa [identityRevealed] using hknown
    have hprofile := hr.contacted hcontact
    have huser : contactsUser d companyId r.profile.userId = true := by
      obtain ⟨p, hp, rfl⟩ := List.mem_map.1 hmem
      exact List.any_eq_true.2
        ⟨p, hp, (Bool.and_eq_true _ _).mpr ⟨decide_eq_true rfl, hcontact⟩⟩
    simp only [if_true, ← hr.id, ← hprofile, loadLinks_same h hcontact,
      loadCvDownload_same h huser, summary_same h hr]
  | false =>
    simp only [Bool.false_eq_true, if_false, hr.preview.anonymize, summary_same h hr, ← hvisible]
    have hshown : (r.profile.availability, r.profile.mobility, r.profile.bio) =
        (r'.profile.availability, r'.profile.mobility, r'.profile.bio) := by rw [hcolumns]
    simp only [Prod.mk.injEq] at hshown
    obtain ⟨havailability, hmobility, hbio⟩ := hshown
    cases hmask : r.profile.salaryVisible with
    | true =>
      obtain ⟨hmin, hmax, hcurrency⟩ := hsalary hmask
      simp only [havailability, hmobility, hbio, hmin, hmax, hcurrency]
    | false => simp only [Bool.false_eq_true, if_false, havailability, hmobility, hbio]

theorem getCandidateDetail_same (h : Indistinguishable env companyId d e) (id : Id) :
    getCandidateDetail env id ⟨false, some companyId⟩ d =
      getCandidateDetail env id ⟨false, some companyId⟩ e := by
  unfold getCandidateDetail
  obtain ⟨hd, he⟩ | ⟨r, r', hd, he, hr⟩ :=
    (joinedRows_same h).find?_find? fun r r' hr => detailConditions_same hr id
  · rw [hd, he]
  · rw [hd, he]
    simp only [detailOf_same h hr (List.mem_of_find?_eq_some hd)]

theorem listEntries_same (h : Indistinguishable env companyId d e) (callerId : Id) :
    ShortlistService.listEntries env callerId d = ShortlistService.listEntries env callerId e := by
  have hview : ShortlistService.toView env d = ShortlistService.toView env e := by
    funext entry
    have hprofile : (d.profiles.get? entry.candidateProfileId).map
          (fun p => (⟨p.id, p.firstName, anonymizeLastName env p.lastName, p.headline⟩ :
            ShortlistCandidate)) =
        (e.profiles.get? entry.candidateProfileId).map fun p =>
          ⟨p.id, p.firstName, anonymizeLastName env p.lastName, p.headline⟩ := by
      obtain ⟨hd, he⟩ | ⟨p, q, hd, he, hpq, -⟩ := h.profiles.find?_find?
        (p := fun p => p.id = entry.candidateProfileId)
        (q := fun p => p.id = entry.candidateProfileId) fun p q hpq => by rw [hpq.1.id]
      · simp only [Table.get?, hd, he]
      · simp only [Table.get?, hd, he, Option.map_some, hpq.anonymize, hpq.id]
        rw [hpq.columns]
    unfold ShortlistService.toView
    rw [hprofile]
  unfold ShortlistService.listEntries Db.recruiterOf
  rw [h.base, h.shortlistEntries, hview]

/-- No read of the CVthèque tells a company two such states apart. -/
theorem reads_indistinguishable (h : Indistinguishable env companyId d e) :
    (∀ filters, searchCandidates env filters d = searchCandidates env filters e) ∧
    (∀ id, getCandidateDetail env id ⟨false, some companyId⟩ d =
      getCandidateDetail env id ⟨false, some companyId⟩ e) ∧
    ∀ callerId, ShortlistService.listEntries env callerId d =
      ShortlistService.listEntries env callerId e :=
  ⟨searchCandidates_same h, getCandidateDetail_same h, listEntries_same h⟩

end

/-- A profile with a last name and a masked salary. -/
def maskedProfile (lastName : String) (salaryMin : Int) : CandidateProfile :=
  { sampleProfile 1 .publicVisibility 0 with
    lastName := some lastName
    salaryMin := some salaryMin
    salaryVisible := false }

def withMasked (lastName : String) (salaryMin : Int) (url : String) : Db :=
  { Db.empty with
    profiles := ⟨[maskedProfile lastName salaryMin], List.nodup_singleton _⟩
    links := ⟨[⟨⟨1, 1, url⟩, .github, none⟩], List.nodup_singleton _⟩ }

theorem reads_indistinguishable_masked :
    (∀ filters, searchCandidates sampleEnvironment filters (withMasked "Alami" 100 "a") =
      searchCandidates sampleEnvironment filters (withMasked "Amrani" 200 "b")) ∧
    (∀ id, getCandidateDetail sampleEnvironment id ⟨false, some 7⟩ (withMasked "Alami" 100 "a") =
      getCandidateDetail sampleEnvironment id ⟨false, some 7⟩ (withMasked "Amrani" 200 "b")) ∧
    ∀ callerId,
      ShortlistService.listEntries sampleEnvironment callerId (withMasked "Alami" 100 "a") =
      ShortlistService.listEntries sampleEnvironment callerId (withMasked "Amrani" 200 "b") :=
  reads_indistinguishable
    { clock := rfl
      settings := rfl
      skills := rfl
      profileSkills := rfl
      experiences := rfl
      projects := rfl
      certifications := rfl
      assessments := rfl
      scores := rfl
      shortlistEntries := rfl
      base := rfl
      profiles := .cons ⟨⟨rfl, by decide, fun h => by cases h⟩, fun h => by cases h⟩ .nil
      links := rfl
      documents := rfl }

end JobBoard.Cvtheque
