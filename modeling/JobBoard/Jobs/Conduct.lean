import JobBoard.Analytics.Trend
import JobBoard.Jobs.Services
import JobBoard.Lib.Trace

/-!
# What the calls on offers publish and answer

`followed` says of each write what its call has read before, in an earlier moment of the log, and of
each answer at which moments it was true.
-/

set_option autoImplicit false

namespace JobBoard.Jobs

open Txn Prog
open Analytics (JobStatus ApplicationStatus)
open Cvtheque (Micros)

/-! ## What a call has read -/

section

variable (config : Config) (d₀ : Db) (L : Log) (userId companyId : Id)

/-- The user was found as a recruiter of the company. -/
def Member : Prop :=
  ∃ B, B <+: L ∧ ∃ r, (d₀.at B).base.recruiterOf userId = some r ∧ r.companyId = companyId

/-- The entitlements of the company of the user, with what was read of it at four moments. -/
def Entitlements (e : CompanyEntitlements) : Prop :=
  ∃ A B C D, A <+: B ∧ B <+: C ∧ C <+: D ∧ D <+: L ∧
    ∃ r, (d₀.at A).base.recruiterOf userId = some r ∧
      e = EntitlementService.entitlements config r.companyId
        ((d₀.at B).subscriptionOf r.companyId) (d₀.at C).base.now
        ((d₀.at D).overrides.rows.filter (·.companyId = r.companyId))

/-- The guard has let the user through. -/
def Allowed (feature : Feature) : Prop :=
  ∃ e, Entitlements config d₀ L userId e ∧ (e.features feature).enabled = true

/-- The call acts for the company, and was let through. -/
structure ActsFor : Prop where
  allowed : Allowed config d₀ L userId .jobs
  member : Member d₀ L userId companyId

/-- The offer was read with the status PUBLISHED. -/
def SeenPublished (offerId : Id) : Prop :=
  ∃ B, B <+: L ∧ ∃ o, (d₀.at B).offers.get? offerId = some o ∧ o.status = .published

/-- The profile of the candidate was read complete enough, and after it a completed attempt. -/
def SeenEligible (candidateId profileId : Id) : Prop :=
  ∃ A B, A <+: B ∧ B <+: L ∧
    (∃ p, (d₀.at A).base.profileOf candidateId = some p ∧ p.id = profileId ∧
      ApplicationsService.APPLY_MIN_COMPLETENESS * 100 ≤ p.completeness) ∧
    ∃ a ∈ (d₀.at B).base.assessments.rows, a.candidateId = candidateId ∧ a.status = .completed

/-- Call `i` has published nothing yet. -/
def Silent (i : Nat) : Prop := ∀ g ∈ L, g.call ≠ i

/-- The row of the offer at an earlier moment. -/
def ReadOffer (o : JobOffer) : Prop := ∃ B, B <+: L ∧ (d₀.at B).offers.get? o.id = some o

/-- The row of the application at an earlier moment. -/
def ReadApplication (a : JobApplication) : Prop :=
  ∃ B, B <+: L ∧ (d₀.at B).applications.get? a.id = some a

/-- The application was read with an offer of the company. -/
def ReadScoped (a : JobApplication) : Prop :=
  ∃ B, B <+: L ∧ ApplicationsService.loadScoped (d₀.at B) a.id companyId = some a

end

section

variable {config : Config} {d₀ : Db} {L L' : Log} {userId companyId : Id}

theorem Silent.others {i : Nat} (h : Silent L i) (hr : ByOthers i L L') : Silent L' i := by
  obtain ⟨gs, rfl, hgs⟩ := hr
  exact fun g hg => (List.mem_append.1 hg).elim (h g) (hgs g)

theorem Member.mono (h : Member d₀ L userId companyId) (hl : L <+: L') :
    Member d₀ L' userId companyId := by
  obtain ⟨B, hB, hr⟩ := h
  exact ⟨B, hB.trans hl, hr⟩

theorem Entitlements.mono {e : CompanyEntitlements} (h : Entitlements config d₀ L userId e)
    (hl : L <+: L') : Entitlements config d₀ L' userId e := by
  obtain ⟨A, B, C, D, hA, hB, hC, hD, hr⟩ := h
  exact ⟨A, B, C, D, hA, hB, hC, hD.trans hl, hr⟩

theorem ActsFor.mono (h : ActsFor config d₀ L userId companyId) (hl : L <+: L') :
    ActsFor config d₀ L' userId companyId := by
  obtain ⟨⟨e, he, henabled⟩, hmember⟩ := h
  exact ⟨⟨e, he.mono hl, henabled⟩, hmember.mono hl⟩

theorem ReadOffer.mono {o : JobOffer} (h : ReadOffer d₀ L o) (hl : L <+: L') :
    ReadOffer d₀ L' o := by
  obtain ⟨B, hB, ho⟩ := h
  exact ⟨B, hB.trans hl, ho⟩

end

/-! ## Writes -/

/-- What a call makes of the offer that it has loaded. -/
inductive Edits : Op → JobOffer → JobOffer → Prop
  | update {userId : Id} {offer : JobOffer} {title : String} {dto : UpdateJobDto} :
    Edits (.updateJob userId offer.id dto) offer (JobsService.edited offer title dto)
  | publish {userId : Id} {offer : JobOffer} {time : Time} :
    Edits (.publish userId offer.id) offer
      { offer with status := .published, publishedAt := some (offer.publishedAt.getD time) }
  | close {userId : Id} {offer : JobOffer} :
    Edits (.close userId offer.id) offer { offer with status := .closed }

/-- The user of a call of a recruiter. -/
def Op.recruiter? : Op → Option Id
  | .createJob userId _ | .updateJob userId _ _ | .publish userId _ | .close userId _
  | .list userId | .getOne userId _ | .applicationsFor userId _
  | .updateApplicationStatus userId _ _ => some userId
  | _ => none

/-- The call sets the override of the feature to `enabled`, or clears it. -/
inductive Overrides : Op → Id → Feature → Option Bool → Prop
  | set {actorId companyId : Id} {f : Feature}
      {dto : EntitlementsAdminController.SetFeatureOverrideDto} :
    Overrides (.setOverride actorId companyId f.toString dto) companyId f (some dto.enabled)
  | clear {actorId companyId : Id} {f : Feature} :
    Overrides (.clearOverride actorId companyId f.toString) companyId f none

/-- What is known of a write of call `i` of `op` at the log `L`. -/
def Guarantee (config : Config) (d₀ : Db) (i : Nat) (op : Op) (L : Log) : Write → Prop
  | .base w => op = .elsewhere w
  | .removeRecruiter id => op = .removeRecruiter id
  | .removeProfile id => ∃ userId, op = .removeProfile userId ∧
    ∃ B, B <+: L ∧ ∃ p, (d₀.at B).base.profileOf userId = some p ∧ p.id = id
  | .insertOverride o => Overrides op o.companyId o.feature (some o.enabled) ∧
    OverrideRepository.violation (d₀.at L) o = none
  | .saveOverride entity _ => Overrides op entity.companyId entity.feature (some entity.enabled)
  | .removeOverride id => ∃ o : FeatureOverride, o.id = id ∧ Overrides op o.companyId o.feature none
  | .insertOffer o => ∃ userId dto, op = .createJob userId dto ∧ o.id = i ∧
    o.createdBy = userId ∧ o.status = .draft ∧ o.publishedAt = none ∧
      ActsFor config d₀ L userId o.companyId ∧ (d₀.at L).offers.get? o.id = none
  | .saveOffer loaded entity reread => Edits op loaded entity ∧ reread.id = loaded.id ∧
    ReadOffer d₀ L loaded ∧ ReadOffer d₀ L reread ∧
      ∃ userId, op.recruiter? = some userId ∧ ActsFor config d₀ L userId loaded.companyId
  | .insertApplication a => op = .apply a.candidateId a.jobOfferId a.coverLetter ∧ a.id = i ∧
    Silent L i ∧ a.status = .applied ∧ SeenPublished d₀ L a.jobOfferId ∧
      SeenEligible d₀ L a.candidateId a.candidateProfileId ∧
        ApplicationRepository.violation (d₀.at L) a = none
  | .saveApplication loaded entity reread => ∃ userId companyId,
    op = .updateApplicationStatus userId loaded.id entity.status ∧
      entity = { loaded with status := entity.status } ∧ reread.id = loaded.id ∧
        entity.status ≠ reread.status ∧ ActsFor config d₀ L userId companyId ∧
          ReadScoped d₀ L companyId loaded ∧ ReadApplication d₀ L reread
  | .insertAuditLog a => Overrides op a.companyId a.feature a.enabled

/-! ## Answers -/

/-- The answers of the calls that read; `A` to `C` are moments of the call. -/
def Answer (config : Config) (d₀ : Db) (i : Nat) (L : Log) : Op → Result → Prop
  | .entitlements userId, .entitlements e => Entitlements config d₀ L userId e
  | .list userId, .offers os => ∃ companyId, ActsFor config d₀ L userId companyId ∧
    ∃ A B, A <+: B ∧ B <+: L ∧
      os.map (·.offer) = ((d₀.at A).offers.rows.filter (·.companyId = companyId)).insertionSort
        (fun a b => b.createdAt ≤ a.createdAt) ∧
      ∀ o ∈ os, o.applicationsCount =
        (d₀.at B).applications.rows.countP (·.jobOfferId = o.offer.id)
  | .getOne userId id, .counted o => ActsFor config d₀ L userId o.offer.companyId ∧
    ∃ A B, A <+: B ∧ B <+: L ∧ (d₀.at A).offers.get? id = some o.offer ∧
      o.applicationsCount = (d₀.at B).applications.rows.countP (·.jobOfferId = id)
  | .detail id, .counted o => o.offer.status = .published ∧
    ∃ A B, A <+: B ∧ B <+: L ∧ (d₀.at A).offers.get? id = some o.offer ∧
      o.applicationsCount = (d₀.at B).applications.rows.countP (·.jobOfferId = id)
  | .applicationsFor userId id, .views vs => ∃ companyId,
    ActsFor config d₀ L userId companyId ∧ ∃ A B, A <+: B ∧ B <+: L ∧
      (∃ o, (d₀.at A).offers.get? id = some o ∧ o.companyId = companyId) ∧
      vs = (ApplicationsService.newestFirst
        ((d₀.at B).applications.rows.filter (·.jobOfferId = id))).map
          (ApplicationsService.recruiterView (d₀.at B))
  | .mine userId, .mine vs => ∃ A, A <+: L ∧
    vs = (ApplicationsService.newestFirst
      ((d₀.at A).applications.rows.filter (·.candidateId = userId))).filterMap
        (ApplicationsService.myView (d₀.at A))
  | .eligibility userId, .eligibility e => ∃ A B, A <+: B ∧ B <+: L ∧
    e = ApplicationsService.eligibilityOf ((d₀.at A).base.profileOf userId)
      ((d₀.at B).base.assessments.rows.countP fun a =>
        a.candidateId = userId && a.status = .completed)
  | .apply _ _ _, .application a => ∃ A, WrittenAt L A i (.insertApplication a)
  | _, _ => True

/-! ## The pieces -/

section

variable {config : Config} {d₀ : Db} {i : Nat} {op : Op} {L : Log} {userId companyId : Id}

abbrev Keeps {α : Type} (config : Config) (d₀ : Db) (i : Nat) (op : Op) (p : M α)
    (Q : Log → α → Prop) (L : Log) : Prop :=
  p.Promises store d₀ i (Guarantee config d₀ i op) (fun e => isFault e = true) Q L

theorem insertRow_keeps {α : Type} {violated : Db → α → Option (String × String)} {row : Db → α}
    {insert : α → Write} {Q : Log → α → Prop}
    (h : ∀ L', ByOthers i L L' → violated (d₀.at L') (row (d₀.at L')) = none →
      Guarantee config d₀ i op L' (insert (row (d₀.at L'))) ∧
        Q (L' ++ [⟨i, false, [insert (row (d₀.at L'))]⟩]) (row (d₀.at L'))) :
    Keeps config d₀ i op (insertRow violated row insert) Q L := by
  refine promises_query fun L' ws a hr hf => ?_
  split at hf
  · cases hf
  · next hnone =>
    cases hf
    exact .inr ⟨_, rfl, h L' hr hnone⟩

theorem resolveCompanyId_keeps (userId : Id) :
    Keeps config d₀ i op (EntitlementService.resolveCompanyId userId)
      (fun L' companyId => ByOthers i L L' ∧ Member d₀ L' userId companyId) L := by
  unfold EntitlementService.resolveCompanyId
  refine promises_bind.2 (promises_select fun L' hr => ?_)
  split
  · trivial
  · next r hfind => exact ⟨hr, L', List.prefix_rfl, r, hfind, rfl⟩

theorem getEntitlementsForUser_keeps (userId : Id) :
    Keeps config d₀ i op (EntitlementService.getEntitlementsForUser config userId)
      (fun L' e => ByOthers i L L' ∧ Entitlements config d₀ L' userId e) L := by
  unfold EntitlementService.getEntitlementsForUser EntitlementService.resolveCompanyId
    EntitlementService.getEntitlementsForCompany
  refine promises_bind.2 (promises_bind.2 (promises_select fun A hA => ?_))
  split
  · trivial
  · next r hfind =>
    refine promises_bind.2 (promises_select fun B hB => ?_)
    refine promises_bind.2 (promises_select fun C hC => ?_)
    refine promises_bind.2 (promises_select fun D hD => ?_)
    refine ⟨hA.trans (hB.trans (hC.trans hD)), ?_⟩
    exact ⟨A, B, C, D, hB.onto, hC.onto, hD.onto, List.prefix_rfl, r, hfind, rfl⟩

theorem canActivate_keeps (feature : Feature) (userId : Id) :
    Keeps config d₀ i op (FeatureGuard.canActivate config feature userId)
      (fun L' _ => ByOthers i L L' ∧ Allowed config d₀ L' userId feature) L := by
  unfold FeatureGuard.canActivate EntitlementService.hasFeatureForUser
  refine promises_bind.2 (promises_bind.2 ?_)
  refine (getEntitlementsForUser_keeps userId).mono fun L' e h => ?_
  show Keeps config d₀ i op (if ¬ (e.features feature).enabled then _ else _) _ L'
  split
  · trivial
  · next hallowed => exact ⟨h.1, e, h.2, by simpa using hallowed⟩

/-- A recruiter's method runs once the guard has let the user through. -/
theorem asRecruiter_keeps {α : Type} {method : Id → M α} {Q : Log → α → Prop}
    (h : ∀ L' companyId, ByOthers i L L' → ActsFor config d₀ L' userId companyId →
      Keeps config d₀ i op (method companyId) Q L') :
    Keeps config d₀ i op (asRecruiter config userId method) Q L := by
  unfold asRecruiter
  refine promises_bind.2 ((canActivate_keeps .jobs userId).mono fun L₁ _ h₁ => ?_)
  refine promises_bind.2 ((resolveCompanyId_keeps userId).mono fun L₂ companyId h₂ => ?_)
  obtain ⟨e, he, henabled⟩ := h₁.2
  exact h L₂ companyId (h₁.1.trans h₂.1) ⟨⟨e, he.mono h₂.1.onto, henabled⟩, h₂.2⟩

/-! ## Overrides -/

theorem saveOverride_keeps {entity : FeatureOverride}
    (h : Overrides op entity.companyId entity.feature (some entity.enabled)) :
    Keeps config d₀ i op (OverrideRepository.save entity) (fun _ _ => True) L := by
  unfold OverrideRepository.save
  refine promises_bind.2 (promises_select fun L₁ _ => ?_)
  split
  · exact insertRow_keeps fun L₂ _ hnone => ⟨⟨h, hnone⟩, trivial⟩
  · split
    · trivial
    · exact promises_bind.2 (promises_write fun L₂ _ => ⟨h, trivial⟩)

theorem parseFeature_keeps (value : String) :
    Keeps config d₀ i op (EntitlementsAdminController.parseFeature value)
      (fun _ f => f.toString = value) L := by
  unfold EntitlementsAdminController.parseFeature
  split
  · trivial
  · next f hf =>
    have hvalue : f.toString = value := by simpa using List.find?_some hf
    exact hvalue

theorem setOverride_keeps {actorId : Id} {feature : String}
    {dto : EntitlementsAdminController.SetFeatureOverrideDto}
    (hop : op = .setOverride actorId companyId feature dto) :
    Keeps config d₀ i op
      (EntitlementsAdminController.setOverride i actorId companyId feature dto)
      (fun _ _ => True) L := by
  unfold EntitlementsAdminController.setOverride
  refine promises_bind.2 ((parseFeature_keeps feature).mono fun L₁ f hf => ?_)
  have hover : Overrides op companyId f (some dto.enabled) := by
    rw [hop, ← hf]
    exact .set
  refine promises_bind.2 (Promises.mono (Q := fun _ _ => True) ?_ fun L₂ saved _ => ?_)
  · unfold EntitlementService.setOverride
    refine promises_bind.2 (promises_select fun L₂ _ => ?_)
    split
    · next existing hfind =>
      have hmatch := List.find?_some hfind
      simp only [Bool.and_eq_true, decide_eq_true_eq] at hmatch
      obtain ⟨rfl, rfl⟩ := hmatch
      exact saveOverride_keeps hover
    · exact insertRow_keeps fun L₃ _ hnone => ⟨⟨hover, hnone⟩, trivial⟩
  · exact promises_bind.2 (promises_write fun L₃ _ => ⟨hover, trivial⟩)

theorem clearOverride_keeps {actorId : Id} {feature : String}
    (hop : op = .clearOverride actorId companyId feature) :
    Keeps config d₀ i op (EntitlementsAdminController.clearOverride actorId companyId feature)
      (fun _ _ => True) L := by
  unfold EntitlementsAdminController.clearOverride EntitlementService.clearOverride
  refine promises_bind.2 ((parseFeature_keeps feature).mono fun L₁ f hf => ?_)
  have hover : Overrides op companyId f none := by
    rw [hop, ← hf]
    exact .clear
  refine promises_bind.2 (promises_bind.2 (promises_select fun L₂ _ => ?_))
  split
  · trivial
  · next existing hfind =>
    have hmatch := List.find?_some hfind
    simp only [Bool.and_eq_true, decide_eq_true_eq] at hmatch
    obtain ⟨rfl, rfl⟩ := hmatch
    refine promises_write fun L₃ _ => ⟨⟨existing, rfl, hover⟩, ?_⟩
    exact promises_write fun L₄ _ => ⟨hover, trivial⟩

/-! ## Offers -/

theorem create_keeps {dto : CreateJobDto} (hop : op = .createJob userId dto)
    (hacts : ActsFor config d₀ L userId companyId) :
    Keeps config d₀ i op (JobsService.create i companyId userId dto) (fun _ _ => True) L := by
  refine insertRow_keeps fun L₁ h₁ hnone => ⟨?_, trivial⟩
  refine ⟨userId, dto, hop, rfl, rfl, rfl, rfl, hacts.mono h₁.onto, ?_⟩
  unfold OfferRepository.violation at hnone
  split at hnone
  · cases hnone
  · next hfree => simpa using hfree

theorem loadForCompany_keeps (id : Id) :
    Keeps config d₀ i op (JobsService.loadForCompany id companyId)
      (fun L' o => ByOthers i L L' ∧ o.id = id ∧ o.companyId = companyId ∧
        (d₀.at L').offers.get? id = some o) L := by
  unfold JobsService.loadForCompany
  refine promises_bind.2 (promises_select fun L₁ h₁ => ?_)
  split
  · trivial
  · next o hfind =>
    obtain ⟨hget, hcompany⟩ := Option.filter_eq_some_iff.1 hfind
    have hid := Table.key_of_get? hget
    exact ⟨h₁, hid, by simpa using hcompany, hget⟩

theorem saveOffer_keeps {loaded entity : JobOffer} (hid : entity.id = loaded.id)
    (hop : Edits op loaded entity) (hread : ReadOffer d₀ L loaded)
    (huser : op.recruiter? = some userId) (hacts : ActsFor config d₀ L userId loaded.companyId) :
    Keeps config d₀ i op (OfferRepository.save loaded entity) (fun _ _ => True) L := by
  unfold OfferRepository.save
  refine promises_bind.2 (promises_select fun L₁ h₁ => ?_)
  split
  · trivial
  · next reread hget =>
    split
    · trivial
    · refine promises_bind.2 (promises_write fun L₂ h₂ => ⟨?_, trivial⟩)
      have hrereadId := Table.key_of_get? hget
      have hl : L <+: L₂ := h₁.onto.trans h₂.onto
      refine ⟨hop, hrereadId.trans hid, hread.mono hl, ⟨L₁, h₂.onto, hrereadId ▸ hget⟩, ?_⟩
      exact ⟨userId, huser, hacts.mono hl⟩

theorem update_keeps {id : Id} {dto : UpdateJobDto} (hop : op = .updateJob userId id dto)
    (hacts : ActsFor config d₀ L userId companyId) :
    Keeps config d₀ i op (JobsService.update companyId id dto) (fun _ _ => True) L := by
  subst hop
  unfold JobsService.update
  refine promises_bind.2 ((loadForCompany_keeps id).mono fun L₁ o h₁ => ?_)
  obtain ⟨hl, rfl, rfl, hget⟩ := h₁
  split
  · trivial
  · exact saveOffer_keeps rfl .update ⟨L₁, List.prefix_rfl, hget⟩ rfl (hacts.mono hl.onto)
  · exact saveOffer_keeps rfl .update ⟨L₁, List.prefix_rfl, hget⟩ rfl (hacts.mono hl.onto)

theorem publish_keeps {id : Id} (hop : op = .publish userId id)
    (hacts : ActsFor config d₀ L userId companyId) :
    Keeps config d₀ i op (JobsService.publish companyId id) (fun _ _ => True) L := by
  subst hop
  unfold JobsService.publish
  refine promises_bind.2 ((loadForCompany_keeps id).mono fun L₁ o h₁ => ?_)
  obtain ⟨hl, rfl, rfl, hget⟩ := h₁
  refine promises_bind.2 (promises_select fun L₂ h₂ => ?_)
  exact saveOffer_keeps rfl .publish ⟨L₁, h₂.onto, hget⟩ rfl (hacts.mono (hl.trans h₂).onto)

theorem close_keeps {id : Id} (hop : op = .close userId id)
    (hacts : ActsFor config d₀ L userId companyId) :
    Keeps config d₀ i op (JobsService.close companyId id) (fun _ _ => True) L := by
  subst hop
  unfold JobsService.close
  refine promises_bind.2 ((loadForCompany_keeps id).mono fun L₁ o h₁ => ?_)
  obtain ⟨hl, rfl, rfl, hget⟩ := h₁
  exact saveOffer_keeps rfl .close ⟨L₁, List.prefix_rfl, hget⟩ rfl (hacts.mono hl.onto)

/-! ## Listings -/

/-- What the answer of the query gives for an offer that it asks for. -/
theorem count_of_offer (as : List JobApplication) {ids : List Id} {id : Id} (h : id ∈ ids) :
    (Analytics.get (Analytics.countBy ((as.filter fun a => a.jobOfferId ∈ ids).map
      (·.jobOfferId))) id).getD 0 = as.countP (·.jobOfferId = id) := by
  rw [Analytics.get_of_counts (fun e he => (Analytics.mem_countBy.1 he).2)
    fun k hk => Analytics.exists_countBy hk, List.count_eq_countP, List.countP_map,
    List.countP_filter]
  refine List.countP_congr fun a _ => ?_
  simp only [Function.comp, beq_iff_eq, Bool.and_eq_true, decide_eq_true_eq]
  exact ⟨fun ha => ha.1, fun ha => ⟨ha, ha ▸ h⟩⟩

theorem withCounts_keeps (offers : List JobOffer) :
    Keeps config d₀ i op (JobsService.withCounts offers)
      (fun L' os => ByOthers i L L' ∧ os.map (·.offer) = offers ∧ ∀ o ∈ os, o.applicationsCount =
        (d₀.at L').applications.rows.countP (·.jobOfferId = o.offer.id)) L := by
  unfold JobsService.withCounts
  split
  · next hempty =>
    refine ⟨.refl i L, (List.isEmpty_iff.1 hempty).symm, fun o ho => ?_⟩
    cases ho
  · refine promises_bind.2 (promises_select fun L₁ h₁ => ⟨h₁, ?_, fun o ho => ?_⟩)
    · rw [List.map_map]
      exact List.map_id' offers
    · obtain ⟨offer, hoffer, rfl⟩ := List.mem_map.1 ho
      exact count_of_offer _ (List.mem_map_of_mem hoffer)

theorem counted_keeps (offer : JobOffer) :
    Keeps config d₀ i op (JobsService.counted offer)
      (fun L' o => ByOthers i L L' ∧ o.offer = offer ∧ o.applicationsCount =
        (d₀.at L').applications.rows.countP (·.jobOfferId = offer.id)) L := by
  unfold JobsService.counted
  refine promises_bind.2 ((withCounts_keeps [offer]).mono fun L₁ os h₁ => ?_)
  obtain ⟨hl, hoffers, hcounts⟩ := h₁
  split
  · trivial
  · next o os =>
    have ho : o.offer = offer := (List.cons.inj hoffers).1
    exact ⟨hl, ho, ho ▸ hcounts o List.mem_cons_self⟩

/-! ## Applications -/

/-- The eligibility leaves nothing open. -/
theorem eligibilityOf_eligible {profile : Option Cvtheque.CandidateProfile} {n : Nat} :
    (ApplicationsService.eligibilityOf profile n).eligible = true ↔
      (∃ p, profile = some p ∧ ApplicationsService.APPLY_MIN_COMPLETENESS * 100 ≤ p.completeness) ∧
        0 < n := by
  unfold ApplicationsService.eligibilityOf ApplicationsService.APPLY_MIN_COMPLETENESS
  cases profile with
  | none => simp
  | some p => simp [Nat.pos_iff_ne_zero]

theorem computeEligibility_keeps (candidateId : Id) :
    Keeps config d₀ i op (ApplicationsService.computeEligibility candidateId)
      (fun L' r => ByOthers i L L' ∧ ∃ A, A <+: L' ∧ r.1 = (d₀.at A).base.profileOf candidateId ∧
        r.2 = ApplicationsService.eligibilityOf r.1
          ((d₀.at L').base.assessments.rows.countP fun a =>
            a.candidateId = candidateId && a.status = .completed)) L := by
  unfold ApplicationsService.computeEligibility
  refine promises_bind.2 (promises_select fun A hA => ?_)
  refine promises_bind.2 (promises_select fun B hB => ?_)
  exact ⟨hA.trans hB, A, hB.onto, rfl, rfl⟩

theorem apply_keeps {offerId : Id} {coverLetter : Option String}
    (hop : op = .apply userId offerId coverLetter) (hsilent : Silent L i) :
    Keeps config d₀ i op (ApplicationsService.apply i userId offerId coverLetter)
      (fun L' a => ∃ A, WrittenAt L' A i (.insertApplication a)) L := by
  unfold ApplicationsService.apply
  refine promises_bind.2 (promises_select fun L₁ h₁ => ?_)
  split
  · trivial
  · next o hfind =>
    obtain ⟨hget, hpublished⟩ := Option.filter_eq_some_iff.1 hfind
    refine promises_bind.2 ((computeEligibility_keeps userId).mono fun L₂ r h₂ => ?_)
    obtain ⟨hl₂, A, hA, hprofile, helig⟩ := h₂
    split
    · trivial
    · next heligible =>
      split
      · trivial
      · next profile hsome =>
        have heligible' : r.2.eligible = true := by simpa using heligible
        rw [helig, eligibilityOf_eligible] at heligible'
        obtain ⟨⟨p, hp, hcomplete⟩, hpos⟩ := heligible'
        obtain ⟨a, ha, hcompleted⟩ := List.countP_pos_iff.1 hpos
        simp only [Bool.and_eq_true, decide_eq_true_eq] at hcompleted
        rw [hsome] at hp
        cases hp
        refine promises_bind.2 (promises_select fun L₃ h₃ => ?_)
        split
        · trivial
        · refine insertRow_keeps fun L₄ h₄ hnone => ⟨?_, L₄, writtenAt_self _ _ _⟩
          have hl : ByOthers i L₂ L₄ := h₃.trans h₄
          refine ⟨hop, rfl, hsilent.others (h₁.trans (hl₂.trans hl)), rfl, ?_, ?_, hnone⟩
          · exact ⟨L₁, (hl₂.trans hl).onto, o, hget, by simpa using hpublished⟩
          · refine ⟨A, L₂, hA, hl.onto, ⟨profile, hprofile.symm.trans hsome, rfl, hcomplete⟩, ?_⟩
            exact ⟨a, ha, hcompleted⟩

theorem updateStatus_keeps {applicationId : Id} {status : ApplicationStatus}
    (hop : op = .updateApplicationStatus userId applicationId status)
    (hacts : ActsFor config d₀ L userId companyId) :
    Keeps config d₀ i op (ApplicationsService.updateStatus applicationId companyId status)
      (fun _ _ => True) L := by
  unfold ApplicationsService.updateStatus ApplicationRepository.save
  refine promises_bind.2 (promises_select fun L₁ h₁ => ?_)
  split
  · trivial
  · next app hload =>
    have hid := Table.key_of_get? (Option.filter_eq_some_iff.1 hload).1
    refine promises_bind.2 (promises_select fun L₂ h₂ => ?_)
    split
    · trivial
    · next reread hget =>
      split
      · trivial
      · next hdiffers =>
        refine promises_bind.2 (promises_write fun L₃ h₃ => ⟨?_, trivial⟩)
        have hrereadId := Table.key_of_get? hget
        have hne : status ≠ reread.status := by
          rintro rfl
          exact hdiffers (by simp [JobApplication.overwrite])
        have hl₁ : L₁ <+: L₃ := h₂.onto.trans h₃.onto
        refine ⟨userId, companyId, hid ▸ hop, rfl, hrereadId, hne, hacts.mono (h₁.onto.trans hl₁),
          ⟨L₁, hl₁, hid ▸ hload⟩, L₂, h₃.onto, hrereadId ▸ hget⟩

/-! ## The calls -/

theorem Answer.mono {L' : Log} {r : Result} (h : Answer config d₀ i L op r) (hl : L <+: L') :
    Answer config d₀ i L' op r := by
  cases op <;> cases r
  case entitlements.entitlements => exact Entitlements.mono h hl
  case list.offers =>
    obtain ⟨companyId, hacts, A, B, hA, hB, hos⟩ := h
    exact ⟨companyId, hacts.mono hl, A, B, hA, hB.trans hl, hos⟩
  case getOne.counted =>
    obtain ⟨hacts, A, B, hA, hB, ho⟩ := h
    exact ⟨hacts.mono hl, A, B, hA, hB.trans hl, ho⟩
  case detail.counted =>
    obtain ⟨hpublished, A, B, hA, hB, ho⟩ := h
    exact ⟨hpublished, A, B, hA, hB.trans hl, ho⟩
  case applicationsFor.views =>
    obtain ⟨companyId, hacts, A, B, hA, hB, hvs⟩ := h
    exact ⟨companyId, hacts.mono hl, A, B, hA, hB.trans hl, hvs⟩
  case mine.mine =>
    obtain ⟨A, hA, hvs⟩ := h
    exact ⟨A, hA.trans hl, hvs⟩
  case eligibility.eligibility =>
    obtain ⟨A, B, hA, hB, he⟩ := h
    exact ⟨A, B, hA, hB.trans hl, he⟩
  case apply.application =>
    obtain ⟨A, hA⟩ := h
    exact ⟨A, hA.mono hl⟩
  all_goals trivial

end

theorem followed (config : Config) {ok : RunState → Label Error Op → Prop} (d₀ : Db) :
    Followed (system config) ok d₀ (Guarantee config d₀)
      (fun i op L => Answer config d₀ i L op) fun _ _ _ => True where
  others _ _ := trivial
  fault _ _ _ _ := trivial
  mono _ h := h.mono (List.prefix_append _ _)
  prog i op L hsilent := by
    show (program config i op).Promises store d₀ i (Guarantee config d₀ i op)
      (fun e => isFault e = true) (fun L => Answer config d₀ i L op) L
    cases op with
    | elsewhere w => exact promises_bind.2 (promises_write fun L' _ => ⟨rfl, trivial⟩)
    | removeRecruiter id => exact promises_bind.2 (promises_write fun L' _ => ⟨rfl, trivial⟩)
    | removeProfile userId =>
      refine promises_bind.2 (promises_bind.2 (promises_select fun L₁ _ => ?_))
      split
      · trivial
      · next p hfind =>
        exact promises_write fun L₂ h₂ => ⟨⟨userId, rfl, L₁, h₂.onto, p, hfind, rfl⟩, trivial⟩
    | setOverride actorId companyId feature dto =>
      exact promises_bind.2 ((setOverride_keeps rfl).mono fun _ _ _ => trivial)
    | clearOverride actorId companyId feature =>
      exact promises_bind.2 ((clearOverride_keeps rfl).mono fun _ _ _ => trivial)
    | entitlements userId =>
      exact promises_bind.2 ((getEntitlementsForUser_keeps userId).mono fun _ _ h => h.2)
    | createJob userId dto =>
      refine promises_bind.2 (asRecruiter_keeps fun L₁ companyId _ hacts => ?_)
      exact (create_keeps rfl hacts).mono fun _ _ _ => trivial
    | updateJob userId id dto =>
      refine promises_bind.2 (asRecruiter_keeps fun L₁ companyId _ hacts => ?_)
      exact (update_keeps rfl hacts).mono fun _ _ _ => trivial
    | publish userId id =>
      refine promises_bind.2 (asRecruiter_keeps fun L₁ companyId _ hacts => ?_)
      exact (publish_keeps rfl hacts).mono fun _ _ _ => trivial
    | close userId id =>
      refine promises_bind.2 (asRecruiter_keeps fun L₁ companyId _ hacts => ?_)
      exact (close_keeps rfl hacts).mono fun _ _ _ => trivial
    | list userId =>
      refine promises_bind.2 (asRecruiter_keeps fun L₁ companyId _ hacts => ?_)
      unfold JobsService.listForCompany
      refine promises_bind.2 (promises_select fun A hA => ?_)
      refine (withCounts_keeps _).mono fun B os h => ?_
      obtain ⟨hB, hoffers, hcounts⟩ := h
      have hacts' : ActsFor config d₀ B userId companyId := hacts.mono (hA.trans hB).onto
      exact ⟨companyId, hacts', A, B, hB.onto, List.prefix_rfl, hoffers, hcounts⟩
    | getOne userId id =>
      refine promises_bind.2 (asRecruiter_keeps fun L₁ companyId _ hacts => ?_)
      unfold JobsService.getForCompany
      refine promises_bind.2 ((loadForCompany_keeps id).mono fun A offer hA => ?_)
      obtain ⟨hl, hid, hcompany, hget⟩ := hA
      refine (counted_keeps offer).mono fun B o hB => ?_
      obtain ⟨hB, rfl, hcount⟩ := hB
      refine ⟨hcompany ▸ hacts.mono (hl.trans hB).onto, A, B, hB.onto, List.prefix_rfl, hget, ?_⟩
      exact hid ▸ hcount
    | applicationsFor userId id =>
      refine promises_bind.2 (asRecruiter_keeps fun L₁ companyId _ hacts => ?_)
      unfold ApplicationsService.listForOffer
      refine promises_bind.2 (promises_select fun A hA => ?_)
      split
      · trivial
      · next o hfind =>
        obtain ⟨hget, hcompany⟩ := Option.filter_eq_some_iff.1 hfind
        refine promises_select fun B hB => ?_
        have hacts' : ActsFor config d₀ B userId companyId := hacts.mono (hA.trans hB).onto
        refine ⟨companyId, hacts', A, B, hB.onto, List.prefix_rfl, ?_, rfl⟩
        exact ⟨o, hget, by simpa using hcompany⟩
    | updateApplicationStatus userId id status =>
      refine promises_bind.2 (asRecruiter_keeps fun L₁ companyId _ hacts => ?_)
      exact (updateStatus_keeps rfl hacts).mono fun _ _ _ => trivial
    | mine userId =>
      exact promises_bind.2 (promises_select fun A _ => ⟨A, List.prefix_rfl, rfl⟩)
    | eligibility userId =>
      refine promises_bind.2 (promises_bind.2 ((computeEligibility_keeps userId).mono ?_))
      rintro B ⟨profile, e⟩ ⟨-, A, hA, rfl, he⟩
      exact ⟨A, B, hA, List.prefix_rfl, he⟩
    | detail id =>
      refine promises_bind.2 ?_
      unfold JobsService.getPublished
      refine promises_bind.2 (promises_select fun A _ => ?_)
      split
      · trivial
      · next offer hfind =>
        obtain ⟨hget, hpublished⟩ := Option.filter_eq_some_iff.1 hfind
        have hid := Table.key_of_get? hget
        refine (counted_keeps offer).mono fun B o hB => ?_
        obtain ⟨hB, rfl, hcount⟩ := hB
        exact ⟨by simpa using hpublished, A, B, hB.onto, List.prefix_rfl, hget, hid ▸ hcount⟩
    | apply userId id coverLetter =>
      exact promises_bind.2 ((apply_keeps rfl hsilent).mono fun _ _ h => h)

/-! ## A board -/

/-- Recruiter 5 of company 1, on the plan GROWTH, has published offer 10. Candidate 7 has a
complete profile and a completed attempt. -/
def board : Db where
  base :=
    { Cvtheque.Db.empty with
      profiles := Table.insert ∅ ⟨⟨7, 7, some "Salma", some "Alami", none, none, none,
        .recruitersOnly, none, none, 7000, true, false⟩, none, false, .active, none, none, "MAD",
        false, 0, 0⟩
      assessments := Table.insert ∅ ⟨100, 7, 20, none, .completed, none, none, none, some 0, none,
        none, none, false, 0, 0, false, none, 0⟩
      base := { JobBoard.Db.empty with
        companies := Table.insert ∅ ⟨1, "Acme", none, none⟩
        recruiters := Table.insert ∅ ⟨1, 5, 1⟩
        subscriptions := Table.insert ∅
          ⟨1, 1, .growth, .active, none, 0, none, 60, 0, none, false, 0⟩ } }
  overrides := ∅
  offers := Table.insert ∅ ⟨⟨10, 1, "Engineer", .published⟩, 5, none, none, none, none, none,
    some 0, none, 0⟩
  applications := ∅
  auditLogs := []

/-- `n` steps of call `i`. -/
def steps (i n : Nat) : List (Label Error Op) := List.replicate n (.step i)

end JobBoard.Jobs
