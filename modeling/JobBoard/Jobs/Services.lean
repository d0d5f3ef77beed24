import JobBoard.Jobs.Database

/-!
# Offers, applications and entitlements

`EntitlementService` with the guard of the routes that need a feature, `JobsService` and
`ApplicationsService`, each method as its controller calls it. The other services write what they
like to the tables of the CVthèque, and recruiters and profiles are removed.
-/

set_option autoImplicit false

namespace JobBoard.Jobs

open Txn Prog
open Analytics (JobStatus ApplicationStatus)
open Cvtheque (Micros)

/-! ## Entitlements -/

inductive FeatureSource where
  | package | adminOverride | system
  deriving DecidableEq, Repr

structure FeatureState where
  enabled : Bool
  source : FeatureSource
  deriving DecidableEq, Repr

structure CompanyEntitlements where
  companyId : Id
  plan : Option SubscriptionPlan
  planDisplayName : String
  active : Bool
  features : Feature → FeatureState
  limits : Limits

namespace EntitlementService

def resolveCompanyId (userId : Id) : M Id := do
  match ← select fun db => db.base.recruiterOf userId with
  | none => throw (.http (.forbidden "No company associated with this account"))
  | some recruiter => return recruiter.companyId

/-- The state of a feature; of two overrides of it the later one counts. -/
def featureState (active : Bool) (plan : Option SubscriptionPlan)
    (overrides : List FeatureOverride) (feature : Feature) : FeatureState :=
  match overrides.reverse.find? fun o => o.feature = feature with
  | some override => ⟨override.enabled, .adminOverride⟩
  | none =>
    ⟨active && (plan.any fun plan => decide (feature ∈ (entitlementsForPlan plan).features)),
      .package⟩

/-- What `getEntitlementsForCompany` makes of what it reads. -/
def entitlements (config : Config) (companyId : Id) (subscription : Option Subscription)
    (time : Time) (overrides : List FeatureOverride) : CompanyEntitlements :=
  let plan := subscription.map (·.plan)
  let active := subscription.any fun s =>
    isSubscriptionWithinAccess s config.gracePeriodDays time
  { companyId := companyId
    plan := plan
    planDisplayName := (plan.map PLAN_DISPLAY_NAME).getD "—"
    active := active
    features := featureState active plan overrides
    limits := (plan.map fun plan => (entitlementsForPlan plan).limits).getD ZERO_LIMITS }

def getEntitlementsForCompany (config : Config) (companyId : Id) : M CompanyEntitlements := do
  let subscription ← select fun db => db.subscriptionOf companyId
  let time ← select fun db => db.base.now
  let overrides ← select fun db => db.overrides.rows.filter (·.companyId = companyId)
  return entitlements config companyId subscription time overrides

def getEntitlementsForUser (config : Config) (userId : Id) : M CompanyEntitlements := do
  getEntitlementsForCompany config (← resolveCompanyId userId)

def hasFeatureForUser (config : Config) (userId : Id) (feature : Feature) : M Bool := do
  let e ← getEntitlementsForUser config userId
  return (e.features feature).enabled

def setOverride (uuid companyId : Id) (feature : Feature) (enabled : Bool) (actorId : Id)
    (note : Option String) : M FeatureOverride := do
  match ← select fun db => db.override? companyId feature with
  | some existing =>
    OverrideRepository.save { existing with
      enabled := enabled
      actorId := some actorId
      note := note }
  | none => OverrideRepository.insert ⟨uuid, companyId, feature, enabled, some actorId, note⟩

def clearOverride (companyId : Id) (feature : Feature) : M Unit := do
  match ← select fun db => db.override? companyId feature with
  | none => throw (.http (.notFound "No such override"))
  | some existing => write fun _ => [.removeOverride existing.id]

end EntitlementService

namespace FeatureGuard

/-- On a route that requires `feature`; the user is the one of the token. -/
def canActivate (config : Config) (feature : Feature) (userId : Id) : M Unit := do
  let allowed ← EntitlementService.hasFeatureForUser config userId feature
  if ¬ allowed then throw (.featureNotAvailable feature)
  else return ()

end FeatureGuard

namespace EntitlementsAdminController

def parseFeature (value : String) : M Feature :=
  match Feature.ofString? value with
  | none => throw (.http (.badRequest ("Unknown feature: " ++ value)))
  | some feature => ret feature

structure SetFeatureOverrideDto where
  enabled : Bool
  note : Option String
  deriving DecidableEq, Repr

def setOverride (uuid actorId companyId : Id) (feature : String) (dto : SetFeatureOverrideDto) :
    M FeatureOverride := do
  let f ← parseFeature feature
  let saved ← EntitlementService.setOverride uuid companyId f dto.enabled actorId dto.note
  write fun _ => [.insertAuditLog
    ⟨actorId, "feature_override", .inl saved.id, companyId, f, some dto.enabled⟩]
  return saved

def clearOverride (actorId companyId : Id) (feature : String) : M Unit := do
  let f ← parseFeature feature
  EntitlementService.clearOverride companyId f
  write fun _ => [.insertAuditLog
    ⟨actorId, "feature_override", .inr (toString companyId ++ ":" ++ f.toString), companyId, f,
      none⟩]

end EntitlementsAdminController

/-! ## Offers -/

structure CreateJobDto where
  title : String
  description : Option String
  location : Option String
  contractType : Option JobContractType
  experienceLevel : Option ExperienceLevel
  skills : Option (List String)
  deadline : Option Time
  deriving DecidableEq, Repr

/-- A field is undefined, null, or has a value. -/
structure UpdateJobDto where
  title : Option (Option String)
  description : Option (Option String)
  location : Option (Option String)
  contractType : Option (Option JobContractType)
  experienceLevel : Option (Option ExperienceLevel)
  skills : Option (Option (List String))
  deadline : Option (Option Time)
  deriving DecidableEq, Repr

/-- The text of a `simple-array`. -/
def skillsText (skills : List String) : String := ",".intercalate skills

structure JobOfferWithCount where
  offer : JobOffer
  applicationsCount : Nat
  deriving DecidableEq, Repr

namespace JobsService

def create (uuid companyId createdBy : Id) (dto : CreateJobDto) : M JobOffer :=
  OfferRepository.insert fun createdAt =>
    { id := uuid
      companyId := companyId
      title := dto.title
      status := .draft
      createdBy := createdBy
      description := dto.description
      location := dto.location
      contractType := dto.contractType
      experienceLevel := dto.experienceLevel
      skills := dto.skills.map skillsText
      publishedAt := none
      deadline := dto.deadline
      createdAt := createdAt }

def loadForCompany (id companyId : Id) : M JobOffer := do
  match ← select fun db => (db.offers.get? id).filter (·.companyId = companyId) with
  | none => throw (.http (.notFound "Offer not found"))
  | some offer => return offer

/-- The fields of the body, over those of the offer. -/
def edited (offer : JobOffer) (title : String) (dto : UpdateJobDto) : JobOffer :=
  { offer with
    title := title
    description := dto.description.getD offer.description
    location := dto.location.getD offer.location
    contractType := dto.contractType.getD offer.contractType
    experienceLevel := dto.experienceLevel.getD offer.experienceLevel
    skills := (dto.skills.map (·.map skillsText)).getD offer.skills
    deadline := dto.deadline.getD offer.deadline }

/-- The column of the title refuses a null. -/
def update (companyId id : Id) (dto : UpdateJobDto) : M JobOffer := do
  let offer ← loadForCompany id companyId
  match dto.title with
  | some none => throw (.http (.queryFailed "23502" none))
  | some (some title) => OfferRepository.save offer (edited offer title dto)
  | none => OfferRepository.save offer (edited offer offer.title dto)

def publish (companyId id : Id) : M JobOffer := do
  let offer ← loadForCompany id companyId
  let time ← select fun db => db.base.now
  OfferRepository.save offer { offer with
    status := .published
    publishedAt := some (offer.publishedAt.getD time) }

def close (companyId id : Id) : M JobOffer := do
  let offer ← loadForCompany id companyId
  OfferRepository.save offer { offer with status := .closed }

/-- The counts of the applications to the offers, by one query. -/
def withCounts (offers : List JobOffer) : M (List JobOfferWithCount) := do
  if offers.isEmpty then return []
  else
    let rows ← select fun db => Analytics.countBy
      ((db.applications.rows.filter fun a => a.jobOfferId ∈ offers.map (·.id)).map (·.jobOfferId))
    return offers.map fun o => ⟨o, (Analytics.get rows o.id).getD 0⟩

/-- Newest first; the database may put offers of one instant in any order. -/
def listForCompany (companyId : Id) : M (List JobOfferWithCount) := do
  let offers ← select fun db => (db.offers.rows.filter (·.companyId = companyId)).insertionSort
    fun a b => b.createdAt ≤ a.createdAt
  withCounts offers

/-- The one element of the answer of `withCounts`. -/
def counted (offer : JobOffer) : M JobOfferWithCount := do
  match ← withCounts [offer] with
  | [] => throw (.http (.internalServerError ""))
  | o :: _ => return o

def getForCompany (companyId id : Id) : M JobOfferWithCount := do
  counted (← loadForCompany id companyId)

def getPublished (id : Id) : M JobOfferWithCount := do
  match ← select fun db => (db.offers.get? id).filter (·.status = .published) with
  | none => throw (.http (.notFound "Offer not found"))
  | some offer => counted offer

end JobsService

/-! ## Applications -/

/-- What a candidate sees of an own application. -/
structure MyApplicationView where
  id : Id
  status : ApplicationStatus
  createdAt : Micros
  offerId : Id
  title : String
  companyName : Option String
  offerStatus : JobStatus
  deriving DecidableEq, Repr

/-- What a recruiter sees of an application. -/
structure RecruiterApplicationView where
  id : Id
  status : ApplicationStatus
  coverLetter : Option String
  createdAt : Micros
  profileId : Id
  firstName : Option String
  lastName : Option String
  headline : Option String
  deriving DecidableEq, Repr

namespace ApplicationsService

def APPLY_MIN_COMPLETENESS : Nat := 70

/-- `reasons` and the rest, of the profile and the number of completed attempts. -/
def eligibilityOf (profile : Option Cvtheque.CandidateProfile) (completedAssessments : Nat) :
    ApplyEligibility :=
  let completeness : Int := (profile.map (·.completeness)).getD 0
  let reasons :=
    (if completeness < APPLY_MIN_COMPLETENESS * 100 then [.profileIncomplete] else []) ++
      if completedAssessments < 1 then [.noCompletedAssessment] else []
  { eligible := reasons.isEmpty
    completeness := completeness
    threshold := APPLY_MIN_COMPLETENESS
    completedAssessments := completedAssessments
    reasons := reasons }

def computeEligibility (candidateId : Id) :
    M (Option Cvtheque.CandidateProfile × ApplyEligibility) := do
  let profile ← select fun db => db.base.profileOf candidateId
  let completedAssessments ← select fun db => db.base.assessments.rows.countP fun a =>
    a.candidateId = candidateId && a.status = .completed
  return (profile, eligibilityOf profile completedAssessments)

def getEligibility (candidateId : Id) : M ApplyEligibility := do
  return (← computeEligibility candidateId).2

def apply (uuid candidateId offerId : Id) (coverLetter : Option String) : M JobApplication := do
  match ← select fun db => (db.offers.get? offerId).filter (·.status = .published) with
  | none => throw (.http (.notFound "Offer not found"))
  | some _ =>
    let r ← computeEligibility candidateId
    if ¬ r.2.eligible then throw (.notEligible r.2)
    else
      match r.1 with
      | none => throw (.http (.badRequest "Complétez votre profil avant de postuler"))
      | some profile =>
        match ← select fun db => db.application? offerId candidateId with
        | some _ => throw (.http (.conflict "Vous avez déjà postulé à cette offre"))
        | none =>
          ApplicationRepository.insert fun createdAt =>
            { id := uuid
              jobOfferId := offerId
              status := .applied
              createdAt := createdAt
              candidateId := candidateId
              candidateProfileId := profile.id
              coverLetter := coverLetter }

/-- An application is joined with its offer, which is there. -/
def myView (db : Db) (a : JobApplication) : Option MyApplicationView :=
  (db.offers.get? a.jobOfferId).map fun o =>
    { id := a.id
      status := a.status
      createdAt := a.createdAt
      offerId := o.id
      title := o.title
      companyName := (db.base.base.companies.get? o.companyId).map (·.name)
      offerStatus := o.status }

/-- Newest first. -/
def newestFirst (as : List JobApplication) : List JobApplication :=
  as.insertionSort fun a b => b.createdAt ≤ a.createdAt

def listMine (candidateId : Id) : M (List MyApplicationView) :=
  select fun db =>
    (newestFirst (db.applications.rows.filter (·.candidateId = candidateId))).filterMap (myView db)

def recruiterView (db : Db) (a : JobApplication) : RecruiterApplicationView :=
  let profile := db.base.profiles.get? a.candidateProfileId
  { id := a.id
    status := a.status
    coverLetter := a.coverLetter
    createdAt := a.createdAt
    profileId := a.candidateProfileId
    firstName := profile.bind (·.firstName)
    lastName := profile.bind (·.lastName)
    headline := profile.bind (·.headline) }

def listForOffer (offerId companyId : Id) : M (List RecruiterApplicationView) := do
  match ← select fun db => (db.offers.get? offerId).filter (·.companyId = companyId) with
  | none => throw (.http (.notFound "Offer not found"))
  | some _ =>
    select fun db =>
      (newestFirst (db.applications.rows.filter (·.jobOfferId = offerId))).map (recruiterView db)

/-- The application with its offer, if the offer is one of the company. -/
def loadScoped (db : Db) (applicationId companyId : Id) : Option JobApplication :=
  (db.applications.get? applicationId).filter fun a =>
    (db.offers.get? a.jobOfferId).any fun o => o.companyId = companyId

def updateStatus (applicationId companyId : Id) (status : ApplicationStatus) :
    M JobApplication := do
  match ← select fun db => loadScoped db applicationId companyId with
  | none => throw (.http (.notFound "Application not found"))
  | some app => ApplicationRepository.save app { app with status := status }

end ApplicationsService

/-! ## Other services -/

namespace CandidateDataService

/-- The removal of the profile in `deleteData`. -/
def removeProfile (userId : Id) : M Unit := do
  match ← select fun db => db.base.profileOf userId with
  | none => return ()
  | some profile => write fun _ => [.removeProfile profile.id]

end CandidateDataService

/-! ## The system -/

inductive Op where
  | elsewhere (w : Cvtheque.Write)
  | removeRecruiter (id : Id)
  | removeProfile (userId : Id)
  | setOverride (actorId companyId : Id) (feature : String)
      (dto : EntitlementsAdminController.SetFeatureOverrideDto)
  | clearOverride (actorId companyId : Id) (feature : String)
  | entitlements (userId : Id)
  | createJob (userId : Id) (dto : CreateJobDto)
  | updateJob (userId id : Id) (dto : UpdateJobDto)
  | publish (userId id : Id)
  | close (userId id : Id)
  | list (userId : Id)
  | getOne (userId id : Id)
  | applicationsFor (userId id : Id)
  | updateApplicationStatus (userId id : Id) (status : ApplicationStatus)
  | mine (userId : Id)
  | eligibility (userId : Id)
  | detail (id : Id)
  | apply (userId id : Id) (coverLetter : Option String)
  deriving DecidableEq, Repr

inductive Result where
  | unit
  | override (o : FeatureOverride)
  | entitlements (e : CompanyEntitlements)
  | offer (o : JobOffer)
  | counted (o : JobOfferWithCount)
  | offers (os : List JobOfferWithCount)
  | views (vs : List RecruiterApplicationView)
  | application (a : JobApplication)
  | mine (vs : List MyApplicationView)
  | eligibility (e : ApplyEligibility)

/-- A method of the controller that needs the feature of the offers. -/
def asRecruiter {α : Type} (config : Config) (userId : Id) (method : Id → M α) : M α := do
  FeatureGuard.canActivate config .jobs userId
  let companyId ← EntitlementService.resolveCompanyId userId
  method companyId

def program (config : Config) (uuid : Id) : Op → M Result
  | .elsewhere w => do
    write fun _ => [.base w]
    return .unit
  | .removeRecruiter id => do
    write fun _ => [.removeRecruiter id]
    return .unit
  | .removeProfile userId => do
    CandidateDataService.removeProfile userId
    return .unit
  | .setOverride actorId companyId feature dto => do
    return .override (← EntitlementsAdminController.setOverride uuid actorId companyId feature dto)
  | .clearOverride actorId companyId feature => do
    EntitlementsAdminController.clearOverride actorId companyId feature
    return .unit
  | .entitlements userId => do
    return .entitlements (← EntitlementService.getEntitlementsForUser config userId)
  | .createJob userId dto => do
    return .offer (← asRecruiter config userId fun companyId =>
      JobsService.create uuid companyId userId dto)
  | .updateJob userId id dto => do
    return .offer (← asRecruiter config userId fun companyId => JobsService.update companyId id dto)
  | .publish userId id => do
    return .offer (← asRecruiter config userId fun companyId => JobsService.publish companyId id)
  | .close userId id => do
    return .offer (← asRecruiter config userId fun companyId => JobsService.close companyId id)
  | .list userId => do
    return .offers (← asRecruiter config userId JobsService.listForCompany)
  | .getOne userId id => do
    return .counted (← asRecruiter config userId fun companyId =>
      JobsService.getForCompany companyId id)
  | .applicationsFor userId id => do
    return .views (← asRecruiter config userId fun companyId =>
      ApplicationsService.listForOffer id companyId)
  | .updateApplicationStatus userId id status => do
    return .application (← asRecruiter config userId fun companyId =>
      ApplicationsService.updateStatus id companyId status)
  | .mine userId => do
    return .mine (← ApplicationsService.listMine userId)
  | .eligibility userId => do
    return .eligibility (← ApplicationsService.getEligibility userId)
  | .detail id => do
    return .counted (← JobsService.getPublished id)
  | .apply userId id coverLetter => do
    return .application (← ApplicationsService.apply uuid userId id coverLetter)

def system (config : Config) : System Db Write Key Error Result Op :=
  ⟨store, program config, isFault⟩

abbrev RunState := State Db Write Error Result Op

abbrev Log := List (Txn.Group Write)

/-- The committed database at a moment of the run. -/
abbrev Db.at (d₀ : Db) (L : Log) : Db := replay store d₀ L

end JobBoard.Jobs
