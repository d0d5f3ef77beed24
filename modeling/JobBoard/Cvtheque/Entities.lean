import JobBoard.Assessments.Entities

/-!
# The rows of the CVthèque

Candidate profiles with all the columns that recruiters see, what hangs on a profile,
and what recruiters keep about profiles. An instant that the database writes has
microseconds (`Micros`); a JavaScript `Date` made from it has milliseconds. The columns
of a `date` are day numbers.
-/

set_option autoImplicit false

namespace JobBoard.Cvtheque

open Txn

/-- Microseconds since 1970-01-01T00:00:00Z. -/
abbrev Micros := Int

/-- Days since 1970-01-01. -/
abbrev Day := Int

/-- The `Date` that the driver makes of a `timestamptz`. -/
def toDate (t : Micros) : Time := t / 1000

/-- The `timestamptz` of a `Date`. -/
def ofDate (t : Time) : Micros := t * 1000

inductive ProfileModerationStatus where
  | active | suspended
  deriving DecidableEq, Repr

inductive ExperienceType where
  | work | education
  deriving DecidableEq, Repr

inductive LinkType where
  | github | portfolio | linkedin | other
  deriving DecidableEq, Repr

inductive SchoolVerificationStatus where
  | pending | verified | rejected
  deriving DecidableEq, Repr

inductive NotificationType where
  | savedSearchAlert
  deriving DecidableEq, Repr

/-- `mantissa / 10 ^ scale`. -/
structure Decimal where
  mantissa : Int
  scale : Nat
  deriving DecidableEq, Repr

/-! ## Rows -/

structure CandidateProfile extends Assessments.CandidateProfile where
  location : Option String
  schoolVerified : Bool
  moderationStatus : ProfileModerationStatus
  availability : Option String
  mobility : Option String
  salaryCurrency : String
  salaryVisible : Bool
  createdAt : Micros
  updatedAt : Micros
  deriving DecidableEq, Repr

structure Skill extends Assessments.Skill where
  name : String
  deriving DecidableEq, Repr

structure Experience extends Assessments.Experience where
  type : ExperienceType
  organization : String
  startDate : Day
  endDate : Option Day
  description : Option String
  deriving DecidableEq, Repr

structure Project where
  id : Id
  profileId : Id
  title : String
  description : String
  url : Option String
  role : Option String
  startDate : Option Day
  endDate : Option Day
  createdAt : Micros
  deriving DecidableEq, Repr

structure Certification where
  id : Id
  profileId : Id
  name : String
  issuer : String
  issueDate : Day
  expiryDate : Option Day
  credentialUrl : Option String
  deriving DecidableEq, Repr

structure ProfileLink extends Assessments.ProfileLink where
  type : LinkType
  label : Option String
  deriving DecidableEq, Repr

structure Document extends Assessments.Document where
  originalName : String
  mimeType : String
  size : Int
  deriving DecidableEq, Repr

structure ShortlistEntry where
  id : Id
  companyId : Id
  candidateProfileId : Id
  addedBy : Id
  note : Option String
  createdAt : Micros
  deriving DecidableEq, Repr

structure SchoolVerification where
  id : Id
  candidateProfileId : Id
  documentId : Id
  status : SchoolVerificationStatus
  matchedSchool : Option String
  reviewedBy : Option Id
  reviewedAt : Option Time
  reviewNote : Option String
  deriving DecidableEq, Repr

/-- The filters of a saved search. -/
structure SavedSearchCriteria where
  q : Option String
  skills : Option (List String)
  scoreMin : Option Decimal
  location : Option String
  availability : Option String
  salaryMax : Option Int
  deriving DecidableEq, Repr

/-- `lastNotifiedAt` is always a `Date` of the server. -/
structure SavedSearch where
  id : Id
  ownerUserId : Id
  name : String
  criteria : SavedSearchCriteria
  alertEnabled : Bool
  lastNotifiedAt : Option Time
  deriving DecidableEq, Repr

structure Notification where
  recipientUserId : Id
  type : NotificationType
  title : String
  body : String
  deriving DecidableEq, Repr

/-! ## Bodies -/

structure UpdateProfileDto extends Assessments.UpdateProfileDto where
  location : Option String
  availability : Option String
  mobility : Option String
  salaryCurrency : Option String
  salaryVisible : Option Bool
  deriving DecidableEq, Repr

structure AddShortlistEntryDto where
  candidateProfileId : Id
  note : Option String
  deriving DecidableEq, Repr

end JobBoard.Cvtheque
