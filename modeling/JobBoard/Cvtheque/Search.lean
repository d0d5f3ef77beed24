import Mathlib.Data.List.Sort
import JobBoard.Assessments.Attempts
import JobBoard.Lib.SqlText
import JobBoard.Cvtheque.Database
import Mathlib.Algebra.Group.Int.Defs

/-!
# The search

`SearchService` and `ShortlistService.listEntries`: the reads of the CVthèque. The
condition of a search is a text, `buildQuery`, to which each filter adds its part. What
depends on a library is given from outside: the full-text match, `ILIKE` and the upper
case of an initial.

A cursor is given by what `decodeCursor` makes of the string, and its key, a string, by
its readings as a number and as a date.
-/

set_option autoImplicit false

namespace JobBoard.Cvtheque

open Txn Assessments

/-! ## Filters, sorts and cursors -/

/-- A `numeric` of the database. -/
inductive Numeric where
  | decimal (d : Decimal)
  | infinity | negInfinity | nan
  deriving DecidableEq, Repr

/-- Hundredths against a decimal. -/
def Decimal.compareHundredths (v : Int) (d : Decimal) : Ordering :=
  compare (v * 10 ^ d.scale) (d.mantissa * 100)

/-- Hundredths against a number: `NaN` is above all others. -/
def Numeric.compareHundredths (v : Int) : Numeric → Ordering
  | decimal d => d.compareHundredths v
  | infinity | nan => .lt
  | negInfinity => .gt

/-- The key of a cursor, a string, by `Number(s)` and `new Date(s)`. -/
structure CursorKey where
  number : Numeric
  date : Option Time
  deriving DecidableEq, Repr

/-- `id` is `none` when the string is not a uuid. -/
structure CursorPayload where
  key : CursorKey
  id : Option Id
  deriving DecidableEq, Repr

inductive Cursor where
  | malformed
  | encoded (payload : CursorPayload)
  deriving DecidableEq, Repr

def encodeCursor (payload : CursorPayload) : Cursor := .encoded payload

def decodeCursor : Cursor → Option CursorPayload
  | .malformed => none
  | .encoded payload => some payload

inductive SearchSort where
  | scoreDesc | scoreAsc | recent | active
  deriving DecidableEq, Repr

/-- A body that has passed the validation pipe. -/
structure SearchCandidatesDto where
  q : Option String
  skills : Option (List String)
  scoreMin : Option Decimal
  location : Option String
  availability : Option String
  salaryMax : Option Int
  cursor : Option Cursor
  schools : Option (List String)
  sort : Option SearchSort
  limit : Option Nat
  limit_pos : ∀ l, limit = some l → 1 ≤ l

/-- What the search is given from outside. -/
structure Environment where
  /-- `to_tsvector('french', ...) @@ plainto_tsquery('french', q)`. -/
  matchesText : String → String → Bool
  ilike : String → String → Bool
  /-- `trimmed.charAt(0).toUpperCase()`. -/
  initial : String → String
  /-- `new Date` of the text of a score, in hundredths. -/
  dateOfScore : Int → Option Time
  /-- `objectStorage.getSignedUrl`. -/
  getSignedUrl : String → Time → String

inductive Direction where
  | asc | desc
  deriving DecidableEq, Repr

/-! ## The joined rows -/

/-- A profile with the columns of the two subqueries. -/
structure Row where
  profile : CandidateProfile
  bestScoreValue : Option Int
  bestScorePercentile : Option Int
  assessmentCount : Nat
  deriving DecidableEq, Repr

namespace Row

def id (r : Row) : Id := r.profile.id

/-- `COALESCE(best_score.best_value, 0)`. -/
def bestValue (r : Row) : Int := r.bestScoreValue.getD 0

end Row

namespace SearchService

/-- The scores that `bestScoreSubQuery` groups under the candidate. -/
def countedScores (db : Db) (candidateId : Id) : List Score :=
  db.scores.rows.filter fun score =>
    (match db.assessments.get? score.assessmentId with
      | some assessment => assessment.status = .completed && assessment.candidateId = candidateId
      | none => false) &&
    (score.plagiarismVerdict ≠ .confirmed && score.expiresAt > db.now)

/-- `assessmentCountSubQuery`. -/
def countAssessments (db : Db) (candidateId : Id) : Nat :=
  db.assessments.rows.countP fun a => a.status = .completed && a.candidateId = candidateId

def joinRow (db : Db) (p : CandidateProfile) : Row :=
  let scores := countedScores db p.userId
  ⟨p, (scores.map (·.value)).max?, (scores.filterMap (·.percentile)).max?,
    countAssessments db p.userId⟩

def joinedRows (db : Db) : List Row := db.profiles.rows.map (joinRow db)

/-- A sort: the key of a row, the direction, how a key beyond another compares with it,
and how a key compares with that of a cursor (`none`: not a date). -/
structure SortConfig where
  keyExpr : Row → Int
  direction : Direction
  cmp : Ordering
  parseKey : CursorKey → Option (Int → Ordering)

def scoreKey (key : CursorKey) : Option (Int → Ordering) :=
  some fun v => key.number.compareHundredths v

def dateKey (key : CursorKey) : Option (Int → Ordering) :=
  key.date.map fun date t => compare t (ofDate date)

def resolveSort : Option SearchSort → SortConfig
  | some .scoreAsc => ⟨Row.bestValue, .asc, .gt, scoreKey⟩
  | some .recent => ⟨fun r => r.profile.createdAt, .desc, .lt, dateKey⟩
  | some .active => ⟨fun r => r.profile.updatedAt, .desc, .lt, dateKey⟩
  | some .scoreDesc | none => ⟨Row.bestValue, .desc, .lt, scoreKey⟩

/-! ## The condition -/

def isVisible (p : CandidateProfile) : Bool :=
  p.visibility = .publicVisibility || p.visibility = .recruitersOnly

/-- The conditions that every search starts with. -/
def baseConditions : Sql.Condition Row :=
  ((Sql.Condition.atom fun r => r.profile.indexedInCvtheque).andWhere
    (.atom fun r => r.profile.moderationStatus = .active)).andWhere
    (.atom fun r => isVisible r.profile)

/-- `coalesce(profile.headline, '') || ' ' || coalesce(profile.bio, '')`. -/
def searchedText (p : CandidateProfile) : String := p.headline.getD "" ++ " " ++ p.bio.getD ""

/-- `column ILIKE '%text%'`, unknown for a null column. -/
def contains (env : Environment) (column : Option String) (text : String) : Bool :=
  match column with
  | none => false
  | some value => env.ilike value ("%" ++ text ++ "%")

/-- `EXISTS` of a skill of the profile with one of the names. -/
def hasSkill (db : Db) (names : List String) (p : CandidateProfile) : Bool :=
  db.profileSkills.rows.any fun ps =>
    ps.profileId = p.id &&
      match db.skills.get? ps.skillId with
      | some sk => sk.name ∈ names
      | none => false

def qCondition (env : Environment) (q : Option String) : List (Sql.Condition Row) :=
  match truthy q with
  | none => []
  | some q => [.atom fun r => env.matchesText (searchedText r.profile) q]

def skillsCondition (db : Db) : Option (List String) → List (Sql.Condition Row)
  | none | some [] => []
  | some names => [.atom fun r => hasSkill db names r.profile]

def scoreCondition : Option Decimal → List (Sql.Condition Row)
  | none => []
  | some scoreMin => [.atom fun r => scoreMin.compareHundredths r.bestValue ≠ .lt]

def ilikeCondition (env : Environment) (column : CandidateProfile → Option String)
    (text : Option String) : List (Sql.Condition Row) :=
  match truthy text with
  | none => []
  | some text => [.atom fun r => contains env (column r.profile) text]

def salaryCondition : Option Int → List (Sql.Condition Row)
  | none => []
  | some salaryMax =>
    [((Sql.Condition.atom fun r => r.profile.salaryVisible).andWhere
      (.atom fun r => r.profile.salaryMin.isSome)).andWhere
      (.atom fun r => match r.profile.salaryMin with
        | none => false
        | some salaryMin => salaryMin ≤ salaryMax)]

def schoolsCondition (env : Environment) : Option (List String) → List (Sql.Condition Row)
  | none | some [] => []
  | some schools => [.atom fun r => schools.any (contains env r.profile.school)]

/-- What the filters add, but for the cursor. -/
def filterConditions (env : Environment) (filters : SearchCandidatesDto) (db : Db) :
    List (Sql.Condition Row) :=
  qCondition env filters.q ++ skillsCondition db filters.skills ++
    scoreCondition filters.scoreMin ++ ilikeCondition env (·.location) filters.location ++
    ilikeCondition env (·.availability) filters.availability ++
    salaryCondition filters.salaryMax ++ schoolsCondition env filters.schools

/-- The row's key is beyond the key of the cursor. -/
def beyondKey (sort : SortConfig) (keyOrder : Int → Ordering) (r : Row) : Bool :=
  keyOrder (sort.keyExpr r) == sort.cmp

/-- The row's key is the key of the cursor, and its id is beyond the id of the cursor. -/
def tiesBeyond (sort : SortConfig) (keyOrder : Int → Ordering) (cursorId : Id) (r : Row) : Bool :=
  keyOrder (sort.keyExpr r) == .eq && compare r.id cursorId == sort.cmp

/-- `(key cmp :cursorKey) OR (key = :cursorKey AND id cmp :cursorId)`: the `OR` stands
outside the parentheses. -/
def cursorCondition (sort : SortConfig) (keyOrder : Int → Ordering) (cursorId : Id) :
    Sql.Condition Row :=
  (Sql.Condition.atom (beyondKey sort keyOrder)).orText (.atom (tiesBeyond sort keyOrder cursorId))

/-- The parameters of the cursor, when there is one; a value that the database cannot read
as the type of the column fails the query. -/
def cursorConditions (filters : SearchCandidatesDto) : Except Error (List (Sql.Condition Row)) :=
  let sort := resolveSort filters.sort
  match filters.cursor.bind decodeCursor with
  | none => .ok []
  | some decoded =>
    match sort.parseKey decoded.key with
    | none => .error (.queryFailed "22007" none)
    | some keyOrder =>
      match decoded.id with
      | none => .error (.queryFailed "22P02" none)
      | some cursorId => .ok [cursorCondition sort keyOrder cursorId]

def buildQuery (env : Environment) (filters : SearchCandidatesDto) (db : Db) :
    Except Error (Sql.Condition Row) :=
  match cursorConditions filters with
  | .error e => .error e
  | .ok cursor => .ok ((baseConditions.andAll (filterConditions env filters db)).andAll cursor)

/-! ## The page -/

/-- `a` comes before `b`: by the key and then by the id, both in the direction of the sort. -/
def SortConfig.before (sort : SortConfig) (a b : Row) : Bool :=
  match sort.direction with
  | .asc => sort.keyExpr a < sort.keyExpr b || sort.keyExpr a = sort.keyExpr b && a.id < b.id
  | .desc => sort.keyExpr b < sort.keyExpr a || sort.keyExpr a = sort.keyExpr b && b.id < a.id

/-- `ORDER BY "sortKey", profile.id`. -/
def SortConfig.order (sort : SortConfig) (rows : List Row) : List Row :=
  rows.insertionSort fun a b => sort.before b a = false

end SearchService

/-- `${trimmed.charAt(0).toUpperCase()}.`, and null for a blank name. -/
def anonymizeLastName (env : Environment) (lastName : Option String) : Option String :=
  match truthy (lastName.map trim) with
  | none => none
  | some trimmed => some (env.initial trimmed ++ ".")

/-- A profile as a list of results shows it. -/
structure CandidateSearchResult where
  id : Id
  firstName : Option String
  lastName : Option String
  headline : Option String
  location : Option String
  skills : List String
  score : Int
  percentile : Option Int
  featured : Bool
  school : Option String
  schoolVerified : Bool
  assessmentCount : Nat
  anonymized : Option Bool
  deriving DecidableEq, Repr

structure SearchCandidatesResult where
  items : List CandidateSearchResult
  nextCursor : Option Cursor
  deriving DecidableEq, Repr

namespace SearchService

/-- The names of the skills of a profile. -/
def loadSkills (db : Db) (profileId : Id) : List String :=
  (db.profileSkills.rows.filter (·.profileId = profileId)).filterMap fun ps =>
    (db.skills.get? ps.skillId).map (·.name)

/-- The part of a result that the list and the detail share. -/
def summary (db : Db) (r : Row) (lastName : Option String) (anonymized : Option Bool) :
    CandidateSearchResult where
  id := r.id
  firstName := r.profile.firstName
  lastName := lastName
  headline := r.profile.headline
  location := r.profile.location
  skills := loadSkills db r.id
  score := r.bestScoreValue.getD 0
  percentile := r.bestScorePercentile
  featured := r.profile.featured
  school := r.profile.school
  schoolVerified := r.profile.schoolVerified
  assessmentCount := r.assessmentCount
  anonymized := anonymized

def preview (env : Environment) (db : Db) (r : Row) : CandidateSearchResult :=
  summary db r (anonymizeLastName env r.profile.lastName) (some true)

/-- The text of the last row's key: of a score, its decimal; of an instant, the ISO text of
its `Date`, which is no number. -/
def cursorKey (env : Environment) (sort : Option SearchSort) (r : Row) : CursorKey :=
  let key := (resolveSort sort).keyExpr r
  match sort with
  | some .recent | some .active => ⟨.nan, some (toDate key)⟩
  | some .scoreAsc | some .scoreDesc | none => ⟨.decimal ⟨key, 2⟩, env.dateOfScore key⟩

def DEFAULT_LIMIT : Nat := 20

def pageLimit (filters : SearchCandidatesDto) : Nat := filters.limit.getD DEFAULT_LIMIT

/-- The rows that the query returns: one more than a page, to see whether there are more. -/
def fetchRows (condition : Sql.Condition Row) (filters : SearchCandidatesDto) (db : Db) :
    List Row :=
  ((resolveSort filters.sort).order ((joinedRows db).filter condition.holds)).take
    (pageLimit filters + 1)

def searchCandidates (env : Environment) (filters : SearchCandidatesDto) (db : Db) :
    Except Error SearchCandidatesResult :=
  match buildQuery env filters db with
  | .error e => .error e
  | .ok condition =>
    let rows := fetchRows condition filters db
    let hasMore := rows.length > pageLimit filters
    let page := if hasMore then rows.take (pageLimit filters) else rows
    let nextCursor :=
      if hasMore then
        page.getLast?.map fun last =>
          encodeCursor ⟨cursorKey env filters.sort last, some last.id⟩
      else none
    .ok ⟨page.map (preview env db), nextCursor⟩

/-- The profiles that match and, when `since` is given, were updated after it. -/
def countNewMatches (env : Environment) (filters : SearchCandidatesDto) (since : Option Time)
    (db : Db) : Except Error Nat :=
  match buildQuery env filters db with
  | .error e => .error e
  | .ok condition =>
    let condition := match since with
      | none => condition
      | some since => condition.andWhere (.atom fun r => r.profile.updatedAt > ofDate since)
    .ok ((joinedRows db).countP condition.holds)

/-! ## The detail of a candidate -/

end SearchService

structure CandidateDetailViewer where
  isAdmin : Bool
  companyId : Option Id
  deriving DecidableEq, Repr

structure CandidateExperience where
  type : ExperienceType
  title : String
  organization : String
  startDate : Day
  endDate : Option Day
  description : Option String
  deriving DecidableEq, Repr

structure CandidateProject where
  title : String
  description : String
  url : Option String
  role : Option String
  startDate : Option Day
  endDate : Option Day
  deriving DecidableEq, Repr

structure CandidateCertification where
  name : String
  issuer : String
  issueDate : Day
  expiryDate : Option Day
  credentialUrl : Option String
  deriving DecidableEq, Repr

structure CandidateLink where
  type : LinkType
  url : String
  label : Option String
  deriving DecidableEq, Repr

structure CandidateCv where
  originalName : String
  mimeType : String
  size : Int
  downloadUrl : String
  deriving DecidableEq, Repr

structure CandidateDetail extends CandidateSearchResult where
  availability : Option String
  mobility : Option String
  salaryMin : Option Int
  salaryMax : Option Int
  salaryCurrency : Option String
  bio : Option String
  experiences : List CandidateExperience
  projects : List CandidateProject
  certifications : List CandidateCertification
  links : List CandidateLink
  cv : Option CandidateCv
  deriving DecidableEq, Repr

namespace SearchService

/-- The condition of the query of one profile. -/
def detailConditions (id : Id) : Sql.Condition Row :=
  (((Sql.Condition.atom fun r => r.id = id).andWhere
    (.atom fun r => r.profile.indexedInCvtheque)).andWhere
    (.atom fun r => r.profile.moderationStatus = .active)).andWhere
    (.atom fun r => isVisible r.profile)

/-- The company has a conversation with the profile. -/
def hasContact (db : Db) (companyId candidateProfileId : Id) : Bool :=
  db.base.conversations.rows.any fun c =>
    c.companyId = companyId && c.candidateId = candidateProfileId

def identityRevealed (db : Db) (viewer : CandidateDetailViewer) (profileId : Id) : Bool :=
  viewer.isAdmin ||
    match viewer.companyId with
    | none => false
    | some companyId => hasContact db companyId profileId

/-- Nulls come first in a descending order. -/
def descending (a b : Option Int) : Bool :=
  match a, b with
  | none, _ => true
  | some _, none => false
  | some a, some b => b ≤ a

def loadExperiences (db : Db) (profileId : Id) : List CandidateExperience :=
  ((db.experiences.rows.filter (·.profileId = profileId)).insertionSort
    fun a b => b.startDate ≤ a.startDate).map fun e =>
    ⟨e.type, e.title, e.organization, e.startDate, e.endDate, e.description⟩

def loadProjects (db : Db) (profileId : Id) : List CandidateProject :=
  ((db.projects.rows.filter (·.profileId = profileId)).insertionSort
    fun a b => descending a.startDate b.startDate = true ∧
      (a.startDate = b.startDate → b.createdAt ≤ a.createdAt)).map fun p =>
    ⟨p.title, p.description, p.url, p.role, p.startDate, p.endDate⟩

def loadCertifications (db : Db) (profileId : Id) : List CandidateCertification :=
  ((db.certifications.rows.filter (·.profileId = profileId)).insertionSort
    fun a b => b.issueDate ≤ a.issueDate).map fun c =>
    ⟨c.name, c.issuer, c.issueDate, c.expiryDate, c.credentialUrl⟩

/-- `documentRepo.findOne({ where: { ownerId, type: CV } })`, when its scan was clean. -/
def loadCvDownload (env : Environment) (db : Db) (candidateUserId : Id) : Option CandidateCv :=
  match db.documents.rows.find? fun d => d.ownerId = candidateUserId && d.type = .cv with
  | none => none
  | some doc =>
    if doc.scanStatus ≠ .clean then none
    else some ⟨doc.originalName, doc.mimeType, doc.size, env.getSignedUrl doc.storageKey db.now⟩

def loadLinks (db : Db) (profileId : Id) : List CandidateLink :=
  (db.links.rows.filter (·.profileId = profileId)).map fun l => ⟨l.type, l.url, l.label⟩

/-- What the query found, shown to the viewer. -/
def detailOf (env : Environment) (viewer : CandidateDetailViewer) (db : Db) (r : Row) :
    CandidateDetail :=
  let revealed := identityRevealed db viewer r.id
  let profile := r.profile
  let shown := profile.salaryVisible
  { summary db r
      (if revealed then profile.lastName else anonymizeLastName env profile.lastName)
      (if revealed then none else some true) with
    availability := profile.availability
    mobility := profile.mobility
    salaryMin := if shown then profile.salaryMin else none
    salaryMax := if shown then profile.salaryMax else none
    salaryCurrency := if shown then some profile.salaryCurrency else none
    bio := profile.bio
    experiences := loadExperiences db r.id
    projects := loadProjects db r.id
    certifications := loadCertifications db r.id
    links := if revealed then loadLinks db r.id else []
    cv := if revealed then loadCvDownload env db profile.userId else none }

def getCandidateDetail (env : Environment) (id : Id) (viewer : CandidateDetailViewer) (db : Db) :
    Except Error CandidateDetail :=
  match (joinedRows db).find? (detailConditions id).holds with
  | none => .error (.notFound "Candidate profile not found")
  | some row => .ok (detailOf env viewer db row)

end SearchService

/-! ## The shortlist -/

structure ShortlistCandidate where
  id : Id
  firstName : Option String
  lastName : Option String
  headline : Option String
  deriving DecidableEq, Repr

structure ShortlistEntryView where
  id : Id
  companyId : Id
  candidateProfileId : Id
  note : Option String
  createdAt : Time
  candidateProfile : Option ShortlistCandidate
  deriving DecidableEq, Repr

namespace ShortlistService

def toView (env : Environment) (db : Db) (e : ShortlistEntry) : ShortlistEntryView where
  id := e.id
  companyId := e.companyId
  candidateProfileId := e.candidateProfileId
  note := e.note
  createdAt := toDate e.createdAt
  candidateProfile := (db.profiles.get? e.candidateProfileId).map fun p =>
    ⟨p.id, p.firstName, anonymizeLastName env p.lastName, p.headline⟩

def listEntries (env : Environment) (callerId : Id) (db : Db) :
    Except Error (List ShortlistEntryView) :=
  match db.recruiterOf callerId with
  | none => .error (.notFound "No company associated with this account")
  | some recruiter =>
    .ok (((db.shortlistEntries.rows.filter (·.companyId = recruiter.companyId)).insertionSort
      fun a b => b.createdAt ≤ a.createdAt).map (toView env db))

end ShortlistService

end JobBoard.Cvtheque
