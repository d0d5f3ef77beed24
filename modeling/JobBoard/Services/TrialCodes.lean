import JobBoard.Model.Statements

/-!
# Trial codes, for the administration

`TrialCodeAdminService`. `revoke` saves the entity it has loaded: a `used_count`
that a redemption has incremented since is written back.
-/

set_option autoImplicit false

namespace JobBoard

open Txn Prog

/-- A body that has passed the validation pipe. -/
structure CreateTrialCodeDto where
  code : String
  plan : SubscriptionPlan
  trialDurationDays : Int
  maxUses : Int
  expiresAt : Option Time
  minLength : 4 ≤ code.length
  positiveDuration : 0 < trialDurationDays
  positiveUses : 0 < maxUses
  deriving DecidableEq, Repr

def TRIAL_CODE_UNIQUE_CONSTRAINT : String := "UQ_351f0de4a4764e1fe03ad3cb948"

/-- The constraint that the new trial code `c` would violate. -/
def Db.trialCodeViolation (db : Db) (c : TrialCode) : Option String :=
  if (db.trialCodes.get? c.id).isSome then some "PK_9422e1f8d428ea15f517d1aba0d"
  else if db.trialCodes.rows.any (·.code == c.code) then some TRIAL_CODE_UNIQUE_CONSTRAINT
  else none

namespace TrialCodeRepository

/-- `save(entity)` of a loaded trial code: re-read the row, then update the columns
that differ, if any. No operation deletes a row of the table. -/
def save (entity : TrialCode) : M TrialCode := do
  match ← select fun db => db.trialCodes.get? entity.id with
  | none => throw (.entityNotFound "TrialCode")
  | some reread =>
    if entity.overwrite reread reread = reread then return entity
    else
      write fun _ => [.saveTrialCode entity reread]
      return entity

end TrialCodeRepository

namespace TrialCodeAdminService

/-- The row that `create` inserts. -/
def newTrialCode (uuid : Id) (dto : CreateTrialCodeDto) : TrialCode where
  id := uuid
  code := dto.code
  plan := dto.plan
  trialDurationDays := dto.trialDurationDays
  maxUses := dto.maxUses
  usedCount := 0
  status := .active
  expiresAt := dto.expiresAt

/-- The `INSERT`, with the `catch` around it. -/
def create (uuid : Id) (dto : CreateTrialCodeDto) : M TrialCode :=
  mapError
    (fun error =>
      if isUniqueViolation error then
        .conflict ("A trial code \"" ++ dto.code ++ "\" already exists")
      else error)
    (insertUnique (fun db => db.trialCodeViolation (newTrialCode uuid dto))
      (.insertTrialCode (newTrialCode uuid dto)) (newTrialCode uuid dto))

def revoke (id : Id) : M TrialCode := do
  match ← select fun db => db.trialCodes.get? id with
  | none => throw (.notFound ("Trial code " ++ toString id ++ " not found"))
  | some trialCode =>
    if trialCode.status = .revoked then return trialCode
    else TrialCodeRepository.save { trialCode with status := .revoked }

end TrialCodeAdminService

end JobBoard
