import JobBoard.Lib.Plain
import JobBoard.Assessments.System

/-!
# Pieces of the calls

The pieces of the services without transactions, and which statements they issue:
reads, entries of the audit trail, and the save of a profile. `Passes` is what a
predicate on the groups of a statement must allow for that.
-/

set_option autoImplicit false

namespace JobBoard.Assessments

open Txn Prog

section

variable {St As : List Write → Prop} {Er : Error → Prop}

/-- The check of the retake rule only reads. -/
theorem eligibility_plain (hnil : St []) (herror : ∀ e, Er e) (candidateId testId : Id) :
    (AssessmentService.checkEligibility candidateId testId).Plain St As Er := by
  unfold AssessmentService.checkEligibility AssessmentRepository.findOne
  refine (plain_select hnil _).bind fun _ => ?_
  split
  · exact plain_throw (herror _)
  · refine (plain_select hnil _).bind fun _ => (plain_select hnil _).bind fun _ => ?_
    split
    · exact plain_ret _
    · refine (plain_select hnil _).bind fun _ => ?_
      split
      · exact plain_throw (herror _)
      · exact plain_ret _

theorem multiAccount_plain (hnil : St []) (candidateId : Id) (deviceFingerprint : Option String) :
    (AssessmentService.detectMultiAccount candidateId deviceFingerprint).Plain St As Er := by
  unfold AssessmentService.detectMultiAccount
  split
  · exact plain_ret _
  · refine (plain_select hnil _).bind fun _ => (plain_select hnil _).bind fun _ => ?_
    exact (plain_select hnil _).bind fun _ => plain_ret _

end

structure Passes (St : List Write → Prop) (Er : Error → Prop) : Prop where
  nil : St []
  log : ∀ entry, St [.insertAuditLog entry]
  profile : ∀ e r, St [.saveProfile e r]
  error : ∀ e, Er e

namespace Passes

section

variable {St As : List Write → Prop} {Er : Error → Prop}

theorem read_plain (h : Passes St Er) {α : Type} (f : Db → α) : (select f : M α).Plain St As Er :=
  plain_select h.nil f

theorem log_plain (h : Passes St Er) (entry : AuditLog) :
    (AuditService.log entry).Plain St As Er :=
  plain_write fun _ => h.log entry

theorem logIf_plain (h : Passes St Er) {c : Prop} [Decidable c] {entry : AuditLog} {α : Type}
    {p : M α} (hp : p.Plain St As Er) :
    (if c then do AuditService.log entry; p else p).Plain St As Er := by
  split
  · exact (h.log_plain entry).bind fun _ => hp
  · exact hp

theorem saveProfile_plain (h : Passes St Er) (p : CandidateProfile) :
    (ProfileRepository.save p).Plain St As Er := by
  unfold ProfileRepository.save ProfileRepository.findById
  refine (h.read_plain _).bind fun reread => ?_
  split
  · exact plain_throw (h.error _)
  · next reread =>
    split
    · exact plain_ret _
    · exact Plain.bind (plain_write fun _ => h.profile p reread) fun _ => plain_ret _

theorem findValidScores_plain (h : Passes St Er) (ids : List Id) :
    (IndexationService.findValidScores ids).Plain St As Er := by
  unfold IndexationService.findValidScores
  split
  · exact plain_ret _
  · exact (h.read_plain _).bind fun _ => (h.read_plain _).bind fun _ => plain_ret _

theorem applyThresholds_plain (h : Passes St Er) (candidateId : Id) :
    (IndexationService.applyThresholds candidateId).Plain St As Er := by
  unfold IndexationService.applyThresholds ProfileRepository.findByUserId
  refine (h.read_plain _).bind fun profile => ?_
  split
  · exact plain_ret _
  · refine (h.read_plain _).bind fun ids => (h.findValidScores_plain ids).bind fun scores => ?_
    exact (h.read_plain _).bind fun t => (h.saveProfile_plain _).bind fun _ => plain_ret _

theorem checkEligibility_plain (h : Passes St Er) (candidateId testId : Id) :
    (AssessmentService.checkEligibility candidateId testId).Plain St As Er :=
  eligibility_plain h.nil h.error candidateId testId

theorem detectMultiAccount_plain (h : Passes St Er) (candidateId : Id)
    (deviceFingerprint : Option String) :
    (AssessmentService.detectMultiAccount candidateId deviceFingerprint).Plain St As Er :=
  multiAccount_plain h.nil candidateId deviceFingerprint

theorem computeCompositeScore_plain (h : Passes St Er) (result : AssessmentResult) :
    (WebhookService.computeCompositeScore result).Plain St As Er := by
  unfold WebhookService.computeCompositeScore getNumber
  split
  · exact (h.read_plain _).bind fun _ => (h.read_plain _).bind fun _ => plain_ret _
  · exact plain_ret _

theorem countCollisions_plain (h : Passes St Er) (candidateId : Id) (fingerprint : Option String) :
    (WebhookService.countCollisions candidateId fingerprint).Plain St As Er := by
  unfold WebhookService.countCollisions
  split
  · exact plain_ret _
  · exact h.read_plain _

theorem obtainResult_plain (h : Passes St Er) (hout : As []) (externalId : Option String)
    (provided fetched : Option AssessmentResult) :
    (WebhookService.obtainResult externalId provided fetched).Plain St As Er := by
  unfold WebhookService.obtainResult
  split
  · exact plain_ret _
  · exact plain_throw (h.error _)
  · refine Plain.bind (plain_outside fun _ => hout) fun _ => ?_
    split
    · exact plain_ret _
    · exact plain_throw (h.error _)

end

end Passes

end JobBoard.Assessments
