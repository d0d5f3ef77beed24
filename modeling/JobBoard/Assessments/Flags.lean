import JobBoard.Lib.Settle
import JobBoard.Assessments.Redelivery

/-!
# The flags of the indexation

`indexedInCvtheque` and `featured` store what `applyThresholds` computes from the scores, their
percentiles, the completeness and the time. The finalisation of an attempt and a change of the
completeness compute them again, the passing of time and the recalculation of the percentiles do
not. `flags_right` says in which runs this makes no difference.
-/

set_option autoImplicit false

namespace JobBoard.Assessments

open Txn Prog

/-- The flags of the user's profile are those that `applyThresholds` would compute. -/
def RightFor (d : Db) (userId : Id) : Prop :=
  ∀ p, d.profileOf userId = some p → (p.indexedInCvtheque, p.featured) = d.flagsOf p

def FlagsRight (d : Db) : Prop := ∀ userId, RightFor d userId

/-! ## Writes that the flags do not depend on -/

section

variable {d d' : Db} {userId : Id}

theorem RightFor.congr (h : RightFor d userId) (hsame : SameRows d d') (hnow : d'.now = d.now) :
    RightFor d' userId := by
  intro p hp
  rw [Db.profileOf, hsame.profiles, ← Db.profileOf] at hp
  rw [Db.flagsOf, flagsAt_congr hsame.scores hsame.assessments hsame.settings, hnow]
  exact h p hp

theorem FlagsRight.congr (h : FlagsRight d) (hsame : SameRows d d') (hnow : d'.now = d.now) :
    FlagsRight d' := fun userId => (h userId).congr hsame hnow

/-- Rows that no flag is computed from. -/
def isBeside : Write → Bool
  | .insertProfileSkill _ | .deleteProfileSkill _ | .insertExperience _ | .saveExperience _
  | .deleteExperience _ | .insertLink _ | .deleteLink _ | .insertDocument _ | .deleteDocument _
  | .insertAuditLog _ => true
  | _ => false

theorem FlagsRight.beside {w : Write} (hw : isBeside w = true) (h : FlagsRight d) :
    FlagsRight (store.apply d w) := by
  cases w with
  | tick _ | insertAssessment _ | saveAssessment _ _ | insertScore _ | updatePercentile _ _
  | insertProfile _ | saveProfile _ _ => cases hw
  | _ => exact h.congr ⟨rfl, rfl, rfl, rfl⟩ rfl

/-! ## A saved profile -/

/-- The profiles of the other users stay. -/
theorem profileOf_other {p e : CandidateProfile} (hp : d.profiles.get? e.id = some p)
    (hne : userId ≠ p.userId) :
    (store.apply d (.saveProfile e p)).profileOf userId = d.profileOf userId := by
  have hfind : (store.apply d (.saveProfile e p)).profileOf userId =
      (d.profileOf userId).map fun r => if r.id = e.id then e.overwrite p r else r :=
    Table.find?_modify (e.overwrite p) (fun _ => rfl) fun _ => rfl
  rw [hfind]
  cases hq : d.profileOf userId with
  | none => rfl
  | some q =>
    obtain ⟨hget, hquser⟩ := profileOf_get hq
    have hid : q.id ≠ e.id := by
      intro hid
      rw [hid, hp] at hget
      cases hget
      exact hne hquser.symm
    rw [Option.map_some, if_neg hid]

theorem rightFor_other {p e : CandidateProfile} (hp : d.profiles.get? e.id = some p)
    (hne : userId ≠ p.userId) (h : RightFor d userId) :
    RightFor (store.apply d (.saveProfile e p)) userId := by
  intro q hq
  rw [profileOf_other hp hne] at hq
  exact h q hq

/-- A save that leaves the flags and the completeness. -/
theorem FlagsRight.saved {p e : CandidateProfile} (h : FlagsRight d)
    (hp : d.profiles.get? e.id = some p) (he : e.overwrite p p = e)
    (hindexed : e.indexedInCvtheque = p.indexedInCvtheque) (hfeatured : e.featured = p.featured)
    (hcompleteness : e.completeness = p.completeness) :
    FlagsRight (store.apply d (.saveProfile e p)) := by
  intro userId
  by_cases huser : userId = p.userId
  · intro q hq
    have hfind : (store.apply d (.saveProfile e p)).profileOf userId =
        (d.profileOf userId).map fun r => if r.id = e.id then e.overwrite p r else r :=
      Table.find?_modify (e.overwrite p) (fun _ => rfl) fun _ => rfl
    rw [hfind] at hq
    obtain ⟨r, hr, hrq⟩ := Option.map_eq_some_iff.1 hq
    have hright := h userId r hr
    split at hrq
    · next hid =>
      have hrp : r = p := by
        have hget := (profileOf_get hr).1
        rw [hid, hp] at hget
        exact (Option.some.inj hget).symm
      subst hrp
      rw [he] at hrq
      subst hrq
      have huserId : e.userId = r.userId := by rw [← he]; rfl
      rw [hindexed, hfeatured, hright]
      show IndexationService.flags _ _ _ = IndexationService.flags _ _ _
      rw [hcompleteness, huserId]
      rfl
    · cases hrq
      exact hright
  · exact rightFor_other hp huser (h userId)

/-- The indexation of the one user whose flags may be wrong. -/
theorem flagsRight_indexation (h : ∀ c, c ≠ userId → RightFor d c) :
    FlagsRight (store.applyGroups d (d.indexation userId)) := by
  have hsame : ∀ {σ : Type} (f : Db → σ), (∀ d e r, f (store.apply d (.saveProfile e r)) = f d) →
      f (store.applyGroups d (d.indexation userId)) = f d := fun f hf => indexation_same userId hf
  have hflags : ∀ p, (store.applyGroups d (d.indexation userId)).flagsOf p = d.flagsOf p := by
    intro p
    rw [Db.flagsOf, flagsAt_congr (hsame (·.scores) fun _ _ _ => rfl)
      (hsame (·.assessments) fun _ _ _ => rfl) (hsame (·.settings) fun _ _ _ => rfl),
      hsame (·.now) fun _ _ _ => rfl]
  intro c p hp
  by_cases hc : c = userId
  · subst hc
    rw [hflags]
    exact indexation_flags hp
  · rw [hflags]
    refine h c hc p ?_
    unfold Db.indexation at hp
    cases hq : d.profileOf userId with
    | none =>
      rw [hq] at hp
      exact hp
    | some q =>
      obtain ⟨hget, hquser⟩ := profileOf_get hq
      rw [hq] at hp
      dsimp only at hp
      split at hp
      · exact hp
      · have hother : (store.apply d (.saveProfile (q.withFlags (d.flagsOf q)) q)).profileOf c =
            d.profileOf c := profileOf_other hget (hquser ▸ hc)
        rw [← hother]
        exact hp

/-! ## Attempts and scores -/

open IndexationService (completedIds validScores)

/-- The same valid scores, and the same profile. -/
theorem RightFor.of (h : RightFor d userId) (hprofiles : d'.profiles = d.profiles)
    (hsettings : d'.settings = d.settings) (hnow : d'.now = d.now)
    (hscores : ∀ time, validScores d' (completedIds d' userId) time =
      validScores d (completedIds d userId) time) : RightFor d' userId := by
  intro p hp
  rw [Db.profileOf, hprofiles, ← Db.profileOf] at hp
  have huser : p.userId = userId := (profileOf_get hp).2
  rw [h p hp]
  unfold Db.flagsOf Db.flagsAt
  rw [huser, hscores, hsettings, hnow]

theorem completedIds_insert {a : Assessment} (ha : a.status ≠ .completed) (userId : Id) :
    completedIds (store.apply d (.insertAssessment a)) userId = completedIds d userId := by
  have hskip : (decide (a.candidateId = userId) && decide (a.status = .completed)) = false := by
    simp [ha]
  unfold completedIds
  show ((d.assessments.insert a).rows.filter _).map _ = _
  unfold Table.insert
  split
  · rfl
  · rw [List.filter_append, List.filter_singleton, hskip]
    simp

/-- An attempt that is saved, where it does not count for the user, before or after. -/
theorem completedIds_save {a e : Assessment} (ha : d.assessment? a.id = some a) (hid : e.id = a.id)
    (h : a.candidateId ≠ userId ∨ a.status ≠ .completed ∧ e.status ≠ .completed) :
    completedIds (store.apply d (.saveAssessment e a)) userId = completedIds d userId := by
  have hsame : ∀ r ∈ d.assessments.rows,
      (decide ((if r.id = e.id then e.overwrite a r else r).candidateId = userId) &&
        decide ((if r.id = e.id then e.overwrite a r else r).status = .completed)) =
      (decide (r.candidateId = userId) && decide (r.status = .completed)) := by
    intro r hr
    split
    · next hr' =>
      have hra : r = a := by
        have hget : d.assessment? r.id = some r := Table.get?_of_mem hr
        rw [hr', hid, ha] at hget
        exact (Option.some.inj hget).symm
      subst hra
      rw [Assessment.overwrite_loaded]
      rcases h with hother | ⟨hbefore, hafter⟩
      · simp [hother]
      · simp [hbefore, hafter]
    · rfl
  unfold completedIds
  show ((d.assessments.modify e.id (e.overwrite a) fun _ => rfl).rows.filter _).map _ = _
  unfold Table.modify Table.modifyWhere
  simp only [decide_eq_true_eq]
  rw [List.filter_map, List.map_map]
  have hfilter := List.filter_congr hsame
  simp only [Function.comp_def]
  rw [hfilter]
  refine List.map_congr_left fun r _ => ?_
  split <;> rfl

theorem FlagsRight.insertAssessment {a : Assessment} (h : FlagsRight d)
    (ha : a.status ≠ .completed) : FlagsRight (store.apply d (.insertAssessment a)) := by
  refine fun userId => (h userId).of rfl rfl rfl fun time => ?_
  rw [completedIds_insert ha]
  rfl

theorem rightFor_saveAssessment {a e : Assessment} (h : RightFor d userId)
    (ha : d.assessment? a.id = some a) (hid : e.id = a.id)
    (hcounts : a.candidateId ≠ userId ∨ a.status ≠ .completed ∧ e.status ≠ .completed) :
    RightFor (store.apply d (.saveAssessment e a)) userId := by
  refine h.of rfl rfl rfl fun time => ?_
  rw [completedIds_save ha hid hcounts]
  rfl

/-- A new score counts for the candidate of its attempt only. -/
theorem rightFor_insertScore {a : Assessment} {s : Score} (h : RightFor d userId)
    (ha : d.assessment? a.id = some a) (hs : s.assessmentId = a.id)
    (hother : a.candidateId ≠ userId) : RightFor (store.apply d (.insertScore s)) userId := by
  have hskip : s.assessmentId ∉ completedIds d userId := by
    intro hmem
    obtain ⟨r, hr, hrid⟩ := List.mem_map.1 hmem
    obtain ⟨hrow, hcounts⟩ := List.mem_filter.1 hr
    simp only [Bool.and_eq_true, decide_eq_true_eq] at hcounts
    have hget : d.assessment? r.id = some r := Table.get?_of_mem hrow
    rw [hrid, hs, ha] at hget
    cases hget
    exact hother hcounts.1
  refine h.of rfl rfl rfl fun time => ?_
  show validScores (store.apply d (.insertScore s)) (completedIds d userId) time = _
  unfold validScores
  show (((d.scores.insert s).rows.filter _).filter _) = _
  unfold Table.insert
  split
  · rfl
  · rw [List.filter_append, List.filter_singleton, decide_eq_false hskip]
    simp

/-- A finalisation that nothing interrupts. -/
theorem FlagsRight.finalization {uuid : Id} {a : Assessment} (h : FlagsRight d)
    (ha : d.assessment? a.id = some a) (result : AssessmentResult) :
    FlagsRight (store.applyGroups d (d.finalization uuid a result)) := by
  rw [Db.finalization, Store.applyGroups_append]
  refine flagsRight_indexation fun c hc => ?_
  rw [Db.scoring, Store.applyGroups_cons, Db.middle, Store.applyGroups_append]
  have hscored : RightFor (store.applyAll d [.insertScore (d.graded uuid a result)]) c :=
    rightFor_insertScore (h c) ha rfl (Ne.symm hc)
  have hcompleted : RightFor (store.applyGroups (store.applyAll d
      [.insertScore (d.graded uuid a result)]) (d.completion a)) c := by
    unfold Db.completion
    split
    · exact hscored
    · exact rightFor_saveAssessment hscored ha rfl (.inl (Ne.symm hc))
  refine hcompleted.congr (entries_same (fun ws hws => isEntry_of_mem hws) _) ?_
  refine store.applyGroups_same _ fun ws hws d' => ?_
  simp only [entries, List.mem_cons, List.not_mem_nil, or_false] at hws
  rcases hws with rfl | rfl <;> rfl

end

/-! ## The statements of the calls -/

/-- What the statement changes besides, the flags of the indexation do not depend on: the time
and the percentiles only where no flag comes out differently, and a new profile where it comes
out as it is stored. -/
def keepsComputed (d : Db) : Write → Bool
  | .tick ms => d.profiles.rows.all fun p => (store.apply d (.tick ms)).flagsOf p = d.flagsOf p
  | .updatePercentile id n => d.profiles.rows.all fun p =>
      (store.apply d (.updatePercentile id n)).flagsOf p = d.flagsOf p
  | .insertProfile p => (p.indexedInCvtheque, p.featured) = d.flagsOf p
  | _ => true

/-- The rows that no save of an attempt or of a profile is about, nor a score. -/
def isQuiet : Write → Bool
  | .insertAssessment a => a.status ≠ .completed
  | .tick _ | .updatePercentile _ _ | .insertProfile _ => true
  | w => isBeside w

def Quiet (ws : List Write) : Prop := ws = [] ∨ ∃ w, ws = [w] ∧ isQuiet w = true

section

variable {d : Db} {userId : Id}

theorem quiet {w : Write} (h : isQuiet w = true) : Quiet [w] := .inr ⟨w, rfl, h⟩

theorem FlagsRight.recomputed {d' : Db} (h : FlagsRight d) (hprofiles : d'.profiles = d.profiles)
    (hflags : ∀ p ∈ d.profiles.rows, d'.flagsOf p = d.flagsOf p) : FlagsRight d' := by
  intro userId p hp
  rw [Db.profileOf, hprofiles] at hp
  rw [hflags p (List.mem_of_find?_eq_some hp)]
  exact h userId p hp

theorem FlagsRight.insertProfile {p : CandidateProfile} (h : FlagsRight d)
    (hp : (p.indexedInCvtheque, p.featured) = d.flagsOf p) :
    FlagsRight (store.apply d (.insertProfile p)) := by
  intro userId q hq
  have hflags : (store.apply d (.insertProfile p)).flagsOf q = d.flagsOf q :=
    flagsAt_congr rfl rfl rfl _ _
  rw [hflags]
  have hrow : d.profileOf userId = some q ∨ q = p := by
    have hfind : (d.profiles.insert p).rows.find? (·.userId == userId) = some q := hq
    unfold Table.insert at hfind
    split at hfind
    · exact .inl hfind
    · rw [List.find?_append, Option.or_eq_some_iff] at hfind
      rcases hfind with hold | ⟨-, hnew⟩
      · exact .inl hold
      · exact .inr (List.mem_singleton.1 (List.mem_of_find?_eq_some hnew))
  rcases hrow with hold | rfl
  · exact h userId q hold
  · exact hp

theorem FlagsRight.quiet {ws : List Write} (hws : Quiet ws) (hadm : ws.all (keepsComputed d) = true)
    (h : FlagsRight d) : FlagsRight (store.applyAll d ws) := by
  rcases hws with rfl | ⟨w, rfl, hquiet⟩
  · exact h
  · have hkeeps : keepsComputed d w = true := by simpa using hadm
    show FlagsRight (store.apply d w)
    cases w with
    | insertAssessment a => exact h.insertAssessment (of_decide_eq_true hquiet)
    | tick ms =>
      refine h.recomputed rfl fun p hp => ?_
      exact of_decide_eq_true (List.all_eq_true.1 hkeeps p hp)
    | updatePercentile id n =>
      refine h.recomputed rfl fun p hp => ?_
      exact of_decide_eq_true (List.all_eq_true.1 hkeeps p hp)
    | insertProfile p => exact h.insertProfile (of_decide_eq_true hkeeps)
    | saveAssessment _ _ | insertScore _ | saveProfile _ _ => cases hquiet
    | _ => exact h.beside rfl

end

end JobBoard.Assessments
