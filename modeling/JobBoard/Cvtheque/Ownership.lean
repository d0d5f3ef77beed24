import JobBoard.Cvtheque.Sweeps
import JobBoard.Cvtheque.Visibility

/-!
# Who changes which column of a profile

A `save` writes back every column in which the entity differs from the row that it
re-reads, also one that the method never assigned and that somebody else changed after the
entity was loaded. While no save finds such a change, each column is changed by its owner
only; without that, a recomputation of the thresholds undoes a suspension.
-/

set_option autoImplicit false

namespace JobBoard.Cvtheque

open Txn Prog Assessments

/-! ## A row after a write -/

/-- What the write makes of the profile `id`. -/
def Write.onProfile (w : Write) (clock : Micros) (id : Id) (p : CandidateProfile) :
    CandidateProfile :=
  match w with
  | .saveProfile writer _ entity reread =>
    if id = entity.id then CandidateProfile.saved clock writer entity reread p else p
  | .approveSchool profileId school =>
    if id = profileId then CandidateProfile.approved clock school p else p
  | _ => p

theorem profile_after {db : Db} {id : Id} {p : CandidateProfile}
    (h : db.profiles.get? id = some p) (w : Write) :
    (store.apply db w).profiles.get? id = some (w.onProfile db.clock id p) := by
  cases w with
  | insertProfile q => exact Table.get?_insert_of_some h
  | saveProfile writer loaded entity reread =>
    have hrow : (store.apply db (.saveProfile writer loaded entity reread)).profiles.get? id =
        if id = entity.id then
          (db.profiles.get? id).map (CandidateProfile.saved db.clock writer entity reread)
        else db.profiles.get? id :=
      Table.get?_modify _ (CandidateProfile.saved_id db.clock writer entity reread)
    rw [hrow, h]
    simp only [Write.onProfile]
    split <;> rfl
  | approveSchool profileId school =>
    have hrow : (store.apply db (.approveSchool profileId school)).profiles.get? id =
        if id = profileId then
          (db.profiles.get? id).map (CandidateProfile.approved db.clock school)
        else db.profiles.get? id :=
      Table.get?_modify (CandidateProfile.approved db.clock school) fun _ => rfl
    rw [hrow, h]
    simp only [Write.onProfile]
    split <;> rfl
  | _ => exact h

theorem saved_columns (clock : Micros) (writer : ProfileWriter)
    (entity reread row : CandidateProfile) :
    (CandidateProfile.saved clock writer entity reread row).moderationStatus =
        setColumn entity.moderationStatus reread.moderationStatus row.moderationStatus ∧
      (CandidateProfile.saved clock writer entity reread row).visibility =
        setColumn entity.visibility reread.visibility row.visibility ∧
      (CandidateProfile.saved clock writer entity reread row).schoolVerified =
        setColumn entity.schoolVerified reread.schoolVerified row.schoolVerified := by
  unfold CandidateProfile.saved
  split <;> exact ⟨rfl, rfl, rfl⟩

/-! ## Owners -/

/-- A statement of the operation changes a column only if it is its owner. -/
structure ByOwner (op : Op) (w : Write) (p p' : CandidateProfile) : Prop where
  moderationStatus : p'.moderationStatus ≠ p.moderationStatus →
    ∃ moderatorUserId loaded entity reread,
      op = .setModeration p.id p'.moderationStatus moderatorUserId ∧
      w = .saveProfile (.setModeration p'.moderationStatus) loaded entity reread
  visibility : p'.visibility ≠ p.visibility →
    (∃ data loaded entity reread, op = .updateProfile p.id data ∧
      data.visibility = some p'.visibility ∧
      w = .saveProfile (.updateProfile data.visibility) loaded entity reread) ∨
    ∃ moderatorUserId loaded entity reread,
      op = .setModeration p.id .suspended moderatorUserId ∧ p'.visibility = .hidden ∧
      w = .saveProfile (.setModeration .suspended) loaded entity reread
  schoolVerified : p'.schoolVerified ≠ p.schoolVerified →
    ∃ id adminUserId note school, op = .approve id adminUserId note ∧
      w = .approveSchool p.id school

theorem ByOwner.refl (op : Op) (w : Write) (p : CandidateProfile) : ByOwner op w p p :=
  ⟨fun h => absurd rfl h, fun h => absurd rfl h, fun h => absurd rfl h⟩

/-- The row that the save re-reads has the values that the entity was loaded with, in the
columns that the method does not assign. -/
def undisturbed (writer : ProfileWriter) (loaded reread : CandidateProfile) : Bool :=
  (writer.moderationStatus.isSome || reread.moderationStatus = loaded.moderationStatus) &&
    (writer.visibility.isSome || reread.visibility = loaded.visibility) &&
    reread.schoolVerified = loaded.schoolVerified

/-- No save finds a change that the entity does not know, in a column that it does not own. -/
def savesUndisturbed (s : RunState) : Label Error Op → Bool
  | .step i => (s.issues i).all fun w =>
    match w with
    | .saveProfile writer loaded _ reread => undisturbed writer loaded reread
    | _ => true
  | _ => true

theorem setColumn_changed {α : Type} [DecidableEq α] {entity reread row : α}
    (h : setColumn entity reread row ≠ row) :
    setColumn entity reread row = entity ∧ entity ≠ reread :=
  (setColumn_eq entity reread row).resolve_left h

/-- A column that is assigned, or that is the same as when the entity was loaded. -/
theorem assigned_of_changed {α : Type} [DecidableEq α] {entity loaded reread row : α}
    (assigned : Option α) (hentity : entity = assigned.getD loaded)
    (hquiet : assigned.isSome = true ∨ reread = loaded)
    (h : setColumn entity reread row ≠ row) :
    assigned = some (setColumn entity reread row) := by
  obtain ⟨hset, hne⟩ := setColumn_changed h
  rw [hset, hentity]
  cases assigned with
  | some a => rfl
  | none =>
    rcases hquiet with hsome | rfl
    · cases hsome
    · exact absurd hentity hne

theorem saveProfile_byOwner {op : Op} {writer : ProfileWriter}
    {loaded entity reread p : CandidateProfile} {clock : Micros}
    (hsaved : SavedBy op writer loaded entity) (hid : p.id = entity.id)
    (hquiet : undisturbed writer loaded reread = true) :
    ByOwner op (.saveProfile writer loaded entity reread) p
      (CandidateProfile.saved clock writer entity reread p) := by
  obtain ⟨hm, hv, hs⟩ := saved_columns clock writer entity reread p
  simp only [undisturbed, Bool.and_eq_true, Bool.or_eq_true, decide_eq_true_eq] at hquiet
  obtain ⟨⟨hqm, hqv⟩, hqs⟩ := hquiet
  constructor
  · intro h
    rw [hm] at h ⊢
    have hassigned := assigned_of_changed _ hsaved.moderationStatus hqm h
    cases writer with
    | setModeration status =>
      cases hassigned
      obtain ⟨moderatorUserId, hop⟩ := hsaved.saves
      exact ⟨moderatorUserId, loaded, entity, reread, hid ▸ hop, rfl⟩
    | _ => cases hassigned
  · intro h
    rw [hv] at h ⊢
    have hassigned := assigned_of_changed _ hsaved.visibility hqv h
    cases writer with
    | updateProfile visibility =>
      obtain ⟨data, hop, rfl⟩ := hsaved.saves
      exact .inl ⟨data, loaded, entity, reread, hid ▸ hop, hassigned, rfl⟩
    | setModeration status =>
      cases status with
      | active => cases hassigned
      | suspended =>
        obtain ⟨moderatorUserId, hop⟩ := hsaved.saves
        exact .inr ⟨moderatorUserId, loaded, entity, reread, hid ▸ hop,
          (Option.some.inj hassigned).symm, rfl⟩
    | _ => cases hassigned
  · intro h
    rw [hs] at h
    have hassigned := assigned_of_changed none hsaved.schoolVerified (.inr hqs) h
    cases hassigned

/-- A statement that is as guaranteed, and finds no foreign change. -/
theorem guarantee_byOwner {env : Environment} {d₀ : Db} {i : Nat} {op : Op} {L : Log} {w : Write}
    (hw : Guarantee env d₀ i op L w) (hquiet : ∀ writer loaded entity reread,
      w = .saveProfile writer loaded entity reread → undisturbed writer loaded reread = true)
    {clock : Micros} {p : CandidateProfile} : ByOwner op w p (w.onProfile clock p.id p) := by
  cases w with
  | saveProfile writer loaded entity reread =>
    simp only [Write.onProfile]
    split
    · next hid => exact saveProfile_byOwner hw hid (hquiet _ _ _ _ rfl)
    · exact .refl _ _ _
  | approveSchool profileId school =>
    simp only [Write.onProfile]
    split
    · next hid =>
      subst hid
      obtain ⟨id, adminUserId, note, rfl⟩ := hw
      refine ⟨fun h => absurd rfl h, fun h => absurd rfl h, fun _ => ?_⟩
      exact ⟨id, adminUserId, note, school, rfl, rfl⟩
    · exact .refl _ _ _
  | _ => exact .refl _ _ _

/-! ## Runs -/

section

variable {config : Config} {env : Environment} {d₀ : Db} {s : RunState}

theorem at_snoc (d₀ : Db) (l : Log) (g : Txn.Group Write) :
    d₀.at (l ++ [g]) = store.applyAll (d₀.at l) g.writes := replay_snoc store d₀ l g

/-- In every run in which no save finds a foreign change, the committed database is that of
the log, and each group of it changes the three columns of a profile only as their owner. -/
theorem columns_changed_by_owner
    (h : (system config env).Within (fun s l => savesUndisturbed s l = true) d₀ s) :
    s.db = d₀.at s.log ∧ ∀ l g r, s.log = l ++ g :: r → ∀ id p p',
      (d₀.at l).profiles.get? id = some p →
      (d₀.at (l ++ [g])).profiles.get? id = some p' →
      ∃ op w, s.ops[g.call]? = some op ∧ g.writes = [w] ∧ ByOwner op w p p' := by
  have hkept := kept h
  refine ⟨hkept.db, fun l g r hlog id p p' hp hp' => ?_⟩
  obtain ⟨-, op, hop, -, w, hwrites, hw⟩ := hkept.log hlog
  have hquiet : ∀ writer loaded entity reread,
      w = .saveProfile writer loaded entity reread → undisturbed writer loaded reread = true := by
    obtain ⟨_, _, hall⟩ := (history config env d₀ _).logged trivial
      (P := fun _ _ _ ws => ∀ w ∈ ws, ∀ writer loaded entity reread,
        w = .saveProfile writer loaded entity reread → undisturbed writer loaded reread = true)
      (fun _ _ hok _ w hw writer loaded entity reread he => by
        have := List.all_eq_true.1 hok w hw
        rw [he] at this
        exact this) h hlog
    exact hall w (by rw [hwrites]; exact List.mem_singleton_self w)
  refine ⟨op, w, hop, hwrites, ?_⟩
  have hid : p.id = id := by
    have := Table.key_of_get? hp
    exact this
  subst hid
  rw [at_snoc, hwrites] at hp'
  have hafter := profile_after hp w
  rw [Store.applyAll_cons, Store.applyAll_nil, hafter] at hp'
  cases hp'
  exact guarantee_byOwner hw hquiet

end

/-! ## A suspension undone -/

/-- One indexed and visible profile, whose completeness is 80. -/
def onePublicProfile : Db :=
  { Db.empty with
    profiles := ⟨[{ CandidateProfileService.newProfile 1 1 0 with
      visibility := .publicVisibility
      completeness := 80
      indexedInCvtheque := true }], by decide⟩ }

/-- A suspension on its own. -/
def suspensionAlone : List (Label Error Op) := .spawn (.setModeration 1 .suspended 9) :: steps 0 5

/-- The thresholds are recomputed from a profile that was loaded before the suspension. -/
def recomputationAround : List (Label Error Op) :=
  .spawn (.applyThresholds 1) :: steps 0 1 ++ .spawn (.setModeration 1 .suspended 9) ::
    steps 1 5 ++ steps 0 5

/-- The status and the visibility of profile 1 after the first `n` groups. -/
def statusAfter (log : Log) (n : Nat) : Option (ProfileModerationStatus × ProfileVisibility) :=
  ((onePublicProfile.at (log.take n)).profiles.get? 1).map fun p =>
    (p.moderationStatus, p.visibility)

theorem columns_changed_by_owner_suspension : ∃ s : RunState,
    s.db = onePublicProfile.at s.log ∧ s.log.length = 2 ∧
      statusAfter s.log 0 = some (.active, .publicVisibility) ∧
      statusAfter s.log 1 = some (.suspended, .hidden) ∧
      ∀ l g r, s.log = l ++ g :: r → ∀ id p p',
        (onePublicProfile.at l).profiles.get? id = some p →
        (onePublicProfile.at (l ++ [g])).profiles.get? id = some p' →
        ∃ op w, s.ops[g.call]? = some op ∧ g.writes = [w] ∧ ByOwner op w p p' := by
  have hrun : (((system Config.default SearchService.sampleEnvironment).runIf savesUndisturbed
      (State.init onePublicProfile) suspensionAlone).map fun s =>
        (s.log.length, statusAfter s.log 0, statusAfter s.log 1)) =
      some (2, some (.active, .publicVisibility), some (.suspended, .hidden)) := by decide
  obtain ⟨s, hs, he⟩ := System.within_of_run hrun
  simp only [Prod.mk.injEq] at he
  obtain ⟨hdb, hall⟩ := columns_changed_by_owner hs
  exact ⟨s, hdb, he.1, he.2.1, he.2.2, hall⟩

theorem suspension_undone : ¬ ∀ (config : Config) (env : Environment) (d₀ : Db) (s : RunState),
    (system config env).Reachable d₀ s → ∀ l g r, s.log = l ++ g :: r → ∀ id p p',
      (d₀.at l).profiles.get? id = some p → (d₀.at (l ++ [g])).profiles.get? id = some p' →
      ∃ op w, s.ops[g.call]? = some op ∧ g.writes = [w] ∧ ByOwner op w p p' := by
  intro h
  have hrun : (((system Config.default SearchService.sampleEnvironment).runLabels .all
      (State.init onePublicProfile) recomputationAround).map fun s =>
        decide (s.ops[0]? = some (.applyThresholds 1) ∧ s.log.map (·.call) = [1, 1, 0] ∧
          statusAfter s.log 2 = some (.suspended, .hidden) ∧
          statusAfter s.log 3 = some (.active, .publicVisibility))) = some true := by decide
  obtain ⟨s, hs, he⟩ := System.reach_of_run hrun
  obtain ⟨hop, hcalls, hbefore, hafter⟩ := of_decide_eq_true he
  obtain ⟨g₀, l₀, hlog, -, hcalls⟩ := List.map_eq_cons_iff.1 hcalls
  obtain ⟨g₁, l₁, rfl, -, hcalls⟩ := List.map_eq_cons_iff.1 hcalls
  obtain ⟨g, l₂, rfl, hcall, hcalls⟩ := List.map_eq_cons_iff.1 hcalls
  cases List.map_eq_nil_iff.1 hcalls
  obtain ⟨p, hp, hstatus⟩ := Option.map_eq_some_iff.1 (hlog ▸ hbefore)
  obtain ⟨p', hp', hstatus'⟩ := Option.map_eq_some_iff.1 (hlog ▸ hafter)
  obtain ⟨op, w, hop', -, hown⟩ := h _ _ _ s hs [g₀, g₁] g [] hlog 1 p p' hp hp'
  rw [hcall, hop] at hop'
  cases hop'
  have hchanged : p'.moderationStatus ≠ p.moderationStatus := by
    rw [(Prod.mk.inj hstatus).1, (Prod.mk.inj hstatus').1]
    decide
  obtain ⟨_, _, _, _, hop', -⟩ := hown.moderationStatus hchanged
  cases hop'

end JobBoard.Cvtheque
