import JobBoard.Jobs.Conduct

/-!
# Applications

`applications_sound`: in every run an application is inserted by the candidate's own call, which has
read the offer PUBLISHED and the candidate eligible; there is one to an offer at most; and one that
was acknowledged stays until the profile is removed. `application_trail` is what happens to it then:
its status alone changes, by recruiters of the company of the offer. `revealed_by_applying`: a
recruiter is shown the names of a candidate only in an application that the candidate has made.
-/

set_option autoImplicit false

namespace JobBoard.Jobs

open Txn Prog
open Analytics (ApplicationStatus)

/-! ## Rows -/

/-- The unique constraint of the table. -/
def OnePerOffer (db : Db) : Prop :=
  ∀ a ∈ db.applications.rows, ∀ b ∈ db.applications.rows,
    a.jobOfferId = b.jobOfferId → a.candidateId = b.candidateId → a = b

/-- The uuids that the calls have drawn are new. -/
def NewIds (d₀ : Db) (s : RunState) : Prop :=
  ∀ i, i < s.ops.length → d₀.applications.get? i = none

/-- The rows differ by the status at most. -/
def Same (a b : JobApplication) : Prop :=
  b = { a with status := b.status }

theorem Same.refl (a : JobApplication) : Same a a := rfl

theorem Same.trans {a b c : JobApplication} (h : Same a b) (h' : Same b c) : Same a c := by
  unfold Same at h h' ⊢
  rw [h'] at *
  rw [h]

theorem same_overwrite (entity reread a : JobApplication) : Same a (entity.overwrite reread a) :=
  rfl

section

variable {db : Db} {w : Write} {id : Id} {a a' : JobApplication}

theorem application?_save (loaded entity reread : JobApplication) :
    (store.apply db (.saveApplication loaded entity reread)).applications.get? id =
      if id = entity.id then (db.applications.get? id).map (entity.overwrite reread)
      else db.applications.get? id :=
  Table.get?_modify (entity.overwrite reread) fun _ => rfl

theorem offer?_save (loaded entity reread : JobOffer) :
    (store.apply db (.saveOffer loaded entity reread)).offers.get? id =
      if id = entity.id then (db.offers.get? id).map (entity.overwrite reread)
      else db.offers.get? id :=
  Table.get?_modify (entity.overwrite reread) fun _ => rfl

/-- Where a row comes from: it was there, it is inserted, or its status is set. -/
theorem application_step (h : (store.apply db w).applications.get? id = some a') :
    db.applications.get? id = some a' ∨ w = .insertApplication a' ∨
      ∃ loaded entity reread a, w = .saveApplication loaded entity reread ∧ entity.id = id ∧
        db.applications.get? id = some a ∧ a' = entity.overwrite reread a := by
  cases w with
  | insertApplication b =>
    rcases Table.get?_eq_some.1 h with ⟨hmem, hid⟩
    rcases Table.mem_insert hmem with hold | rfl
    · exact .inl (Table.get?_eq_some.2 ⟨hold, hid⟩)
    · exact .inr (.inl rfl)
  | saveApplication loaded entity reread =>
    rw [application?_save] at h
    split at h
    · next hid =>
      obtain ⟨a, ha, rfl⟩ := Option.map_eq_some_iff.1 h
      exact .inr (.inr ⟨loaded, entity, reread, a, rfl, hid.symm, ha, rfl⟩)
    · exact .inl h
  | removeProfile profileId =>
    rw [show (store.apply db (.removeProfile profileId)).applications.get? id = _
      from Table.get?_deleteWhere _] at h
    exact .inl (Option.filter_eq_some_iff.1 h).1
  | _ => exact .inl h

/-- A row stays unless its profile is removed. -/
theorem application_kept (h : db.applications.get? id = some a)
    (hw : w ≠ .removeProfile a.candidateProfileId) :
    ∃ a', (store.apply db w).applications.get? id = some a' ∧ Same a a' := by
  cases w with
  | insertApplication b => exact ⟨a, Table.get?_insert_of_some h, .refl a⟩
  | saveApplication loaded entity reread =>
    rw [application?_save]
    split
    · rw [h]
      exact ⟨_, rfl, same_overwrite entity reread a⟩
    · exact ⟨a, h, .refl a⟩
  | removeProfile profileId =>
    have hne : a.candidateProfileId ≠ profileId := by
      rintro rfl
      exact hw rfl
    refine ⟨a, ?_, .refl a⟩
    rw [show (store.apply db (.removeProfile profileId)).applications.get? id = _
      from Table.get?_deleteWhere _, h]
    simp [hne]
  | _ => exact ⟨a, h, .refl a⟩

theorem onePerOffer_apply (h : OnePerOffer db)
    (hw : ∀ a, w = .insertApplication a → ApplicationRepository.violation db a = none) :
    OnePerOffer (store.apply db w) := by
  cases w with
  | insertApplication a =>
    have hfree : ∀ b ∈ db.applications.rows, b.jobOfferId = a.jobOfferId →
        b.candidateId ≠ a.candidateId := by
      have hnone := hw a rfl
      intro b hb hoffer hcandidate
      unfold ApplicationRepository.violation Db.application? at hnone
      split at hnone
      · cases hnone
      · split at hnone
        · cases hnone
        · next hany =>
          rw [Bool.not_eq_true, Option.isSome_eq_false_iff, Option.isNone_iff_eq_none,
            List.find?_eq_none] at hany
          exact hany b hb (by simp [hoffer, hcandidate])
    intro x hx y hy hoffer hcandidate
    rcases Table.mem_insert hx with hx₀ | hx₀
    · rcases Table.mem_insert hy with hy₀ | rfl
      · exact h x hx₀ y hy₀ hoffer hcandidate
      · exact absurd hcandidate (hfree x hx₀ hoffer)
    · rcases Table.mem_insert hy with hy₀ | hy₀
      · rw [hx₀] at hoffer hcandidate
        exact absurd hcandidate.symm (hfree y hy₀ hoffer.symm)
      · rw [hx₀, hy₀]
  | saveApplication loaded entity reread =>
    intro x hx y hy hoffer hcandidate
    obtain ⟨x, hx₀, rfl⟩ := List.mem_map.1 hx
    obtain ⟨y, hy₀, rfl⟩ := List.mem_map.1 hy
    have hxy : x = y := by
      refine h x hx₀ y hy₀ ?_ ?_
      · split at hoffer <;> split at hoffer <;> exact hoffer
      · split at hcandidate <;> split at hcandidate <;> exact hcandidate
    rw [hxy]
  | removeProfile profileId =>
    intro x hx y hy
    exact h x (List.mem_filter.1 hx).1 y (List.mem_filter.1 hy).1
  | _ => exact h

end

/-! ## Runs -/

section

variable {config : Config} {d₀ : Db} {s : RunState} {i : Nat} {A B L : Log} {id : Id}
  {a b : JobApplication}

theorem at_snoc (L : Log) (i : Nat) (w : Write) :
    d₀.at (L ++ [⟨i, false, [w]⟩]) = store.apply (d₀.at L) w := replay_snoc ..

/-- A write of the log, with its call and what is known of it. -/
theorem published (h : (system config).Reachable d₀ s) {g : Txn.Group Write}
    (hl : L ++ [g] <+: s.log) : ∃ op w, g = ⟨g.call, false, [w]⟩ ∧ s.ops[g.call]? = some op ∧
      Guarantee config d₀ g.call op L w := by
  obtain ⟨op, w, t, hg, hop, ht⟩ := (followed config d₀).published h.within hl
  exact ⟨op, w, hg, hop, ht.promised⟩

/-- The application with the id was there at the start, or call `id` has inserted it. -/
def Born (d₀ : Db) (L : Log) (id : Id) : Prop :=
  (∃ a, d₀.applications.get? id = some a) ∨
    ∃ A a, a.id = id ∧ WrittenAt L A id (.insertApplication a)

theorem Born.mono {L' : Log} (h : Born d₀ L id) (hl : L <+: L') : Born d₀ L' id := by
  rcases h with h | ⟨A, a, hid, hw⟩
  · exact .inl h
  · exact .inr ⟨A, a, hid, hw.mono hl⟩

theorem born (h : (system config).Reachable d₀ s) (hL : L <+: s.log)
    (ha : (d₀.at L).applications.get? id = some a) : Born d₀ L id := by
  refine along_log (L := s.log) (I := fun L => ∀ a, (d₀.at L).applications.get? id = some a →
    Born d₀ L id) (fun a ha => .inl ⟨a, ha⟩) (fun l g hl ih a ha => ?_) L hL a ha
  obtain ⟨op, w, hg, -, hguar⟩ := published h hl
  rw [hg, at_snoc] at ha
  have hmono : l <+: l ++ [g] := List.prefix_append _ _
  rcases application_step ha with hold | rfl | ⟨_, _, _, a₀, -, -, hold, -⟩
  · exact (ih a hold).mono hmono
  · obtain ⟨-, hid, -⟩ := hguar
    have hkey := Table.key_of_get? ha
    refine .inr ⟨l, a, hkey, ?_⟩
    rw [hg, ← hid, hkey]
    exact writtenAt_self _ _ _
  · exact (ih a₀ hold).mono hmono

/-- An id that a call inserts has not been used. -/
theorem not_born (h : (system config).Reachable d₀ s) (hnew : NewIds d₀ s)
    (hw : WrittenAt s.log L i (.insertApplication a)) : ¬ Born d₀ L a.id := by
  obtain ⟨op, w, hg, hop, hguar⟩ := published h hw
  cases hg
  obtain ⟨-, hid, hsilent, -⟩ := hguar
  rw [hid]
  rintro (⟨b, hb⟩ | ⟨A, b, -, hA⟩)
  · rw [hnew i (List.getElem?_eq_some_iff.1 hop).1] at hb
    cases hb
  · exact hsilent _ (hA.subset (List.mem_append_right _ (List.mem_singleton_self _))) rfl

/-- Of an application that is there at two moments only the status may have changed. -/
theorem same_later (h : (system config).Reachable d₀ s) (hnew : NewIds d₀ s) (hAB : A <+: B)
    (hB : B <+: s.log) (ha : (d₀.at A).applications.get? id = some a)
    (hb : (d₀.at B).applications.get? id = some b) : Same a b := by
  refine along_log_from (I := fun L => ∀ b, (d₀.at L).applications.get? id = some b → Same a b)
    (A := A) (L := s.log) (fun b hb => ?_) (fun l g hAl hl ih b hb => ?_) B hAB hB b hb
  · rw [ha] at hb
    cases hb
    exact .refl a
  · obtain ⟨op, w, hg, -, -⟩ := published h hl
    rw [hg, at_snoc] at hb
    rcases application_step hb with hold | rfl | ⟨_, entity, reread, b₀, -, -, hold, rfl⟩
    · exact ih b hold
    · -- the id is used already
      have hid := Table.key_of_get? hb
      have hborn : Born d₀ l b.id := by
        rw [show b.id = id from hid]
        exact (born h (hAl.trans ((List.prefix_append _ _).trans hl)) ha).mono hAl
      rw [hg] at hl
      exact absurd hborn (not_born h hnew hl)
    · exact (ih b₀ hold).trans (same_overwrite entity reread b₀)

/-- An application stays until its profile is removed. -/
theorem stays (h : (system config).Reachable d₀ s) (hAB : A <+: B) (hB : B <+: s.log)
    (ha : (d₀.at A).applications.get? id = some a) :
    (∃ b, (d₀.at B).applications.get? id = some b ∧ Same a b) ∨
      ∃ C j, A <+: C ∧ WrittenAt B C j (.removeProfile a.candidateProfileId) := by
  refine along_log_from (I := fun L => (∃ b, (d₀.at L).applications.get? id = some b ∧ Same a b) ∨
      ∃ C j, A <+: C ∧ WrittenAt L C j (.removeProfile a.candidateProfileId))
    (L := s.log) (.inl ⟨a, ha, .refl a⟩) (fun l g hAl hl ih => ?_) B hAB hB
  rcases ih with ⟨b, hb, hsame⟩ | ⟨C, j, hC, hw⟩
  · obtain ⟨op, w, hg, -, -⟩ := published h hl
    have hprofile : b.candidateProfileId = a.candidateProfileId := by rw [hsame]
    by_cases hw : w = .removeProfile b.candidateProfileId
    · refine .inr ⟨l, g.call, hAl, ?_⟩
      rw [hg, hw, hprofile]
      exact writtenAt_self _ _ _
    · obtain ⟨b', hb', hsame'⟩ := application_kept hb hw
      refine .inl ⟨b', ?_, hsame.trans hsame'⟩
      rw [hg, at_snoc]
      exact hb'
  · exact .inr ⟨C, j, hC, hw.mono (List.prefix_append _ _)⟩

theorem onePerOffer (h : (system config).Reachable d₀ s) (h₀ : OnePerOffer d₀) (hL : L <+: s.log) :
    OnePerOffer (d₀.at L) := by
  refine along_log (L := s.log) (I := fun L => OnePerOffer (d₀.at L)) h₀ (fun l g hl ih => ?_) L hL
  obtain ⟨op, w, hg, -, hguar⟩ := published h hl
  rw [hg, at_snoc]
  refine onePerOffer_apply ih ?_
  rintro a rfl
  exact hguar.2.2.2.2.2.2

/-! ## Offers stay -/

/-- What no call changes of an offer. -/
structure SameOffer (o o' : JobOffer) : Prop where
  companyId : o'.companyId = o.companyId
  createdBy : o'.createdBy = o.createdBy
  createdAt : o'.createdAt = o.createdAt

theorem offer_kept {db : Db} {o : JobOffer} (ho : db.offers.get? id = some o) (w : Write) :
    ∃ o', (store.apply db w).offers.get? id = some o' ∧ SameOffer o o' := by
  cases w with
  | insertOffer o' => exact ⟨o, Table.get?_insert_of_some ho, rfl, rfl, rfl⟩
  | saveOffer loaded entity reread =>
    rw [offer?_save]
    split
    · rw [ho]
      exact ⟨_, rfl, rfl, rfl, rfl⟩
    · exact ⟨o, ho, rfl, rfl, rfl⟩
  | _ => exact ⟨o, ho, rfl, rfl, rfl⟩

theorem offer_later {o : JobOffer} (hAB : A <+: B) (ho : (d₀.at A).offers.get? id = some o) :
    ∃ o', (d₀.at B).offers.get? id = some o' ∧ SameOffer o o' := by
  refine replay_keeps (S := store)
    (P := fun db => ∃ o', db.offers.get? id = some o' ∧ SameOffer o o') ?_ hAB
    ⟨o, ho, rfl, rfl, rfl⟩
  rintro db w ⟨o', ho', hsame⟩
  obtain ⟨o'', ho'', hsame'⟩ := offer_kept ho' w
  exact ⟨o'', ho'', hsame'.companyId.trans hsame.companyId, hsame'.createdBy.trans hsame.createdBy,
    hsame'.createdAt.trans hsame.createdAt⟩

/-! ## Acknowledged applications -/

/-- The row is there once it is inserted. -/
theorem inserted (h : (system config).Reachable d₀ s)
    (hw : WrittenAt s.log A i (.insertApplication a)) :
    (d₀.at (A ++ [⟨i, false, [.insertApplication a]⟩])).applications.get? a.id = some a := by
  obtain ⟨op, w, hg, -, hguar⟩ := published h hw
  cases hg
  rw [at_snoc]
  obtain ⟨-, -, -, -, -, -, hnone⟩ := hguar
  refine Table.get?_insert_self ?_
  unfold ApplicationRepository.violation at hnone
  split at hnone
  · cases hnone
  · next hfree => simpa using hfree

theorem applications_sound (h : (system config).Reachable d₀ s) (h₀ : OnePerOffer d₀) :
    (∀ {A i a}, WrittenAt s.log A i (.insertApplication a) →
      s.ops[i]? = some (.apply a.candidateId a.jobOfferId a.coverLetter) ∧ a.status = .applied ∧
        SeenPublished d₀ A a.jobOfferId ∧
        SeenEligible d₀ A a.candidateId a.candidateProfileId) ∧
    (∀ L, L <+: s.log → OnePerOffer (d₀.at L)) ∧
    ∀ {i candidateId offerId coverLetter a},
      s.ops[i]? = some (.apply candidateId offerId coverLetter) →
      s.call i = .done (.ok (.application a)) →
      a.candidateId = candidateId ∧ a.jobOfferId = offerId ∧ a.coverLetter = coverLetter ∧
        ((∃ b, s.db.applications.get? a.id = some b ∧ Same a b) ∨
          ∃ C j, WrittenAt s.log C j (.removeProfile a.candidateProfileId)) := by
  refine ⟨fun hw => ?_, fun L hL => onePerOffer h h₀ hL, fun hop hdone => ?_⟩
  · obtain ⟨op, w, hg, hop, hguar⟩ := published h hw
    cases hg
    obtain ⟨rfl, -, -, hstatus, hpublished, heligible, -⟩ := hguar
    exact ⟨hop, hstatus, hpublished, heligible⟩
  · obtain ⟨A, hA⟩ : ∃ A, WrittenAt s.log A _ (.insertApplication _) :=
      (followed config d₀).done h.within hop hdone
    obtain ⟨op, w, hg, hop', hguar⟩ := published h hA
    cases hg
    rw [hop] at hop'
    cases hop'
    have hcall := hguar.1
    simp only [Op.apply.injEq] at hcall
    refine ⟨hcall.1.symm, hcall.2.1.symm, hcall.2.2.symm, ?_⟩
    rw [(followed config d₀).db h.within]
    rcases stays h hA List.prefix_rfl (inserted h hA) with hrow | ⟨C, j, -, hw⟩
    · exact .inl hrow
    · exact .inr ⟨C, j, hw⟩

/-! ## The workflow -/

/-- Call `j` of a recruiter who acts for the company of the offer has set the status. -/
def SetByCompany (config : Config) (d₀ : Db) (s : RunState) (C : Log) (j : Nat)
    (a : JobApplication) (status : ApplicationStatus) : Prop :=
  ∃ userId o, s.ops[j]? = some (.updateApplicationStatus userId a.id status) ∧
    (d₀.at C).offers.get? a.jobOfferId = some o ∧ ActsFor config d₀ C userId o.companyId

/-- What a save makes of the row. -/
theorem saved_status (h : (system config).Reachable d₀ s) (hnew : NewIds d₀ s)
    {loaded entity reread : JobApplication}
    (hw : WrittenAt s.log A i (.saveApplication loaded entity reread))
    (ha : (d₀.at A).applications.get? entity.id = some a) :
    (entity.overwrite reread a).status = entity.status ∧
      SetByCompany config d₀ s A i a entity.status := by
  obtain ⟨op, w, hg, hop, hguar⟩ := published h hw
  cases hg
  obtain ⟨userId, companyId, rfl, hentity, -, hne, hacts, ⟨C, hC, hload⟩, -⟩ := hguar
  refine ⟨by simp [JobApplication.overwrite, setColumn, hne], userId, ?_⟩
  obtain ⟨hloaded, hscope⟩ := Option.filter_eq_some_iff.1 hload
  have hid : entity.id = loaded.id := by rw [hentity]
  rw [hid] at ha
  have hsame := same_later h hnew hC hw.onto hloaded ha
  have hoffer : a.jobOfferId = loaded.jobOfferId := by rw [hsame]
  have haid := Table.key_of_get? ha
  obtain ⟨o, ho, hcompany⟩ := (Option.any_eq_true _ _).1 hscope
  obtain ⟨o', ho', hsameOffer⟩ := offer_later hC ho
  have hacts' : ActsFor config d₀ A userId o'.companyId := by
    rw [hsameOffer.companyId, of_decide_eq_true hcompany]
    exact hacts
  refine ⟨o', ?_, hoffer ▸ ho', hacts'⟩
  rw [show a.id = loaded.id from haid]
  exact hop

/-- Between two moments only the status of an application changes, and only to what a call of a
recruiter of the company of the offer has set meanwhile. -/
theorem application_trail (h : (system config).Reachable d₀ s) (hnew : NewIds d₀ s) (hAB : A <+: B)
    (hB : B <+: s.log) (ha : (d₀.at A).applications.get? id = some a)
    (hb : (d₀.at B).applications.get? id = some b) :
    Same a b ∧ (b.status = a.status ∨ ∃ C j entity reread loaded, A <+: C ∧
      WrittenAt B C j (.saveApplication loaded entity reread) ∧
        SetByCompany config d₀ s C j a b.status) := by
  refine ⟨same_later h hnew hAB hB ha hb, ?_⟩
  refine along_log_from (L := s.log) (A := A)
    (I := fun L => ∀ b, (d₀.at L).applications.get? id = some b →
      b.status = a.status ∨ ∃ C j entity reread loaded, A <+: C ∧
        WrittenAt L C j (.saveApplication loaded entity reread) ∧
          SetByCompany config d₀ s C j a b.status)
    (fun b hb => ?_) (fun l g hAl hl ih b hb => ?_) B hAB hB b hb
  · rw [ha] at hb
    cases hb
    exact .inl rfl
  · have hmono : l <+: l ++ [g] := List.prefix_append _ _
    have hsame := same_later h hnew (hAl.trans hmono) hl ha hb
    obtain ⟨op, w, hg, -, -⟩ := published h hl
    rw [hg, at_snoc] at hb
    rw [hg] at hl
    rcases application_step hb with hold | rfl | ⟨loaded, entity, reread, b₀, rfl, rfl, hold, rfl⟩
    · refine (ih b hold).imp_right ?_
      rintro ⟨C, j, entity, reread, loaded, hC, hw, hset⟩
      exact ⟨C, j, entity, reread, loaded, hC, hw.mono hmono, hset⟩
    · have hid := Table.key_of_get? hb
      have hborn : Born d₀ l b.id := by
        rw [show b.id = id from hid]
        exact (born h (hAl.trans (hmono.trans (hg ▸ hl))) ha).mono hAl
      exact absurd hborn (not_born h hnew hl)
    · obtain ⟨hstatus, userId, o, hop, ho, hacts⟩ := saved_status h hnew hl hold
      have hsame₀ := same_later h hnew hAl (hmono.trans (hg ▸ hl)) ha hold
      refine .inr ⟨l, g.call, entity, reread, loaded, hAl, ?_, userId, o, ?_, ?_, hacts⟩
      · rw [hg]
        exact writtenAt_self _ _ _
      · rw [hstatus, show a.id = b₀.id by rw [hsame₀]]
        exact hop
      · rw [show a.jobOfferId = b₀.jobOfferId by rw [hsame₀]]
        exact ho

/-! ## What a recruiter is shown -/

/-- The candidate has made the application, unless it was there at the start. -/
def MadeByCandidate (d₀ : Db) (s : RunState) (a : JobApplication) : Prop :=
  (∃ a₀, d₀.applications.get? a.id = some a₀ ∧ Same a₀ a) ∨
    s.ops[a.id]? = some (.apply a.candidateId a.jobOfferId a.coverLetter) ∧
      ∃ A, SeenEligible d₀ A a.candidateId a.candidateProfileId

theorem made_by_candidate (h : (system config).Reachable d₀ s) (hnew : NewIds d₀ s)
    (hL : L <+: s.log) (ha : (d₀.at L).applications.get? id = some a) :
    MadeByCandidate d₀ s a := by
  have hid := Table.key_of_get? ha
  rcases born h hL ha with ⟨a₀, ha₀⟩ | ⟨A, a₀, hid₀, hA⟩
  · refine .inl ⟨a₀, ?_, same_later h hnew List.nil_prefix hL ha₀ ha⟩
    rw [show a.id = id from hid]
    exact ha₀
  · have hw : WrittenAt s.log A id (.insertApplication a₀) := hA.mono hL
    have hthere := inserted h hw
    rw [hid₀] at hthere
    have hsame := same_later h hnew hA hL hthere ha
    obtain ⟨op, w, hg, hop, hguar⟩ := published h hw
    cases hg
    obtain ⟨rfl, -, -, -, -, heligible, -⟩ := hguar
    have hcandidate : a.candidateId = a₀.candidateId := by rw [hsame]
    have hoffer : a.jobOfferId = a₀.jobOfferId := by rw [hsame]
    have hcover : a.coverLetter = a₀.coverLetter := by rw [hsame]
    have hprofile : a.candidateProfileId = a₀.candidateProfileId := by rw [hsame]
    refine .inr ⟨?_, A, ?_⟩
    · rw [show a.id = id from hid, hcandidate, hoffer, hcover]
      exact hop
    · rw [hcandidate, hprofile]
      exact heligible

/-- What `applicationsFor` has answered: the applications to the offer at one moment, all of them,
to a user who acts for the company of the offer; and each was made by its candidate. -/
theorem revealed_by_applying (h : (system config).Reachable d₀ s) (hnew : NewIds d₀ s)
    {userId offerId : Id} {vs : List RecruiterApplicationView}
    (hop : s.ops[i]? = some (.applicationsFor userId offerId))
    (hdone : s.call i = .done (.ok (.views vs))) :
    ∃ B o, B <+: s.log ∧ (d₀.at B).offers.get? offerId = some o ∧
      ActsFor config d₀ s.log userId o.companyId ∧
      (∀ v, v ∈ vs ↔ ∃ a ∈ (d₀.at B).applications.rows, a.jobOfferId = offerId ∧
        v = ApplicationsService.recruiterView (d₀.at B) a) ∧
      ∀ a ∈ (d₀.at B).applications.rows, a.jobOfferId = offerId → MadeByCandidate d₀ s a := by
  obtain ⟨companyId, hacts, A, B, hA, hB, ⟨o, ho, rfl⟩, rfl⟩ :=
    (followed config d₀).done h.within hop hdone
  obtain ⟨o', ho', hsame⟩ := offer_later hA ho
  refine ⟨B, o', hB, ho', hsame.companyId ▸ hacts, fun v => ?_, fun a ha hoffer => ?_⟩
  · unfold ApplicationsService.newestFirst
    simp only [List.mem_map, List.mem_insertionSort, List.mem_filter, decide_eq_true_eq]
    constructor
    · rintro ⟨a, ⟨ha, hoffer⟩, rfl⟩
      exact ⟨a, ha, hoffer, rfl⟩
    · rintro ⟨a, ha, hoffer, rfl⟩
      exact ⟨a, ⟨ha, hoffer⟩, rfl⟩
  · exact made_by_candidate h hnew hB (Table.get?_of_mem ha)

end

/-! ## A run -/

/-- Candidate 7 applies, and the recruiter shortlists the application and lists them. -/
def shortlisting : List (Label Error Op) :=
  .spawn (.apply 7 10 (some "Bonjour")) :: steps 0 6 ++
    .spawn (.updateApplicationStatus 5 0 .shortlisted) :: steps 1 9 ++
    .spawn (.applicationsFor 5 10) :: steps 2 8

/-- The application after its insertion. -/
def applied : JobApplication := ⟨⟨0, 10, .applied, 0⟩, 7, 7, some "Bonjour"⟩

theorem shortlisting_run : ∃ s : RunState, (system .default).Reachable board s ∧
    s.ops[0]? = some (.apply 7 10 (some "Bonjour")) ∧
    s.call 0 = .done (.ok (.application applied)) ∧
    s.ops[2]? = some (.applicationsFor 5 10) ∧
    s.call 2 = .done (.ok (.views [⟨0, .shortlisted, some "Bonjour", 0, 7, some "Salma",
      some "Alami", none⟩])) ∧
    (board.at (s.log.take 1)).applications.get? 0 = some applied ∧
    (board.at s.log).applications.get? 0 = some { applied with status := .shortlisted } := by
  have hrun : (((system .default).runLabels .all (State.init board) shortlisting).map fun s =>
      (s.ops[0]?, s.call 0, s.ops[2]?, s.call 2,
        (board.at (s.log.take 1)).applications.get? 0,
        (board.at s.log).applications.get? 0)) =
      some (some (.apply 7 10 (some "Bonjour")), .done (.ok (.application applied)),
        some (.applicationsFor 5 10),
        .done (.ok (.views [⟨0, .shortlisted, some "Bonjour", 0, 7, some "Salma", some "Alami",
          none⟩])),
        some applied, some { applied with status := .shortlisted }) := by rfl
  obtain ⟨s, hs, he⟩ := System.reach_of_run hrun
  simp only [Prod.mk.injEq] at he
  exact ⟨s, hs, he⟩

theorem applications_sound_board : ∃ s : RunState, (system .default).Reachable board s ∧
    OnePerOffer (board.at s.log) ∧
    ((∃ b, s.db.applications.get? 0 = some b ∧ Same applied b) ∨
      ∃ C j, WrittenAt s.log C j (.removeProfile 7)) := by
  obtain ⟨s, hs, hop, hdone, -⟩ := shortlisting_run
  have hempty : OnePerOffer board := by
    intro a ha
    cases ha
  obtain ⟨-, hone, hack⟩ := applications_sound hs hempty
  exact ⟨s, hs, hone s.log List.prefix_rfl, (hack hop hdone).2.2.2⟩

theorem application_trail_board : ∃ (s : RunState) (C : Log) (j : Nat),
    (system .default).Reachable board s ∧
      SetByCompany .default board s C j applied .shortlisted := by
  obtain ⟨s, hs, -, -, -, -, ha, hb⟩ := shortlisting_run
  obtain ⟨-, hstatus⟩ := application_trail hs (fun _ _ => rfl) (List.take_prefix 1 s.log)
    List.prefix_rfl ha hb
  rcases hstatus with hsame | ⟨C, j, -, -, -, -, -, hset⟩
  · cases hsame
  · exact ⟨s, C, j, hs, hset⟩

theorem revealed_by_applying_board : ∃ (s : RunState) (B : Log) (o : JobOffer),
    B <+: s.log ∧ (board.at B).offers.get? 10 = some o ∧
      ActsFor .default board s.log 5 o.companyId ∧
      ∀ a ∈ (board.at B).applications.rows, a.jobOfferId = 10 → MadeByCandidate board s a := by
  obtain ⟨s, hs, -, -, hop, hdone, -⟩ := shortlisting_run
  obtain ⟨B, o, hB, ho, hacts, -, hmade⟩ := revealed_by_applying hs (fun _ _ => rfl) hop hdone
  exact ⟨s, B, o, hB, ho, hacts, hmade⟩

end JobBoard.Jobs
