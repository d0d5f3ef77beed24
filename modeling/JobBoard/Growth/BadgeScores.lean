import JobBoard.Growth.Badges

/-!
# The scores of the badges

Which scores the public page shows and `enable` selects, next to the scores that the search
counts. The two agree in a run whose steps are `prudent`: `enable` reads while no score that is not
counted is as high as all the counted ones, and time does not pass the expiry date of a score on an
enabled badge.
-/

set_option autoImplicit false

namespace JobBoard.Growth.Badges

open Txn Prog Assessments

/-! ## Scores that count -/

/-- Besides its expiry date, the score counts for the user. -/
def Valid (db : Cvtheque.Db) (userId : Id) (score : Score) : Prop :=
  score ∈ db.scores.rows ∧ score.plagiarismVerdict ≠ .confirmed ∧
    ∃ a, db.assessments.get? score.assessmentId = some a ∧ a.status = .completed ∧
      a.candidateId = userId

theorem mem_countedScores {db : Cvtheque.Db} {userId : Id} {score : Score} :
    score ∈ Cvtheque.SearchService.countedScores db userId ↔
      Valid db userId score ∧ db.now < score.expiresAt := by
  unfold Cvtheque.SearchService.countedScores Valid
  rw [List.mem_filter]
  cases db.assessments.get? score.assessmentId with
  | none => simp
  | some a =>
    simp only [Bool.and_eq_true, decide_eq_true_eq, ne_eq, Option.some.injEq, exists_eq_left']
    tauto

/-- The write takes no attempt out of COMPLETED. -/
def Completes (w : Cvtheque.Write) : Prop :=
  ∀ entity reread, w = .saveAssessment entity reread → entity.status = .completed

theorem Valid.apply {db : Cvtheque.Db} {userId : Id} {score : Score} {w : Cvtheque.Write}
    (hw : Completes w) (h : Valid db userId score) : Valid (w.apply db) userId score := by
  obtain ⟨hmem, hverdict, a, ha, hstatus, huser⟩ := h
  cases w with
  | insertScore s => exact ⟨Table.mem_insert_of_mem hmem, hverdict, a, ha, hstatus, huser⟩
  | saveAssessment entity reread =>
    have hget : (db.assessments.modify entity.id (entity.overwrite reread) fun _ => rfl).get?
        score.assessmentId = if score.assessmentId = entity.id then
          (db.assessments.get? score.assessmentId).map (entity.overwrite reread)
        else db.assessments.get? score.assessmentId := Table.get?_modify _ _
    rw [ha] at hget
    split at hget
    · refine ⟨hmem, hverdict, entity.overwrite reread a, hget, ?_, huser⟩
      have hset := setColumn_eq entity.status reread.status a.status
      rw [hw entity reread rfl, hstatus] at hset
      show setColumn entity.status reread.status a.status = .completed
      rw [hw entity reread rfl, hstatus]
      rcases hset with h | ⟨h, -⟩ <;> exact h
    · exact ⟨hmem, hverdict, a, hget, hstatus, huser⟩
  | _ => exact ⟨hmem, hverdict, a, ha, hstatus, huser⟩

/-! ## Selections -/

/-- Each score of the user that does not count is lower than one that does. -/
def Outdone (db : Db) (userId : Id) : Prop :=
  ∀ score ∈ ScoreBadgeService.scoresOf db userId,
    score ∉ Cvtheque.SearchService.countedScores db.cvtheque userId →
      ∃ better ∈ Cvtheque.SearchService.countedScores db.cvtheque userId,
        score.value < better.value

theorem counted_subset {db : Db} {userId : Id} {score : Score}
    (h : score ∈ Cvtheque.SearchService.countedScores db.cvtheque userId) :
    score ∈ ScoreBadgeService.scoresOf db userId := by
  obtain ⟨⟨hmem, -, a, ha, -, huser⟩, -⟩ := mem_countedScores.1 h
  refine List.mem_filter.2 ⟨hmem, ?_⟩
  rw [ha, Option.any_some, decide_eq_true huser]

/-- The score counts, and is the best that the CVthèque shows. -/
def Agrees (db : Db) (userId : Id) (score : Score) : Prop :=
  score ∈ Cvtheque.SearchService.countedScores db.cvtheque userId ∧
    ∀ p : Cvtheque.CandidateProfile, p.userId = userId →
      (Cvtheque.SearchService.joinRow db.cvtheque p).bestScoreValue = some score.value

theorem findBestScore_spec {env : Environment} {db : Db} {userId : Id} {score : Score}
    (h : ScoreBadgeService.findBestScore env db userId = some score) :
    score ∈ ScoreBadgeService.scoresOf db userId ∧
      ∀ other ∈ ScoreBadgeService.scoresOf db userId, other.value ≤ score.value := by
  have hperm := env.order_perm db (ScoreBadgeService.scoresOf db userId)
  refine ⟨hperm.mem_iff.1 (List.argmax_mem h), fun other hother => ?_⟩
  exact List.le_of_mem_argmax (hperm.mem_iff.2 hother) h

theorem agrees_of_counted {env : Environment} {db : Db} {userId : Id} {score : Score}
    (h : ScoreBadgeService.findBestScore env db userId = some score)
    (hc : score ∈ Cvtheque.SearchService.countedScores db.cvtheque userId) :
    Agrees db userId score := by
  refine ⟨hc, ?_⟩
  rintro p rfl
  refine List.max?_eq_some_iff.2 ⟨List.mem_map.2 ⟨score, hc, rfl⟩, ?_⟩
  intro v hv
  obtain ⟨other, hother, rfl⟩ := List.mem_map.1 hv
  exact (findBestScore_spec h).2 other (counted_subset hother)

/-- In whatever order equal scores come, `findBestScore` agrees with the search exactly when
the scores that do not count are outdone. -/
theorem findBestScore_agrees_iff (createdAt : Score → Time) {db : Db} {userId : Id} :
    (∀ order order_perm score,
      ScoreBadgeService.findBestScore ⟨order, order_perm, createdAt⟩ db userId = some score →
        Agrees db userId score) ↔ Outdone db userId := by
  constructor
  · intro h score hscore hnot
    by_contra hlow
    -- the scores that do not count come first
    let counted (score : Score) : Bool :=
      decide (score ∈ Cvtheque.SearchService.countedScores db.cvtheque userId)
    let order (scores : List Score) : List Score :=
      scores.filter (fun score => !counted score) ++ scores.filter counted
    have order_perm : ∀ scores, (order scores).Perm scores := fun scores =>
      List.perm_append_comm.trans (List.filter_append_perm counted scores)
    have hne : ScoreBadgeService.scoresOf db userId ≠ [] := List.ne_nil_of_mem hscore
    cases hbest : (order (ScoreBadgeService.scoresOf db userId)).argmax (·.value) with
    | none =>
      rw [List.argmax_eq_none] at hbest
      exact hne (List.Perm.nil_eq (hbest ▸ order_perm _)).symm
    | some best =>
      obtain ⟨hc, -⟩ := h (fun _ => order) (fun _ => order_perm) best hbest
      have hmem : score ∈ order (ScoreBadgeService.scoresOf db userId) :=
        (order_perm _).mem_iff.2 hscore
      have hle : best.value ≤ score.value := by
        by_contra hgt
        exact hlow ⟨best, hc, by omega⟩
      have hidx := List.index_of_argmax hbest hmem hle
      have hfirst : score ∈ (ScoreBadgeService.scoresOf db userId).filter
          fun score => !counted score := List.mem_filter.2 ⟨hscore, by simp [counted, hnot]⟩
      have hlast : best ∉ (ScoreBadgeService.scoresOf db userId).filter
          fun score => !counted score := fun hb => by
        have := (List.mem_filter.1 hb).2
        simp [counted, hc] at this
      rw [List.idxOf_append_of_mem hfirst, List.idxOf_append_of_notMem hlast] at hidx
      have := List.idxOf_lt_length_of_mem hfirst
      omega
  · intro h order order_perm score hbest
    refine agrees_of_counted hbest ?_
    by_contra hnot
    obtain ⟨hmem, hmax⟩ := findBestScore_spec hbest
    obtain ⟨better, hbetter, hlt⟩ := h score hmem hnot
    exact absurd (hmax better (counted_subset hbetter)) (by omega)

/-! ## What the calls publish -/

section

variable (env : Environment) (d₀ : Db)

/-- What is known of a write of call `i` at the log `L`. -/
def Guarantee (i : Nat) (L : Log) : Write → Prop
  | .cvtheque w => Completes w
  | .selected userId score =>
    ScoreBadgeService.findBestScore env (d₀.at L) userId = some score
  | .insertBadge b => ∃ A score, WrittenAt L A i (.selected b.userId score) ∧ b.scoreId = score.id
  | .saveBadge entity _ => ∃ A loaded, A <+: L ∧ loaded ∈ (d₀.at A).badges.rows ∧
      entity.id = loaded.id ∧ entity.userId = loaded.userId ∧
      (entity.scoreId = loaded.scoreId ∨ ∃ B score,
        WrittenAt L B i (.selected entity.userId score) ∧ entity.scoreId = score.id)

end

section

variable {env : Environment} {d₀ : Db} {i : Nat} {L : Log}

abbrev Keeps {α : Type} (env : Environment) (d₀ : Db) (i : Nat) (p : M α) (Q : Log → α → Prop)
    (L : Log) : Prop :=
  p.Promises store d₀ i (Guarantee env d₀ i) (fun e => isFault e = true) Q L

/-- What a method of the CVthèque writes completes attempts only. -/
abbrev CompletesOnly {α : Type} (p : Cvtheque.M α) : Prop :=
  p.Plain (fun ws => ws = [] ∨ ∃ w, ws = [w] ∧ Completes w)
    (fun ws => ws = [] ∨ ∃ w, ws = [w] ∧ Completes w) fun _ => True

theorem onCvtheque_keeps {α : Type} {p : Cvtheque.M α} (hp : CompletesOnly p) :
    Keeps env d₀ i (onCvtheque p) (fun _ _ => True) L := by
  have hlift : ∀ ws : List Cvtheque.Write, (ws = [] ∨ ∃ w, ws = [w] ∧ Completes w) →
      ws.map Write.cvtheque = [] ∨ ∃ w, ws.map Write.cvtheque = [w] ∧
        ∀ L, Guarantee env d₀ i L w := by
    rintro ws (rfl | ⟨w, rfl, hw⟩)
    · exact .inl rfl
    · exact .inr ⟨_, rfl, fun _ => hw⟩
  exact (hp.zoom hlift hlift).promises.mono fun _ _ _ => trivial

theorem completes_nil : ([] : List Cvtheque.Write) = [] ∨ ∃ w, [] = [w] ∧ Completes w := .inl rfl

theorem applyThresholds_completes (candidateId : Id) :
    CompletesOnly (Cvtheque.IndexationService.applyThresholds candidateId) := by
  unfold Cvtheque.IndexationService.applyThresholds Cvtheque.ProfileRepository.findByUserId
  refine (plain_select completes_nil _).bind fun profile? => ?_
  cases profile? with
  | none => exact plain_ret _
  | some profile =>
    refine (plain_select completes_nil _).bind fun ids => Plain.bind ?_ fun scores => ?_
    · unfold Cvtheque.IndexationService.findValidScores Cvtheque.now
      split
      · exact plain_ret _
      · exact (plain_select completes_nil _).bind fun _ =>
          (plain_select completes_nil _).bind fun _ => plain_ret _
    · refine (plain_select completes_nil _).bind fun thresholds => Plain.bind ?_ fun _ => plain_ret _
      unfold Cvtheque.ProfileRepository.save Cvtheque.ProfileRepository.findById
      refine (plain_select completes_nil _).bind fun reread? => ?_
      cases reread? with
      | none => exact plain_throw trivial
      | some reread =>
        dsimp only
        split
        · refine Plain.bind (plain_write fun _ => .inr ⟨_, rfl, ?_⟩) fun _ => plain_ret _
          rintro _ _ ⟨⟩
        · exact plain_ret _

theorem processResult_completes (uuid assessmentId : Id) (graded : Score) :
    CompletesOnly (Cvtheque.WebhookService.processResult uuid assessmentId graded) := by
  unfold Cvtheque.WebhookService.processResult Cvtheque.WebhookService.finalizeAssessment
    Cvtheque.now
  refine (plain_select completes_nil _).bind fun assessment? => ?_
  cases assessment? with
  | none => exact plain_throw trivial
  | some assessment =>
    refine (plain_select completes_nil _).bind fun existing? => ?_
    cases existing? with
    | some existing => exact plain_ret _
    | none =>
      refine Plain.bind ?_ fun _ => (plain_select completes_nil _).bind fun time =>
        (plain_select completes_nil _).bind fun reread? => ?_
      · refine plain_query completes_nil (fun db r hf => ?_) fun _ _ _ => trivial
        split at hf
        · cases hf
        · cases hf
          exact .inr ⟨_, rfl, by rintro _ _ ⟨⟩⟩
      · cases reread? with
        | none => exact plain_throw trivial
        | some reread =>
          dsimp only
          split
          · exact applyThresholds_completes _
          · refine Plain.bind (plain_write fun _ => .inr ⟨_, rfl, ?_⟩) fun _ =>
              applyThresholds_completes _
            rintro _ _ ⟨⟩
            rfl

/-! ### The service -/

theorem getStatus_keeps (userId : Id) :
    Keeps env d₀ i (ScoreBadgeService.getStatus env userId) (fun _ _ => True) L := by
  unfold ScoreBadgeService.getStatus
  refine promises_bind.2 (promises_select fun L₁ _ => promises_bind.2 (promises_select fun L₂ _ => ?_))
  split
  · trivial
  · exact promises_bind.2 (promises_select fun L₃ _ => trivial)

theorem save_keeps {entity : ScoreBadge}
    (h : ∀ L' reread, L <+: L' → Guarantee env d₀ i L' (.saveBadge entity reread)) :
    Keeps env d₀ i (ScoreBadgeService.save entity) (fun _ _ => True) L := by
  unfold ScoreBadgeService.save
  refine promises_bind.2 (promises_select fun L₁ hr₁ => ?_)
  split
  · trivial
  · split
    · trivial
    · exact promises_write fun L₂ hr₂ => ⟨h _ _ (hr₁.trans hr₂).onto, trivial⟩

theorem enable_keeps (uuid userId : Id) (displayName : Option String) :
    Keeps env d₀ i (ScoreBadgeService.enable env uuid userId displayName) (fun _ _ => True) L := by
  unfold ScoreBadgeService.enable
  refine promises_bind.2 (promises_query fun L₁ ws best? hr₁ hf => ?_)
  cases hbest : ScoreBadgeService.findBestScore env (d₀.at L₁) userId with
  | none =>
    rw [hbest] at hf
    cases hf
    exact .inl ⟨rfl, trivial⟩
  | some best =>
    rw [hbest] at hf
    cases hf
    refine .inr ⟨_, rfl, hbest, ?_⟩
    have hselected : WrittenAt (L₁ ++ [⟨i, false, [.selected userId best]⟩]) L₁ i
      (.selected userId best) := writtenAt_self _ _ _
    generalize L₁ ++ [⟨i, false, [.selected userId best]⟩] = L₂ at hselected ⊢
    refine promises_bind.2 (promises_select fun L₃ hr₃ => ?_)
    cases hbadge : ScoreBadgeService.badgeOf (d₀.at L₃) userId with
    | none =>
      refine promises_bind.2 (promises_query fun L₄ ws u hr₄ hf => ?_)
      split at hf
      · cases hf
      · cases hf
        refine .inr ⟨_, rfl, ⟨_, best, hselected.mono (hr₃.trans hr₄).onto, rfl⟩, ?_⟩
        exact getStatus_keeps userId
    | some badge =>
      have huser : badge.userId = userId := by simpa using List.find?_some hbadge
      refine promises_bind.2 ((save_keeps fun L₄ reread hl => ?_).mono fun _ _ _ =>
        getStatus_keeps userId)
      have hlater : WrittenAt L₄ L₁ i (.selected badge.userId best) :=
        huser ▸ hselected.mono (hr₃.onto.trans hl)
      exact ⟨L₃, badge, hl, List.mem_of_find?_eq_some hbadge, rfl, rfl, .inr ⟨L₁, best, hlater, rfl⟩⟩

theorem disable_keeps (userId : Id) :
    Keeps env d₀ i (ScoreBadgeService.disable env userId) (fun _ _ => True) L := by
  unfold ScoreBadgeService.disable
  refine promises_bind.2 (promises_select fun L₁ _ => ?_)
  cases hbadge : ScoreBadgeService.badgeOf (d₀.at L₁) userId with
  | none => exact getStatus_keeps userId
  | some badge =>
    dsimp only
    split
    · refine promises_bind.2 ((save_keeps fun L₂ reread hl => ?_).mono fun _ _ _ =>
        getStatus_keeps userId)
      exact ⟨L₁, badge, hl, List.mem_of_find?_eq_some hbadge, rfl, rfl, .inl rfl⟩
    · exact getStatus_keeps userId

theorem traced (env : Environment) (d₀ : Db) :
    Traced (system env) d₀ (fun i _ => Guarantee env d₀ i) fun _ _ _ _ => True where
  mono _ _ := trivial
  prog i op L := by
    cases op with
    | clock us =>
      refine promises_bind.2 (promises_write fun L' _ => ⟨?_, trivial⟩)
      rintro _ _ ⟨⟩
    | processResult assessmentId graded =>
      exact promises_bind.2 ((onCvtheque_keeps (processResult_completes i assessmentId graded)).mono
        fun _ _ _ => trivial)
    | enable userId displayName =>
      exact promises_bind.2 ((enable_keeps i userId displayName).mono fun _ _ _ => trivial)
    | disable userId =>
      exact promises_bind.2 ((disable_keeps userId).mono fun _ _ _ => trivial)

end

/-! ## Prudent runs -/

instance (db : Db) (userId : Id) : Decidable (Outdone db userId) :=
  inferInstanceAs (Decidable (∀ score ∈ _, _))

/-- The score of the badge expires after `time`. -/
def unexpired (db : Db) (time : Time) (b : ScoreBadge) : Bool :=
  (db.cvtheque.scores.get? b.scoreId).all fun score => time < score.expiresAt

def prudentWrite (db : Db) : Write → Bool
  | .cvtheque (.tick us) => db.badges.rows.all fun b =>
    !b.enabled || unexpired db (Cvtheque.toDate (db.cvtheque.clock + us)) b
  | .selected userId _ => Outdone db userId
  | .insertBadge b => unexpired db db.cvtheque.now b
  | .saveBadge entity reread => (db.badges.get? entity.id).all fun row =>
    !(entity.overwrite reread row).enabled ||
      unexpired db db.cvtheque.now (entity.overwrite reread row)
  | _ => true

/-- `enable` reads while the scores that do not count are outdone, a badge is saved enabled
before its score has expired, and the score of an enabled badge does not expire. -/
def prudent (s : RunState) : Label Error Op → Bool
  | .step i => (s.issues i).all (prudentWrite s.db)
  | _ => true

section

variable {env : Environment} {d₀ : Db} {s : RunState} {A L : Log} {i : Nat}

/-- The score `scoreId` is valid for the user. -/
def Refers (db : Db) (userId scoreId : Id) : Prop :=
  ∃ score, Valid db.cvtheque userId score ∧ score.id = scoreId

theorem Refers.get? {db : Db} {userId scoreId : Id} (h : Refers db userId scoreId) :
    ∃ score, db.cvtheque.scores.get? scoreId = some score ∧ Valid db.cvtheque userId score := by
  obtain ⟨score, hvalid, rfl⟩ := h
  exact ⟨score, Table.get?_of_mem hvalid.1, hvalid⟩

theorem Refers.apply {db : Db} {w : Write} {userId scoreId : Id}
    (hw : ∀ v, w = .cvtheque v → Completes v) (h : Refers db userId scoreId) :
    Refers (store.apply db w) userId scoreId := by
  obtain ⟨score, hvalid, hid⟩ := h
  cases w with
  | cvtheque v => exact ⟨score, hvalid.apply (hw v rfl), hid⟩
  | _ => exact ⟨score, hvalid, hid⟩

/-- A write of the log, with what is known of it. -/
theorem written (h : (system env).Within (fun s l => prudent s l = true) d₀ s) {g : Txn.Group Write}
    (hl : L ++ [g] <+: s.log) : ∃ w, g = ⟨g.call, false, [w]⟩ ∧
      Guarantee env d₀ g.call L w ∧ prudentWrite (d₀.at L) w = true := by
  obtain ⟨op, w, t, hg, -, ht⟩ := (traced env d₀).published h hl
  refine ⟨w, hg, ht.promised, ?_⟩
  have hok := ht.ok
  simp only [prudent, ht.issues, ht.db, List.all_cons, List.all_nil, Bool.and_true] at hok
  exact hok

theorem at_snoc (L : Log) (i : Nat) (w : Write) :
    d₀.at (L ++ [⟨i, false, [w]⟩]) = store.apply (d₀.at L) w := replay_snoc ..

/-- A score that is valid stays so. -/
theorem refers_later (h : (system env).Within (fun s l => prudent s l = true) d₀ s)
    (hA : A <+: L) (hL : L <+: s.log) {userId scoreId : Id}
    (hr : Refers (d₀.at A) userId scoreId) : Refers (d₀.at L) userId scoreId := by
  refine along_log_from (I := fun L => Refers (d₀.at L) userId scoreId) hr (fun l g _ hl hr => ?_) L
    hA List.prefix_rfl
  obtain ⟨w, hg, hguar, -⟩ := written h (hl.trans hL)
  rw [hg, at_snoc]
  refine hr.apply ?_
  rintro v rfl
  exact hguar

theorem selection_agrees (h : (system env).Within (fun s l => prudent s l = true) d₀ s)
    {userId : Id} {score : Score} (hw : WrittenAt s.log A i (.selected userId score)) :
    Agrees (d₀.at A) userId score := by
  obtain ⟨w, hg, hguar, hok⟩ := written h hw
  cases hg
  have houtdone : Outdone (d₀.at A) userId := of_decide_eq_true hok
  exact (findBestScore_agrees_iff env.createdAt).2 houtdone env.order env.order_perm score hguar

theorem selection_refers (h : (system env).Within (fun s l => prudent s l = true) d₀ s)
    {userId : Id} {score : Score} (hw : WrittenAt L A i (.selected userId score))
    (hL : L <+: s.log) : Refers (d₀.at L) userId score.id := by
  have hvalid := (mem_countedScores.1 (selection_agrees h (hw.mono hL)).1).1
  exact refers_later h hw.onto hL ⟨score, hvalid, rfl⟩

/-- A badge keeps its user. -/
theorem badge_user {b row : ScoreBadge} (hA : A <+: L) (hb : b ∈ (d₀.at A).badges.rows)
    (hrow : (d₀.at L).badges.get? b.id = some row) : row.userId = b.userId := by
  have hkept : ∃ b', (d₀.at L).badges.get? b.id = some b' ∧ b'.userId = b.userId := by
    refine replay_keeps (P := fun db : Db => ∃ b', db.badges.get? b.id = some b' ∧
      b'.userId = b.userId) ?_ hA ⟨b, Table.get?_of_mem hb, rfl⟩
    rintro db w ⟨b', hget, huser⟩
    cases w with
    | insertBadge b₁ => exact ⟨b', Table.get?_insert_of_some hget, huser⟩
    | saveBadge entity reread =>
      have hset : (db.badges.modify entity.id (entity.overwrite reread) fun _ => rfl).get? b.id =
          if b.id = entity.id then (db.badges.get? b.id).map (entity.overwrite reread)
          else db.badges.get? b.id := Table.get?_modify _ _
      rw [hget] at hset
      split at hset
      · exact ⟨_, hset, huser⟩
      · exact ⟨b', hset, huser⟩
    | _ => exact ⟨b', hget, huser⟩
  obtain ⟨b', hget, huser⟩ := hkept
  rw [hrow] at hget
  cases hget
  exact huser

/-- Each badge has a valid score, which has not expired when the badge is enabled. -/
def BadgesCount (db : Db) : Prop :=
  ∀ b ∈ db.badges.rows, Refers db b.userId b.scoreId ∧
    (b.enabled = true → unexpired db db.cvtheque.now b = true)

theorem unexpired_of_score {db : Db} {time : Time} {b : ScoreBadge} {score : Score}
    (hscore : db.cvtheque.scores.get? b.scoreId = some score) :
    unexpired db time b = true ↔ time < score.expiresAt := by
  rw [unexpired, hscore, Option.all_some, decide_eq_true_eq]

/-- A write of the CVthèque keeps the badges, until a score of one expires. -/
theorem BadgesCount.cvtheque {db : Db} {w : Cvtheque.Write} (hw : Completes w)
    (hok : prudentWrite db (.cvtheque w) = true) (h : BadgesCount db) :
    BadgesCount (store.apply db (.cvtheque w)) := by
  intro b hb
  obtain ⟨hrefers, hlive⟩ := h b hb
  refine ⟨hrefers.apply fun v hv => by cases hv; exact hw, fun henabled => ?_⟩
  obtain ⟨score, hscore, hvalid⟩ := hrefers.get?
  have hlater : (w.apply db.cvtheque).scores.get? b.scoreId = some score := by
    rw [← Table.key_of_get? hscore]
    exact Table.get?_of_mem (hvalid.apply hw).1
  rw [unexpired_of_score hlater]
  have hnow := (unexpired_of_score hscore).1 (hlive henabled)
  cases w with
  | tick us =>
    have hall := List.all_eq_true.1 hok b hb
    rw [henabled, Bool.not_true, Bool.false_or] at hall
    exact (unexpired_of_score hscore).1 hall
  | _ => exact hnow

/-- A badge whose columns are those of valid badges. -/
theorem overwrite_refers {db : Db} {entity reread row : ScoreBadge}
    (huser : entity.userId = row.userId) (hentity : Refers db entity.userId entity.scoreId)
    (hrow : Refers db row.userId row.scoreId) :
    Refers db row.userId (entity.overwrite reread row).scoreId := by
  show Refers db row.userId (setColumn entity.scoreId reread.scoreId row.scoreId)
  rcases setColumn_eq entity.scoreId reread.scoreId row.scoreId with heq | ⟨heq, -⟩
  · rw [heq]
    exact hrow
  · rw [heq, ← huser]
    exact hentity

theorem badgesCount_save (h : (system env).Within (fun s l => prudent s l = true) d₀ s)
    {entity reread : ScoreBadge} (hl : L <+: s.log)
    (hguar : Guarantee env d₀ i L (.saveBadge entity reread))
    (hok : prudentWrite (d₀.at L) (.saveBadge entity reread) = true)
    (hcount : ∀ l, l <+: L → BadgesCount (d₀.at l)) :
    BadgesCount (store.apply (d₀.at L) (.saveBadge entity reread)) := by
  obtain ⟨A, loaded, hA, hloaded, hid, huser, hscore⟩ := hguar
  intro b hb
  obtain ⟨row, hrow, rfl⟩ := List.mem_map.1 hb
  obtain ⟨hrefers, hlive⟩ := hcount L List.prefix_rfl row hrow
  split
  · next hkey =>
    have hkey : row.id = entity.id := of_decide_eq_true hkey
    have hget : (d₀.at L).badges.get? entity.id = some row := by
      rw [← hkey]
      exact Table.get?_of_mem hrow
    have hrowUser : row.userId = loaded.userId := badge_user hA hloaded (hid ▸ hget)
    have hentity : Refers (d₀.at L) entity.userId entity.scoreId := by
      rcases hscore with heq | ⟨B, score, hselected, heq⟩
      · rw [huser, heq]
        exact refers_later h hA hl (hcount A hA loaded hloaded).1
      · rw [heq]
        exact selection_refers h hselected hl
    refine ⟨overwrite_refers (huser.trans hrowUser.symm) hentity hrefers, fun henabled => ?_⟩
    simp only [prudentWrite, hget, Option.all_some, henabled, Bool.not_true, Bool.false_or] at hok
    exact hok
  · exact ⟨hrefers, hlive⟩

/-- The badges of a prudent run count. -/
theorem badgesCount (h : (system env).Within (fun s l => prudent s l = true) d₀ s)
    (h₀ : d₀.badges = ∅) : ∀ L, L <+: s.log → BadgesCount (d₀.at L) := by
  have hall : ∀ L, L <+: s.log → ∀ l, l <+: L → BadgesCount (d₀.at l) := by
    refine along_log ?_ fun L g hl hcount => ?_
    · intro l hl b hb
      rw [List.prefix_nil.1 hl] at hb
      have hb : b ∈ d₀.badges.rows := hb
      rw [h₀] at hb
      cases hb
    · intro l hlg
      rcases List.prefix_concat_iff.1 hlg with rfl | hlg
      · obtain ⟨w, hg, hguar, hok⟩ := written h hl
        have hL : L <+: s.log := (List.prefix_append _ _).trans hl
        have hcountL := hcount L List.prefix_rfl
        rw [hg, at_snoc]
        cases w with
        | cvtheque w => exact hcountL.cvtheque hguar hok
        | selected userId score => exact hcountL
        | insertBadge b =>
          obtain ⟨A, score, hselected, hscore⟩ := hguar
          intro b' hb'
          have hcases : b' ∈ (d₀.at L).badges.rows ∨ b' = b := Table.mem_insert hb'
          rcases hcases with hb' | rfl
          · exact hcountL b' hb'
          · exact ⟨hscore ▸ selection_refers h hselected hL, fun _ => hok⟩
        | saveBadge entity reread => exact badgesCount_save h hL hguar hok hcount
      · exact hcount l hlg
  exact fun L hL => hall L hL L List.prefix_rfl

end

/-! ## A badge that outlives its score -/

def sampleEnvironment : Environment where
  order _ scores := scores
  order_perm _ scores := List.Perm.refl scores
  createdAt _ := 0

/-- A score of 80 of candidate 6, which expires at one second. -/
def scoreOfEighty : Score := ⟨2, 1, 8000, none, none, none, "1", "1", .clean, none, [], 1000⟩

def oneScore : Db :=
  { Db.empty with
    cvtheque := { Cvtheque.Db.empty with
      assessments := ⟨[⟨1, 6, 1, none, .completed, none, none, none, none, none, none, none, false,
        0, 0, false, none, 0⟩], by decide⟩
      scores := ⟨[scoreOfEighty], by decide⟩ } }

/-- Candidate 6 enables the badge, and `us` microseconds pass. -/
def enabledThenPassed (us : Nat) : List (Label Error Op) :=
  .spawn (.enable 6 none) :: steps 0 7 ++ .spawn (.clock us) :: steps 1 2

end JobBoard.Growth.Badges
