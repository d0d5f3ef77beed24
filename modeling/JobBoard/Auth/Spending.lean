import JobBoard.Auth.Lineage
import JobBoard.Lib.Trace

/-!
# Who has revoked a token

In every interleaving, a token that was issued in the run and is revoked now was presented to a
rotation, or all tokens of its user were revoked (`revoked_by`); and a call that detects a reuse has
read the token as revoked before it has published anything.
-/

set_option autoImplicit false

namespace JobBoard.Auth

open Txn Prog

/-! ## The conduct -/

/-- Only the row of the token that was presented is saved. -/
def Saves (env : Environment) (d₀ : Db) (op : Op) (L : Log) (ws : List Write) : Prop :=
  ∀ e r, .saveRefreshToken e r ∈ ws → ∃ value, op = .refreshTokens value ∧
    ∃ B, B <+: L ∧ ∃ t, (d₀.at B).tokenByHash (AuthService.hashToken env value) = some t ∧
      t.id = e.id

/-- A rotation that revokes all tokens of a user has read its token as revoked. -/
def Discovers (env : Environment) (d₀ : Db) (op : Op) (L : Log) (ws : List Write) : Prop :=
  ∀ u, .revokeAllUserTokens u ∈ ws → ∀ value, op = .refreshTokens value →
    ∃ l, l <+: L ∧ Spent env d₀ l value

/-- A reuse was read, by a call that had published nothing. -/
def Detects (env : Environment) (d₀ : Db) (i : Nat) (op : Op) (L : Log) (e : AuthError) : Prop :=
  e = .unauthorized AuthService.REUSE_DETECTED none → ∀ value, op = .refreshTokens value →
    ∃ l, l <+: L ∧ (∀ g ∈ l, g.call ≠ i) ∧ Spent env d₀ l value

def spending (env : Environment) (d₀ : Db) : Conduct Write AuthError Result Op where
  rely i _ := ByOthers i
  inv _ := True
  guar _ op L ws := Saves env d₀ op L ws ∧ Discovers env d₀ op L ws
  fails _ _ _ := True
  post _ _ _ _ := True
  err := Detects env d₀

/-! ## The programs -/

abbrev Unsaving (ws : List Write) : Prop := ∀ e r, .saveRefreshToken e r ∉ ws

abbrev Issuing (ws : List Write) : Prop := ∀ w ∈ ws, ∃ t, w = .insertRefreshToken t

/-- The program saves no token. -/
abbrev UnsavingProg {α : Type} (p : M α) : Prop := p.Plain Unsaving Unsaving fun _ => True

section

variable {env : Environment} {d₀ : Db} {i : Nat} {L : Log}

theorem unsaving_nil : Unsaving [] := fun _ _ => List.not_mem_nil

theorem Tokenless.unsaving {ws : List Write} (h : Tokenless ws) : Unsaving ws :=
  fun _ _ hw => h _ hw

theorem unsaving_one {w : Write} (h : ∀ e r, w ≠ .saveRefreshToken e r) : Unsaving [w] :=
  fun e r hw => h e r (List.mem_singleton.1 hw).symm

theorem Issuing.unsaving {ws : List Write} (h : Issuing ws) : Unsaving ws := fun e r hw => by
  obtain ⟨t, ht⟩ := h _ hw
  cases ht

theorem TokenlessProg.unsaving {α : Type} {p : M α} (h : TokenlessProg p) : UnsavingProg p :=
  h.mono (fun _ => Tokenless.unsaving) (fun _ => Tokenless.unsaving) fun _ => id

theorem generateTokens_plain (uuid : Id) (user : User) (mfa : Bool) :
    (AuthService.generateTokens env uuid user mfa).Plain Issuing Issuing
      (· ≠ .unauthorized AuthService.REUSE_DETECTED none) := by
  have hnone : Issuing [] := fun _ h => absurd h List.not_mem_nil
  refine (plain_select hnone _).bind fun now => .bind ?_ fun _ => trivial
  refine plain_query hnone (fun v r hr => ?_) fun v e he => ?_
  · split at hr
    · cases hr
    · cases hr
      exact fun w hw => ⟨_, List.mem_singleton.1 hw⟩
  · split at he
    · cases he
      intro h
      cases h
    · cases he

theorem generateTokens_unsaving (uuid : Id) (user : User) (mfa : Bool) :
    UnsavingProg (AuthService.generateTokens env uuid user mfa) :=
  (generateTokens_plain uuid user mfa).mono (fun _ => Issuing.unsaving) (fun _ => Issuing.unsaving)
    fun _ _ => trivial

theorem revokeAll_unsaving (userId : Id) : UnsavingProg (RefreshTokenRepository.revokeAll userId) :=
  plain_write fun _ => unsaving_one fun _ _ h => by cases h

theorem verifyForLogin_unsaving (user : User) (code : String) :
    UnsavingProg (MfaService.verifyForLogin env user code) := by
  unfold MfaService.verifyForLogin
  split
  · trivial
  refine (plain_select unsaving_nil _).bind fun now => ?_
  refine (plain_ofExcept fun _ _ => trivial).bind fun result => ?_
  split
  · exact (TokenlessProg.unsaving (update_tokenless _ _)).bind fun _ => trivial
  · trivial

theorem login_unsaving (uuid : Id) (dto : LoginDto) :
    UnsavingProg (AuthService.login env uuid dto) := by
  refine (plain_select unsaving_nil _).bind fun found => ?_
  cases found with
  | none => trivial
  | some user =>
    refine (TokenlessProg.unsaving (checkPassword_tokenless _ _ _)).bind fun valid => ?_
    split
    · trivial
    split
    · trivial
    split
    · trivial
    split
    · exact (plain_select unsaving_nil _).bind fun _ => trivial
    · exact (generateTokens_unsaving _ _ _).bind fun _ =>
        (TokenlessProg.unsaving (log_tokenless _)).bind fun _ => trivial

theorem verifyMfaChallenge_unsaving (uuid : Id) (mfaToken : Jwt) (code : String) :
    UnsavingProg (AuthService.verifyMfaChallenge env uuid mfaToken code) := by
  refine (plain_select unsaving_nil _).bind fun now => ?_
  split
  · trivial
  split
  · trivial
  refine (plain_select unsaving_nil _).bind fun found => ?_
  cases found with
  | none => trivial
  | some user =>
    dsimp only
    split
    · trivial
    refine (verifyForLogin_unsaving _ _).bind fun valid => ?_
    split
    · trivial
    · exact (generateTokens_unsaving _ _ _).bind fun _ =>
        (TokenlessProg.unsaving (log_tokenless _)).bind fun _ => trivial

theorem findUserByResetToken_unsaving (token : String) :
    UnsavingProg (AuthService.findUserByResetToken env token) := by
  refine (plain_select unsaving_nil _).bind fun users => ?_
  split
  · trivial
  refine (plain_select unsaving_nil _).bind fun now => ?_
  split <;> trivial

theorem resetPassword_unsaving (uuid : Id) (token newPassword : String) :
    UnsavingProg (AuthService.resetPassword env uuid token newPassword) := by
  refine (findUserByResetToken_unsaving token).bind fun found => ?_
  cases found with
  | none => trivial
  | some user =>
    exact (TokenlessProg.unsaving (update_tokenless _ _)).bind fun _ =>
      (revokeAll_unsaving _).bind fun _ => TokenlessProg.unsaving (log_tokenless _)

/-- What the programs other than rotations do. -/
theorem unsaving_along {op : Op} (hop : ∀ value, op ≠ .refreshTokens value) {p : M Result}
    (hp : UnsavingProg p) : (spending env d₀).holds (system env) d₀ i op L p := by
  refine Prog.Plain.along hp (P := fun _ => True) (fun _ _ _ _ _ => trivial)
    (fun L ws _ _ hws => ?_) (fun L e _ _ _ value hvalue => absurd hvalue (hop value))
    (fun _ _ _ => trivial) trivial
  cases ws with
  | nil => trivial
  | cons w ws =>
    exact ⟨⟨fun e r hw => absurd hw (hws e r), fun u _ value hvalue => absurd hvalue (hop value)⟩,
      trivial⟩

theorem refreshTokens_along {value : String} (hsilent : ∀ g ∈ L, g.call ≠ i) :
    (spending env d₀).holds (system env) d₀ i (.refreshTokens value) L
      (program env i (.refreshTokens value)) := by
  have hfault : ∀ (L : Log) (e : AuthError), isFault e = true →
      Detects env d₀ i (.refreshTokens value) L e := by
    intro L e he hreuse
    rw [hreuse] at he
    cases he
  have hother : ∀ (L : Log) (e : AuthError), e ≠ .unauthorized AuthService.REUSE_DETECTED none →
      Detects env d₀ i (.refreshTokens value) L e := fun L e he hreuse => absurd hreuse he
  refine (along_bind _ _ _ _).2 ((along_bind _ _ _ _).2 ?_)
  refine along_select (fun L' _ _ _ e he => hfault L' e he) fun l hl _ => ?_
  have hl : ByOthers i L l := hl
  have hquiet : ∀ g ∈ l, g.call ≠ i := by
    obtain ⟨gs, rfl, hgs⟩ := hl
    exact fun g hg => (List.mem_append.1 hg).elim (hsilent g) (hgs g)
  cases hparent : (d₀.at l).tokenByHash (AuthService.hashToken env value) with
  | none =>
    simp only [Db.at] at hparent
    simp only [system, hparent, Option.map_none]
    exact hother l _ (by decide)
  | some parent =>
    have hparent' := hparent
    simp only [Db.at] at hparent'
    simp only [system, hparent', Option.map_some]
    split
    · next hrevoked =>
      refine (along_bind _ _ _ _).2 (along_write (fun L' _ _ _ e he => hfault L' e he) ?_)
      intro L' hL' _
      have hl' : l <+: L' ++ [⟨i, false, [.revokeAllUserTokens parent.userId]⟩] :=
        (ByOthers.onto hL').trans (List.prefix_append _ _)
      have hspent : Spent env d₀ l value := ⟨parent, hparent, hrevoked⟩
      refine ⟨⟨fun e r hw => ?_, fun u _ value' hvalue' => ⟨l, ByOthers.onto hL', ?_⟩⟩,
        fun _ value' hvalue' => ⟨l, hl', hquiet, ?_⟩⟩
      · cases List.mem_singleton.1 hw
      · cases hvalue'
        exact hspent
      · cases hvalue'
        exact hspent
    · refine (along_bind _ _ _ _).2 (along_select (fun L' _ _ _ e he => hfault L' e he) ?_)
      intro l₁ hl₁ _
      have hl₁ : l <+: l₁ := ByOthers.onto hl₁
      split
      · exact hother l₁ _ (by decide)
      split
      · exact hother l₁ _ fun h => by cases h
      next user _ =>
      refine (along_bind _ _ _ _).2 (Prog.Plain.along (generateTokens_plain i user _)
        (P := fun L' => l <+: L') (fun _ _ h hr _ => h.trans (ByOthers.onto hr))
        (fun L' ws h _ hws => ?_) (fun L' e _ he => ?_) (fun L₂ tokens hl₂ => ?_) hl₁)
      · cases ws with
        | nil => exact h
        | cons w ws =>
          refine ⟨⟨fun e r hw => absurd hw (hws.unsaving e r), fun u hw => ?_⟩,
            h.trans (List.prefix_append _ _)⟩
          obtain ⟨t, ht⟩ := hws _ hw
          cases ht
      · rcases he with he | ⟨-, he⟩
        · exact hother L' e he
        · exact hfault L' e he
      · refine (along_bind _ _ _ _).2 ((along_bind _ _ _ _).2
          (along_select (fun L' _ _ _ e he => hfault L' e he) fun L₃ hl₃ _ => ?_))
        split
        · exact hother L₃ _ fun h => by cases h
        · split
          · trivial
          · refine (along_bind _ _ _ _).2 (along_write (fun L' _ _ _ e he => hfault L' e he) ?_)
            intro L₄ hl₄ _
            refine ⟨⟨fun e r hw => ?_, fun u hw => ?_⟩, trivial⟩
            · cases List.mem_singleton.1 hw
              have hl₄ : l <+: L₄ := hl₂.trans ((ByOthers.onto hl₃).trans (ByOthers.onto hl₄))
              exact ⟨value, rfl, l, hl₄, parent, hparent, rfl⟩
            · cases List.mem_singleton.1 hw

/-- Every call keeps to the conduct, in every run. -/
theorem spending_history :
    History (system env) (fun _ _ => True) (spending env d₀) d₀ where
  refl _ _ _ := .refl _ _
  trans _ _ _ _ _ := .trans
  inv _ _ := trivial
  others := by
    intro s i op j op' ws _ _ _ _ _ hij _ _ _ _
    refine ⟨[⟨i, false, ws⟩], rfl, fun g hg => ?_⟩
    rw [List.mem_singleton.1 hg]
    exact Ne.symm hij
  settled := by
    intro i op j op' L ws _ _ _
    refine ⟨fun _ _ => trivial, fun e he hreuse value hvalue => ?_⟩
    obtain ⟨l, hl, hquiet, hspent⟩ := he hreuse value hvalue
    exact ⟨l, hl.trans (List.prefix_append _ _), hquiet, hspent⟩
  fault _ _ _ _ := trivial
  prog := by
    intro s op _ hk _
    have hsilent : ∀ g ∈ s.log, g.call ≠ s.ops.length := fun g hg => by
      have hlt := hk.fresh.log g hg
      omega
    have hother : ∀ {p : M Result}, (∀ value, op ≠ .refreshTokens value) → UnsavingProg p →
        (spending env d₀).holds (system env) d₀ s.ops.length op s.log p :=
      fun hop hp => unsaving_along hop hp
    cases op with
    | refreshTokens value => exact refreshTokens_along hsilent
    | clock ms =>
      refine hother (fun _ h => by cases h) (TokenlessProg.unsaving ?_)
      exact (write_tokenless (by trivial)).bind fun _ => trivial
    | register dto =>
      refine hother (fun _ h => by cases h) (TokenlessProg.unsaving ?_)
      exact (register_tokenless _ _ _).bind fun _ => trivial
    | verifyEmail token =>
      refine hother (fun _ h => by cases h) (TokenlessProg.unsaving ?_)
      exact (verifyEmail_tokenless _).bind fun _ => trivial
    | resendVerification email =>
      refine hother (fun _ h => by cases h) (TokenlessProg.unsaving ?_)
      exact (resendVerification_tokenless _ _ _).bind fun _ => trivial
    | requestPasswordReset email =>
      refine hother (fun _ h => by cases h) (TokenlessProg.unsaving ?_)
      exact (requestPasswordReset_tokenless _ _ _).bind fun _ => trivial
    | resetPassword token newPassword =>
      exact hother (fun _ h => by cases h) ((resetPassword_unsaving _ _ _).bind fun _ => trivial)
    | login dto =>
      exact hother (fun _ h => by cases h) ((login_unsaving _ _).bind fun _ => trivial)
    | verifyMfaChallenge mfaToken code =>
      exact hother (fun _ h => by cases h)
        ((verifyMfaChallenge_unsaving _ _ _).bind fun _ => trivial)
    | changePassword u c n =>
      refine hother (fun _ h => by cases h) (TokenlessProg.unsaving ?_)
      exact (changePassword_tokenless _ _ _ _ _).bind fun _ => trivial
    | mfaSetup u =>
      refine hother (fun _ h => by cases h) (TokenlessProg.unsaving ?_)
      exact (beginSetup_tokenless _ _ _).bind fun _ => trivial
    | mfaEnable u c =>
      refine hother (fun _ h => by cases h) (TokenlessProg.unsaving ?_)
      exact (enable_tokenless _ _ _ _).bind fun _ => trivial
    | mfaDisable u c =>
      refine hother (fun _ h => by cases h) (TokenlessProg.unsaving ?_)
      exact (disable_tokenless _ _ _).bind fun _ => trivial
    | deleteData u =>
      refine hother (fun _ h => by cases h) (TokenlessProg.unsaving ?_)
      exact (deleteData_tokenless _ _ _).bind fun _ => trivial

theorem spending_kept {s : RunState} (h : (system env).Reachable d₀ s) :
    Kept (system env) (spending env d₀) d₀ s :=
  spending_history.good trivial (h.within.mono fun _ _ _ => trivial)

end

/-! ## Where a revocation comes from -/

section

variable {env : Environment} {d d₀ : Db} {hash : String}

/-- A statement after which the token is revoked. -/
theorem Write.revoked_by {w : Write} (hw : w.proper) {t : RefreshToken}
    (h : (store.apply d w).tokenByHash hash = some t) (hrevoked : t.revoked = true) :
    (∃ t₁, d.tokenByHash hash = some t₁ ∧ t₁.revoked = true) ∨
      (∃ e r, w = .saveRefreshToken e r ∧ e.id = t.id) ∨ w = .revokeAllUserTokens t.userId := by
  have same : (store.apply d w).refreshTokens = d.refreshTokens →
      ∃ t₁, d.tokenByHash hash = some t₁ ∧ t₁.revoked = true := by
    intro hd
    unfold Db.tokenByHash at h
    rw [hd] at h
    exact ⟨t, h, hrevoked⟩
  cases w with
  | insertRefreshToken t₀ =>
    refine .inl ?_
    cases hfree : d.refreshTokens.get? t₀.id with
    | some x =>
      have hins : d.refreshTokens.insert t₀ = d.refreshTokens := by
        simp only [Table.insert]
        exact dif_pos (List.mem_map.2 ⟨x, Table.mem_of_get? hfree, Table.key_of_get? hfree⟩)
      exact same hins
    | none =>
      have hrows : (store.apply d (.insertRefreshToken t₀)).refreshTokens.rows =
          d.refreshTokens.rows ++ [t₀] := Table.insert_rows hfree
      unfold Db.tokenByHash at h ⊢
      rw [hrows, List.find?_append] at h
      cases hfind : d.refreshTokens.rows.find? (·.tokenHash == hash) with
      | some t₁ =>
        rw [hfind] at h
        cases h
        exact ⟨t, rfl, hrevoked⟩
      | none =>
        rw [hfind, Option.none_or] at h
        have hlast := List.mem_singleton.1 (List.mem_of_find?_eq_some h)
        rw [hlast, show t₀.revoked = false from hw] at hrevoked
        cases hrevoked
  | saveRefreshToken e r =>
    have hfind : (store.apply d (.saveRefreshToken e r)).tokenByHash hash =
        (d.tokenByHash hash).map fun t => if t.id = e.id then e.overwrite r t else t :=
      Table.find?_modify (e.overwrite r) (fun _ => rfl) fun _ => rfl
    rw [hfind] at h
    obtain ⟨t₁, h₁, heq⟩ := Option.map_eq_some_iff.1 h
    split at heq
    · next hid => exact .inr (.inl ⟨e, r, rfl, by rw [← heq, ← hid]; rfl⟩)
    · exact .inl ⟨t₁, h₁, heq ▸ hrevoked⟩
  | revokeAllUserTokens u =>
    have hfind : (store.apply d (.revokeAllUserTokens u)).tokenByHash hash =
        (d.tokenByHash hash).map fun t =>
          if decide (t.userId = u ∧ t.revoked = false) = true then t.revoke else t :=
      Table.find?_modifyWhere RefreshToken.revoke (fun _ => rfl) fun _ => rfl
    rw [hfind] at h
    obtain ⟨t₁, h₁, heq⟩ := Option.map_eq_some_iff.1 h
    split at heq
    · next hmatch =>
      refine .inr (.inr ?_)
      rw [← heq, ← (of_decide_eq_true hmatch).1]
      rfl
    · exact .inl ⟨t₁, h₁, heq ▸ hrevoked⟩
  | _ => exact .inl (same rfl)

theorem tokens_revoked_by {ws : List Write} (hw : ∀ w ∈ ws, w.proper) {t : RefreshToken}
    (h : (store.applyAll d ws).tokenByHash hash = some t) (hrevoked : t.revoked = true) :
    (∃ t₁, d.tokenByHash hash = some t₁ ∧ t₁.revoked = true) ∨
      (∃ e r, .saveRefreshToken e r ∈ ws ∧ e.id = t.id) ∨ .revokeAllUserTokens t.userId ∈ ws := by
  induction ws generalizing d with
  | nil => exact .inl ⟨t, h, hrevoked⟩
  | cons w ws ih =>
    have hws : ∀ x ∈ ws, x.proper := fun x hx => hw x (List.mem_cons_of_mem _ hx)
    rcases ih hws h with ⟨t₁, h₁, hr₁⟩ | ⟨e, r, hmem, hid⟩ | hmem
    · obtain ⟨t₂, h₂, hage⟩ := tokens_aged hws
        (fun a b hab => by simp only [hab.tokenHash]) (q := (·.tokenHash == hash)) h₁
      cases h₂.symm.trans h
      rcases Write.revoked_by (hw w List.mem_cons_self) h₁ hr₁ with hold | ⟨e, r, rfl, hid⟩ | rfl
      · exact .inl hold
      · exact .inr (.inl ⟨e, r, List.mem_cons_self, hid.trans hage.id.symm⟩)
      · rw [hage.userId]
        exact .inr (.inr List.mem_cons_self)
    · exact .inr (.inl ⟨e, r, List.mem_cons_of_mem _ hmem, hid⟩)
    · exact .inr (.inr (List.mem_cons_of_mem _ hmem))

/-- A revoked token that was not there at the start was revoked by a statement of the log. -/
theorem ProperLog.revoked_by {L : Log} (hL : ProperLog L) (h₀ : d₀.tokenByHash hash = none)
    {t : RefreshToken} (h : (d₀.at L).tokenByHash hash = some t) (hrevoked : t.revoked = true) :
    ∃ l g r, L = l ++ g :: r ∧ ((∃ e reread, .saveRefreshToken e reread ∈ g.writes ∧ e.id = t.id) ∨
      .revokeAllUserTokens t.userId ∈ g.writes) := by
  induction L using List.reverseRecOn generalizing t with
  | nil =>
    rw [show (d₀.at []).tokenByHash hash = none from h₀] at h
    cases h
  | append_singleton L g ih =>
    have hL' : ProperLog L := fun x hx => hL x (List.mem_append_left _ hx)
    have hg : ∀ w ∈ g.writes, w.proper := hL g (by simp)
    rw [Db.at_snoc] at h
    rcases tokens_revoked_by hg h hrevoked with ⟨t₁, h₁, hr₁⟩ | hsave | hall
    · obtain ⟨t₂, h₂, hage⟩ := tokens_aged hg
        (fun a b hab => by simp only [hab.tokenHash]) (q := (·.tokenHash == hash)) h₁
      cases h₂.symm.trans h
      obtain ⟨l, g', r, rfl, hcause⟩ := ih hL' h₁ hr₁
      refine ⟨l, g', r ++ [g], by simp, ?_⟩
      rw [hage.id, hage.userId]
      exact hcause
    · exact ⟨L, g, [], rfl, .inl hsave⟩
    · exact ⟨L, g, [], rfl, .inr hall⟩

/-- The call that has revoked a token has presented it, or has revoked all tokens of the user. -/
theorem revoked_by {s : RunState} (hs : (system env).Reachable d₀ s) {l : Log} (hl : l <+: s.log)
    (h₀ : d₀.tokenByHash hash = none) {t : RefreshToken}
    (h : (d₀.at l).tokenByHash hash = some t) (hrevoked : t.revoked = true) :
    ∃ g ∈ l, (∃ value, s.ops[g.call]? = some (.refreshTokens value) ∧
      AuthService.hashToken env value = hash) ∨ .revokeAllUserTokens t.userId ∈ g.writes := by
  have hk := spending_kept hs
  have hproper : ProperLog l := kept_properLog (anyRun_kept hs) hl
  obtain ⟨m, g, r, rfl, hcause⟩ := hproper.revoked_by h₀ h hrevoked
  refine ⟨g, by simp, ?_⟩
  rcases hcause with ⟨e, reread, hsave, hid⟩ | hall
  · obtain ⟨r', hlog⟩ := hl
    rw [List.append_assoc, List.cons_append] at hlog
    obtain ⟨-, op, hop, -, hguar⟩ := hk.log hlog.symm
    obtain ⟨value, rfl, B, hB, t₁, h₁, hid₁⟩ := hguar.1 e reread hsave
    refine .inl ⟨value, hop, ?_⟩
    obtain ⟨t₂, h₂, hage⟩ := hproper.hash_stays (hB.trans (List.prefix_append _ _)) h₁
    have hmem := List.mem_of_find?_eq_some h
    have hmem₂ := List.mem_of_find?_eq_some h₂
    obtain rfl := Table.eq_of_key hmem₂ hmem (hage.id.trans (hid₁.trans hid))
    exact (Db.hash_of_tokenByHash h₂).symm.trans (Db.hash_of_tokenByHash h)
  · exact .inr hall

/-- A call that detects a reuse comes after another presentation of its token, or after all tokens
of the user were revoked. -/
theorem reuse_detected {s : RunState} (hs : (system env).Reachable d₀ s) {j : Nat} {value : String}
    (hj : s.ops[j]? = some (.refreshTokens value))
    (hreuse : s.call j = .done (.error (.unauthorized AuthService.REUSE_DETECTED none)))
    (h₀ : d₀.tokenByHash (AuthService.hashToken env value) = none) :
    ∃ g ∈ s.log, g.call ≠ j ∧ ((∃ value', s.ops[g.call]? = some (.refreshTokens value') ∧
      AuthService.hashToken env value' = AuthService.hashToken env value) ∨
        ∃ l t, l <+: s.log ∧ (d₀.at l).tokenByHash (AuthService.hashToken env value) = some t ∧
          .revokeAllUserTokens t.userId ∈ g.writes) := by
  have hcall := (spending_kept hs).call hj
  rw [hreuse] at hcall
  obtain ⟨l, hl, hquiet, t, ht, hrevoked⟩ := hcall rfl value rfl
  obtain ⟨g, hg, hcause⟩ := revoked_by hs hl h₀ ht hrevoked
  refine ⟨g, hl.subset hg, hquiet g hg, ?_⟩
  rcases hcause with hpresented | hall
  · exact .inl hpresented
  · exact .inr ⟨l, t, hl, ht, hall⟩

end

end JobBoard.Auth
