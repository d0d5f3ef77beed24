import JobBoard.Auth.Calls

/-!
# Where a second factor comes from

In every interleaving, a session that counts as MFA-authenticated goes back, rotation
by rotation, to a challenge in which MfaService accepted a code of the same user; and
a bearer token with the claim `mfa` belongs to such a session.
-/

set_option autoImplicit false

namespace JobBoard.Auth

open Txn Prog

/-- All runs. -/
def anyRun : Condition := ⟨fun _ _ _ => True, fun _ _ _ _ => True, fun _ _ _ => True⟩

section

variable {env : Environment} {d₀ : Db} {C : Condition} {s : RunState}

theorem kept {ok : RunState → Step → Prop} (H : History (system env) ok (conduct env d₀ C) d₀)
    (h : (system env).Within ok d₀ s) : Kept (system env) (conduct env d₀ C) d₀ s :=
  H.good (fun _ hg => nomatch hg) h

theorem anyRun_kept (h : (system env).Reachable d₀ s) :
    Kept (system env) (conduct env d₀ anyRun) d₀ s :=
  kept (sessions (fun _ _ _ => trivial) (fun _ _ _ _ _ _ _ _ _ => trivial) (fun _ _ _ _ => trivial)
    fun _ _ => trivial) h.within

/-! ## Where a row comes from -/

theorem Write.token_origin {d : Db} {w : Write} (hw : w.proper) {id : Id} {t : RefreshToken}
    (h : (store.apply d w).refreshTokens.get? id = some t) :
    (∃ t₁, d.refreshTokens.get? id = some t₁ ∧ t₁.Aged t) ∨ w = .insertRefreshToken t := by
  have same : (store.apply d w).refreshTokens = d.refreshTokens →
      ∃ t₁, d.refreshTokens.get? id = some t₁ ∧ t₁.Aged t :=
    fun hd => ⟨t, hd ▸ h, .refl t⟩
  cases w with
  | insertRefreshToken t₀ =>
    cases hfree : d.refreshTokens.get? t₀.id with
    | some x =>
      have hins : d.refreshTokens.insert t₀ = d.refreshTokens := by
        simp only [Table.insert]
        exact dif_pos (List.mem_map.2 ⟨x, Table.mem_of_get? hfree, Table.key_of_get? hfree⟩)
      exact .inl (same hins)
    | none =>
      have hget : (store.apply d (.insertRefreshToken t₀)).refreshTokens.get? id =
        if t₀.id = id then some t₀ else d.refreshTokens.get? id := Table.get?_insert hfree
      rw [hget] at h
      split at h
      · cases h
        exact .inr rfl
      · exact .inl ⟨t, h, .refl t⟩
  | saveRefreshToken e r =>
    have hget : (store.apply d (.saveRefreshToken e r)).refreshTokens.get? id =
      if id = e.id then (d.refreshTokens.get? id).map (e.overwrite r)
      else d.refreshTokens.get? id := Table.get?_modify (e.overwrite r) fun _ => rfl
    rw [hget] at h
    split at h
    · obtain ⟨t₁, h₁, rfl⟩ := Option.map_eq_some_iff.1 h
      exact .inl ⟨t₁, h₁, .overwrite hw⟩
    · exact .inl ⟨t, h, .refl t⟩
  | revokeAllUserTokens u =>
    have hget : (store.apply d (.revokeAllUserTokens u)).refreshTokens.rows.find?
        (fun r => decide (r.id = id)) = _ :=
      Table.find?_modifyWhere RefreshToken.revoke (fun _ => rfl) fun _ => rfl
    have h' := hget.symm.trans h
    obtain ⟨t₁, h₁, rfl⟩ := Option.map_eq_some_iff.1 h'
    refine .inl ⟨t₁, h₁, ?_⟩
    split
    · exact ⟨rfl, rfl, rfl, rfl, rfl, fun _ => rfl⟩
    · exact .refl t₁
  | _ => exact .inl (same rfl)

/-- A stored row was there at the start, or has been inserted. -/
theorem ProperLog.origin {L : Log} (hL : ProperLog L) {id : Id} {t : RefreshToken}
    (h : (d₀.at L).refreshTokens.get? id = some t) :
    (∃ t₁, d₀.refreshTokens.get? id = some t₁ ∧ t₁.Aged t) ∨
      ∃ g ∈ L, ∃ t₁, .insertRefreshToken t₁ ∈ g.writes ∧ t₁.Aged t := by
  induction L using List.reverseRecOn generalizing t with
  | nil => exact .inl ⟨t, h, .refl t⟩
  | append_singleton L g ih =>
    have hL' : ProperLog L := fun x hx => hL x (List.mem_append_left _ hx)
    have hg : ∀ w ∈ g.writes, w.proper := hL g (by simp)
    rw [Db.at_snoc] at h
    -- the statements of the last group, one by one
    have group : ∀ (ws : List Write) (d : Db) (t : RefreshToken), (∀ w ∈ ws, w.proper) →
        (store.applyAll d ws).refreshTokens.get? id = some t →
        (∃ t₁, d.refreshTokens.get? id = some t₁ ∧ t₁.Aged t) ∨
          ∃ t₁, .insertRefreshToken t₁ ∈ ws ∧ t₁.Aged t := by
      intro ws
      induction ws with
      | nil => exact fun d t _ h => .inl ⟨t, h, .refl t⟩
      | cons w ws ihw =>
        intro d t hws h
        rcases ihw (store.apply d w) t (fun x hx => hws x (List.mem_cons_of_mem _ hx)) h with
          ⟨t₁, h₁, ha⟩ | ⟨t₁, h₁, ha⟩
        · rcases Write.token_origin (hws w List.mem_cons_self) h₁ with ⟨t₂, h₂, ha₂⟩ | rfl
          · exact .inl ⟨t₂, h₂, ha₂.trans ha⟩
          · exact .inr ⟨t₁, List.mem_cons_self, ha⟩
        · exact .inr ⟨t₁, List.mem_cons_of_mem _ h₁, ha⟩
    rcases group g.writes _ t hg h with ⟨t₁, h₁, ha⟩ | ⟨t₁, h₁, ha⟩
    · rcases ih hL' h₁ with ⟨t₂, h₂, ha₂⟩ | ⟨g', hg', t₂, h₂, ha₂⟩
      · exact .inl ⟨t₂, h₂, ha₂.trans ha⟩
      · exact .inr ⟨g', List.mem_append_left _ hg', t₂, h₂, ha₂.trans ha⟩
    · exact .inr ⟨g, by simp, t₁, h₁, ha⟩

/-- The insertion of a token, and why it was made. -/
theorem kept_issued (hk : Kept (system env) (conduct env d₀ C) d₀ s) {l r : Log}
    {g : Txn.Group Write} {t : RefreshToken} (hlog : s.log = l ++ g :: r)
    (ht : .insertRefreshToken t ∈ g.writes) :
    Published g.call s.log (.insertRefreshToken t) ∧ ∃ op, s.ops[g.call]? = some op ∧
      ProperLog l ∧ Issues env d₀ C g.call op l t := by
  obtain ⟨htx, op, hop, hl, hpub⟩ := hk.log hlog
  obtain ⟨hws, -, -, hissue⟩ := hpub.issue t ht
  refine ⟨?_, op, hop, hl, hissue⟩
  obtain ⟨i, tx, ws⟩ := g
  have hmem : (⟨i, tx, ws⟩ : Txn.Group Write) ∈ s.log := by
    rw [hlog]
    simp
  dsimp only at htx hws
  rw [htx, hws] at hmem
  exact hmem

end

/-! ## The second factor -/

section

variable (env : Environment) (d₀ : Db) (s : RunState)

/-- The session with the refresh token `id` of the user has its second factor from an
accepted code, or from the session it was rotated from. -/
inductive SecondFactor : Id → Id → Prop
  | challenge {i : Nat} {mfaToken : Jwt} {code : String} {t : RefreshToken} {l : Log} {user : User} :
      s.ops[i]? = some (.verifyMfaChallenge mfaToken code) →
      Published i s.log (.insertRefreshToken t) → t.mfaAuthenticated = true →
      l <+: s.log → (d₀.at l).user? mfaToken.claims.sub = some user → user.mfaEnabled = true →
      Accepts env user code → t.userId = user.id → SecondFactor t.id user.id
  | rotation {i : Nat} {value : String} {t parent : RefreshToken} {l : Log} :
      s.ops[i]? = some (.refreshTokens value) →
      Published i s.log (.insertRefreshToken t) → t.mfaAuthenticated = true →
      l <+: s.log → (d₀.at l).tokenByHash (AuthService.hashToken env value) = some parent →
      parent.mfaAuthenticated = true → t.userId = parent.userId →
      SecondFactor parent.id parent.userId → SecondFactor t.id t.userId

/-- The token that a result carries, signed by the server. -/
def Result.jwt : Result → Option Jwt
  | .login (.tokens t) => some t.accessToken
  | .login (.challenge mfaToken) => some mfaToken
  | .tokens t => some t.accessToken
  | _ => none

/-- The session tokens that a result carries. -/
def Result.session : Result → Option AuthTokens
  | .login (.tokens t) => some t
  | .tokens t => some t
  | _ => none

/-- A call has returned the token. -/
def Signed (token : Jwt) : Prop := ∃ i r, s.call i = .done (.ok r) ∧ r.jwt = some token

end

section

variable {env : Environment} {d₀ : Db} {C : Condition} {s : RunState}

theorem log_onto {l r : Log} {g : Txn.Group Write} {L : Log} (h : L = l ++ g :: r) : l <+: L :=
  h ▸ List.prefix_append _ _

/-- A token that is issued as MFA-authenticated has a second factor behind it. -/
theorem issued_secondFactor (hd : d₀.refreshTokens.rows = [])
    (hk : Kept (system env) (conduct env d₀ anyRun) d₀ s) (n : Nat) :
    ∀ l g r t, l.length = n → s.log = l ++ g :: r → .insertRefreshToken t ∈ g.writes →
      t.mfaAuthenticated = true → SecondFactor env d₀ s t.id t.userId := by
  -- the token that a rotation presents was issued earlier in the log
  induction n using Nat.strongRecOn with
  | _ n ih =>
    intro l g r t hn hlog ht hmfa
    have hl : l <+: s.log := log_onto hlog
    obtain ⟨hpub, op, hop, hproper, hissue⟩ := kept_issued hk hlog ht
    cases op with
    | login dto =>
      obtain ⟨l', user, now, -, -, -, -, -, rfl⟩ := hissue
      cases hmfa
    | verifyMfaChallenge mfaToken code =>
      obtain ⟨l', m, m', user, now, -, hlm, hmm', hmL, huser, henabled, hacc, rfl⟩ := hissue
      have hl' : l' <+: s.log := by
        refine hlm.onto.trans (List.IsPrefix.trans ?_ (hmL.onto.trans hl))
        rcases hmm' with ⟨-, rfl⟩ | ⟨k, -, rfl⟩
        · exact List.prefix_rfl
        · exact List.prefix_append _ _
      exact .challenge hop hpub hmfa hl' huser henabled hacc rfl
    | refreshTokens value =>
      obtain ⟨l', parent, user, now, -, hlL, hparent, -, huser, rfl⟩ := hissue
      have hparentMfa : parent.mfaAuthenticated = true := hmfa
      have huserId : user.id = parent.userId := Table.key_of_get? huser
      refine .rotation hop hpub hmfa (hlL.onto.trans hl) hparent hparentMfa huserId ?_
      have hproper' : ProperLog l' := fun x hx => hproper x (hlL.onto.subset hx)
      rcases hproper'.origin (Db.get?_of_tokenByHash hparent) with ⟨t₁, h₁, -⟩ | ⟨g', hg', t₁, h₁, ha⟩
      · rw [Table.get?, hd] at h₁
        cases h₁
      · obtain ⟨a, b, hab⟩ := List.append_of_mem hg'
        obtain ⟨rest, hrest⟩ := hlL.onto.trans hl
        have hsplit : s.log = a ++ g' :: (b ++ rest) := by
          rw [← hrest, hab]
          simp
        have hlt : a.length < n := by
          have := hlL.onto.length_le
          rw [hab] at this
          simp only [List.length_append, List.length_cons] at this
          omega
        have hfactor := ih a.length hlt a g' (b ++ rest) t₁ rfl hsplit h₁
          (ha.mfaAuthenticated ▸ hparentMfa)
        rw [ha.id, ha.userId]
        exact hfactor
    | _ => exact hissue.elim

theorem row_secondFactor (hd : d₀.refreshTokens.rows = [])
    (hk : Kept (system env) (conduct env d₀ anyRun) d₀ s) {t : RefreshToken}
    (ht : t ∈ s.db.refreshTokens.rows) (hmfa : t.mfaAuthenticated = true) :
    SecondFactor env d₀ s t.id t.userId := by
  have hget : (d₀.at s.log).refreshTokens.get? t.id = some t := by
    have hdb : d₀.at s.log = s.db := hk.db.symm
    rw [hdb]
    exact Table.get?_of_mem ht
  rcases hk.inv.origin hget with ⟨t₁, h₁, -⟩ | ⟨g, hg, t₁, h₁, ha⟩
  · rw [Table.get?, hd] at h₁
    cases h₁
  · obtain ⟨a, b, hab⟩ := List.append_of_mem hg
    have := issued_secondFactor hd hk a.length a g b t₁ rfl hab h₁ (ha.mfaAuthenticated ▸ hmfa)
    rw [ha.id, ha.userId]
    exact this

theorem kept_returns (hk : Kept (system env) (conduct env d₀ C) d₀ s) {i : Nat} {r : Result}
    (h : s.call i = .done (.ok r)) :
    ∃ op, s.ops[i]? = some op ∧ Returns env d₀ i op s.log r := by
  obtain ⟨op, hop⟩ : ∃ op, s.ops[i]? = some op := by
    rcases Nat.lt_or_ge i s.ops.length with hlt | hge
    · exact ⟨_, List.getElem?_eq_getElem hlt⟩
    · rw [hk.fresh.idle i hge] at h
      cases h
  have hcall := hk.call hop
  rw [h] at hcall
  exact ⟨op, hop, hcall⟩

/-- The session tokens that a call returns come with a refresh token that it has stored. -/
theorem session_delivered (hk : Kept (system env) (conduct env d₀ C) d₀ s) {i : Nat} {r : Result}
    (h : s.call i = .done (.ok r)) {tokens : AuthTokens} (ht : r.session = some tokens) :
    ∃ user mfa, Delivered env i s.log tokens user mfa := by
  obtain ⟨op, -, hret⟩ := kept_returns hk h
  cases op with
  | login dto =>
    rcases hret with ⟨t, user, l, rfl, hd, -⟩ | ⟨user, now, l, rfl, -, -⟩
    · cases ht
      exact ⟨user, false, hd⟩
    · cases ht
  | verifyMfaChallenge mfaToken code =>
    obtain ⟨t, user, rfl, hd⟩ := hret
    cases ht
    exact ⟨user, true, hd⟩
  | refreshTokens value =>
    obtain ⟨⟨t, user, mfa, rfl, hd⟩, -⟩ := hret
    cases ht
    exact ⟨user, mfa, hd⟩
  | resetPassword token newPassword =>
    obtain ⟨rfl, -⟩ := hret
    cases ht
  | _ =>
    obtain ⟨hlogin, htokens⟩ := hret
    cases r with
    | login t => exact (hlogin t rfl).elim
    | tokens t => exact (htokens t rfl).elim
    | _ => cases ht

/-- What the signed tokens that calls return look like. -/
theorem signed_session (hk : Kept (system env) (conduct env d₀ C) d₀ s) {token : Jwt}
    (h : Signed s token) : token.secret = env.jwtRefreshSecret ∨
      ∃ i user mfa now, Published i s.log
          (.insertRefreshToken (AuthService.newRefreshToken env i user mfa now)) ∧
        token.claims = AuthService.accessClaims user mfa := by
  obtain ⟨i, r, hcall, hjwt⟩ := h
  obtain ⟨op, -, hret⟩ := kept_returns hk hcall
  have session : ∀ {t : AuthTokens}, r.session = some t → t.accessToken = token →
      ∃ i user mfa now, Published i s.log
          (.insertRefreshToken (AuthService.newRefreshToken env i user mfa now)) ∧
        token.claims = AuthService.accessClaims user mfa := by
    rintro t ht rfl
    obtain ⟨user, mfa, now, hpub, rfl⟩ := session_delivered hk hcall ht
    exact ⟨i, user, mfa, now, hpub, rfl⟩
  cases r with
  | login t =>
    cases t with
    | tokens t =>
      cases hjwt
      exact .inr (session rfl rfl)
    | challenge mfaToken =>
      cases hjwt
      cases op with
      | login dto =>
        rcases hret with ⟨t, user, l, ht, -⟩ | ⟨user, now, l, ht, -, -⟩
        · cases ht
        · cases ht
          exact .inl rfl
      | verifyMfaChallenge mfaToken code =>
        obtain ⟨t, user, ht, -⟩ := hret
        cases ht
      | refreshTokens value =>
        obtain ⟨⟨t, user, mfa, ht, -⟩, -⟩ := hret
        cases ht
      | resetPassword token newPassword => cases hret.1
      | _ => exact (hret.1 _ rfl).elim
  | tokens t =>
    cases hjwt
    exact .inr (session rfl rfl)
  | _ => cases hjwt

/-- MFA provenance. Tokens signed with the server's secrets are those it has
returned: nobody else can sign one. -/
theorem mfa_provenance (env : Environment) (hsecrets : env.jwtAccessSecret ≠ env.jwtRefreshSecret)
    {d₀ : Db} (hd : d₀.refreshTokens.rows = []) {s : RunState}
    (h : (system env).Reachable d₀ s) :
    -- every MFA-authenticated session goes back to an accepted code of its user
    (∀ t ∈ s.db.refreshTokens.rows, t.mfaAuthenticated = true →
      SecondFactor env d₀ s t.id t.userId) ∧
    -- and so does every bearer token with the claim
    (∀ now bearer payload,
      (bearer.secret = env.jwtAccessSecret ∨ bearer.secret = env.jwtRefreshSecret →
        Signed s bearer) →
      JwtStrategy.authenticate env now bearer = some payload → payload.mfa = true →
      ∃ id, SecondFactor env d₀ s id payload.sub) ∧
    -- a rotation keeps the user and the flag
    (∀ i value t, s.ops[i]? = some (.refreshTokens value) →
      Published i s.log (.insertRefreshToken t) → ∃ l parent, l <+: s.log ∧
        (d₀.at l).tokenByHash (AuthService.hashToken env value) = some parent ∧
        t.userId = parent.userId ∧ t.mfaAuthenticated = parent.mfaAuthenticated) ∧
    -- and a login that returns tokens has read a user without a second factor
    (∀ i dto t, s.ops[i]? = some (.login dto) → s.call i = .done (.ok (.login (.tokens t))) →
      ∃ l user, l <+: s.log ∧
        (d₀.at l).userByEmail (env.toLowerCase dto.email) = some user ∧
        user.mfaEnabled = false ∧ t.accessToken.claims = AuthService.accessClaims user false) := by
  have hk := anyRun_kept h
  refine ⟨fun t ht hmfa => row_secondFactor hd hk ht hmfa, ?_, ?_, ?_⟩
  · intro now bearer payload hunforged hauth hmfa
    obtain ⟨claims, hv, rfl⟩ := Option.map_eq_some_iff.1 hauth
    obtain ⟨hsecret, rfl⟩ := Jwt.verify_some hv
    rcases signed_session hk (hunforged (.inl hsecret)) with hr | ⟨i, user, mfa, now', hpub, hc⟩
    · exact absurd (hsecret.symm.trans hr) hsecrets
    · rw [hc] at hmfa ⊢
      have hflag : mfa = true := by
        simpa [JwtStrategy.validate, AuthService.accessClaims] using hmfa
      subst hflag
      obtain ⟨a, b, hab⟩ := List.append_of_mem hpub
      exact ⟨_, issued_secondFactor hd hk a.length a _ b _ rfl hab (List.mem_singleton.2 rfl) rfl⟩
  · intro i value t hop hpub
    obtain ⟨a, b, hab⟩ := List.append_of_mem hpub
    obtain ⟨-, op, hop', -, hissue⟩ := kept_issued hk hab (List.mem_singleton.2 rfl)
    rw [hop] at hop'
    cases hop'
    obtain ⟨l, parent, user, now, -, hl, hparent, -, huser, ht⟩ := hissue
    refine ⟨l, parent, hl.onto.trans (log_onto hab), hparent, ?_, ?_⟩
    · have huserId : user.id = parent.userId := Table.key_of_get? huser
      rw [ht]
      exact huserId
    · rw [ht]
      rfl
  · intro i dto t hop hcall
    have hret : Returns env d₀ i (.login dto) s.log (.login (.tokens t)) := by
      have := hk.call hop
      rw [hcall] at this
      exact this
    rcases hret with ⟨t', user, l, ht, ⟨now, -, rfl⟩, hl, huser, hmfa⟩ | ⟨user, now, l, hr, -⟩
    · cases ht
      exact ⟨l, user, hl, huser, hmfa, rfl⟩
    · cases hr

theorem mfa_provenance_challenge :
    ∃ s, (system .default).Reachable oneMfaUser s ∧ s.db.refreshTokens.rows.map (·.id) = [0] ∧
      ∀ t ∈ s.db.refreshTokens.rows, t.mfaAuthenticated = true →
        SecondFactor .default oneMfaUser s t.id t.userId := by
  have hrun : ((system .default).runLabels .all (State.init oneMfaUser)
      (alone 0 (.verifyMfaChallenge
        (AuthService.issueMfaChallengeToken .default 1 0) "code-a") 9)).map
      (fun s => s.db.refreshTokens.rows.map (·.id)) = some [0] := by decide
  obtain ⟨s, h, hrows⟩ := System.reach_of_run hrun
  exact ⟨s, h, hrows, (mfa_provenance .default (by decide) rfl h).1⟩

end

end JobBoard.Auth
