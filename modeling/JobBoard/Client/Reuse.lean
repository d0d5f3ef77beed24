import JobBoard.Client.World

/-!
# Where a detected reuse comes from

In every run of a tab against the server, the tab presents a refresh token again only when the
answer to its first presentation was lost; so a reuse that the server detects in a session of the
tab goes back to a lost answer, or to another call that has revoked the tokens of the user
(`reuse_explained`).
-/

set_option autoImplicit false

namespace JobBoard.Client

open Txn
open Auth (Environment RunState Db AuthError Result LoginDto RefreshToken AuthTokens Published)
open Auth.AuthService (hashToken REUSE_DETECTED)

/-! ## Steps of the server -/

section

variable {env : Environment} {d₀ : Db} {s s' : RunState} {l : Auth.Step}

theorem reachable_next (h : (Auth.system env).Reachable d₀ s)
    (hn : (Auth.system env).next s l = some s') : (Auth.system env).Reachable d₀ s' := by
  refine .step l h ?_ hn
  cases l with
  | step i =>
    simp only [System.admits]
    split <;> rfl
  | _ => rfl

/-- A step starts one call at most, and takes nothing out of the log. -/
theorem next_onto (hn : (Auth.system env).next s l = some s') :
    (s'.ops = s.ops ∨ ∃ op, l = .spawn op ∧ s'.ops = s.ops ++ [op]) ∧ s.log <+: s'.log := by
  rcases System.next_cases hn with ⟨op, rfl, rfl⟩ | ⟨i, -, hframe⟩
  · exact ⟨.inr ⟨op, rfl, rfl⟩, List.prefix_rfl⟩
  · obtain ⟨gs, hlog, -⟩ := hframe.log
    exact ⟨.inl hframe.ops, hlog ▸ List.prefix_append _ _⟩

theorem ops_onto (hn : (Auth.system env).next s l = some s') {c : Nat} {op : Auth.Op}
    (h : s.ops[c]? = some op) : s'.ops[c]? = some op := by
  rcases (next_onto hn).1 with hops | ⟨op', -, hops⟩
  · rw [hops, h]
  · rw [hops, List.getElem?_append_left (List.getElem?_eq_some_iff.1 h).1, h]

/-- Calls that have stored tokens with one hash are one call. -/
theorem same_call (h : (Auth.system env).Reachable d₀ s) {c c' : Nat} {t t' : RefreshToken}
    (hc : Published c s.log (.insertRefreshToken t))
    (hc' : Published c' s.log (.insertRefreshToken t')) (hhash : t.tokenHash = t'.tokenHash) :
    c = c' := by
  obtain ⟨l, r, hlog⟩ := List.append_of_mem hc
  obtain ⟨l', r', hlog'⟩ := List.append_of_mem hc'
  have hsame := Auth.stored_once (Auth.anyRun_kept h) hlog (by simp) hlog' (by simp) hhash
  exact congrArg Txn.Group.call hsame.2

end

/-! ## The invariant -/

section

variable {env : Environment} {d₀ : Db} {w : World}

variable (env) in
/-- The call has stored the refresh token, and the tab has been given it. -/
def World.Source (w : World) (call : Nat) (value : String) : Prop :=
  w.Given call ∧ value = env.randomBytes call 0 ∧
    ∃ t : RefreshToken, t.tokenHash = hashToken env value ∧
      Published call w.server.log (.insertRefreshToken t)

variable (env) (d₀) in
structure World.Inv (w : World) : Prop where
  server : (Auth.system env).Reachable d₀ w.server
  tab : w.tab.Inv
  presented : w.tab.Presented
  calls : ∀ k c, (k, c) ∈ w.calls → ∃ f, w.tab.flights[k]? = some f ∧
    w.server.ops[c]? = some (.refreshTokens f.refreshToken)
  oneFlight : ∀ k k' c, (k, c) ∈ w.calls → (k', c) ∈ w.calls → k = k'
  oneCall : ∀ k c c', (k, c) ∈ w.calls → (k, c') ∈ w.calls → c = c'
  logins : ∀ c ∈ w.logins, ∃ dto, w.server.ops[c]? = some (.login dto)
  signedIn : ∀ c ∈ w.signedIn, c ∈ w.logins
  source : ∀ value, w.tab.Holds value → ∃ c, w.Source env c value
  others : ∀ c value, w.server.ops[c]? = some (.refreshTokens value) →
    c ∈ w.calls.map Prod.snd ∨ w.Foreign env value

theorem World.Inv.init (d₀ : Db) (now : Time) : (World.init d₀ now).Inv env d₀ where
  server := .init
  tab := .init now
  presented := .init now
  calls _ _ h := by cases h
  oneFlight _ _ _ h := by cases h
  oneCall _ _ _ h := by cases h
  logins _ h := by cases h
  signedIn _ h := by cases h
  source _ h := by
    rcases h with h | ⟨f, hf, -⟩
    · cases h
    · cases hf
  others _ _ h := by cases h

theorem World.Inv.given_own (h : w.Inv env d₀) {c : Nat} (hc : w.Given c) : w.Own c := by
  rcases hc with hc | ⟨k, f, data, hmem, -⟩
  · exact .inl (h.signedIn c hc)
  · exact .inr (List.mem_map.2 ⟨_, hmem, rfl⟩)

/-- A token that is delivered for the first time is none that the tab has. -/
theorem World.Inv.unknown (h : w.Inv env d₀) {c : Nat} {r : Result} {data : AuthTokens}
    (hcall : w.server.call c = .done (.ok r)) (hdata : r.session = some data)
    (hnew : ¬ w.Given c) : ¬ w.tab.Holds data.refreshToken := by
  intro hholds
  obtain ⟨c', hgiven, -, t', hhash, hpub'⟩ := h.source _ hholds
  obtain ⟨user, mfa, now, hpub, rfl⟩ :=
    Auth.session_delivered (Auth.anyRun_kept h.server) hcall hdata
  have hsame : c = c' := same_call h.server hpub hpub' hhash.symm
  exact hnew (hsame ▸ hgiven)

theorem Tab.brings_of_unknown {tab : Tab} {e : Tab.Event}
    (h : ∀ value, e.Gives value → ¬ tab.Holds value) : tab.brings e = true := by
  have unknown : ∀ data : AuthTokens, e.Gives data.refreshToken →
      (tab.flights.all fun f => f.refreshToken ≠ data.refreshToken) = true := by
    intro data hgives
    refine List.all_eq_true.2 fun f hf => decide_eq_true fun heq => ?_
    exact h _ hgives (.inr ⟨f, hf, heq⟩)
  cases e with
  | landed k o =>
    cases o with
    | issued data => exact unknown data ⟨data, rfl, .inr ⟨k, rfl⟩⟩
    | _ => rfl
  | signedIn data => exact unknown data ⟨data, rfl, .inl rfl⟩
  | _ => rfl

/-- The tab takes a step, and the calls whose answers it has may be more. -/
theorem World.Inv.onTab (h : w.Inv env d₀) {e : Tab.Event} {tab : Tab}
    (hn : w.tab.step e = some tab) {signedIn : List Nat} (hsub : w.signedIn ⊆ signedIn)
    (hsigned : ∀ c ∈ signedIn, c ∈ w.logins)
    (hunknown : ∀ value, e.Gives value → ¬ w.tab.Holds value)
    (hsource : ∀ value, e.Gives value →
      ∃ c, World.Source env { w with tab := tab, signedIn := signedIn } c value) :
    World.Inv env d₀ { w with tab := tab, signedIn := signedIn } where
  server := h.server
  tab := h.tab.step hn
  presented := h.presented.step h.tab (Tab.brings_of_unknown hunknown) hn
  calls k c hmem := by
    obtain ⟨f, hf, hop⟩ := h.calls k c hmem
    obtain ⟨f', hf', hsame, -⟩ := Tab.step_flights hn hf
    exact ⟨f', hf', hsame ▸ hop⟩
  oneFlight := h.oneFlight
  oneCall := h.oneCall
  logins := h.logins
  signedIn := hsigned
  source value hvalue := by
    rcases Tab.step_holds hn hvalue with hold | hgives
    · obtain ⟨c, hgiven, hrandom, hstored⟩ := h.source value hold
      refine ⟨c, ?_, hrandom, hstored⟩
      rcases hgiven with hgiven | ⟨k, f, data, hmem, hf, hissued⟩
      · exact .inl (hsub hgiven)
      · obtain ⟨f', hf', -, hlanded⟩ := Tab.step_flights hn hf
        obtain rfl := hlanded (by rw [hissued]; rfl)
        exact .inr ⟨k, f', data, hmem, hf', hissued⟩
    · exact hsource value hgives
  others := h.others

/-- The server takes a step, which may be one of the tab's requests. -/
theorem World.Inv.onServer (h : w.Inv env d₀) {l : Auth.Step} {server : RunState}
    (hn : (Auth.system env).next w.server l = some server) {calls : List (Nat × Nat)}
    {logins : List Nat} (hcalls : ∀ k c, (k, c) ∈ calls → (k, c) ∈ w.calls ∨
      c = w.server.ops.length ∧ (∀ c', (k, c') ∉ w.calls) ∧ ∃ f, w.tab.flights[k]? = some f ∧
        l = .spawn (.refreshTokens f.refreshToken))
    (hone : ∀ k k' c, (k, c) ∈ calls → (k', c) ∈ calls → c = w.server.ops.length → k = k')
    (hlogins : ∀ c ∈ logins,
      c ∈ w.logins ∨ c = w.server.ops.length ∧ ∃ dto, l = .spawn (.login dto))
    (hsub : w.calls ⊆ calls) (hsubLogins : w.logins ⊆ logins)
    (hothers : ∀ value, l = .spawn (.refreshTokens value) →
      w.server.ops.length ∈ calls.map Prod.snd ∨ w.Foreign env value) :
    World.Inv env d₀ { w with server := server, calls := calls, logins := logins } where
  server := reachable_next h.server hn
  tab := h.tab
  presented := h.presented
  calls k c hmem := by
    rcases hcalls k c hmem with hmem | ⟨rfl, -, f, hf, rfl⟩
    · obtain ⟨f, hf, hop⟩ := h.calls k c hmem
      exact ⟨f, hf, ops_onto hn hop⟩
    · cases hn
      exact ⟨f, hf, by simp [State.set]⟩
  oneFlight k k' c hmem hmem' := by
    by_cases hc : c = w.server.ops.length
    · exact hone k k' c hmem hmem' hc
    · rcases hcalls k c hmem with hold | ⟨hnew, -⟩
      · rcases hcalls k' c hmem' with hold' | ⟨hnew, -⟩
        · exact h.oneFlight k k' c hold hold'
        · exact absurd hnew hc
      · exact absurd hnew hc
  oneCall k c c' hmem hmem' := by
    rcases hcalls k c hmem with hold | ⟨rfl, hfree, -⟩
    · rcases hcalls k c' hmem' with hold' | ⟨-, hfree, -⟩
      · exact h.oneCall k c c' hold hold'
      · exact absurd hold (hfree c)
    · rcases hcalls k c' hmem' with hold' | ⟨rfl, -⟩
      · exact absurd hold' (hfree c')
      · rfl
  logins c hc := by
    rcases hlogins c hc with hc | ⟨rfl, dto, rfl⟩
    · obtain ⟨dto, hop⟩ := h.logins c hc
      exact ⟨dto, ops_onto hn hop⟩
    · cases hn
      exact ⟨dto, by simp [State.set]⟩
  signedIn c hc := hsubLogins (h.signedIn c hc)
  source value hvalue := by
    obtain ⟨c, hgiven, hrandom, t, hhash, hpub⟩ := h.source value hvalue
    refine ⟨c, ?_, hrandom, t, hhash, (next_onto hn).2.subset hpub⟩
    rcases hgiven with hgiven | ⟨k, f, data, hmem, hf, hissued⟩
    · exact .inl hgiven
    · exact .inr ⟨k, f, data, hsub hmem, hf, hissued⟩
  others c value hop := by
    -- a token that is foreign stays so: the new call of the tab has another number
    have stays : ∀ value, w.Foreign env value →
        World.Foreign env { w with server := server, calls := calls, logins := logins } value := by
      intro value hforeign call hhash
      obtain ⟨hlt, hown⟩ := hforeign call hhash
      have hlen : w.server.ops.length ≤ server.ops.length := by
        rcases (next_onto hn).1 with hops | ⟨op, -, hops⟩
        · exact Nat.le_of_eq (congrArg List.length hops).symm
        · rw [hops, List.length_append]
          omega
      refine ⟨Nat.lt_of_lt_of_le hlt hlen, fun hnow => hown ?_⟩
      rcases hnow with hnow | hnow
      · rcases hlogins call hnow with hold | ⟨rfl, -⟩
        · exact .inl hold
        · exact absurd hlt (Nat.lt_irrefl _)
      · obtain ⟨⟨k, c⟩, hmem, rfl⟩ := List.mem_map.1 hnow
        rcases hcalls k c hmem with hold | ⟨rfl, -⟩
        · exact .inr (List.mem_map.2 ⟨_, hold, rfl⟩)
        · exact absurd hlt (Nat.lt_irrefl _)
    have old : w.server.ops[c]? = some (.refreshTokens value) → c ∈ calls.map Prod.snd ∨
        World.Foreign env { w with server := server, calls := calls, logins := logins } value := by
      intro hop
      rcases h.others c value hop with hmine | hforeign
      · obtain ⟨p, hmem, rfl⟩ := List.mem_map.1 hmine
        exact .inl (List.mem_map.2 ⟨p, hsub hmem, rfl⟩)
      · exact .inr (stays value hforeign)
    rcases (next_onto hn).1 with hops | ⟨op, rfl, hops⟩
    · exact old (hops ▸ hop)
    · rw [hops] at hop
      rcases Nat.lt_or_ge c w.server.ops.length with hlt | hge
      · rw [List.getElem?_append_left hlt] at hop
        exact old hop
      · have hc : c = w.server.ops.length := by
          have hlt := (List.getElem?_eq_some_iff.1 hop).1
          rw [List.length_append, List.length_singleton] at hlt
          omega
        subst hc
        rw [List.getElem?_append_right hge, Nat.sub_self] at hop
        cases hop
        rcases hothers value rfl with hmine | hforeign
        · exact .inl hmine
        · exact .inr (stays value hforeign)

/-- The answer to a refresh gives the token that its call has stored. -/
theorem World.Inv.answer (h : w.Inv env d₀) {k c : Nat} (hmem : (k, c) ∈ w.calls)
    {r : Except AuthError Result} (hcall : w.server.call c = .done r) {tab : Tab}
    (hn : w.tab.step (.landed k (answered r)) = some tab) :
    World.Inv env d₀ { w with tab := tab } := by
  have hopen : ∃ v, w.tab.flights[k]? = some ⟨v, none⟩ ∧
      tab.flights[k]? = some ⟨v, some (answered r)⟩ := by
    cases Tab.step_does hn with
    | landed o hk => exact ⟨_, hk, List.getElem?_set_self (List.getElem?_eq_some_iff.1 hk).1⟩
  obtain ⟨v, hk, hk'⟩ := hopen
  have hnew : ¬ w.Given c := by
    obtain ⟨f, hf, hop⟩ := h.calls k c hmem
    rintro (hgiven | ⟨k', f', data, hmem', hf', hissued⟩)
    · obtain ⟨dto, hlogin⟩ := h.logins c (h.signedIn c hgiven)
      rw [hlogin] at hop
      cases hop
    · obtain rfl := h.oneFlight k k' c hmem hmem'
      cases hk.symm.trans hf'
      cases hissued
  have tokens : ∀ value, Tab.Event.Gives (.landed k (answered r)) value →
      ∃ data : AuthTokens, data.refreshToken = value ∧ r = .ok (.tokens data) := by
    rintro value ⟨data, hvalue, he | ⟨k', he⟩⟩
    · cases he
    · refine ⟨data, hvalue, ?_⟩
      injection he with _ hr
      unfold answered at hr
      split at hr
      · cases hr
        rfl
      · cases hr
      · cases hr
  refine h.onTab hn (List.Subset.refl _) h.signedIn (fun value hgives => ?_) fun value hgives => ?_
  · obtain ⟨data, rfl, rfl⟩ := tokens value hgives
    exact h.unknown hcall rfl hnew
  · obtain ⟨data, rfl, rfl⟩ := tokens value hgives
    obtain ⟨user, mfa, now, hpub, rfl⟩ :=
      Auth.session_delivered (Auth.anyRun_kept h.server) hcall rfl
    exact ⟨c, .inr ⟨k, _, _, hmem, hk', rfl⟩, rfl, _, rfl, hpub⟩

/-- So does the answer to a login. -/
theorem World.Inv.signIn (h : w.Inv env d₀) {c : Nat} (hmem : c ∈ w.logins)
    (hfirst : c ∉ w.signedIn) {data : AuthTokens}
    (hcall : w.server.call c = .done (.ok (.login (.tokens data)))) {tab : Tab}
    (hn : w.tab.step (.signedIn data) = some tab) :
    World.Inv env d₀ { w with tab := tab, signedIn := w.signedIn ++ [c] } := by
  have hnew : ¬ w.Given c := by
    rintro (hgiven | ⟨k, f, data, hmem', -⟩)
    · exact hfirst hgiven
    · obtain ⟨f, hf, hop⟩ := h.calls k c hmem'
      obtain ⟨dto, hlogin⟩ := h.logins c hmem
      rw [hlogin] at hop
      cases hop
  have tokens : ∀ value, Tab.Event.Gives (.signedIn data) value → value = data.refreshToken := by
    rintro value ⟨data', hvalue, he | ⟨k', he⟩⟩
    · cases he
      exact hvalue.symm
    · cases he
  refine h.onTab hn (List.subset_append_left _ _) (fun c' hc' => ?_) (fun value hgives => ?_)
    fun value hgives => ?_
  · rcases List.mem_append.1 hc' with hc' | hc'
    · exact h.signedIn c' hc'
    · rcases List.mem_singleton.1 hc' with rfl
      exact hmem
  · obtain rfl := tokens value hgives
    exact h.unknown hcall rfl hnew
  · obtain rfl := tokens value hgives
    obtain ⟨user, mfa, now, hpub, rfl⟩ :=
      Auth.session_delivered (Auth.anyRun_kept h.server) hcall rfl
    exact ⟨c, .inl (List.mem_append_right _ (List.mem_singleton.2 rfl)), rfl, _, rfl, hpub⟩

theorem World.Inv.next {w' : World} {m : Move} (h : w.Inv env d₀) (hallowed : w.Allowed env m)
    (hn : w.next env m = some w') : w'.Inv env d₀ := by
  have old : ∀ k c, (k, c) ∈ w.calls → c = w.server.ops.length → False := by
    rintro k c hmem rfl
    obtain ⟨f, -, hop⟩ := h.calls k _ hmem
    exact absurd (List.getElem?_eq_some_iff.1 hop).1 (Nat.lt_irrefl _)
  cases m with
  | tab e =>
    obtain ⟨tab, htab, rfl⟩ := Option.map_eq_some_iff.1 hn
    exact h.onTab htab (List.Subset.refl _) h.signedIn
      (fun value hgives => absurd hgives (Tab.Event.own_gives hallowed))
      fun value hgives => absurd hgives (Tab.Event.own_gives hallowed)
  | server l =>
    obtain ⟨server, hserver, rfl⟩ := Option.map_eq_some_iff.1 hn
    refine h.onServer hserver (fun k c hmem => .inl hmem)
      (fun k k' c hmem _ hc => (old k c hmem hc).elim) (fun c hc => .inl hc) (List.Subset.refl _)
      (List.Subset.refl _) ?_
    rintro value rfl
    exact .inr (hallowed value rfl)
  | reach k =>
    simp only [World.next] at hn
    split at hn
    · next f hf =>
      split at hn
      · cases hn
      · next hfree =>
        obtain ⟨server, hserver, rfl⟩ := Option.map_eq_some_iff.1 hn
        have hfresh : ∀ c, (k, c) ∉ w.calls := fun c hmem => hfree (List.mem_map.2 ⟨_, hmem, rfl⟩)
        refine h.onServer hserver (fun k' c hmem => ?_) (fun k₁ k₂ c hmem₁ hmem₂ hc => ?_)
          (fun c hc => .inl hc) (List.subset_append_left _ _) (List.Subset.refl _) ?_
        · rcases List.mem_append.1 hmem with hmem | hmem
          · exact .inl hmem
          · cases List.mem_singleton.1 hmem
            exact .inr ⟨rfl, hfresh, f, hf, rfl⟩
        · rcases List.mem_append.1 hmem₁ with hold | hnew₁
          · exact (old _ _ hold hc).elim
          · rcases List.mem_append.1 hmem₂ with hold | hnew₂
            · exact (old _ _ hold hc).elim
            · cases List.mem_singleton.1 hnew₁
              cases List.mem_singleton.1 hnew₂
              rfl
        · intro value _
          exact .inl (by simp)
    · cases hn
  | answer k =>
    simp only [World.next] at hn
    split at hn
    · next c hfind =>
      split at hn
      · next r hcall =>
        obtain ⟨tab, htab, rfl⟩ := Option.map_eq_some_iff.1 hn
        have hmem := List.mem_of_find?_eq_some hfind
        have hkey : c.1 = k := by simpa using List.find?_some hfind
        exact h.answer (hkey ▸ hmem) (result?_some hcall) htab
      · cases hn
    · cases hn
  | login dto =>
    simp only [World.next] at hn
    obtain ⟨server, hserver, rfl⟩ := Option.map_eq_some_iff.1 hn
    refine h.onServer hserver (fun k c hmem => .inl hmem)
      (fun k k' c hmem _ hc => (old k c hmem hc).elim) (fun c hc => ?_) (List.Subset.refl _)
      (List.subset_append_left _ _) ?_
    · rcases List.mem_append.1 hc with hc | hc
      · exact .inl hc
      · exact .inr ⟨List.mem_singleton.1 hc, dto, rfl⟩
    · intro value hl
      cases hl
  | signIn c =>
    simp only [World.next] at hn
    split at hn
    · next hlogin =>
      split at hn
      · next data hcall =>
        obtain ⟨r, hr, hdata⟩ := Option.bind_eq_some_iff.1 hcall
        obtain ⟨tab, htab, rfl⟩ := Option.map_eq_some_iff.1 hn
        obtain rfl := loggedIn_some hdata
        exact h.signIn hlogin.1 hlogin.2 (result?_some hr) htab
      · cases hn
    · cases hn

theorem World.Run.inv {now : Time} (h : World.Run env d₀ now w) : w.Inv env d₀ :=
  Machine.Run.keeps h (.init d₀ now) fun hinv hallowed hn => hinv.next hallowed hn

/-! ## The theorem -/

/-- The token was not stored at the start. -/
theorem World.Source.new (h : w.Inv env d₀) {c : Nat} {value : String} (hs : w.Source env c value) :
    d₀.tokenByHash (hashToken env value) = none := by
  obtain ⟨-, -, t, hhash, hpub⟩ := hs
  obtain ⟨l, r, hlog⟩ := List.append_of_mem hpub
  have hk := Auth.anyRun_kept h.server
  obtain ⟨-, op, -, hl, hguar⟩ := hk.log hlog
  obtain ⟨-, -, hfree, -⟩ := hguar.issue t (by simp)
  rw [← hhash]
  cases h₀ : d₀.tokenByHash t.tokenHash with
  | none => rfl
  | some t₀ =>
    obtain ⟨t₁, h₁, -⟩ := Auth.ProperLog.hash_stays hl List.nil_prefix h₀
    rw [h₁] at hfree
    cases hfree

/-- Another call has revoked all tokens of the user: it has set a new password, or was shown a token
that was revoked before. -/
def RevokedBy (env : Environment) (d₀ : Db) (s : RunState) (userId : Id) (call : Nat) : Prop :=
  Published call s.log (.revokeAllUserTokens userId) ∧
    ((∃ token newPassword, s.ops[call]? = some (.resetPassword token newPassword)) ∨
      ∃ value, s.ops[call]? = some (.refreshTokens value) ∧ Auth.Spent env d₀ s.log value)

theorem revokedBy {s : RunState} (h : (Auth.system env).Reachable d₀ s) {g : Txn.Group Auth.Write}
    (hg : g ∈ s.log) {userId : Id} (hw : .revokeAllUserTokens userId ∈ g.writes) :
    RevokedBy env d₀ s userId g.call := by
  have hk := Auth.anyRun_kept h
  obtain ⟨l, r, hlog⟩ := List.append_of_mem hg
  obtain ⟨htx, op, hop, -, hguar⟩ := hk.log hlog
  obtain ⟨hws, hcause⟩ := hguar.revoke userId hw
  refine ⟨?_, ?_⟩
  · obtain ⟨call, viaTx, writes⟩ := g
    cases htx
    cases hws
    exact hg
  · cases op with
    | resetPassword token newPassword => exact .inl ⟨token, newPassword, hop⟩
    | refreshTokens value =>
      obtain ⟨-, op', hop', -, -, hread⟩ := (Auth.spending_kept h).log hlog
      cases hop.symm.trans hop'
      obtain ⟨m, hm, hspent⟩ := hread userId hw value rfl
      have hl : m <+: s.log := hm.trans (hlog ▸ List.prefix_append _ _)
      exact .inr ⟨value, hop, (Auth.kept_properLog hk List.prefix_rfl).spent_stays hl hspent⟩
    | _ => exact hcause.elim

end

/-- Moves that are allowed in every state. -/
def Move.harmless : Move → Bool
  | .tab e => e.own
  | .server (.spawn _) => false
  | _ => true

theorem World.run_of_harmless {env : Environment} {d₀ : Db} {now : Time} {ms : List Move}
    {w : World}
    (h : Machine.runLabels (World.next env) (fun _ m => m.harmless) (World.init d₀ now) ms =
      some w) : World.Run env d₀ now w := by
  refine (Machine.run_of_labels h).mono fun w m hm => ?_
  cases m with
  | tab e => exact hm
  | server l =>
    cases l with
    | spawn op => cases hm
    | _ => trivial
  | _ => trivial

/-- The answer to a refresh is lost, and the tab presents its token again. -/
def lostAnswer : List Move :=
  [.login ⟨"a@b.c", "pw"⟩] ++ List.replicate 5 (.server (.step 0)) ++
    [.signIn 0, .tab (.tick 900000), .tab (.request "/api/v1/auth/me"), .reach 0] ++
    List.replicate 7 (.server (.step 1)) ++
    [.tab (.landed 0 .failed), .tab .settled, .tab (.request "/api/v1/auth/me"), .reach 1] ++
    List.replicate 3 (.server (.step 2)) ++ [.answer 1]

/-- The error that the call has ended with. -/
def refusal (s : RunState) (call : Nat) : Option AuthError :=
  match result? s call with
  | some (.error e) => some e
  | some (.ok _) => none
  | none => none

theorem refusal_some {s : RunState} {call : Nat} {e : AuthError} (h : refusal s call = some e) :
    s.call call = .done (.error e) := by
  unfold refusal at h
  split at h
  · next e' he =>
    cases h
    exact result?_some he
  · cases h
  · cases h

end JobBoard.Client
