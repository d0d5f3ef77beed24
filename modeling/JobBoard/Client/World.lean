import JobBoard.Auth.Spending
import JobBoard.Client.Tab

/-!
# A tab and the server

A tab of the browser against the accounts of the server, which serves other clients as well: the
requests of the tab reach it late or not at all, and its answers can be lost. A reuse that the
server detects in a session of the tab goes back to a lost answer, or to another client that has
revoked the tokens of the user (`reuse_explained`).
-/

set_option autoImplicit false

namespace JobBoard.Client

open Txn
open Auth (Environment RunState Db AuthError Result LoginDto RefreshToken AuthTokens Published)

structure World where
  tab : Tab
  server : RunState
  /-- The flights that have reached the server, with its calls for them. -/
  calls : List (Nat × Nat)
  /-- The calls of the server for the logins of the tab. -/
  logins : List Nat
  /-- Those that the tab has the answer to. -/
  signedIn : List Nat

inductive Move where
  | tab (e : Tab.Event)
  | server (l : Auth.Step)
  /-- The request of the flight reaches the server. -/
  | reach (flight : Nat)
  /-- The answer of the server reaches the tab. -/
  | answer (flight : Nat)
  | login (dto : LoginDto)
  | signIn (call : Nat)

/-- What a call of the server has ended with. -/
def result? (s : RunState) (call : Nat) : Option (Except AuthError Result) :=
  match s.call call with
  | .done r => some r
  | .run _ _ => none
  | .idle => none

theorem result?_some {s : RunState} {call : Nat} {r : Except AuthError Result}
    (h : result? s call = some r) : s.call call = .done r := by
  unfold result? at h
  split at h
  · next r' hr =>
    cases h
    exact hr
  · cases h
  · cases h

/-- What `performRefresh` makes of the answer to its request. -/
def answered : Except AuthError Result → Outcome
  | .ok (.tokens data) => .issued data
  | .ok _ => .refused
  | .error _ => .refused

/-- The tokens that a login is answered with. -/
def loggedIn : Except AuthError Result → Option AuthTokens
  | .ok (.login (.tokens data)) => some data
  | .ok _ => none
  | .error _ => none

theorem loggedIn_some {r : Except AuthError Result} {data : AuthTokens}
    (h : loggedIn r = some data) : r = .ok (.login (.tokens data)) := by
  unfold loggedIn at h
  split at h
  · cases h
    rfl
  · cases h
  · cases h

/-- The event does not come from the server. -/
def Tab.Event.own : Tab.Event → Bool
  | .landed _ outcome => outcome = .failed
  | .signedIn _ => false
  | _ => true

namespace World

def init (d₀ : Db) (now : Time) : World := ⟨.init now, .init d₀, [], [], []⟩

/-- A call of the tab. -/
def Own (w : World) (call : Nat) : Prop := call ∈ w.logins ∨ call ∈ w.calls.map Prod.snd

section

variable (env : Environment)

def next (w : World) : Move → Option World
  | .tab e => (w.tab.step e).map fun tab => { w with tab := tab }
  | .server l => ((Auth.system env).next w.server l).map fun server => { w with server := server }
  | .reach flight =>
    match w.tab.flights[flight]? with
    | some f =>
      if flight ∈ w.calls.map Prod.fst then none
      else
        ((Auth.system env).next w.server (.spawn (.refreshTokens f.refreshToken))).map fun server =>
          { w with server := server, calls := w.calls ++ [(flight, w.server.ops.length)] }
    | none => none
  | .answer flight =>
    match w.calls.find? fun c => c.1 == flight with
    | some c =>
      match result? w.server c.2 with
      | some r => (w.tab.step (.landed flight (answered r))).map fun tab => { w with tab := tab }
      | none => none
    | none => none
  | .login dto =>
    ((Auth.system env).next w.server (.spawn (.login dto))).map fun server =>
      { w with server := server, logins := w.logins ++ [w.server.ops.length] }
  | .signIn call =>
    if call ∈ w.logins ∧ call ∉ w.signedIn then
      match (result? w.server call).bind loggedIn with
      | some data =>
        (w.tab.step (.signedIn data)).map fun tab =>
          { w with tab := tab, signedIn := w.signedIn ++ [call] }
      | none => none
    else none

/-- The token is not one that the tab has been given, or could be. -/
def Foreign (w : World) (value : String) : Prop :=
  ∀ call, Auth.AuthService.hashToken env value =
      Auth.AuthService.hashToken env (env.randomBytes call 0) →
    call < w.server.ops.length ∧ ¬ w.Own call

/-- Other clients do not present the tokens of the tab. -/
def Allowed (w : World) : Move → Prop
  | .tab e => e.own = true
  | .server (.spawn op) => ∀ value, op = .refreshTokens value → w.Foreign env value
  | _ => True

abbrev Run (d₀ : Db) (now : Time) : World → Prop :=
  Machine.Run (next env) (Allowed env) (init d₀ now)

end

/-- The answer of the call has reached the tab, with tokens. -/
def Given (w : World) (call : Nat) : Prop :=
  call ∈ w.signedIn ∨ ∃ k f data, (k, call) ∈ w.calls ∧ w.tab.flights[k]? = some f ∧
    f.outcome = some (.issued data)

end World

/-- The tab keeps the refresh token, or has presented it. -/
def Tab.Holds (tab : Tab) (value : String) : Prop :=
  tab.refreshToken = some value ∨ ∃ f ∈ tab.flights, f.refreshToken = value

/-- The event brings the refresh token. -/
def Tab.Event.Gives (e : Tab.Event) (value : String) : Prop :=
  ∃ data : AuthTokens, data.refreshToken = value ∧
    (e = .signedIn data ∨ ∃ k, e = .landed k (.issued data))

/-! ## Steps of the tab -/

section

variable {tab tab' : Tab} {e : Tab.Event}

theorem Tab.Event.own_gives {value : String} (h : e.own = true) : ¬ e.Gives value := by
  rintro ⟨data, -, rfl | ⟨k, rfl⟩⟩
  · cases h
  · cases h

/-- The flights stay, with their tokens, and those that have landed as they are. -/
theorem Tab.step_flights (hn : tab.step e = some tab') {k : Nat} {f : Flight}
    (h : tab.flights[k]? = some f) : ∃ f', tab'.flights[k]? = some f' ∧
      f'.refreshToken = f.refreshToken ∧ (f.outcome.isSome = true → f' = f) := by
  have same : tab'.flights = tab.flights → ∃ f', tab'.flights[k]? = some f' ∧
      f'.refreshToken = f.refreshToken ∧ (f.outcome.isSome = true → f' = f) :=
    fun hsame => ⟨f, hsame ▸ h, rfl, fun _ => rfl⟩
  cases Tab.step_does hn with
  | request schemaPath =>
    rcases tab.request_cases schemaPath with ⟨stage, heq, -⟩ | ⟨v, -, -, heq⟩
    · exact same (by rw [heq])
    · refine ⟨f, ?_, rfl, fun _ => rfl⟩
      rw [heq]
      exact (List.getElem?_append_left (List.getElem?_eq_some_iff.1 h).1).trans h
  | @landed j v o hj =>
    by_cases hjk : j = k
    · subst hjk
      cases h.symm.trans hj
      exact ⟨_, List.getElem?_set_self (List.getElem?_eq_some_iff.1 hj).1, rfl,
        fun hsome => by cases hsome⟩
    · exact ⟨f, (List.getElem?_set_ne hjk).trans h, rfl, fun _ => rfl⟩
  | response status hi =>
    refine same ?_
    unfold Tab.onResponse
    split <;> rfl
  | _ => exact same rfl

/-- A tab gets its tokens from logins and refreshes. -/
theorem Tab.step_holds (hn : tab.step e = some tab') {value : String} (h : tab'.Holds value) :
    tab.Holds value ∨ e.Gives value := by
  have same : ∀ tab' : Tab, tab'.Holds value → tab'.flights = tab.flights →
      (tab'.refreshToken = tab.refreshToken ∨ tab'.refreshToken = none) → tab.Holds value := by
    intro tab' h hflights htoken
    rcases h with h | ⟨f, hf, hvalue⟩
    · rcases htoken with htoken | htoken
      · exact .inl (htoken ▸ h)
      · rw [htoken] at h
        cases h
    · exact .inr ⟨f, hflights ▸ hf, hvalue⟩
  cases Tab.step_does hn with
  | request schemaPath =>
    rcases tab.request_cases schemaPath with ⟨stage, heq, -⟩ | ⟨v, hstored, -, heq⟩
    · rw [heq] at h
      exact .inl h
    · rw [heq] at h
      rcases h with h | ⟨f, hf, hvalue⟩
      · exact .inl (.inl h)
      · rcases List.mem_append.1 hf with hf | hf
        · exact .inl (.inr ⟨f, hf, hvalue⟩)
        · rcases List.mem_singleton.1 hf with rfl
          exact .inl (.inl (hstored.trans (congrArg some hvalue)))
  | @landed j v o hj =>
    rcases h with h | ⟨f, hf, hvalue⟩
    · cases o with
      | issued data =>
        cases h
        exact .inr ⟨data, rfl, .inr ⟨j, rfl⟩⟩
      | refused => cases h
      | failed => exact .inl (.inl h)
    · rcases List.mem_or_eq_of_mem_set hf with hf | rfl
      · exact .inl (.inr ⟨f, hf, hvalue⟩)
      · exact .inl (.inr ⟨_, List.mem_of_getElem? hj, hvalue⟩)
  | response status hi =>
    unfold Tab.onResponse at h
    split at h
    · exact .inl (same tab.clearAllTokens h rfl (.inr rfl))
    · exact .inl (same tab h rfl (.inl rfl))
  | signedIn data =>
    rcases h with h | ⟨f, hf, hvalue⟩
    · cases h
      exact .inr ⟨data, rfl, .inl rfl⟩
    · exact .inl (.inr ⟨f, hf, hvalue⟩)
  | signedOut => exact .inl (same _ h rfl (.inr rfl))
  | _ => exact .inl (same _ h rfl (.inl rfl))

end

end JobBoard.Client
