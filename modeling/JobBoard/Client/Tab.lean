import JobBoard.Auth.System
import JobBoard.Lib.Machine

/-!
# The session of a browser tab

`token-store.ts` and `api-middleware.ts` of the frontend: where a tab keeps its tokens, and what a
request waits for before it is sent. The answers of the server, the callbacks of promises and what
the user does come in any order. A flight is one run of `performRefresh`.
-/

set_option autoImplicit false

namespace JobBoard.Client

open Auth (Jwt AuthTokens)

def REFRESH_BUFFER_MS : Int := 10000

def SKIP_AUTH_SCHEMA_PATHS : List String :=
  ["/api/v1/auth/login", "/api/v1/auth/register", "/api/v1/auth/refresh",
    "/api/v1/auth/verify-email"]

/-- How the request of `performRefresh` ends. -/
inductive Outcome where
  | issued (data : AuthTokens)
  /-- `error || !data`. -/
  | refused
  /-- The request itself rejects. -/
  | failed
  deriving DecidableEq, Repr

structure Flight where
  refreshToken : String
  outcome : Option Outcome
  deriving DecidableEq, Repr

inductive Stage where
  /-- Awaits the promise of a flight. -/
  | waiting (flight : Nat)
  | sent (bearer : Option Jwt)
  | rejected
  | answered (bearer : Option Jwt) (status : Nat)
  deriving DecidableEq, Repr

/-- What the promise of a flight gives to those who await it. -/
def Outcome.stage : Outcome → Stage
  | .issued data => .sent (some data.accessToken)
  | .refused => .sent none
  | .failed => .rejected

structure Request where
  schemaPath : String
  startedAt : Time
  stage : Stage
  deriving DecidableEq, Repr

structure Tab where
  now : Time
  accessToken : Option Jwt
  accessTokenExpiresAt : Int
  /-- In the `sessionStorage`. -/
  refreshToken : Option String
  /-- The flight whose promise is in `refreshPromise`. -/
  refreshPromise : Option Nat
  flights : List Flight
  requests : List Request
  deriving DecidableEq, Repr

/-- The `exp` of a token that the server has signed. -/
def decodeJwtExpiryMs (token : Jwt) : Int := token.exp * 1000

namespace Tab

def init (now : Time) : Tab := ⟨now, none, 0, none, none, [], []⟩

/-! ## token-store.ts -/

def setAccessToken (tab : Tab) (token : Jwt) : Tab :=
  { tab with accessToken := some token, accessTokenExpiresAt := decodeJwtExpiryMs token }

def setRefreshToken (tab : Tab) (token : String) : Tab := { tab with refreshToken := some token }

def clearAllTokens (tab : Tab) : Tab :=
  { tab with accessToken := none, accessTokenExpiresAt := 0, refreshToken := none }

/-! ## api-middleware.ts -/

/-- What the request awaits or is sent with; a new flight is one more element of `flights`. -/
def ensureFreshAccessToken (tab : Tab) : Tab × Stage :=
  match tab.accessToken.filter fun _ => tab.now < tab.accessTokenExpiresAt - REFRESH_BUFFER_MS with
  | some token => (tab, .sent (some token))
  | none =>
    match tab.refreshToken with
    | none => (tab, .sent none)
    | some refreshToken =>
      match tab.refreshPromise with
      | some flight => (tab, .waiting flight)
      | none =>
        ({ tab with
          refreshPromise := some tab.flights.length
          flights := tab.flights ++ [⟨refreshToken, none⟩] },
          .waiting tab.flights.length)

def onRequest (tab : Tab) (schemaPath : String) : Tab :=
  let r := if schemaPath ∈ SKIP_AUTH_SCHEMA_PATHS then (tab, .sent none)
    else tab.ensureFreshAccessToken
  { r.1 with requests := tab.requests ++ [⟨schemaPath, tab.now, r.2⟩] }

/-- `performRefresh` after its request. -/
def performRefresh (tab : Tab) : Outcome → Tab
  | .issued data => (tab.setAccessToken data.accessToken).setRefreshToken data.refreshToken
  | .refused => tab.clearAllTokens
  | .failed => tab

def onResponse (tab : Tab) (schemaPath : String) (status : Nat) : Tab :=
  if status = 401 ∧ schemaPath ∉ SKIP_AUTH_SCHEMA_PATHS then tab.clearAllTokens else tab

/-! ## The tab -/

inductive Event where
  | tick (ms : Nat)
  | request (schemaPath : String)
  /-- The request of the flight has ended. -/
  | landed (flight : Nat) (outcome : Outcome)
  /-- The callback of `finally`. -/
  | settled
  /-- The request goes on after the promise it awaits has settled. -/
  | resumed (request : Nat)
  | response (request : Nat) (status : Nat)
  /-- A login has succeeded. -/
  | signedIn (data : AuthTokens)
  /-- A logout, or a login whose user cannot be read. -/
  | signedOut
  deriving DecidableEq, Repr

def step (tab : Tab) : Event → Option Tab
  | .tick ms => some { tab with now := tab.now + ms }
  | .request schemaPath => some (tab.onRequest schemaPath)
  | .landed flight outcome =>
    match tab.flights[flight]? with
    | some ⟨refreshToken, none⟩ =>
      some { tab.performRefresh outcome with
        flights := tab.flights.set flight ⟨refreshToken, some outcome⟩ }
    | _ => none
  | .settled =>
    match tab.refreshPromise.bind fun flight => tab.flights[flight]? with
    | some ⟨_, some _⟩ => some { tab with refreshPromise := none }
    | _ => none
  | .resumed request =>
    match tab.requests[request]? with
    | some ⟨schemaPath, startedAt, .waiting flight⟩ =>
      if tab.refreshPromise = some flight then none
      else
        match tab.flights[flight]? with
        | some ⟨_, some outcome⟩ =>
          some { tab with
            requests := tab.requests.set request ⟨schemaPath, startedAt, outcome.stage⟩ }
        | _ => none
    | _ => none
  | .response request status =>
    match tab.requests[request]? with
    | some ⟨schemaPath, startedAt, .sent bearer⟩ =>
      some { tab.onResponse schemaPath status with
        requests := tab.requests.set request ⟨schemaPath, startedAt, .answered bearer status⟩ }
    | _ => none
  | .signedIn data =>
    some ((tab.setAccessToken data.accessToken).setRefreshToken data.refreshToken)
  | .signedOut => some tab.clearAllTokens

end Tab

/-! ## One refresh at a time -/

/-- The token with which the request was sent. -/
def Request.bearer (r : Request) : Option Jwt :=
  match r.stage with
  | .sent bearer | .answered bearer _ => bearer
  | _ => none

/-- The token could be used for a while when the request started, or the refresh that it waited
for has issued it. -/
def Tab.Usable (tab : Tab) (startedAt : Time) (token : Jwt) : Prop :=
  startedAt < decodeJwtExpiryMs token - REFRESH_BUFFER_MS ∨
    ∃ f ∈ tab.flights, ∃ data, f.outcome = some (.issued data) ∧ data.accessToken = token

/-- What holds of a tab in every order of the events. -/
structure Tab.Inv (tab : Tab) : Prop where
  /-- A flight that has not landed is the one of `refreshPromise`. -/
  one : ∀ k f, tab.flights[k]? = some f → f.outcome = none → tab.refreshPromise = some k
  promise : ∀ k, tab.refreshPromise = some k → k < tab.flights.length
  waits : ∀ r ∈ tab.requests, ∀ k, r.stage = .waiting k → k < tab.flights.length
  expires : ∀ token, tab.accessToken = some token →
    tab.accessTokenExpiresAt = decodeJwtExpiryMs token
  usable : ∀ r ∈ tab.requests, ∀ token, r.bearer = some token → tab.Usable r.startedAt token

/-- The event brings no refresh token that the tab has presented. -/
def Tab.brings (tab : Tab) : Event → Bool
  | .landed _ (.issued data) | .signedIn data =>
    tab.flights.all fun f => f.refreshToken ≠ data.refreshToken
  | _ => true

/-- The refresh tokens that the tab has presented, and the one that it keeps. -/
structure Tab.Presented (tab : Tab) : Prop where
  kept : ∀ v, tab.refreshToken = some v → ∀ f ∈ tab.flights, f.refreshToken = v →
    f.outcome = none ∨ f.outcome = some .failed
  again : ∀ (i j : Nat) (f g : Flight), i < j → tab.flights[i]? = some f →
    tab.flights[j]? = some g → f.refreshToken = g.refreshToken → f.outcome = some .failed

/-- What `step` does, with what it finds. -/
inductive Tab.Does (tab : Tab) : Tab.Event → Tab → Prop
  | tick (ms : Nat) : Does tab (.tick ms) { tab with now := tab.now + ms }
  | request (schemaPath : String) : Does tab (.request schemaPath) (tab.onRequest schemaPath)
  | landed {k : Nat} {v : String} (o : Outcome) (hk : tab.flights[k]? = some ⟨v, none⟩) :
      Does tab (.landed k o)
        { tab.performRefresh o with flights := tab.flights.set k ⟨v, some o⟩ }
  | settled {k : Nat} {v : String} {o : Outcome} (hpromise : tab.refreshPromise = some k)
      (hk : tab.flights[k]? = some ⟨v, some o⟩) :
      Does tab .settled { tab with refreshPromise := none }
  | resumed {i k : Nat} {schemaPath v : String} {startedAt : Time} {o : Outcome}
      (hi : tab.requests[i]? = some ⟨schemaPath, startedAt, .waiting k⟩)
      (hk : tab.flights[k]? = some ⟨v, some o⟩) :
      Does tab (.resumed i)
        { tab with requests := tab.requests.set i ⟨schemaPath, startedAt, o.stage⟩ }
  | response {i : Nat} {schemaPath : String} {startedAt : Time} {bearer : Option Jwt} (status : Nat)
      (hi : tab.requests[i]? = some ⟨schemaPath, startedAt, .sent bearer⟩) :
      Does tab (.response i status)
        { tab.onResponse schemaPath status with
          requests := tab.requests.set i ⟨schemaPath, startedAt, .answered bearer status⟩ }
  | signedIn (data : AuthTokens) :
      Does tab (.signedIn data)
        ((tab.setAccessToken data.accessToken).setRefreshToken data.refreshToken)
  | signedOut : Does tab .signedOut tab.clearAllTokens

section

variable {tab tab' : Tab}

theorem Tab.step_does {e : Tab.Event} (hn : tab.step e = some tab') : tab.Does e tab' := by
  cases e with
  | landed k o =>
    simp only [Tab.step] at hn
    split at hn
    · next v hk =>
      cases hn
      exact .landed o hk
    · cases hn
  | settled =>
    simp only [Tab.step] at hn
    split at hn
    · next hlanded =>
      cases hn
      obtain ⟨k, hpromise, hk⟩ := Option.bind_eq_some_iff.1 hlanded
      exact .settled hpromise hk
    · cases hn
  | resumed i =>
    simp only [Tab.step] at hn
    split at hn
    · next hi =>
      split at hn
      · cases hn
      · split at hn
        · next hk =>
          cases hn
          exact .resumed hi hk
        · cases hn
    · cases hn
  | response i status =>
    simp only [Tab.step] at hn
    split at hn
    · next hi =>
      cases hn
      exact .response status hi
    · cases hn
  | _ =>
    cases hn
    constructor

/-- A new flight starts only when the others have landed. -/
theorem Tab.ensureFresh_cases (tab : Tab) :
    (tab.ensureFreshAccessToken.1 = tab ∧
      ((∃ token, tab.accessToken = some token ∧
          tab.now < tab.accessTokenExpiresAt - REFRESH_BUFFER_MS ∧
            tab.ensureFreshAccessToken.2 = .sent (some token)) ∨
        tab.ensureFreshAccessToken.2 = .sent none ∨
        ∃ k, tab.refreshPromise = some k ∧ tab.ensureFreshAccessToken.2 = .waiting k)) ∨
    ∃ refreshToken, tab.refreshToken = some refreshToken ∧ tab.refreshPromise = none ∧
      tab.ensureFreshAccessToken = ({ tab with
        refreshPromise := some tab.flights.length
        flights := tab.flights ++ [⟨refreshToken, none⟩] }, .waiting tab.flights.length) := by
  unfold Tab.ensureFreshAccessToken
  split
  · next token htoken =>
    obtain ⟨hstored, hfresh⟩ := Option.filter_eq_some_iff.1 htoken
    exact .inl ⟨rfl, .inl ⟨token, hstored, by simpa using hfresh, rfl⟩⟩
  · split
    · exact .inl ⟨rfl, .inr (.inl rfl)⟩
    · next refreshToken hstored =>
      split
      · next k hk => exact .inl ⟨rfl, .inr (.inr ⟨k, hk, rfl⟩)⟩
      · next hnone => exact .inr ⟨refreshToken, hstored, hnone, rfl⟩

/-- What a new request does: nothing but start, or start a flight. -/
theorem Tab.request_cases (schemaPath : String) :
    (∃ stage, tab.onRequest schemaPath =
        { tab with requests := tab.requests ++ [⟨schemaPath, tab.now, stage⟩] } ∧
      ((∃ token, tab.accessToken = some token ∧
          tab.now < tab.accessTokenExpiresAt - REFRESH_BUFFER_MS ∧ stage = .sent (some token)) ∨
        stage = .sent none ∨ ∃ k, tab.refreshPromise = some k ∧ stage = .waiting k)) ∨
    ∃ refreshToken, tab.refreshToken = some refreshToken ∧ tab.refreshPromise = none ∧
      tab.onRequest schemaPath = { tab with
        refreshPromise := some tab.flights.length
        flights := tab.flights ++ [⟨refreshToken, none⟩]
        requests := tab.requests ++
          [⟨schemaPath, tab.now, .waiting tab.flights.length⟩] } := by
  unfold Tab.onRequest
  split
  · exact .inl ⟨.sent none, rfl, .inr (.inl rfl)⟩
  · rcases tab.ensureFresh_cases with ⟨hsame, hstage⟩ | ⟨refreshToken, hstored, hnone, heq⟩
    · exact .inl ⟨_, by dsimp only; rw [hsame], hstage⟩
    · exact .inr ⟨refreshToken, hstored, hnone, by rw [heq]⟩

/-- What is known of the flights after one of them has landed. -/
theorem landed_flight {flights : List Flight} {k j : Nat} {v : String} {o : Outcome} {f : Flight}
    (h : (flights.set k ⟨v, some o⟩)[j]? = some f) (hk : flights[k]? = some ⟨v, none⟩) :
    (j = k ∧ f = ⟨v, some o⟩) ∨ (j ≠ k ∧ flights[j]? = some f) := by
  rw [List.getElem?_set] at h
  split at h
  · next hjk =>
    subst hjk
    rw [if_pos (List.getElem?_eq_some_iff.1 hk).1] at h
    exact .inl ⟨rfl, (Option.some.inj h).symm⟩
  · next hjk => exact .inr ⟨fun h' => hjk h'.symm, h⟩

theorem Tab.Usable.mono {startedAt : Time} {token : Jwt} (h : tab.Usable startedAt token)
    (hflights : ∀ f ∈ tab.flights, ∀ data, f.outcome = some (.issued data) → f ∈ tab'.flights) :
    tab'.Usable startedAt token := by
  rcases h with h | ⟨f, hf, data, hdata, htoken⟩
  · exact .inl h
  · exact .inr ⟨f, hflights f hf data hdata, data, hdata, htoken⟩

/-- The flights that have landed are still there after another one has. -/
theorem mem_landed {flights : List Flight} {k : Nat} {v : String} {o : Outcome} {f : Flight}
    (hk : flights[k]? = some ⟨v, none⟩) (hf : f ∈ flights) {data : AuthTokens}
    (hdata : f.outcome = some (.issued data)) : f ∈ flights.set k ⟨v, some o⟩ := by
  obtain ⟨j, hj⟩ := List.mem_iff_getElem?.1 hf
  refine List.mem_iff_getElem?.2 ⟨j, ?_⟩
  rw [List.getElem?_set_ne, hj]
  rintro rfl
  rw [hk] at hj
  cases hj
  cases hdata

theorem Tab.Inv.init (now : Time) : (Tab.init now).Inv := by
  refine ⟨fun _ _ h => ?_, fun _ h => ?_, fun _ h => ?_, fun _ h => ?_, fun _ h => ?_⟩
  all_goals cases h

/-- A tab with other tokens, which are consistent. -/
theorem Tab.Inv.tokens (h : tab.Inv) {accessToken : Option Jwt} {expiresAt : Int}
    {refreshToken : Option String}
    (hexpires : ∀ token, accessToken = some token → expiresAt = decodeJwtExpiryMs token) :
    Tab.Inv { tab with
      accessToken := accessToken
      accessTokenExpiresAt := expiresAt
      refreshToken := refreshToken } :=
  ⟨h.one, h.promise, h.waits, hexpires, h.usable⟩

theorem Tab.Inv.request (h : tab.Inv) (schemaPath : String) : (tab.onRequest schemaPath).Inv := by
  rcases tab.request_cases schemaPath with ⟨stage, heq, hstage⟩ | ⟨v, -, hnone, heq⟩
  · rw [heq]
    refine ⟨h.one, h.promise, fun r hr k hk => ?_, h.expires, fun r hr token htoken => ?_⟩
    · rcases List.mem_append.1 hr with hr | hr
      · exact h.waits r hr k hk
      · rcases List.mem_singleton.1 hr with rfl
        rcases hstage with ⟨token, -, -, rfl⟩ | rfl | ⟨k', hk', rfl⟩
        · cases hk
        · cases hk
        · cases hk
          exact h.promise k hk'
    · rcases List.mem_append.1 hr with hr | hr
      · exact h.usable r hr token htoken
      · rcases List.mem_singleton.1 hr with rfl
        rcases hstage with ⟨token', hstored, hfresh, rfl⟩ | rfl | ⟨k', hk', rfl⟩
        · cases htoken
          rw [h.expires token hstored] at hfresh
          exact .inl hfresh
        · cases htoken
        · cases htoken
  · rw [heq]
    have hlanded : ∀ (k : Nat) (f : Flight), tab.flights[k]? = some f → f.outcome ≠ none := by
      intro k f hk hopen
      have hpromise := h.one k f hk hopen
      rw [hnone] at hpromise
      cases hpromise
    refine ⟨fun k f hk hopen => ?_, fun k hk => ?_, fun r hr k hk => ?_, h.expires,
      fun r hr token htoken => ?_⟩
    · rcases Nat.lt_or_ge k tab.flights.length with hlt | hge
      · rw [List.getElem?_append_left hlt] at hk
        exact absurd hopen (hlanded k f hk)
      · have hlt := (List.getElem?_eq_some_iff.1 hk).1
        rw [List.length_append, List.length_singleton] at hlt
        rw [show k = tab.flights.length by omega]
    · cases hk
      simp
    · rw [List.length_append, List.length_singleton]
      rcases List.mem_append.1 hr with hr | hr
      · have hlt := h.waits r hr k hk
        omega
      · rcases List.mem_singleton.1 hr with rfl
        cases hk
        omega
    · rcases List.mem_append.1 hr with hr | hr
      · exact (h.usable r hr token htoken).mono fun f hf _ _ => List.mem_append_left _ hf
      · rcases List.mem_singleton.1 hr with rfl
        cases htoken

theorem Tab.Inv.landed (h : tab.Inv) {k : Nat} {v : String}
    (hk : tab.flights[k]? = some ⟨v, none⟩) (o : Outcome) :
    Tab.Inv { tab.performRefresh o with flights := tab.flights.set k ⟨v, some o⟩ } := by
  have hflights : Tab.Inv { tab with flights := tab.flights.set k ⟨v, some o⟩ } := by
    refine ⟨fun j f hj hopen => ?_, fun j hj => ?_, fun r hr j hj => ?_, h.expires,
      fun r hr token htoken => ?_⟩
    · rcases landed_flight hj hk with ⟨-, rfl⟩ | ⟨-, hj⟩
      · cases hopen
      · exact h.one j f hj hopen
    · rw [List.length_set]
      exact h.promise j hj
    · rw [List.length_set]
      exact h.waits r hr j hj
    · exact (h.usable r hr token htoken).mono fun f hf _ hdata => mem_landed hk hf hdata
  cases o with
  | issued data =>
    refine hflights.tokens fun token htoken => ?_
    cases htoken
    rfl
  | refused =>
    refine hflights.tokens fun token htoken => ?_
    cases htoken
  | failed => exact hflights

/-- A request goes on. -/
theorem Tab.Inv.goesOn (h : tab.Inv) {i : Nat} {r : Request} (hwaits : ∀ k, r.stage ≠ .waiting k)
    (husable : ∀ token, r.bearer = some token → tab.Usable r.startedAt token) :
    Tab.Inv { tab with requests := tab.requests.set i r } := by
  refine ⟨h.one, h.promise, fun r' hr' k hk => ?_, h.expires, fun r' hr' token htoken => ?_⟩
  · rcases List.mem_or_eq_of_mem_set hr' with hr' | rfl
    · exact h.waits r' hr' k hk
    · exact absurd hk (hwaits k)
  · rcases List.mem_or_eq_of_mem_set hr' with hr' | rfl
    · exact h.usable r' hr' token htoken
    · exact husable token htoken

theorem Tab.Inv.response (h : tab.Inv) {i : Nat} {schemaPath : String} {startedAt : Time}
    {bearer : Option Jwt} (hi : tab.requests[i]? = some ⟨schemaPath, startedAt, .sent bearer⟩)
    (status : Nat) :
    Tab.Inv { tab.onResponse schemaPath status with
      requests := tab.requests.set i ⟨schemaPath, startedAt, .answered bearer status⟩ } := by
  have hstage : Tab.Inv { tab with
      requests := tab.requests.set i ⟨schemaPath, startedAt, .answered bearer status⟩ } :=
    h.goesOn (fun k hk => by cases hk) fun token htoken =>
      h.usable _ (List.mem_of_getElem? hi) token htoken
  unfold Tab.onResponse
  split
  · refine hstage.tokens fun token htoken => ?_
    cases htoken
  · exact hstage

theorem Tab.Inv.resumed (h : tab.Inv) {i k : Nat} {schemaPath v : String} {startedAt : Time}
    {o : Outcome} (hk : tab.flights[k]? = some ⟨v, some o⟩) :
    Tab.Inv { tab with requests := tab.requests.set i ⟨schemaPath, startedAt, o.stage⟩ } := by
  refine h.goesOn (fun j hj => ?_) fun token htoken => ?_
  · cases o <;> cases hj
  · cases o with
    | issued data =>
      cases htoken
      exact .inr ⟨_, List.mem_of_getElem? hk, data, rfl, rfl⟩
    | refused => cases htoken
    | failed => cases htoken

theorem Tab.Inv.settled (h : tab.Inv) {k : Nat} {v : String} {o : Outcome}
    (hpromise : tab.refreshPromise = some k) (hk : tab.flights[k]? = some ⟨v, some o⟩) :
    Tab.Inv { tab with refreshPromise := none } := by
  refine ⟨fun j f hj hopen => ?_, fun j hj => ?_, h.waits, h.expires, h.usable⟩
  · have hsame := h.one j f hj hopen
    rw [hpromise] at hsame
    cases hsame
    rw [hk] at hj
    cases hj
    cases hopen
  · cases hj

theorem Tab.Inv.step {e : Tab.Event} (h : tab.Inv) (hn : tab.step e = some tab') : tab'.Inv := by
  cases Tab.step_does hn with
  | tick ms => exact ⟨h.one, h.promise, h.waits, h.expires, h.usable⟩
  | request schemaPath => exact h.request schemaPath
  | landed o hk => exact h.landed hk o
  | settled hpromise hk => exact h.settled hpromise hk
  | resumed hi hk => exact h.resumed hk
  | response status hi => exact h.response hi status
  | signedIn data =>
    refine h.tokens fun token htoken => ?_
    cases htoken
    rfl
  | signedOut =>
    refine h.tokens fun token htoken => ?_
    cases htoken

/-! ## Tokens that were presented -/

theorem Tab.Presented.init (now : Time) : (Tab.init now).Presented := by
  refine ⟨fun _ h => ?_, fun _ _ _ _ _ h => ?_⟩
  · cases h
  · cases h

/-- The tokens and the requests do not matter, but for the refresh token that is kept. -/
theorem Tab.Presented.congr (h : tab.Presented) (hflights : tab'.flights = tab.flights)
    (hkept : ∀ v, tab'.refreshToken = some v → tab.refreshToken = some v ∨
      ∀ f ∈ tab.flights, f.refreshToken ≠ v) : tab'.Presented := by
  refine ⟨fun v hv f hf hpresented => ?_, fun i j f g hij hi hj hsame => ?_⟩
  · rw [hflights] at hf
    rcases hkept v hv with hv | hnew
    · exact h.kept v hv f hf hpresented
    · exact absurd hpresented (hnew f hf)
  · rw [hflights] at hi hj
    exact h.again i j f g hij hi hj hsame

theorem Tab.Presented.request (h : tab.Presented) (hinv : tab.Inv) (schemaPath : String) :
    (tab.onRequest schemaPath).Presented := by
  rcases tab.request_cases schemaPath with ⟨stage, heq, -⟩ | ⟨v, hstored, hnone, heq⟩
  · rw [heq]
    exact h.congr rfl fun v hv => .inl hv
  · rw [heq]
    refine ⟨fun v' hv' f hf hpresented => ?_, fun i j f g hij hi hj hsame => ?_⟩
    · rcases List.mem_append.1 hf with hf | hf
      · exact h.kept v' hv' f hf hpresented
      · rcases List.mem_singleton.1 hf with rfl
        exact .inl rfl
    · have hlt : i < tab.flights.length := by
        have hj' := (List.getElem?_eq_some_iff.1 hj).1
        rw [List.length_append, List.length_singleton] at hj'
        omega
      rw [List.getElem?_append_left hlt] at hi
      rcases Nat.lt_or_ge j tab.flights.length with hlt' | hge
      · rw [List.getElem?_append_left hlt'] at hj
        exact h.again i j f g hij hi hj hsame
      · rw [List.getElem?_append_right hge] at hj
        obtain ⟨hlast, rfl⟩ := List.getElem?_eq_some_iff.1 hj
        simp only [List.getElem_singleton] at hsame
        rcases h.kept v hstored f (List.mem_of_getElem? hi) hsame with hopen | hfailed
        · have hpromise := hinv.one i f hi hopen
          rw [hnone] at hpromise
          cases hpromise
        · exact hfailed

theorem Tab.Presented.landed (h : tab.Presented) {k : Nat} {v : String}
    (hk : tab.flights[k]? = some ⟨v, none⟩) {o : Outcome}
    (hbrings : tab.brings (.landed k o) = true) :
    Tab.Presented { tab.performRefresh o with flights := tab.flights.set k ⟨v, some o⟩ } := by
  have hagain : ∀ (i j : Nat) (f g : Flight), i < j →
      (tab.flights.set k ⟨v, some o⟩)[i]? = some f →
      (tab.flights.set k ⟨v, some o⟩)[j]? = some g → f.refreshToken = g.refreshToken →
        f.outcome = some .failed := by
    intro i j f g hij hi hj hsame
    have hold : ∃ g', tab.flights[j]? = some g' ∧ g'.refreshToken = g.refreshToken := by
      rcases landed_flight hj hk with ⟨rfl, rfl⟩ | ⟨-, hj⟩
      · exact ⟨_, hk, rfl⟩
      · exact ⟨g, hj, rfl⟩
    obtain ⟨g', hj', hg'⟩ := hold
    rcases landed_flight hi hk with ⟨rfl, rfl⟩ | ⟨-, hi⟩
    · have hfailed := h.again i j _ g' hij hk hj' (hsame.trans hg'.symm)
      cases hfailed
    · exact h.again i j f g' hij hi hj' (hsame.trans hg'.symm)
  refine ⟨fun v' hv' f hf hpresented => ?_, hagain⟩
  obtain ⟨j, hj⟩ := List.mem_iff_getElem?.1 hf
  cases o with
  | issued data =>
    cases hv'
    have hnew := List.all_eq_true.1 hbrings
    rcases landed_flight hj hk with ⟨-, rfl⟩ | ⟨-, hj⟩
    · exact absurd hpresented (by simpa using hnew _ (List.mem_of_getElem? hk))
    · exact absurd hpresented (by simpa using hnew f (List.mem_of_getElem? hj))
  | refused => cases hv'
  | failed =>
    rcases landed_flight hj hk with ⟨-, rfl⟩ | ⟨-, hj⟩
    · exact .inr rfl
    · exact h.kept v' hv' f (List.mem_of_getElem? hj) hpresented

theorem Tab.Presented.step {e : Tab.Event} (h : tab.Presented) (hinv : tab.Inv)
    (hbrings : tab.brings e = true) (hn : tab.step e = some tab') : tab'.Presented := by
  cases Tab.step_does hn with
  | request schemaPath => exact h.request hinv schemaPath
  | landed o hk => exact h.landed hk hbrings
  | response status hi =>
    unfold Tab.onResponse
    split
    · exact h.congr rfl fun v hv => by cases hv
    · exact h.congr rfl fun v hv => .inl hv
  | signedIn data =>
    refine h.congr rfl fun v hv => .inr fun f hf => ?_
    cases hv
    simpa using List.all_eq_true.1 hbrings f hf
  | signedOut => exact h.congr rfl fun v hv => by cases hv
  | _ => exact h.congr rfl fun v hv => .inl hv

/-! ## Sessions -/

/-- Any events that the tab can take, in any order. -/
abbrev Tab.Session (now : Time) : Tab → Prop :=
  Machine.Run Tab.step (fun _ _ => True) (Tab.init now)

theorem Tab.Session.inv {now : Time} (h : Tab.Session now tab) : tab.Inv :=
  Machine.Run.keeps h (.init now) fun hinv _ hn => hinv.step hn

/-- A request that waits goes on, once its flight has landed. -/
theorem Tab.Inv.goes_on (h : tab.Inv) {i k : Nat} {r : Request} (hi : tab.requests[i]? = some r)
    (hk : r.stage = .waiting k) :
    ∃ f, tab.flights[k]? = some f ∧ ((f.outcome = none ∧ tab.refreshPromise = some k) ∨
      ∃ o tab', f.outcome = some o ∧ Machine.Run Tab.step (fun _ _ => True) tab tab' ∧
        tab'.requests[i]? = some { r with stage := o.stage }) := by
  have hlt := h.waits r (List.mem_of_getElem? hi) k hk
  have hi' : i < tab.requests.length := (List.getElem?_eq_some_iff.1 hi).1
  obtain ⟨schemaPath, startedAt, stage⟩ := r
  cases hk
  have hflight : tab.flights[k]? = some tab.flights[k] := List.getElem?_eq_getElem hlt
  refine ⟨tab.flights[k], hflight, ?_⟩
  generalize tab.flights[k] = f at hflight
  obtain ⟨v, outcome⟩ := f
  cases outcome with
  | none => exact .inl ⟨rfl, h.one k _ hflight rfl⟩
  | some o =>
    refine .inr ⟨o, { tab with
      refreshPromise := if tab.refreshPromise = some k then none else tab.refreshPromise
      requests := tab.requests.set i ⟨schemaPath, startedAt, o.stage⟩ }, rfl, ?_, ?_⟩
    · by_cases hpromise : tab.refreshPromise = some k
      · rw [if_pos hpromise]
        refine .head (b := { tab with refreshPromise := none }) ⟨.settled, trivial, ?_⟩
          (.single ⟨.resumed i, trivial, ?_⟩)
        · simp only [Tab.step, hpromise, Option.bind_some, hflight]
        · simp only [Tab.step, hi, hflight, reduceCtorEq, if_false]
      · rw [if_neg hpromise]
        refine .single ⟨.resumed i, trivial, ?_⟩
        simp only [Tab.step, hi, hflight, if_neg hpromise]
    · exact List.getElem?_set_self hi'

end

/-- The tokens that a login and two rotations give, with access tokens that expire at `exp`. -/
def session (refreshToken : String) (exp : Int) : AuthTokens :=
  ⟨⟨"access", ⟨1, none, some [.candidate], some false, none⟩, exp⟩, refreshToken⟩

/-- Two requests wait for a flight that fails, and one goes on; the next starts another flight. -/
def failedOnce : List Tab.Event :=
  [.signedIn (session "r0" 900), .tick 900000, .request "/a", .request "/b", .landed 0 .failed,
    .settled, .resumed 0, .request "/c"]

end JobBoard.Client
