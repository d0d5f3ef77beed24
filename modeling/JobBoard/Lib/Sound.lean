import JobBoard.Lib.Sys

/-!
# The rule for interleaved programs

`Sound Y A I spec` collects what is proved of a system one program at a time:
each program satisfies its `wp` from any committed database with the invariant
`I`, and the write groups the specifications allow are steps the other programs
rely on. `Sound.good` concludes for every interleaving: the committed database
is the replay of the log and satisfies `I`, each group of the log satisfied its
guarantee when it was committed, and each finished call its postcondition.
-/

set_option autoImplicit false

namespace Txn

variable {D W K ε α Op : Type}

/-! ## Stability of `wp` -/

/-- The others' steps do not disturb `Q`, the error conditions and the
transaction's error continuation. -/
structure Stable (S : Store D W K) (L : Rules D W K ε) (err : List (List W) → ε → D → Prop)
    (Q : Local D W ε → D → α → Prop) : Prop where
  trans : ∀ {h a b c}, L.rely h a b → L.rely h b c → L.rely h a c
  weaken : ∀ {h d d'}, L.rely h d d' → L.rely [] d d'
  post : ∀ {σ d d' a}, Q σ d a → L.rely (S.held σ) d d' → Q σ d' a
  err : ∀ {c e d d'}, err c e d → L.rely [] d d' → err c e d'

def Local.StableErr (L : Rules D W K ε) (σ : Local D W ε) : Prop :=
  ∀ ws h, σ.tx = some (ws, h) → ∀ e d d', h e d → L.rely [] d d' → h e d'

section

variable {S : Store D W K} {L : Rules D W K ε} {G : Bool → List K → D → List W → Prop}
  {err : List (List W) → ε → D → Prop} {Q : Local D W ε → D → α → Prop}

theorem Stable.fails (hS : Stable S L err Q) {σ : Local D W ε} (hσ : σ.StableErr L) {e : ε}
    {d d' : D} (h : σ.fails err e d) (hr : L.rely [] d d') : σ.fails err e d' := by
  unfold Local.fails at h ⊢
  split
  · next hn => simp only [hn] at h; exact hS.err h hr
  · next ws H hs => simp only [hs] at h; exact hσ ws H hs e d d' h hr

/-- Steps of the others keep the precondition. -/
theorem wp_stable (hS : Stable S L err Q) {p : Prog D W ε α} {σ : Local D W ε}
    (hσ : σ.StableErr L) {d d' : D} (h : wp S L G err p Q σ d) (hr : L.rely (S.held σ) d d') :
    wp S L G err p Q σ d' := by
  cases p with
  | ret a => exact hS.post h hr
  | throw e => exact hS.fails hσ h (hS.weaken hr)
  | stmt w k => exact fun d'' hr' => h d'' (hS.trans hr hr')
  | aside w k => exact fun d'' hr' => h d'' (hS.trans hr hr')
  | openTx hd k =>
    refine ⟨h.1, fun d'' hr' => h.2 d'' (hS.trans (hS.weaken hr) hr')⟩
  | commit k => exact fun d'' hr' => h d'' (hS.trans hr hr')

end

/-! ## The rule -/

/-- The result of a call is delivered outside its transactions. -/
def Spec.final (sp : Spec D W K ε α) (σ : Local D W ε) (d : D) (a : α) : Prop :=
  σ.tx = none ∧ sp.post σ.commits a d

theorem Spec.final_and {S : Store D W K} {L L' L'' : Rules D W K ε} (sp sp' sp'' : Spec D W K ε α)
    (hL : L''.Le L) (hL' : L''.Le L')
    (hG : ∀ b k d ws, sp.guar b k d ws → sp'.guar b k d ws → sp''.guar b k d ws)
    (herr : ∀ c e d, sp.err c e d → sp'.err c e d → sp''.err c e d)
    (hpost : ∀ c a d, sp.post c a d → sp'.post c a d → sp''.post c a d) {p : Prog D W ε α}
    {c : List (List W)} {d : D} (h : wp S L sp.guar sp.err p sp.final ⟨none, c⟩ d)
    (h' : wp S L' sp'.guar sp'.err p sp'.final ⟨none, c⟩ d) :
    wp S L'' sp''.guar sp''.err p sp''.final ⟨none, c⟩ d := by
  refine wp_and hL hL' hG herr (fun σ σ' τ d a hb hq hq' => ?_) (.none c) h h'
  cases hb with
  | none c => exact ⟨rfl, hpost c a d hq.2 hq'.2⟩
  | some ws c hH => cases hq.1

/-- Rules that ask for less, and a weaker specification. -/
theorem Spec.final_mono {S : Store D W K} {L L' : Rules D W K ε} (sp sp' : Spec D W K ε α)
    (hL : L'.Le L) (hG : ∀ b k d ws, sp.guar b k d ws → sp'.guar b k d ws)
    (herr : ∀ c e d, sp.err c e d → sp'.err c e d)
    (hpost : ∀ c a d, sp.post c a d → sp'.post c a d) {p : Prog D W ε α}
    {c : List (List W)} {d : D} (h : wp S L sp.guar sp.err p sp.final ⟨none, c⟩ d) :
    wp S L' sp'.guar sp'.err p sp'.final ⟨none, c⟩ d :=
  Spec.final_and sp sp sp' hL hL (fun b k d ws hg _ => hG b k d ws hg) (fun c e d he _ => herr c e d he)
    (fun c a d hp _ => hpost c a d hp) h h

/-- The runs under study, what running programs rely on while they hold locks,
and what the results of finished calls rely on. -/
structure Assume (D W K Op : Type) where
  runs : Runs D W Op
  rely : List K → D → D → Prop
  settled : D → D → Prop

def System.rules (Y : System D W K ε α Op) (A : Assume D W K Op) (op : Op) : Rules D W K ε :=
  ⟨A.rely, fun e => Y.isFault e = true, fun d ws => A.runs.adm op d ws = true⟩

structure Sound [DecidableEq K] (Y : System D W K ε α Op) (A : Assume D W K Op) (I : D → Prop)
    (spec : Nat → Op → Spec D W K ε α) : Prop where
  refl : ∀ {h d}, A.rely h d d
  trans : ∀ {h a b c}, A.rely h a b → A.rely h b c → A.rely h a c
  weaken : ∀ {h d d'}, A.rely h d d' → A.rely [] d d'
  settled : ∀ {d d'}, A.rely [] d d' → A.settled d d'
  post : ∀ {i op c a d d'}, (spec i op).post c a d → A.settled d d' → (spec i op).post c a d'
  err : ∀ {i op c e d d'}, (spec i op).err c e d → A.settled d d' → (spec i op).err c e d'
  /-- A group that a call may publish keeps the invariant, and is a step that
  the calls whose locks it leaves alone rely on. -/
  step : ∀ {i op b held d ws}, I d → (spec i op).guar b held d ws →
    I (Y.store.applyAll d ws) ∧ A.settled d (Y.store.applyAll d ws) ∧
    (A.runs.serial = false → ∀ h, (∀ k ∈ h, k ∉ Y.store.locks ws) → (∀ k ∈ h, k ∉ held) →
      A.rely h d (Y.store.applyAll d ws))
  prog : ∀ {i op d}, I d → A.runs.ops d op = true → wp Y.store (Y.rules A op) (spec i op).guar
    (spec i op).err (Y.prog i op) (spec i op).final ⟨none, []⟩ d

/-- What is known of a call with the commits `c` at the committed database `d`. -/
def CallOK (S : Store D W K) (L : Rules D W K ε) (sp : Spec D W K ε α) (c : List (List W)) (d : D) :
    Call D W ε α → Prop
  | .idle => False
  | .run none p => wp S L sp.guar sp.err p sp.final ⟨none, c⟩ d
  | .run (some tx) p => ∃ H : ε → D → Prop,
      (∀ e d', H e d' → wp S L sp.guar sp.err (tx.onError e) sp.final ⟨none, c⟩ d') ∧
      (∀ e d' d'', H e d' → L.rely [] d' d'' → H e d'') ∧
      wp S L sp.guar sp.err p sp.final ⟨some (tx.pending, H), c⟩ d
  | .done (.ok a) => sp.post c a d
  | .done (.error e) => sp.err c e d

/-- The state of a system whose programs are sound, from the database `d₀`. -/
structure Good [DecidableEq K] (Y : System D W K ε α Op) (A : Assume D W K Op) (I : D → Prop)
    (spec : Nat → Op → Spec D W K ε α) (d₀ : D) (s : State D W ε α Op) : Prop where
  inv : I s.db
  replay : s.db = replay Y.store d₀ s.log
  log : ∀ {l g r}, s.log = l ++ g :: r → ∃ op, s.ops[g.call]? = some op ∧
    I (Txn.replay Y.store d₀ l) ∧
    ∃ held, (spec g.call op).guar g.viaTx held (Txn.replay Y.store d₀ l) g.writes
  call : ∀ {i op}, s.ops[i]? = some op →
    CallOK Y.store (Y.rules A op) (spec i op) (commitsOf i s.log) s.db (s.call i)
  idle : ∀ {i}, s.ops.length ≤ i → s.call i = .idle
  locks : ∀ {i j}, i ≠ j → ∀ k ∈ (s.call i).held Y.store, k ∉ (s.call j).held Y.store
  alone : A.runs.serial = true → ∀ {i j}, (s.call i).isRunning = true →
    (s.call j).isRunning = true → i = j

section

variable [DecidableEq K] {Y : System D W K ε α Op} {A : Assume D W K Op} {I : D → Prop}
  {spec : Nat → Op → Spec D W K ε α} {d₀ : D} {s s' : State D W ε α Op}

theorem Sound.stable (hS : Sound Y A I spec) (i : Nat) (op : Op) :
    Stable Y.store (Y.rules A op) (spec i op).err (spec i op).final where
  trans := hS.trans
  weaken := hS.weaken
  post := fun h hr => ⟨h.1, hS.post h.2 (hS.settled (hS.weaken hr))⟩
  err := fun h hr => hS.err h (hS.settled hr)

/-- A step of another call. -/
theorem CallOK.stable (hS : Sound Y A I spec) {i : Nat} {op : Op} {c : List (List W)} {d d' : D}
    {ca : Call D W ε α} (h : CallOK Y.store (Y.rules A op) (spec i op) c d ca)
    (hs : A.settled d d') (hr : ca.isRunning = true → A.rely (ca.held Y.store) d d') :
    CallOK Y.store (Y.rules A op) (spec i op) c d' ca := by
  match ca with
  | .idle => exact h
  | .run none p =>
    exact wp_stable (hS.stable i op) (fun _ _ h => by cases h) h (hr rfl)
  | .run (some tx) p =>
    obtain ⟨H, h1, h2, h3⟩ := h
    refine ⟨H, h1, h2, wp_stable (hS.stable i op) ?_ h3 (hr rfl)⟩
    intro ws h' he
    cases he
    exact h2
  | .done (.ok a) => exact hS.post h hs
  | .done (.error e) => exact hS.err h hs

/-- Call `i` publishes the group `ws` and moves to `c`. -/
theorem Good.publish (hS : Sound Y A I spec) (hg : Good Y A I spec d₀ s) {i : Nat} {op : Op}
    (hi : s.ops[i]? = some op) (hrun : (s.call i).isRunning = true) {b : Bool} {held : List K}
    {ws : List W} (hG : (spec i op).guar b held s.db ws)
    (hfree : ∀ j, j ≠ i → ∀ k ∈ (s.call j).held Y.store, k ∉ Y.store.locks ws)
    (hheld : ∀ j, j ≠ i → ∀ k ∈ (s.call j).held Y.store, k ∉ held)
    {c : Call D W ε α}
    (hc : CallOK Y.store (Y.rules A op) (spec i op) (commitsOf i s.log ++ commitsOf i [⟨i, b, ws⟩])
      (Y.store.applyAll s.db ws) c)
    (hl : ∀ j, j ≠ i → ∀ k ∈ c.held Y.store, k ∉ (s.call j).held Y.store) :
    Good Y A I spec d₀ ((s.publish Y.store i b ws).set i c) := by
  obtain ⟨hI, hset, hrely⟩ := hS.step hg.inv hG
  refine ⟨hI, ?_, ?_, ?_, ?_, ?_, ?_⟩
  · rw [State.set_log, State.publish_log, replay_snoc, ← hg.replay]
    rfl
  · intro l g r hlog
    rw [State.set_log, State.publish_log] at hlog
    rcases List.eq_nil_or_concat r with rfl | ⟨r', g', rfl⟩
    · obtain ⟨rfl, hgg⟩ := List.append_inj' hlog rfl
      cases hgg
      rw [← hg.replay]
      exact ⟨op, hi, hg.inv, held, hG⟩
    · rw [List.concat_eq_append, ← List.cons_append, ← List.append_assoc] at hlog
      exact hg.log (List.append_inj' hlog rfl).1
  · intro j op' hj
    by_cases e : j = i
    · subst e
      rw [State.set_self]
      rw [State.set_ops, State.publish_ops, hi] at hj
      cases hj
      rw [State.set_log, State.publish_log, commitsOf_append]
      exact hc
    · rw [State.set_other e, State.publish_call, State.set_log, State.publish_log,
        commitsOf_append, commitsOf_other (Ne.symm e), List.append_nil]
      refine (hg.call hj).stable hS hset fun hj' => ?_
      refine hrely ?_ _ (hfree j e) (hheld j e)
      rw [Bool.eq_false_iff]
      exact fun hs => e (hg.alone hs hj' hrun)
  · intro j hj
    have : i < s.ops.length := (List.getElem?_eq_some_iff.1 hi).1
    rw [State.set_ops, State.publish_ops] at hj
    rw [State.set_other (by omega), State.publish_call]
    exact hg.idle hj
  · intro a a' haa k hk
    by_cases ha : a = i
    · subst ha
      rw [State.set_self] at hk
      rw [State.set_other (Ne.symm haa), State.publish_call]
      exact hl a' (Ne.symm haa) k hk
    · rw [State.set_other ha, State.publish_call] at hk
      by_cases hb : a' = i
      · subst hb
        rw [State.set_self]
        exact fun hk' => hl a ha k hk' hk
      · rw [State.set_other hb, State.publish_call]
        exact hg.locks haa k hk
  · intro hs a a' ha ha'
    have key : ∀ j, (((s.publish Y.store i b ws).set i c).call j).isRunning = true → j = i := by
      intro j hj
      by_cases e : j = i
      · exact e
      · rw [State.set_other e, State.publish_call] at hj
        exact hg.alone hs hj hrun
    rw [key a ha, key a' ha']

/-- Call `i` moves without touching the committed database. -/
theorem Good.set (hg : Good Y A I spec d₀ s) {i : Nat} {op : Op} (hi : s.ops[i]? = some op)
    (hrun : (s.call i).isRunning = true) {c : Call D W ε α}
    (hc : CallOK Y.store (Y.rules A op) (spec i op) (commitsOf i s.log) s.db c)
    (hl : ∀ j, j ≠ i → ∀ k ∈ c.held Y.store, k ∉ (s.call j).held Y.store) :
    Good Y A I spec d₀ (s.set i c) where
  inv := hg.inv
  replay := hg.replay
  log := hg.log
  call := by
    intro j op' hj
    by_cases e : j = i
    · subst e
      rw [State.set_self]
      rw [State.set_ops, hi] at hj
      cases hj
      exact hc
    · rw [State.set_other e]
      exact hg.call hj
  idle := by
    intro j hj
    have : i < s.ops.length := (List.getElem?_eq_some_iff.1 hi).1
    rw [State.set_ops] at hj
    rw [State.set_other (by omega)]
    exact hg.idle hj
  locks := by
    intro a b hab k hk
    by_cases ha : a = i
    · subst ha
      rw [State.set_self] at hk
      rw [State.set_other (Ne.symm hab)]
      exact hl b (Ne.symm hab) k hk
    · rw [State.set_other ha] at hk
      by_cases hb : b = i
      · subst hb
        rw [State.set_self]
        exact fun hk' => hl a ha k hk' hk
      · rw [State.set_other hb]
        exact hg.locks hab k hk
  alone := by
    intro hs a b ha hb
    have key : ∀ j, ((s.set i c).call j).isRunning = true → j = i := by
      intro j hj
      by_cases e : j = i
      · exact e
      · rw [State.set_other e] at hj
        exact hg.alone hs hj hrun
    rw [key a ha, key b hb]

/-- A statement outside the call's transaction. -/
theorem Good.autocommit (hS : Sound Y A I spec) (hg : Good Y A I spec d₀ s) {i : Nat} {op : Op}
    (hi : s.ops[i]? = some op) (hrun : (s.call i).isRunning = true) {held : List K} {ws : List W}
    (hG : ws ≠ [] → (spec i op).guar false held s.db ws)
    (hfree : ∀ j, j ≠ i → ∀ k ∈ (s.call j).held Y.store, k ∉ Y.store.locks ws)
    (hheld : ∀ j, j ≠ i → ∀ k ∈ (s.call j).held Y.store, k ∉ held)
    {c : Call D W ε α}
    (hc : CallOK Y.store (Y.rules A op) (spec i op) (commitsOf i s.log)
      (Y.store.applyAll s.db ws) c)
    (hl : ∀ j, j ≠ i → ∀ k ∈ c.held Y.store, k ∉ (s.call j).held Y.store) :
    Good Y A I spec d₀ ((s.autocommit Y.store i ws).set i c) := by
  match ws with
  | [] => exact hg.set hi hrun hc hl
  | w :: ws =>
    refine hg.publish hS hi hrun (hG (by simp)) hfree hheld ?_ hl
    rw [commitsOf_auto, List.append_nil]
    exact hc

theorem Good.stepCall (hS : Sound Y A I spec) (hg : Good Y A I spec d₀ s) {i : Nat} {op : Op}
    (hi : s.ops[i]? = some op) {tx : Option (OpenTx D W ε α)} {p : Prog D W ε α}
    (hcall : s.call i = .run tx p) (hadm : Y.admits A.runs s (.step i) = true)
    (hn : Y.stepCall s i tx p = some s') : Good Y A I spec d₀ s' := by
  have hok := hg.call hi
  have hrun : (s.call i).isRunning = true := by rw [hcall]; rfl
  have hown : ∀ j, j ≠ i → ∀ k ∈ (s.call i).held Y.store, k ∉ (s.call j).held Y.store :=
    fun j hj => hg.locks (Ne.symm hj)
  rw [hcall] at hok hown
  cases p with
  | ret a =>
    cases tx with
    | none =>
      cases hn
      exact hg.set hi hrun hok.2 (by simp)
    | some tx => cases hn
  | throw e =>
    cases tx with
    | none =>
      cases hn
      exact hg.set hi hrun hok (by simp)
    | some tx =>
      cases hn
      obtain ⟨H, h1, -, h3⟩ := hok
      exact hg.set hi hrun (h1 e s.db h3) (by simp)
  | stmt w k =>
    simp only [System.admits, hi, hcall] at hadm
    cases tx with
    | none =>
      simp only [System.stepCall] at hn
      split at hn
      · next hf =>
        cases hn
        obtain ⟨-, h2⟩ := hok s.db hS.refl
        obtain ⟨hG, hc⟩ := h2 hadm
        exact hg.autocommit hS hi hrun hG ((free_iff _ _ _ fun j => hg.idle).1 hf) (by simp) hc
          (by simp)
      · cases hn
    | some tx =>
      simp only [System.stepCall] at hn
      split at hn
      · next hf =>
        cases hn
        obtain ⟨H, h1, h2, h3⟩ := hok
        obtain ⟨-, h4⟩ := h3 s.db hS.refl
        refine hg.set hi hrun ⟨H, h1, h2, h4 hadm⟩ ?_
        have hf := (free_iff _ _ _ fun j => hg.idle).1 hf
        intro j hj k hk hk'
        simp only [Call.held_some, Store.locks_append, List.mem_append] at hk
        rcases hk with hk | hk
        · exact hown j hj k hk hk'
        · exact hf j hj k hk' hk
      · cases hn
  | aside w k =>
    have h' : s.free Y.store i (w s.db) = true ∧
        s' = (s.autocommit Y.store i (w s.db)).set i (.run tx (k s.db)) := by
      cases tx <;> simp only [System.stepCall] at hn <;> split at hn <;> simp_all
    obtain ⟨hf, rfl⟩ := h'
    have hfree := (free_iff _ _ _ fun j => hg.idle).1 hf
    cases tx with
    | none =>
      obtain ⟨-, hG, hc⟩ := hok s.db hS.refl
      exact hg.autocommit hS hi hrun hG hfree (by simp) hc (by simp)
    | some tx =>
      obtain ⟨H, h1, h2, h3⟩ := hok
      obtain ⟨-, hG, hc⟩ := h3 s.db hS.refl
      exact hg.autocommit hS hi hrun hG hfree (fun j hj k hk hk' => hown j hj k hk' hk)
        ⟨H, h1, h2, hc⟩ hown
  | openTx h k =>
    cases tx with
    | none =>
      cases hn
      obtain ⟨-, h'⟩ := hok
      refine hg.set hi hrun ⟨_, fun _ _ h => h, ?_, (h' s.db hS.refl).2⟩ (by simp)
      intro e d' d'' hw hr
      exact wp_stable (hS.stable i op) (fun _ _ h => by cases h) hw hr
    | some tx => cases hn
  | commit k =>
    cases tx with
    | none =>
      cases hn
      exact hg.set hi hrun (hok s.db hS.refl).2 (by simp)
    | some tx =>
      cases hn
      obtain ⟨H, h1, h2, h3⟩ := hok
      obtain ⟨-, hG, hc⟩ := h3 s.db hS.refl
      refine hg.publish hS hi hrun hG ?_ (by simp) (by rw [commitsOf_tx]; exact hc) (by simp)
      exact fun j hj k hk hk' => hown j hj k hk' hk

theorem Good.faultCall (hS : Sound Y A I spec) (hg : Good Y A I spec d₀ s) {i : Nat} {op : Op}
    (hi : s.ops[i]? = some op) {e : ε} (he : Y.isFault e = true)
    {tx : Option (OpenTx D W ε α)} {p : Prog D W ε α} (hcall : s.call i = .run tx p)
    (hn : Y.faultCall s i e tx p = some s') : Good Y A I spec d₀ s' := by
  have hok := hg.call hi
  have hrun : (s.call i).isRunning = true := by rw [hcall]; rfl
  rw [hcall] at hok
  have key : ∀ {σ : Local D W ε}, wp Y.store (Y.rules A op) (spec i op).guar (spec i op).err p
      (spec i op).final σ s.db → (∀ a, p ≠ .ret a) → (∀ e, p ≠ .throw e) →
      σ.fails (spec i op).err e s.db := by
    intro σ hw hr ht
    cases p with
    | ret a => exact absurd rfl (hr a)
    | throw e => exact absurd rfl (ht e)
    | stmt w k => exact (hw s.db hS.refl).1 e he
    | aside w k => exact (hw s.db hS.refl).1 e he
    | openTx h k =>
      simp only [Local.fails, hw.1]
      exact (hw.2 s.db hS.refl).1 e he
    | commit k => exact (hw s.db hS.refl).1 e he
  have hp : (∀ a, p ≠ .ret a) ∧ (∀ e, p ≠ .throw e) := by
    cases p <;> cases tx <;> simp_all [System.faultCall]
  cases tx with
  | none =>
    have hs' : s' = s.set i (.run none (.throw e)) := by
      cases p <;> simp_all [System.faultCall]
    subst hs'
    exact hg.set hi hrun (key hok hp.1 hp.2) (by simp)
  | some tx =>
    have hs' : s' = s.set i (.run none (tx.onError e)) := by
      cases p <;> simp_all [System.faultCall]
    subst hs'
    obtain ⟨H, h1, -, h3⟩ := hok
    exact hg.set hi hrun (h1 e s.db (key h3 hp.1 hp.2)) (by simp)

theorem Good.op_of_running (hg : Good Y A I spec d₀ s) {i : Nat}
    (h : (s.call i).isRunning = true) :
    ∃ op, s.ops[i]? = some op := by
  by_cases hi : i < s.ops.length
  · exact ⟨s.ops[i], List.getElem?_eq_getElem hi⟩
  · rw [hg.idle (by omega)] at h
    cases h

theorem Good.spawn (hS : Sound Y A I spec) (hg : Good Y A I spec d₀ s) {op : Op}
    (hadm : Y.admits A.runs s (.spawn op) = true) :
    Good Y A I spec d₀
      (State.set { s with ops := s.ops ++ [op] } s.ops.length
        (.run none (Y.prog s.ops.length op))) := by
  have hfresh : commitsOf s.ops.length s.log = [] := by
    simp only [commitsOf, List.map_eq_nil_iff, List.filter_eq_nil_iff, Bool.and_eq_true, beq_iff_eq]
    rintro g hmem ⟨hgc, -⟩
    obtain ⟨l, r, hlog⟩ := List.append_of_mem hmem
    obtain ⟨op', hop, -⟩ := hg.log hlog
    have : g.call < s.ops.length := (List.getElem?_eq_some_iff.1 hop).1
    omega
  simp only [System.admits, Bool.and_eq_true, Bool.or_eq_true, Bool.not_eq_true',
    List.all_eq_true, List.mem_range] at hadm
  obtain ⟨hop, halone⟩ := hadm
  have hrun : A.runs.serial = true → ∀ j, ((State.set { s with ops := s.ops ++ [op] } s.ops.length
      (.run none (Y.prog s.ops.length op))).call j).isRunning = true → j = s.ops.length := by
    intro hs j hj
    by_cases e : j = s.ops.length
    · exact e
    · rw [State.set_other e] at hj
      by_cases hlt : j < s.ops.length
      · rcases halone with h | h
        · rw [hs] at h
          cases h
        · rw [h j hlt] at hj
          cases hj
      · rw [hg.idle (by omega)] at hj
        cases hj
  refine ⟨hg.inv, hg.replay, ?_, ?_, ?_, ?_, ?_⟩
  · intro l g r hlog
    obtain ⟨op', hop', h⟩ := hg.log hlog
    exact ⟨op', List.getElem?_append_left (List.getElem?_eq_some_iff.1 hop').1 ▸ hop', h⟩
  · intro j op' hj
    by_cases e : j = s.ops.length
    · subst e
      rw [State.set_self, State.set_log, hfresh]
      simp only [State.set_ops, List.getElem?_concat_length, Option.some.injEq] at hj
      exact hj ▸ hS.prog hg.inv hop
    · rw [State.set_other e]
      have hlt := (List.getElem?_eq_some_iff.1 hj).1
      simp only [State.set_ops, List.length_append, List.length_singleton] at hlt
      rw [State.set_ops, List.getElem?_append_left (by omega)] at hj
      exact hg.call hj
  · intro j hj
    simp only [State.set_ops, List.length_append, List.length_singleton] at hj
    rw [State.set_other (by omega)]
    exact hg.idle (by omega)
  · intro a b hab k hk
    by_cases ha : a = s.ops.length
    · subst ha
      simp at hk
    · rw [State.set_other ha] at hk
      by_cases hb : b = s.ops.length
      · subst hb
        simp
      · rw [State.set_other hb]
        exact hg.locks hab k hk
  · intro hs a b ha hb
    rw [hrun hs a ha, hrun hs b hb]

/-- In every interleaving of sound programs the committed database is the
replay of the log, the invariant holds, and every call and every group of the
log is as specified. -/
theorem Sound.good (hS : Sound Y A I spec) (h₀ : I d₀) (h : Y.Reach A.runs d₀ s) :
    Good Y A I spec d₀ s := by
  induction h with
  | init =>
    refine ⟨h₀, rfl, ?_, ?_, fun _ => rfl, ?_, ?_⟩
    · intro l g r hlog
      simp [State.init] at hlog
    · intro i op hi
      simp [State.init] at hi
    · intro i j _ k hk
      simp [State.init] at hk
    · intro _ i j hi
      cases hi
  | @step s s' l _ hadm hn ih =>
    cases l with
    | spawn op =>
      cases hn
      exact ih.spawn hS hadm
    | step i =>
      simp only [System.next] at hn
      split at hn
      · next tx p hcall =>
        obtain ⟨op, hi⟩ := ih.op_of_running (by rw [hcall]; rfl)
        exact ih.stepCall hS hi hcall hadm hn
      · cases hn
    | fault i e =>
      simp only [System.next] at hn
      split at hn
      · next tx p hcall =>
        obtain ⟨op, hi⟩ := ih.op_of_running (by rw [hcall]; rfl)
        split at hn
        · next he => exact ih.faultCall hS hi he hcall hn
        · cases hn
      · cases hn

/-! ## Answers -/

/-- What a call answers or throws, proved besides what it writes. -/
def Spec.answers (sp : Spec D W K ε α) (err : ε → Prop) (post : α → Prop) : Spec D W K ε α where
  guar := sp.guar
  err := fun c e d => sp.err c e d ∧ err e
  post := fun c a d => sp.post c a d ∧ post a

/-- One call at a time, nobody else moves the database. -/
def Assume.alone (A : Assume D W K Op) : Assume D W K Op :=
  { A with rely := fun _ d d' => d' = d }

/-- Both specifications. -/
def Spec.and (sp sp' : Spec D W K ε α) : Spec D W K ε α where
  guar := fun b k d ws => sp.guar b k d ws ∧ sp'.guar b k d ws
  err := fun c e d => sp.err c e d ∧ sp'.err c e d
  post := fun c a d => sp.post c a d ∧ sp'.post c a d

/-- One at a time, programs are sound with nobody to interfere. -/
theorem Sound.alone (hS : Sound Y A I spec) (hserial : A.runs.serial = true) :
    Sound Y A.alone I spec where
  refl := rfl
  trans := fun hab hbc => hbc.trans hab
  weaken := id
  settled := fun h => h ▸ hS.settled hS.refl
  post := hS.post
  err := hS.err
  step := fun hI hg => ⟨(hS.step hI hg).1, (hS.step hI hg).2.1, fun hs => by
    rw [show A.alone.runs.serial = A.runs.serial from rfl, hserial] at hs
    cases hs⟩
  prog := by
    intro i op d hI hop
    have hL : (Y.rules A.alone op).Le (Y.rules A op) := ⟨fun h => h ▸ hS.refl, id, id⟩
    exact Spec.final_mono (spec i op) (spec i op) hL (fun _ _ _ _ => id) (fun _ _ _ => id)
      (fun _ _ _ => id) (hS.prog hI hop)

/-- What sound programs do besides, when it does not depend on the database how
they end. -/
theorem Sound.and (hS : Sound Y A I spec) {spec' : Nat → Op → Spec D W K ε α}
    (hpost : ∀ {i op c a d d'}, (spec' i op).post c a d → (spec' i op).post c a d')
    (herr : ∀ {i op c e d d'}, (spec' i op).err c e d → (spec' i op).err c e d')
    (h : ∀ {i op d}, I d → A.runs.ops d op = true →
      wp Y.store (Y.rules A op) (spec' i op).guar (spec' i op).err (Y.prog i op)
        (spec' i op).final ⟨none, []⟩ d) :
    Sound Y A I fun i op => (spec i op).and (spec' i op) where
  refl := hS.refl
  trans := hS.trans
  weaken := hS.weaken
  settled := hS.settled
  post := fun hp hs => ⟨hS.post hp.1 hs, hpost hp.2⟩
  err := fun he hs => ⟨hS.err he.1 hs, herr he.2⟩
  step := fun hI hg => hS.step hI hg.1
  prog := fun {i op} _ hI hop => Spec.final_and (spec i op) (spec' i op)
    ((spec i op).and (spec' i op)) (.refl _) (.refl _)
    (fun _ _ _ _ hg hg' => ⟨hg, hg'⟩) (fun _ _ _ he he' => ⟨he, he'⟩)
    (fun _ _ _ hp hp' => ⟨hp, hp'⟩) (hS.prog hI hop) (h hI hop)

/-- What all groups preserve may be relied on. -/
theorem Sound.strengthen (hS : Sound Y A I spec) {I' : D → Prop} {ρ : D → D → Prop}
    (refl : ∀ d, ρ d d) (trans : ∀ {a b c}, ρ a b → ρ b c → ρ a c)
    (step : ∀ {i op b held d ws}, I d → I' d → (spec i op).guar b held d ws →
      I' (Y.store.applyAll d ws) ∧ ρ d (Y.store.applyAll d ws)) :
    Sound Y { A with rely := fun h d d' => A.rely h d d' ∧ ρ d d' } (fun d => I d ∧ I' d) spec where
  refl := ⟨hS.refl, refl _⟩
  trans := fun hab hbc => ⟨hS.trans hab.1 hbc.1, trans hab.2 hbc.2⟩
  weaken := fun h => ⟨hS.weaken h.1, h.2⟩
  settled := fun h => hS.settled h.1
  post := hS.post
  err := hS.err
  step := by
    intro i op b held d ws hI hg
    obtain ⟨h₁, h₂, h₃⟩ := hS.step hI.1 hg
    obtain ⟨h₁', h₂'⟩ := step hI.1 hI.2 hg
    exact ⟨⟨h₁, h₁'⟩, h₂, fun hs h hf hf' => ⟨h₃ hs h hf hf', h₂'⟩⟩
  prog := by
    intro i op d hI hop
    have hL : (Y.rules { A with rely := fun h d d' => A.rely h d d' ∧ ρ d d' } op).Le
        (Y.rules A op) := ⟨fun h => h.1, id, id⟩
    exact Spec.final_mono (spec i op) (spec i op) hL (fun _ _ _ _ => id) (fun _ _ _ => id)
      (fun _ _ _ => id) (hS.prog hI.1 hop)

/-- The answers of sound programs one at a time, proved where no guarantee is
asked for. -/
theorem Sound.answers (hS : Sound Y A I spec) (hserial : A.runs.serial = true)
    {err : Nat → Op → ε → Prop} {post : Nat → Op → α → Prop}
    (h : ∀ {i op d}, I d → A.runs.ops d op = true →
      wp Y.store (Y.rules A.alone op) (fun _ _ _ _ => True) (fun _ e _ => err i op e) (Y.prog i op)
        (fun σ _ a => σ.tx = none ∧ post i op a) ⟨none, []⟩ d) :
    Sound Y A.alone I fun i op => (spec i op).answers (err i op) (post i op) := by
  let spec' : Nat → Op → Spec D W K ε α := fun i op =>
    ⟨fun _ _ _ _ => True, fun _ e _ => err i op e, fun _ a _ => post i op a⟩
  have hand : Sound Y A.alone I fun i op => (spec i op).and (spec' i op) :=
    (hS.alone hserial).and id id h
  exact { hand with
    step := fun hI hg => hand.step hI ⟨hg, trivial⟩
    prog := fun {i op} _ hI hop => Spec.final_mono ((spec i op).and (spec' i op))
      ((spec i op).answers (err i op) (post i op)) (.refl _) (fun _ _ _ _ hg => hg.1)
      (fun _ _ _ => id) (fun _ _ _ => id) (hand.prog hI hop) }

end

end Txn
