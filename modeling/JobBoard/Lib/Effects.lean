import JobBoard.Lib.Plain
import JobBoard.Lib.Sound

/-!
# Programs with one effect

Most programs change the table under study by one statement at most; all other
statements are `quiet` there. `Prog.effects` computes this from the program: it
asks for `P d ws` of the one statement that writes `ws` when its connection sees
`d`, and lets the proof use what earlier statements have seen through the
relation `ρ` between earlier and later views. `effects_wp` turns it into the
guarantee `Single`, and `Sound.of_effects` into the soundness of a system.
-/

set_option autoImplicit false

namespace Txn

variable {D W K ε α β Op : Type}

/-- Whether the program has issued its effect, and is inside a transaction. -/
structure Trace where
  spent : Bool
  inTx : Bool

namespace Prog

section

variable (ρ : D → D → Prop) (quiet : W → Prop) (P : D → List W → Prop)

def effects : Prog D W ε α → (Trace → D → α → Prop) → Trace → D → Prop
  | ret a, Q, τ, d => Q τ d a
  | throw _, _, _, _ => True
  | stmt w k, Q, τ, d => ∀ v, (τ.spent = false → ρ d v) →
      ((∀ x ∈ w v, quiet x) ∧ (k v).effects Q τ v) ∨
      (τ.spent = false ∧ P v (w v) ∧ (k v).effects Q { τ with spent := true } v)
  | aside w k, Q, τ, d => ∀ v, (∀ x ∈ w v, quiet x) ∧ (k v).effects Q τ d
  | openTx h k, Q, τ, d => τ.inTx = false ∧ (∀ e, (h e).effects Q ⟨true, false⟩ d) ∧
      k.effects Q { τ with inTx := true } d
  | commit k, Q, τ, d => k.effects Q { τ with inTx := false } d

/-- Every statement of the program is quiet, and it opens no transaction. -/
abbrev Quiet (p : Prog D W ε α) : Prop :=
  p.Plain (fun ws => ∀ x ∈ ws, quiet x) (fun ws => ∀ x ∈ ws, quiet x) fun _ => True

end

section

variable {ρ : D → D → Prop} {quiet : W → Prop} {P : D → List W → Prop}

theorem effects_bind (p : Prog D W ε α) (f : α → Prog D W ε β) (Q : Trace → D → β → Prop)
    (τ : Trace) (d : D) :
    (p >>= f).effects ρ quiet P Q τ d ↔
      p.effects ρ quiet P (fun τ' d' a => (f a).effects ρ quiet P Q τ' d') τ d := by
  induction p generalizing τ d with
  | ret a => rfl
  | throw e => rfl
  | stmt w k ih => simp only [stmt_bind, effects, ih]
  | aside w k ih => simp only [aside_bind, effects, ih]
  | openTx h k ihh ihk => simp only [openTx_bind, effects, ihh, ihk]
  | commit k ih => simp only [commit_bind, effects, ih]

theorem effects_mono {p : Prog D W ε α} {Q Q' : Trace → D → α → Prop} {τ : Trace} {d : D}
    (hp : p.effects ρ quiet P Q τ d) (h : ∀ τ' d' a, Q τ' d' a → Q' τ' d' a) :
    p.effects ρ quiet P Q' τ d := by
  induction p generalizing τ d with
  | ret a => exact h τ d a hp
  | throw e => trivial
  | stmt w k ih =>
    intro v hv
    rcases hp v hv with ⟨hq, hk⟩ | ⟨hs, hP, hk⟩
    · exact .inl ⟨hq, ih v hk⟩
    · exact .inr ⟨hs, hP, ih v hk⟩
  | aside w k ih => exact fun v => ⟨(hp v).1, ih v (hp v).2⟩
  | openTx h k ihh ihk => exact ⟨hp.1, fun e => ihh e (hp.2.1 e), ihk hp.2.2⟩
  | commit k ih => exact ih hp

theorem quiet_ret (a : α) : (ret a : Prog D W ε α).Quiet quiet := plain_ret a

theorem quiet_select (f : D → α) : (select f : Prog D W ε α).Quiet quiet :=
  plain_select (by simp) f

theorem quiet_ofExcept (x : Except ε α) : (ofExcept x : Prog D W ε α).Quiet quiet :=
  plain_ofExcept fun _ _ => trivial

theorem quiet_query {f : D → Except ε (List W × α)}
    (h : ∀ v r, f v = .ok r → ∀ x ∈ r.1, quiet x) : (query f : Prog D W ε α).Quiet quiet :=
  plain_query (by simp) h fun _ _ _ => trivial

theorem quiet_write {f : D → List W} (h : ∀ v, ∀ x ∈ f v, quiet x) :
    (write f : Prog D W ε Unit).Quiet quiet := plain_write h

theorem quiet_outside {f : D → List W} (h : ∀ v, ∀ x ∈ f v, quiet x) :
    (outside f : Prog D W ε Unit).Quiet quiet := plain_outside h

/-- A quiet piece of a program passes on what is known. -/
theorem Quiet.effects (refl : ∀ d, ρ d d) (trans : ∀ {a b c}, ρ a b → ρ b c → ρ a c)
    {p : Prog D W ε α} (hp : p.Quiet quiet) {Q : Trace → D → α → Prop} {τ : Trace} {d : D}
    (hQ : ∀ d' a, (τ.spent = false → ρ d d') → Q τ d' a) : p.effects ρ quiet P Q τ d := by
  induction p generalizing d with
  | ret a => exact hQ d a fun _ => refl d
  | throw e => trivial
  | stmt w k ih =>
    intro v hv
    exact .inl ⟨(hp v).1, ih v (hp v).2 fun d' a hd => hQ d' a fun hs => trans (hv hs) (hd hs)⟩
  | aside w k ih => exact fun v => ⟨(hp v).1, ih v (hp v).2 hQ⟩
  | openTx h k => exact hp.elim
  | commit k => exact hp.elim

end

end Prog

/-! ## Rules -/

namespace Prog

section

variable {ρ : D → D → Prop} {quiet : W → Prop} {P : D → List W → Prop}
  {Q : Trace → D → α → Prop} {τ : Trace} {d : D}

theorem effects_select {f : D → α} (h : ∀ v, (τ.spent = false → ρ d v) → Q τ v (f v)) :
    (select f : Prog D W ε α).effects ρ quiet P Q τ d :=
  fun v hv => .inl ⟨by simp, h v hv⟩

theorem effects_ofExcept {x : Except ε α} (h : ∀ a, x = .ok a → Q τ d a) :
    (ofExcept x : Prog D W ε α).effects ρ quiet P Q τ d := by
  cases x with
  | ok a => exact h a rfl
  | error e => trivial

/-- The statement of a `query` that is the effect of the program. -/
theorem effects_query {f : D → Except ε (List W × α)} (hs : τ.spent = false)
    (h : ∀ v r, ρ d v → f v = .ok r → P v r.1 ∧ Q { τ with spent := true } v r.2) :
    (query f : Prog D W ε α).effects ρ quiet P Q τ d := by
  intro v hv
  cases hf : f v with
  | ok r =>
    refine .inr ⟨hs, ?_⟩
    simpa only [hf, effects] using h v r (hv hs) hf
  | error e => exact .inl (by simp [hf, effects])

theorem effects_transaction {body : Prog D W ε β} {hd : ε → Prog D W ε α} {k : β → Prog D W ε α}
    (htx : τ.inTx = false) (hh : ∀ e, (hd e).effects ρ quiet P Q ⟨true, false⟩ d)
    (hb : body.effects ρ quiet P
      (fun τ' d' b => (k b).effects ρ quiet P Q { τ' with inTx := false } d')
      { τ with inTx := true } d) :
    (transaction body hd k).effects ρ quiet P Q τ d :=
  ⟨htx, hh, (effects_bind _ _ _ _ _).2 hb⟩

end

end Prog

/-! ## From effects to guarantees -/

/-- All of `ws` is quiet, except perhaps for one statement that satisfies `P`
where it was issued. -/
def Single (S : Store D W K) (quiet : W → Prop) (P : D → List W → Prop) (d : D)
    (ws : List W) : Prop :=
  (∀ x ∈ ws, quiet x) ∨
  ∃ ps es qs, ws = ps ++ es ++ qs ∧ (∀ x ∈ ps, quiet x) ∧ (∀ x ∈ qs, quiet x) ∧
    P (S.applyAll d ps) es

theorem Single.mono {S : Store D W K} {quiet : W → Prop} {P Q : D → List W → Prop} {d : D}
    {ws : List W} (hPQ : ∀ {d es}, P d es → Q d es) (h : Single S quiet P d ws) :
    Single S quiet Q d ws := by
  rcases h with h | ⟨ps, es, qs, hws, hps, hqs, hP⟩
  · exact .inl h
  · exact .inr ⟨ps, es, qs, hws, hps, hqs, hPQ hP⟩

/-- What the relation `ρ` on views and the effects `P` must satisfy with
respect to the rely relation. -/
structure EffectLaws (S : Store D W K) (rely : List K → D → D → Prop) (ρ : D → D → Prop)
    (quiet : W → Prop) (P : D → List W → Prop) : Prop where
  refl : ∀ d, ρ d d
  trans : ∀ {a b c}, ρ a b → ρ b c → ρ a c
  /-- Quiet writes disturb nobody. -/
  steps : ∀ {ws}, (∀ x ∈ ws, quiet x) → ∀ h d, rely h d (S.applyAll d ws)
  view : ∀ {h d d' ps}, rely h d d' → (∀ x ∈ ps, quiet x) →
    ρ (S.applyAll d ps) (S.applyAll d' ps)
  stable : ∀ {h d d' ps es}, rely h d d' → (∀ x ∈ ps, quiet x) → (∀ k ∈ S.locks es, k ∈ h) →
    P (S.applyAll d ps) es → P (S.applyAll d' ps) es

section

variable {S : Store D W K} {L : Rules D W K ε} {ρ : D → D → Prop} {quiet : W → Prop}
  {P : D → List W → Prop}

theorem EffectLaws.quiets (hL : EffectLaws S L.rely ρ quiet P) {ws : List W}
    (h : ∀ x ∈ ws, quiet x) (d : D) : ρ d (S.applyAll d ws) := by
  have : ρ (S.applyAll d []) (S.applyAll (S.applyAll d ws) []) :=
    hL.view (hL.steps h [] d) (by simp)
  exact this

/-- The connection `σ` over the database `d` fits the trace `τ` of a program
that last saw `d₀`. -/
structure Fits (S : Store D W K) (ρ : D → D → Prop) (quiet : W → Prop) (P : D → List W → Prop)
    (τ : Trace) (d₀ : D) (σ : Local D W ε) (d : D) : Prop where
  inTx : τ.inTx = σ.tx.isSome
  handler : ∀ {ps H}, σ.tx = some (ps, H) → ∀ e d, H e d
  pending : Single S quiet P d σ.pending
  known : τ.spent = false → (∀ x ∈ σ.pending, quiet x) ∧ ρ d₀ (S.view σ d)

theorem Fits.rely (hL : EffectLaws S L.rely ρ quiet P) {τ : Trace} {d₀ d d' : D}
    {σ : Local D W ε} (hf : Fits S ρ quiet P τ d₀ σ d) (hr : L.rely (S.held σ) d d') :
    Fits S ρ quiet P τ d₀ σ d' where
  inTx := hf.inTx
  handler := hf.handler
  pending := by
    rcases hf.pending with h | ⟨ps, es, qs, heq, hps, hqs, hP⟩
    · exact .inl h
    · refine .inr ⟨ps, es, qs, heq, hps, hqs, hL.stable hr hps ?_ hP⟩
      intro k hk
      simp only [Store.held, heq, Store.locks_append, List.mem_append]
      exact .inl (.inr hk)
  known := fun hs => ⟨(hf.known hs).1, hL.trans (hf.known hs).2 (hL.view hr (hf.known hs).1)⟩

theorem Fits.fails {τ : Trace} {d₀ d : D} {σ : Local D W ε} (hf : Fits S ρ quiet P τ d₀ σ d)
    (e : ε) (d' : D) : σ.fails (fun _ _ _ => True) e d' := by
  unfold Local.fails
  split
  · trivial
  · next h => exact hf.handler h e d'

/-- The state after a statement that issued the quiet writes `ws`. -/
theorem Fits.quietStmt (hL : EffectLaws S L.rely ρ quiet P) {τ : Trace} {d₀ d : D}
    {σ : Local D W ε} (hf : Fits S ρ quiet P τ d₀ σ d) {ws : List W} (hq : ∀ x ∈ ws, quiet x)
    {K : Local D W ε → D → Prop}
    (hK : ∀ σ' d', Fits S ρ quiet P τ (S.view σ d) σ' d' → K σ' d') :
    afterStmt S (fun _ _ => Single S quiet P) σ d ws K := by
  obtain ⟨tx, c⟩ := σ
  cases tx with
  | none =>
    refine ⟨fun _ => .inl hq, hK _ _ ⟨hf.inTx, fun h => (by cases h), .inl (by simp), ?_⟩⟩
    exact fun _ => ⟨by simp, hL.quiets hq d⟩
  | some tx =>
    obtain ⟨vs, H⟩ := tx
    refine hK _ _ ⟨hf.inTx, fun h => (by cases h; exact hf.handler rfl), ?_, ?_⟩
    · rcases hf.pending with h | ⟨ps, es, qs, heq, hps, hqs, hP⟩
      · exact .inl fun x hx => (List.mem_append.1 hx).elim (h x) (hq x)
      · refine .inr ⟨ps, es, qs ++ ws, ?_, hps, ?_, hP⟩
        · simp only [Local.pending_some] at heq ⊢
          rw [heq, List.append_assoc]
        · exact fun x hx => (List.mem_append.1 hx).elim (hqs x) (hq x)
    · intro hs
      refine ⟨fun x hx => (List.mem_append.1 hx).elim ((hf.known hs).1 x) (hq x), ?_⟩
      rw [Store.view_some, Store.view_some, S.applyAll_append]
      exact hL.quiets hq _

/-- The state after the statement that issued the effect `ws`. -/
theorem Fits.effectStmt {τ : Trace} {d₀ d : D} {σ : Local D W ε}
    (hf : Fits S ρ quiet P τ d₀ σ d) (hs : τ.spent = false) {ws : List W}
    (hP : P (S.view σ d) ws) {K : Local D W ε → D → Prop}
    (hK : ∀ σ' d', Fits S ρ quiet P { τ with spent := true } (S.view σ d) σ' d' → K σ' d') :
    afterStmt S (fun _ _ => Single S quiet P) σ d ws K := by
  obtain ⟨tx, c⟩ := σ
  cases tx with
  | none =>
    refine ⟨fun _ => .inr ⟨[], ws, [], by simp, by simp, by simp, hP⟩, hK _ _ ?_⟩
    exact ⟨hf.inTx, fun h => (by cases h), .inl (by simp), fun h => by cases h⟩
  | some tx =>
    obtain ⟨vs, H⟩ := tx
    refine hK _ _ ⟨hf.inTx, fun h => (by cases h; exact hf.handler rfl), ?_, fun h => by cases h⟩
    exact .inr ⟨vs, ws, [], by simp, (hf.known hs).1, by simp, hP⟩

theorem effects_wp {P₀ : D → List W → Prop}
    (hL : EffectLaws S L.rely ρ quiet fun d es => P₀ d es ∧ L.adm d es) {p : Prog D W ε α}
    {Q : Trace → D → α → Prop} {Q' : Local D W ε → D → α → Prop}
    (hQ : ∀ {τ d₀ a σ d}, Q τ d₀ a → τ.inTx = σ.tx.isSome → Q' σ d a) {τ : Trace} {d₀ : D}
    (hp : p.effects ρ quiet P₀ Q τ d₀) {σ : Local D W ε} {d : D}
    (hf : Fits S ρ quiet (fun d es => P₀ d es ∧ L.adm d es) τ d₀ σ d) :
    wp S L (fun _ _ => Single S quiet fun d es => P₀ d es ∧ L.adm d es) (fun _ _ _ => True)
      p Q' σ d := by
  induction p generalizing τ d₀ σ d with
  | ret a => exact hQ hp hf.inTx
  | throw e => exact hf.fails e d
  | stmt w k ih =>
    intro d' hr
    have hf' := hf.rely hL hr
    refine ⟨fun e _ => hf'.fails e d', fun hadm => ?_⟩
    rcases hp (S.view σ d') (fun hs => (hf'.known hs).2) with ⟨hq, hk⟩ | ⟨hs, hP, hk⟩
    · exact hf'.quietStmt hL hq fun σ' d'' hfit => ih _ hk hfit
    · exact hf'.effectStmt hs ⟨hP, hadm⟩ fun σ' d'' hfit => ih _ hk hfit
  | aside w k ih =>
    intro d' hr
    have hf' := hf.rely hL hr
    obtain ⟨hq, hk⟩ := hp d'
    exact ⟨fun e _ => hf'.fails e d', fun _ => .inl hq, ih _ hk (hf'.rely hL (hL.steps hq _ d'))⟩
  | openTx h k ihh ihk =>
    obtain ⟨htx, hh, hk⟩ := hp
    obtain ⟨tx, c⟩ := σ
    cases tx with
    | some tx => exact absurd (htx ▸ hf.inTx) (by simp)
    | none =>
      refine ⟨rfl, fun d' hr => ?_⟩
      have hf' := hf.rely hL hr
      refine ⟨fun _ _ => trivial, ihk hk ⟨rfl, ?_, .inl (by simp), ?_⟩⟩
      · intro ps H heq e d''
        cases heq
        exact ihh e (hh e) ⟨rfl, fun h => (by cases h), .inl (by simp), fun h => by cases h⟩
      · exact fun hs => ⟨by simp, (hf'.known hs).2⟩
  | commit k ih =>
    intro d' hr
    have hf' := hf.rely hL hr
    refine ⟨fun e _ => hf'.fails e d', ?_⟩
    obtain ⟨tx, c⟩ := σ
    cases tx with
    | none => exact ih hp ⟨rfl, fun h => (by cases h), .inl (by simp), hf'.known⟩
    | some tx =>
      refine ⟨hf'.pending, ih hp ⟨rfl, fun h => (by cases h), .inl (by simp), fun hs => ?_⟩⟩
      exact ⟨by simp, (hf'.known hs).2⟩

/-- Every run of a program with effects closes its transaction, whatever the
others do. -/
theorem effects_wp_true {G : Bool → List K → D → List W → Prop} {err : List (List W) → ε → D → Prop}
    (hG : ∀ b k d ws, G b k d ws) (herr : ∀ c e d, err c e d) (hρ : ∀ a b, ρ a b) {p : Prog D W ε α}
    {Q : Trace → D → α → Prop} {Q' : Local D W ε → D → α → Prop}
    (hQ : ∀ {τ d₀ a σ d}, Q τ d₀ a → τ.inTx = σ.tx.isSome → Q' σ d a) {τ : Trace} {d₀ : D}
    (hp : p.effects ρ quiet P Q τ d₀) {σ : Local D W ε} (hτ : τ.inTx = σ.tx.isSome)
    (hH : ∀ {ps H}, σ.tx = some (ps, H) → ∀ e d, H e d) {d : D} :
    wp S L G err p Q' σ d := by
  have hfails : ∀ {σ : Local D W ε}, (∀ {ps H}, σ.tx = some (ps, H) → ∀ e d, H e d) →
      ∀ e d, σ.fails err e d := by
    intro σ hσ e d
    unfold Local.fails
    split
    · exact herr _ e d
    · next h => exact hσ h e d
  induction p generalizing τ d₀ σ d with
  | ret a => exact hQ hp hτ
  | throw e => exact hfails hH e d
  | stmt w k ih =>
    intro d' _
    refine ⟨fun e _ => hfails hH e d', fun _ => ?_⟩
    have hk : ∃ τ', τ'.inTx = τ.inTx ∧ (k (S.view σ d')).effects ρ quiet P Q τ' (S.view σ d') := by
      rcases hp (S.view σ d') fun _ => hρ _ _ with ⟨-, hk⟩ | ⟨-, -, hk⟩
      · exact ⟨τ, rfl, hk⟩
      · exact ⟨⟨true, τ.inTx⟩, rfl, hk⟩
    obtain ⟨τ', hτ', hk⟩ := hk
    obtain ⟨tx, c⟩ := σ
    cases tx with
    | none => exact ⟨fun _ => hG _ _ _ _, ih _ hk (hτ'.trans hτ) hH⟩
    | some tx =>
      obtain ⟨ps, H⟩ := tx
      show wp S L _ _ (k _) Q' ⟨some (ps ++ w _, H), c⟩ d'
      refine ih _ hk ?_ ?_
      · exact hτ'.trans hτ
      · intro ps' H' heq
        cases heq
        exact hH rfl
  | aside w k ih =>
    intro d' _
    exact ⟨fun e _ => hfails hH e d', fun _ => hG _ _ _ _, ih _ (hp d').2 hτ hH⟩
  | openTx h k ihh ihk =>
    obtain ⟨htx, hh, hk⟩ := hp
    obtain ⟨tx, c⟩ := σ
    cases tx with
    | some tx => exact absurd (htx.symm.trans hτ) (by simp)
    | none =>
      refine ⟨rfl, fun d' _ => ⟨fun _ _ => herr _ _ _, ihk hk rfl ?_⟩⟩
      intro ps H heq e d''
      cases heq
      exact ihh e (hh e) rfl fun h => by cases h
  | commit k ih =>
    intro d' _
    refine ⟨fun e _ => hfails hH e d', ?_⟩
    obtain ⟨tx, c⟩ := σ
    cases tx with
    | none => exact ih hp rfl hH
    | some tx => exact ⟨hG _ _ _ _, ih hp rfl fun h => by cases h⟩

end

/-! ## Systems of programs with one effect -/

/-- The specification of an operation with the effects `P`. -/
def Spec.effect (S : Store D W K) (quiet : W → Prop) (P : D → List W → Prop) :
    Spec D W K ε α where
  guar := fun _ _ => Single S quiet P
  err := fun _ _ _ => True
  post := fun _ _ _ => True

/-- The effects `P` of the statements that a run admits. -/
def Assume.admitted (A : Assume D W K Op) (P : Op → D → List W → Prop) (op : Op) (d : D)
    (es : List W) : Prop := P op d es ∧ A.runs.adm op d es = true

theorem Sound.of_effects [DecidableEq K] {Y : System D W K ε α Op} {A : Assume D W K Op}
    {I : D → Prop} {ρ : D → D → Prop} {quiet : W → Prop} {P : Op → D → List W → Prop}
    (laws : ∀ op, EffectLaws Y.store A.rely ρ quiet (A.admitted P op))
    (refl : ∀ {h d}, A.rely h d d) (trans : ∀ {h a b c}, A.rely h a b → A.rely h b c → A.rely h a c)
    (weaken : ∀ {h d d'}, A.rely h d d' → A.rely [] d d')
    (settled : ∀ {d d'}, A.rely [] d d' → A.settled d d')
    (step : ∀ {op d ws}, I d → Single Y.store quiet (A.admitted P op) d ws →
      I (Y.store.applyAll d ws) ∧ A.settled d (Y.store.applyAll d ws) ∧
      (A.runs.serial = false → ∀ h, (∀ k ∈ h, k ∉ Y.store.locks ws) →
        A.rely h d (Y.store.applyAll d ws)))
    (prog : ∀ {i op d}, I d → A.runs.ops d op = true → (Y.prog i op).effects ρ quiet (P op)
      (fun τ _ _ => τ.inTx = false) ⟨false, false⟩ d) :
    Sound Y A I fun _ op => .effect Y.store quiet (A.admitted P op) where
  refl := refl
  trans := trans
  weaken := weaken
  settled := settled
  post := fun _ _ => trivial
  err := fun _ _ => trivial
  step := by
    intro i op b held d ws hI hg
    obtain ⟨hI', hset, hrely⟩ := step hI hg
    exact ⟨hI', hset, fun hs h hh _ => hrely hs h hh⟩
  prog := by
    intro i op d hI hop
    refine effects_wp (L := Y.rules A op) (laws op) ?_ (prog hI hop) ?_
    · intro τ d₀ a σ d' hQ htx
      exact ⟨by rw [hQ] at htx; simpa using htx.symm, trivial⟩
    · exact ⟨rfl, fun h => (by cases h), .inl (by simp), fun _ => ⟨by simp, (laws op).refl d⟩⟩

end Txn
