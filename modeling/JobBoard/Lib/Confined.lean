import JobBoard.Lib.Alone

/-!
# What a call may write

`p.Confined ok`: every write that `p` issues satisfies `ok`, whether on its transaction
or outside of it, and so do the groups that `p` publishes (`Confined.wp`). `alone_of_wp`
takes a weakest precondition to a call that runs alone: what the published groups keep
holds throughout the call.
-/

set_option autoImplicit false

namespace Txn

variable {D W K ε α β : Type}

namespace Prog

/-! ## Writes -/

def Confined (ok : W → Prop) : Prog D W ε α → Prop
  | ret _ => True
  | throw _ => True
  | stmt w k => ∀ d, (∀ x ∈ w d, ok x) ∧ (k d).Confined ok
  | aside w k => ∀ d, (∀ x ∈ w d, ok x) ∧ (k d).Confined ok
  | openTx h k => (∀ e, (h e).Confined ok) ∧ k.Confined ok
  | commit k => k.Confined ok

section

variable {ok : W → Prop}

theorem Confined.bind {p : Prog D W ε α} {f : α → Prog D W ε β} (hp : p.Confined ok)
    (hf : ∀ a, (f a).Confined ok) : (p >>= f).Confined ok := by
  induction p with
  | ret a => exact hf a
  | throw e => trivial
  | stmt w k ih => exact fun d => ⟨(hp d).1, ih d (hp d).2⟩
  | aside w k ih => exact fun d => ⟨(hp d).1, ih d (hp d).2⟩
  | openTx h k ihh ihk => exact ⟨fun e => ihh e (hp.1 e), ihk hp.2⟩
  | commit k ih => exact ih hp

theorem confined_select (f : D → α) : (select f : Prog D W ε α).Confined ok :=
  fun _ => ⟨by simp, trivial⟩

theorem confined_ofExcept (x : Except ε α) : (ofExcept x : Prog D W ε α).Confined ok := by
  cases x <;> trivial

theorem confined_query {f : D → Except ε (List W × α)}
    (h : ∀ d r, f d = .ok r → ∀ x ∈ r.1, ok x) : (query f : Prog D W ε α).Confined ok := by
  intro d
  cases hf : f d with
  | ok r =>
    simp only [hf]
    exact ⟨h d r hf, trivial⟩
  | error e =>
    simp only [hf]
    exact ⟨by simp, trivial⟩

theorem confined_write {f : D → List W} (h : ∀ d, ∀ x ∈ f d, ok x) :
    (write f : Prog D W ε Unit).Confined ok := fun d => ⟨h d, trivial⟩

theorem confined_outside {f : D → List W} (h : ∀ d, ∀ x ∈ f d, ok x) :
    (outside f : Prog D W ε Unit).Confined ok := fun d => ⟨h d, trivial⟩

theorem Confined.mapError {p : Prog D W ε α} (hp : p.Confined ok) (g : ε → ε) :
    (p.mapError g).Confined ok := by
  induction p with
  | ret a => trivial
  | throw e => trivial
  | stmt w k ih => exact fun d => ⟨(hp d).1, ih d (hp d).2⟩
  | aside w k ih => exact fun d => ⟨(hp d).1, ih d (hp d).2⟩
  | openTx h k => exact hp
  | commit k ih => exact ih hp

theorem confined_transaction {body : Prog D W ε β} {h : ε → Prog D W ε α}
    {k : β → Prog D W ε α} (hbody : body.Confined ok) (hh : ∀ e, (h e).Confined ok)
    (hk : ∀ b, (k b).Confined ok) : (transaction body h k).Confined ok :=
  ⟨hh, hbody.bind hk⟩

/-- Nothing but such writes is published. -/
theorem Confined.wp_both {S : Store D W K} {L : Rules D W K ε}
    {G : Bool → List K → D → List W → Prop} {err : List (List W) → ε → D → Prop}
    {Q : Local D W ε → D → α → Prop} (hQ : ∀ {σ τ d a}, Local.Both σ σ τ → Q σ d a → Q τ d a)
    {p : Prog D W ε α} (hp : p.Confined ok) {σ τ : Local D W ε} (hτ : Local.Both σ σ τ)
    (hσ : ∀ w ∈ σ.pending, ok w) {d : D} (h : wp S L G err p Q σ d) :
    wp S L (fun b k d ws => G b k d ws ∧ ∀ w ∈ ws, ok w) err p Q τ d := by
  have hfails : ∀ {σ τ : Local D W ε} {e d}, Local.Both σ σ τ → σ.fails err e d →
      τ.fails err e d := fun hτ he => hτ.fails (fun _ _ _ he _ => he) he he
  induction p generalizing σ τ d with
  | ret a => exact hQ hτ h
  | throw e => exact hfails hτ h
  | stmt w k ih =>
    intro d' hr
    cases hτ with
    | none c =>
      obtain ⟨hf, hs⟩ := h d' hr
      refine ⟨hf, fun hadm => ?_⟩
      obtain ⟨hg, hk⟩ := hs hadm
      exact ⟨fun hne => ⟨hg hne, (hp d').1⟩, ih _ (hp _).2 (.none c) hσ hk⟩
    | some ws c hH =>
      obtain ⟨hf, hs⟩ := h d' hr
      refine ⟨fun e he => hH e d' (hf e he) (hf e he), fun hadm => ?_⟩
      refine ih _ (hp _).2 (.some _ c hH) (fun x hx => ?_) (hs hadm)
      rcases List.mem_append.1 hx with hx | hx
      · exact hσ x hx
      · exact (hp _).1 x hx
  | aside w k ih =>
    intro d' hr
    have hheld : S.held τ = S.held σ := by cases hτ <;> rfl
    rw [hheld] at hr ⊢
    obtain ⟨hf, hg, hk⟩ := h d' hr
    exact ⟨fun e he => hfails hτ (hf e he), fun hne => ⟨hg hne, (hp d').1⟩,
      ih _ (hp d').2 hτ hσ hk⟩
  | openTx hd k ihh ihk =>
    obtain ⟨htx, h⟩ := h
    cases hτ with
    | some ws c hH => cases htx
    | none c =>
      refine ⟨rfl, fun d' hr => ?_⟩
      obtain ⟨hf, hk⟩ := h d' hr
      refine ⟨hf, ihk hp.2 (.some [] c fun e d'' he _ => ?_) (by simp) hk⟩
      exact ihh e (hp.1 e) (.none c) (by simp) he
  | commit k ih =>
    intro d' hr
    cases hτ with
    | none c =>
      obtain ⟨hf, hk⟩ := h d' hr
      exact ⟨hf, ih hp (.none c) hσ hk⟩
    | some ws c hH =>
      obtain ⟨hf, hg, hk⟩ := h d' hr
      exact ⟨fun e he => hH e d' (hf e he) (hf e he), ⟨hg, hσ⟩, ih hp (.none _) (by simp) hk⟩

theorem Confined.wp {S : Store D W K} {L : Rules D W K ε} {G : Bool → List K → D → List W → Prop}
    {err : List (List W) → ε → D → Prop} {Q : D → α → Prop} {p : Prog D W ε α} (hp : p.Confined ok)
    {d : D} (h : wp S L G err p (fun σ d a => σ.tx = none ∧ Q d a) ⟨none, []⟩ d) :
    wp S L (fun b k d ws => G b k d ws ∧ ∀ w ∈ ws, ok w) err p
      (fun σ d a => σ.tx = none ∧ Q d a) ⟨none, []⟩ d := by
  refine hp.wp_both (fun hτ hq => ?_) (.none []) (by simp) h
  cases hτ with
  | none c => exact hq
  | some ws c hH => cases hq.1

end

/-! ## Alone -/

section

variable {S : Store D W K} {L : Rules D W K ε} {G : Bool → List K → D → List W → Prop}
  {err : List (List W) → ε → D → Prop} {J : Published W → D → Prop}
  {E : Published W → D → ε → Prop} {Q : D → α → Prop} {Q' : Published W → D → α → Prop}

/-- The open transaction of a call that runs alone, where `J` holds. -/
inductive Opened.Of (J : Published W → D → Prop) : Local D W ε → Opened D W ε → Prop
  | none (c : List (List W)) : Opened.Of J ⟨none, c⟩ none
  | some {H : ε → D → Prop} {H' : ε → Published W → D → Prop} (ws : List W) (c : List (List W))
      (h : ∀ e gs d, J gs d → H e d → H' e gs d) : Opened.Of J ⟨some (ws, H), c⟩ (some (ws, H'))

/-- Without interference: what the groups keep holds throughout, and where the call ends. -/
theorem alone_of_wp (hrely : ∀ h d, L.rely h d d)
    (hJ : ∀ {gs d b held ws}, J gs d → G b held d ws → J (gs ++ [(b, ws)]) (S.applyAll d ws))
    (hE : ∀ {gs d c e}, J gs d → err c e d → E gs d e)
    (hQ : ∀ {gs d a}, J gs d → Q d a → Q' gs d a) {p : Prog D W ε α} {σ : Local D W ε}
    {tx : Opened D W ε} (htx : Opened.Of J σ tx) {gs : Published W} {d : D} (hd : J gs d)
    (h : wp S L G err p (fun σ d a => σ.tx = none ∧ Q d a) σ d) :
    p.alone S L.fault L.adm J E (fun tx gs d a => tx = none ∧ Q' gs d a) tx gs d := by
  have hfails : ∀ {σ tx gs d e}, Opened.Of J σ tx → J gs d → σ.fails err e d →
      failsWith E tx gs d e := by
    intro σ tx gs d e htx hd he
    cases htx with
    | none c => exact hE hd he
    | some ws c hH => exact hH e gs d hd he
  have hreaches : ∀ {gs d ws held} {K : Published W → D → Prop}, J gs d →
      (ws ≠ [] → G false held d ws) → (∀ gs', J gs' (S.applyAll d ws) → K gs' (S.applyAll d ws)) →
      reaches S J gs d ws K := by
    intro gs d ws held K hd hg hK
    cases ws with
    | nil => exact hK gs hd
    | cons w ws =>
      have hd' := hJ hd (hg (by simp))
      exact ⟨hd', hK _ hd'⟩
  induction p generalizing σ tx gs d with
  | ret a =>
    obtain ⟨hσ, hq⟩ := h
    cases htx with
    | none c => exact ⟨rfl, hQ hd hq⟩
    | some ws c hH => cases hσ
  | throw e => exact hfails htx hd h
  | stmt w k ih =>
    obtain ⟨hf, hs⟩ := h d (hrely _ d)
    cases htx with
    | none c =>
      refine ⟨fun e he => hE hd (hf e he), fun hadm => ?_⟩
      exact hreaches hd (hs hadm).1 fun gs' hd' => ih d (.none c) hd' (hs hadm).2
    | some ws c hH =>
      exact ⟨fun e he => hH e gs d hd (hf e he), fun hadm => ih _ (.some _ c hH) hd (hs hadm)⟩
  | aside w k ih =>
    obtain ⟨hf, hg, hk⟩ := h d (hrely _ d)
    refine ⟨fun e he => hfails htx hd (hf e he), hreaches hd hg fun gs' hd' => ?_⟩
    exact ih d htx hd' hk
  | openTx hd' k ihh ihk =>
    obtain ⟨hσ, h⟩ := h
    obtain ⟨hf, hk⟩ := h d (hrely _ d)
    cases htx with
    | some ws c hH => cases hσ
    | none c =>
      refine ⟨rfl, fun e he => hE hd (hf e he), ihk (.some [] c fun e gs' d' hd' he => ?_) hd hk⟩
      exact ihh e (.none c) hd' he
  | commit k ih =>
    obtain ⟨hf, hk⟩ := h d (hrely _ d)
    cases htx with
    | none c => exact ⟨fun e he => hE hd (hf e he), ih (.none c) hd hk⟩
    | some ws c hH =>
      have hd' := hJ hd hk.1
      exact ⟨fun e he => hH e gs d hd (hf e he), hd', ih (.none _) hd' hk.2⟩

end

end Prog

end Txn
