import JobBoard.Lib.Combinators

/-!
# Logs of single writes

For a system whose programs open no transaction and whose statements publish one write at a
time. `Promises` is what a program promises of each write, as a fact about the log it is added
to: what the call has seen before is a fact about a prefix of it, which no other call can take
back. `Traced.published` is the result: in every run under a condition, each write of the log is
as promised, and was published by a step that satisfies the condition.
-/

set_option autoImplicit false

namespace Txn

variable {D D' W W' K K' ε α β Op : Type}

/-- Between the two logs call `i` has published nothing. -/
def ByOthers (i : Nat) (L L' : List (Group W)) : Prop := ∃ gs, L' = L ++ gs ∧ ∀ g ∈ gs, g.call ≠ i

/-- At the moment `A` of the log `L` call `i` has published `w`. -/
def WrittenAt (L A : List (Group W)) (i : Nat) (w : W) : Prop := A ++ [⟨i, false, [w]⟩] <+: L

section

variable {i : Nat} {L L' L'' A : List (Group W)} {w : W}

theorem ByOthers.refl (i : Nat) (L : List (Group W)) : ByOthers i L L := ⟨[], by simp, by simp⟩

theorem ByOthers.trans (h : ByOthers i L L') (h' : ByOthers i L' L'') : ByOthers i L L'' := by
  obtain ⟨gs, rfl, hgs⟩ := h
  obtain ⟨gs', rfl, hgs'⟩ := h'
  refine ⟨gs ++ gs', by rw [List.append_assoc], fun g hg => ?_⟩
  exact (List.mem_append.1 hg).elim (hgs g) (hgs' g)

theorem ByOthers.onto (h : ByOthers i L L') : L <+: L' := by
  obtain ⟨gs, rfl, -⟩ := h
  exact List.prefix_append _ _

/-- What call `i` has not published meanwhile. -/
theorem ByOthers.not_written (h : ByOthers i L L') (hA : L <+: A) : ¬ WrittenAt L' A i w := by
  obtain ⟨gs, rfl, hgs⟩ := h
  obtain ⟨as, rfl⟩ := hA
  intro hw
  rw [WrittenAt, List.append_assoc, List.prefix_append_right_inj] at hw
  exact hgs _ (hw.subset (List.mem_append_right _ (List.mem_singleton_self _))) rfl

instance [DecidableEq W] : Decidable (WrittenAt L A i w) :=
  inferInstanceAs (Decidable (_ <+: _))

theorem WrittenAt.mono (h : WrittenAt L A i w) (hl : L <+: L') : WrittenAt L' A i w := h.trans hl

theorem WrittenAt.onto (h : WrittenAt L A i w) : A <+: L := (List.prefix_append _ _).trans h

theorem writtenAt_self (L : List (Group W)) (i : Nat) (w : W) :
    WrittenAt (L ++ [⟨i, false, [w]⟩]) L i w := List.prefix_rfl

theorem writtenAt_inj {A' : List (Group W)} {i' : Nat} {w' : W}
    (h : A ++ [⟨i, false, [w]⟩] = A' ++ [⟨i', false, [w']⟩]) : A = A' ∧ i = i' ∧ w = w' := by
  obtain ⟨hA, heq⟩ := List.append_inj' h rfl
  simp only [List.cons.injEq, Group.mk.injEq, and_true, true_and] at heq
  exact ⟨hA, heq.1, heq.2⟩

/-- A group of another call. -/
theorem writtenAt_others {g : Group W} (hg : g.call ≠ i) (h : WrittenAt (L ++ [g]) A i w) :
    WrittenAt L A i w := by
  rcases List.prefix_concat_iff.1 h with heq | hp
  · obtain ⟨-, heq⟩ := List.append_inj' heq rfl
    cases heq
    exact absurd rfl hg
  · exact hp

/-- The writes of a log with one more: the new one, and those of before. -/
theorem writtenAt_snoc {i' : Nat} {w' : W} :
    WrittenAt (L ++ [⟨i', false, [w']⟩]) A i w ↔ (A = L ∧ i = i' ∧ w = w') ∨ WrittenAt L A i w := by
  constructor
  · intro h
    rcases List.prefix_concat_iff.1 h with heq | hp
    · exact .inl (writtenAt_inj heq)
    · exact .inr hp
  · rintro (⟨rfl, rfl, rfl⟩ | h)
    · exact writtenAt_self _ _ _
    · exact h.mono (List.prefix_append _ _)

/-- Of two writes of a log, the one that comes first is in the log that the other is added to. -/
theorem WrittenAt.cases {A' : List (Group W)} {i' : Nat} {w' : W} (h : WrittenAt L A i w)
    (h' : WrittenAt L A' i' w') :
    (A = A' ∧ i = i' ∧ w = w') ∨ WrittenAt A' A i w ∨ WrittenAt A A' i' w' := by
  rcases List.prefix_or_prefix_of_prefix h h' with hp | hp
  · exact (writtenAt_snoc.1 hp).imp_right .inl
  · rcases writtenAt_snoc.1 hp with ⟨hA, hi, hw⟩ | hp
    · exact .inl ⟨hA.symm, hi.symm, hw.symm⟩
    · exact .inr (.inr hp)

end

/-- What holds at a moment of the log and is kept by each later group holds from then on. -/
theorem along_log_from {I : List (Group W) → Prop} {A L : List (Group W)} (hA : I A)
    (hstep : ∀ l g, A <+: l → l ++ [g] <+: L → I l → I (l ++ [g])) :
    ∀ l, A <+: l → l <+: L → I l := by
  rintro l ⟨B, rfl⟩ hl
  induction B using List.reverseRecOn with
  | nil => rwa [List.append_nil]
  | append_singleton B g ih =>
    rw [← List.append_assoc] at hl ⊢
    exact hstep _ g (List.prefix_append _ _) hl (ih ((List.prefix_append _ _).trans hl))

theorem along_log {I : List (Group W) → Prop} {L : List (Group W)} (h₀ : I [])
    (hstep : ∀ l g, l ++ [g] <+: L → I l → I (l ++ [g])) : ∀ l, l <+: L → I l :=
  fun l => along_log_from h₀ (fun l g _ => hstep l g) l List.nil_prefix

/-- What every write keeps holds at every later moment. -/
theorem replay_keeps {S : Store D W K} {d₀ : D} {P : D → Prop}
    (hP : ∀ d w, P d → P (S.apply d w)) {A L : List (Group W)} (hl : A <+: L)
    (h : P (replay S d₀ A)) : P (replay S d₀ L) := by
  have all : ∀ ws d, P d → P (S.applyAll d ws) := by
    intro ws
    induction ws with
    | nil => exact fun d h => h
    | cons w ws ih => exact fun d h => ih _ (hP d w h)
  refine along_log_from (I := fun L => P (replay S d₀ L)) h (fun l g _ _ h => ?_) L hl
    List.prefix_rfl
  rw [replay_snoc]
  exact all _ _ h

/-! ## What a call has not published yet -/

/-- Call `i` has published no write of the kind `p`. -/
def Unwritten (i : Nat) (p : W → Bool) (L : List (Group W)) : Prop :=
  ∀ A w, WrittenAt L A i w → p w = false

section

variable {i : Nat} {p : W → Bool} {L L' : List (Group W)}

theorem Unwritten.start (h : ∀ g ∈ L, g.call ≠ i) : Unwritten i p L :=
  fun _ _ hw => absurd rfl (h _ (hw.subset (List.mem_append_right _ (List.mem_singleton_self _))))

theorem Unwritten.others (h : Unwritten i p L) (hr : ByOthers i L L') : Unwritten i p L' := by
  obtain ⟨gs, rfl, hgs⟩ := hr
  intro A w hw
  induction gs using List.reverseRecOn generalizing A w with
  | nil => exact h A w (by rwa [List.append_nil] at hw)
  | append_singleton gs g ih =>
    rw [← List.append_assoc] at hw
    exact ih (fun g hg => hgs g (List.mem_append_left _ hg)) A w
      (writtenAt_others (hgs g (List.mem_append_right _ (List.mem_singleton_self _))) hw)

theorem Unwritten.snoc (h : Unwritten i p L) {w : W} (hw : p w = false) :
    Unwritten i p (L ++ [⟨i, false, [w]⟩]) := by
  intro A w' hw'
  rcases writtenAt_snoc.1 hw' with ⟨-, -, rfl⟩ | hw'
  · exact hw
  · exact h A w' hw'

end

/-! ## Promises -/

namespace Prog

/-- From the log `L` each write of the program, of call `i`, is as promised by `G`, where it
throws or fails `F` holds, and at its end `Q`. -/
abbrev Follows (S : Store D W K) (d₀ : D) (i : Nat) (G : List (Group W) → W → Prop)
    (F : List (Group W) → Prop) (fault : ε → Prop) (p : Prog D W ε α)
    (Q : List (Group W) → α → Prop) (L : List (Group W)) : Prop :=
  p.along S d₀ i (ByOthers i) (fun _ => True) (fun L ws => ∃ w, ws = [w] ∧ G L w) F fault
    (fun L _ => F L) Q L

/-- Nothing is promised of where it throws or fails. -/
abbrev Promises (S : Store D W K) (d₀ : D) (i : Nat) (G : List (Group W) → W → Prop)
    (fault : ε → Prop) (p : Prog D W ε α) (Q : List (Group W) → α → Prop)
    (L : List (Group W)) : Prop :=
  p.Follows S d₀ i G (fun _ => True) fault Q L

section

variable {S : Store D W K} {d₀ : D} {i : Nat} {G : List (Group W) → W → Prop}
  {F : List (Group W) → Prop} {fault : ε → Prop} {L : List (Group W)}
  {Q : List (Group W) → α → Prop}

theorem follows_bind {p : Prog D W ε β} {f : β → Prog D W ε α} :
    (p >>= f).Follows S d₀ i G F fault Q L ↔
      p.Follows S d₀ i G F fault (fun L' b => (f b).Follows S d₀ i G F fault Q L') L :=
  along_bind _ _ _ _

theorem follows_select {f : D → α} (h : ∀ L', ByOthers i L L' → Q L' (f (replay S d₀ L'))) :
    (select f : Prog D W ε α).Follows S d₀ i G F fault Q L :=
  along_select (fun _ _ _ hF _ _ => hF) fun L' hr _ => h L' hr

theorem follows_query {f : D → Except ε (List W × α)}
    (herr : ∀ L' e, ByOthers i L L' → f (replay S d₀ L') = .error e → F L')
    (h : ∀ L' ws a, ByOthers i L L' → f (replay S d₀ L') = .ok (ws, a) →
      (ws = [] ∧ Q L' a) ∨ ∃ w, ws = [w] ∧ G L' w ∧ Q (L' ++ [⟨i, false, [w]⟩]) a) :
    (query f : Prog D W ε α).Follows S d₀ i G F fault Q L := by
  refine along_query (fun _ _ _ hF _ _ => hF) (fun L' e hr _ => herr L' e hr) ?_
  intro L' ws a hr _ hf
  rcases h L' ws a hr hf with ⟨rfl, hQ⟩ | ⟨w, rfl, hw, hQ⟩
  · exact hQ
  · exact ⟨⟨w, rfl, hw⟩, hQ⟩

theorem follows_write {f : D → W} {Q : List (Group W) → Unit → Prop}
    (h : ∀ L', ByOthers i L L' → G L' (f (replay S d₀ L')) ∧
      Q (L' ++ [⟨i, false, [f (replay S d₀ L')]⟩]) ()) :
    (write fun d => [f d] : Prog D W ε Unit).Follows S d₀ i G F fault Q L :=
  along_write (fun _ _ _ hF _ _ => hF) fun L' hr _ => ⟨⟨_, rfl, (h L' hr).1⟩, (h L' hr).2⟩

theorem Follows.mono {p : Prog D W ε α} {Q' : List (Group W) → α → Prop}
    (h : p.Follows S d₀ i G F fault Q L) (hQ : ∀ L' a, Q L' a → Q' L' a) :
    p.Follows S d₀ i G F fault Q' L := along_mono hQ h

theorem Follows.promises {p : Prog D W ε α} (h : p.Follows S d₀ i G F fault Q L) :
    p.Promises S d₀ i G fault Q L := by
  induction p generalizing L with
  | ret a => exact h
  | throw e => trivial
  | stmt w k ih =>
    exact fun L' hr hI => ⟨fun _ _ _ => trivial, logs_mono (h L' hr hI).2 fun L'' h => ih _ h⟩
  | aside w k ih =>
    exact fun L' hr hI => ⟨fun _ _ _ => trivial, logs_mono (h L' hr hI).2 fun L'' h => ih _ h⟩
  | openTx hd k => exact h.elim
  | commit k => exact h.elim

/-- A plain piece carries along what its writes, and those of others, keep. -/
theorem Plain.follows {ok : W → Prop} {Er : ε → Prop} {p : Prog D W ε α}
    {P : List (Group W) → Prop}
    (hp : p.Plain (fun ws => ws = [] ∨ ∃ w, ws = [w] ∧ ok w)
      (fun ws => ws = [] ∨ ∃ w, ws = [w] ∧ ok w) Er)
    (hothers : ∀ L L', P L → ByOthers i L L' → P L')
    (hown : ∀ L w, P L → ok w → G L w ∧ P (L ++ [⟨i, false, [w]⟩]))
    (hthrow : ∀ L e, P L → Er e → F L) (h : P L) :
    p.Follows S d₀ i G F fault (fun L' _ => P L') L := by
  refine Plain.along hp (fun L L' hl hr _ => hothers L L' hl hr) ?_ ?_ (fun _ _ hl => hl) h
  · rintro L' ws hl - (rfl | ⟨w, rfl, hw⟩)
    · exact hl
    · exact ⟨⟨w, rfl, (hown L' w hl hw).1⟩, (hown L' w hl hw).2⟩
  · rintro L' e hl (he | ⟨hF, -⟩)
    · exact hthrow L' e hl he
    · exact hF

theorem promises_bind {p : Prog D W ε β} {f : β → Prog D W ε α} :
    (p >>= f).Promises S d₀ i G fault Q L ↔
      p.Promises S d₀ i G fault (fun L' b => (f b).Promises S d₀ i G fault Q L') L :=
  follows_bind

theorem promises_select {f : D → α} (h : ∀ L', ByOthers i L L' → Q L' (f (replay S d₀ L'))) :
    (select f : Prog D W ε α).Promises S d₀ i G fault Q L := follows_select h

theorem promises_query {f : D → Except ε (List W × α)}
    (h : ∀ L' ws a, ByOthers i L L' → f (replay S d₀ L') = .ok (ws, a) →
      (ws = [] ∧ Q L' a) ∨ ∃ w, ws = [w] ∧ G L' w ∧ Q (L' ++ [⟨i, false, [w]⟩]) a) :
    (query f : Prog D W ε α).Promises S d₀ i G fault Q L :=
  follows_query (fun _ _ _ _ => trivial) h

theorem promises_write {f : D → W} {Q : List (Group W) → Unit → Prop}
    (h : ∀ L', ByOthers i L L' → G L' (f (replay S d₀ L')) ∧
      Q (L' ++ [⟨i, false, [f (replay S d₀ L')]⟩]) ()) :
    (write fun d => [f d] : Prog D W ε Unit).Promises S d₀ i G fault Q L := follows_write h

theorem Promises.mono {p : Prog D W ε α} {Q' : List (Group W) → α → Prop}
    (h : p.Promises S d₀ i G fault Q L) (hQ : ∀ L' a, Q L' a → Q' L' a) :
    p.Promises S d₀ i G fault Q' L := Follows.mono h hQ

theorem promises_outside {f : D → W} {Q : List (Group W) → Unit → Prop}
    (h : ∀ L', ByOthers i L L' → G L' (f (replay S d₀ L')) ∧
      Q (L' ++ [⟨i, false, [f (replay S d₀ L')]⟩]) ()) :
    (outside fun d => [f d] : Prog D W ε Unit).Promises S d₀ i G fault Q L :=
  fun L' hr _ => ⟨fun _ _ _ => trivial, ⟨_, rfl, (h L' hr).1⟩, (h L' hr).2⟩

/-! ### Programs inside programs -/

section

variable {view : D → D'} {lift : W' → W}

theorem promises_zoom_bind {p : Prog D' W' ε β} {f : β → Prog D' W' ε α} :
    ((p >>= f).zoom view lift).Promises S d₀ i G fault Q L ↔
      (p.zoom view lift).Promises S d₀ i G fault
        (fun L' b => ((f b).zoom view lift).Promises S d₀ i G fault Q L') L := by
  rw [zoom_bind]
  exact promises_bind

theorem promises_zoom_select {f : D' → α}
    (h : ∀ L', ByOthers i L L' → Q L' (f (view (replay S d₀ L')))) :
    ((select f : Prog D' W' ε α).zoom view lift).Promises S d₀ i G fault Q L := by
  rw [zoom_select]
  exact promises_select h

theorem promises_zoom_query {f : D' → Except ε (List W' × α)}
    (h : ∀ L' ws a, ByOthers i L L' → f (view (replay S d₀ L')) = .ok (ws, a) →
      (ws = [] ∧ Q L' a) ∨
        ∃ w, ws = [w] ∧ G L' (lift w) ∧ Q (L' ++ [⟨i, false, [lift w]⟩]) a) :
    ((query f : Prog D' W' ε α).zoom view lift).Promises S d₀ i G fault Q L := by
  rw [zoom_query]
  refine promises_query fun L' ws a hr hf => ?_
  cases hf' : f (view (replay S d₀ L')) with
  | error e =>
    rw [hf'] at hf
    cases hf
  | ok r =>
    rw [hf'] at hf
    cases hf
    rcases h L' r.1 r.2 hr hf' with ⟨hnil, hQ⟩ | ⟨w, hw, hG, hQ⟩
    · exact .inl ⟨by rw [hnil]; rfl, hQ⟩
    · exact .inr ⟨lift w, by rw [hw]; rfl, hG, hQ⟩

theorem promises_zoom_write {f : D' → W'} {Q : List (Group W) → Unit → Prop}
    (h : ∀ L', ByOthers i L L' → G L' (lift (f (view (replay S d₀ L')))) ∧
      Q (L' ++ [⟨i, false, [lift (f (view (replay S d₀ L')))]⟩]) ()) :
    ((write fun d => [f d] : Prog D' W' ε Unit).zoom view lift).Promises S d₀ i G fault Q L := by
  rw [zoom_write]
  exact promises_write h

end

/-- What the piece throws is handled at a later log. -/
theorem promises_caught {p : Prog D W ε α} {h : ε → Prog D W ε α}
    (hp : p.Promises S d₀ i G fault Q L)
    (hh : ∀ L' e, L <+: L' → (h e).Promises S d₀ i G fault Q L') :
    (p.caught h).Promises S d₀ i G fault Q L := by
  suffices hall : ∀ L', L <+: L' → p.Promises S d₀ i G fault Q L' →
      (p.caught h).Promises S d₀ i G fault Q L' from hall L List.prefix_rfl hp
  clear hp
  induction p with
  | ret a => exact fun _ _ hp => hp
  | throw e => exact fun L' hl _ => hh L' e hl
  | stmt w k ih | aside w k ih =>
    intro L' hl hp L₁ hr hI
    obtain ⟨-, hlogs⟩ := hp L₁ hr hI
    refine ⟨fun _ _ _ => trivial, ?_⟩
    have hl₁ : L <+: L₁ := hl.trans hr.onto
    generalize w (replay S d₀ L₁) = ws at hlogs ⊢
    cases ws with
    | nil => exact ih _ L₁ hl₁ hlogs
    | cons w ws => exact ⟨hlogs.1, ih _ _ (hl₁.trans (List.prefix_append _ _)) hlogs.2⟩
  | openTx hd k => exact fun _ _ hp => hp.elim
  | commit k => exact fun _ _ hp => hp.elim

/-- A plain piece, of whose writes the same is known at every log. -/
theorem Plain.promises {Er : ε → Prop} {p : Prog D W ε α}
    (hp : p.Plain (fun ws => ws = [] ∨ ∃ w, ws = [w] ∧ ∀ L, G L w)
      (fun ws => ws = [] ∨ ∃ w, ws = [w] ∧ ∀ L, G L w) Er) :
    p.Promises S d₀ i G fault (fun L' _ => L <+: L') L :=
  Plain.follows (P := fun L' => L <+: L') hp (fun _ _ hl hr => hl.trans hr.onto)
    (fun L' _ hl hw => ⟨hw L', hl.trans (List.prefix_append _ _)⟩) (fun _ _ _ _ => trivial)
    List.prefix_rfl

end

end Prog

/-! ## Runs -/

section

variable [DecidableEq K] {Y : System D W K ε α Op} {ok : State D W ε α Op → Label ε Op → Prop}
  {d₀ : D} {s : State D W ε α Op} {G : Nat → Op → List (Group W) → W → Prop}
  {P : Nat → Op → List (Group W) → α → Prop} {F : Nat → Op → List (Group W) → Prop}

/-- The programs of the system promise `G` of their writes and `P` of their results. `F` holds
where they throw, and under the condition also where a statement fails. -/
structure Followed (Y : System D W K ε α Op) (ok : State D W ε α Op → Label ε Op → Prop) (d₀ : D)
    (G : Nat → Op → List (Group W) → W → Prop) (P : Nat → Op → List (Group W) → α → Prop)
    (F : Nat → Op → List (Group W) → Prop) : Prop where
  prog : ∀ i op L, (∀ g ∈ L, g.call ≠ i) → (Y.prog i op).Follows Y.store d₀ i (G i op) (F i op)
    (fun e => Y.isFault e = true) (P i op) L
  mono : ∀ {i op L g a}, g.call ≠ i → P i op L a → P i op (L ++ [g]) a
  others : ∀ {i op L g}, g.call ≠ i → F i op L → F i op (L ++ [g])
  fault : ∀ {s i op e}, Y.Within ok d₀ s → s.db = replay Y.store d₀ s.log → ok s (.fault i e) →
    s.ops[i]? = some op → F i op s.log

/-- Call `i` of `op` publishes `w` at the log `l`, by a step from `t`. -/
structure Publishes (Y : System D W K ε α Op) (ok : State D W ε α Op → Label ε Op → Prop) (d₀ : D)
    (G : Nat → Op → List (Group W) → W → Prop) (l : List (Group W)) (i : Nat) (op : Op) (w : W)
    (t : State D W ε α Op) : Prop where
  promised : G i op l w
  within : Y.Within ok d₀ t
  log : t.log = l
  db : t.db = replay Y.store d₀ l
  ok : ok t (.step i)
  issues : t.issues i = [w]

namespace Followed

def conduct (G : Nat → Op → List (Group W) → W → Prop) (P : Nat → Op → List (Group W) → α → Prop)
    (F : Nat → Op → List (Group W) → Prop) : Conduct W ε α Op where
  rely i _ := ByOthers i
  inv _ := True
  guar i op L ws := ∃ w, ws = [w] ∧ G i op L w
  fails := F
  post := P
  err i op L _ := F i op L

theorem history (hY : Followed Y ok d₀ G P F) : History Y ok (conduct G P F) d₀ where
  refl i _ L := ByOthers.refl i L
  trans _ _ _ _ _ h h' := h.trans h'
  inv _ _ := trivial
  others _ _ _ _ _ hji _ _ _ _ := ⟨[_], rfl, by simpa using fun h => hji h.symm⟩
  settled _ _ _ _ _ _ hji :=
    ⟨fun _ h => hY.mono (Ne.symm hji) h, fun _ h => hY.others (Ne.symm hji) h⟩
  fault hw hk hok hi := hY.fault hw hk.db hok hi
  prog _ hk _ := by
    refine hY.prog _ _ _ fun g hg => ?_
    obtain ⟨l, r, hlog⟩ := List.append_of_mem hg
    obtain ⟨-, op, hop, -⟩ := hk.log hlog
    exact Nat.ne_of_lt (List.getElem?_eq_some_iff.1 hop).1

theorem kept (hY : Followed Y ok d₀ G P F) (h : Y.Within ok d₀ s) :
    Kept Y (conduct G P F) d₀ s := hY.history.good trivial h

theorem db (hY : Followed Y ok d₀ G P F) (h : Y.Within ok d₀ s) :
    s.db = replay Y.store d₀ s.log := (hY.kept h).db

/-- The result of a finished call is as promised. -/
theorem done (hY : Followed Y ok d₀ G P F) (h : Y.Within ok d₀ s) {i : Nat} {op : Op} {a : α}
    (hop : s.ops[i]? = some op) (hdone : s.call i = .done (.ok a)) : P i op s.log a := by
  have hkeeps := (hY.kept h).call hop
  rw [hdone] at hkeeps
  exact hkeeps

theorem failed (hY : Followed Y ok d₀ G P F) (h : Y.Within ok d₀ s) {i : Nat} {op : Op} {e : ε}
    (hop : s.ops[i]? = some op) (hdone : s.call i = .done (.error e)) : F i op s.log := by
  have hkeeps := (hY.kept h).call hop
  rw [hdone] at hkeeps
  exact hkeeps

/-- A call that is not running any more has returned, or it has thrown or failed. -/
theorem ended (hY : Followed Y ok d₀ G P F) (h : Y.Within ok d₀ s) {i : Nat} {op : Op}
    (hop : s.ops[i]? = some op) (hend : (s.call i).isRunning = false) :
    (∃ a, P i op s.log a) ∨ F i op s.log := by
  have hkeeps := (hY.kept h).call hop
  cases hcall : s.call i with
  | idle =>
    rw [hcall] at hkeeps
    exact hkeeps.elim
  | run tx p =>
    rw [hcall] at hend
    cases hend
  | done r =>
    rw [hcall] at hkeeps
    cases r with
    | ok a => exact .inl ⟨a, hkeeps⟩
    | error e => exact .inr hkeeps

/-- Each write of the log is as promised, and was published by a step under the condition. -/
theorem published (hY : Followed Y ok d₀ G P F) (h : Y.Within ok d₀ s) {l : List (Group W)}
    {g : Group W} (hlog : l ++ [g] <+: s.log) :
    ∃ op w t, g = ⟨g.call, false, [w]⟩ ∧ s.ops[g.call]? = some op ∧
      Publishes Y ok d₀ G l g.call op w t := by
  obtain ⟨r, hlog⟩ := hlog
  replace hlog : s.log = l ++ g :: r := by
    rw [← hlog, List.append_assoc, List.singleton_append]
  induction h generalizing l r g with
  | init => simp [State.init] at hlog
  | @step s s' lb hw hok hn ih =>
    have hk := hY.kept hw
    have later : ∀ {i op}, s.ops[i]? = some op → s'.ops[i]? = some op := fun hi =>
      (((State.Before.refl s).next hn).op (List.getElem?_eq_some_iff.1 hi).1).trans hi
    rcases hk.next_log hn with heq | ⟨i, op, rfl, hop, hne, heq⟩
    · obtain ⟨op, w, t, hg, hop, ht⟩ := ih r (heq ▸ hlog)
      exact ⟨op, w, t, hg, later hop, ht⟩
    · rw [heq] at hlog
      rcases snoc_split hlog with ⟨rfl, rfl, -⟩ | ⟨r', -, hlog⟩
      · rcases hk.issued hop (ByOthers.refl i _) with hnil | ⟨w, hissues, hG⟩
        · exact absurd hnil hne
        · exact ⟨op, w, s, by rw [hissues], later hop, hG, hw, rfl, hk.db, hok, hissues⟩
      · obtain ⟨op, w, t, hg, hop, ht⟩ := ih r' hlog
        exact ⟨op, w, t, hg, later hop, ht⟩

end Followed

/-- The programs of the system promise `G` of their writes, and `P` of their results. -/
structure Traced (Y : System D W K ε α Op) (d₀ : D)
    (G : Nat → Op → List (Group W) → W → Prop) (P : Nat → Op → List (Group W) → α → Prop) :
    Prop where
  prog : ∀ i op L, (Y.prog i op).Promises Y.store d₀ i (G i op) (fun e => Y.isFault e = true)
    (P i op) L
  mono : ∀ {i op L L' a}, L <+: L' → P i op L a → P i op L' a

namespace Traced

theorem followed (hY : Traced Y d₀ G P) : Followed Y ok d₀ G P fun _ _ _ => True where
  prog i op L _ := hY.prog i op L
  mono _ h := hY.mono (List.prefix_append _ _) h
  others _ _ := trivial
  fault _ _ _ _ := trivial

theorem db (hY : Traced Y d₀ G P) (h : Y.Within ok d₀ s) : s.db = replay Y.store d₀ s.log := by
  have hF : Followed Y ok d₀ G P fun _ _ _ => True := hY.followed
  exact hF.db h

theorem done (hY : Traced Y d₀ G P) (h : Y.Within ok d₀ s) {i : Nat} {op : Op} {a : α}
    (hop : s.ops[i]? = some op) (hdone : s.call i = .done (.ok a)) : P i op s.log a := by
  have hF : Followed Y ok d₀ G P fun _ _ _ => True := hY.followed
  exact hF.done h hop hdone

/-- A call that is not running any more has returned as promised, or failed. -/
theorem ended (hY : Traced Y d₀ G P) (h : Y.Within ok d₀ s) {i : Nat} {op : Op}
    (hop : s.ops[i]? = some op) (hend : (s.call i).isRunning = false) :
    (∃ a, P i op s.log a) ∨ ∃ e, s.call i = .done (.error e) := by
  have hF : Followed Y ok d₀ G P fun _ _ _ => True := hY.followed
  have hkeeps := (hF.kept h).call hop
  cases hcall : s.call i with
  | idle =>
    rw [hcall] at hkeeps
    exact hkeeps.elim
  | run tx p =>
    rw [hcall] at hend
    cases hend
  | done r =>
    cases r with
    | ok a => exact .inl ⟨a, hY.done h hop hcall⟩
    | error e => exact .inr ⟨e, rfl⟩

theorem published (hY : Traced Y d₀ G P) (h : Y.Within ok d₀ s) {l : List (Group W)} {g : Group W}
    (hlog : l ++ [g] <+: s.log) :
    ∃ op w t, g = ⟨g.call, false, [w]⟩ ∧ s.ops[g.call]? = some op ∧
      Publishes Y ok d₀ G l g.call op w t := by
  have hF : Followed Y ok d₀ G P fun _ _ _ => True := hY.followed
  exact hF.published h hlog

end Traced

end

end Txn
