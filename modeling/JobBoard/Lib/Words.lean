import Mathlib.Data.List.Basic

/-!
# The words of a text

A text over any alphabet, cut at its separators. `normal_form`: once every run of separators is
one space and those at the ends are dropped, a text is its words with a space between each two.
-/

set_option autoImplicit false

namespace Words

variable {α : Type} {p : α → Bool}

/-- The stretches without separators. -/
def words (p : α → Bool) (text : List α) : List (List α) :=
  (text.splitOnP p).filter fun w => !w.isEmpty

/-- A word has a letter and no separator. -/
def IsWord (p : α → Bool) (w : List α) : Prop := w ≠ [] ∧ ∀ c ∈ w, p c = false

/-! ## Cutting -/

theorem words_append_cons {c : α} (hc : p c = true) (before after : List α) :
    words p (before ++ c :: after) = words p before ++ words p after := by
  rw [words, List.splitOnP_append_cons before after hc, List.filter_append]
  rfl

theorem words_nil : words p [] = [] := by
  rw [words, List.splitOnP_nil]
  rfl

theorem words_cons {c : α} (hc : p c = true) (text : List α) :
    words p (c :: text) = words p text := by
  have h := words_append_cons hc [] text
  rwa [words_nil] at h

theorem words_ne_nil {c : α} (hc : p c = false) (text : List α) : words p (c :: text) ≠ [] := by
  rw [words, List.splitOnP_cons_eq_if_modifyHead, if_neg (by simp [hc])]
  cases hsplit : text.splitOnP p with
  | nil => exact absurd hsplit (List.splitOnP_ne_nil p text)
  | cons first rest =>
    rw [List.modifyHead_cons, List.filter_cons_of_pos (by simp)]
    exact List.cons_ne_nil _ _

theorem words_of_isWord {w : List α} (h : IsWord p w) : words p w = [w] := by
  rw [words, List.splitOnP_eq_singleton h.2, List.filter_cons_of_pos, List.filter_nil]
  simp [h.1]

/-- A run of separators stands between words. -/
theorem words_append_run {run : List α} (hne : run ≠ []) (hrun : ∀ c ∈ run, p c = true)
    (before after : List α) :
    words p (before ++ run ++ after) = words p before ++ words p after := by
  have hskip : ∀ run : List α, (∀ c ∈ run, p c = true) →
      words p (run ++ after) = words p after := by
    intro run hrun
    induction run with
    | nil => rfl
    | cons c run ih =>
      rw [List.cons_append, words_cons (hrun c (List.mem_cons_self ..))]
      exact ih fun d hd => hrun d (List.mem_cons_of_mem _ hd)
  cases run with
  | nil => exact absurd rfl hne
  | cons c run =>
    rw [List.append_assoc, List.cons_append, words_append_cons (hrun c (List.mem_cons_self ..)),
      hskip run fun d hd => hrun d (List.mem_cons_of_mem _ hd)]

theorem mem_of_mem_splitOnP (text : List α) :
    ∀ w ∈ text.splitOnP p, ∀ c ∈ w, c ∈ text ∧ p c = false := by
  induction text with
  | nil =>
    intro w hw c hc
    rw [List.splitOnP_nil, List.mem_singleton] at hw
    rw [hw] at hc
    cases hc
  | cons d text ih =>
    have hcons : ∀ w ∈ text.splitOnP p, ∀ c ∈ w, c ∈ d :: text ∧ p c = false := fun w hw c hc =>
      ⟨List.mem_cons_of_mem d (ih w hw c hc).1, (ih w hw c hc).2⟩
    rw [List.splitOnP_cons_eq_if_modifyHead]
    split
    · intro w hw
      rcases List.mem_cons.1 hw with rfl | hw
      · intro c hc
        cases hc
      · exact hcons w hw
    · next hd =>
      cases hsplit : text.splitOnP p with
      | nil => exact absurd hsplit (List.splitOnP_ne_nil p text)
      | cons first rest =>
        rw [hsplit] at hcons
        intro w hw
        rw [List.modifyHead_cons] at hw
        rcases List.mem_cons.1 hw with rfl | hw
        · intro c hc
          rcases List.mem_cons.1 hc with rfl | hc
          · exact ⟨List.mem_cons_self .., Bool.eq_false_iff.2 hd⟩
          · exact hcons first (List.mem_cons_self ..) c hc
        · exact hcons w (List.mem_cons_of_mem _ hw)

theorem isWord_of_mem {text w : List α} (h : w ∈ words p text) : IsWord p w := by
  obtain ⟨hmem, hne⟩ := List.mem_filter.1 h
  refine ⟨?_, fun c hc => (mem_of_mem_splitOnP text w hmem c hc).2⟩
  rintro rfl
  cases hne

theorem mem_of_mem_words {text w : List α} {c : α} (h : w ∈ words p text) (hc : c ∈ w) :
    c ∈ text := (mem_of_mem_splitOnP text w (List.mem_filter.1 h).1 c hc).1

/-! ## Joining -/

/-- The words with a space between each two. -/
abbrev join (space : α) (ws : List (List α)) : List α := [space].intercalate ws

section

variable {space : α}

theorem join_cons {w : List α} {ws : List (List α)} (h : ws ≠ []) :
    join space (w :: ws) = w ++ space :: join space ws := by
  rw [join, List.intercalate_cons_of_ne_nil h, List.append_assoc]
  rfl

theorem join_append {ws ws' : List (List α)} (h : ws ≠ []) (h' : ws' ≠ []) :
    join space (ws ++ ws') = join space ws ++ space :: join space ws' := by
  induction ws with
  | nil => exact absurd rfl h
  | cons w ws ih =>
    cases ws with
    | nil =>
      have hone : join space [w] = w := List.intercalate_singleton
      rw [List.singleton_append, join_cons h', hone]
    | cons v ws =>
      rw [List.cons_append, join_cons (by simp), ih (List.cons_ne_nil v ws),
        join_cons (List.cons_ne_nil v ws), List.append_assoc, List.cons_append]

theorem words_join (hspace : p space = true) {ws : List (List α)} (h : ∀ w ∈ ws, IsWord p w) :
    words p (join space ws) = ws := by
  induction ws with
  | nil => exact words_nil
  | cons w ws ih =>
    have hw := h w (List.mem_cons_self ..)
    have hws := ih fun v hv => h v (List.mem_cons_of_mem _ hv)
    cases ws with
    | nil => rw [join, List.intercalate_singleton, words_of_isWord hw]
    | cons v ws =>
      rw [join_cons (List.cons_ne_nil v ws), words_append_cons hspace, words_of_isWord hw, hws]
      rfl

/-- The first letter of joined words, and the last. -/
theorem ends_of_join (space : α) {ws : List (List α)} (hne : ws ≠ []) (h : ∀ w ∈ ws, IsWord p w) :
    (∃ c rest, join space ws = c :: rest ∧ p c = false) ∧
      ∃ rest c, join space ws = rest ++ [c] ∧ p c = false := by
  induction ws with
  | nil => exact absurd rfl hne
  | cons w ws ih =>
    obtain ⟨hwne, hw⟩ := h w (List.mem_cons_self ..)
    have hfirst : ∃ c rest, w = c :: rest ∧ p c = false := by
      obtain ⟨c, rest, rfl⟩ := List.exists_cons_of_ne_nil hwne
      exact ⟨c, rest, rfl, hw c (List.mem_cons_self ..)⟩
    have hlast : ∃ rest c, w = rest ++ [c] ∧ p c = false :=
      ⟨w.dropLast, w.getLast hwne, (List.dropLast_concat_getLast hwne).symm,
        hw _ (List.getLast_mem hwne)⟩
    cases ws with
    | nil =>
      rw [join, List.intercalate_singleton]
      exact ⟨hfirst, hlast⟩
    | cons v ws =>
      obtain ⟨-, rest', d, hrest', hd⟩ :=
        ih (List.cons_ne_nil v ws) fun u hu => h u (List.mem_cons_of_mem _ hu)
      obtain ⟨c, rest, rfl, hc⟩ := hfirst
      rw [join_cons (List.cons_ne_nil v ws)]
      refine ⟨⟨c, _, rfl, hc⟩, c :: rest ++ space :: rest', d, ?_, hd⟩
      rw [hrest', List.append_assoc]
      rfl

end

/-! ## Normal form -/

/-- `text.replace(/\s+/g, ' ')`, from inside a run of separators or not. -/
def collapseFrom (p : α → Bool) (space : α) : Bool → List α → List α
  | _, [] => []
  | true, c :: text =>
    if p c then collapseFrom p space true text else c :: collapseFrom p space false text
  | false, c :: text =>
    if p c then space :: collapseFrom p space true text else c :: collapseFrom p space false text

def collapse (p : α → Bool) (space : α) (text : List α) : List α := collapseFrom p space false text

/-- `text.trim()`. -/
def strip (p : α → Bool) (text : List α) : List α :=
  ((text.dropWhile p).reverse.dropWhile p).reverse

section

variable {space : α}

theorem strip_between {lead trail text : List α} (hlead : ∀ c ∈ lead, p c = true)
    (htrail : ∀ c ∈ trail, p c = true) (hfirst : ∃ c rest, text = c :: rest ∧ p c = false)
    (hlast : ∃ rest c, text = rest ++ [c] ∧ p c = false) :
    strip p (lead ++ (text ++ trail)) = text := by
  obtain ⟨c, rest, hc, hpc⟩ := hfirst
  obtain ⟨rest', d, hd, hpd⟩ := hlast
  have hfront : (lead ++ (text ++ trail)).dropWhile p = text ++ trail := by
    rw [List.dropWhile_append_of_pos hlead, hc, List.cons_append,
      List.dropWhile_cons_of_neg (by simp [hpc])]
  have hback : (text ++ trail).reverse.dropWhile p = text.reverse := by
    rw [List.reverse_append, List.dropWhile_append_of_pos
      fun x hx => htrail x (List.mem_reverse.1 hx), hd, List.reverse_append,
      List.reverse_singleton, List.singleton_append, List.dropWhile_cons_of_neg (by simp [hpd])]
  rw [strip, hfront, hback, List.reverse_reverse]

/-- What the loop still writes, inside a run and inside a word. -/
theorem collapseFrom_spec (space : α) (text : List α) :
    (∃ trail, (trail = [] ∨ trail = [space]) ∧ (words p text = [] → trail = []) ∧
      collapseFrom p space true text = join space (words p text) ++ trail) ∧
    ∀ w, IsWord p w → ∃ trail, (trail = [] ∨ trail = [space]) ∧
      w ++ collapseFrom p space false text = join space (words p (w ++ text)) ++ trail := by
  induction text with
  | nil =>
    refine ⟨⟨[], .inl rfl, fun _ => rfl, ?_⟩, fun w hw => ⟨[], .inl rfl, ?_⟩⟩
    · rw [words_nil]
      rfl
    · rw [List.append_nil w, words_of_isWord hw, join, List.intercalate_singleton]
      rfl
  | cons c text ih =>
    obtain ⟨⟨trail, htrail, hnone, hrun⟩, hword⟩ := ih
    by_cases hc : p c = true
    · refine ⟨⟨trail, htrail, ?_, ?_⟩, fun w hw => ?_⟩
      · rw [words_cons hc]
        exact hnone
      · rw [words_cons hc, ← hrun, collapseFrom, if_pos hc]
      · rw [words_append_cons hc, words_of_isWord hw, collapseFrom, if_pos hc, hrun]
        cases hws : words p text with
        | nil =>
          refine ⟨[space], .inr rfl, ?_⟩
          rw [hnone hws]
          simp [join]
        | cons v ws =>
          refine ⟨trail, htrail, ?_⟩
          rw [List.singleton_append, join_cons (List.cons_ne_nil v ws), List.append_assoc,
            List.cons_append]
    · have hext : ∀ w, (w = [] ∨ IsWord p w) → ∃ trail, (trail = [] ∨ trail = [space]) ∧
          w ++ c :: collapseFrom p space false text =
            join space (words p (w ++ c :: text)) ++ trail := by
        intro w hw
        have hw' : IsWord p (w ++ [c]) := by
          refine ⟨by simp, fun d hd => ?_⟩
          rcases List.mem_append.1 hd with hd | hd
          · rcases hw with rfl | hw
            · cases hd
            · exact hw.2 d hd
          · rw [List.mem_singleton.1 hd]
            exact Bool.eq_false_iff.2 hc
        obtain ⟨trail, htrail, hrest⟩ := hword _ hw'
        rw [List.append_assoc, List.append_assoc] at hrest
        exact ⟨trail, htrail, hrest⟩
      refine ⟨?_, fun w hw => ?_⟩
      · obtain ⟨trail, htrail, hrest⟩ := hext [] (.inl rfl)
        refine ⟨trail, htrail, fun hnil => ?_, ?_⟩
        · exact absurd hnil (words_ne_nil (Bool.eq_false_iff.2 hc) text)
        · rw [collapseFrom, if_neg hc]
          exact hrest
      · rw [collapseFrom, if_neg hc]
        exact hext w (.inr hw)

/-- The normal form of a text is its words with a space between each two. -/
theorem normal_form (hspace : p space = true) (text : List α) :
    strip p (collapse p space text) = join space (words p text) := by
  have hlead : ∃ lead, (lead = [] ∨ lead = [space]) ∧
      collapse p space text = lead ++ collapseFrom p space true text := by
    cases text with
    | nil => exact ⟨[], .inl rfl, rfl⟩
    | cons c text =>
      rw [collapse, collapseFrom, collapseFrom]
      by_cases hc : p c = true
      · exact ⟨[space], .inr rfl, by rw [if_pos hc, if_pos hc]; rfl⟩
      · exact ⟨[], .inl rfl, by rw [if_neg hc, if_neg hc]; rfl⟩
  have hspaces : ∀ run : List α, (run = [] ∨ run = [space]) → ∀ c ∈ run, p c = true := by
    rintro run (rfl | rfl) c hc
    · cases hc
    · rw [List.mem_singleton.1 hc]
      exact hspace
  obtain ⟨lead, hlead, hcollapse⟩ := hlead
  obtain ⟨trail, htrail, hnone, hrun⟩ := (collapseFrom_spec (p := p) space text).1
  rw [hcollapse, hrun]
  cases hws : words p text with
  | nil =>
    rw [hnone hws]
    rcases hlead with rfl | rfl
    · rfl
    · simp [strip, join, hspace]
  | cons w ws =>
    have hends := ends_of_join space (List.cons_ne_nil w ws) fun v hv =>
      isWord_of_mem (hws ▸ hv)
    exact strip_between (hspaces lead hlead) (hspaces trail htrail) hends.1 hends.2

end

end Words
