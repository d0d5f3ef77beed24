import Mathlib.Data.List.TakeWhile

/-!
# Regular expressions that backtrack

Sequences of single characters, repetitions of a class of characters (greedy or lazy), word
boundaries and the end of the input, as a JavaScript engine tries them: from the left, and for a
repetition the counts in its order of preference. `Matches` says when the pieces of a text match;
the engine finds pieces that match (`pieces_sound`), and finds some where there are any
(`pieces_complete`). A text is the list of its characters.
-/

set_option autoImplicit false

namespace Regex

abbrev Text := List Char

/-! ## Classes -/

/-- `\s`, and what `trim` removes. -/
def isSpace (c : Char) : Bool :=
  let n := c.toNat
  (9 ≤ n && n ≤ 13) || n == 32 || n == 160 || n == 5760 || (8192 ≤ n && n ≤ 8202) || n == 8232 ||
    n == 8233 || n == 8239 || n == 8287 || n == 12288 || n == 65279

/-- `\w`. -/
def isWord (c : Char) : Bool := c.isAlphanum || c == '_'

/-- `.`: all but the four line terminators. -/
def isDot (c : Char) : Bool :=
  !(c.toNat == 10 || c.toNat == 13 || c.toNat == 8232 || c.toNat == 8233)

def trim (text : Text) : Text :=
  ((text.dropWhile isSpace).reverse.dropWhile isSpace).reverse

/-! ## Expressions -/

inductive Item where
  | one (p : Char → Bool)
  | many (p : Char → Bool) (least : Nat) (greedy : Bool)
  /-- `\b`. -/
  | boundary
  /-- `$`. -/
  | atEnd

def literal (text : Text) : List Item := text.map fun c => .one (· == c)

/-- The character before the rest, after a piece. -/
def lastOf (prev : Option Char) (piece : Text) : Option Char := piece.getLast?.or prev

def atBoundary (prev next : Option Char) : Bool := prev.any isWord != next.any isWord

/-- The counts that a repetition tries, in its order. -/
def counts (n least : Nat) (greedy : Bool) : List Nat :=
  let ks := (List.range (n + 1)).filter (least ≤ ·)
  if greedy then ks.reverse else ks

/-- The pieces that the items match at the start of the text. -/
def pieces : List Item → Option Char → Text → Option (List Text)
  | [], _, _ => some []
  | .one _ :: _, _, [] => none
  | .one p :: items, _, c :: text =>
    if p c then (pieces items (some c) text).map ([c] :: ·) else none
  | .many p least greedy :: items, prev, text =>
    (counts (text.takeWhile p).length least greedy).findSome? fun k =>
      (pieces items (lastOf prev (text.take k)) (text.drop k)).map (text.take k :: ·)
  | .boundary :: items, prev, text =>
    if atBoundary prev text.head? then (pieces items prev text).map ([] :: ·) else none
  | .atEnd :: items, prev, text =>
    if text.isEmpty then (pieces items prev text).map ([] :: ·) else none

/-- The pieces of the leftmost match. -/
def searchFrom (items : List Item) : Option Char → Text → Option (List Text)
  | prev, [] => pieces items prev []
  | prev, c :: text => (pieces items prev (c :: text)).or (searchFrom items (some c) text)

/-- `text.match(items)`. -/
def search (items : List Item) (text : Text) : Option (List Text) := searchFrom items none text

/-- `items.test(text)`. -/
def test (items : List Item) (text : Text) : Bool := (search items text).isSome

/-! ## Matches -/

inductive Matches : List Item → Option Char → Text → List Text → Prop where
  | nil (prev : Option Char) (text : Text) : Matches [] prev text []
  | one {p : Char → Bool} {items : List Item} {prev : Option Char} {c : Char} {text : Text}
      {ps : List Text} : p c = true → Matches items (some c) text ps →
      Matches (.one p :: items) prev (c :: text) ([c] :: ps)
  | many {p : Char → Bool} {least : Nat} {greedy : Bool} {items : List Item} {prev : Option Char}
      {piece text : Text} {ps : List Text} : (∀ c ∈ piece, p c = true) → least ≤ piece.length →
      Matches items (lastOf prev piece) text ps →
      Matches (.many p least greedy :: items) prev (piece ++ text) (piece :: ps)
  | boundary {items : List Item} {prev : Option Char} {text : Text} {ps : List Text} :
      atBoundary prev text.head? = true → Matches items prev text ps →
      Matches (.boundary :: items) prev text ([] :: ps)
  | atEnd {items : List Item} {prev : Option Char} {ps : List Text} :
      Matches items prev [] ps → Matches (.atEnd :: items) prev [] ([] :: ps)

section

variable {items : List Item} {prev : Option Char} {text : Text} {ps : List Text}

theorem mem_counts {n least k : Nat} {greedy : Bool} :
    k ∈ counts n least greedy ↔ k ≤ n ∧ least ≤ k := by
  cases greedy with
  | true =>
    simp only [counts, if_true, List.mem_reverse, List.mem_filter, List.mem_range,
      decide_eq_true_eq]
    omega
  | false =>
    simp only [counts, Bool.false_eq_true, if_false, List.mem_filter, List.mem_range,
      decide_eq_true_eq]
    omega

theorem take_of_le_takeWhile {p : Char → Bool} {k : Nat} (h : k ≤ (text.takeWhile p).length) :
    ∀ c ∈ text.take k, p c = true := by
  intro c hc
  have hsub : (text.takeWhile p ++ text.dropWhile p).take k = (text.takeWhile p).take k :=
    List.take_append_of_le_length h
  rw [List.takeWhile_append_dropWhile] at hsub
  rw [hsub] at hc
  exact List.mem_takeWhile_imp (List.mem_of_mem_take hc)

theorem pieces_sound (h : pieces items prev text = some ps) : Matches items prev text ps := by
  induction items generalizing prev text ps with
  | nil =>
    cases h
    exact .nil _ _
  | cons item items ih =>
    cases item with
    | one p =>
      cases text with
      | nil => cases h
      | cons c text =>
        simp only [pieces] at h
        split at h
        · next hp =>
          obtain ⟨ps', hps', rfl⟩ := Option.map_eq_some_iff.1 h
          exact .one hp (ih hps')
        · cases h
    | many p least greedy =>
      obtain ⟨k, hk, h⟩ := List.exists_of_findSome?_eq_some h
      obtain ⟨ps', hps', rfl⟩ := Option.map_eq_some_iff.1 h
      obtain ⟨hle, hleast⟩ := mem_counts.1 hk
      have hlength : (text.take k).length = k := by
        have := (List.takeWhile_prefix p : text.takeWhile p <+: text).length_le
        rw [List.length_take]
        omega
      have hmany : Matches (.many p least greedy :: items) prev (text.take k ++ text.drop k)
          (text.take k :: ps') :=
        .many (take_of_le_takeWhile hle) (hlength.symm ▸ hleast) (ih hps')
      rwa [List.take_append_drop] at hmany
    | boundary =>
      simp only [pieces] at h
      split at h
      · next hb =>
        obtain ⟨ps', hps', rfl⟩ := Option.map_eq_some_iff.1 h
        exact .boundary hb (ih hps')
      · cases h
    | atEnd =>
      cases text with
      | nil =>
        obtain ⟨ps', hps', rfl⟩ := Option.map_eq_some_iff.1 h
        exact .atEnd (ih hps')
      | cons c text => cases h

theorem pieces_complete (h : Matches items prev text ps) : (pieces items prev text).isSome := by
  induction h with
  | nil => rfl
  | one hp _ ih =>
    simp only [pieces, hp, ↓reduceIte, Option.isSome_map]
    exact ih
  | @many p least greedy items prev piece text ps hall hleast _ ih =>
    have hle : piece.length ≤ ((piece ++ text).takeWhile p).length := by
      rw [List.takeWhile_append_of_pos hall, List.length_append]
      omega
    refine List.findSome?_isSome_iff.2 ⟨piece.length, mem_counts.2 ⟨hle, hleast⟩, ?_⟩
    rw [List.take_left, List.drop_left, Option.isSome_map]
    exact ih
  | boundary hb _ ih =>
    simp only [pieces, hb, ↓reduceIte, Option.isSome_map]
    exact ih
  | atEnd _ ih =>
    simp only [pieces, List.isEmpty_nil, ↓reduceIte, Option.isSome_map]
    exact ih

theorem lastOf_cons (prev : Option Char) (c : Char) (before : Text) :
    lastOf (some c) before = lastOf prev (c :: before) := by
  cases before with
  | nil => rfl
  | cons d before => rw [lastOf, lastOf, List.getLast?_cons_cons, List.getLast?_cons]; rfl

theorem searchFrom_isSome : (searchFrom items prev text).isSome ↔
    ∃ before rest ps, text = before ++ rest ∧ Matches items (lastOf prev before) rest ps := by
  induction text generalizing prev with
  | nil =>
    constructor
    · intro h
      obtain ⟨ps, hps⟩ := Option.isSome_iff_exists.1 h
      exact ⟨[], [], ps, rfl, pieces_sound hps⟩
    · rintro ⟨before, rest, ps, htext, h⟩
      obtain ⟨rfl, rfl⟩ := List.append_eq_nil_iff.1 htext.symm
      exact pieces_complete h
  | cons c text ih =>
    rw [searchFrom, Option.isSome_or, Bool.or_eq_true, ih]
    constructor
    · rintro (h | ⟨before, rest, ps, rfl, h⟩)
      · obtain ⟨ps, hps⟩ := Option.isSome_iff_exists.1 h
        exact ⟨[], c :: text, ps, rfl, pieces_sound hps⟩
      · exact ⟨c :: before, rest, ps, rfl, lastOf_cons prev c before ▸ h⟩
    · rintro ⟨before, rest, ps, htext, h⟩
      cases before with
      | nil =>
        rw [List.nil_append] at htext
        exact .inl (pieces_complete (htext ▸ h))
      | cons d before =>
        obtain ⟨rfl, rfl⟩ := List.cons.inj htext
        exact .inr ⟨before, rest, ps, rfl, (lastOf_cons prev c before).symm ▸ h⟩

/-- A match is found where there is one. -/
theorem test_iff : test items text = true ↔
    ∃ before rest ps, text = before ++ rest ∧ Matches items before.getLast? rest ps := by
  rw [test, search, searchFrom_isSome]
  simp only [lastOf, Option.or_none]

end

/-! ## White space -/

theorem isWord_range {c : Char} (h : isWord c = true) : 48 ≤ c.toNat ∧ c.toNat ≤ 122 := by
  have hrange : (decide (c.val ≥ 65 ∧ c.val ≤ 90) ||
      decide (c.val ≥ 97) && decide (c.val ≤ 122) || decide (c.val ≥ 48) && decide (c.val ≤ 57) ||
      c == '_') = true := h
  simp only [Bool.or_eq_true, Bool.and_eq_true, decide_eq_true_eq, beq_iff_eq, ge_iff_le,
    UInt32.le_iff_toNat_le] at hrange
  rcases hrange with ((h | h) | h) | rfl
  · have h₁ : 65 ≤ c.toNat := h.1
    have h₂ : c.toNat ≤ 90 := h.2
    omega
  · have h₁ : 97 ≤ c.toNat := h.1
    have h₂ : c.toNat ≤ 122 := h.2
    omega
  · have h₁ : 48 ≤ c.toNat := h.1
    have h₂ : c.toNat ≤ 57 := h.2
    omega
  · decide

theorem isWord_of_isSpace {c : Char} (h : isSpace c = true) : isWord c = false := by
  by_contra hword
  have hrange := isWord_range (Bool.not_eq_false _ ▸ hword)
  simp only [isSpace, Bool.or_eq_true, Bool.and_eq_true, decide_eq_true_eq, beq_iff_eq] at h
  omega

theorem trim_split (text : Text) : ∃ lead trail, text = lead ++ trim text ++ trail ∧
    (∀ c ∈ lead, isSpace c = true) ∧ ∀ c ∈ trail, isSpace c = true := by
  refine ⟨text.takeWhile isSpace,
    ((text.dropWhile isSpace).reverse.takeWhile isSpace).reverse, ?_, ?_, ?_⟩
  · have hback := congrArg List.reverse
      (List.takeWhile_append_dropWhile (p := isSpace) (l := (text.dropWhile isSpace).reverse))
    rw [List.reverse_append, List.reverse_reverse] at hback
    rw [trim, List.append_assoc, hback, List.takeWhile_append_dropWhile]
  · exact fun c hc => List.mem_takeWhile_imp hc
  · exact fun c hc => List.mem_takeWhile_imp (List.mem_reverse.1 hc)

/-- A text that ends in another character is trimmed at its start only. -/
theorem trim_of_last {text : Text} {c : Char} (hc : isSpace c = false) :
    trim (text ++ [c]) = (text ++ [c]).dropWhile isSpace := by
  have hdrop : (text ++ [c]).dropWhile isSpace = text.dropWhile isSpace ++ [c] := by
    rw [List.dropWhile_append]
    split
    · next h => rw [List.isEmpty_iff.1 h, List.dropWhile_cons_of_neg (by simp [hc])]; rfl
    · rfl
  rw [trim, hdrop, List.reverse_append, List.reverse_singleton, List.singleton_append,
    List.dropWhile_cons_of_neg (by simp [hc]), List.reverse_cons, List.reverse_reverse]

/-! ## Items -/

section

variable {items : List Item} {prev : Option Char} {word text : Text}

theorem matches_literal : (∃ ps, Matches (literal word ++ items) prev text ps) ↔
    ∃ rest, text = word ++ rest ∧ ∃ ps, Matches items (lastOf prev word) rest ps := by
  induction word generalizing prev text with
  | nil => exact ⟨fun ⟨ps, h⟩ => ⟨text, rfl, ps, h⟩, fun ⟨rest, h, ps, hps⟩ => ⟨ps, h ▸ hps⟩⟩
  | cons c word ih =>
    constructor
    · rintro ⟨ps, h⟩
      cases h with
      | @one _ _ _ d text ps hd h =>
        obtain rfl : d = c := by simpa using hd
        obtain ⟨rest, rfl, ps', hps'⟩ := ih.1 ⟨ps, h⟩
        exact ⟨rest, rfl, ps', lastOf_cons prev d word ▸ hps'⟩
    · rintro ⟨rest, rfl, ps, hps⟩
      obtain ⟨ps', hps'⟩ := ih.2 ⟨rest, rfl, ps, (lastOf_cons prev c word).symm ▸ hps⟩
      exact ⟨[c] :: ps', .one (by simp) hps'⟩

theorem matches_many {p : Char → Bool} {least : Nat} {greedy : Bool} :
    (∃ ps, Matches (.many p least greedy :: items) prev text ps) ↔
      ∃ piece rest, text = piece ++ rest ∧ (∀ c ∈ piece, p c = true) ∧ least ≤ piece.length ∧
        ∃ ps, Matches items (lastOf prev piece) rest ps := by
  constructor
  · rintro ⟨ps, h⟩
    cases h with
    | many hall hleast h => exact ⟨_, _, rfl, hall, hleast, _, h⟩
  · rintro ⟨piece, rest, rfl, hall, hleast, ps, h⟩
    exact ⟨piece :: ps, .many hall hleast h⟩

theorem matches_atEnd : (∃ ps, Matches [.atEnd] prev text ps) ↔ text = [] := by
  constructor
  · rintro ⟨ps, h⟩
    cases h
    rfl
  · rintro rfl
    exact ⟨[[]], .atEnd (.nil prev [])⟩

/-- The word stands at the end of the text, where a word begins or ends. -/
theorem test_boundary_end : test (.boundary :: literal word ++ [.atEnd]) text = true ↔
    ∃ before, text = before ++ word ∧ atBoundary before.getLast? word.head? = true := by
  rw [test_iff]
  constructor
  · rintro ⟨before, rest, ps, rfl, h⟩
    cases h with
    | boundary hb h =>
      obtain ⟨rest, rfl, ps, h⟩ := matches_literal.1 ⟨_, h⟩
      rw [matches_atEnd.1 ⟨ps, h⟩, List.append_nil] at hb ⊢
      exact ⟨before, rfl, hb⟩
  · rintro ⟨before, rfl, hb⟩
    obtain ⟨ps, hps⟩ := matches_literal.2
      ⟨[], (List.append_nil word).symm, matches_atEnd.2 rfl⟩
    exact ⟨before, word, _, rfl, .boundary hb hps⟩

/-- The word stands in the text between two boundaries. -/
theorem test_boundaries : test (.boundary :: literal word ++ [.boundary]) text = true ↔
    ∃ before after, text = before ++ (word ++ after) ∧
      atBoundary before.getLast? (word ++ after).head? = true ∧
        atBoundary (lastOf before.getLast? word) after.head? = true := by
  rw [test_iff]
  constructor
  · rintro ⟨before, rest, ps, rfl, h⟩
    cases h with
    | boundary hb h =>
      obtain ⟨after, rfl, ps, h⟩ := matches_literal.1 ⟨_, h⟩
      cases h with
      | boundary hb' => exact ⟨before, after, rfl, hb, hb'⟩
  · rintro ⟨before, after, rfl, hb, hb'⟩
    obtain ⟨ps, hps⟩ := matches_literal.2
      ⟨after, rfl, [[]], .boundary hb' (.nil (lastOf before.getLast? word) after)⟩
    exact ⟨before, word ++ after, _, rfl, .boundary hb hps⟩

end

end Regex
