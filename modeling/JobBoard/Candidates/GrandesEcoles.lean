import Mathlib
import JobBoard.Candidates.Schools
import JobBoard.Lib.Unicode
import JobBoard.Lib.Words
import Mathlib.Data.Bool.AllAny
import Mathlib.Data.List.Infix

/-!
# The grandes écoles of a text

`normalize` and `matchGrandeEcole` of `grande-ecoles.constant.ts`, over the tables of the Unicode
standard. A text counts only by its words of `[a-z0-9]` after normalisation, and an alias matches
where its words stand next to each other in it (`matchGrandeEcole_spec`).
-/

set_option autoImplicit false

namespace JobBoard.Candidates.GrandesEcoles

open Regex Words
open Unicode (isAccent)

/-! ## Normalisation -/

/-- The characters that `/[^a-z0-9\s]/g` leaves. -/
def isKept (c : Char) : Bool := c.isLower || c.isDigit || isSpace c

/-- The accents are taken out, and what is not kept becomes a space. -/
def cleaned (c : Char) : Text :=
  if isAccent c then [] else if isKept c then [c] else [' ']

section

variable (u : Unicode)

def normalize (text : Text) : Text :=
  let letters := (u.nfd (u.toLowerCase text)).filter fun c => !isAccent c
  let spaced := letters.map fun c => if isKept c then c else ' '
  trim (collapse isSpace ' ' spaced)

structure SchoolMatch where
  school : String
  matchedAlias : String
  deriving DecidableEq, Repr

/-- `\bneedle\b`. -/
def wholeWordPattern (needle : Text) : List Item := .boundary :: literal needle ++ [.boundary]

def matchGrandeEcole (extractedText : Text) : Option SchoolMatch :=
  let normalized := normalize u extractedText
  if normalized.isEmpty then none
  else GRANDES_ECOLES.findSome? fun school => school.aliases.findSome? fun name =>
    let needle := normalize u name.toList
    if needle.isEmpty then none
    else if test (wholeWordPattern needle) normalized then
      some { school := school.name, matchedAlias := name }
    else none

end

/-! ## Character by character -/

theorem isKept_facts {c : Char} (h : isKept c = true) : c.toNat < 128 ∨ isSpace c = true := by
  simp only [isKept, Bool.or_eq_true] at h
  rcases h with (h | h) | h
  · left
    simp only [Char.isLower, Bool.and_eq_true, decide_eq_true_eq, ge_iff_le,
      UInt32.le_iff_toNat_le] at h
    have h₂ : c.toNat ≤ 122 := h.2
    omega
  · left
    simp only [Char.isDigit, Bool.and_eq_true, decide_eq_true_eq, ge_iff_le,
      UInt32.le_iff_toNat_le] at h
    have h₂ : c.toNat ≤ 57 := h.2
    omega
  · exact .inr h

section

variable (u : Unicode)

/-- What a character leaves in the text. -/
def trace (c : Char) : Text := u.seen cleaned c

/-- A mark is taken out or becomes a space. -/
theorem cleaned_of_mark {c : Char} (h : u.combiningClass c ≠ 0) :
    cleaned c = [] ∨ cleaned c = [' '] := by
  unfold cleaned
  split
  · exact .inl rfl
  · right
    rw [if_neg]
    intro hkept
    rcases isKept_facts hkept with hascii | hspace
    · exact h (u.class_ascii c hascii)
    · exact h (u.class_space c hspace)

theorem cleaned_comm (c d : Char) (hc : u.combiningClass c ≠ 0) (hd : u.combiningClass d ≠ 0) :
    cleaned c ++ cleaned d = cleaned d ++ cleaned c := by
  rcases cleaned_of_mark u hc with hc | hc
  · rw [hc, List.nil_append, List.append_nil]
  · rcases cleaned_of_mark u hd with hd | hd
    · rw [hd, List.nil_append, List.append_nil]
    · rw [hc, hd]

theorem flatMap_cleaned (text : Text) :
    ((text.filter fun c => !isAccent c).map fun c => if isKept c then c else ' ') =
      text.flatMap cleaned := by
  induction text with
  | nil => rfl
  | cons c text ih =>
    rw [List.flatMap_cons, ← ih]
    by_cases hc : isAccent c = true
    · rw [List.filter_cons_of_neg (by simp [hc]), cleaned, if_pos hc, List.nil_append]
    · rw [List.filter_cons_of_pos (by simp [hc]), cleaned, if_neg hc, List.map_cons]
      split
      · rfl
      · rfl

/-- The normal form of a text: the words of what its characters leave. -/
theorem normalize_eq (text : Text) :
    normalize u text = join ' ' (words isSpace (text.flatMap (trace u))) := by
  have hspace : isSpace ' ' = true := by decide
  have hform := normal_form hspace (text.flatMap (trace u))
  rw [← hform]
  simp only [normalize]
  rw [flatMap_cleaned, Unicode.flatMap_nfd_toLowerCase (cleaned_comm u) (by decide)]
  rfl

/-- The words that a text is normalised to. -/
def wordsOf (text : Text) : List Text := words isSpace (text.flatMap (trace u))

theorem cleaned_kept (c : Char) : ∀ d ∈ cleaned c, isKept d = true := by
  intro d hd
  unfold cleaned at hd
  split at hd
  · cases hd
  · split at hd
    · next h => rw [List.mem_singleton.1 hd]; exact h
    · rw [List.mem_singleton.1 hd]; decide

theorem isWord_of_kept {c : Char} (h : isKept c = true) (hspace : isSpace c = false) :
    isWord c = true := by
  simp only [isKept, hspace, Bool.or_false, Bool.or_eq_true] at h
  rcases h with h | h
  · simp [isWord, Char.isAlphanum, Char.isAlpha, h]
  · simp [isWord, Char.isAlphanum, h]

/-- Their characters are letters and digits. -/
theorem isWord_of_mem_wordsOf {text w : Text} (h : w ∈ wordsOf u text) :
    w ≠ [] ∧ ∀ c ∈ w, isWord c = true := by
  refine ⟨(isWord_of_mem h).1, fun c hc => isWord_of_kept ?_ ((isWord_of_mem h).2 c hc)⟩
  obtain ⟨d, _, hd⟩ := List.mem_flatMap.1 (mem_of_mem_words h hc)
  obtain ⟨e, _, he⟩ := List.mem_flatMap.1 hd
  obtain ⟨x, _, hx⟩ := List.mem_flatMap.1 he
  exact cleaned_kept x c hx

end

/-! ## Whole words -/

/-- The tokens of a normalised text. -/
def tokens (normalized : Text) : List Text := words (· == ' ') normalized

/-- A token of letters and digits. -/
def IsToken (w : Text) : Prop := w ≠ [] ∧ ∀ c ∈ w, isWord c = true

theorem IsToken.isWord {w : Text} (h : IsToken w) : IsWord (· == ' ') w := by
  refine ⟨h.1, fun c hc => ?_⟩
  by_contra hspace
  obtain rfl : c = ' ' := by simpa using hspace
  exact absurd (h.2 _ hc) (by decide)

theorem tokens_join {ws : List Text} (h : ∀ w ∈ ws, IsToken w) : tokens (join ' ' ws) = ws :=
  words_join rfl fun w hw => (h w hw).isWord

/-- The characters of joined tokens are letters, digits and spaces. -/
theorem mem_join {ws : List Text} (h : ∀ w ∈ ws, IsToken w) :
    ∀ c ∈ join ' ' ws, isWord c = true ∨ c = ' ' := by
  induction ws with
  | nil => intro c hc; cases hc
  | cons w ws ih =>
    have hw := h w (List.mem_cons_self ..)
    have hws := ih fun v hv => h v (List.mem_cons_of_mem _ hv)
    cases ws with
    | nil =>
      rw [join, List.intercalate_singleton]
      exact fun c hc => .inl (hw.2 c hc)
    | cons v ws =>
      rw [join_cons (List.cons_ne_nil v ws)]
      intro c hc
      rcases List.mem_append.1 hc with hc | hc
      · exact .inl (hw.2 c hc)
      · rcases List.mem_cons.1 hc with rfl | hc
        · exact .inr rfl
        · exact hws c hc

theorem head_join {ws : List Text} (hne : ws ≠ []) (h : ∀ w ∈ ws, IsToken w) :
    (join ' ' ws).head?.any isWord = true ∧ (join ' ' ws).getLast?.any isWord = true := by
  obtain ⟨⟨c, rest, hc, hcspace⟩, rest', d, hd, hdspace⟩ :=
    ends_of_join ' ' hne fun w hw => (h w hw).isWord
  constructor
  · rw [hc]
    rcases mem_join h c (hc ▸ List.mem_cons_self ..) with hword | rfl
    · exact hword
    · cases hcspace
  · rw [hd, List.getLast?_concat]
    rcases mem_join h d (hd ▸ by simp) with hword | rfl
    · exact hword
    · cases hdspace

/-- The expression finds a needle in a text exactly where its tokens stand next to each other. -/
theorem test_wholeWordPattern {vs ws : List Text} (hne : vs ≠ []) (hvs : ∀ v ∈ vs, IsToken v)
    (hws : ∀ w ∈ ws, IsToken w) :
    test (wholeWordPattern (join ' ' vs)) (join ' ' ws) = true ↔ vs <:+: ws := by
  obtain ⟨hhead, hlast⟩ := head_join hne hvs
  have hneedle : join ' ' vs ≠ [] := by
    intro h
    rw [h] at hhead
    cases hhead
  rw [wholeWordPattern, test_boundaries]
  constructor
  · rintro ⟨before, after, htext, hb, hb'⟩
    rw [List.head?_append_of_ne_nil _ hneedle, atBoundary, hhead, bne_iff_ne] at hb
    rw [lastOf, Option.or_of_isSome (by simpa using hneedle), atBoundary, hlast, bne_iff_ne] at hb'
    have hchars : ∀ c ∈ before ++ (join ' ' vs ++ after), isWord c = true ∨ c = ' ' := by
      rw [← htext]
      exact mem_join hws
    have hbefore : ∃ front, ∀ text, tokens (before ++ text) = front ++ tokens text := by
      cases hrev : before.getLast? with
      | none =>
        rw [List.getLast?_eq_none_iff.1 hrev]
        exact ⟨[], fun _ => rfl⟩
      | some c =>
        obtain ⟨init, rfl⟩ := List.getLast?_eq_some_iff.1 hrev
        obtain rfl : c = ' ' := by
          refine (hchars c (by simp)).resolve_left fun hword => hb ?_
          rw [hrev]
          exact hword
        refine ⟨tokens init, fun text => ?_⟩
        rw [List.append_assoc]
        exact words_append_cons rfl init text
    have hafter : ∃ back, tokens (join ' ' vs ++ after) = tokens (join ' ' vs) ++ back := by
      cases after with
      | nil => exact ⟨[], by rw [List.append_nil, List.append_nil]⟩
      | cons c after =>
        obtain rfl : c = ' ' := by
          refine (hchars c (by simp)).resolve_left fun hword => hb' ?_
          exact hword.symm
        exact ⟨tokens after, words_append_cons rfl _ after⟩
    obtain ⟨front, hfront⟩ := hbefore
    obtain ⟨back, hback⟩ := hafter
    have hall := tokens_join hws
    rw [htext, hfront, hback, tokens_join hvs] at hall
    exact ⟨front, back, by rw [List.append_assoc, hall]⟩
  · rintro ⟨front, back, rfl⟩
    have hbefore : ∃ before : Text, before.getLast?.any isWord = false ∧
        ∀ ts, ts ≠ [] → join ' ' (front ++ ts) = before ++ join ' ' ts := by
      by_cases hfront : front = []
      · exact ⟨[], rfl, fun ts _ => by rw [hfront]; rfl⟩
      · refine ⟨join ' ' front ++ [' '], ?_, fun ts hts => ?_⟩
        · rw [List.getLast?_concat]
          decide
        · rw [join_append hfront hts, List.append_assoc]
          rfl
    have hafter : ∃ after : Text, after.head?.any isWord = false ∧
        join ' ' (vs ++ back) = join ' ' vs ++ after := by
      by_cases hback : back = []
      · exact ⟨[], rfl, by rw [hback, List.append_nil, List.append_nil]⟩
      · refine ⟨' ' :: join ' ' back, ?_, join_append hne hback⟩
        show isWord ' ' = false
        decide
    obtain ⟨before, hb, hfront⟩ := hbefore
    obtain ⟨after, ha, hback⟩ := hafter
    refine ⟨before, after, ?_, ?_, ?_⟩
    · rw [List.append_assoc, hfront _ (by simp [hne]), hback]
    · rw [List.head?_append_of_ne_nil _ hneedle, atBoundary, hhead, hb]
      rfl
    · rw [lastOf, Option.or_of_isSome (by simpa using hneedle), atBoundary, hlast, ha]
      rfl

/-! ## The table -/

section

variable (u : Unicode)

theorem isToken_of_mem {text w : Text} (h : w ∈ wordsOf u text) : IsToken w :=
  isWord_of_mem_wordsOf u h

theorem tokens_normalize (text : Text) : tokens (normalize u text) = wordsOf u text := by
  rw [normalize_eq]
  exact tokens_join fun w hw => isToken_of_mem u hw

/-- The tokens of the alias stand next to each other in the text. -/
def Occurs (name : String) (text : Text) : Prop :=
  tokens (normalize u name.toList) <:+: tokens (normalize u text)

instance (name : String) (text : Text) : Decidable (Occurs u name text) :=
  inferInstanceAs (Decidable (_ <:+: _))

/-- The aliases are their own normal forms: lower case, digits and single spaces. -/
theorem aliases_plain : ∀ school ∈ GRANDES_ECOLES, ∀ name ∈ school.aliases,
    name.toList.all (fun c =>
      decide (c.toNat < 128 ∧ c.toLower = c ∧ isAccent c = false ∧ isKept c = true)) = true ∧
    words isSpace name.toList ≠ [] := by
  decide +kernel

theorem wordsOf_alias {school : GrandeEcole} (hschool : school ∈ GRANDES_ECOLES) {name : String}
    (hname : name ∈ school.aliases) : wordsOf u name.toList ≠ [] := by
  obtain ⟨hchars, hne⟩ := aliases_plain school hschool name hname
  have htrace : name.toList.flatMap (trace u) = name.toList := by
    refine (List.flatMap_congr fun c hc => ?_).trans (List.flatMap_singleton' _)
    obtain ⟨hascii, hlower, haccent, hkept⟩ := of_decide_eq_true (List.all_eq_true.1 hchars c hc)
    rw [trace, Unicode.seen_ascii hascii (by rw [hlower]; exact hascii), hlower, cleaned,
      if_neg (by rw [haccent]; decide), if_pos hkept]
  rw [wordsOf, htrace]
  exact hne

theorem normalize_isEmpty {text : Text} : (normalize u text).isEmpty = true ↔ wordsOf u text = [] := by
  rw [← tokens_normalize, List.isEmpty_iff]
  constructor
  · intro h
    rw [h]
    exact words_nil
  · intro h
    rw [normalize_eq, ← wordsOf, ← tokens_normalize, h]
    rfl

theorem test_alias {school : GrandeEcole} (hschool : school ∈ GRANDES_ECOLES) {name : String}
    (hname : name ∈ school.aliases) (text : Text) :
    test (wholeWordPattern (normalize u name.toList)) (normalize u text) = true ↔
      Occurs u name text := by
  rw [Occurs, tokens_normalize, tokens_normalize, normalize_eq, normalize_eq]
  exact test_wholeWordPattern (wordsOf_alias u hschool hname) (fun _ => isToken_of_mem u)
    fun _ => isToken_of_mem u

/-- The first school in the order of the table that has an alias in the text, and its first such
alias. -/
structure FirstMatch (text : Text) (m : SchoolMatch) : Prop where
  first : ∃ schools school schools' names name names',
    GRANDES_ECOLES = schools ++ school :: schools' ∧ school.aliases = names ++ name :: names' ∧
      (∀ s ∈ schools, ∀ n ∈ s.aliases, ¬ Occurs u n text) ∧ (∀ n ∈ names, ¬ Occurs u n text) ∧
        Occurs u name text ∧ m = { school := school.name, matchedAlias := name }

/-- The search of the table. -/
def firstIn (text : Text) : Option SchoolMatch :=
  GRANDES_ECOLES.findSome? fun school => school.aliases.findSome? fun name =>
    if Occurs u name text then some { school := school.name, matchedAlias := name } else none

theorem findSome?_congr {α β : Type} {f g : α → Option β} {l : List α}
    (h : ∀ a ∈ l, f a = g a) : l.findSome? f = l.findSome? g := by
  induction l with
  | nil => rfl
  | cons a l ih =>
    rw [List.findSome?_cons, List.findSome?_cons, h a (List.mem_cons_self ..),
      ih fun b hb => h b (List.mem_cons_of_mem _ hb)]

theorem firstIn_eq_none {text : Text} : firstIn u text = none ↔
    ∀ school ∈ GRANDES_ECOLES, ∀ name ∈ school.aliases, ¬ Occurs u name text := by
  simp [firstIn, List.findSome?_eq_none_iff]

theorem matchGrandeEcole_eq (text : Text) : matchGrandeEcole u text = firstIn u text := by
  unfold matchGrandeEcole
  dsimp only
  by_cases hempty : (normalize u text).isEmpty = true
  · rw [if_pos hempty, Eq.comm, firstIn_eq_none]
    intro school hschool name hname hoccurs
    rw [Occurs, tokens_normalize, tokens_normalize, (normalize_isEmpty u).1 hempty,
      List.infix_nil] at hoccurs
    exact wordsOf_alias u hschool hname hoccurs
  · rw [if_neg hempty]
    refine findSome?_congr fun school hschool => findSome?_congr fun name hname => ?_
    have hneedle : ¬ (normalize u name.toList).isEmpty = true := fun h =>
      wordsOf_alias u hschool hname ((normalize_isEmpty u).1 h)
    rw [if_neg hneedle]
    simp only [test_alias u hschool hname text]

theorem firstIn_eq_some {text : Text} {m : SchoolMatch} :
    firstIn u text = some m ↔ FirstMatch u text m := by
  unfold firstIn
  rw [List.findSome?_eq_some_iff]
  constructor
  · rintro ⟨schools, school, schools', htable, hsome, hnone⟩
    obtain ⟨names, name, names', haliases, hname, hnames⟩ := List.findSome?_eq_some_iff.1 hsome
    split at hname
    · next hoccurs =>
      refine ⟨schools, school, schools', names, name, names', htable, haliases, ?_, ?_, hoccurs,
        (Option.some.inj hname).symm⟩
      · simpa [List.findSome?_eq_none_iff] using hnone
      · simpa using hnames
    · cases hname
  · rintro ⟨schools, school, schools', names, name, names', htable, haliases, hschools, hnames,
      hoccurs, rfl⟩
    refine ⟨schools, school, schools', htable, ?_, ?_⟩
    · refine List.findSome?_eq_some_iff.2 ⟨names, name, names', haliases, ?_, ?_⟩
      · rw [if_pos hoccurs]
      · simpa using hnames
    · simpa [List.findSome?_eq_none_iff] using hschools

theorem firstIn_congr {text text' : Text} (h : wordsOf u text = wordsOf u text') :
    firstIn u text = firstIn u text' := by
  simp only [firstIn, Occurs, tokens_normalize, h]

end

/-! ## The search of the verification -/

section

variable (u : Unicode)

theorem split_join {ws : List Text} (hne : ws ≠ []) (h : ∀ w ∈ ws, IsToken w) :
    split ' ' (String.ofList (join ' ' ws)) = ws.map String.ofList := by
  have hspace : ∀ w ∈ ws, ' ' ∉ w := fun w hw hmem =>
    absurd ((h w hw).2 ' ' hmem) (by decide)
  rw [split, String.toList_ofList, List.splitOn_intercalate ' ' hspace hne]

theorem wholeWord_join {vs ws : List Text} (hvs : vs ≠ []) (hv : ∀ v ∈ vs, IsToken v)
    (hws : ws ≠ []) (hw : ∀ w ∈ ws, IsToken w) :
    wholeWord (String.ofList (join ' ' vs)) (String.ofList (join ' ' ws)) = true ↔ vs <:+: ws := by
  have hne : String.ofList (join ' ' vs) ≠ "" := by
    intro h
    have hhead := (head_join hvs hv).1
    rw [← String.toList_ofList (l := join ' ' vs), h] at hhead
    cases hhead
  have hmap : ∀ ts : List Text, (ts.map String.ofList).map String.toList = ts := by
    intro ts
    rw [List.map_map]
    exact (List.map_congr_left fun t _ => String.toList_ofList).trans (List.map_id ts)
  rw [wholeWord, split_join hvs hv, split_join hws hw, decide_eq_true hne, Bool.true_and,
    List.any_eq_true]
  constructor
  · rintro ⟨rest, hrest, hpre⟩
    have hinfix : vs.map String.ofList <:+: ws.map String.ofList :=
      (List.isPrefixOf_iff_prefix.1 hpre).isInfix.trans ((List.mem_tails _ _).1 hrest).isInfix
    have := hinfix.map String.toList
    rwa [hmap, hmap] at this
  · intro h
    obtain ⟨rest, hpre, hsuf⟩ := List.infix_iff_prefix_suffix.1 (h.map String.ofList)
    exact ⟨rest, (List.mem_tails _ _).2 hsuf, List.isPrefixOf_iff_prefix.2 hpre⟩

theorem map_findSome? {α β γ : Type} {f : α → Option β} {g : β → γ} {p : α → Bool} {n : α → γ}
    {l : List α} (h : ∀ a ∈ l, (f a).map g = if p a then some (n a) else none) :
    (l.findSome? f).map g = (l.find? p).map n := by
  induction l with
  | nil => rfl
  | cons a l ih =>
    have ha := h a (List.mem_cons_self ..)
    have hl := ih fun b hb => h b (List.mem_cons_of_mem _ hb)
    rw [List.findSome?_cons, List.find?_cons]
    cases hf : f a with
    | none =>
      cases hp : p a with
      | false => exact hl
      | true => rw [hf, hp] at ha; cases ha
    | some b =>
      cases hp : p a with
      | false => rw [hf, hp] at ha; cases ha
      | true => rw [hf, hp] at ha; exact ha

theorem map_find_alias {school : GrandeEcole} {text : Text} {p : String → Bool}
    (hp : ∀ name ∈ school.aliases, p name = true ↔ Occurs u name text) :
    (school.aliases.findSome? fun name =>
      if Occurs u name text then some (SchoolMatch.mk school.name name) else none).map
        SchoolMatch.school = if school.aliases.any p then some school.name else none := by
  cases hfind : school.aliases.findSome? fun name =>
      if Occurs u name text then some (SchoolMatch.mk school.name name) else none with
  | none =>
    have hnone : school.aliases.any p = false := by
      simp only [List.findSome?_eq_none_iff, ite_eq_right_iff, reduceCtorEq, imp_false] at hfind
      refine List.any_eq_false.2 fun name hname h => hfind name hname ((hp name hname).1 h)
    rw [hnone]
    rfl
  | some m =>
    obtain ⟨name, hname, hm⟩ := List.exists_of_findSome?_eq_some hfind
    split at hm
    · next hoccurs =>
      have hany : school.aliases.any p = true :=
        List.any_eq_true.2 ⟨name, hname, (hp name hname).2 hoccurs⟩
      rw [hany, ← Option.some.inj hm]
      rfl
    · cases hm

/-- The verification of a diploma searches for the same school. -/
theorem matchGrandeEcole_school (text : String) :
    Candidates.matchGrandeEcole ⟨fun s => String.ofList (normalize u s.toList)⟩ text =
      (matchGrandeEcole u text.toList).map SchoolMatch.school := by
  rw [matchGrandeEcole_eq]
  unfold Candidates.matchGrandeEcole
  dsimp only
  have hempty : String.ofList (normalize u text.toList) = "" ↔ wordsOf u text.toList = [] := by
    rw [← normalize_isEmpty, List.isEmpty_iff, ← String.ofList_nil, String.ofList_inj]
  split
  · next h =>
    have hnone : firstIn u text.toList = none := by
      refine (firstIn_eq_none u).2 fun school hschool name hname hoccurs => ?_
      rw [Occurs, tokens_normalize, tokens_normalize, hempty.1 h, List.infix_nil] at hoccurs
      exact wordsOf_alias u hschool hname hoccurs
    rw [hnone]
    rfl
  · next h =>
    refine (map_findSome? fun school hschool => map_find_alias u fun name hname => ?_).symm
    rw [Occurs, tokens_normalize, tokens_normalize, normalize_eq, normalize_eq]
    exact wholeWord_join (wordsOf_alias u hschool hname) (fun _ => isToken_of_mem u)
      (fun hnil => h (hempty.2 hnil)) fun _ => isToken_of_mem u

end

/-! ## What does not change the result -/

/-- The same character, or the same ASCII letter in the other case. -/
def SameLetter (c d : Char) : Prop :=
  c = d ∨ (c.isAlpha = true ∧ d.isAlpha = true ∧ c.toLower = d.toLower)

/-- ASCII punctuation: what is printed and neither a letter nor a digit. -/
def isPunctuation (c : Char) : Bool := 33 ≤ c.toNat && c.toNat < 127 && !c.isAlphanum

section

variable (u : Unicode)

/-- A separator leaves white space. -/
def Separates (run : Text) : Prop :=
  run.flatMap (trace u) ≠ [] ∧ ∀ c ∈ run.flatMap (trace u), isSpace c = true

theorem ascii_facts : ∀ n < 128, (Char.ofNat n).toLower.toNat < 128 ∧
    (isPunctuation (Char.ofNat n) = true →
      (Char.ofNat n).toLower = Char.ofNat n ∧ cleaned (Char.ofNat n) = [' ']) := by
  decide +kernel

theorem isAlpha_ascii {c : Char} (h : c.isAlpha = true) :
    c.toNat < 128 ∧ c.toLower.toNat < 128 := by
  have hascii : c.toNat < 128 := by
    have hrange := isWord_range (c := c) (by simp [isWord, Char.isAlphanum, h])
    omega
  have hlower := (ascii_facts c.toNat hascii).1
  rw [Char.ofNat_toNat] at hlower
  exact ⟨hascii, hlower⟩

theorem trace_sameLetter {c d : Char} (h : SameLetter c d) : trace u c = trace u d := by
  rcases h with rfl | ⟨hc, hd, hlower⟩
  · rfl
  · obtain ⟨hc₁, hc₂⟩ := isAlpha_ascii hc
    obtain ⟨hd₁, hd₂⟩ := isAlpha_ascii hd
    rw [trace, trace, Unicode.seen_ascii hc₁ hc₂, Unicode.seen_ascii hd₁ hd₂, hlower]

theorem trace_accent {c : Char} (h : isAccent c = true) : trace u c = [] :=
  Unicode.seen_accent (fun d hd => by rw [cleaned, if_pos hd]) h

theorem flatMap_trace_filter (text : Text) :
    (text.filter fun c => !isAccent c).flatMap (trace u) = text.flatMap (trace u) := by
  induction text with
  | nil => rfl
  | cons c text ih =>
    by_cases hc : isAccent c = true
    · rw [List.filter_cons_of_neg (by simp [hc]), ih, List.flatMap_cons, trace_accent u hc]
      rfl
    · rw [List.filter_cons_of_pos (by simp [hc]), List.flatMap_cons, ih, List.flatMap_cons]

theorem trace_punctuation {c : Char} (h : isPunctuation c = true) : trace u c = [' '] := by
  have hascii : c.toNat < 128 := by
    simp only [isPunctuation, Bool.and_eq_true, decide_eq_true_eq] at h
    omega
  have hfacts := (ascii_facts c.toNat hascii).2
  rw [Char.ofNat_toNat] at hfacts
  obtain ⟨hlower, hcleaned⟩ := hfacts h
  rw [trace, Unicode.seen_ascii hascii (by rw [hlower]; exact hascii), hlower, hcleaned]

theorem cleaned_space {c : Char} (h : isSpace c = true) : cleaned c = [c] := by
  have haccent : isAccent c = false := by
    simp only [isSpace, Bool.or_eq_true, Bool.and_eq_true, decide_eq_true_eq, beq_iff_eq] at h
    simp only [isAccent, Bool.and_eq_false_iff, decide_eq_false_iff_not]
    omega
  rw [cleaned, haccent, isKept, h, Bool.or_true]
  rfl

theorem trace_space {c : Char} (h : isSpace c = true) :
    trace u c ≠ [] ∧ ∀ d ∈ trace u c, isSpace d = true := by
  obtain ⟨ds, hne, hds, hseen⟩ := Unicode.seen_space (u := u) (f := cleaned) h
  have hself : ds.flatMap cleaned = ds :=
    (List.flatMap_congr fun d hd => cleaned_space (hds d hd)).trans (List.flatMap_singleton' ds)
  rw [trace, hseen, hself]
  exact ⟨hne, hds⟩

/-- Punctuation and white space separate. -/
theorem separates_of_run {run : Text} (hne : run ≠ [])
    (hrun : ∀ c ∈ run, isPunctuation c = true ∨ isSpace c = true) : Separates u run := by
  have hone : ∀ c ∈ run, trace u c ≠ [] ∧ ∀ d ∈ trace u c, isSpace d = true := by
    intro c hc
    rcases hrun c hc with h | h
    · rw [trace_punctuation u h]
      exact ⟨by decide, List.forall_mem_singleton.2 (by decide)⟩
    · exact trace_space u h
  refine ⟨?_, fun d hd => ?_⟩
  · obtain ⟨c, run, rfl⟩ := List.exists_cons_of_ne_nil hne
    rw [List.flatMap_cons]
    exact List.append_ne_nil_of_left_ne_nil (hone c (List.mem_cons_self ..)).1 _
  · obtain ⟨c, hc, hd⟩ := List.mem_flatMap.1 hd
    exact (hone c hc).2 d hd

theorem wordsOf_separated {run : Text} (h : Separates u run) (before after : Text) :
    wordsOf u (before ++ run ++ after) = wordsOf u before ++ wordsOf u after := by
  rw [wordsOf, List.flatMap_append, List.flatMap_append]
  exact words_append_run h.1 h.2 _ _

end

/-- A text matches exactly when the tokens of an alias stand next to each other among those of the
text, and then the first school of the table that has one, with its first. Neither the case of
letters nor combining accents nor what separates two tokens makes a difference. -/
theorem matchGrandeEcole_spec (u : Unicode) (text : Text) :
    (∀ m, matchGrandeEcole u text = some m ↔ FirstMatch u text m) ∧
    (matchGrandeEcole u text = none ↔
      ∀ school ∈ GRANDES_ECOLES, ∀ name ∈ school.aliases, ¬ Occurs u name text) ∧
    (∀ text', List.Forall₂ SameLetter text text' →
      matchGrandeEcole u text' = matchGrandeEcole u text) ∧
    (∀ text', (text'.filter fun c => !isAccent c) = (text.filter fun c => !isAccent c) →
      matchGrandeEcole u text' = matchGrandeEcole u text) ∧
    ∀ before separator run after, text = before ++ separator ++ after → Separates u separator →
      run ≠ [] → (∀ c ∈ run, isPunctuation c = true ∨ isSpace c = true) →
        matchGrandeEcole u (before ++ run ++ after) = matchGrandeEcole u text := by
  simp only [matchGrandeEcole_eq]
  refine ⟨fun m => firstIn_eq_some u, firstIn_eq_none u, ?_, ?_, ?_⟩
  · intro text' h
    refine firstIn_congr u (congrArg (words isSpace) ?_)
    induction h with
    | nil => rfl
    | cons hc _ ih => rw [List.flatMap_cons, List.flatMap_cons, ih, trace_sameLetter u hc]
  · intro text' h
    refine firstIn_congr u (congrArg (words isSpace) ?_)
    rw [← flatMap_trace_filter u text', h, flatMap_trace_filter]
  · rintro before separator run after rfl hseparator hne hrun
    refine firstIn_congr u ?_
    rw [wordsOf_separated u (separates_of_run u hne hrun), wordsOf_separated u hseparator]

theorem space_facts : ∀ n < 128, isSpace (Char.ofNat n) = true →
    (Char.ofNat n).toLower = Char.ofNat n := by
  decide +kernel

theorem not_accent_of_ascii {c : Char} (h : c.toNat < 128) : isAccent c = false := by
  simp only [isAccent, Bool.and_eq_false_iff, decide_eq_false_iff_not]
  omega

theorem not_accent_of_space {c : Char} (h : isSpace c = true) : isAccent c = false := by
  simp only [isSpace, Bool.or_eq_true, Bool.and_eq_true, decide_eq_true_eq, beq_iff_eq] at h
  simp only [isAccent, Bool.and_eq_false_iff, decide_eq_false_iff_not]
  omega

/-- The tables as far as ASCII and the French é reach. -/
def french : Unicode where
  lower c := if c.toNat < 128 then [c.toLower] else if c = 'É' then ['é'] else [c]
  finalSigma _ _ := false
  decompose c := if c = 'é' then ['e', '\u0301'] else [c]
  combiningClass c := if isAccent c then 230 else 0
  lower_ascii c h := if_pos h
  lower_space c h := by
    have hne : c ≠ 'É' := by rintro rfl; exact absurd h (by decide)
    rw [if_neg hne]
    split
    · next hascii =>
      have hlower := space_facts c.toNat hascii (by rwa [Char.ofNat_toNat])
      rw [Char.ofNat_toNat] at hlower
      rw [hlower]
    · rfl
  lower_accent c h := by
    have hne : c ≠ 'É' := by rintro rfl; exact absurd h (by decide)
    have hascii : ¬ c.toNat < 128 := by
      simp only [isAccent, Bool.and_eq_true, decide_eq_true_eq] at h
      omega
    rw [if_neg hascii, if_neg hne]
  decompose_ascii c h := by
    have hne : c ≠ 'é' := by rintro rfl; exact absurd h (by decide)
    rw [if_neg hne]
  decompose_space c h := by
    have hne : c ≠ 'é' := by rintro rfl; exact absurd h (by decide)
    rw [if_neg hne]
    exact ⟨by simp, by simpa using h⟩
  decompose_accent c h := by
    have hne : c ≠ 'é' := by rintro rfl; exact absurd h (by decide)
    rw [if_neg hne]
    simpa using h
  decompose_sigma := ⟨by decide, by decide⟩
  class_ascii c h := by
    rw [not_accent_of_ascii h]
    rfl
  class_space c h := by
    rw [not_accent_of_space h]
    rfl

/-- A certificate of the EMI, in other letters, with an accent, and with other separators. -/
theorem matchGrandeEcole_spec_emi : matchGrandeEcole french "eMI,rabat".toList =
      some ⟨"EMI — École Mohammadia d'Ingénieurs", "emi"⟩ ∧
    matchGrandeEcole french "e\u0301mi,rabat".toList =
      some ⟨"EMI — École Mohammadia d'Ingénieurs", "emi"⟩ ∧
    matchGrandeEcole french "emi -\u00a0rabat".toList =
      some ⟨"EMI — École Mohammadia d'Ingénieurs", "emi"⟩ := by
  have hfound : matchGrandeEcole french "emi,rabat".toList =
      some ⟨"EMI — École Mohammadia d'Ingénieurs", "emi"⟩ := by decide +kernel
  obtain ⟨-, -, hcase, haccent, hrun⟩ := matchGrandeEcole_spec french "emi,rabat".toList
  refine ⟨(hcase "eMI,rabat".toList ?_).trans hfound,
    (haccent "e\u0301mi,rabat".toList (by decide)).trans hfound,
    (hrun "emi".toList ",".toList " -\u00a0".toList "rabat".toList rfl ?_ (by decide)
      (List.all_iff_forall_prop.1 (by decide))).trans hfound⟩
  · show List.Forall₂ SameLetter ('e' :: 'm' :: 'i' :: ",rabat".toList)
      ('e' :: 'M' :: 'I' :: ",rabat".toList)
    exact .cons (.inl rfl) (.cons (.inr ⟨rfl, rfl, rfl⟩) (.cons (.inr ⟨rfl, rfl, rfl⟩)
      (List.forall₂_same.2 fun _ _ => .inl rfl)))
  · exact separates_of_run french (by decide) (List.all_iff_forall_prop.1 (by decide))

end JobBoard.Candidates.GrandesEcoles
