import JobBoard.Lib.Regex
import JobBoard.Messaging.Threads
import Mathlib.Data.List.Induction

/-!
# The antivirus adapter

`scan` and `parseResponse` of `clamav-file-scanner.adapter.ts`. The adapter settles once, from what
it has received when the connection ends, whether or not that is the whole reply: the NUL that ends
a reply is dropped, not looked for. A reply that is cut after the word OK in the name of a
signature or in the text of an error therefore counts as clean (`refusal_cut_clean_iff`).
-/

set_option autoImplicit false

namespace JobBoard.ClamavFileScannerAdapter

open Regex
open Messaging.ConversationService (ScanResult)

/-! ## Replies -/

/-- `/:\s*(.+?)\s+FOUND$/`; the group is the third piece. -/
def foundPattern : List Item :=
  literal [':'] ++ [.many isSpace 0 true, .many isDot 1 false, .many isSpace 1 true] ++
    literal "FOUND".toList ++ [.atEnd]

/-- `/\bOK$/`. -/
def okPattern : List Item := .boundary :: literal "OK".toList ++ [.atEnd]

def isNul (c : Char) : Bool := c.toNat == 0

/-- `raw.replace(/\0/g, '').trim()`. -/
def textOf (raw : Text) : Text := trim (raw.filter fun c => !isNul c)

def parseResponse (raw : Text) : Except String ScanResult :=
  let text := textOf raw
  if text.length = 0 then .error "ClamAV returned an empty response"
  else match search foundPattern text with
    | some found => .ok { clean := false, threat := some (String.ofList (found.getD 2 [])) }
    | none =>
      if test okPattern text then .ok { clean := true, threat := none }
      else .error ("ClamAV scan error: " ++ String.ofList text)

/-! ## The connection -/

inductive Event where
  /-- The command and the file are written, unless that throws. -/
  | connect (failure : Option String)
  | data (chunk : List UInt8)
  | ended
  | close
  | timeout
  | error (message : String)

structure Scan where
  chunks : List (List UInt8)
  settled : Option (Except String ScanResult)

/-- `done`: the first outcome counts. -/
def Scan.done (st : Scan) (outcome : Except String ScanResult) : Scan :=
  match st.settled with
  | some _ => st
  | none => { st with settled := some outcome }

section

-- `toString('utf8')`
variable (decode : List UInt8 → Text)

def onEvent (st : Scan) : Event → Scan
  | .connect none => st
  | .connect (some failure) => st.done (.error failure)
  | .data chunk => { st with chunks := st.chunks ++ [chunk] }
  | .ended | .close => st.done (parseResponse (decode st.chunks.flatten))
  | .timeout => st.done (.error "ClamAV scan timed out after 30000ms")
  | .error message => st.done (.error message)

def scan (events : List Event) : Option (Except String ScanResult) :=
  (events.foldl (onEvent decode) ⟨[], none⟩).settled

end

/-- The bytes of the events. -/
def received (events : List Event) : List UInt8 :=
  events.flatMap fun
    | .data chunk => chunk
    | _ => []

/-! ## Refusals -/

/-- What clamd says of a file that is not clean. -/
inductive Refusal where
  | found (name : Text)
  | error (text : Text)

def Refusal.content : Refusal → Text
  | found name => name
  | error text => text

def Refusal.reply : Refusal → Text
  | found name => "stream: ".toList ++ name ++ " FOUND\x00".toList
  | error text => text ++ " ERROR\x00".toList

/-- What is left of a reply that breaks off: so many characters, and where it breaks inside of one
outside ASCII, the replacement character. -/
inductive Cut (reply : Text) : Text → Prop where
  | between {raw : Text} : raw <+: reply → Cut reply raw
  | inside {raw : Text} {c : Char} : raw ++ [c] <+: reply → 128 ≤ c.toNat →
      Cut reply (raw ++ ['\uFFFD'])

/-- At every moment the adapter has received a part of the reply. -/
def Delivers (decode : List UInt8 → Text) (reply : Text) (events : List Event) : Prop :=
  ∀ before, before <+: events → Cut reply (decode (received before))

/-- OK stands at the start of a word. -/
def HasOk (text : Text) : Prop := ∃ before after,
  text = before ++ 'O' :: 'K' :: after ∧ before.getLast?.any isWord = false

def IsClean (outcome : Except String ScanResult) : Prop :=
  ∃ result, outcome = .ok result ∧ result.clean = true

example : parseResponse "stream: OK\x00".toList = .ok ⟨true, none⟩ := by rfl

example : parseResponse "stream: Eicar-Test-Signature FOUND\x00".toList =
    .ok ⟨false, some "Eicar-Test-Signature"⟩ := by rfl

/-! ## When a text counts as clean -/

/-- The text ends in the word OK, or in a word that ends so after a boundary. -/
def EndsInOk (text : Text) : Prop :=
  ∃ before, text = before ++ "OK".toList ∧ before.getLast?.any isWord = false

theorem test_okPattern {text : Text} : test okPattern text = true ↔ EndsInOk text := by
  rw [okPattern, test_boundary_end]
  constructor
  · rintro ⟨before, rfl, h⟩
    exact ⟨before, rfl, by simpa [atBoundary, isWord] using h⟩
  · rintro ⟨before, rfl, h⟩
    exact ⟨before, rfl, by simp [atBoundary, h, isWord]⟩

/-- What the first expression matches ends in FOUND. -/
theorem search_foundPattern {text : Text} (h : (search foundPattern text).isSome) :
    ∃ before, text = before ++ "FOUND".toList := by
  obtain ⟨before, rest, ps, rfl, hmatch⟩ := test_iff.1 h
  unfold foundPattern at hmatch
  rw [List.append_assoc, List.append_assoc] at hmatch
  have hcolon : ∃ ps, Matches (literal [':'] ++ _) before.getLast? rest ps := ⟨ps, hmatch⟩
  obtain ⟨rest, rfl, ps, hmatch⟩ := matches_literal.1 hcolon
  obtain ⟨gap, rest, rfl, -, -, ps, hmatch⟩ := matches_many.1 ⟨ps, hmatch⟩
  obtain ⟨name, rest, rfl, -, -, ps, hmatch⟩ := matches_many.1 ⟨ps, hmatch⟩
  obtain ⟨gap', rest, rfl, -, -, ps, hmatch⟩ := matches_many.1 ⟨ps, hmatch⟩
  obtain ⟨rest, rfl, hend⟩ := matches_literal.1 ⟨ps, hmatch⟩
  rw [matches_atEnd.1 hend, List.append_nil]
  exact ⟨before ++ ([':'] ++ (gap ++ (name ++ gap'))), by simp only [List.append_assoc]⟩

theorem parseResponse_clean {raw : Text} : IsClean (parseResponse raw) ↔ EndsInOk (textOf raw) := by
  unfold parseResponse
  dsimp only
  generalize textOf raw = text
  constructor
  · rintro ⟨result, h, hclean⟩
    split at h
    · cases h
    · cases hfound : search foundPattern text with
      | some found =>
        rw [hfound] at h
        cases h
        cases hclean
      | none =>
        rw [hfound] at h
        by_cases hok : test okPattern text = true
        · exact test_okPattern.1 hok
        · rw [if_neg hok] at h
          cases h
  · intro h
    have hlength : text.length ≠ 0 := by
      obtain ⟨before, rfl, -⟩ := h
      simp
    have hfound : search foundPattern text = none := by
      by_contra hsome
      obtain ⟨before, hbefore⟩ := search_foundPattern (Option.ne_none_iff_isSome.1 hsome)
      obtain ⟨before', rfl, -⟩ := h
      have hlast := congrArg List.getLast? hbefore
      simp at hlast
    rw [if_neg hlength, hfound, if_pos (test_okPattern.2 h)]
    exact ⟨_, rfl, rfl⟩

/-! ## Where OK stands -/

/-- The word at the end of what is trimmed stands in what was received. -/
theorem EndsInOk.hasOk {raw : Text} (h : EndsInOk (textOf raw)) : ∃ before trail,
    raw.filter (fun c => !isNul c) = before ++ 'O' :: 'K' :: trail ∧
      before.getLast?.any isWord = false ∧ ∀ c ∈ trail, isSpace c = true := by
  obtain ⟨before, hbefore, hboundary⟩ := h
  obtain ⟨lead, trail, hsplit, hlead, htrail⟩ := trim_split (raw.filter fun c => !isNul c)
  rw [show trim (raw.filter fun c => !isNul c) = before ++ "OK".toList from hbefore] at hsplit
  refine ⟨lead ++ before, trail, by rw [hsplit]; simp, ?_, htrail⟩
  cases before with
  | nil =>
    rw [List.append_nil]
    cases hlast : lead.getLast? with
    | none => rfl
    | some c => exact isWord_of_isSpace (hlead c (List.mem_of_getLast? hlast))
  | cons c before =>
    rw [List.getLast?_append_of_ne_nil _ (List.cons_ne_nil c before)]
    exact hboundary

/-- The word at the end of what was received stands at the end of what is trimmed. -/
theorem endsInOk_of_end {raw before : Text}
    (hraw : raw.filter (fun c => !isNul c) = before ++ "OK".toList)
    (hboundary : before.getLast?.any isWord = false) : EndsInOk (textOf raw) := by
  have hdrop : (before ++ "OK".toList).dropWhile isSpace =
      before.dropWhile isSpace ++ "OK".toList := by
    rw [List.dropWhile_append]
    split
    · next h => rw [List.isEmpty_iff.1 h]; rfl
    · rfl
  have htrim : textOf raw = before.dropWhile isSpace ++ "OK".toList := by
    rw [← hdrop, textOf, hraw]
    have hlast : isSpace 'K' = false := by decide
    have htrim : trim (before ++ ['O'] ++ ['K']) = _ := trim_of_last hlast
    rwa [List.append_assoc] at htrim
  refine ⟨before.dropWhile isSpace, htrim, ?_⟩
  cases hlast : (before.dropWhile isSpace).getLast? with
  | none => rfl
  | some c =>
    have hne : before.dropWhile isSpace ≠ [] := by
      intro hnil
      rw [hnil] at hlast
      cases hlast
    rw [← List.takeWhile_append_dropWhile (p := isSpace) (l := before),
      List.getLast?_append_of_ne_nil _ hne, hlast] at hboundary
    exact hboundary

theorem hasOk_of_append {content trail before after : Text} (htrail : 'K' ∉ trail)
    (h : before ++ 'O' :: 'K' :: after = content ++ trail)
    (hboundary : before.getLast?.any isWord = false) : HasOk content := by
  rcases List.append_eq_append_iff.1 h with ⟨middle, rfl, hrest⟩ | ⟨middle, rfl, hrest⟩
  · rcases List.cons_eq_append_iff.1 hrest with ⟨rfl, rfl⟩ | ⟨middle, rfl, htail⟩
    · exact absurd (by simp) htrail
    · rcases List.cons_eq_append_iff.1 htail with ⟨rfl, rfl⟩ | ⟨middle, rfl, rfl⟩
      · exact absurd (by simp) htrail
      · exact ⟨before, middle, rfl, hboundary⟩
  · exact absurd (by simp [hrest]) htrail

/-- Between a text before it without K, whose last character is not O, and one after it without K,
the word can only stand in the content. -/
theorem hasOk_of_between {lead content trail before after : Text} (hlead : 'K' ∉ lead)
    (hlast : lead.getLast? ≠ some 'O') (htrail : 'K' ∉ trail)
    (h : before ++ 'O' :: 'K' :: after = lead ++ (content ++ trail))
    (hboundary : before.getLast?.any isWord = false) : HasOk content := by
  rcases List.append_eq_append_iff.1 h with ⟨middle, rfl, hrest⟩ | ⟨middle, rfl, hrest⟩
  · rcases List.cons_eq_append_iff.1 hrest with ⟨rfl, htail⟩ | ⟨middle, rfl, htail⟩
    · have hstart : ([] : Text) ++ 'O' :: 'K' :: after = content ++ trail := htail.symm
      exact hasOk_of_append htrail hstart rfl
    · rcases List.cons_eq_append_iff.1 htail with ⟨rfl, -⟩ | ⟨middle, rfl, -⟩
      · exact absurd (by simp) hlast
      · exact absurd (by simp) hlead
  · refine hasOk_of_append htrail hrest.symm ?_
    cases middle with
    | nil => rfl
    | cons c middle =>
      rw [List.getLast?_append_of_ne_nil _ (List.cons_ne_nil c middle)] at hboundary
      exact hboundary

/-! ## Refusals and their cuts -/

/-- What stands before the content. -/
def Refusal.lead : Refusal → Text
  | found _ => "stream: ".toList
  | error _ => []

/-- What stands after the content, before the NUL. -/
def Refusal.trail : Refusal → Text
  | found _ => " FOUND".toList
  | error _ => " ERROR".toList

section

variable (r : Refusal)

theorem Refusal.filter_reply : r.reply.filter (fun c => !isNul c) =
    r.lead ++ (r.content.filter (fun c => !isNul c) ++ r.trail) := by
  have hstream : "stream: ".toList.filter (fun c => !isNul c) = "stream: ".toList := by decide
  have hfound : " FOUND\x00".toList.filter (fun c => !isNul c) = " FOUND".toList := by decide
  have herror : " ERROR\x00".toList.filter (fun c => !isNul c) = " ERROR".toList := by decide
  cases r with
  | found name =>
    show ("stream: ".toList ++ name ++ " FOUND\x00".toList).filter _ =
      "stream: ".toList ++ (name.filter _ ++ " FOUND".toList)
    rw [List.filter_append, List.filter_append, hstream, hfound, List.append_assoc]
  | error text =>
    show (text ++ " ERROR\x00".toList).filter _ = [] ++ (text.filter _ ++ " ERROR".toList)
    rw [List.filter_append, herror, List.nil_append]

theorem Refusal.around : 'K' ∉ r.lead ∧ r.lead.getLast? ≠ some 'O' ∧ 'K' ∉ r.trail ∧
    ∃ c, r.trail.getLast? = some c ∧ c ≠ 'K' ∧ isSpace c = false := by
  cases r with
  | found name =>
    show 'K' ∉ "stream: ".toList ∧ "stream: ".toList.getLast? ≠ some 'O' ∧
      'K' ∉ " FOUND".toList ∧ ∃ c, " FOUND".toList.getLast? = some c ∧ c ≠ 'K' ∧ isSpace c = false
    exact ⟨by decide, by decide, by decide, 'D', by decide, by decide, by decide⟩
  | error text =>
    show 'K' ∉ ([] : Text) ∧ ([] : Text).getLast? ≠ some 'O' ∧
      'K' ∉ " ERROR".toList ∧ ∃ c, " ERROR".toList.getLast? = some c ∧ c ≠ 'K' ∧ isSpace c = false
    exact ⟨by decide, by decide, by decide, 'R', by decide, by decide, by decide⟩

/-- After the word at the end there is only white space. -/
theorem last_of_hasOk {before trail : Text} {c : Char} (htrail : ∀ c ∈ trail, isSpace c = true)
    (h : (before ++ 'O' :: 'K' :: trail).getLast? = some c) : c = 'K' ∨ isSpace c = true := by
  have hsplit : before ++ 'O' :: 'K' :: trail = (before ++ ['O']) ++ 'K' :: trail := by simp
  rw [hsplit, List.getLast?_append_of_ne_nil _ (List.cons_ne_nil _ _)] at h
  rcases List.mem_cons.1 (List.mem_of_getLast? h) with rfl | hmem
  · exact .inl rfl
  · exact .inr (htrail c hmem)

/-- The whole refusal does not count as clean. -/
theorem Refusal.reply_not_clean : ¬ IsClean (parseResponse r.reply) := by
  intro h
  obtain ⟨before, trail, hraw, -, htrail⟩ := (parseResponse_clean.1 h).hasOk
  obtain ⟨-, -, -, c, hc, hne, hspace⟩ := r.around
  have hlast : (before ++ 'O' :: 'K' :: trail).getLast? = some c := by
    rw [← hraw, r.filter_reply, ← List.append_assoc, List.getLast?_append_of_ne_nil, hc]
    rintro hnil
    rw [hnil] at hc
    cases hc
  rcases last_of_hasOk htrail hlast with rfl | h
  · exact hne rfl
  · rw [hspace] at h
    cases h

/-- A text that is cut to a clean one has the word OK in its content. -/
theorem Refusal.hasOk_of_clean {raw : Text} (hcut : Cut r.reply raw)
    (h : IsClean (parseResponse raw)) : HasOk (r.content.filter fun c => !isNul c) := by
  obtain ⟨before, trail, hraw, hboundary, htrail⟩ := (parseResponse_clean.1 h).hasOk
  obtain ⟨hlead, hlast, htrail', -⟩ := r.around
  cases hcut with
  | between hraw' =>
    obtain ⟨rest, hrest⟩ := hraw'.filter fun c => !isNul c
    rw [hraw, r.filter_reply, List.append_assoc] at hrest
    exact hasOk_of_between hlead hlast htrail' hrest hboundary
  | @inside raw c hraw' hc =>
    have hlast : (before ++ 'O' :: 'K' :: trail).getLast? = some '\uFFFD' := by
      rw [← hraw, List.filter_append]
      exact List.getLast?_concat ..
    exact absurd (last_of_hasOk htrail hlast) (by decide)

theorem exists_filter_eq {p : Char → Bool} {text kept : Text} (h : kept <+: text.filter p) :
    ∃ cut, cut <+: text ∧ cut.filter p = kept := by
  induction text generalizing kept with
  | nil =>
    rw [List.filter_nil, List.prefix_nil] at h
    exact ⟨[], List.nil_prefix, h.symm⟩
  | cons c text ih =>
    by_cases hc : p c = true
    · rw [List.filter_cons_of_pos hc] at h
      cases kept with
      | nil => exact ⟨[], List.nil_prefix, rfl⟩
      | cons d kept =>
        obtain ⟨rfl, hkept⟩ := List.cons_prefix_cons.1 h
        obtain ⟨cut, hcut, rfl⟩ := ih hkept
        exact ⟨d :: cut, List.cons_prefix_cons.2 ⟨rfl, hcut⟩, List.filter_cons_of_pos hc⟩
    · rw [List.filter_cons_of_neg hc] at h
      obtain ⟨cut, hcut, hkept⟩ := ih h
      exact ⟨c :: cut, List.cons_prefix_cons.2 ⟨rfl, hcut⟩,
        (List.filter_cons_of_neg hc).trans hkept⟩

/-- The reply is cut after the word. -/
theorem Refusal.exists_clean_cut (h : HasOk (r.content.filter fun c => !isNul c)) :
    ∃ raw, raw <+: r.reply ∧ IsClean (parseResponse raw) := by
  obtain ⟨before, after, hcontent, hboundary⟩ := h
  have hkept : (r.lead ++ before) ++ "OK".toList <+: r.reply.filter fun c => !isNul c := by
    rw [r.filter_reply, hcontent]
    exact ⟨after ++ r.trail, by simp⟩
  obtain ⟨raw, hraw, hfilter⟩ := exists_filter_eq hkept
  refine ⟨raw, hraw, parseResponse_clean.2 (endsInOk_of_end hfilter ?_)⟩
  cases before with
  | nil =>
    rw [List.append_nil]
    cases r with
    | found name =>
      show "stream: ".toList.getLast?.any isWord = false
      decide
    | error text => rfl
  | cons c before =>
    rw [List.getLast?_append_of_ne_nil _ (List.cons_ne_nil c before)]
    exact hboundary

end

/-! ## The connection -/

section

variable {decode : List UInt8 → Text}

/-- What has been received, and where the outcome comes from. -/
structure Scan.Follows (decode : List UInt8 → Text) (events : List Event) (st : Scan) : Prop where
  chunks : st.chunks.flatten = received events
  settled : ∀ result, st.settled = some (.ok result) →
    ∃ before, before <+: events ∧ parseResponse (decode (received before)) = .ok result

theorem Scan.Follows.done {events : List Event} {st : Scan} {outcome : Except String ScanResult}
    (h : st.Follows decode events) (houtcome : ∀ result, outcome = .ok result →
      ∃ before, before <+: events ∧ parseResponse (decode (received before)) = .ok result) :
    (st.done outcome).Follows decode events := by
  unfold Scan.done
  split
  · exact h
  · exact ⟨h.chunks, fun result hresult => houtcome result (Option.some.inj hresult)⟩

theorem Scan.Follows.fail {events : List Event} {st : Scan} {message : String}
    (h : st.Follows decode events) : (st.done (.error message)).Follows decode events := by
  refine h.done fun result hresult => ?_
  cases hresult

theorem received_snoc (events : List Event) (event : Event) :
    received (events ++ [event]) = received events ++ received [event] :=
  List.flatMap_append

/-- An event that brings no data. -/
theorem Scan.Follows.snoc {events : List Event} {st : Scan} (h : st.Follows decode events)
    {event : Event} (hevent : received [event] = []) : st.Follows decode (events ++ [event]) := by
  refine ⟨?_, fun result hresult => ?_⟩
  · rw [received_snoc, hevent, List.append_nil]
    exact h.chunks
  · obtain ⟨before, hbefore, hparse⟩ := h.settled result hresult
    exact ⟨before, hbefore.trans (List.prefix_append _ _), hparse⟩

theorem onEvent_follows {events : List Event} {st : Scan} (h : st.Follows decode events)
    (event : Event) : (onEvent decode st event).Follows decode (events ++ [event]) := by
  have hend : (st.done (parseResponse (decode st.chunks.flatten))).Follows decode events := by
    refine h.done fun result hresult => ⟨events, List.prefix_rfl, ?_⟩
    rw [← h.chunks]
    exact hresult
  cases event with
  | connect failure =>
    cases failure with
    | none => exact h.snoc rfl
    | some failure => exact h.fail.snoc rfl
  | data chunk =>
    refine ⟨?_, fun result hresult => ?_⟩
    · rw [received_snoc]
      show (st.chunks ++ [chunk]).flatten = received events ++ (chunk ++ [])
      rw [List.flatten_append, h.chunks]
      rfl
    · obtain ⟨before, hbefore, hparse⟩ := h.settled result hresult
      exact ⟨before, hbefore.trans (List.prefix_append _ _), hparse⟩
  | ended => exact hend.snoc rfl
  | close => exact hend.snoc rfl
  | timeout => exact h.fail.snoc rfl
  | error message => exact h.fail.snoc rfl

theorem foldl_onEvent_follows (events : List Event) :
    (events.foldl (onEvent decode) ⟨[], none⟩).Follows decode events := by
  induction events using List.reverseRecOn with
  | nil => exact ⟨rfl, fun _ hresult => nomatch hresult⟩
  | append_singleton events event ih =>
    rw [List.foldl_append]
    exact onEvent_follows ih event

/-- What a scan reports is what it has read in what it had received at some moment. -/
theorem scan_ok {events : List Event} {result : ScanResult}
    (h : scan decode events = some (.ok result)) :
    ∃ before, before <+: events ∧ parseResponse (decode (received before)) = .ok result :=
  (foldl_onEvent_follows events).settled result h

end

/-- The scan reports the file as clean. -/
def ReportsClean (outcome : Option (Except String ScanResult)) : Prop :=
  ∃ o, outcome = some o ∧ IsClean o

/-- A whole refusal never counts as clean. Its cuts never do, in `parseResponse` or in a scan that
receives them, exactly when no word of the signature's name, or of the error's text, starts with
OK. -/
theorem refusal_cut_clean_iff (r : Refusal) :
    ¬ IsClean (parseResponse r.reply) ∧
    ((∀ raw, Cut r.reply raw → ¬ IsClean (parseResponse raw)) ↔
      ¬ HasOk (r.content.filter fun c => !isNul c)) ∧
    ((∀ decode events, Delivers decode r.reply events → ¬ ReportsClean (scan decode events)) ↔
      ¬ HasOk (r.content.filter fun c => !isNul c)) := by
  refine ⟨r.reply_not_clean, ⟨fun h hok => ?_, fun h raw hcut hclean => ?_⟩,
    ⟨fun h hok => ?_, fun h decode events hdelivers hreports => ?_⟩⟩
  · obtain ⟨raw, hraw, hclean⟩ := r.exists_clean_cut hok
    exact h raw (.between hraw) hclean
  · exact h (r.hasOk_of_clean hcut hclean)
  · obtain ⟨raw, hraw, hclean⟩ := r.exists_clean_cut hok
    exact h (fun _ => raw) [.ended] (fun _ _ => .between hraw) ⟨_, rfl, hclean⟩
  · obtain ⟨outcome, houtcome, result, rfl, hresult⟩ := hreports
    obtain ⟨before, hbefore, hparse⟩ := scan_ok houtcome
    exact h (r.hasOk_of_clean (hdelivers before hbefore) ⟨result, hparse, hresult⟩)

/-- The reply for a signature whose name holds the word OK, cut after it. -/
theorem cut_signature_is_clean : ¬ ∀ (r : Refusal) (raw : Text), raw <+: r.reply →
    ¬ IsClean (parseResponse raw) := by
  intro h
  exact h (.found "Win.Trojan.OK-1".toList) "stream: Win.Trojan.OK".toList
    ⟨"-1 FOUND\x00".toList, rfl⟩ ⟨⟨true, none⟩, rfl, rfl⟩

end JobBoard.ClamavFileScannerAdapter
