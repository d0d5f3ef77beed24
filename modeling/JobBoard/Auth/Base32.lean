import JobBoard.Auth.Totp
import JobBoard.Lib.Bits
import Mathlib.Data.Bool.AllAny
import Mathlib.Data.List.Induction

/-!
# Base32

`base32Encode` and `base32Decode` of `totp.ts`. Both loops shift bytes or letters into a word of
32 bits that is never masked: of the word only the bits that are still to be written count
(`Encoder.Reads`, `Decoder.Reads`), and these are fewer than 13. A text is the list of its
characters.
-/

set_option autoImplicit false

namespace JobBoard.Auth.Totp

open Bits

abbrev Text := List Char

/-! ## Encoding -/

/-- `BASE32_ALPHABET[value & 31]`. -/
def letter (value : BitVec 32) : Char := BASE32_ALPHABET.getD (value &&& 31).toNat '='

/-- The inner loop: the letters that are complete, and the number of bits left. -/
def emitLetters (value : BitVec 32) : Nat → Text × Nat
  | bits + 5 =>
    let rest := emitLetters value bits
    (letter (ushr value bits) :: rest.1, rest.2)
  | bits => ([], bits)

structure Encoder where
  bits : Nat
  value : BitVec 32
  output : Text

def encodeByte (st : Encoder) (byte : UInt8) : Encoder :=
  let value := shl st.value 8 ||| byte.toBitVec.setWidth 32
  let emitted := emitLetters value (st.bits + 8)
  ⟨emitted.2, value, st.output ++ emitted.1⟩

def base32Encode (buffer : List UInt8) : Text :=
  let st := buffer.foldl encodeByte ⟨0, 0, []⟩
  if 0 < st.bits then st.output ++ [letter (shl st.value (5 - st.bits))] else st.output

/-! ## Decoding -/

/-- `toUpperCase`, given the upper case of the characters outside ASCII. -/
def toUpperCase (upper : Char → Text) (text : Text) : Text :=
  text.flatMap fun c => if c.toNat < 128 then [c.toUpper] else upper c

/-- `input.replace(/=+$/g, '')`. -/
def withoutPadding (input : Text) : Text := (input.reverse.dropWhile (· == '=')).reverse

structure Decoder where
  bits : Nat
  value : BitVec 32
  bytes : List UInt8

def decodeChar (st : Decoder) (char : Char) : Except String Decoder :=
  match BASE32_ALPHABET.findIdx? (· == char) with
  | none => .error "Invalid base32 character in TOTP secret"
  | some idx =>
    let value := shl st.value 5 ||| BitVec.ofNat 32 idx
    let bits := st.bits + 5
    if 8 ≤ bits then
      .ok ⟨bits - 8, value, st.bytes ++ [UInt8.ofNat (ushr value (bits - 8) &&& 0xff).toNat]⟩
    else .ok ⟨bits, value, st.bytes⟩

def base32Decode (upper : Char → Text) (input : Text) : Except String (List UInt8) := do
  let cleaned := toUpperCase upper ((withoutPadding input).filter fun c => !isSpace c)
  let st ← cleaned.foldlM decodeChar ⟨0, 0, []⟩
  return st.bytes

/-! ## Letters -/

/-- The letter of five bits. -/
def letterOf (d : BitVec 5) : Char := BASE32_ALPHABET.getD d.toNat '='

theorem letter_eq (value : BitVec 32) : letter value = letterOf (value.setWidth 5) := by
  have hmask : (value &&& 31).toNat = value.toNat % 2 ^ 5 := by
    rw [BitVec.toNat_and]
    exact Nat.and_two_pow_sub_one_eq_mod value.toNat 5
  rw [letter, letterOf, hmask, BitVec.toNat_setWidth]

theorem letterOf_facts : ∀ d : BitVec 5, letterOf d ∈ BASE32_ALPHABET ∧
    BASE32_ALPHABET.findIdx? (· == letterOf d) = some d.toNat ∧
      BASE32_ALPHABET.idxOf (letterOf d) = d.toNat := by
  decide

theorem exists_letterOf : ∀ c ∈ BASE32_ALPHABET, ∃ d, letterOf d = c :=
  List.all_iff_forall_prop.1 (by decide)

/-! ## What the loops have read -/

/-- The bits of the bytes. -/
def byteStream (bytes : List UInt8) : List Bool := stream (bytes.map (·.toBitVec))

theorem byteStream_append (bs cs : List UInt8) :
    byteStream (bs ++ cs) = byteStream bs ++ byteStream cs := by
  rw [byteStream, List.map_append, stream_append]
  rfl

theorem byteStream_singleton (b : UInt8) : byteStream [b] = low b.toBitVec 8 :=
  List.append_nil _

/-- The letters written and the bits that wait are the bits of the bytes. -/
structure Encoder.Reads (st : Encoder) (bytes : List UInt8) (letters : List (BitVec 5)) : Prop where
  bits : st.bits < 5
  output : st.output = letters.map letterOf
  stream : stream letters ++ low st.value st.bits = byteStream bytes

theorem emitLetters_spec (value : BitVec 32) : ∀ n, n ≤ 32 → ∃ letters : List (BitVec 5),
    (emitLetters value n).1 = letters.map letterOf ∧ (emitLetters value n).2 < 5 ∧
      stream letters ++ low value (emitLetters value n).2 = low value n := by
  intro n
  induction n using Nat.strongRecOn with
  | _ n ih =>
    intro hn
    by_cases h : n < 5
    · have hstop : emitLetters value n = ([], n) := by
        unfold emitLetters
        split
        · omega
        · rfl
      rw [hstop]
      exact ⟨[], rfl, h, rfl⟩
    · obtain ⟨bits, rfl⟩ : ∃ bits, n = bits + 5 := ⟨n - 5, by omega⟩
      obtain ⟨letters, hletters, hlt, hstream⟩ := ih bits (by omega) (by omega)
      refine ⟨(value >>> bits).setWidth 5 :: letters, ?_, hlt, ?_⟩
      · show letter (ushr value bits) :: (emitLetters value bits).1 = _
        rw [letter_eq, ushr_of_lt (by omega), hletters]
        rfl
      · show stream _ ++ low value (emitLetters value bits).2 = _
        rw [stream_cons, List.append_assoc, hstream, low_setWidth (Nat.le_refl 5),
          Nat.add_comm bits 5, low_add]

theorem encodeByte_reads {st : Encoder} {bytes : List UInt8} {letters : List (BitVec 5)}
    (h : st.Reads bytes letters) (byte : UInt8) :
    ∃ letters', (encodeByte st byte).Reads (bytes ++ [byte]) (letters ++ letters') := by
  have hbits := h.bits
  obtain ⟨letters', hletters, hlt, hstream⟩ :=
    emitLetters_spec (shl st.value 8 ||| byte.toBitVec.setWidth 32) (st.bits + 8) (by omega)
  refine ⟨letters', hlt, ?_, ?_⟩
  · show st.output ++ _ = _
    rw [h.output, hletters, List.map_append]
  · show stream (letters ++ letters') ++ low (shl st.value 8 ||| byte.toBitVec.setWidth 32)
      (emitLetters (shl st.value 8 ||| byte.toBitVec.setWidth 32) (st.bits + 8)).2 = _
    have hbyte : (byte.toBitVec.setWidth 32).toNat < 2 ^ 8 := by
      rw [BitVec.toNat_setWidth]
      have := byte.toBitVec.isLt
      omega
    rw [stream_append, List.append_assoc, hstream, shl_of_lt (by decide),
      low_shiftLeft_or (by omega) hbyte, low_setWidth (by decide), ← List.append_assoc, h.stream,
      byteStream_append, byteStream_singleton]

theorem foldl_encodeByte_reads (bytes : List UInt8) :
    ∃ letters, (bytes.foldl encodeByte ⟨0, 0, []⟩).Reads bytes letters := by
  induction bytes using List.reverseRecOn with
  | nil => exact ⟨[], ⟨by decide, rfl, rfl⟩⟩
  | append_singleton bytes byte ih =>
    obtain ⟨letters, h⟩ := ih
    obtain ⟨letters', h'⟩ := encodeByte_reads h byte
    rw [List.foldl_append]
    exact ⟨letters ++ letters', h'⟩

/-- The letters of the encoding carry the bits of the buffer, and fewer than five zeros. -/
theorem base32Encode_spec (buffer : List UInt8) : ∃ letters p, p < 5 ∧
    base32Encode buffer = letters.map letterOf ∧
      stream letters = byteStream buffer ++ List.replicate p false := by
  obtain ⟨letters, h⟩ := foldl_encodeByte_reads buffer
  unfold base32Encode
  generalize buffer.foldl encodeByte ⟨0, 0, []⟩ = st at h
  obtain ⟨hbits, houtput, hstream⟩ := h
  dsimp only
  split
  · next hpos =>
    refine ⟨letters ++ [(shl st.value (5 - st.bits)).setWidth 5], 5 - st.bits, by omega, ?_, ?_⟩
    · rw [houtput, List.map_append, letter_eq]
      rfl
    · have hlast : low (st.value <<< (5 - st.bits)) 5 =
          low st.value st.bits ++ List.replicate (5 - st.bits) false := by
        have hor := low_shiftLeft_or (v := st.value) (u := 0) (n := st.bits) (k := 5 - st.bits)
          (by omega) (Nat.two_pow_pos _)
        rw [show st.bits + (5 - st.bits) = 5 by omega, low_zero] at hor
        rw [← hor]
        refine low_congr fun i _ => ?_
        simp
      rw [stream_append, stream_cons, stream_nil, List.append_nil, low_setWidth (Nat.le_refl 5),
        shl_of_lt (by omega), hlast, ← List.append_assoc, hstream]
  · next hpos =>
    have hzero : st.bits = 0 := by omega
    rw [hzero] at hstream
    exact ⟨letters, 0, by decide, houtput, by simpa [low] using hstream⟩

theorem low_byteOf (v : BitVec 32) :
    low (UInt8.ofNat (v &&& 0xff).toNat).toBitVec 8 = low v 8 := by
  have hbyte : (UInt8.ofNat (v &&& 0xff).toNat).toBitVec = v.setWidth 8 := by
    refine BitVec.eq_of_toNat_eq ?_
    have hmask : (v &&& 0xff).toNat = v.toNat % 2 ^ 8 := by
      rw [BitVec.toNat_and]
      exact Nat.and_two_pow_sub_one_eq_mod v.toNat 8
    rw [hmask, BitVec.toNat_setWidth]
    exact Nat.mod_mod _ _
  rw [hbyte, low_setWidth (Nat.le_refl 8)]

/-- The bytes written and the bits that wait are the bits of the letters. -/
structure Decoder.Reads (st : Decoder) (letters : List (BitVec 5)) : Prop where
  bits : st.bits < 8
  stream : byteStream st.bytes ++ low st.value st.bits = stream letters

theorem decodeChar_reads {st : Decoder} {letters : List (BitVec 5)} (h : st.Reads letters)
    (d : BitVec 5) : ∃ st', decodeChar st (letterOf d) = .ok st' ∧ st'.Reads (letters ++ [d]) := by
  have hbits := h.bits
  have hd := d.isLt
  have hidx : (BitVec.ofNat 32 d.toNat).toNat < 2 ^ 5 := by
    rw [BitVec.toNat_ofNat]
    omega
  have hword : BitVec.ofNat 32 d.toNat = d.setWidth 32 := by
    refine BitVec.eq_of_toNat_eq ?_
    rw [BitVec.toNat_ofNat, BitVec.toNat_setWidth]
  have hvalue : byteStream st.bytes ++
      low (shl st.value 5 ||| BitVec.ofNat 32 d.toNat) (st.bits + 5) = stream (letters ++ [d]) := by
    rw [shl_of_lt (by decide), low_shiftLeft_or (by omega) hidx, ← List.append_assoc, h.stream,
      stream_append]
    congr 1
    rw [stream_cons, stream_nil, List.append_nil, hword, low_setWidth (by decide)]
  unfold decodeChar
  rw [(letterOf_facts d).2.1]
  dsimp only
  split
  · next h8 =>
    refine ⟨_, rfl, by show st.bits + 5 - 8 < 8; omega, ?_⟩
    show byteStream (st.bytes ++ [_]) ++ low _ (st.bits + 5 - 8) = _
    rw [← hvalue, byteStream_append, byteStream_singleton, List.append_assoc]
    congr 1
    generalize shl st.value 5 ||| BitVec.ofNat 32 d.toNat = value
    have hsplit : st.bits + 5 = 8 + (st.bits + 5 - 8) := by omega
    rw [hsplit, low_add, ushr_of_lt (by omega), Nat.add_sub_cancel_left]
    congr 1
    exact low_byteOf _
  · next h8 => exact ⟨_, rfl, by show st.bits + 5 < 8; omega, hvalue⟩

theorem foldlM_decodeChar_reads (letters : List (BitVec 5)) :
    ∃ st, (letters.map letterOf).foldlM decodeChar ⟨0, 0, []⟩ = .ok st ∧ st.Reads letters := by
  induction letters using List.reverseRecOn with
  | nil => exact ⟨⟨0, 0, []⟩, rfl, by decide, rfl⟩
  | append_singleton letters d ih =>
    obtain ⟨st, hst, h⟩ := ih
    obtain ⟨st', hst', h'⟩ := decodeChar_reads h d
    refine ⟨st', ?_, h'⟩
    rw [List.map_append, List.foldlM_append, hst]
    show (List.foldlM decodeChar st [letterOf d]) = .ok st'
    rw [List.foldlM_cons, hst']
    rfl

/-- Letters decode to the bytes whose bits theirs begin with, up to less than one byte. -/
theorem decode_letters (letters : List (BitVec 5)) : ∃ st : Decoder,
    (letters.map letterOf).foldlM decodeChar ⟨0, 0, []⟩ = .ok st ∧
      ∃ r, r.length < 8 ∧ byteStream st.bytes ++ r = stream letters := by
  obtain ⟨st, hst, h⟩ := foldlM_decodeChar_reads letters
  exact ⟨st, hst, low st.value st.bits, by rw [length_low]; exact h.bits, h.stream⟩

theorem byteStream_unique {bs cs : List UInt8} {r r' : List Bool} (hr : r.length < 8)
    (hr' : r'.length < 8) (h : byteStream bs ++ r = byteStream cs ++ r') : bs = cs ∧ r = r' := by
  obtain ⟨hbytes, hrest⟩ := symbols_unique hr hr' h
  exact ⟨List.map_injective_iff.2 (fun _ _ => UInt8.toBitVec_inj.1) hbytes, hrest⟩

/-! ## Round trips -/

/-- The letter `e` of the alphabet in either case. -/
def SameLetter (c e : Char) : Prop := c = e ∨ c = e.toLower

theorem alphabet_facts : ∀ e ∈ BASE32_ALPHABET, [e, e.toLower].all (fun c =>
    decide (c.toNat < 128 ∧ c.toUpper = e ∧ c ≠ '=' ∧ isSpace c = false)) = true :=
  List.all_eq_true.1 (by decide)

theorem SameLetter.facts {c e : Char} (h : SameLetter c e) (he : e ∈ BASE32_ALPHABET) :
    c.toNat < 128 ∧ c.toUpper = e ∧ c ≠ '=' ∧ isSpace c = false :=
  of_decide_eq_true (List.all_eq_true.1 (alphabet_facts e he) c (by simpa [SameLetter] using h))

theorem toUpperCase_of_sameLetter {upper : Char → Text} {text letters : Text}
    (h : List.Forall₂ SameLetter text letters) (hletters : ∀ e ∈ letters, e ∈ BASE32_ALPHABET) :
    toUpperCase upper text = letters := by
  induction h with
  | nil => rfl
  | @cons c e text letters hce _ ih =>
    have hc := hce.facts (hletters e (List.mem_cons_self ..))
    rw [toUpperCase, List.flatMap_cons, if_pos hc.1, hc.2.1]
    exact congrArg (e :: ·) (ih fun e' he' => hletters e' (List.mem_cons_of_mem _ he'))

theorem ne_padding_of_sameLetter {text letters : Text} (h : List.Forall₂ SameLetter text letters)
    (hletters : ∀ e ∈ letters, e ∈ BASE32_ALPHABET) : ∀ c ∈ text, c ≠ '=' := by
  induction h with
  | nil => intro c hc; cases hc
  | cons hce _ ih =>
    intro c hc
    rcases List.mem_cons.1 hc with rfl | hc
    · exact (hce.facts (hletters _ (List.mem_cons_self ..))).2.2.1
    · exact ih (fun e he => hletters e (List.mem_cons_of_mem _ he)) c hc

theorem withoutPadding_append {body : Text} (h : ∀ c ∈ body, c ≠ '=') (k : Nat) :
    withoutPadding (body ++ List.replicate k '=') = body := by
  have hdrop : (body ++ List.replicate k '=').reverse.dropWhile (· == '=') = body.reverse := by
    rw [List.reverse_append, List.reverse_replicate, List.dropWhile_append,
      List.dropWhile_replicate]
    cases hbody : body.reverse with
    | nil => simp
    | cons c rest =>
      have hc : c ≠ '=' := h c (List.mem_reverse.1 (hbody ▸ List.mem_cons_self ..))
      simp [hc]
  rw [withoutPadding, hdrop, List.reverse_reverse]

theorem mem_alphabet_of_letters {letters : List (BitVec 5)} :
    ∀ e ∈ letters.map letterOf, e ∈ BASE32_ALPHABET := by
  intro e he
  obtain ⟨d, _, rfl⟩ := List.mem_map.1 he
  exact (letterOf_facts d).1

/-- What is decoded of a text whose letters, in either case and between white space, are given. -/
theorem base32Decode_of_letters (upper : Char → Text) {letters : List (BitVec 5)} {body : Text}
    (h : List.Forall₂ SameLetter (body.filter fun c => !isSpace c) (letters.map letterOf))
    (k : Nat) : ∃ bytes, base32Decode upper (body ++ List.replicate k '=') = .ok bytes ∧
      ∃ r, r.length < 8 ∧ byteStream bytes ++ r = stream letters := by
  obtain ⟨st, hst, r, hr, hstream⟩ := decode_letters letters
  have hbody : ∀ c ∈ body, c ≠ '=' := by
    intro c hc heq
    have hmem : c ∈ body.filter fun c => !isSpace c :=
      List.mem_filter.2 ⟨hc, by rw [heq]; decide⟩
    exact ne_padding_of_sameLetter h mem_alphabet_of_letters c hmem heq
  refine ⟨st.bytes, ?_, r, hr, hstream⟩
  simp only [base32Decode, withoutPadding_append hbody,
    toUpperCase_of_sameLetter h mem_alphabet_of_letters, hst]
  rfl

/-- Upper case, a length that whole bytes give, and no bit set after the last byte. -/
structure Canonical (text : Text) : Prop where
  upperCase : ∀ c ∈ text, c ∈ BASE32_ALPHABET
  legalLength : text.length % 8 ∈ [0, 2, 4, 5, 7]
  trailing : ∀ c ∈ text.getLast?, 2 ^ (5 * text.length % 8) ∣ BASE32_ALPHABET.idxOf c

theorem Canonical.letters {text : Text} (h : Canonical text) :
    ∃ letters : List (BitVec 5), letters.map letterOf = text := by
  have hall := h.upperCase
  clear h
  induction text with
  | nil => exact ⟨[], rfl⟩
  | cons c text ih =>
    obtain ⟨letters, rfl⟩ := ih fun e he => hall e (List.mem_cons_of_mem _ he)
    obtain ⟨d, rfl⟩ := exists_letterOf c (hall c (List.mem_cons_self ..))
    exact ⟨d :: letters, rfl⟩

theorem low_of_dvd {w n : Nat} {d : BitVec w} (h : 2 ^ n ∣ d.toNat) :
    low d n = List.replicate n false := by
  rw [← low_zero (w := w)]
  refine low_congr fun i hi => ?_
  obtain ⟨m, hm⟩ := h
  rw [BitVec.getLsbD, hm, Nat.testBit_two_pow_mul]
  simp [hi]

/-- The bits of a canonical text that belong to no byte are zeros. -/
theorem Canonical.rest {letters : List (BitVec 5)} (h : Canonical (letters.map letterOf))
    {bytes : List UInt8} {r : List Bool} (hr : r.length < 8)
    (hstream : byteStream bytes ++ r = stream letters) :
    r.length < 5 ∧ r = List.replicate r.length false := by
  have hlength : r.length = 5 * letters.length % 8 := by
    have hsum := congrArg List.length hstream
    rw [List.length_append, byteStream, length_stream, length_stream] at hsum
    omega
  have hshort : r.length < 5 := by
    have hlegal := h.legalLength
    rw [List.length_map] at hlegal
    simp only [List.mem_cons, List.not_mem_nil, or_false] at hlegal
    omega
  refine ⟨hshort, ?_⟩
  cases hrev : letters.reverse with
  | nil =>
    rw [List.reverse_eq_nil_iff] at hrev
    rw [hrev, List.length_nil] at hlength
    rw [List.length_eq_zero_iff.1 hlength]
    rfl
  | cons d init =>
    have hletters : letters = init.reverse ++ [d] := by
      rw [← List.reverse_reverse letters, hrev, List.reverse_cons]
    have hdvd : 2 ^ r.length ∣ d.toNat := by
      have htrailing := h.trailing (letterOf d) (by rw [hletters]; simp)
      rw [(letterOf_facts d).2.2, List.length_map, ← hlength] at htrailing
      exact htrailing
    have hsplit : stream letters =
        (stream init.reverse ++ low (d >>> r.length) (5 - r.length)) ++ low d r.length := by
      rw [hletters, stream_append, stream_cons, stream_nil, List.append_nil, List.append_assoc,
        ← low_add, Nat.sub_add_cancel (by omega)]
    rw [hsplit] at hstream
    rw [(List.append_inj' hstream (by rw [length_low])).2, length_low]
    exact low_of_dvd hdvd

/-- Whatever case its letters are given in, and whatever white space and padding, a text that
`base32Encode` gives decodes to the buffer; and a canonical text is the encoding of what it
decodes to. -/
theorem base32_round_trip (upper : Char → Text) :
    (∀ (buffer : List UInt8) (body : Text) (k : Nat),
      List.Forall₂ SameLetter (body.filter fun c => !isSpace c) (base32Encode buffer) →
        base32Decode upper (body ++ List.replicate k '=') = .ok buffer) ∧
    (∀ text : Text, Canonical text →
      ∃ buffer, base32Decode upper text = .ok buffer ∧ base32Encode buffer = text) := by
  constructor
  · intro buffer body k h
    obtain ⟨letters, p, hp, hencode, hletters⟩ := base32Encode_spec buffer
    rw [hencode] at h
    obtain ⟨bytes, hdecode, r, hr, hstream⟩ := base32Decode_of_letters upper h k
    rw [hletters] at hstream
    obtain ⟨rfl, -⟩ := byteStream_unique hr (by rw [List.length_replicate]; omega) hstream
    exact hdecode
  · intro text h
    obtain ⟨letters, rfl⟩ := h.letters
    have hbody : List.Forall₂ SameLetter ((letters.map letterOf).filter fun c => !isSpace c)
        (letters.map letterOf) := by
      rw [List.filter_eq_self.2 fun c hc => ?_]
      · exact List.forall₂_same.2 fun c _ => Or.inl rfl
      · rw [(SameLetter.facts (Or.inl rfl) (mem_alphabet_of_letters c hc)).2.2.2]
        rfl
    obtain ⟨bytes, hdecode, r, hr, hstream⟩ := base32Decode_of_letters upper hbody 0
    rw [List.replicate_zero, List.append_nil] at hdecode
    obtain ⟨letters', p, hp, hencode, hletters'⟩ := base32Encode_spec bytes
    obtain ⟨hshort, hzero⟩ := h.rest hr hstream
    have hsum := congrArg List.length hstream
    have hsum' := congrArg List.length hletters'
    rw [List.length_append, length_stream] at hsum
    rw [List.length_append, length_stream, List.length_replicate] at hsum'
    have hlen : letters'.length = letters.length := by omega
    have hp : p = r.length := by omega
    have hsame : letters' = letters := by
      refine stream_injective hlen ?_
      rw [hletters', ← hstream, hp, ← hzero]
    exact ⟨bytes, hdecode, by rw [hencode, hsame]⟩

theorem base32_round_trip_fo (upper : Char → Text) :
    base32Decode upper "mZ Xq ====".toList = .ok [0x66, 0x6f] ∧
      ∃ buffer, base32Decode upper "MZXQ".toList = .ok buffer ∧
        base32Encode buffer = "MZXQ".toList := by
  refine ⟨(base32_round_trip upper).1 [0x66, 0x6f] "mZ Xq ".toList 4 ?_,
    (base32_round_trip upper).2 "MZXQ".toList
      ⟨List.all_iff_forall_prop.1 (by decide), by decide,
        fun c hc => by cases hc; decide⟩⟩
  show List.Forall₂ SameLetter ['m', 'Z', 'X', 'q'] ['M', 'Z', 'X', 'Q']
  exact .cons (.inr rfl) (.cons (.inl rfl) (.cons (.inl rfl) (.cons (.inr rfl) .nil)))

end JobBoard.Auth.Totp
