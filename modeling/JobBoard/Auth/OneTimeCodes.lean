import Mathlib
import JobBoard.Auth.Base32
import Mathlib.Data.Int.Log
import Mathlib.Data.Rat.Floor

/-!
# One-time codes, number by number

`hotp` and `verifyTotp` of `totp.ts` with all options: the two halves of the counter, the
truncation in words of 32 bits with their sign, and the loop over the drift. `rfcCode` is the
code as the standards define it, from the number that the four bytes spell.

The times are rationals, and `Math.floor(now / 1000 / step)` is taken of the doubles nearest to
the two quotients.
-/

set_option autoImplicit false

namespace JobBoard.Auth.Totp

open Bits

abbrev Bytes := List UInt8

/-! ## Codes -/

/-- `buf.writeUInt32BE(value)`: the four bytes, or a RangeError. -/
def writeUInt32BE (value : Int) : Except String Bytes :=
  if value < 0 ∨ 2 ^ 32 ≤ value then .error "The value of \"value\" is out of range."
  else
    let value := value.toNat
    .ok [UInt8.ofNat (value / 2 ^ 24), UInt8.ofNat (value / 2 ^ 16), UInt8.ofNat (value / 2 ^ 8),
      UInt8.ofNat value]

def counterBytes (counter : Int) : Except String Bytes := do
  let hi ← writeUInt32BE (counter / 0x100000000)
  let lo ← writeUInt32BE (counter.tmod 0x100000000)
  return hi ++ lo

/-- `hmac[i]` as the operand of `&`: outside the digest it is undefined, which counts as 0. -/
def byteAt (hmac : Vector UInt8 20) (i : Nat) : BitVec 32 :=
  match hmac[i]? with
  | some byte => byte.toBitVec.setWidth 32
  | none => 0

def truncationOffset (hmac : Vector UInt8 20) : Nat := (byteAt hmac (20 - 1) &&& 0xf).toNat

def truncate (hmac : Vector UInt8 20) : BitVec 32 :=
  let offset := truncationOffset hmac
  shl (byteAt hmac offset &&& 0x7f) 24 ||| shl (byteAt hmac (offset + 1) &&& 0xff) 16 |||
    shl (byteAt hmac (offset + 2) &&& 0xff) 8 ||| (byteAt hmac (offset + 3) &&& 0xff)

def padStart (text : Text) (length : Nat) (fill : Char) : Text :=
  List.replicate (length - text.length) fill ++ text

section

variable (hmacSha1 : Bytes → Bytes → Vector UInt8 20)

def hotp (key : Bytes) (counter : Int) (digits : Nat) : Except String Text := do
  let buf ← counterBytes counter
  let binary := (truncate (hmacSha1 key buf)).toInt
  return padStart (toString (binary.tmod (10 ^ digits))).toList digits '0'

end

/-! ## Times -/

/-- The double nearest to a number, ties to the even one. -/
def nearestDouble (q : Rat) : Rat :=
  let unit : Rat := 2 ^ (Int.log 2 |q| - 52)
  let below := ⌊q / unit⌋
  let part := q / unit - below
  let nearest := if part < 1 / 2 ∨ (part = 1 / 2 ∧ below % 2 = 0) then below else below + 1
  nearest * unit

structure TotpOptions where
  digits : Nat := 6
  stepSeconds : Rat := 30
  now : Rat
  window : Int := 1
  stepPos : 0 < stepSeconds := by decide

/-- `Math.floor(now / 1000 / step)`. -/
def TotpOptions.counter (options : TotpOptions) : Int :=
  ⌊nearestDouble (nearestDouble (options.now / 1000) / options.stepSeconds)⌋

/-! ## Verification -/

def constantTimeEquals (a b : Text) : Bool :=
  let bufA := (String.ofList a).toUTF8
  let bufB := (String.ofList b).toUTF8
  if bufA.size ≠ bufB.size then false else decide (bufA = bufB)

section

variable (hmacSha1 : Bytes → Bytes → Vector UInt8 20)

/-- So many rounds of the loop, from the drift `error` on. -/
def tryWindow (key : Bytes) (counter : Int) (digits : Nat) (normalized : Text) :
    Nat → Int → Except String Bool
  | 0, _ => .ok false
  | rounds + 1, error => do
    let candidate ← hotp hmacSha1 key (counter + error) digits
    if constantTimeEquals candidate normalized then return true
    tryWindow key counter digits normalized rounds (error + 1)

def verifyTotp (upper : Char → Text) (secretBase32 token : Text) (options : TotpOptions) :
    Except String Bool := do
  let normalized := token.filter fun c => !isSpace c
  if normalized.isEmpty || !normalized.all isDigit || normalized.length != options.digits then
    return false
  let key ← base32Decode upper secretBase32
  tryWindow hmacSha1 key options.counter options.digits normalized
    (2 * options.window + 1).toNat (-options.window)

end

/-! ## The standards -/

/-- The number that bytes spell, the highest first. -/
def bigEndian (bytes : Bytes) : Nat := bytes.foldl (fun n byte => 256 * n + byte.toNat) 0

/-- The moving factor: eight bytes that spell the counter. -/
def movingFactor (counter : Nat) : Bytes :=
  (List.range 8).map fun i => UInt8.ofNat (counter / 256 ^ (7 - i))

/-- Dynamic truncation: the low four bits of the last byte say where the four bytes stand whose
low 31 bits are the number. -/
def dynamicTruncation (hmac : Vector UInt8 20) : Nat :=
  let offset := (hmac.get 19).toNat % 16
  bigEndian ((hmac.toList.drop offset).take 4) % 2 ^ 31

def rfcCode (hmacSha1 : Bytes → Bytes → Vector UInt8 20) (key : Bytes) (counter digits : Nat) :
    Text :=
  padStart (toString (dynamicTruncation (hmacSha1 key (movingFactor counter)) % 10 ^ digits)).toList
    digits '0'

/-! ## The counter -/

theorem counterBytes_eq {counter : Nat} (h : counter < 2 ^ 53) :
    counterBytes counter = .ok (movingFactor counter) := by
  have hhi : ((counter : Int) / 0x100000000) = ((counter / 2 ^ 32 : Nat) : Int) := by
    push_cast
    rfl
  have hlo : (counter : Int).tmod 0x100000000 = ((counter % 2 ^ 32 : Nat) : Int) := by
    rw [Int.tmod_eq_emod_of_nonneg (Int.natCast_nonneg counter)]
    push_cast
    rfl
  have hbound : counter / 2 ^ 32 < 2 ^ 32 := by omega
  have hmod : counter % 2 ^ 32 < 2 ^ 32 := Nat.mod_lt _ (by decide)
  have hbyte : ∀ {m n : Nat}, m % 2 ^ 8 = n % 2 ^ 8 → UInt8.ofNat m = UInt8.ofNat n := by
    intro m n hmn
    refine UInt8.toNat.inj ?_
    rw [UInt8.toNat_ofNat', UInt8.toNat_ofNat', hmn]
  unfold counterBytes writeUInt32BE
  rw [hhi, hlo, if_neg (by omega), if_neg (by omega), Int.toNat_natCast, Int.toNat_natCast]
  refine congrArg Except.ok ?_
  show [_, _, _, _, _, _, _, _] = [_, _, _, _, _, _, _, _]
  simp only [List.cons.injEq, and_true]
  exact ⟨hbyte (by omega), hbyte (by omega), hbyte (by omega), hbyte (by omega), hbyte (by omega),
    hbyte (by omega), hbyte (by omega), hbyte (by omega)⟩

/-- The bytes of the moving factor spell the counter. -/
theorem bigEndian_movingFactor {counter : Nat} (h : counter < 2 ^ 64) :
    (movingFactor counter).length = 8 ∧ bigEndian (movingFactor counter) = counter := by
  refine ⟨by simp [movingFactor], ?_⟩
  have hbyte : ∀ n : Nat, (UInt8.ofNat n).toNat = n % 256 := fun n => by simp
  show bigEndian [_, _, _, _, _, _, _, _] = counter
  simp only [bigEndian, List.foldl_cons, List.foldl_nil, hbyte]
  omega

/-! ## Truncation -/

theorem byteAt_of_lt {hmac : Vector UInt8 20} {i : Nat} (h : i < 20) :
    byteAt hmac i = (hmac.get ⟨i, h⟩).toBitVec.setWidth 32 := by
  rw [byteAt, Vector.getElem?_eq_getElem h]
  rfl

/-- The bits of a byte that a mask keeps. -/
theorem toNat_mask (byte : UInt8) {k : Nat} (h : k ≤ 8) :
    (byte.toBitVec.setWidth 32 &&& BitVec.ofNat 32 (2 ^ k - 1)).toNat = byte.toNat % 2 ^ k := by
  have hpow : 2 ^ k ≤ 2 ^ 8 := Nat.pow_le_pow_right (by decide) h
  have hbyte := byte.toNat_lt
  rw [BitVec.toNat_and, BitVec.toNat_setWidth, BitVec.toNat_ofNat,
    Nat.mod_eq_of_lt (by omega : 2 ^ k - 1 < 2 ^ 32),
    Nat.mod_eq_of_lt (lt_trans byte.toBitVec.isLt (by decide)), Nat.and_two_pow_sub_one_eq_mod]
  rfl

/-- A byte above bits that are already there. -/
theorem toNat_shl_or {v u : BitVec 32} {k n : Nat} (hk : k < 32) (hv : v.toNat < 2 ^ n)
    (hn : n + k ≤ 32) (hu : u.toNat < 2 ^ k) :
    (shl v k ||| u).toNat = v.toNat * 2 ^ k + u.toNat := by
  have hshift : v.toNat * 2 ^ k < 2 ^ 32 := calc
    v.toNat * 2 ^ k < 2 ^ n * 2 ^ k := Nat.mul_lt_mul_of_pos_right hv (Nat.two_pow_pos k)
    _ = 2 ^ (n + k) := (Nat.pow_add 2 n k).symm
    _ ≤ 2 ^ 32 := Nat.pow_le_pow_right (by decide) hn
  rw [shl_of_lt hk, BitVec.toNat_or, BitVec.toNat_shiftLeft, Nat.shiftLeft_eq,
    Nat.mod_eq_of_lt hshift, ← Nat.shiftLeft_eq, Nat.shiftLeft_add_eq_or_of_lt hu]

theorem truncationOffset_eq (hmac : Vector UInt8 20) :
    truncationOffset hmac = (hmac.get 19).toNat % 16 := by
  rw [truncationOffset, byteAt_of_lt (by decide)]
  exact toNat_mask (hmac.get 19) (k := 4) (by decide)

/-- The word that is put together from four bytes: the number they spell without its top bit,
and so not negative. -/
theorem toInt_word (b₀ b₁ b₂ b₃ : UInt8) :
    (shl (b₀.toBitVec.setWidth 32 &&& 0x7f) 24 ||| shl (b₁.toBitVec.setWidth 32 &&& 0xff) 16 |||
      shl (b₂.toBitVec.setWidth 32 &&& 0xff) 8 ||| (b₃.toBitVec.setWidth 32 &&& 0xff)).toInt =
        ((bigEndian [b₀, b₁, b₂, b₃] % 2 ^ 31 : Nat) : Int) := by
  have hb₀ : (b₀.toBitVec.setWidth 32 &&& 0x7f).toNat = b₀.toNat % 2 ^ 7 :=
    toNat_mask b₀ (k := 7) (by decide)
  have hb₁ : (b₁.toBitVec.setWidth 32 &&& 0xff).toNat = b₁.toNat % 2 ^ 8 :=
    toNat_mask b₁ (k := 8) (by decide)
  have hb₂ : (b₂.toBitVec.setWidth 32 &&& 0xff).toNat = b₂.toNat % 2 ^ 8 :=
    toNat_mask b₂ (k := 8) (by decide)
  have hb₃ : (b₃.toBitVec.setWidth 32 &&& 0xff).toNat = b₃.toNat % 2 ^ 8 :=
    toNat_mask b₃ (k := 8) (by decide)
  generalize b₀.toBitVec.setWidth 32 &&& 0x7f = v₀ at hb₀ ⊢
  generalize b₁.toBitVec.setWidth 32 &&& 0xff = v₁ at hb₁ ⊢
  generalize b₂.toBitVec.setWidth 32 &&& 0xff = v₂ at hb₂ ⊢
  generalize b₃.toBitVec.setWidth 32 &&& 0xff = v₃ at hb₃ ⊢
  have h₂ : (shl v₂ 8 ||| v₃).toNat = v₂.toNat * 2 ^ 8 + v₃.toNat :=
    toNat_shl_or (n := 8) (by decide) (by omega) (by decide) (by omega)
  have h₁ : (shl v₁ 16 ||| (shl v₂ 8 ||| v₃)).toNat =
      v₁.toNat * 2 ^ 16 + (shl v₂ 8 ||| v₃).toNat :=
    toNat_shl_or (n := 8) (by decide) (by omega) (by decide) (by omega)
  have h₀ : (shl v₀ 24 ||| (shl v₁ 16 ||| (shl v₂ 8 ||| v₃))).toNat =
      v₀.toNat * 2 ^ 24 + (shl v₁ 16 ||| (shl v₂ 8 ||| v₃)).toNat :=
    toNat_shl_or (n := 7) (by decide) (by omega) (by decide) (by omega)
  have hspell : bigEndian [b₀, b₁, b₂, b₃] % 2 ^ 31 =
      (shl v₀ 24 ||| (shl v₁ 16 ||| (shl v₂ 8 ||| v₃))).toNat := by
    have := b₀.toNat_lt
    have := b₁.toNat_lt
    have := b₂.toNat_lt
    have := b₃.toNat_lt
    simp only [bigEndian, List.foldl_cons, List.foldl_nil]
    omega
  rw [BitVec.or_assoc, BitVec.or_assoc, hspell]
  exact BitVec.toInt_eq_toNat_of_lt (by omega)

theorem take_drop_four {bytes : Bytes} {o : Nat} (h : o + 3 < bytes.length) :
    (bytes.drop o).take 4 =
      [bytes.get ⟨o, by omega⟩, bytes.get ⟨o + 1, by omega⟩, bytes.get ⟨o + 2, by omega⟩,
        bytes.get ⟨o + 3, h⟩] := by
  rw [List.drop_eq_getElem_cons (by omega), List.drop_eq_getElem_cons (by omega),
    List.drop_eq_getElem_cons (by omega), List.drop_eq_getElem_cons (by omega)]
  rfl

/-- The word that is put together is the number of the four bytes, which is not negative. -/
theorem truncate_eq (hmac : Vector UInt8 20) :
    (truncate hmac).toInt = (dynamicTruncation hmac : Int) := by
  have hoffset := truncationOffset_eq hmac
  have hlt : (hmac.get 19).toNat % 16 + 3 < 20 := by omega
  unfold truncate dynamicTruncation
  rw [hoffset]
  generalize (hmac.get 19).toNat % 16 = o at hlt
  dsimp only
  rw [byteAt_of_lt (i := o) (by omega), byteAt_of_lt (i := o + 1) (by omega),
    byteAt_of_lt (i := o + 2) (by omega), byteAt_of_lt hlt, take_drop_four (by simpa using hlt)]
  exact toInt_word (hmac.get ⟨o, by omega⟩) (hmac.get ⟨o + 1, by omega⟩)
    (hmac.get ⟨o + 2, by omega⟩) (hmac.get ⟨o + 3, hlt⟩)

section

variable (hmacSha1 : Bytes → Bytes → Vector UInt8 20)

theorem hotp_eq (key : Bytes) {counter : Nat} (h : counter < 2 ^ 53) (digits : Nat) :
    hotp hmacSha1 key counter digits = .ok (rfcCode hmacSha1 key counter digits) := by
  have hmod : (dynamicTruncation (hmacSha1 key (movingFactor counter)) : Int).tmod (10 ^ digits) =
      ((dynamicTruncation (hmacSha1 key (movingFactor counter)) % 10 ^ digits : Nat) : Int) := by
    rw [Int.tmod_eq_emod_of_nonneg (Int.natCast_nonneg _)]
    push_cast
    rfl
  unfold hotp
  rw [counterBytes_eq h]
  show Except.ok (padStart (toString ((truncate _).toInt.tmod (10 ^ digits))).toList _ _) = _
  rw [truncate_eq, hmod]
  rfl

theorem rfcCode_ne_nil (key : Bytes) (counter digits : Nat) :
    rfcCode hmacSha1 key counter digits ≠ [] := by
  intro h
  have hdigits := (List.append_eq_nil_iff.1 h).2
  exact Nat.length_repr_pos.ne' (by rw [← String.length_toList]; exact congrArg List.length hdigits)

/-! ## The window -/

theorem constantTimeEquals_eq (a b : Text) : constantTimeEquals a b = decide (a = b) := by
  by_cases h : a = b
  · rw [h, constantTimeEquals, if_neg (by simp), decide_eq_true rfl, decide_eq_true rfl]
  · have hbytes : (String.ofList a).toUTF8 ≠ (String.ofList b).toUTF8 := fun heq =>
      h (String.ofList_inj.1 (String.toByteArray_inj.1 heq))
    rw [constantTimeEquals, decide_eq_false hbytes, decide_eq_false h]
    split
    · rfl
    · rfl

/-- The loop ends at the first step whose code is the token. -/
theorem tryWindow_spec (key : Bytes) (counter : Int) (digits : Nat) (normalized : Text) :
    ∀ (rounds : Nat) (error : Int), 0 ≤ counter + error → counter + error + rounds ≤ 2 ^ 53 →
      ∃ accepted, tryWindow hmacSha1 key counter digits normalized rounds error = .ok accepted ∧
        (accepted = true ↔ ∃ step : Nat, counter + error ≤ step ∧ step < counter + error + rounds ∧
          normalized = rfcCode hmacSha1 key step digits) := by
  intro rounds
  induction rounds with
  | zero =>
    intro error _ _
    refine ⟨false, rfl, by simp, ?_⟩
    rintro ⟨step, hle, hlt, -⟩
    omega
  | succ rounds ih =>
    intro error hlow hhigh
    obtain ⟨first, hfirst⟩ := Int.eq_ofNat_of_zero_le hlow
    obtain ⟨accepted, hrun, haccepted⟩ := ih (error + 1) (by omega) (by push_cast at hhigh; omega)
    have hcode : hotp hmacSha1 key (counter + error) digits =
        .ok (rfcCode hmacSha1 key first digits) := by
      rw [hfirst]
      exact hotp_eq hmacSha1 key (by push_cast at hhigh; omega) digits
    simp only [tryWindow, hcode, constantTimeEquals_eq]
    by_cases heq : rfcCode hmacSha1 key first digits = normalized
    · refine ⟨true, by simp [heq, bind, Except.bind, pure, Except.pure], ?_⟩
      simp only [true_iff]
      exact ⟨first, by omega, by push_cast; omega, heq.symm⟩
    · refine ⟨accepted, by simpa [heq, bind, Except.bind] using hrun, ?_⟩
      rw [haccepted]
      constructor
      · rintro ⟨step, hle, hlt, hstep⟩
        exact ⟨step, by omega, by push_cast; omega, hstep⟩
      · rintro ⟨step, hle, hlt, hstep⟩
        have hne : step ≠ first := by
          rintro rfl
          exact heq hstep.symm
        exact ⟨step, by omega, by push_cast at hlt; omega, hstep⟩

end

/-- A token is accepted iff, without its white space, it consists of `digits` digits and is the
code of a step of the window; the bytes of each such step spell it, and every index of the
truncation lies in the digest. -/
theorem verifyTotp_iff (hmacSha1 : Bytes → Bytes → Vector UInt8 20) (upper : Char → Text)
    (secretBase32 token : Text) (options : TotpOptions) {key : Bytes}
    (hkey : base32Decode upper secretBase32 = .ok key)
    (hlow : options.window ≤ options.counter)
    (hhigh : options.counter + options.window < 2 ^ 53) :
    (∃ accepted, verifyTotp hmacSha1 upper secretBase32 token options = .ok accepted ∧
      (accepted = true ↔
        (∀ c ∈ token.filter fun c => !isSpace c, isDigit c = true) ∧
        (token.filter fun c => !isSpace c).length = options.digits ∧
        ∃ step : Nat, options.counter - options.window ≤ step ∧
          step ≤ options.counter + options.window ∧
          (token.filter fun c => !isSpace c) = rfcCode hmacSha1 key step options.digits)) ∧
    ∀ step : Nat, options.counter - options.window ≤ step →
      step ≤ options.counter + options.window → ∃ buf, counterBytes step = .ok buf ∧
        buf.length = 8 ∧ bigEndian buf = step ∧ truncationOffset (hmacSha1 key buf) + 3 < 20 := by
  refine ⟨?_, ?_⟩
  · generalize hnormalized : (token.filter fun c => !isSpace c) = normalized
    unfold verifyTotp
    rw [hnormalized]
    by_cases hshape : (normalized.isEmpty || !normalized.all isDigit ||
        normalized.length != options.digits) = true
    · refine ⟨false, by rw [if_pos hshape]; rfl, by simp, ?_⟩
      rintro ⟨hdigits, hlength, step, -, -, hcode⟩
      have hne : normalized ≠ [] := hcode ▸ rfcCode_ne_nil hmacSha1 key step options.digits
      have hall : normalized.all isDigit = true := List.all_eq_true.2 hdigits
      simp [hne, hall, hlength] at hshape
    · have hdigits : ∀ c ∈ normalized, isDigit c = true := by
        simp only [Bool.or_eq_true, not_or, Bool.not_eq_true, Bool.not_eq_false'] at hshape
        exact List.all_eq_true.1 hshape.1.2
      have hlength : normalized.length = options.digits := by
        simp only [Bool.or_eq_true, not_or, Bool.not_eq_true, bne_eq_false_iff_eq] at hshape
        exact hshape.2
      rw [if_neg hshape, hkey]
      by_cases hwindow : options.window < 0
      · have hrounds : (2 * options.window + 1).toNat = 0 := by omega
        refine ⟨false, by rw [hrounds]; rfl, by simp, ?_⟩
        rintro ⟨-, -, step, hle, hge, -⟩
        omega
      · obtain ⟨accepted, hrun, haccepted⟩ := tryWindow_spec hmacSha1 key options.counter
          options.digits normalized (2 * options.window + 1).toNat (-options.window) (by omega)
          (by omega)
        refine ⟨accepted, hrun, haccepted.trans ?_⟩
        constructor
        · rintro ⟨step, hle, hlt, hcode⟩
          exact ⟨hdigits, hlength, step, by omega, by omega, hcode⟩
        · rintro ⟨-, -, step, hle, hge, hcode⟩
          exact ⟨step, by omega, by omega, hcode⟩
  · intro step hle hge
    have hbytes := bigEndian_movingFactor (show step < 2 ^ 64 by omega)
    refine ⟨movingFactor step, counterBytes_eq (by omega), hbytes.1, hbytes.2, ?_⟩
    rw [truncationOffset_eq]
    omega

/-- The digests of the key `12345678901234567890` at the counters 0, 1 and 2. -/
def rfcDigest (_key text : Bytes) : Vector UInt8 20 :=
  match bigEndian text with
  | 0 => #v[0xcc, 0x93, 0xcf, 0x18, 0x50, 0x8d, 0x94, 0x93, 0x4c, 0x64,
      0xb6, 0x5d, 0x8b, 0xa7, 0x66, 0x7f, 0xb7, 0xcd, 0xe4, 0xb0]
  | 1 => #v[0x75, 0xa4, 0x8a, 0x19, 0xd4, 0xcb, 0xe1, 0x00, 0x64, 0x4e,
      0x8a, 0xc1, 0x39, 0x7e, 0xea, 0x74, 0x7a, 0x2d, 0x33, 0xab]
  | _ => #v[0x0b, 0xac, 0xb7, 0xfa, 0x08, 0x2f, 0xef, 0x30, 0x78, 0x22,
      0x11, 0x93, 0x8b, 0xc1, 0xc5, 0xe7, 0x04, 0x16, 0xff, 0x44]

theorem verifyTotp_iff_rfc : verifyTotp rfcDigest (fun c => [c])
    "GEZDGNBVGY3TQOJQGEZDGNBVGY3TQOJQ".toList "359 152".toList { now := 45000 } = .ok true := by
  have hcounter : ({ now := 45000 } : TotpOptions).counter = 1 := by decide +kernel
  have hkey : base32Decode (fun c => [c]) "GEZDGNBVGY3TQOJQGEZDGNBVGY3TQOJQ".toList =
      .ok ("12345678901234567890".toList.map fun c => UInt8.ofNat c.toNat) := rfl
  obtain ⟨⟨accepted, hrun, haccepted⟩, -⟩ := verifyTotp_iff rfcDigest (fun c => [c])
    "GEZDGNBVGY3TQOJQGEZDGNBVGY3TQOJQ".toList "359 152".toList { now := 45000 } hkey
    (by rw [hcounter]) (by rw [hcounter]; decide)
  have hdigits : ∀ c ∈ "359 152".toList.filter fun c => !isSpace c, isDigit c = true :=
    List.all_eq_true.1 (by decide)
  rw [hrun, haccepted.2 ⟨hdigits, rfl, 2, by rw [hcounter]; decide, by rw [hcounter]; decide,
    by decide +kernel⟩]

end JobBoard.Auth.Totp
