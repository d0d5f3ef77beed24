import JobBoard.Auth.Entities
import Mathlib.Algebra.Group.Nat.Defs

/-!
# One-time codes

`totp.ts` over the HMAC of the environment, and the texts that the services
normalise: `\s` and `\d` of a JavaScript regular expression and `parseInt`.
-/

set_option autoImplicit false

namespace JobBoard.Auth

/-- `\s`. -/
def isSpace (c : Char) : Bool :=
  let n := c.toNat
  (9 ≤ n && n ≤ 13) || n == 32 || n == 160 || n == 5760 || (8192 ≤ n && n ≤ 8202) || n == 8232 ||
    n == 8233 || n == 8239 || n == 8287 || n == 12288 || n == 65279

/-- `\d`. -/
def isDigit (c : Char) : Bool := 48 ≤ c.toNat && c.toNat ≤ 57

/-- `s.replace(/\s/g, '')`. -/
def removeSpaces (s : String) : String := String.ofList (s.toList.filter fun c => !isSpace c)

/-- `parseInt(s, 10)`: `none` stands for NaN. -/
def parseInt (s : String) : Option Int :=
  let cs := s.toList.dropWhile isSpace
  let (negative, cs) :=
    match cs with
    | '-' :: cs => (true, cs)
    | '+' :: cs => (false, cs)
    | cs => (false, cs)
  match cs.takeWhile isDigit with
  | [] => none
  | ds =>
    let n : Int := ds.foldl (fun n c => 10 * n + (c.toNat - 48 : Nat)) 0
    some (if negative then -n else n)

example : parseInt "7d" = some 7 := by decide

def BASE32_ALPHABET : List Char := "ABCDEFGHIJKLMNOPQRSTUVWXYZ234567".toList

/-- One character of `base32Decode`: the bits read so far, and the bytes, last first. -/
def base32Char (st : Nat × Nat × List Nat) (c : Char) : Option (Nat × Nat × List Nat) := do
  let idx ← BASE32_ALPHABET.findIdx? (· == c)
  let value := (st.2.1 * 32 + idx) % 4294967296
  let bits := st.1 + 5
  if 8 ≤ bits then some (bits - 8, value, value / 2 ^ (bits - 8) % 256 :: st.2.2)
  else some (bits, value, st.2.2)

/-- `base32Decode`, which throws on a character outside the alphabet. -/
def base32Decode (input : String) : Option (List Nat) := do
  let unpadded := (input.toList.reverse.dropWhile (· == '=')).reverse
  let cleaned := (unpadded.filter fun c => !isSpace c).map Char.toUpper
  let st ← cleaned.foldlM base32Char (0, 0, [])
  return st.2.2.reverse

def padStart (length : Nat) (s : String) : String :=
  String.ofList (List.replicate (length - s.length) '0') ++ s

def hotp (hmacSha1 : List Nat → List Nat → List Nat) (key : List Nat) (counter : Int)
    (digits : Nat) : String :=
  let buf := (List.range 8).map fun k => counter.toNat / 256 ^ (7 - k) % 256
  let hmac := hmacSha1 key buf
  let byte (k : Nat) : Nat := hmac.getD k 0
  let offset := byte (hmac.length - 1) % 16
  let binary := byte offset % 128 * 16777216 + byte (offset + 1) * 65536 + byte (offset + 2) * 256 +
    byte (offset + 3)
  padStart digits (toString (binary % 10 ^ digits))

/-- `verifyTotp` with the default options: six digits, steps of thirty seconds, one
step of drift either way. -/
def verifyTotp (hmacSha1 : List Nat → List Nat → List Nat) (secretBase32 token : String)
    (now : Time) : Option Bool :=
  let normalized := removeSpaces token
  if !(normalized.toList.all isDigit) || normalized.length ≠ 6 then some false
  else do
    let key ← base32Decode secretBase32
    let counter := now / 1000 / 30
    return [counter - 1, counter, counter + 1].any fun c => hotp hmacSha1 key c 6 == normalized

end JobBoard.Auth
