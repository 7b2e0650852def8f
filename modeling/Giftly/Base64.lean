import Mathlib.Data.List.Basic
import Mathlib.Tactic.NormNum

/-!
# Base64

The standard alphabet with padding: three bytes are four characters, and a last group of one or two
bytes is filled up with `=`. `decode` is the strict decoder. It takes no other character, and padding
at the end only; the bits that the last character of a padded group has to spare are ignored.
-/

namespace Base64

/-- The characters of the six-bit numbers. -/
def alphabet : List Char :=
  "ABCDEFGHIJKLMNOPQRSTUVWXYZabcdefghijklmnopqrstuvwxyz0123456789+/".toList

/-- The character that fills up a group. -/
def pad : Char := '='

/-- The character of a six-bit number. -/
def digit (n : ℕ) : Char := alphabet.getD n pad

/-- The number of a character. -/
def value (c : Char) : Option ℕ := alphabet.idxOf? c

/-- The text of a list of bytes. -/
def encode : List UInt8 → List Char
  | [] => []
  | [a] => [digit (a.toNat / 4), digit (a.toNat % 4 * 16), pad, pad]
  | [a, b] =>
    [digit (a.toNat / 4), digit (a.toNat % 4 * 16 + b.toNat / 16), digit (b.toNat % 16 * 4), pad]
  | a :: b :: c :: bytes =>
    digit (a.toNat / 4) :: digit (a.toNat % 4 * 16 + b.toNat / 16) ::
      digit (b.toNat % 16 * 4 + c.toNat / 64) :: digit (c.toNat % 64) :: encode bytes

/-- The bytes of four characters, of which the last is padding. -/
def decodePadded (w x y : Char) : Option (List UInt8) := do
  let w ← value w
  let x ← value x
  if y = pad then return [.ofNat (w * 4 + x / 16)]
  let y ← value y
  return [.ofNat (w * 4 + x / 16), .ofNat (x % 16 * 16 + y / 4)]

/-- The bytes of four characters. -/
def decodeQuad (w x y z : Char) : Option (List UInt8) := do
  let w ← value w
  let x ← value x
  let y ← value y
  let z ← value z
  return [.ofNat (w * 4 + x / 16), .ofNat (x % 16 * 16 + y / 4), .ofNat (y % 4 * 64 + z)]

/-- The bytes of a text, when it is one of base64. -/
def decode : List Char → Option (List UInt8)
  | [] => some []
  | w :: x :: y :: z :: rest =>
    if z = pad then
      if rest = [] then decodePadded w x y else none
    else do
      return (← decodeQuad w x y z) ++ (← decode rest)
  | _ => none

/-- A digit stands for its number. -/
theorem value_digit {n : ℕ} (h : n < 64) : value (digit n) = some n :=
  (by decide +kernel : ∀ n : Fin 64, value (digit n) = some n.1) ⟨n, h⟩

/-- A digit is not the padding. -/
theorem digit_ne_pad {n : ℕ} (h : n < 64) : digit n ≠ pad :=
  (by decide +kernel : ∀ n : Fin 64, digit n ≠ pad) ⟨n, h⟩

/-- A byte by its number. -/
theorem ofNat_eq {n : ℕ} {a : UInt8} (h : n = a.toNat) : UInt8.ofNat n = a := by
  rw [h, UInt8.ofNat_toNat]

/-- The byte of a padded group of two digits. -/
theorem decodePadded_two {w x : ℕ} (hw : w < 64) (hx : x < 64) :
    decodePadded (digit w) (digit x) pad = some [.ofNat (w * 4 + x / 16)] := by
  rw [decodePadded, value_digit hw, value_digit hx]
  rfl

/-- The bytes of a padded group of three digits. -/
theorem decodePadded_three {w x y : ℕ} (hw : w < 64) (hx : x < 64) (hy : y < 64) :
    decodePadded (digit w) (digit x) (digit y) =
      some [.ofNat (w * 4 + x / 16), .ofNat (x % 16 * 16 + y / 4)] := by
  rw [decodePadded, value_digit hw, value_digit hx, value_digit hy]
  simp only [Option.bind_eq_bind, Option.bind_some, if_neg (digit_ne_pad hy)]
  rfl

/-- The bytes of a whole group. -/
theorem decodeQuad_digit {w x y z : ℕ} (hw : w < 64) (hx : x < 64) (hy : y < 64) (hz : z < 64) :
    decodeQuad (digit w) (digit x) (digit y) (digit z) =
      some [.ofNat (w * 4 + x / 16), .ofNat (x % 16 * 16 + y / 4), .ofNat (y % 4 * 64 + z)] := by
  rw [decodeQuad, value_digit hw, value_digit hx, value_digit hy, value_digit hz]
  rfl

/-- A text that was encoded is decoded to its bytes. -/
theorem decode_encode : ∀ bytes : List UInt8, decode (encode bytes) = some bytes
  | [] => rfl
  | [a] => by
    have ha := a.toNat_lt
    have h : a.toNat / 4 * 4 + a.toNat % 4 * 16 / 16 = a.toNat := by omega
    rw [encode, decode, if_pos rfl, if_pos rfl, decodePadded_two (by omega) (by omega), ofNat_eq h]
  | [a, b] => by
    have ha := a.toNat_lt
    have hb := b.toNat_lt
    -- The six-bit digits put the bytes together again.
    have h₁ : a.toNat / 4 * 4 + (a.toNat % 4 * 16 + b.toNat / 16) / 16 = a.toNat := by omega
    have h₂ : (a.toNat % 4 * 16 + b.toNat / 16) % 16 * 16 + b.toNat % 16 * 4 / 4 = b.toNat := by
      omega
    rw [encode, decode, if_pos rfl, if_pos rfl,
      decodePadded_three (by omega) (by omega) (by omega), ofNat_eq h₁, ofNat_eq h₂]
  | a :: b :: c :: bytes => by
    have ha := a.toNat_lt
    have hb := b.toNat_lt
    have hc := c.toNat_lt
    have hz : c.toNat % 64 < 64 := by omega
    have h₁ : a.toNat / 4 * 4 + (a.toNat % 4 * 16 + b.toNat / 16) / 16 = a.toNat := by omega
    have h₂ : (a.toNat % 4 * 16 + b.toNat / 16) % 16 * 16 +
        (b.toNat % 16 * 4 + c.toNat / 64) / 4 = b.toNat := by omega
    have h₃ : (b.toNat % 16 * 4 + c.toNat / 64) % 4 * 64 + c.toNat % 64 = c.toNat := by omega
    rw [encode, decode, if_neg (digit_ne_pad hz),
      decodeQuad_digit (by omega) (by omega) (by omega) hz, decode_encode bytes, ofNat_eq h₁,
      ofNat_eq h₂, ofNat_eq h₃]
    rfl

/-- The number of the characters. -/
theorem length_encode : ∀ bytes : List UInt8,
    (encode bytes).length = (bytes.length + 2) / 3 * 4
  | [] => rfl
  | [_] => by simp [encode]
  | [_, _] => by simp [encode]
  | a :: b :: c :: bytes => by
    have ih := length_encode bytes
    simp only [encode, List.length_cons, ih]
    omega

example : encode [77, 97, 110, 77] = "TWFuTQ==".toList := by decide

end Base64
