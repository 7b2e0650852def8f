import Giftly.Models

/-!
# Field encryption and tokens

`core/crypto.py` and `core/jwt.py`, over the libraries that they call. `AESGCM` of `cryptography` and
`PyJWT` are structures here: what they compute is not said, only that decryption under the same key,
nonce and context undoes encryption, and that a signed token gives its payload back until it
expires.
-/

namespace Giftly

/-- Raw bytes. -/
abbrev Bytes := List UInt8

/-! ## Field encryption -/

/-- The context that a ciphertext is bound to, `"{table}:{column}:{entity_id}"`. -/
structure Aad where
  table : String
  column : String
  entityId : Id
  deriving DecidableEq

/-- `AESGCM`. -/
structure Aesgcm where
  /-- A ciphertext with its tag. -/
  Ciphertext : Type
  /-- The number of its bytes. -/
  size : Ciphertext → ℕ
  encrypt (key iv : Bytes) (plaintext : Text) (aad : Aad) : Ciphertext
  decrypt (key iv : Bytes) (ciphertext : Ciphertext) (aad : Aad) : Option Text
  decrypt_encrypt : ∀ key iv plaintext aad,
    decrypt key iv (encrypt key iv plaintext aad) aad = some plaintext

/-- A stored ciphertext, the base64 text of `version || iv || ciphertext || tag`, by its parts. -/
structure Blob (aes : Aesgcm) where
  version : ℕ
  iv : Bytes
  ciphertext : aes.Ciphertext

/-- The length of the base64 text. -/
def Blob.length {aes : Aesgcm} (b : Blob aes) : ℕ :=
  (1 + b.iv.length + aes.size b.ciphertext + 2) / 3 * 4

/-- `FieldCipher`: the keys by version, as its constructor validates them. -/
structure FieldCipher where
  keys : ℕ → Option Bytes
  activeVersion : ℕ
  keySize : ∀ v k, keys v = some k → k.length = 32 ∧ v ≤ 255
  active : (keys activeVersion).isSome

namespace FieldCipher

variable {aes : Aesgcm}

/-- `encrypt`, with the nonce that it draws. -/
def encrypt (c : FieldCipher) (iv : Bytes) (plaintext : Text) (aad : Aad) : Blob aes where
  version := c.activeVersion
  iv := iv
  ciphertext := aes.encrypt ((c.keys c.activeVersion).get c.active) iv plaintext aad

/-- `decrypt`; `none` is a `CryptoError`. -/
def decrypt (c : FieldCipher) (b : Blob aes) (aad : Aad) : Option Text :=
  (c.keys b.version).bind fun key => aes.decrypt key b.iv b.ciphertext aad

/-- What was encrypted for a column of a row is what is read back from it. -/
@[simp]
theorem decrypt_encrypt (c : FieldCipher) (iv : Bytes) (plaintext : Text) (aad : Aad) :
    c.decrypt (c.encrypt iv plaintext aad : Blob aes) aad = some plaintext := by
  obtain ⟨key, hkey⟩ := Option.isSome_iff_exists.mp c.active
  unfold decrypt encrypt
  simp only [hkey, Option.bind_some, Option.get_some]
  exact aes.decrypt_encrypt key iv plaintext aad

end FieldCipher

/-! ## Tokens -/

/-- The payload of a token: an access token, or a registration token by its `purpose`. The issue
time, the issuer and the audience are left out; the library checks the last two. -/
inductive Claims
  | access (sub : Id) (role : UserRole) (jti : Id) (exp : Time)
  | registration (sub : Text) (exp : Time)
  deriving DecidableEq

/-- The time from which a token is expired. -/
def Claims.exp : Claims → Time
  | .access _ _ _ exp | .registration _ exp => exp

/-- `PyJWT`, with the keys and the algorithm of the settings. -/
structure Jwt where
  /-- A token, as it is sent. -/
  Token : Type
  encode : Claims → Token
  decode : Time → Token → Option Claims
  decode_encode : ∀ now c, decode now (encode c) = if now < c.exp then some c else none

/-- The settings of the accounts. -/
structure AuthSettings where
  jwtAccessTtlMinutes : ℕ
  jwtRefreshTtlDays : ℕ

namespace Jwt

/-- `_REGISTRATION_TTL`, in seconds. -/
def registrationTtl : ℤ := 600

/-- `create_access_token`, under the `jti` that it draws. -/
def createAccessToken (j : Jwt) (s : AuthSettings) (now : Time) (jti userId : Id)
    (role : UserRole) : j.Token :=
  j.encode (.access userId role jti (now + s.jwtAccessTtlMinutes * 60))

/-- The verified claims of an access token. -/
structure AccessClaims where
  sub : Id
  role : UserRole
  jti : Id
  exp : Time
  deriving DecidableEq

/-- `decode_access_token`. -/
def decodeAccessToken (j : Jwt) (now : Time) (token : j.Token) : Except Err AccessClaims :=
  match j.decode now token with
  | some (.access sub role jti exp) => .ok { sub, role, jti, exp }
  | _ => .error .jwt

/-- `create_registration_token`. -/
def createRegistrationToken (j : Jwt) (now : Time) (phone : Text) : j.Token :=
  j.encode (.registration phone (now + registrationTtl))

/-- `decode_registration_token`. -/
def decodeRegistrationToken (j : Jwt) (now : Time) (token : j.Token) : Except Err Text :=
  match j.decode now token with
  | some (.registration phone _) => .ok phone
  | _ => .error .jwt

end Jwt

end Giftly
