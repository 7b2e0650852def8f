import Giftly.Base64
import Giftly.Core.Crypto
import Mathlib.Data.Nat.Digits.Lemmas

/-!
# The stored form of a ciphertext

`core/crypto.py` on bytes and texts. A `Blob` is what the base64 text of a column stands for, and an
`Aad` is what the text that `build_aad` builds stands for. The functions here compute the texts
themselves, and on the texts of blobs they agree with those on blobs. The text of an `Aad` determines
it as long as the names of the table and the column have no colon, and an id has one text.
-/

namespace Giftly

/-! ## Texts and bytes -/

/-- `text.encode("utf-8")`. -/
def encodeUtf8 (t : Text) : Bytes := t.flatMap String.utf8EncodeChar

/-- `bytes.decode("utf-8")`. -/
def decodeUtf8 (bytes : Bytes) : Option Text := bytes.toByteArray.utf8Decode?.map Array.toList

/-- A text is decoded from its UTF-8 bytes. -/
theorem decodeUtf8_encodeUtf8 (t : Text) : decodeUtf8 (encodeUtf8 t) = some t := by
  change (t.utf8Encode.utf8Decode?).map Array.toList = some t
  rw [List.utf8Decode?_utf8Encode]
  rfl

/-- Different texts have different UTF-8 bytes. -/
theorem encodeUtf8_injective : Function.Injective encodeUtf8 := by
  intro t t' h
  have hdecoded := decodeUtf8_encodeUtf8 t
  rw [h, decodeUtf8_encodeUtf8] at hdecoded
  exact (Option.some.inj hdecoded).symm

/-! ## The text of an id -/

namespace Uuid

/-- A hexadecimal digit. -/
def hexDigit (n : ℕ) : Char := ("0123456789abcdef".toList).getD n '0'

/-- `"%032x" % uuid.int`. -/
def hex (id : Id) : Text := ((Nat.digits 16 id).reverse.map hexDigit).leftpad 32 '0'

/-- `str(uuid)`. -/
def text (id : Id) : Text :=
  let digits := hex id
  digits.take 8 ++ '-' :: ((digits.drop 8).take 4 ++ '-' :: ((digits.drop 12).take 4 ++
    '-' :: ((digits.drop 16).take 4 ++ '-' :: digits.drop 20)))

example : text 5 = "00000000-0000-0000-0000-000000000005".toList := by decide

/-- The number of a hexadecimal digit. -/
def hexValue (c : Char) : ℕ := "0123456789abcdef".toList.idxOf c

/-- The number that the digits of a text stand for, without its dashes. -/
def ofText (t : Text) : ℕ :=
  Nat.ofDigits 16 ((t.filter (· ≠ '-')).reverse.map hexValue)

/-- A hexadecimal digit stands for its number. -/
theorem hexValue_hexDigit {n : ℕ} (h : n < 16) : hexValue (hexDigit n) = n :=
  (by decide : ∀ n : Fin 16, hexValue (hexDigit n) = n.1) ⟨n, h⟩

/-- A hexadecimal digit is no dash. -/
theorem hexDigit_ne_dash {n : ℕ} (h : n < 16) : hexDigit n ≠ '-' :=
  (by decide : ∀ n : Fin 16, hexDigit n ≠ '-') ⟨n, h⟩

/-- The hexadecimal digits of an id have no dash among them. -/
theorem hex_ne_dash {id : Id} {c : Char} (hc : c ∈ hex id) : c ≠ '-' := by
  rw [hex, List.leftpad, List.mem_append] at hc
  rcases hc with hc | hc
  · rw [List.eq_of_mem_replicate hc]
    decide
  · obtain ⟨n, hn, rfl⟩ := List.mem_map.mp hc
    exact hexDigit_ne_dash (Nat.digits_lt_base (by omega) (List.mem_reverse.mp hn))

/-- The dashes of a UUID stand between its digits. -/
theorem filter_text (id : Id) : (text id).filter (· ≠ '-') = hex id := by
  -- The groups of digits have no dashes, and the dashes between them go.
  have hpart : ∀ m n : ℕ, ((hex id).drop m |>.take n).filter (· ≠ '-') =
      ((hex id).drop m).take n := by
    intro m n
    rw [List.filter_eq_self]
    intro c hc
    exact decide_eq_true (hex_ne_dash (List.mem_of_mem_drop (List.mem_of_mem_take hc)))
  have hlast : ((hex id).drop 20).filter (· ≠ '-') = (hex id).drop 20 := by
    rw [List.filter_eq_self]
    intro c hc
    exact decide_eq_true (hex_ne_dash (List.mem_of_mem_drop hc))
  have hjoin : ∀ m, ((hex id).drop m).take 4 ++ (hex id).drop (m + 4) =
      (hex id).drop m := by
    intro m
    rw [← List.drop_drop, List.take_append_drop]
  have hdash : ∀ t : Text, ('-' :: t).filter (· ≠ '-') = t.filter (· ≠ '-') := fun t =>
    List.filter_cons_of_neg (by decide)
  have hfirst := hpart 0 8
  rw [List.drop_zero] at hfirst
  rw [text, List.filter_append, hdash, List.filter_append, hdash, List.filter_append, hdash,
    List.filter_append, hdash, hfirst, hpart, hpart, hpart, hlast, hjoin 16, hjoin 12, hjoin 8,
    List.take_append_drop]

/-- The text of an id determines it. -/
theorem ofText_text (id : Id) : ofText (text id) = id := by
  have hdigits : (Nat.digits 16 id).map (hexValue ∘ hexDigit) = Nat.digits 16 id := by
    conv_rhs => rw [← List.map_id (Nat.digits 16 id)]
    apply List.map_congr_left
    intro n hn
    exact hexValue_hexDigit (Nat.digits_lt_base (by omega) hn)
  have hzero : hexValue '0' = 0 := by decide
  rw [ofText, filter_text, hex, List.leftpad, List.reverse_append, List.reverse_replicate,
    ← List.map_reverse, List.reverse_reverse, List.map_append, List.map_map, hdigits,
    List.map_replicate, hzero, Nat.ofDigits_append_replicate_zero]
  exact Nat.ofDigits_digits 16 id

/-- Different ids have different texts, since the number of a text is that of its id. -/
theorem text_injective : Function.Injective text :=
  Function.LeftInverse.injective ofText_text

end Uuid

/-! ## Contexts -/

/-- `build_aad`. -/
def Aad.text (x : Aad) : Text :=
  x.table.toList ++ ':' :: (x.column.toList ++ ':' :: Uuid.text x.entityId)

/-- The names of a context have no colon. -/
def Aad.Plain (x : Aad) : Prop := ':' ∉ x.table.toList ∧ ':' ∉ x.column.toList

/-- The part of a text before its first separator. -/
theorem eq_of_append_separator {s : Char} : ∀ {x y u v : Text}, s ∉ x → s ∉ y →
    x ++ s :: u = y ++ s :: v → x = y ∧ u = v
  | [], [], _, _, _, _, h => ⟨rfl, (List.cons.inj h).2⟩
  | [], b :: y, _, _, _, hy, h => absurd ((List.cons.inj h).1 ▸ List.mem_cons_self) hy
  | a :: x, [], _, _, hx, _, h => absurd ((List.cons.inj h).1 ▸ List.mem_cons_self) hx
  | a :: x, b :: y, u, v, hx, hy, h => by
    obtain ⟨rfl, hrest⟩ := List.cons.inj h
    obtain ⟨rfl, rfl⟩ := eq_of_append_separator (List.not_mem_of_not_mem_cons hx)
      (List.not_mem_of_not_mem_cons hy) hrest
    exact ⟨rfl, rfl⟩

/-- The text of a context determines its table, its column and its id. -/
theorem Aad.text_inj {x y : Aad} (hx : x.Plain) (hy : y.Plain) (h : x.text = y.text) : x = y := by
  obtain ⟨table, column, id⟩ := x
  obtain ⟨table', column', id'⟩ := y
  obtain ⟨htable, hrest⟩ := eq_of_append_separator hx.1 hy.1 h
  obtain ⟨hcolumn, hid⟩ := eq_of_append_separator hx.2 hy.2 hrest
  obtain rfl := String.toList_injective htable
  obtain rfl := String.toList_injective hcolumn
  obtain rfl : id = id' := Uuid.text_injective hid
  rfl

/-! ## The library -/

/-- `AESGCM` of `cryptography`, on bytes. A ciphertext ends with a tag of 16 bytes. -/
structure Aead where
  encrypt (key iv data aad : Bytes) : Bytes
  decrypt (key iv data aad : Bytes) : Option Bytes
  decrypt_encrypt : ∀ key iv data aad,
    decrypt key iv (encrypt key iv data aad) aad = some data
  tag_le : ∀ key iv data aad, 16 ≤ (encrypt key iv data aad).length

namespace Aead

/-- A ciphertext is as long as its plaintext and the tag. -/
def Expands (a : Aead) : Prop :=
  ∀ key iv data aad, (a.encrypt key iv data aad).length = data.length + 16

/-- A cipher is fooled when it opens what it sealed for one context under another, with the same key
and nonce. -/
def Fooled (a : Aead) (key iv data aad aad' : Bytes) : Prop :=
  aad' ≠ aad ∧ (a.decrypt key iv (a.encrypt key iv data aad) aad').isSome

/-- The library on texts and contexts, as `FieldCipher` calls it. -/
abbrev aesgcm (a : Aead) : Aesgcm where
  Ciphertext := Bytes
  size := List.length
  encrypt key iv plaintext aad := a.encrypt key iv (encodeUtf8 plaintext) (encodeUtf8 aad.text)
  decrypt key iv ciphertext aad :=
    (a.decrypt key iv ciphertext (encodeUtf8 aad.text)).bind decodeUtf8
  decrypt_encrypt key iv plaintext aad := by
    rw [a.decrypt_encrypt, Option.bind_some, decodeUtf8_encodeUtf8]

end Aead

/-! ## Stored texts -/

/-- `_IV_BYTES`. -/
def ivBytes : ℕ := 12

/-- `base64.b64decode` with `validate=True`. -/
def b64decode (t : Text) : Except Err Bytes :=
  match Base64.decode t with
  | none => .error (.crypto "Ciphertext is not valid base64.")
  | some bytes => .ok bytes

/-- `blob_version`. -/
def blobVersion (blob : Text) : Except Err ℕ := do
  match ← b64decode blob with
  | [] => throw (.crypto "Ciphertext blob is too short.")
  | version :: _ => return version.toNat

namespace FieldCipher

/-- `encrypt`, with the nonce that it draws. -/
def encryptText (c : FieldCipher) (a : Aead) (iv : Bytes) (plaintext aad : Text) : Text :=
  let key := (c.keys c.activeVersion).get c.active
  let ct := a.encrypt key iv (encodeUtf8 plaintext) (encodeUtf8 aad)
  Base64.encode (.ofNat c.activeVersion :: (iv ++ ct))

/-- `decrypt`. -/
def decryptText (c : FieldCipher) (a : Aead) (blob aad : Text) : Except Err Text := do
  let blob ← b64decode blob
  if blob.length < 1 + ivBytes + 16 then throw (.crypto "Ciphertext blob is too short.")
  let version := (blob.headD 0).toNat
  let iv := (blob.drop 1).take ivBytes
  let ct := blob.drop (1 + ivBytes)
  match c.keys version with
  | none => throw (.crypto s!"No key for version {version}.")
  | some key =>
    match a.decrypt key iv ct (encodeUtf8 aad) with
    | none => throw (.crypto "Decryption failed (bad tag, key, or AAD).")
    | some pt =>
      match decodeUtf8 pt with
      | none => throw .unicodeDecode
      | some text => return text

end FieldCipher

namespace Blob

variable {a : Aead}

/-- The bytes of a blob: the version, the nonce, and the ciphertext with its tag. -/
def bytes (b : Blob a.aesgcm) : Bytes := .ofNat b.version :: (b.iv ++ b.ciphertext)

/-- The text that stands in a column. -/
def text (b : Blob a.aesgcm) : Text := Base64.encode b.bytes

/-- The shape of the blobs that `encrypt` makes. -/
structure WellFormed (b : Blob a.aesgcm) : Prop where
  version_lt : b.version < 256
  iv_length : b.iv.length = ivBytes
  tag_le : 16 ≤ (b.ciphertext : Bytes).length

/-- The text of a blob has four characters for every three bytes, as its length says. -/
theorem length_text (b : Blob a.aesgcm) : b.text.length = b.length := by
  have hsize : a.aesgcm.size b.ciphertext = (b.ciphertext : Bytes).length := rfl
  rw [text, Base64.length_encode, bytes, List.length_cons, List.length_append, length, hsize]
  omega

/-- The text of a blob is decoded to its bytes. -/
theorem b64decode_text (b : Blob a.aesgcm) : b64decode b.text = .ok b.bytes := by
  rw [b64decode, text, Base64.decode_encode]

/-- The version of a blob fits the first byte. -/
theorem toNat_version {b : Blob a.aesgcm} (h : b.WellFormed) :
    (UInt8.ofNat b.version).toNat = b.version := UInt8.toNat_ofNat_of_lt' h.version_lt

/-- The version of a stored text is that of its blob. -/
theorem blobVersion_text {b : Blob a.aesgcm} (h : b.WellFormed) :
    blobVersion b.text = .ok b.version := by
  rw [blobVersion, b64decode_text]
  exact congrArg Except.ok (toNat_version h)

end Blob

namespace FieldCipher

variable {a : Aead} {c c' : FieldCipher} {iv : Bytes} {plaintext : Text} {aad aad' : Aad}

/-- The text that is stored is that of the blob. -/
theorem encryptText_eq : c.encryptText a iv plaintext aad.text =
    (c.encrypt iv plaintext aad : Blob a.aesgcm).text := rfl

/-- What `encrypt` makes is well formed. -/
theorem wellFormed_encrypt (hiv : iv.length = ivBytes) :
    (c.encrypt iv plaintext aad : Blob a.aesgcm).WellFormed where
  version_lt := by
    obtain ⟨key, hkey⟩ := Option.isSome_iff_exists.mp c.active
    exact Nat.lt_succ_of_le (c.keySize _ key hkey).2
  iv_length := hiv
  tag_le := a.tag_le _ _ _ _

/-- What is read of a stored text, by the parts of its blob. -/
theorem decryptText_text {b : Blob a.aesgcm} (h : b.WellFormed) (aad : Text) :
    c.decryptText a b.text aad =
      match c.keys b.version with
      | none => .error (.crypto s!"No key for version {b.version}.")
      | some key =>
        match a.decrypt key b.iv b.ciphertext (encodeUtf8 aad) with
        | none => .error (.crypto "Decryption failed (bad tag, key, or AAD).")
        | some pt => (decodeUtf8 pt).elim (.error .unicodeDecode) .ok := by
  -- The text is long enough, and its parts are read back from their places.
  have hlength : ¬b.bytes.length < 1 + ivBytes + 16 := by
    have htag := h.tag_le
    have hiv := h.iv_length
    rw [Blob.bytes, List.length_cons, List.length_append]
    omega
  have hversion : (b.bytes.headD 0).toNat = b.version := Blob.toNat_version h
  have hiv : (b.bytes.drop 1).take ivBytes = b.iv := by
    rw [Blob.bytes, List.drop_succ_cons, List.drop_zero, ← h.iv_length, List.take_left']
    rfl
  have hct : b.bytes.drop (1 + ivBytes) = b.ciphertext := by
    rw [Blob.bytes, Nat.add_comm, List.drop_succ_cons, ← h.iv_length, List.drop_left']
    rfl
  rw [decryptText, Blob.b64decode_text]
  change (if b.bytes.length < 1 + ivBytes + 16 then _ else _ : Except Err Text) = _
  rw [if_neg hlength, hversion, hiv, hct]
  -- From here on both sides fail and succeed together.
  cases c.keys b.version with
  | none => rfl
  | some key =>
    dsimp only
    cases a.decrypt key b.iv b.ciphertext (encodeUtf8 aad) with
    | none => rfl
    | some pt =>
      dsimp only
      cases decodeUtf8 pt <;> rfl

/-- A text reads back under every key map that has the key of its version. -/
theorem decryptText_encrypt (hiv : iv.length = ivBytes)
    (hkey : c'.keys c.activeVersion = c.keys c.activeVersion) :
    c'.decryptText a (c.encrypt iv plaintext aad : Blob a.aesgcm).text aad.text = .ok plaintext := by
  obtain ⟨key, hactive⟩ := Option.isSome_iff_exists.mp c.active
  have hciphertext : (c.encrypt iv plaintext aad : Blob a.aesgcm).ciphertext =
      a.encrypt key iv (encodeUtf8 plaintext) (encodeUtf8 aad.text) := by
    simp only [encrypt, hactive, Option.get_some]
  rw [decryptText_text (wellFormed_encrypt hiv), hciphertext]
  change (match c'.keys c.activeVersion with | none => _ | some key' => _ : Except Err Text) = _
  rw [hkey, hactive]
  change (match a.decrypt key iv _ _ with | none => _ | some pt => _ : Except Err Text) = _
  rw [a.decrypt_encrypt]
  change (decodeUtf8 _).elim _ _ = _
  rw [decodeUtf8_encodeUtf8]
  rfl

/-- Under another context a text is refused, unless the cipher is fooled. -/
theorem decryptText_other_iff {key : Bytes} (hiv : iv.length = ivBytes) (hplain : aad.Plain)
    (hplain' : aad'.Plain) (hne : aad ≠ aad') (hkey : c.keys c.activeVersion = some key)
    (hkey' : c'.keys c.activeVersion = some key) :
    (∃ message, c'.decryptText a (c.encrypt iv plaintext aad : Blob a.aesgcm).text aad'.text =
      .error (.crypto message)) ↔
    ¬a.Fooled key iv (encodeUtf8 plaintext) (encodeUtf8 aad.text) (encodeUtf8 aad'.text) := by
  have hciphertext : (c.encrypt iv plaintext aad : Blob a.aesgcm).ciphertext =
      a.encrypt key iv (encodeUtf8 plaintext) (encodeUtf8 aad.text) := by
    simp only [encrypt, hkey, Option.get_some]
  -- the two contexts are different bytes
  have htext : encodeUtf8 aad'.text ≠ encodeUtf8 aad.text := fun heq =>
    hne (Aad.text_inj hplain hplain' (encodeUtf8_injective heq).symm)
  rw [decryptText_text (wellFormed_encrypt hiv), hciphertext]
  change (∃ message, (match c'.keys c.activeVersion with | none => _ | some key' => _ :
    Except Err Text) = _) ↔ _
  rw [hkey']
  change (∃ message, (match a.decrypt key iv _ _ with | none => _ | some pt => _ :
    Except Err Text) = _) ↔ _
  unfold Aead.Fooled
  cases a.decrypt key iv (a.encrypt key iv (encodeUtf8 plaintext) (encodeUtf8 aad.text))
    (encodeUtf8 aad'.text) with
  | none => simp
  | some pt =>
    -- what was opened is a text or is no UTF-8, and neither is a refusal
    cases hpt : decodeUtf8 pt <;> simp [htext, hpt]

end FieldCipher

end Giftly
