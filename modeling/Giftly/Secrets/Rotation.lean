import Giftly.Chat.Preview
import Giftly.Secrets.Vault
import Giftly.Store.Traverse

/-!
# Key rotation

`key_rotation_service.py`: every encrypted column that may change is decrypted and encrypted again
under the active version, unless it is there already. The loops stop at the first field that does not
decrypt, and the request is rolled back. On fields that were written under the key map, no loop stops;
`rotate_preserves` says what the pass does to them.
-/

namespace Giftly

open Store (Table)

namespace Secrets

/-- `RotationReport`. -/
structure RotationReport where
  courierNationalId : ℕ
  courierPassportId : ℕ
  conversationPreview : ℕ
  withdrawalIban : ℕ
  deriving DecidableEq

/-- `total`. -/
def RotationReport.total (r : RotationReport) : ℕ :=
  r.courierNationalId + r.courierPassportId + r.conversationPreview + r.withdrawalIban

/-- The encrypted columns that are a `VARCHAR(512)` fit. -/
def Vault.fits {a : Aead} (v : Vault a.aesgcm) : Bool :=
  (v.accounts.couriers.rows.all fun r => r.2.nationalIdEncrypted.all (·.length ≤ 512) &&
    r.2.passportIdEncrypted.all (·.length ≤ 512)) &&
  (v.chat.conversations.rows.all fun r => r.2.lastMessagePreviewEncrypted.all (·.length ≤ 512)) &&
  v.withdrawals.rows.all fun r => r.2.ibanEncrypted.length ≤ 512

namespace KeyRotationService

variable (c : FieldCipher) (a : Aead)

/-- `_reencrypt`, with the nonce that it draws. -/
def reencrypt (iv : Bytes) (blob : Blob a.aesgcm) (aad : Aad) :
    Except Err (Option (Blob a.aesgcm)) := do
  if (← blobVersion blob.text) = c.activeVersion then return none
  let plaintext ← c.decryptText a blob.text aad.text
  return some (c.encrypt iv plaintext aad)

/-- A column that may be null: the value that it has afterwards, and whether it was encrypted
again. -/
def rotateColumn (iv : Bytes) (column : Option (Blob a.aesgcm)) (aad : Aad) :
    Except Err (Option (Blob a.aesgcm) × Bool) := do
  match column with
  | none => return (none, false)
  | some blob =>
    match ← reencrypt c a iv blob aad with
    | none => return (some blob, false)
    | some new => return (some new, true)

/-- `_rotate_courier_profiles`, on one profile. -/
def rotateProfile (ivs : Field → Bytes) (userId : Id) (profile : Profile a.aesgcm) :
    Except Err (Profile a.aesgcm × Bool × Bool) := do
  let (national, newNational) ← rotateColumn c a (ivs (.nationalId userId))
    profile.nationalIdEncrypted (profileAad "national_id" userId)
  let (passport, newPassport) ← rotateColumn c a (ivs (.passportId userId))
    profile.passportIdEncrypted (profileAad "passport_id" userId)
  return ({ profile with nationalIdEncrypted := national, passportIdEncrypted := passport },
    newNational, newPassport)

/-- `_rotate_conversation_previews`, on one conversation. -/
def rotatePreview (ivs : Field → Bytes) (id : Id) (conv : Chat.Conversation a.aesgcm) :
    Except Err (Chat.Conversation a.aesgcm × Bool) := do
  let (preview, new) ← rotateColumn c a (ivs (.preview id)) conv.lastMessagePreviewEncrypted
    (Chat.ChatService.previewAad id)
  return ({ conv with lastMessagePreviewEncrypted := preview }, new)

/-- `_rotate_withdrawals`, on one withdrawal. -/
def rotateIban (ivs : Field → Bytes) (id : Id) (wd : Payout a.aesgcm) :
    Except Err (Payout a.aesgcm × Bool) := do
  match ← reencrypt c a (ivs (.iban id)) wd.ibanEncrypted (WithdrawalService.ibanAad id) with
  | none => return (wd, false)
  | some new => return ({ wd with ibanEncrypted := new }, true)

/-- `rotate`, with the nonces that it draws. -/
def rotate (ivs : Field → Bytes) (v : Vault a.aesgcm) :
    Except Err (RotationReport × Vault a.aesgcm) := do
  let (couriers, profiles) ← v.accounts.couriers.traverse (rotateProfile c a ivs)
  let (conversations, previews) ← v.chat.conversations.traverse (rotatePreview c a ivs)
  let (withdrawals, ibans) ← v.withdrawals.traverse (rotateIban c a ivs)
  let v' : Vault a.aesgcm :=
    { accounts := { v.accounts with couriers }
      chat := { v.chat with conversations }
      withdrawals }
  -- the flush
  if !v'.fits then throw .data
  return ({ courierNationalId := profiles.countP (·.1)
            courierPassportId := profiles.countP (·.2)
            conversationPreview := previews.countP (·)
            withdrawalIban := ibans.countP (·) }, v')

end KeyRotationService

/-! ## One field -/

section Field

variable {a : Aead} {keys : ℕ → Option Bytes} {c c' : FieldCipher} {iv : Bytes}
  {b : Blob a.aesgcm} {x : Aad} {t : Text}

/-- A blob that a cipher over a key map wrote of a text for a context. -/
def WrittenAs (keys : ℕ → Option Bytes) (b : Blob a.aesgcm) (x : Aad) (t : Text) : Prop :=
  ∃ (c : FieldCipher) (iv : Bytes), c.keys = keys ∧ iv.length = ivBytes ∧ b = c.encrypt iv t x

/-- What a cipher wrote, it wrote of some text. -/
theorem written_iff : Written keys b x ↔ ∃ t, WrittenAs keys b x t := by
  constructor
  · rintro ⟨c, iv, t, hkeys, hiv, hb⟩
    exact ⟨t, c, iv, hkeys, hiv, hb⟩
  · rintro ⟨t, c, iv, hkeys, hiv, hb⟩
    exact ⟨c, iv, t, hkeys, hiv, hb⟩

/-- What was written reads back under every key map that has the key of its version. -/
theorem WrittenAs.decryptText (h : WrittenAs keys b x t) (hc : c.keys b.version = keys b.version) :
    c.decryptText a b.text x.text = .ok t := by
  obtain ⟨c', iv, hkeys, hiv, rfl⟩ := h
  apply FieldCipher.decryptText_encrypt hiv
  rw [hkeys]
  exact hc

/-- What was written for one context is refused under another, unless the cipher is fooled. -/
theorem WrittenAs.refused_iff {y : Aad} {key : Bytes} (h : WrittenAs keys b x t) (hx : x.Plain)
    (hy : y.Plain) (hne : x ≠ y) (hkey : keys b.version = some key)
    (hc : c.keys b.version = keys b.version) :
    (∃ message, c.decryptText a b.text y.text = .error (.crypto message)) ↔
      ¬a.Fooled key b.iv (encodeUtf8 t) (encodeUtf8 x.text) (encodeUtf8 y.text) := by
  obtain ⟨c', iv, rfl, hiv, rfl⟩ := h
  exact FieldCipher.decryptText_other_iff hiv hx hy hne hkey (hc.trans hkey)

/-- What was written is under a version that has a key. -/
theorem WrittenAs.exists_key (h : WrittenAs keys b x t) : ∃ key, keys b.version = some key := by
  obtain ⟨c, iv, rfl, -, rfl⟩ := h
  exact Option.isSome_iff_exists.mp c.active

/-- A field after the pass: encrypted again, unless it is under the active version. -/
def renewed (c : FieldCipher) (a : Aead) (iv : Bytes) (x : Aad) (b : Blob a.aesgcm) :
    Blob a.aesgcm :=
  if b.version = c.activeVersion then b
  else
    match c.decryptText a b.text x.text with
    | .ok t => c.encrypt iv t x
    | .error _ => b

/-- A field under the active version is left as it is. -/
theorem renewed_of_active (h : b.version = c.activeVersion) : renewed c a iv x b = b := if_pos h

/-- A field under another version is encrypted again, with the text that it holds. -/
theorem WrittenAs.renewed_eq (h : WrittenAs keys b x t) (hc : c.keys = keys)
    (hne : b.version ≠ c.activeVersion) : renewed c a iv x b = c.encrypt iv t x := by
  rw [renewed, if_neg hne, h.decryptText (by rw [hc])]

/-- A field is under the active version after the pass. -/
theorem WrittenAs.version_renewed (h : WrittenAs keys b x t) (hc : c.keys = keys) :
    (renewed c a iv x b).version = c.activeVersion := by
  by_cases hne : b.version = c.activeVersion
  · rw [renewed_of_active hne, hne]
  · rw [h.renewed_eq hc hne]
    rfl

/-- The text of a field is the same after the pass. -/
theorem WrittenAs.keep (h : WrittenAs keys b x t) (hc : c.keys = keys)
    (hiv : iv.length = ivBytes) : WrittenAs keys (renewed c a iv x b) x t := by
  by_cases hne : b.version = c.activeVersion
  · rw [renewed_of_active hne]
    exact h
  · rw [h.renewed_eq hc hne]
    exact ⟨c, iv, hc, hiv, rfl⟩

/-- A field has the same length after the pass. -/
theorem WrittenAs.length_renewed (h : WrittenAs keys b x t) (ha : a.Expands) (hc : c.keys = keys)
    (hiv : iv.length = ivBytes) : (renewed c a iv x b).length = b.length := by
  by_cases hne : b.version = c.activeVersion
  · rw [renewed_of_active hne]
  · rw [h.renewed_eq hc hne]
    obtain ⟨c', iv', -, hiv', rfl⟩ := h
    have hsize : ∀ (c : FieldCipher) (iv : Bytes), iv.length = ivBytes →
        (c.encrypt iv t x : Blob a.aesgcm).length =
          (1 + ivBytes + ((encodeUtf8 t).length + 16) + 2) / 3 * 4 := by
      intro c iv hiv
      rw [← hiv, ← ha _ iv _ (encodeUtf8 x.text)]
      rfl
    rw [hsize c iv hiv, hsize c' iv' hiv']

/-- A field that was written under the key map is not where the pass stops. -/
theorem Written.reencrypt (h : Written keys b x) (hc : c.keys = keys) :
    KeyRotationService.reencrypt c a iv b x =
      .ok (if b.version = c.activeVersion then none else some (renewed c a iv x b)) := by
  obtain ⟨t, ht⟩ := written_iff.mp h
  unfold KeyRotationService.reencrypt
  rw [Blob.blobVersion_text h.wellFormed]
  change (if b.version = c.activeVersion then _ else _ : Except Err _) = _
  split_ifs with hne
  · rfl
  · rw [ht.decryptText (by rw [hc]), ht.renewed_eq hc hne]
    rfl

/-- The same, for a column that may be null. -/
theorem rotateColumn_eq {column : Option (Blob a.aesgcm)} (h : ∀ b ∈ column, Written keys b x)
    (hc : c.keys = keys) : KeyRotationService.rotateColumn c a iv column x =
      .ok (column.map (renewed c a iv x), column.any (·.version ≠ c.activeVersion)) := by
  obtain _ | b := column
  · rfl
  unfold KeyRotationService.rotateColumn
  dsimp only
  rw [(h b rfl).reencrypt hc]
  by_cases hne : b.version = c.activeVersion
  · simp [hne, renewed_of_active hne]
    rfl
  · simp [hne]
    rfl

end Field

/-! ## The whole pass -/

section Pass

variable {a : Aead} {keys : ℕ → Option Bytes}

/-- A profile after the pass. -/
def renewedProfile (c : FieldCipher) (ivs : Field → Bytes) (u : Id) (p : Profile a.aesgcm) :
    Profile a.aesgcm :=
  { p with
    nationalIdEncrypted := p.nationalIdEncrypted.map
      (renewed c a (ivs (.nationalId u)) (profileAad "national_id" u))
    passportIdEncrypted := p.passportIdEncrypted.map
      (renewed c a (ivs (.passportId u)) (profileAad "passport_id" u)) }

/-- A conversation after the pass. -/
def renewedConversation (c : FieldCipher) (ivs : Field → Bytes) (id : Id)
    (conv : Chat.Conversation a.aesgcm) : Chat.Conversation a.aesgcm :=
  { conv with
    lastMessagePreviewEncrypted := conv.lastMessagePreviewEncrypted.map
      (renewed c a (ivs (.preview id)) (Chat.ChatService.previewAad id)) }

/-- A withdrawal after the pass. -/
def renewedPayout (c : FieldCipher) (ivs : Field → Bytes) (id : Id) (wd : Payout a.aesgcm) :
    Payout a.aesgcm :=
  { wd with
    ibanEncrypted := renewed c a (ivs (.iban id)) (WithdrawalService.ibanAad id) wd.ibanEncrypted }

/-- The tables after the pass. -/
def Vault.renewed (c : FieldCipher) (ivs : Field → Bytes) (v : Vault a.aesgcm) :
    Vault a.aesgcm where
  accounts := { v.accounts with couriers := v.accounts.couriers.mapRows (renewedProfile c ivs) }
  chat := { v.chat with
    conversations := v.chat.conversations.mapRows (renewedConversation c ivs) }
  withdrawals := v.withdrawals.mapRows (renewedPayout c ivs)

/-- A column whose value is under another version than the active one. -/
def stale (c : FieldCipher) (column : Option (Blob a.aesgcm)) : Bool :=
  column.any (·.version ≠ c.activeVersion)

/-- How many fields are under another version than the active one. -/
def Vault.stale (c : FieldCipher) (v : Vault a.aesgcm) : RotationReport where
  courierNationalId := v.accounts.couriers.count fun _ p => Secrets.stale c p.nationalIdEncrypted
  courierPassportId := v.accounts.couriers.count fun _ p => Secrets.stale c p.passportIdEncrypted
  conversationPreview :=
    v.chat.conversations.count fun _ conv => Secrets.stale c conv.lastMessagePreviewEncrypted
  withdrawalIban := v.withdrawals.count fun _ wd => Secrets.stale c (some wd.ibanEncrypted)

variable {c : FieldCipher} {ivs : Field → Bytes} {v : Vault a.aesgcm}

/-- The pass renews the documents of a profile whose columns were written. -/
theorem rotateProfile_eq {u : Id} {p : Profile a.aesgcm} (hc : c.keys = keys)
    (hnational : ∀ b ∈ p.nationalIdEncrypted, Written keys b (profileAad "national_id" u))
    (hpassport : ∀ b ∈ p.passportIdEncrypted, Written keys b (profileAad "passport_id" u)) :
    KeyRotationService.rotateProfile c a ivs u p = .ok (renewedProfile c ivs u p,
      stale c p.nationalIdEncrypted, stale c p.passportIdEncrypted) := by
  unfold KeyRotationService.rotateProfile
  rw [rotateColumn_eq hnational hc, rotateColumn_eq hpassport hc]
  rfl

/-- The pass renews the preview of a conversation whose column was written. -/
theorem rotatePreview_eq {id : Id} {conv : Chat.Conversation a.aesgcm} (hc : c.keys = keys)
    (h : ∀ b ∈ conv.lastMessagePreviewEncrypted,
      Written keys b (Chat.ChatService.previewAad id)) :
    KeyRotationService.rotatePreview c a ivs id conv =
      .ok (renewedConversation c ivs id conv, stale c conv.lastMessagePreviewEncrypted) := by
  unfold KeyRotationService.rotatePreview
  rw [rotateColumn_eq h hc]
  rfl

/-- The pass renews the IBAN of a withdrawal whose column was written. -/
theorem rotateIban_eq {id : Id} {wd : Payout a.aesgcm} (hc : c.keys = keys)
    (h : Written keys wd.ibanEncrypted (WithdrawalService.ibanAad id)) :
    KeyRotationService.rotateIban c a ivs id wd =
      .ok (renewedPayout c ivs id wd, stale c (some wd.ibanEncrypted)) := by
  unfold KeyRotationService.rotateIban
  rw [h.reencrypt hc]
  by_cases hne : wd.ibanEncrypted.version = c.activeVersion
  · simp [hne, renewedPayout, renewed_of_active hne, stale]
    rfl
  · simp [hne, renewedPayout, stale]
    rfl

/-- The pass over fields that were written under the key map. -/
theorem rotate_eq (hsealed : v.Sealed keys) (hc : c.keys = keys) :
    KeyRotationService.rotate c a ivs v =
      if (v.renewed c ivs).fits then .ok (v.stale c, v.renewed c ivs) else .error .data := by
  have hrows := Vault.sealed_iff.mp hsealed
  -- Each of the three passes succeeds, since every row was written under the map.
  have hprofiles : v.accounts.couriers.traverse (KeyRotationService.rotateProfile c a ivs) =
      .ok (v.accounts.couriers.mapRows (renewedProfile c ivs), v.accounts.couriers.rows.map
        fun r => (stale c r.2.nationalIdEncrypted, stale c r.2.passportIdEncrypted)) :=
    Table.traverse_eq_ok fun u p hp =>
      rotateProfile_eq hc (hrows.couriers u p hp).1 (hrows.couriers u p hp).2
  have hpreviews : v.chat.conversations.traverse (KeyRotationService.rotatePreview c a ivs) =
      .ok (v.chat.conversations.mapRows (renewedConversation c ivs),
        v.chat.conversations.rows.map fun r => stale c r.2.lastMessagePreviewEncrypted) :=
    Table.traverse_eq_ok fun id conv hconv => rotatePreview_eq hc (hrows.conversations id conv hconv)
  have hibans : v.withdrawals.traverse (KeyRotationService.rotateIban c a ivs) =
      .ok (v.withdrawals.mapRows (renewedPayout c ivs),
        v.withdrawals.rows.map fun r => stale c (some r.2.ibanEncrypted)) :=
    Table.traverse_eq_ok fun id wd hwd => rotateIban_eq hc (hrows.withdrawals id wd hwd)
  unfold KeyRotationService.rotate
  rw [hprofiles, hpreviews, hibans]
  change (if !(v.renewed c ivs).fits then throw Err.data else pure _ :
    Except Err (RotationReport × Vault a.aesgcm)) = _
  -- Only a column that is too short for a new blob can fail the commit.
  cases (v.renewed c ivs).fits with
  | false => rfl
  | true =>
    simp only [List.countP_map]
    rfl

/-- A field that may change. The content of a message may not. -/
def Field.mutable : Field → Bool
  | .content _ => false
  | _ => true

/-- What reads a field: its stored text is decrypted under its context. -/
def Vault.read (c : FieldCipher) (v : Vault a.aesgcm) (f : Field) : Option (Except Err Text) :=
  (v.stored f).bind fun b => (v.aad f).map fun x => c.decryptText a b.text x.text

/-- A profile without its documents. -/
def blankProfile (p : Profile a.aesgcm) : Profile a.aesgcm :=
  { p with nationalIdEncrypted := none, passportIdEncrypted := none }

/-- A conversation without its preview. -/
def blankConversation (conv : Chat.Conversation a.aesgcm) : Chat.Conversation a.aesgcm :=
  { conv with lastMessagePreviewEncrypted := none }

/-- The columns that are not encrypted are the same, and so are the messages. -/
structure Vault.SameRest (v v' : Vault a.aesgcm) : Prop where
  users : v'.accounts.users = v.accounts.users
  wallets : v'.accounts.wallets = v.accounts.wallets
  refreshTokens : v'.accounts.refreshTokens = v.accounts.refreshTokens
  messages : v'.chat.messages = v.chat.messages
  couriers : ∀ u, (v'.accounts.couriers.get? u).map blankProfile =
    (v.accounts.couriers.get? u).map blankProfile
  conversations : ∀ id, (v'.chat.conversations.get? id).map blankConversation =
    (v.chat.conversations.get? id).map blankConversation
  withdrawals : ∀ id, (v'.withdrawals.get? id).map (fun wd => (wd.request, wd.ibanLast4)) =
    (v.withdrawals.get? id).map fun wd => (wd.request, wd.ibanLast4)

/-- The pass changes no other column. -/
theorem Vault.sameRest_renewed (v : Vault a.aesgcm) : v.SameRest (v.renewed c ivs) where
  users := rfl
  wallets := rfl
  refreshTokens := rfl
  messages := rfl
  couriers u := by
    unfold Vault.renewed
    rw [Table.get?_mapRows, Option.map_map]
    rfl
  conversations id := by
    unfold Vault.renewed
    rw [Table.get?_mapRows, Option.map_map]
    rfl
  withdrawals id := by
    unfold Vault.renewed
    rw [Table.get?_mapRows, Option.map_map]
    rfl

/-- A field that may change has one context, and the pass encrypts it again. -/
theorem Vault.stored_renewed {f : Field} (hf : f.mutable = true) : ∃ x,
    (∀ v : Vault a.aesgcm, v.aad f = some x) ∧ ∀ (v : Vault a.aesgcm) (c : FieldCipher)
      (ivs : Field → Bytes),
      (v.renewed c ivs).stored f = (v.stored f).map (Secrets.renewed c a (ivs f) x) := by
  -- A pass over a table renews each of its rows.
  have hcouriers : ∀ (v : Vault a.aesgcm) (c : FieldCipher) (ivs : Field → Bytes) (u : Id),
      (v.renewed c ivs).accounts.couriers.get? u =
        (v.accounts.couriers.get? u).map (renewedProfile c ivs u) :=
    fun v c ivs u => Table.get?_mapRows _ _ _
  have hconversations : ∀ (v : Vault a.aesgcm) (c : FieldCipher) (ivs : Field → Bytes) (id : Id),
      (v.renewed c ivs).chat.conversations.get? id =
        (v.chat.conversations.get? id).map (renewedConversation c ivs id) :=
    fun v c ivs id => Table.get?_mapRows _ _ _
  have hwithdrawals : ∀ (v : Vault a.aesgcm) (c : FieldCipher) (ivs : Field → Bytes) (id : Id),
      (v.renewed c ivs).withdrawals.get? id =
        (v.withdrawals.get? id).map (renewedPayout c ivs id) :=
    fun v c ivs id => Table.get?_mapRows _ _ _
  cases f with
  | nationalId u =>
    refine ⟨_, fun _ => rfl, fun v c ivs => ?_⟩
    simp only [stored, hcouriers]
    cases v.accounts.couriers.get? u <;> rfl
  | passportId u =>
    refine ⟨_, fun _ => rfl, fun v c ivs => ?_⟩
    simp only [stored, hcouriers]
    cases v.accounts.couriers.get? u <;> rfl
  | preview id =>
    refine ⟨_, fun _ => rfl, fun v c ivs => ?_⟩
    simp only [stored, hconversations]
    cases v.chat.conversations.get? id <;> rfl
  | iban id =>
    refine ⟨_, fun _ => rfl, fun v c ivs => ?_⟩
    simp only [stored, hwithdrawals]
    cases v.withdrawals.get? id <;> rfl
  -- A message is written once, so no rotation reaches it.
  | content mid => cases hf

/-- A message is the same after the pass. -/
theorem Vault.content_renewed (v : Vault a.aesgcm) (c : FieldCipher) (ivs : Field → Bytes)
    {f : Field} (hf : f.mutable = false) :
    (v.renewed c ivs).stored f = v.stored f ∧ (v.renewed c ivs).aad f = v.aad f := by
  cases f with
  | content mid => exact ⟨rfl, rfl⟩
  | nationalId | passportId | preview | iban => cases hf

/-- Every field that may change is written, as the same text, after the pass. -/
theorem Vault.Sealed.renewed (hsealed : v.Sealed keys) (hc : c.keys = keys)
    (hivs : ∀ f, (ivs f).length = ivBytes) : (v.renewed c ivs).Sealed keys := by
  intro f b hb
  obtain hf | hf : f.mutable = true ∨ f.mutable = false := by
    cases f.mutable <;> simp
  · obtain ⟨x, hx, hstored⟩ := Vault.stored_renewed (a := a) hf
    rw [hstored, Option.map_eq_some_iff] at hb
    obtain ⟨b₀, hb₀, rfl⟩ := hb
    obtain ⟨y, hy, hwritten⟩ := hsealed f b₀ hb₀
    obtain rfl := Option.some.inj ((hx v).symm.trans hy)
    obtain ⟨t, ht⟩ := written_iff.mp hwritten
    exact ⟨x, hx _, written_iff.mpr ⟨t, ht.keep hc (hivs f)⟩⟩
  · obtain ⟨hstored, haad⟩ := v.content_renewed c ivs hf
    rw [hstored] at hb
    rw [haad]
    exact hsealed f b hb

/-- The columns fit, field by field. -/
theorem Vault.fits_iff {v : Vault a.aesgcm} : v.fits = true ↔
    ∀ f b, f.mutable = true → v.stored f = some b → b.length ≤ 512 := by
  unfold Vault.fits
  simp only [Bool.and_eq_true, List.all_eq_true, Option.all_eq_true, decide_eq_true_eq]
  constructor
  · -- Each field is a column of one of the three tables.
    rintro ⟨⟨hcouriers, hconversations⟩, hwithdrawals⟩ f b hf hb
    cases f with
    | nationalId u =>
      obtain ⟨p, hp, hpb⟩ := Option.bind_eq_some_iff.mp hb
      exact (hcouriers _ (Table.get?_eq_some.mp hp)).1 b hpb
    | passportId u =>
      obtain ⟨p, hp, hpb⟩ := Option.bind_eq_some_iff.mp hb
      exact (hcouriers _ (Table.get?_eq_some.mp hp)).2 b hpb
    | preview id =>
      obtain ⟨conv, hconv, hcb⟩ := Option.bind_eq_some_iff.mp hb
      exact hconversations _ (Table.get?_eq_some.mp hconv) b hcb
    | iban id =>
      obtain ⟨wd, hwd, rfl⟩ := Option.map_eq_some_iff.mp hb
      exact hwithdrawals _ (Table.get?_eq_some.mp hwd)
    | content mid => cases hf
  · intro h
    refine ⟨⟨fun r hr => ⟨fun b hb => ?_, fun b hb => ?_⟩, fun r hr b hb => ?_⟩, fun r hr => ?_⟩
    · exact h (.nationalId r.1) b rfl
        (Option.bind_eq_some_iff.mpr ⟨r.2, Table.get?_eq_some.mpr hr, hb⟩)
    · exact h (.passportId r.1) b rfl
        (Option.bind_eq_some_iff.mpr ⟨r.2, Table.get?_eq_some.mpr hr, hb⟩)
    · exact h (.preview r.1) b rfl
        (Option.bind_eq_some_iff.mpr ⟨r.2, Table.get?_eq_some.mpr hr, hb⟩)
    · exact h (.iban r.1) _ rfl
        (Option.map_eq_some_iff.mpr ⟨r.2, Table.get?_eq_some.mpr hr, rfl⟩)

/-- The columns still fit after the pass. -/
theorem Vault.fits_renewed (ha : a.Expands) (hsealed : v.Sealed keys) (hfits : v.fits = true)
    (hc : c.keys = keys) (hivs : ∀ f, (ivs f).length = ivBytes) :
    (v.renewed c ivs).fits = true := by
  rw [Vault.fits_iff] at hfits ⊢
  intro f b hf hb
  obtain ⟨x, hx, hstored⟩ := Vault.stored_renewed (a := a) hf
  rw [hstored, Option.map_eq_some_iff] at hb
  obtain ⟨b₀, hb₀, rfl⟩ := hb
  obtain ⟨y, hy, hwritten⟩ := hsealed f b₀ hb₀
  obtain rfl := Option.some.inj ((hx v).symm.trans hy)
  obtain ⟨t, ht⟩ := written_iff.mp hwritten
  rw [ht.length_renewed ha hc (hivs f)]
  exact hfits f b₀ hf hb₀

/-- Every field that may change is under the active version. -/
def Vault.Active (c : FieldCipher) (v : Vault a.aesgcm) : Prop :=
  ∀ f b, f.mutable = true → v.stored f = some b → b.version = c.activeVersion

/-- The same, table by table. -/
structure Vault.ActiveRows (c : FieldCipher) (v : Vault a.aesgcm) : Prop where
  nationalId : ∀ u p, v.accounts.couriers.get? u = some p →
    ∀ b ∈ p.nationalIdEncrypted, b.version = c.activeVersion
  passportId : ∀ u p, v.accounts.couriers.get? u = some p →
    ∀ b ∈ p.passportIdEncrypted, b.version = c.activeVersion
  preview : ∀ id conv, v.chat.conversations.get? id = some conv →
    ∀ b ∈ conv.lastMessagePreviewEncrypted, b.version = c.activeVersion
  iban : ∀ id wd, v.withdrawals.get? id = some wd → wd.ibanEncrypted.version = c.activeVersion

/-- Fields under the active version are so table by table. -/
theorem Vault.Active.rows (h : v.Active c) : v.ActiveRows c where
  nationalId u p hp b hb := h (.nationalId u) b rfl (Option.bind_eq_some_iff.mpr ⟨p, hp, hb⟩)
  passportId u p hp b hb := h (.passportId u) b rfl (Option.bind_eq_some_iff.mpr ⟨p, hp, hb⟩)
  preview id conv hconv b hb := h (.preview id) b rfl (Option.bind_eq_some_iff.mpr ⟨conv, hconv, hb⟩)
  iban id wd hwd := h (.iban id) _ rfl (Option.map_eq_some_iff.mpr ⟨wd, hwd, rfl⟩)

/-- A pass over fields that are all under the active version changes nothing. -/
theorem Vault.Active.renewed_eq (h : v.Active c) : v.renewed c ivs = v := by
  have hcolumn : ∀ {column : Option (Blob a.aesgcm)} {iv : Bytes} {x : Aad},
      (∀ b ∈ column, b.version = c.activeVersion) →
      column.map (Secrets.renewed c a iv x) = column := by
    intro column iv x hactive
    obtain _ | b := column
    · rfl
    · exact congrArg some (renewed_of_active (hactive b rfl))
  have hcouriers : v.accounts.couriers.mapRows (renewedProfile c ivs) = v.accounts.couriers := by
    apply Table.mapRows_eq_self
    intro u p hp
    rw [renewedProfile, hcolumn (h.rows.nationalId u p hp), hcolumn (h.rows.passportId u p hp)]
  have hconversations : v.chat.conversations.mapRows (renewedConversation c ivs) =
      v.chat.conversations := by
    apply Table.mapRows_eq_self
    intro id conv hconv
    rw [renewedConversation, hcolumn (h.rows.preview id conv hconv)]
  have hwithdrawals : v.withdrawals.mapRows (renewedPayout c ivs) = v.withdrawals := by
    apply Table.mapRows_eq_self
    intro id wd hwd
    rw [renewedPayout, renewed_of_active (h.rows.iban id wd hwd)]
  rw [Vault.renewed, hcouriers, hconversations, hwithdrawals]

/-- It counts nothing, either. -/
theorem Vault.Active.stale_eq (h : v.Active c) : v.stale c = ⟨0, 0, 0, 0⟩ := by
  have hcolumn : ∀ {column : Option (Blob a.aesgcm)},
      (∀ b ∈ column, b.version = c.activeVersion) → Secrets.stale c column = false := by
    intro column hactive
    obtain _ | b := column
    · rfl
    · simp [Secrets.stale, hactive b rfl]
  have hcount : ∀ {V : Type} {t : Table Id V} {p : Id → V → Bool},
      (∀ k x, t.get? k = some x → p k x = false) → t.count p = 0 := by
    intro V t p hnone
    apply List.countP_eq_zero.mpr
    intro r hr
    rw [hnone r.1 r.2 (Table.get?_eq_some.mpr hr)]
    exact Bool.false_ne_true
  rw [Vault.stale, hcount fun u p hp => hcolumn (h.rows.nationalId u p hp),
    hcount fun u p hp => hcolumn (h.rows.passportId u p hp),
    hcount fun id conv hconv => hcolumn (h.rows.preview id conv hconv), hcount fun id wd hwd =>
      hcolumn fun b hb => Option.some.inj hb ▸ h.rows.iban id wd hwd]

/-- After the pass every field that may change is under the active version. -/
theorem Vault.Sealed.active_renewed (hsealed : v.Sealed keys) (hc : c.keys = keys) :
    (v.renewed c ivs).Active c := by
  intro f b hf hb
  obtain ⟨x, hx, hstored⟩ := Vault.stored_renewed (a := a) hf
  rw [hstored, Option.map_eq_some_iff] at hb
  obtain ⟨b₀, hb₀, rfl⟩ := hb
  obtain ⟨y, hy, hwritten⟩ := hsealed f b₀ hb₀
  obtain rfl := Option.some.inj ((hx v).symm.trans hy)
  obtain ⟨t, ht⟩ := written_iff.mp hwritten
  exact ht.version_renewed hc

/-- Rotation succeeds on fields that were written under the key map. It counts the fields that were
under another version. Afterwards every field that may change is under the active version and reads,
under any key map with that version's key, as it read before; the fields that were under the active
version, the messages and all other columns are the same; and a second pass changes nothing. -/
theorem rotate_preserves (a : Aead) (ha : a.Expands) (keys : ℕ → Option Bytes) (v : Vault a.aesgcm)
    (hsealed : v.Sealed keys) (hfits : v.fits = true) (c : FieldCipher) (hc : c.keys = keys)
    (ivs : Field → Bytes) (hivs : ∀ f, (ivs f).length = ivBytes) :
    ∃ v', KeyRotationService.rotate c a ivs v = .ok (v.stale c, v') ∧ v'.Sealed keys ∧
      (∀ f b, f.mutable = true → v'.stored f = some b → b.version = c.activeVersion) ∧
      (∀ f c', f.mutable = true → c'.keys c.activeVersion = keys c.activeVersion →
        v'.read c' f = v.read c f) ∧
      (∀ f, (f.mutable = true → ∀ b ∈ v.stored f, b.version = c.activeVersion) →
        v'.stored f = v.stored f) ∧
      v.SameRest v' ∧
      ∀ ivs', KeyRotationService.rotate c a ivs' v' = .ok (⟨0, 0, 0, 0⟩, v') := by
  have hactive : (v.renewed c ivs).Active c := hsealed.active_renewed hc
  have hsealed' : (v.renewed c ivs).Sealed keys := hsealed.renewed hc hivs
  have hfits' : (v.renewed c ivs).fits = true := Vault.fits_renewed ha hsealed hfits hc hivs
  refine ⟨v.renewed c ivs, ?_, hsealed', hactive, ?_, ?_, v.sameRest_renewed, ?_⟩
  · rw [rotate_eq hsealed hc, if_pos hfits']
  · intro f c' hf hc'
    obtain ⟨x, hx, hstored⟩ := Vault.stored_renewed (a := a) hf
    unfold Vault.read
    rw [hstored, hx, hx]
    cases hb : v.stored f with
    | none => rfl
    | some b =>
      obtain ⟨y, hy, hwritten⟩ := hsealed f b hb
      obtain rfl := Option.some.inj ((hx v).symm.trans hy)
      obtain ⟨t, ht⟩ := written_iff.mp hwritten
      -- the text that was written is read before and after
      have hbefore : c.decryptText a b.text x.text = .ok t := ht.decryptText (by rw [hc])
      have hafter : c'.decryptText a (Secrets.renewed c a (ivs f) x b).text x.text = .ok t :=
        (ht.keep hc (hivs f)).decryptText (by rw [ht.version_renewed hc, hc'])
      change some (c'.decryptText a _ x.text) = some (c.decryptText a b.text x.text)
      rw [hbefore, hafter]
  · intro f hsame
    obtain hf | hf : f.mutable = true ∨ f.mutable = false := by
      cases f.mutable <;> simp
    · obtain ⟨x, -, hstored⟩ := Vault.stored_renewed (a := a) hf
      rw [hstored]
      cases hb : v.stored f with
      | none => rfl
      | some b => exact congrArg some (renewed_of_active (hsame hf b hb))
    · exact (v.content_renewed c ivs hf).1
  · intro ivs'
    rw [rotate_eq hsealed' hc, hactive.renewed_eq, if_pos hfits', hactive.stale_eq]

end Pass

/-! ## A pass under a part of the keys -/

section Within

variable {a : Aead} {keys : ℕ → Option Bytes} {c : FieldCipher} {ivs : Field → Bytes}
  {v v' : Vault a.aesgcm}

/-- A key map that a cipher can have. -/
def KeyMap (keys : ℕ → Option Bytes) : Prop := ∀ n k, keys n = some k → k.length = 32 ∧ n ≤ 255

/-- The keys of the cipher are a part of a key map. -/
def Within (c : FieldCipher) (keys : ℕ → Option Bytes) : Prop :=
  ∀ n k, c.keys n = some k → keys n = some k

/-- A cipher writes the same under all the keys as under a part of them. -/
theorem Within.writtenAs {iv : Bytes} (hc : Within c keys) (hkeys : KeyMap keys)
    (hiv : iv.length = ivBytes) (t : Text) (x : Aad) :
    WrittenAs keys (c.encrypt iv t x : Blob a.aesgcm) x t := by
  obtain ⟨key, hkey⟩ := Option.isSome_iff_exists.mp c.active
  have hactive : keys c.activeVersion = some key := hc _ _ hkey
  refine ⟨⟨keys, c.activeVersion, hkeys, by rw [hactive]; rfl⟩, iv, rfl, hiv, ?_⟩
  simp only [FieldCipher.encrypt, hkey, hactive, Option.get_some]

/-- A field that was rewritten holds the text that it held. -/
def Keeps (keys : ℕ → Option Bytes) (x : Aad) (b b' : Blob a.aesgcm) : Prop :=
  ∀ t, WrittenAs keys b x t → WrittenAs keys b' x t

/-- What was decrypted under a part of the keys is what was written. -/
theorem WrittenAs.eq_of_decryptText {b : Blob a.aesgcm} {x : Aad} {t t' : Text}
    (h : WrittenAs keys b x t) (hc : Within c keys)
    (hdecrypt : c.decryptText a b.text x.text = .ok t') : t' = t := by
  have hwellFormed : b.WellFormed := (written_iff.mpr ⟨t, h⟩).wellFormed
  cases hkey : c.keys b.version with
  | none =>
    rw [FieldCipher.decryptText_text hwellFormed, hkey] at hdecrypt
    cases hdecrypt
  | some key =>
    rw [h.decryptText (hkey.trans (hc _ _ hkey).symm)] at hdecrypt
    exact (Except.ok.inj hdecrypt).symm

/-- A field that the pass does not stop at holds the text that it held. -/
theorem keeps_of_reencrypt {iv : Bytes} {b : Blob a.aesgcm} {x : Aad}
    {new : Option (Blob a.aesgcm)} (hkeys : KeyMap keys) (hc : Within c keys)
    (hiv : iv.length = ivBytes) (h : KeyRotationService.reencrypt c a iv b x = .ok new) :
    Keeps keys x b (new.getD b) := by
  intro t ht
  obtain ⟨version, -, h⟩ := Store.exists_of_bind_eq_ok h
  split_ifs at h with hversion
  · obtain rfl := Except.ok.inj h
    exact ht
  · obtain ⟨t', hdecrypt, h⟩ := Store.exists_of_bind_eq_ok h
    obtain rfl := Except.ok.inj h
    rw [ht.eq_of_decryptText hc hdecrypt]
    exact hc.writtenAs hkeys hiv t x

/-- A column that was rotated holds the text that it held. -/
theorem keeps_of_rotateColumn {iv : Bytes} {column column' : Option (Blob a.aesgcm)} {x : Aad}
    {changed : Bool} (hkeys : KeyMap keys) (hc : Within c keys) (hiv : iv.length = ivBytes)
    (h : KeyRotationService.rotateColumn c a iv column x = .ok (column', changed)) :
    Option.Rel (Keeps keys x) column column' := by
  obtain _ | b := column
  · obtain ⟨rfl, -⟩ := Prod.mk.inj (Except.ok.inj h)
    exact .none
  · obtain ⟨new, hnew, h⟩ := Store.exists_of_bind_eq_ok h
    have hkeeps := keeps_of_reencrypt hkeys hc hiv hnew
    obtain _ | b' := new
    · obtain ⟨rfl, -⟩ := Prod.mk.inj (Except.ok.inj h)
      exact .some hkeeps
    · obtain ⟨rfl, -⟩ := Prod.mk.inj (Except.ok.inj h)
      exact .some hkeeps

/-- A pass that succeeds: the fields that may change hold the texts that they held, and fit. -/
theorem rotate_ok {report : RotationReport} (hkeys : KeyMap keys) (hc : Within c keys)
    (hivs : ∀ f, (ivs f).length = ivBytes)
    (h : KeyRotationService.rotate c a ivs v = .ok (report, v')) :
    v'.fits = true ∧ v'.chat.messages = v.chat.messages ∧ ∀ f x, f.mutable = true →
      v.aad f = some x → Option.Rel (Keeps keys x) (v.stored f) (v'.stored f) := by
  obtain ⟨⟨couriers, profiles⟩, hcouriers, h⟩ := Store.exists_of_bind_eq_ok h
  obtain ⟨⟨conversations, previews⟩, hconversations, h⟩ := Store.exists_of_bind_eq_ok h
  obtain ⟨⟨withdrawals, ibans⟩, hwithdrawals, h⟩ := Store.exists_of_bind_eq_ok h
  obtain ⟨hfits, h⟩ := Store.check_eq_ok.mp h
  obtain ⟨-, rfl⟩ := Prod.mk.inj (Except.ok.inj h)
  refine ⟨by simpa using hfits, rfl, ?_⟩
  -- A profile has two of the fields, and each is renewed by itself.
  have hprofile : ∀ {u : Id} {p p' : Profile a.aesgcm},
      (∃ w, KeyRotationService.rotateProfile c a ivs u p = .ok (p', w)) →
      Option.Rel (Keeps keys (profileAad "national_id" u)) p.nationalIdEncrypted
        p'.nationalIdEncrypted ∧
      Option.Rel (Keeps keys (profileAad "passport_id" u)) p.passportIdEncrypted
        p'.passportIdEncrypted := by
    rintro u p p' ⟨w, hrow⟩
    obtain ⟨⟨national, _⟩, hnational, hrow⟩ := Store.exists_of_bind_eq_ok hrow
    obtain ⟨⟨passport, _⟩, hpassport, hrow⟩ := Store.exists_of_bind_eq_ok hrow
    obtain ⟨rfl, -⟩ := Prod.mk.inj (Except.ok.inj hrow)
    exact ⟨keeps_of_rotateColumn hkeys hc (hivs _) hnational,
      keeps_of_rotateColumn hkeys hc (hivs _) hpassport⟩
  intro f x hf hx
  cases f with
  | nationalId u =>
    obtain rfl := Option.some.inj hx
    exact Store.rel_bind (Table.traverse_ok hcouriers u) fun p p' hrow => (hprofile hrow).1
  | passportId u =>
    obtain rfl := Option.some.inj hx
    exact Store.rel_bind (Table.traverse_ok hcouriers u) fun p p' hrow => (hprofile hrow).2
  | preview id =>
    obtain rfl := Option.some.inj hx
    apply Store.rel_bind (Table.traverse_ok hconversations id)
    rintro conv conv' ⟨w, hrow⟩
    obtain ⟨⟨preview, _⟩, hpreview, hrow⟩ := Store.exists_of_bind_eq_ok hrow
    obtain ⟨rfl, -⟩ := Prod.mk.inj (Except.ok.inj hrow)
    exact keeps_of_rotateColumn hkeys hc (hivs _) hpreview
  | iban id =>
    obtain rfl := Option.some.inj hx
    -- The `iban` column is not nullable: a row keeps it where nothing was written.
    apply Store.rel_map (Table.traverse_ok hwithdrawals id)
    rintro wd wd' ⟨w, hrow⟩
    obtain ⟨new, hnew, hrow⟩ := Store.exists_of_bind_eq_ok hrow
    have hkeeps := keeps_of_reencrypt hkeys hc (hivs _) hnew
    obtain _ | b := new
    · obtain ⟨rfl, -⟩ := Prod.mk.inj (Except.ok.inj hrow)
      exact hkeeps
    · obtain ⟨rfl, -⟩ := Prod.mk.inj (Except.ok.inj hrow)
      exact hkeeps
  | content mid => cases hf

end Within

namespace Sample

open Chat.ChatService.Sample (tagging tagging_expands)

/-- A key map of two versions. -/
def keyMap : ℕ → Option Bytes
  | 1 => some (List.replicate 32 1)
  | 2 => some (List.replicate 32 2)
  | _ => none

/-- The cipher of the key map with an active version. -/
def cipherAt (n : ℕ) (h : (keyMap n).isSome) : FieldCipher where
  keys := keyMap
  activeVersion := n
  keySize v k hk := by
    unfold keyMap at hk
    split at hk
    · exact ⟨Option.some.inj hk ▸ List.length_replicate, by omega⟩
    · exact ⟨Option.some.inj hk ▸ List.length_replicate, by omega⟩
    · cases hk
  active := h

/-- The first version has a key. -/
theorem keyMap_one : (keyMap 1).isSome = true := rfl

/-- A nonce. -/
def nonce : Bytes := List.replicate ivBytes 0

/-- A courier whose passport was stored under the first version. -/
def oldProfile : Profile tagging.aesgcm where
  cityOfResidence := ['R']
  bio := none
  nationalIdEncrypted := none
  passportIdEncrypted :=
    some ((cipherAt 1 keyMap_one).encrypt nonce ['A', '1'] (profileAad "passport_id" 7))
  identityFingerprint := none
  isVerified := false
  verifiedAt := none
  verifiedByAdminId := none

/-- The courier alone. -/
def oldVault : Vault tagging.aesgcm where
  accounts := ⟨.empty, .empty, Table.empty.insert 7 oldProfile, .empty⟩
  chat := ⟨.empty, .empty⟩
  withdrawals := .empty

/-- The courier's passport was written under the first version. -/
theorem sealed_oldVault : oldVault.Sealed keyMap := by
  rw [Vault.sealed_iff]
  constructor
  · intro u p hp
    have hempty : (Table.empty : Table Id (Profile tagging.aesgcm)).get? 7 = none := rfl
    -- The vault has one courier.
    have hu : u = 7 := by
      by_contra hne
      have hnone : oldVault.accounts.couriers.get? u = none := Table.get?_insert_ne _ _ hne
      rw [hnone] at hp
      cases hp
    subst hu
    have hrow := Table.get?_insert_self Table.empty oldProfile hempty
    obtain rfl := Option.some.inj (hrow.symm.trans hp)
    refine ⟨fun b hb => absurd hb (Option.not_mem_none b), fun b hb => ?_⟩
    obtain rfl := Option.some.inj hb
    exact ⟨cipherAt 1 rfl, nonce, ['A', '1'], rfl, List.length_replicate, rfl⟩
  · intro id conv hconv
    cases hconv
  · intro id wd hwd
    cases hwd
  · intro mid m hm
    cases hm

end Sample

/-- The passport of a courier moves to the second version. -/
theorem rotate_preserves_passport : ∃ v', KeyRotationService.rotate (Sample.cipherAt 2 rfl)
    Chat.ChatService.Sample.tagging (fun _ => Sample.nonce) Sample.oldVault =
      .ok (⟨0, 1, 0, 0⟩, v') ∧
    v'.read (Sample.cipherAt 2 rfl) (.passportId 7) = some (.ok ['A', '1']) := by
  obtain ⟨v', hrotate, -, -, hread, -⟩ := rotate_preserves Chat.ChatService.Sample.tagging
    Chat.ChatService.Sample.tagging_expands Sample.keyMap Sample.oldVault Sample.sealed_oldVault
    (by decide +kernel) (Sample.cipherAt 2 rfl) rfl (fun _ => Sample.nonce)
    fun _ => List.length_replicate
  refine ⟨v', hrotate, ?_⟩
  rw [hread (.passportId 7) _ rfl rfl]
  decide +kernel

end Secrets

end Giftly
