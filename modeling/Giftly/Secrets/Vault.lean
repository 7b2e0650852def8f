import Giftly.Accounts.Identity
import Giftly.Chat.Service
import Giftly.Core.Envelope

/-!
# The encrypted columns

The five columns that hold ciphertexts, in four tables, and the context that their writers and
readers build for each. A courier profile and a withdrawal are bound to their own ids, and so is the
preview of a conversation. The content of a message is bound to the conversation that it is in.
-/

namespace Giftly

open Store (Table)

namespace WithdrawalService

/-- The context of an IBAN. -/
def ibanAad (withdrawalId : Id) : Aad := ⟨"withdrawals", "iban", withdrawalId⟩

end WithdrawalService

namespace Secrets

/-- A row of `withdrawals`: the request, and the account that it pays. -/
structure Payout (aes : Aesgcm) where
  request : Withdrawal
  ibanEncrypted : Blob aes
  ibanLast4 : Text

/-- The tables with encrypted columns, among the others of the accounts and of the chat. -/
structure Vault (aes : Aesgcm) where
  accounts : Accounts aes
  chat : Chat.ChatDb aes
  withdrawals : Table Id (Payout aes)

/-- An encrypted column of a row. -/
inductive Field
  | nationalId (userId : Id)
  | passportId (userId : Id)
  | preview (conversationId : Id)
  | iban (withdrawalId : Id)
  | content (messageId : Id)
  deriving DecidableEq

namespace Vault

variable {aes : Aesgcm}

/-- What a field holds. -/
def stored (v : Vault aes) : Field → Option (Blob aes)
  | .nationalId u => (v.accounts.couriers.get? u).bind (·.nationalIdEncrypted)
  | .passportId u => (v.accounts.couriers.get? u).bind (·.passportIdEncrypted)
  | .preview id => (v.chat.conversations.get? id).bind (·.lastMessagePreviewEncrypted)
  | .iban w => (v.withdrawals.get? w).map (·.ibanEncrypted)
  | .content mid => (v.chat.messages.get? mid).map (·.contentEncrypted)

/-- The context of a field. -/
def aad (v : Vault aes) : Field → Option Aad
  | .nationalId u => some (profileAad "national_id" u)
  | .passportId u => some (profileAad "passport_id" u)
  | .preview id => some (Chat.ChatService.previewAad id)
  | .iban w => some (WithdrawalService.ibanAad w)
  | .content mid =>
    (v.chat.messages.get? mid).map fun m => Chat.ChatService.contentAad m.conversationId

/-- Every context is built of names without a colon. -/
theorem plain_aad {v : Vault aes} {f : Field} {x : Aad} (h : v.aad f = some x) : x.Plain := by
  have hplain : ∀ id : Id, (profileAad "national_id" id).Plain ∧
      (profileAad "passport_id" id).Plain ∧ (Chat.ChatService.previewAad id).Plain ∧
      (WithdrawalService.ibanAad id).Plain ∧ (Chat.ChatService.contentAad id).Plain := by
    intro id
    simp only [Aad.Plain, profileAad, Chat.ChatService.previewAad, WithdrawalService.ibanAad,
      Chat.ChatService.contentAad]
    decide
  cases f with
  | nationalId u => exact Option.some.inj h ▸ (hplain u).1
  | passportId u => exact Option.some.inj h ▸ (hplain u).2.1
  | preview id => exact Option.some.inj h ▸ (hplain id).2.2.1
  | iban w => exact Option.some.inj h ▸ (hplain w).2.2.2.1
  | content mid =>
    obtain ⟨m, -, rfl⟩ := Option.map_eq_some_iff.mp h
    exact (hplain m.conversationId).2.2.2.2

end Vault

variable {a : Aead}

/-- A blob that a cipher over a key map wrote for a context. -/
def Written (keys : ℕ → Option Bytes) (b : Blob a.aesgcm) (x : Aad) : Prop :=
  ∃ (c : FieldCipher) (iv : Bytes) (plaintext : Text),
    c.keys = keys ∧ iv.length = ivBytes ∧ b = c.encrypt iv plaintext x

/-- Every field holds what was written for its own context. -/
def Vault.Sealed (keys : ℕ → Option Bytes) (v : Vault a.aesgcm) : Prop :=
  ∀ f b, v.stored f = some b → ∃ x, v.aad f = some x ∧ Written keys b x

/-- The same, table by table. -/
structure Vault.SealedRows (keys : ℕ → Option Bytes) (v : Vault a.aesgcm) : Prop where
  couriers : ∀ u p, v.accounts.couriers.get? u = some p →
    (∀ b ∈ p.nationalIdEncrypted, Written keys b (profileAad "national_id" u)) ∧
      ∀ b ∈ p.passportIdEncrypted, Written keys b (profileAad "passport_id" u)
  conversations : ∀ id c, v.chat.conversations.get? id = some c →
    ∀ b ∈ c.lastMessagePreviewEncrypted, Written keys b (Chat.ChatService.previewAad id)
  withdrawals : ∀ w p, v.withdrawals.get? w = some p →
    Written keys p.ibanEncrypted (WithdrawalService.ibanAad w)
  messages : ∀ mid m, v.chat.messages.get? mid = some m →
    Written keys m.contentEncrypted (Chat.ChatService.contentAad m.conversationId)

/-- The tables are sealed field by field when they are so row by row. -/
theorem Vault.sealed_iff {keys : ℕ → Option Bytes} {v : Vault a.aesgcm} :
    v.Sealed keys ↔ v.SealedRows keys := by
  constructor
  · intro h
    -- A field has one context, so the written text is under the column's own.
    have hof : ∀ {f b x}, v.aad f = some x → v.stored f = some b → Written keys b x := by
      intro f b x hx hb
      obtain ⟨y, hy, hwritten⟩ := h f b hb
      exact Option.some.inj (hx.symm.trans hy) ▸ hwritten
    constructor
    · intro u p hp
      constructor
      · intro b hb
        exact hof (f := .nationalId u) rfl (Option.bind_eq_some_iff.mpr ⟨p, hp, hb⟩)
      · intro b hb
        exact hof (f := .passportId u) rfl (Option.bind_eq_some_iff.mpr ⟨p, hp, hb⟩)
    · intro id c hc b hb
      exact hof (f := .preview id) rfl (Option.bind_eq_some_iff.mpr ⟨c, hc, hb⟩)
    · intro w p hp
      exact hof (f := .iban w) rfl (Option.map_eq_some_iff.mpr ⟨p, hp, rfl⟩)
    · intro mid m hm
      exact hof (f := .content mid) (Option.map_eq_some_iff.mpr ⟨m, hm, rfl⟩)
        (Option.map_eq_some_iff.mpr ⟨m, hm, rfl⟩)
  · -- A stored field is in a row of one table.
    intro h f b hb
    cases f with
    | nationalId u =>
      obtain ⟨p, hp, hpb⟩ := Option.bind_eq_some_iff.mp hb
      exact ⟨_, rfl, (h.couriers u p hp).1 b hpb⟩
    | passportId u =>
      obtain ⟨p, hp, hpb⟩ := Option.bind_eq_some_iff.mp hb
      exact ⟨_, rfl, (h.couriers u p hp).2 b hpb⟩
    | preview id =>
      obtain ⟨c, hc, hcb⟩ := Option.bind_eq_some_iff.mp hb
      exact ⟨_, rfl, h.conversations id c hc b hcb⟩
    | iban w =>
      obtain ⟨p, hp, rfl⟩ := Option.map_eq_some_iff.mp hb
      exact ⟨_, rfl, h.withdrawals w p hp⟩
    | content mid =>
      obtain ⟨m, hm, rfl⟩ := Option.map_eq_some_iff.mp hb
      exact ⟨_, Option.map_eq_some_iff.mpr ⟨m, hm, rfl⟩, h.messages mid m hm⟩

namespace Written

variable {keys : ℕ → Option Bytes} {b : Blob a.aesgcm} {x y : Aad}

/-- What a cipher wrote is well formed. -/
theorem wellFormed (h : Written keys b x) : b.WellFormed := by
  obtain ⟨c, iv, t, -, hiv, rfl⟩ := h
  exact FieldCipher.wellFormed_encrypt hiv

/-- What was written reads back, under every key map that has the key of its version. -/
theorem decryptText (h : Written keys b x) : ∃ t, ∀ c : FieldCipher,
    c.keys b.version = keys b.version → c.decryptText a b.text x.text = .ok t := by
  obtain ⟨c, iv, t, hkeys, hiv, rfl⟩ := h
  refine ⟨t, fun c' hc' => FieldCipher.decryptText_encrypt hiv ?_⟩
  rw [hkeys]
  exact hc'

end Written

end Secrets

end Giftly
