import Giftly.Accounts.Identity
import Giftly.Chat.Service
import Giftly.Core.Envelope

/-!
# The preview of a conversation

What `send_message` needs to store a message. The schema bounds a text by its characters, and so does
the cut of the preview, but the column is bounded by the characters of the base64 text of UTF-8 bytes.
The blob adds 29 bytes to the text: its version, the nonce and the tag. Base64 fits 384 bytes into 512
characters, which leaves 355 bytes for the first 100 characters, and 100 characters are up to 400.
-/

namespace Giftly.Chat

open Store (Prog)

/-- `SendMessageRequest`. -/
structure SendMessageRequest where
  text : Text
  min_length : 1 ≤ text.length
  max_length : text.length ≤ 4000

namespace ChatService

variable {a : Aead} {cipher : FieldCipher} {d : ChatDb a.aesgcm} {draws : Draws} {now : Time}
  {conversationId senderId : Id} {iv : Bytes} {text : Text}

/-- The text that `send_message` writes to `last_message_preview_encrypted`. -/
def previewText (cipher : FieldCipher) (a : Aead) (iv : Bytes) (conversationId : Id) (text : Text) :
    Text :=
  cipher.encryptText a iv (text.take previewChars) (previewAad conversationId).text

/-- The bytes of the part of a text that is its preview. -/
def previewSize (text : Text) : ℕ := (encodeUtf8 (text.take previewChars)).length

/-- The length of a stored preview, by the bytes of its text. -/
theorem length_encryptPreview (ha : a.Expands) (hiv : iv.length = ivBytes) :
    (encryptPreview cipher iv conversationId text : Blob a.aesgcm).length =
      (29 + previewSize text + 2) / 3 * 4 := by
  have hsize : a.aesgcm.size (encryptPreview cipher iv conversationId text : Blob a.aesgcm).ciphertext =
      previewSize text + 16 := ha _ _ _ _
  have hnonce : (encryptPreview cipher iv conversationId text : Blob a.aesgcm).iv.length = 12 := hiv
  rw [Blob.length, hsize, hnonce]
  omega

/-- The text in the column is as long as its blob says. -/
theorem length_previewText : (previewText cipher a iv conversationId text).length =
    (encryptPreview cipher iv conversationId text : Blob a.aesgcm).length := by
  rw [previewText, FieldCipher.encryptText_eq, Blob.length_text]
  rfl

/-- A preview fits its column exactly when its text has at most 355 bytes. -/
theorem length_previewText_le (ha : a.Expands) (hiv : iv.length = ivBytes) :
    (previewText cipher a iv conversationId text).length ≤ 512 ↔ previewSize text ≤ 355 := by
  rw [length_previewText, length_encryptPreview ha hiv]
  omega

/-- The state of a conversation in which nothing but the preview can hinder a message: the sender
takes part, its id is new, and the counters have room. -/
structure Ready (d : ChatDb a.aesgcm) (messageId conversationId senderId : Id)
    (c : Conversation a.aesgcm) : Prop where
  row : d.conversations.get? conversationId = some c
  member : c.customerId = senderId ∨ c.courierId = senderId
  fresh : d.messages.get? messageId = none
  customerRoom : c.customerUnreadCount + 1 < 2 ^ 31
  courierRoom : c.courierUnreadCount + 1 < 2 ^ 31

/-- The preview of an updated conversation is the one that was written. -/
theorem check_sent (c : Conversation a.aesgcm) (b : Bool) (preview : Blob a.aesgcm) (t : Time)
    (hcustomer : c.customerUnreadCount + 1 < 2 ^ 31) (hcourier : c.courierUnreadCount + 1 < 2 ^ 31) :
    ({ c.assignUnread (c.withUnread b (c.unreadCount b + 1)) c with
        lastMessagePreviewEncrypted := some preview, lastMessageTimestamp := t } :
      Conversation a.aesgcm).check = if preview.length ≤ 512 then none else some .data := by
  have hcustomer' : c.customerUnreadCount < 2147483648 := by omega
  have hcourier' : c.courierUnreadCount < 2147483648 := by omega
  norm_num at hcustomer hcourier
  cases b with
  | true =>
    simp [Conversation.check, Conversation.assignUnread, Conversation.withUnread,
      Conversation.unreadCount, hcustomer, hcourier']
  | false =>
    simp [Conversation.check, Conversation.assignUnread, Conversation.withUnread,
      Conversation.unreadCount, hcustomer', hcourier]

/-- What becomes of a message whose preview alone can hinder it. -/
theorem sendMessage_outcome (cipher : FieldCipher) (now : Time) (text : Text) (ha : a.Expands)
    (hiv : draws.previewIv.length = ivBytes)
    {c : Conversation a.aesgcm} (h : Ready d draws.messageId conversationId senderId c) :
    if previewSize text ≤ 355 then
      ∃ r, (sendMessage cipher now draws conversationId senderId text).run none d = .ok r
    else (sendMessage cipher now draws conversationId senderId text).run none d = .error .data := by
  have hfound : (d.conversations.get? conversationId).filter
      (fun c => c.customerId = senderId || c.courierId = senderId) = some c := by
    rw [h.row, Option.filter_some, if_pos (by simpa using h.member)]
  have hlength : (encryptPreview cipher draws.previewIv conversationId text : Blob a.aesgcm).length ≤
      512 ↔ previewSize text ≤ 355 := by
    rw [← length_previewText]
    exact length_previewText_le ha hiv
  have hexists : (d.conversations.get? conversationId).isNone = false := by rw [h.row]; rfl
  -- The run itself, up to the check of the conversation's row.
  unfold sendMessage requireConversation ChatRepository.getForActor
  simp only [Prog.select_bind, Prog.orm_bind, Prog.ret_bind, Prog.run, hfound]
  unfold ChatRepository.addMessage ChatRepository.flushConversation
  simp only [Prog.flush, Prog.pure_eq, Prog.ret_bind, Prog.write_bind, Prog.raise_bind, Prog.run,
    h.fresh, Option.isSome_none, Bool.false_eq_true, if_false, hexists]
  have hrow : ∀ m, (ChatDb.insertMessage draws.messageId m d).conversations.get? conversationId =
      some c := fun _ => h.row
  have hcheck := check_sent c (!decide (senderId = c.customerId))
    (encryptPreview cipher draws.previewIv conversationId text)
    (assign c.lastMessageTimestamp now c.lastMessageTimestamp) h.customerRoom h.courierRoom
  simp only [hrow, hcheck, hlength]
  split_ifs
  · exact ⟨_, rfl⟩
  · rfl

/-- Every message of a text can be stored: its preview fits the column, and no message that nothing
else hinders is refused. -/
structure Storable (cipher : FieldCipher) (a : Aead) (text : Text) : Prop where
  fits : ∀ iv conversationId, iv.length = ivBytes →
    (previewText cipher a iv conversationId text).length ≤ 512
  sent : ∀ (now : Time) (draws : Draws) (conversationId senderId : Id) (d : ChatDb a.aesgcm)
    (c : Conversation a.aesgcm), draws.previewIv.length = ivBytes →
    Ready d draws.messageId conversationId senderId c →
    ∃ r, (sendMessage cipher now draws conversationId senderId text).run none d = .ok r

/-- An accepted message can be stored exactly when its first 100 characters take at most 355 bytes. -/
theorem storable_iff (a : Aead) (ha : a.Expands) (cipher : FieldCipher)
    (request : SendMessageRequest) :
    Storable cipher a request.text ↔ previewSize request.text ≤ 355 := by
  constructor
  · intro h
    exact (length_previewText_le ha List.length_replicate).mp
      (h.fits (List.replicate ivBytes 0) 0 List.length_replicate)
  · intro h
    refine ⟨fun iv conversationId hiv => (length_previewText_le ha hiv).mpr h, ?_⟩
    intro now draws conversationId senderId d c hiv hready
    have hsent := sendMessage_outcome cipher now request.text ha hiv hready
    rw [if_pos h] at hsent
    exact hsent

namespace Sample

/-- A cipher that leaves the data as they are and adds a tag of zeros. -/
def tagging : Aead where
  encrypt _ _ data _ := data ++ List.replicate 16 0
  decrypt _ _ data _ := some (data.take (data.length - 16))
  decrypt_encrypt _ _ data _ := by
    rw [List.length_append, List.length_replicate, Nat.add_sub_cancel, List.take_left']
    rfl
  tag_le _ _ data _ := by
    rw [List.length_append, List.length_replicate]
    omega

/-- The sample cipher adds the sixteen bytes of a tag. -/
theorem tagging_expands : tagging.Expands := fun _ _ data _ => by
  rw [tagging, List.length_append, List.length_replicate]

/-- A greeting. -/
def greeting : SendMessageRequest := ⟨['h', 'i'], by decide, by decide⟩

/-- A hundred times a face. -/
def faces : SendMessageRequest where
  text := List.replicate 100 '😀'
  min_length := by rw [List.length_replicate]; omega
  max_length := by rw [List.length_replicate]; omega

end Sample

/-- A greeting can be stored. -/
theorem storable_iff_greeting : Sample.tagging.Expands ∧
    Storable Giftly.Sample.cipher Sample.tagging Sample.greeting.text :=
  ⟨Sample.tagging_expands,
    (storable_iff Sample.tagging Sample.tagging_expands Giftly.Sample.cipher Sample.greeting).mpr
      (by decide +kernel)⟩

/-- A message of a hundred faces cannot be stored: its preview has 572 characters. -/
theorem faces_not_storable :
    ¬Storable Giftly.Sample.cipher Sample.tagging Sample.faces.text ∧
      (previewText Giftly.Sample.cipher Sample.tagging (List.replicate ivBytes 0) 501
        Sample.faces.text).length = 572 := by
  have hlength : (previewText Giftly.Sample.cipher Sample.tagging (List.replicate ivBytes 0) 501
      Sample.faces.text).length = 572 := by
    have hsize : previewSize Sample.faces.text = 400 := by decide +kernel
    rw [length_previewText, length_encryptPreview Sample.tagging_expands List.length_replicate, hsize]
  refine ⟨fun h => ?_, hlength⟩
  have hfits := h.fits (List.replicate ivBytes 0) 501 List.length_replicate
  omega

end ChatService

end Giftly.Chat
