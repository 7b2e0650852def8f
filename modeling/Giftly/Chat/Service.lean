import Giftly.Core.Crypto
import Giftly.Schema

/-!
# Chat

`repositories/chat_repository.py` and `services/chat_service.py`: the two functions that write. A
message is encrypted twice, as its content and as the preview of its conversation, and the unread
counters of the conversation are columns that the session reads, changes and writes back.

The inbox, the list of messages and the publication to Redis write nothing and are left out. The
transaction's start is the `created_at` of its message; the ids and the nonces that are drawn are
arguments.
-/

namespace Giftly.Chat

open Store (Prog Table)

/-- `MessageType`. -/
inductive MessageType
  | text
  | image
  | video
  | system
  deriving DecidableEq, Repr

/-- A row of `conversations`. -/
structure Conversation (aes : Aesgcm) where
  customerId : Id
  courierId : Id
  lastMessagePreviewEncrypted : Option (Blob aes)
  lastMessageTimestamp : Time
  customerUnreadCount : ℤ
  courierUnreadCount : ℤ

/-- A row of `messages`. -/
structure Message (aes : Aesgcm) where
  conversationId : Id
  senderId : Id
  messageType : MessageType
  contentEncrypted : Blob aes
  isRead : Bool
  readAt : Option Time
  createdAt : Time

/-- The tables of the chat. -/
structure ChatDb (aes : Aesgcm) where
  conversations : Table Id (Conversation aes)
  messages : Table Id (Message aes)

/-- The rows that a transaction locks. A new message locks its key; its foreign key does not hinder
an `UPDATE` of the conversation. -/
inductive ChatRow
  | conversation (id : Id)
  | message (id : Id)
  deriving DecidableEq

/-- A transaction of the chat; the session remembers the conversation that it has loaded. -/
abbrev ChatTx (aes : Aesgcm) := Prog (ChatDb aes) ChatRow Err (Option (Conversation aes))

variable {aes : Aesgcm}

/-- The counter of the messages that a participant has not read. -/
def Conversation.unreadCount (c : Conversation aes) (readerIsCustomer : Bool) : ℤ :=
  if readerIsCustomer then c.customerUnreadCount else c.courierUnreadCount

/-- The participant who writes what the reader reads. -/
def Conversation.otherId (c : Conversation aes) (readerIsCustomer : Bool) : Id :=
  if readerIsCustomer then c.courierId else c.customerId

/-- A conversation row after an `UPDATE` of the counters that the session changed. -/
def Conversation.assignUnread (loaded assigned row : Conversation aes) : Conversation aes :=
  { row with
    customerUnreadCount := Giftly.assign loaded.customerUnreadCount assigned.customerUnreadCount
      row.customerUnreadCount
    courierUnreadCount := Giftly.assign loaded.courierUnreadCount assigned.courierUnreadCount
      row.courierUnreadCount }

/-- The instance with another counter. -/
def Conversation.withUnread (c : Conversation aes) (readerIsCustomer : Bool) (n : ℤ) :
    Conversation aes :=
  if readerIsCustomer then { c with customerUnreadCount := n } else { c with courierUnreadCount := n }

/-- The types of the columns: the preview is a `VARCHAR(512)`, the counters are integers. -/
def Conversation.check (c : Conversation aes) : Option Err :=
  if c.lastMessagePreviewEncrypted.all (fun b => b.length ≤ 512) &&
      c.customerUnreadCount < 2 ^ 31 && c.courierUnreadCount < 2 ^ 31 then none
  else some .data

namespace ChatDb

def insertMessage (id : Id) (m : Message aes) (d : ChatDb aes) : ChatDb aes :=
  { d with messages := d.messages.insert id m }

def updateConversation (id : Id) (f : Conversation aes → Conversation aes) (d : ChatDb aes) :
    ChatDb aes :=
  { d with conversations := d.conversations.update id f }

/-- A message that the reader of a conversation has not read. -/
def unreadBy (conversationId otherId : Id) (m : Message aes) : Bool :=
  m.conversationId = conversationId && m.senderId = otherId && !m.isRead

/-- The rows that were found, when they still meet the condition of the `UPDATE`, become read. -/
def readMessages (ids : List Id) (conversationId otherId : Id) (readAt : Time) (d : ChatDb aes) :
    ChatDb aes :=
  { d with
    messages := d.messages.mapRows fun id m =>
      if id ∈ ids ∧ unreadBy conversationId otherId m = true then
        { m with isRead := true, readAt := some readAt }
      else m }

end ChatDb

namespace ChatRepository

/-- `get_for_actor`. -/
def getForActor (conversationId actorId : Id) : ChatTx aes (Option (Conversation aes)) :=
  .select fun d =>
    let conversation := (d.conversations.get? conversationId).filter fun c =>
      c.customerId = actorId || c.courierId = actorId
    .orm (fun _ => conversation) fun _ => .ret conversation

/-- The flush of a conversation. -/
def flushConversation (id : Id) (f : Conversation aes → Conversation aes) : ChatTx aes Unit :=
  .flush [.conversation id] (ChatDb.updateConversation id f) fun d =>
    match d.conversations.get? id with
    | none => some .staleData
    | some c => (f c).check

/-- `add_message`: the message is inserted first, then the conversation is written. The preview is a
fresh ciphertext, so the `UPDATE` always writes it; the timestamp and the counter are written when
they differ from the loaded ones. -/
def addMessage (now : Time) (messageId conversationId : Id) (conversation : Conversation aes)
    (senderId : Id) (contentEncrypted previewEncrypted : Blob aes) (senderIsCustomer : Bool) :
    ChatTx aes (Message aes) := do
  let message : Message aes :=
    { conversationId, senderId, messageType := .text, contentEncrypted, isRead := false
      readAt := none, createdAt := now }
  Prog.flush [.message messageId] (ChatDb.insertMessage messageId message) fun d =>
    if (d.messages.get? messageId).isSome then some (.integrity .primaryKey)
    else if (d.conversations.get? conversationId).isNone then some (.integrity .foreignKey)
    else none
  flushConversation conversationId fun row =>
    { conversation.assignUnread
        (conversation.withUnread (!senderIsCustomer)
          (conversation.unreadCount (!senderIsCustomer) + 1)) row with
      lastMessagePreviewEncrypted := some previewEncrypted
      lastMessageTimestamp := Giftly.assign conversation.lastMessageTimestamp message.createdAt
        row.lastMessageTimestamp }
  return message

/-- `mark_read`: the counter is flushed before the `UPDATE` of the messages, unless it was zero. The
`UPDATE` finds its rows in one snapshot and then waits for their locks. -/
def markRead (now : Time) (conversationId : Id) (conversation : Conversation aes)
    (readerIsCustomer : Bool) : ChatTx aes Unit := do
  let otherId := conversation.otherId readerIsCustomer
  Prog.when (flushConversation conversationId
      (conversation.assignUnread (conversation.withUnread readerIsCustomer 0)))
    (conversation.unreadCount readerIsCustomer ≠ 0)
  let ids ← Prog.query fun d : ChatDb aes =>
    (d.messages.rows.filter fun r => ChatDb.unreadBy conversationId otherId r.2).map Prod.fst
  Prog.flush (ids.map .message) (ChatDb.readMessages ids conversationId otherId now) fun _ => none

end ChatRepository

namespace ChatService

/-- `_PREVIEW_CHARS`. -/
def previewChars : ℕ := 100

/-- `ChatMessage`. -/
structure ChatMessage where
  id : Id
  conversationId : Id
  senderId : Id
  messageType : MessageType
  content : Text
  isRead : Bool
  createdAt : Time

/-- The context of a content. -/
def contentAad (conversationId : Id) : Aad := ⟨"messages", "content", conversationId⟩

/-- The context of a preview. -/
def previewAad (conversationId : Id) : Aad :=
  ⟨"conversations", "last_message_preview", conversationId⟩

/-- `_encrypt_content`. -/
def encryptContent (cipher : FieldCipher) (iv : Bytes) (conversationId : Id) (text : Text) :
    Blob aes := cipher.encrypt iv text (contentAad conversationId)

/-- `_decrypt_content`. -/
def decryptContent (cipher : FieldCipher) (conversationId : Id) (blob : Blob aes) : Option Text :=
  cipher.decrypt blob (contentAad conversationId)

/-- `_encrypt_preview`. -/
def encryptPreview (cipher : FieldCipher) (iv : Bytes) (conversationId : Id) (text : Text) :
    Blob aes := cipher.encrypt iv (text.take previewChars) (previewAad conversationId)

/-- `_decrypt_preview`. -/
def decryptPreview (cipher : FieldCipher) (conversationId : Id) (blob : Blob aes) : Option Text :=
  cipher.decrypt blob (previewAad conversationId)

/-- `_require_conversation`. -/
def requireConversation (conversationId actorId : Id) : ChatTx aes (Conversation aes) := do
  match ← ChatRepository.getForActor conversationId actorId with
  | none => .raise (.notFound "Conversation not found.")
  | some conversation => return conversation

/-- What a message gets from outside: its id and the nonces of its two ciphertexts. -/
structure Draws where
  messageId : Id
  contentIv : Bytes
  previewIv : Bytes

/-- `send_message`. -/
def sendMessage (cipher : FieldCipher) (now : Time) (draws : Draws) (conversationId senderId : Id)
    (text : Text) : ChatTx aes ChatMessage := do
  let conversation ← requireConversation conversationId senderId
  let content := encryptContent cipher draws.contentIv conversationId text
  let preview := encryptPreview cipher draws.previewIv conversationId text
  let message ← ChatRepository.addMessage now draws.messageId conversationId conversation senderId
    content preview (senderId = conversation.customerId)
  return { id := draws.messageId, conversationId := message.conversationId
           senderId := message.senderId, messageType := message.messageType, content := text
           isRead := message.isRead, createdAt := message.createdAt }

/-- `mark_read`. -/
def markRead (now : Time) (conversationId actorId : Id) : ChatTx aes Unit := do
  let conversation ← requireConversation conversationId actorId
  ChatRepository.markRead now conversationId conversation (actorId = conversation.customerId)

end ChatService

/-- A call of the chat service. -/
inductive Call
  | sendMessage (now : Time) (draws : ChatService.Draws) (conversationId senderId : Id) (text : Text)
  | markRead (now : Time) (conversationId actorId : Id)

/-- The transaction of a call. -/
def Call.tx (cipher : FieldCipher) : Call → ChatTx aes Unit
  | .sendMessage now draws conversationId senderId text =>
    (ChatService.sendMessage cipher now draws conversationId senderId text).void
  | .markRead now conversationId actorId => ChatService.markRead now conversationId actorId

end Giftly.Chat
