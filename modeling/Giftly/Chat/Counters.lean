import Giftly.Accounts.Identity
import Giftly.Chat.Service
import Giftly.Store.Tagged
import Mathlib.Data.Prod.Lex

/-!
# The counters of the chat

A conversation keeps two unread counters, the time and the preview of its last message, beside the
messages themselves. Both functions that write read the conversation without a lock and write
absolute values to it. The lock that their `UPDATE` of the conversation takes is held to the commit,
and no message of the conversation is committed meanwhile, so what matters is what has been committed
between the read and the lock: `counterCurrent` asks that a sender's counter is still the one that it
read and that its message is the newest, and that a reader who found its counter at zero finds no
unread message afterwards.
-/

namespace Giftly.Chat

open Store

variable {aes : Aesgcm}

/-! ## The invariant -/

/-- The place of a message in the order in which the messages are listed. -/
def Message.place (m : Message aes) (id : Id) : Time ×ₗ Id := toLex (m.createdAt, id)

namespace ChatDb

/-- The number of unread text messages of a sender in a conversation. -/
def unreadFrom (conversationId senderId : Id) (d : ChatDb aes) : ℕ :=
  d.messages.count fun _ m => unreadBy conversationId senderId m && m.messageType = .text

/-- No text message of a conversation has a later place than the given one. -/
def Newest (conversationId : Id) (place : Time ×ₗ Id) (d : ChatDb aes) : Prop :=
  ∀ r ∈ d.messages.rows, r.2.conversationId = conversationId → r.2.messageType = .text →
    r.2.place r.1 ≤ place

instance (conversationId : Id) (place : Time ×ₗ Id) (d : ChatDb aes) :
    Decidable (d.Newest conversationId place) := by
  unfold Newest
  infer_instance

/-- The newest text message of a conversation. -/
structure IsNewest (conversationId id : Id) (m : Message aes) (d : ChatDb aes) : Prop where
  row : d.messages.get? id = some m
  conversation : m.conversationId = conversationId
  text : m.messageType = .text
  newest : d.Newest conversationId (m.place id)

/-- Two states have the same messages of a conversation. -/
def SameMessages (conversationId : Id) (d d' : ChatDb aes) : Prop :=
  ∀ id m, m.conversationId = conversationId →
    (d'.messages.get? id = some m ↔ d.messages.get? id = some m)

/-- A conversation has the messages that it has. -/
theorem SameMessages.refl (id : Id) (d : ChatDb aes) : SameMessages id d d := fun _ _ _ => .rfl

/-- Messages that stay over two steps. -/
theorem SameMessages.trans {id : Id} {d₁ d₂ d₃ : ChatDb aes} (h₁ : SameMessages id d₁ d₂)
    (h₂ : SameMessages id d₂ d₃) : SameMessages id d₁ d₃ :=
  fun j m hm => (h₂ j m hm).trans (h₁ j m hm)

/-- The newest place depends on the messages of the conversation alone. -/
theorem SameMessages.newest {id : Id} {p : Time ×ₗ Id} {d d' : ChatDb aes}
    (h : SameMessages id d d') (hn : d.Newest id p) : d'.Newest id p := by
  intro r hr hid htext
  have hrow : d.messages.get? r.1 = some r.2 := (h r.1 r.2 hid).mp (Table.get?_eq_some.mpr hr)
  exact hn r (Table.get?_eq_some.mp hrow) hid htext

/-- Having the same messages goes both ways. -/
theorem SameMessages.symm {id : Id} {d d' : ChatDb aes} (h : SameMessages id d d') :
    SameMessages id d' d := fun j m hm => (h j m hm).symm

/-- The number of unread messages depends on the messages of the conversation alone. -/
theorem SameMessages.unreadFrom {id s : Id} {d d' : ChatDb aes} (h : SameMessages id d d') :
    d'.unreadFrom id s = d.unreadFrom id s := by
  refine Table.count_congr fun j m hp => h j m ?_
  simp only [unreadBy, Bool.and_eq_true, decide_eq_true_eq] at hp
  exact hp.1.1.1

end ChatDb

open ChatDb

/-- A conversation agrees with its messages. -/
structure Agrees (cipher : FieldCipher) (d : ChatDb aes) (id : Id) (c : Conversation aes) : Prop where
  members : c.customerId ≠ c.courierId
  counters : ∀ b, c.unreadCount b = d.unreadFrom id (c.otherId b)
  newest : ∀ mid m, d.IsNewest id mid m → c.lastMessageTimestamp = m.createdAt ∧
    ∃ text, ChatService.decryptContent cipher id m.contentEncrypted = some text ∧
      c.lastMessagePreviewEncrypted.bind (ChatService.decryptPreview cipher id) =
        some (text.take ChatService.previewChars)

/-- Every conversation agrees with its messages. -/
def ChatOk (cipher : FieldCipher) (d : ChatDb aes) : Prop :=
  ∀ id c, d.conversations.get? id = some c → Agrees cipher d id c

variable {cipher : FieldCipher} {d d' : ChatDb aes} {id mid : Id} {c c' : Conversation aes}
  {m : Message aes}

/-- A conversation whose messages stay agrees with them as before. -/
theorem Agrees.congr (h : Agrees cipher d id c) (hs : SameMessages id d d') :
    Agrees cipher d' id c where
  members := h.members
  counters b := by rw [hs.unreadFrom, h.counters b]
  newest j x hx := by
    refine h.newest j x ⟨?_, hx.conversation, hx.text, hs.symm.newest hx.newest⟩
    exact (hs j x hx.conversation).mp hx.row

/-- What a send writes: a text message of one participant, and the conversation row after it. -/
structure Sends (cipher : FieldCipher) (d : ChatDb aes) (id mid : Id) (b : Bool) (m : Message aes)
    (c c' : Conversation aes) : Prop where
  free : d.messages.get? mid = none
  conversation : m.conversationId = id
  text : m.messageType = .text
  unread : m.isRead = false
  sender : m.senderId = c.otherId b
  newest : d.Newest id (m.place mid)
  customer : c'.customerId = c.customerId
  courier : c'.courierId = c.courierId
  counter : c'.unreadCount b = c.unreadCount b + 1
  other : c'.unreadCount (!b) = c.unreadCount (!b)
  timestamp : c'.lastMessageTimestamp = m.createdAt
  preview : ∃ text, ChatService.decryptContent cipher id m.contentEncrypted = some text ∧
    c'.lastMessagePreviewEncrypted.bind (ChatService.decryptPreview cipher id) =
      some (text.take ChatService.previewChars)

/-- The other participant depends on the two participants alone. -/
theorem otherId_congr (hcustomer : c'.customerId = c.customerId)
    (hcourier : c'.courierId = c.courierId) (b : Bool) : c'.otherId b = c.otherId b := by
  unfold Conversation.otherId
  rw [hcustomer, hcourier]

/-- The participants of a conversation write for each other. -/
theorem otherId_ne (h : c.customerId ≠ c.courierId) (b : Bool) : c.otherId (!b) ≠ c.otherId b := by
  cases b with
  | false => exact h.symm
  | true => exact h

/-- A new message leaves the messages of the other conversations. -/
theorem sameMessages_insert {j : Id} (hfree : d.messages.get? mid = none)
    (hj : m.conversationId ≠ j) : SameMessages j d (d.insertMessage mid m) := by
  intro i x hx
  simp only [insertMessage, Table.get?_insert]
  by_cases hi : i = mid
  · subst hi
    rw [hfree, if_pos rfl, Option.none_or]
    refine ⟨fun h => ?_, fun h => by cases h⟩
    obtain rfl := Option.some.inj h
    exact absurd hx hj
  · rw [if_neg hi, Option.or_none]

/-- A send keeps every conversation in agreement with its messages. -/
theorem ChatOk.send {b : Bool} {f : Conversation aes → Conversation aes} (h : ChatOk cipher d)
    (hc : d.conversations.get? id = some c) (hs : Sends cipher d id mid b m c (f c)) :
    ChatOk cipher ((d.insertMessage mid m).updateConversation id f) := by
  intro j y hy
  simp only [updateConversation, insertMessage, Table.get?_update] at hy
  split_ifs at hy with hj
  · -- The conversation of the message.
    subst hj
    rw [hc, Option.map_some] at hy
    obtain rfl := Option.some.inj hy
    have hold := h j c hc
    have hother := otherId_congr hs.customer hs.courier
    have hunread : ∀ s, ((d.insertMessage mid m).updateConversation j f).unreadFrom j s =
        (d.unreadFrom j s : ℤ) + if m.senderId = s then 1 else 0 := by
      intro s
      refine (Table.count_insert d.messages _ m hs.free).trans ?_
      simp [unreadBy, hs.conversation, hs.text, hs.unread, unreadFrom]
    refine ⟨by rw [hs.customer, hs.courier]; exact hold.members, fun b' => ?_, fun i x hx => ?_⟩
    · -- The receiver's counter and the unread messages both grow by one.
      rw [hunread, hother, hs.sender]
      by_cases hb : b' = b
      · subst hb
        rw [if_pos rfl, hs.counter, hold.counters b']
      · obtain rfl : b' = !b := by cases b <;> cases b' <;> simp_all
        rw [if_neg (otherId_ne hold.members b).symm, hs.other, hold.counters, add_zero]
    · -- Nothing is newer than the new message, so nothing else is the newest.
      have hnew : (mid, m) ∈ ((d.insertMessage mid m).updateConversation j f).messages.rows :=
        Table.get?_eq_some.mp (Table.get?_insert_self d.messages m hs.free)
      have hle := hx.newest _ hnew hs.conversation hs.text
      have hrow : (d.messages.get? i).or (if i = mid then some m else none) = some x := by
        rw [← Table.get?_insert]
        exact hx.row
      rcases Option.or_eq_some_iff.mp hrow with hi | ⟨-, hi⟩
      · have hge := hs.newest (i, x) (Table.get?_eq_some.mp hi) hx.conversation hx.text
        have hne : i ≠ mid := by
          rintro rfl
          rw [hs.free] at hi
          cases hi
        have hplace : x.place i = m.place mid := le_antisymm hge hle
        have hid : i = mid := congrArg (fun p => (ofLex p).2) hplace
        exact absurd hid hne
      · split_ifs at hi
        obtain rfl := Option.some.inj hi
        exact ⟨hs.timestamp, hs.preview⟩
  · have hm : m.conversationId ≠ j := by
      rw [hs.conversation]
      exact Ne.symm hj
    exact (h j y hy).congr (sameMessages_insert hs.free hm)

/-- The row of a message after an `UPDATE` that makes messages read. -/
theorem get?_readMessages {ids : List Id} {o i : Id} {t : Time} :
    (d.readMessages ids id o t).messages.get? i = (d.messages.get? i).map fun x =>
      if i ∈ ids ∧ unreadBy id o x = true then { x with isRead := true, readAt := some t } else x :=
  Table.get?_mapRows d.messages _ i

/-- Messages that are read already stay as they are. -/
theorem readMessages_of_read {ids : List Id} {o : Id} {t : Time}
    (h : ∀ i ∈ ids, ∀ x, d.messages.get? i = some x → x.isRead = true) :
    d.readMessages ids id o t = d := by
  obtain ⟨conversations, messages⟩ := d
  have hsame : ∀ i x, messages.get? i = some x →
      (if i ∈ ids ∧ unreadBy id o x = true then { x with isRead := true, readAt := some t } else x) =
        x := by
    intro i x hx
    refine if_neg ?_
    rintro ⟨hi, hunread⟩
    simp [unreadBy, h i hi x hx] at hunread
  have hrows : messages.mapRows (fun i x => if i ∈ ids ∧ unreadBy id o x = true then
      { x with isRead := true, readAt := some t } else x) = messages := by
    calc
      _ = messages.mapRows fun _ x => x := Table.mapRows_congr hsame
      _ = messages := by simp [Table.mapRows]
  simp only [readMessages, hrows]

/-- What the `UPDATE` of the messages leaves of a message that it may change. -/
structure Message.Like (x y : Message aes) : Prop where
  conversationId : y.conversationId = x.conversationId
  senderId : y.senderId = x.senderId
  messageType : y.messageType = x.messageType
  contentEncrypted : y.contentEncrypted = x.contentEncrypted
  createdAt : y.createdAt = x.createdAt

/-- Every message after the `UPDATE` was there before it. -/
theorem exists_of_readMessages {ids : List Id} {o i : Id} {t : Time} {y : Message aes}
    (h : (d.readMessages ids id o t).messages.get? i = some y) :
    ∃ x, d.messages.get? i = some x ∧ x.Like y := by
  rw [get?_readMessages] at h
  obtain ⟨x, hx, rfl⟩ := Option.map_eq_some_iff.mp h
  refine ⟨x, hx, ?_⟩
  split_ifs <;> exact ⟨rfl, rfl, rfl, rfl, rfl⟩

/-- A message that is not of the `UPDATE`'s conversation and sender stays as it is. -/
theorem readMessages_iff {ids : List Id} {o i : Id} {t : Time} {x : Message aes}
    (hx : ¬(x.conversationId = id ∧ x.senderId = o)) :
    (d.readMessages ids id o t).messages.get? i = some x ↔ d.messages.get? i = some x := by
  have hkeep : ∀ y : Message aes, y.conversationId = x.conversationId → y.senderId = x.senderId →
      unreadBy id o y = false := by
    intro y hc hs
    simp only [unreadBy, hc, hs, Bool.and_eq_false_iff, decide_eq_false_iff_not]
    rw [← not_and_or]
    exact .inl hx
  constructor
  · intro h
    obtain ⟨y, hy, hlike⟩ := exists_of_readMessages h
    rw [get?_readMessages, hy, Option.map_some, if_neg] at h
    · rw [hy, h]
    · simp [hkeep y hlike.conversationId.symm hlike.senderId.symm]
  · intro h
    rw [get?_readMessages, h, Option.map_some, if_neg]
    simp [hkeep x rfl rfl]

/-- The place of a message does not change when it becomes read. -/
theorem Message.Like.place {x y : Message aes} (h : x.Like y) (i : Id) : y.place i = x.place i := by
  unfold Message.place
  rw [h.createdAt]

/-- The newest message is the newest before the `UPDATE`, too. -/
theorem isNewest_of_readMessages {ids : List Id} {o i j : Id} {t : Time} {y : Message aes}
    (h : (d.readMessages ids id o t).IsNewest j i y) : ∃ x, d.IsNewest j i x ∧ x.Like y := by
  obtain ⟨x, hx, hlike⟩ := exists_of_readMessages h.row
  refine ⟨x, ⟨hx, ?_, ?_, fun r hr hc htext => ?_⟩, hlike⟩
  · rw [← hlike.conversationId]
    exact h.conversation
  · rw [← hlike.messageType]
    exact h.text
  · have hrow : d.messages.get? r.1 = some r.2 := Table.get?_eq_some.mpr hr
    obtain ⟨z, hz⟩ : ∃ z, (d.readMessages ids id o t).messages.get? r.1 = some z := by
      rw [get?_readMessages, hrow]
      exact ⟨_, rfl⟩
    obtain ⟨w, hw, hlike'⟩ := exists_of_readMessages hz
    obtain rfl : w = r.2 := Option.some.inj (hw.symm.trans hrow)
    have hle := h.newest (r.1, z) (Table.get?_eq_some.mp hz) (by rw [hlike'.conversationId, hc])
      (by rw [hlike'.messageType, htext])
    rw [← hlike'.place, ← hlike.place]
    exact hle

/-- An `UPDATE` of a conversation's messages leaves those of the other conversations. -/
theorem sameMessages_readMessages {ids : List Id} {o j : Id} {t : Time} (hj : j ≠ id) :
    SameMessages j d (d.readMessages ids id o t) := by
  intro i x hx
  exact readMessages_iff fun h => hj (hx.symm.trans h.1)

/-- No message of a sender is unread after an `UPDATE` of all of them. -/
theorem unreadFrom_readMessages {ids : List Id} {o : Id} {t : Time}
    (hall : ∀ i x, d.messages.get? i = some x → unreadBy id o x = true → i ∈ ids) :
    (d.readMessages ids id o t).unreadFrom id o = 0 := by
  refine List.countP_eq_zero.mpr fun r hr => ?_
  have hrow := Table.get?_eq_some.mpr hr
  rw [get?_readMessages] at hrow
  obtain ⟨x, hx, hr⟩ := Option.map_eq_some_iff.mp hrow
  rw [← hr]
  split_ifs with h
  · simp [unreadBy]
  · have hread : unreadBy id o x = false := by
      by_contra hne
      exact h ⟨hall _ x hx (by simpa using hne), by simpa using hne⟩
    simp [hread]

/-- A reader's `UPDATE`s keep every conversation in agreement with its messages: the counter is zero
and no message to the reader is unread. -/
theorem ChatOk.read {b : Bool} {f : Conversation aes → Conversation aes} {ids : List Id} {t : Time}
    (h : ChatOk cipher d) (hc : d.conversations.get? id = some c) (hf : f c = c.withUnread b 0)
    (hall : ∀ i x, d.messages.get? i = some x → unreadBy id (c.otherId b) x = true → i ∈ ids) :
    ChatOk cipher ((d.updateConversation id f).readMessages ids id (c.otherId b) t) := by
  intro j y hy
  simp only [readMessages, updateConversation, Table.get?_update] at hy
  split_ifs at hy with hj
  · subst hj
    rw [hc, Option.map_some, hf] at hy
    obtain rfl := Option.some.inj hy
    have hold := h j c hc
    have hmembers : (c.withUnread b 0).customerId = c.customerId ∧
        (c.withUnread b 0).courierId = c.courierId := by
      cases b <;> exact ⟨rfl, rfl⟩
    refine ⟨by rw [hmembers.1, hmembers.2]; exact hold.members, fun b' => ?_, fun i x hx => ?_⟩
    · rw [otherId_congr hmembers.1 hmembers.2]
      by_cases hb : b' = b
      · subst hb
        -- The reader's counter is set to zero, and all messages to them are marked.
        have hzero : (c.withUnread b' 0).unreadCount b' = 0 := by
          cases b' <;> rfl
        have hunread := unreadFrom_readMessages (d := d.updateConversation j f) (t := t) hall
        rw [hzero, hunread]
        rfl
      · -- The other participant's messages are none of the reader's business.
        obtain rfl : b' = !b := by cases b <;> cases b' <;> simp_all
        have hkeep : (c.withUnread b 0).unreadCount (!b) = c.unreadCount (!b) := by
          cases b <;> rfl
        have hcount : ((d.updateConversation j f).readMessages ids j (c.otherId b) t).unreadFrom j
            (c.otherId !b) = d.unreadFrom j (c.otherId !b) := by
          refine Table.count_congr fun i x hp => readMessages_iff (d := d) fun hx => ?_
          simp only [unreadBy, Bool.and_eq_true, decide_eq_true_eq] at hp
          exact otherId_ne hold.members b (hp.1.1.2.symm.trans hx.2)
        rw [hkeep, hcount, hold.counters]
    · -- Marking a message moves neither its time nor its text.
      obtain ⟨z, hz, hlike⟩ := isNewest_of_readMessages hx
      have hnewest := hold.newest i z ⟨hz.row, hz.conversation, hz.text, hz.newest⟩
      rw [hlike.createdAt, hlike.contentEncrypted]
      cases b <;> exact hnewest
  · exact (h j y hy).congr (sameMessages_readMessages (d := d) hj)

/-! ## The discipline -/

/-- What a lock protects: the row, and for a conversation also its messages. -/
def ChatRow.Same (d d' : ChatDb aes) : ChatRow → Prop
  | .conversation id =>
    d'.conversations.get? id = d.conversations.get? id ∧ SameMessages id d d'
  | .message id => d'.messages.get? id = d.messages.get? id

/-- A row is the same as itself. -/
theorem ChatRow.Same.refl (l : ChatRow) (d : ChatDb aes) : l.Same d d := by
  cases l with
  | conversation id => exact ⟨rfl, .refl id d⟩
  | message id => rfl

/-- A row that stays over two steps stays over both. -/
theorem ChatRow.Same.trans {l : ChatRow} {d₁ d₂ d₃ : ChatDb aes} (h₁ : l.Same d₁ d₂)
    (h₂ : l.Same d₂ d₃) : l.Same d₁ d₃ := by
  cases l with
  | conversation id => exact ⟨h₂.1.trans h₁.1, h₁.2.trans h₂.2⟩
  | message id => exact Eq.trans h₂ h₁

/-- Conversations keep their participants, and the times of their last messages do not go back. -/
def Grows (d d' : ChatDb aes) : Prop :=
  ∀ id c, d.conversations.get? id = some c → ∃ c', d'.conversations.get? id = some c' ∧
    c'.customerId = c.customerId ∧ c'.courierId = c.courierId ∧
    c.lastMessageTimestamp ≤ c'.lastMessageTimestamp

/-- Nothing happens, and no time goes back. -/
theorem Grows.refl (d : ChatDb aes) : Grows d d := fun _ c hc => ⟨c, hc, rfl, rfl, le_rfl⟩

/-- Times that do not go back in two steps. -/
theorem Grows.trans {d₁ d₂ d₃ : ChatDb aes} (h₁ : Grows d₁ d₂) (h₂ : Grows d₂ d₃) :
    Grows d₁ d₃ := by
  intro id c hc
  obtain ⟨c₂, hc₂, hk₂, hr₂, ht₂⟩ := h₁ id c hc
  obtain ⟨c₃, hc₃, hk₃, hr₃, ht₃⟩ := h₂ id c₂ hc₂
  exact ⟨c₃, hc₃, hk₃.trans hk₂, hr₃.trans hr₂, ht₂.trans ht₃⟩

/-- What a call finds when it is granted a lock. The conversation's lock finds the counter that the
sender read and no message after its own; a message's lock finds the message read, when the reader
read the counter at zero. -/
def counterCurrent (x : Call) (session : Option (Conversation aes)) (d : ChatDb aes)
    (l : ChatRow) : Prop :=
  match x, l with
  | .sendMessage now draws _ senderId _, .conversation id =>
    ∀ loaded ∈ session, ∀ c ∈ d.conversations.get? id,
      c.unreadCount (senderId ≠ loaded.customerId) =
        loaded.unreadCount (senderId ≠ loaded.customerId) ∧
      c.lastMessageTimestamp ≤ now ∧ d.Newest id (toLex (now, draws.messageId))
  | .markRead _ _ actorId, .message id =>
    ∀ loaded ∈ session, loaded.unreadCount (actorId = loaded.customerId) = 0 →
      ∀ m ∈ d.messages.get? id, m.isRead = true
  | _, _ => True

instance (x : Call) (session : Option (Conversation aes)) (d : ChatDb aes) (l : ChatRow) :
    Decidable (counterCurrent x session d l) := by
  unfold counterCurrent
  split <;> infer_instance

/-- The discipline under which the conversations agree with their messages. -/
def chatDiscipline (cipher : FieldCipher) :
    Discipline (ChatDb aes) ChatRow (Option (Conversation aes)) where
  inv := ChatOk cipher
  same l d d' := l.Same d d'
  same_refl := ChatRow.Same.refl
  same_trans := ChatRow.Same.trans
  grows := Grows
  grows_refl := Grows.refl
  grows_trans := Grows.trans
  cond _ _ _ := True
  guar _ _ := True

/-- What other transactions may do to the transaction of a call. -/
abbrev around (cipher : FieldCipher) (x : Call) :
    Surroundings (ChatDb aes) ChatRow (Option (Conversation aes)) :=
  ((chatDiscipline cipher).under (counterCurrent x)).surroundings

/-- The surroundings let no time go back. -/
theorem rely_grows {x : Call} {held : List ChatRow} (h : (around cipher x).rely held d d') :
    Grows d d' := h.2.1

/-- A locked row stays as it is. -/
theorem rely_same {x : Call} {held : List ChatRow} {l : ChatRow}
    (h : (around cipher x).rely held d d') (hl : l ∈ held) : l.Same d d' := h.2.2 l hl

/-- A locked message stays as it is. -/
theorem rely_message {x : Call} {held : List ChatRow} (h : (around cipher x).rely held d d')
    (hl : .message mid ∈ held) : d'.messages.get? mid = d.messages.get? mid := rely_same h hl

section Calls

variable {v : View (ChatDb aes) ChatRow (Option (Conversation aes))} {x : Call}

/-- The conversation is loaded without a lock, for one of its participants. -/
theorem wp_getForActor {a : Id}
    {Q : Option (Conversation aes) → View (ChatDb aes) ChatRow (Option (Conversation aes)) → Prop}
    (hnone : ∀ d, Q none { v with mem := none, last := d })
    (hsome : ∀ d c, (around cipher x).rely v.held v.last d →
      (v.pending d).conversations.get? id = some c → c.customerId = a ∨ c.courierId = a →
      Q (some c) { v with mem := some c, last := d }) :
    wp (around cipher x) (ChatRepository.getForActor id a) Q v := by
  unfold ChatRepository.getForActor
  rw [wp_select]
  intro d hd
  rw [wp_orm, wp_ret]
  cases hf : ((v.pending d).conversations.get? id).filter fun c =>
      c.customerId = a || c.courierId = a with
  | none => exact hnone d
  | some c =>
    obtain ⟨hc, ha⟩ := Option.filter_eq_some_iff.mp hf
    exact hsome d c hd hc (by simpa using ha)

/-- After the check, the actor is a participant of the loaded conversation. -/
theorem wp_requireConversation {a : Id}
    {Q : Conversation aes → View (ChatDb aes) ChatRow (Option (Conversation aes)) → Prop}
    (hQ : ∀ d c, (around cipher x).rely v.held v.last d →
      (v.pending d).conversations.get? id = some c → c.customerId = a ∨ c.courierId = a →
      Q c { v with mem := some c, last := d }) :
    wp (around cipher x) (ChatService.requireConversation id a) Q v := by
  unfold ChatService.requireConversation
  rw [wp_bind]
  exact wp_getForActor (fun _ => trivial) fun d c hd hc ha => hQ d c hd hc ha

/-- The `UPDATE` of a conversation applies to the committed row, whose lock was granted. -/
theorem wp_flushConversation {f : Conversation aes → Conversation aes}
    {Q : Unit → View (ChatDb aes) ChatRow (Option (Conversation aes)) → Prop}
    (h : ∀ d c, (around cipher x).rely v.held v.last d →
      (.conversation id ∈ v.held ∨ counterCurrent x v.mem (v.pending d) (.conversation id)) →
      (v.pending d).conversations.get? id = some c →
      Q () { v with
        held := .conversation id :: v.held, pending := updateConversation id f ∘ v.pending
        last := d }) :
    wp (around cipher x) (ChatRepository.flushConversation id f) Q v := by
  unfold ChatRepository.flushConversation
  refine wp_flush_intro fun d hd hl hcheck => ?_
  split at hcheck
  · cases hcheck
  · exact h d _ hd (hl _ List.mem_cons_self) ‹_›

/-- A change of one conversation row that keeps its participants and moves its time forward. -/
theorem grows_updateConversation {f : Conversation aes → Conversation aes}
    (hc : d.conversations.get? id = some c) (hcustomer : (f c).customerId = c.customerId)
    (hcourier : (f c).courierId = c.courierId)
    (hback : c.lastMessageTimestamp ≤ (f c).lastMessageTimestamp) :
    Grows d (d.updateConversation id f) := by
  intro j y hy
  by_cases hj : j = id
  · subst hj
    obtain rfl : c = y := Option.some.inj (hc.symm.trans hy)
    refine ⟨f c, ?_, hcustomer, hcourier, hback⟩
    simp only [updateConversation, Table.get?_update_self, hc, Option.map_some]
  · refine ⟨y, ?_, rfl, rfl, le_rfl⟩
    simp only [updateConversation, Table.get?_update_ne _ _ hj, hy]

/-- A send changes its conversation, its messages and the row of its message. -/
theorem same_send {f : Conversation aes → Conversation aes} {l : ChatRow}
    (hfree : d.messages.get? mid = none) (hconv : m.conversationId = id)
    (hl : l ∉ [ChatRow.conversation id, .message mid]) :
    l.Same d ((d.insertMessage mid m).updateConversation id f) := by
  cases l with
  | conversation j =>
    have hj : j ≠ id := by
      rintro rfl
      simp at hl
    refine ⟨?_, sameMessages_insert hfree (by rw [hconv]; exact Ne.symm hj)⟩
    simp only [updateConversation, insertMessage, Table.get?_update_ne _ _ hj]
  | message j =>
    have hj : j ≠ mid := by
      rintro rfl
      simp at hl
    exact Table.get?_insert_ne d.messages m hj

/-- The counter that the session wrote is its own, and the other one is the row's. -/
theorem unreadCount_assign (loaded row : Conversation aes) (b : Bool) (n : ℤ) :
    (loaded.assignUnread (loaded.withUnread b n) row).unreadCount b =
        Giftly.assign (loaded.unreadCount b) n (row.unreadCount b) ∧
      (loaded.assignUnread (loaded.withUnread b n) row).unreadCount (!b) = row.unreadCount (!b) := by
  cases b <;> simp [Conversation.assignUnread, Conversation.withUnread, Conversation.unreadCount,
    Giftly.assign]

/-- The message that a sender inserts. -/
def sentMessage (cipher : FieldCipher) (now : Time) (draws : ChatService.Draws) (id a : Id)
    (text : Text) : Message aes where
  conversationId := id
  senderId := a
  messageType := .text
  contentEncrypted := ChatService.encryptContent cipher draws.contentIv id text
  isRead := false
  readAt := none
  createdAt := now

/-- The row that a sender's `UPDATE` leaves of a conversation. -/
def sentRow (loaded : Conversation aes) (b : Bool) (preview : Blob aes) (now : Time)
    (row : Conversation aes) : Conversation aes :=
  { loaded.assignUnread (loaded.withUnread b (loaded.unreadCount b + 1)) row with
    lastMessagePreviewEncrypted := some preview
    lastMessageTimestamp := Giftly.assign loaded.lastMessageTimestamp now row.lastMessageTimestamp }

/-- A sender that finds its counter as it read it, and no message after its own, writes what a send
should write. -/
theorem sends_of_current {now : Time} {draws : ChatService.Draws} {a : Id} {text : Text} {b : Bool}
    {loaded : Conversation aes} (hfree : d.messages.get? draws.messageId = none)
    (hsender : a = loaded.otherId b) (hcustomer : c.customerId = loaded.customerId)
    (hcourier : c.courierId = loaded.courierId)
    (hback : loaded.lastMessageTimestamp ≤ c.lastMessageTimestamp)
    (hcounter : c.unreadCount b = loaded.unreadCount b) (hnow : c.lastMessageTimestamp ≤ now)
    (hnewest : d.Newest id (toLex (now, draws.messageId))) :
    Sends cipher d id draws.messageId b (sentMessage cipher now draws id a text) c
      (sentRow loaded b (ChatService.encryptPreview cipher draws.previewIv id text) now c) where
  free := hfree
  conversation := rfl
  text := rfl
  unread := rfl
  sender := hsender.trans (otherId_congr hcustomer hcourier b).symm
  newest := hnewest
  customer := rfl
  courier := rfl
  -- The counter is written as loaded plus one, and `hcounter` says that the loaded one is current.
  counter := by
    have hassign := (unreadCount_assign loaded c b (loaded.unreadCount b + 1)).1
    refine Eq.trans hassign ?_
    rw [Giftly.assign, if_neg (by omega), hcounter]
  other := (unreadCount_assign loaded c b _).2
  timestamp := by
    show Giftly.assign loaded.lastMessageTimestamp now c.lastMessageTimestamp = now
    unfold Giftly.assign
    split_ifs with hsame
    · -- The timestamp is not written, and the row has it already.
      exact le_antisymm hnow (hsame ▸ hback)
    · rfl
  preview := by
    refine ⟨text, FieldCipher.decrypt_encrypt cipher _ _ _, ?_⟩
    exact FieldCipher.decrypt_encrypt cipher _ _ _

/-- A send commits a message together with the counter and the preview that belong to it. -/
theorem wp_sendMessage {now : Time} {draws : ChatService.Draws} {a : Id} {text : Text}
    (hx : x = .sendMessage now draws id a text) :
    wp (around cipher x) (ChatService.sendMessage cipher now draws id a text)
      (fun _ v => ((chatDiscipline cipher).under (counterCurrent x)).Commits v) (.start none d) := by
  unfold ChatService.sendMessage
  rw [wp_bind]
  refine wp_requireConversation fun d₁ loaded hd₁ hloaded ha => ?_
  unfold ChatRepository.addMessage
  rw [wp_bind, wp_bind]
  refine wp_flush_intro fun d₂ hd₂ _ hinsert => ?_
  rw [wp_bind]
  refine wp_flushConversation fun d₃ c hd₃ hlock hc d₄ hd₄ => ?_
  have hfree₂ : d₂.messages.get? draws.messageId = none := by
    by_contra hsome
    simp [Option.isSome_iff_ne_none, hsome] at hinsert
  have hfree₃ : d₃.messages.get? draws.messageId = none :=
    (rely_message hd₃ (by simp)).trans hfree₂
  have hfree₄ : d₄.messages.get? draws.messageId = none :=
    (rely_message hd₄ (by simp)).trans hfree₃
  -- What has been committed since the conversation was loaded.
  have hc₃ : d₃.conversations.get? id = some c := hc
  obtain ⟨c₂, hc₂, hcustomer₂, hcourier₂, hback₂⟩ := rely_grows hd₂ id loaded hloaded
  obtain ⟨c', hc', hcustomer₃, hcourier₃, hback₃⟩ := rely_grows hd₃ id c₂ hc₂
  obtain rfl : c' = c := Option.some.inj (hc'.symm.trans hc₃)
  -- What the lock has found, and what it keeps.
  have hfound := hlock.resolve_left (by simp)
  subst hx
  obtain ⟨hcounter, hnow, hnewest⟩ := hfound loaded rfl c' hc₃
  obtain ⟨hrow, hmessages⟩ : ChatRow.Same d₃ d₄ (.conversation id) := rely_same hd₄ (by simp)
  have hnewest₄ : d₄.Newest id (toLex (now, draws.messageId)) := by
    refine hmessages.newest fun r hr => hnewest r ?_
    have hold : d₃.messages.get? r.1 = some r.2 := Table.get?_eq_some.mpr hr
    refine Table.get?_eq_some.mp ?_
    show (d₃.messages.insert _ _).get? r.1 = some r.2
    rw [Table.get?_insert, hold, Option.some_or]
  have hsender : a = loaded.otherId (decide (a ≠ loaded.customerId)) := by
    unfold Conversation.otherId
    by_cases hmine : a = loaded.customerId
    · simp [hmine]
    · simpa [hmine] using (ha.resolve_left (Ne.symm hmine)).symm
  have hsends : Sends cipher d₄ id draws.messageId (decide (a ≠ loaded.customerId))
      (sentMessage cipher now draws id a text) c' (sentRow loaded (decide (a ≠ loaded.customerId))
        (ChatService.encryptPreview cipher draws.previewIv id text) now c') :=
    sends_of_current hfree₄ hsender (hcustomer₃.trans hcustomer₂) (hcourier₃.trans hcourier₂)
      (hback₂.trans hback₃) hcounter hnow hnewest₄
  have hc₄ : d₄.conversations.get? id = some c' := hrow.trans hc₃
  have hback₄ : c'.lastMessageTimestamp ≤ (sentRow loaded (decide (a ≠ loaded.customerId))
      (ChatService.encryptPreview cipher draws.previewIv id text) now c').lastMessageTimestamp := by
    rw [hsends.timestamp]
    exact hnow
  have hnot : (decide (a ≠ loaded.customerId)) = !decide (a = loaded.customerId) := decide_not
  rw [hnot] at hsends hback₄
  refine ⟨?_, ?_, trivial, fun l hl => same_send hfree₄ rfl (by simpa using hl)⟩
  · exact ChatOk.send hd₄.1 hc₄ hsends
  · exact grows_updateConversation (d := d₄.insertMessage draws.messageId _) hc₄ rfl rfl hback₄

/-- The row that a reader's `UPDATE` leaves, when its counter was not zero. -/
theorem assignUnread_zero {loaded : Conversation aes} (row : Conversation aes) {b : Bool}
    (h : loaded.unreadCount b ≠ 0) :
    loaded.assignUnread (loaded.withUnread b 0) row = row.withUnread b 0 := by
  cases b with
  | false =>
    have hne : (0 : ℤ) ≠ loaded.courierUnreadCount := Ne.symm h
    simp [Conversation.assignUnread, Conversation.withUnread, Giftly.assign, hne]
  | true =>
    have hne : (0 : ℤ) ≠ loaded.customerUnreadCount := Ne.symm h
    simp [Conversation.assignUnread, Conversation.withUnread, Giftly.assign, hne]

/-- A reader's `UPDATE`s change its conversation, its messages and the rows of those that it
found. -/
theorem same_read {f : Conversation aes → Conversation aes} {ids : List Id} {o : Id} {t : Time}
    {l : ChatRow} (hl : l ∉ ids.map .message ++ [.conversation id]) :
    l.Same d ((d.updateConversation id f).readMessages ids id o t) := by
  rw [List.mem_append, not_or] at hl
  cases l with
  | conversation j =>
    have hj : j ≠ id := by
      rintro rfl
      simp at hl
    refine ⟨?_, sameMessages_readMessages (d := d) hj⟩
    simp only [readMessages, updateConversation, Table.get?_update_ne _ _ hj]
  | message j =>
    -- The messages that it found are among the rows that it locks.
    have hj : j ∉ ids := by
      intro hmem
      exact hl.1 (List.mem_map_of_mem hmem)
    have hget : (d.readMessages ids id o t).messages.get? j = _ := get?_readMessages
    refine hget.trans ?_
    cases d.messages.get? j with
    | none => rfl
    | some y => simp [hj]

/-- A read commits its messages as read together with the counter at zero. -/
theorem wp_markRead {now : Time} {a : Id} (hx : x = .markRead now id a) :
    wp (around cipher x) (ChatService.markRead now id a)
      (fun _ v => ((chatDiscipline cipher).under (counterCurrent x)).Commits v) (.start none d) := by
  unfold ChatService.markRead
  rw [wp_bind]
  refine wp_requireConversation fun d₁ loaded hd₁ hloaded ha => ?_
  unfold ChatRepository.markRead
  rw [wp_bind, wp_when]
  generalize hb : decide (a = loaded.customerId) = b
  constructor
  · intro hne
    refine wp_flushConversation fun d₂ c hd₂ _ hc => wp_query_bind fun d₃ hd₃ =>
      wp_flush_intro fun d₄ hd₄ _ _ d₅ hd₅ => ?_
    have hc₂ : d₂.conversations.get? id = some c := hc
    obtain ⟨c', hc', hcustomer, hcourier, -⟩ := rely_grows hd₂ id loaded hloaded
    obtain rfl : c' = c := Option.some.inj (hc'.symm.trans hc₂)
    -- No message of the conversation is committed while its lock is held.
    have h₃ : ChatRow.Same d₂ d₃ (.conversation id) := rely_same hd₃ (by simp)
    have h₄ : ChatRow.Same d₃ d₄ (.conversation id) := rely_same hd₄ (by simp)
    have h₅ : ChatRow.Same d₄ d₅ (.conversation id) := rely_same hd₅ (by simp)
    have hc₅ : d₅.conversations.get? id = some c' := (h₃.trans (h₄.trans h₅)).1.trans hc₂
    have hf := assignUnread_zero c' hne
    have hother : loaded.otherId b = c'.otherId b := (otherId_congr hcustomer hcourier b).symm
    rw [hother]
    refine ⟨ChatOk.read hd₅.1 hc₅ hf fun i y hi hunread => ?_, ?_, trivial, fun l hl => ?_⟩
    · have hconv : y.conversationId = id := by
        simp only [unreadBy, Bool.and_eq_true, decide_eq_true_eq] at hunread
        exact hunread.1.1
      have hi₃ : d₃.messages.get? i = some y := ((h₄.trans h₅).2 i y hconv).mp hi
      exact List.mem_map.mpr ⟨(i, y), List.mem_filter.mpr ⟨Table.get?_eq_some.mp hi₃, hunread⟩, rfl⟩
    · refine grows_updateConversation (d := d₅) hc₅ ?_ ?_ ?_
      all_goals
        rw [hf]
        cases b <;> rfl
    · exact same_read hl
  · intro hzero
    refine wp_query_bind fun d₂ _ => wp_flush_intro fun d₃ _ hlock _ =>
      Discipline.commits_of_fixed _ (fun _ => trivial) fun d₄ hd₄ => ?_
    -- Every message that the `UPDATE` found has become read before it was locked.
    refine readMessages_of_read fun i hi y hy => ?_
    have hmem := List.mem_map_of_mem (f := ChatRow.message) hi
    have hfound := (hlock _ hmem).resolve_left List.not_mem_nil
    have hi₃ : d₃.messages.get? i = some y := by
      rw [← rely_message hd₄ (List.mem_append_left _ hmem)]
      exact hy
    subst hx
    refine hfound loaded rfl ?_ y hi₃
    rw [hb]
    exact not_not.mp hzero

end Calls

/-! ## Runs -/

/-- What a session of a tagged call remembers. -/
abbrev ChatSession (aes : Aesgcm) := Option (Conversation aes) × List Call

/-- The transactions of calls over the committed tables. -/
abbrev ChatSystem (aes : Aesgcm) := System (ChatDb aes) ChatRow Err (ChatSession aes) Unit

/-- The transactions of calls, tagged with their calls. -/
def Called (aes : Aesgcm) (cipher : FieldCipher)
    (p : Prog (ChatDb aes) ChatRow Err (ChatSession aes) Unit) : Prop :=
  ∃ x : Call, p = (x.tx cipher).tagged x

/-- The transaction of every call follows the discipline. -/
theorem follows_of_called
    {p : Prog (ChatDb aes) ChatRow Err (ChatSession aes) Unit} (hp : Called aes cipher p) :
    ((chatDiscipline cipher).tagged counterCurrent).Ensures (fun _ _ _ => True) (none, []) p := by
  obtain ⟨x, rfl⟩ := hp
  refine Discipline.Ensures.tagged (Discipline.Follows.ensures fun d _ => ?_)
  cases x with
  | sendMessage => exact wp_void (wp_sendMessage rfl)
  | markRead => exact wp_markRead rfl

/-- In every run in which a sender's lock finds the counter that the sender read and no message after
its own, and no reader that read its counter at zero locks an unread message, the counters, the time
and the preview of every conversation are those of its messages in every committed state. -/
theorem counters_track_messages (aes : Aesgcm) (cipher : FieldCipher) (d₀ : ChatDb aes)
    (h₀ : ChatOk cipher d₀)
    (sys : ChatSystem aes)
    (hrun : System.Run (Called aes cipher) (Discipline.tagCond counterCurrent) (none, []) d₀ sys)
    (id : Id) (c : Conversation aes) (hc : sys.db.conversations.get? id = some c) :
    c.customerUnreadCount = sys.db.unreadFrom id c.courierId ∧
    c.courierUnreadCount = sys.db.unreadFrom id c.customerId ∧
    ∀ mid m, sys.db.IsNewest id mid m → c.lastMessageTimestamp = m.createdAt ∧
      ∃ text, ChatService.decryptContent cipher id m.contentEncrypted = some text ∧
        c.lastMessagePreviewEncrypted.bind (ChatService.decryptPreview cipher id) =
          some (text.take ChatService.previewChars) := by
  have hgood := Discipline.good_of_run (fun p hp => follows_of_called hp) h₀ hrun
  have hagrees : Agrees cipher sys.db id c := hgood.inv id c hc
  exact ⟨hagrees.counters true, hagrees.counters false, hagrees.newest⟩

namespace Sample

/-- A new conversation of the customer and the courier. -/
def talk : ChatDb Giftly.Sample.aes where
  conversations := ⟨[(501, ⟨1, 2, none, 0, 0, 0⟩)], by simp⟩
  messages := .empty

/-- The new conversation has no messages and counts none. -/
theorem talk_ok : ChatOk Giftly.Sample.cipher talk := by
  refine Table.forall_get?.mpr fun r hr => ?_
  obtain rfl : r = (501, ⟨1, 2, none, 0, 0, 0⟩) := by simpa [talk] using hr
  refine ⟨by decide, fun b => by cases b <;> rfl, fun mid m hm => ?_⟩
  have hrow := hm.row
  cases hrow

/-- A transaction of the chat, tagged with its call. -/
def called (x : Call) :
    Prog (ChatDb Giftly.Sample.aes) ChatRow Err (ChatSession Giftly.Sample.aes) Unit :=
  (x.tx Giftly.Sample.cipher).tagged x

/-- The transaction of a call is tagged with the call. -/
theorem called_called (x : Call) : Called Giftly.Sample.aes Giftly.Sample.cipher (called x) :=
  ⟨x, rfl⟩

/-- A message of the conversation. -/
def say (now : Time) (messageId senderId : Id) (text : Text) : Call :=
  .sendMessage now ⟨messageId, [], []⟩ 501 senderId text

/-- The two counters and the time of the last message. -/
def counters (sys : ChatSystem Giftly.Sample.aes) : Option (ℤ × ℤ × Time) :=
  (sys.db.conversations.get? 501).map fun c =>
    (c.customerUnreadCount, c.courierUnreadCount, c.lastMessageTimestamp)

/-- No transaction is in progress. -/
def atRest (sys : ChatSystem Giftly.Sample.aes) : Bool :=
  sys.slots.all fun
    | .running _ => false
    | _ => true

end Sample

/-- The customer and the courier write at once: both have read the conversation before the first of
them commits, and each message is counted. -/
theorem counters_track_messages_answer :
    ∃ (sys : ChatSystem Giftly.Sample.aes) (c : Conversation Giftly.Sample.aes),
      System.Run (Called Giftly.Sample.aes Giftly.Sample.cipher) (Discipline.tagCond counterCurrent)
        (none, []) Sample.talk sys ∧
      sys.db.conversations.get? 501 = some c ∧ Sample.counters sys = some (1, 1, 11) ∧
      c.customerUnreadCount = sys.db.unreadFrom 501 c.courierId := by
  obtain ⟨sys, hrun, hq⟩ := System.Run.exists_of_play
    (Called Giftly.Sample.aes Giftly.Sample.cipher) (Discipline.tagCond counterCurrent) (none, [])
    Sample.talk
    ([.start (Sample.called (Sample.say 10 801 1 ['h', 'i'])),
      .start (Sample.called (Sample.say 11 802 2 ['y', 'e', 's']))] ++
      -- Both calls are begun, then their steps alternate.
      List.replicate 3 (.step 0) ++ List.replicate 3 (.step 1) ++ List.replicate 3 (.step 0) ++
      List.replicate 3 (.step 1))
    (fun sys => Sample.counters sys = some (1, 1, 11))
    (by
      intro p hp
      simp only [List.mem_append, List.mem_cons, List.mem_replicate, System.Event.start.injEq,
        List.not_mem_nil, reduceCtorEq, and_false, or_false] at hp
      rcases hp with rfl | rfl <;> exact Sample.called_called _)
    (by decide +kernel)
  rw [decide_eq_true_eq] at hq
  obtain ⟨c, hc, -⟩ := Option.map_eq_some_iff.mp hq
  exact ⟨sys, c, hrun, hc, hq, (counters_track_messages Giftly.Sample.aes Giftly.Sample.cipher
    Sample.talk Sample.talk_ok sys hrun 501 c hc).1⟩

/-- The customer sends two messages at once. The first reads the conversation before the second
commits and writes it afterwards: one unread message is counted of two, and the time is that of the
older one. -/
theorem counters_lose_message :
    ChatOk Giftly.Sample.cipher Sample.talk ∧
    ∃ sys : ChatSystem Giftly.Sample.aes,
      System.Run (Called Giftly.Sample.aes Giftly.Sample.cipher)
        (System.always (ChatDb Giftly.Sample.aes) ChatRow (ChatSession Giftly.Sample.aes))
        (none, []) Sample.talk sys ∧
      Sample.atRest sys = true ∧ Sample.counters sys = some (0, 1, 10) ∧
      sys.db.unreadFrom 501 1 = 2 ∧
      (sys.db.messages.get? 802).map (·.createdAt) = some 11 := by
  refine ⟨Sample.talk_ok, ?_⟩
  obtain ⟨sys, hrun, hq⟩ := System.Run.exists_of_play
    (Called Giftly.Sample.aes Giftly.Sample.cipher)
    (System.always (ChatDb Giftly.Sample.aes) ChatRow (ChatSession Giftly.Sample.aes)) (none, [])
    Sample.talk
    ([.start (Sample.called (Sample.say 10 801 1 ['h', 'i'])),
      .start (Sample.called (Sample.say 11 802 1 ['y', 'o', 'u']))] ++
      List.replicate 3 (.step 0) ++ List.replicate 6 (.step 1) ++ List.replicate 3 (.step 0))
    (fun sys => Sample.atRest sys && Sample.counters sys = some (0, 1, 10) &&
      sys.db.unreadFrom 501 1 = 2 && (sys.db.messages.get? 802).map (·.createdAt) = some 11)
    (by
      intro p hp
      simp only [List.mem_append, List.mem_cons, List.mem_replicate, System.Event.start.injEq,
        List.not_mem_nil, reduceCtorEq, and_false, or_false] at hp
      rcases hp with rfl | rfl <;> exact Sample.called_called _)
    (by decide +kernel)
  simp only [Bool.and_eq_true, decide_eq_true_eq] at hq
  exact ⟨sys, hrun, hq.1.1.1, hq.1.1.2, hq.1.2, hq.2⟩

end Giftly.Chat
