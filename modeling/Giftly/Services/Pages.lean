import Giftly.Chat.Counters
import Giftly.Concurrency.Statement
import Giftly.Services.Receipt
import Giftly.Store.Keyset
import Giftly.Store.Outcome

/-!
# The pages of a ledger and of a conversation

`GET /me/transactions` and `GET /conversations/{id}/messages`: a page of rows, the newest first, and the
id of its last row as the cursor of the next page when the page is full. Both tables only grow, and
their rows keep `created_at` and `id`, so both are histories of `Giftly.Store.Keyset`.
-/

namespace Giftly

open Store (Ends Keyset Prog)

/-! ## The ledger of a wallet -/

/-- `TransactionResponse`. -/
structure TransactionResponse where
  id : Id
  amount : String
  type : TransactionType
  status : TransactionStatus
  balanceAfter : String
  createdAt : Time

/-- The response for a ledger row. -/
def TransactionResponse.ofEntry (t : Entry) : TransactionResponse where
  id := (ofLex t.2).2
  amount := ReceiptService.moneyStr t.1.amount
  type := t.1.type
  status := t.1.status
  balanceAfter := ReceiptService.moneyStr t.1.balanceAfter
  createdAt := (ofLex t.2).1

/-- What the rows of a page are sorted by. -/
def TransactionResponse.place (t : TransactionResponse) : Stamp := toLex (t.createdAt, t.id)

/-- `list_my_transactions`. -/
def listMyTransactions (actorId : Id) (limit : ℕ) (x : Dated) (cursor : Option Id) :
    Except Err (List TransactionResponse × Option Id) :=
  match x.1.wallets.find? fun _ w => w.userId = some actorId with
  | none => .error (.notFound "Wallet not found.")
  | some (walletId, _) =>
    let rows := WalletRepository.listTransactions x walletId limit cursor
    .ok (rows.map .ofEntry,
      if rows.length = limit then rows.getLast?.map fun t => (ofLex t.2).2 else none)

/-- The ledger of a wallet, in the states in which its pages are read: it is the wallet of the user,
every row has its stamp, ids are unique, and rows are only added. -/
structure LedgerHistory (actorId walletId : Id) (xs : List Dated) : Prop where
  wallet : ∀ x ∈ xs, ∃ w, (x.1.wallets.find? fun _ w => w.userId = some actorId) = some (walletId, w)
  stamped : ∀ x ∈ xs, x.2.length = x.1.transactions.length
  ids : ∀ x ∈ xs, (x.2.map fun s => (ofLex s).2).Nodup
  appends : xs.IsChain fun x y => x.1.transactions <+: y.1.transactions ∧ x.2 <+: y.2

/-- The ledger of a wallet as a history. -/
def ledger (walletId : Id) : Keyset Dated Entry Id Stamp where
  rows x := entries x walletId
  key := Prod.snd
  cursor t := (ofLex t.2).2
  anchor x id := x.2.find? fun s => (ofLex s).2 = id

variable {walletId actorId : Id} {x y : Dated} {xs : List Dated} {limit : ℕ}

/-- `list_transactions` returns a page of the wallet's rows. -/
theorem listTransactions_eq_page (x : Dated) (walletId : Id) (limit : ℕ) (cursor : Option Id) :
    WalletRepository.listTransactions x walletId limit cursor =
      (ledger walletId).page limit x cursor := by
  unfold WalletRepository.listTransactions Keyset.page
  split <;> rename_i h
  · rw [show cursor.bind ((ledger walletId).anchor x) = none from h]
    rfl
  · rw [show cursor.bind ((ledger walletId).anchor x) = some _ from h]
    rfl

/-- The stamp of a row is one of those that were drawn. -/
theorem stamp_mem {t : Entry} (ht : t ∈ entries x walletId) : t.2 ∈ x.2 :=
  (List.of_mem_zip (List.mem_of_mem_filter ht)).2

/-- No two rows of a wallet have one stamp. -/
theorem ledger_keyed (hx : x.2.length = x.1.transactions.length)
    (hids : (x.2.map fun s => (ofLex s).2).Nodup) : (ledger walletId).Keyed x := by
  constructor
  · have hstamps : x.2.Nodup := List.Nodup.of_map _ hids
    have hzip : (x.1.transactions.zip x.2).map Prod.snd = x.2 := List.map_snd_zip hx.le
    rw [← hzip] at hstamps
    exact hstamps.sublist (List.filter_sublist.map Prod.snd)
  · intro t ht
    have hmem := stamp_mem ht
    -- The stamp that is found has the id of the row, and ids are unique.
    cases hfound : (ledger walletId).anchor x ((ledger walletId).cursor t) with
    | none =>
      have hnot := List.find?_eq_none.mp hfound t.2 hmem
      exact absurd (decide_eq_true rfl) hnot
    | some s =>
      have hid : (ofLex s).2 = (ofLex t.2).2 := of_decide_eq_true (List.find?_some hfound :)
      have hs : s ∈ x.2 := List.mem_of_find?_eq_some hfound
      rw [List.inj_on_of_nodup_map hids hs hmem hid]
      rfl

/-- The rows of a wallet stay as the ledger grows. -/
theorem ledger_grows (hx : x.2.length = x.1.transactions.length)
    (htransactions : x.1.transactions <+: y.1.transactions) (hstamps : x.2 <+: y.2) :
    (ledger walletId).Grows x y := by
  obtain ⟨ts, hts⟩ := htransactions
  obtain ⟨ss, hss⟩ := hstamps
  constructor
  · intro t ht
    refine ⟨t, ?_, rfl, rfl⟩
    show t ∈ entries y walletId
    rw [entries, ← hts, ← hss, List.zip_append hx.symm, List.filter_append]
    exact List.mem_append_left _ ht
  · intro id s hs
    show y.2.find? _ = some s
    rw [← hss, List.find?_append, show x.2.find? (fun s => (ofLex s).2 = id) = some s from hs]
    rfl

/-- The states of a growing ledger are a history. -/
theorem LedgerHistory.history (h : LedgerHistory actorId walletId xs) :
    (ledger walletId).History xs := by
  constructor
  · intro x hx
    exact ledger_keyed (h.stamped x hx) (h.ids x hx)
  · have hstamped := h.stamped
    have happends := h.appends
    clear h
    induction xs with
    | nil => exact .nil
    | cons x xs ih =>
      refine (ih (fun y hy => hstamped y (List.mem_cons_of_mem x hy)) happends.of_cons).cons ?_
      intro y hy
      obtain ⟨htransactions, hstamps⟩ := happends.rel_head? hy
      exact ledger_grows (hstamped x List.mem_cons_self) htransactions hstamps

/-- The route returns a page and the cursor of the next one. -/
theorem listMyTransactions_eq (h : LedgerHistory actorId walletId xs) (hx : x ∈ xs)
    (cursor : Option Id) : listMyTransactions actorId limit x cursor =
      .ok (((ledger walletId).page limit x cursor).map .ofEntry,
        (ledger walletId).next limit ((ledger walletId).page limit x cursor)) := by
  obtain ⟨w, hw⟩ := h.wallet x hx
  unfold listMyTransactions
  rw [hw]
  dsimp only
  rw [listTransactions_eq_page]
  rfl

/-! ## The messages of a conversation -/

namespace Chat

variable {aes : Aesgcm}

/-- `ChatRepository.list_messages`: the rows with their ids. The page begins after the message
`before_id`, when there is one. -/
def ChatRepository.listMessages (d : ChatDb aes) (conversationId : Id) (limit : ℕ)
    (beforeId : Option Id) : List (Id × Message aes) :=
  let query := d.messages.rows.filter fun r => r.2.conversationId = conversationId
  let newest := fun rows : List (Id × Message aes) =>
    rows.insertionSort fun a b => b.2.place b.1 ≤ a.2.place a.1
  match beforeId.bind fun id => (d.messages.get? id).map fun m => m.place id with
  | none => (newest query).take limit
  | some anchor => (newest (query.filter fun r => r.2.place r.1 < anchor)).take limit

/-- `_decrypt_content`, with its errors. -/
def ChatService.openContent (cipher : FieldCipher) (conversationId : Id) (blob : Blob aes) :
    Except Err Text :=
  match cipher.keys blob.version, decryptContent cipher conversationId blob with
  | none, _ => .error (.crypto s!"No key for version {blob.version}.")
  | some _, none => .error (.crypto "Decryption failed (bad tag, key, or AAD).")
  | some _, some text => .ok text

/-- `_to_dto`. -/
def ChatService.toDto (id : Id) (m : Message aes) (content : Text) : ChatMessage where
  id := id
  conversationId := m.conversationId
  senderId := m.senderId
  messageType := m.messageType
  content := content
  isRead := m.isRead
  createdAt := m.createdAt

/-- `ChatService.list_messages`. -/
def ChatService.listMessages (cipher : FieldCipher) (d : ChatDb aes) (conversationId actorId : Id)
    (limit : ℕ) (beforeId : Option Id) : Except Err (List ChatMessage) :=
  match (d.conversations.get? conversationId).filter fun c =>
      c.customerId = actorId || c.courierId = actorId with
  | none => .error (.notFound "Conversation not found.")
  | some _ =>
    (ChatRepository.listMessages d conversationId limit beforeId).mapM fun r => do
      let content ← openContent cipher conversationId r.2.contentEncrypted
      return toDto r.1 r.2 content

/-- The route `list_messages`. -/
def listMessages (cipher : FieldCipher) (conversationId actorId : Id) (limit : ℕ) (d : ChatDb aes)
    (cursor : Option Id) : Except Err (List ChatService.ChatMessage × Option Id) := do
  let items ← ChatService.listMessages cipher d conversationId actorId limit cursor
  return (items, if items.length = limit then items.getLast?.map (·.id) else none)

/-- What the messages of a page are sorted by. -/
def ChatService.ChatMessage.place (m : ChatMessage) : Time ×ₗ Id := toLex (m.createdAt, m.id)

/-- A conversation, in the states in which its pages are read: the user takes part in it, every
message can be decrypted, and messages are only added, or marked as read. -/
structure MessageHistory (cipher : FieldCipher) (conversationId actorId : Id)
    (ds : List (ChatDb aes)) : Prop where
  participates : ∀ d ∈ ds, ∃ c, d.conversations.get? conversationId = some c ∧
    (c.customerId = actorId ∨ c.courierId = actorId)
  readable : ∀ d ∈ ds, ∀ id m, d.messages.get? id = some m → m.conversationId = conversationId →
    ∃ text, ChatService.openContent cipher conversationId m.contentEncrypted = .ok text
  appends : ds.IsChain fun d d' => ∀ id m, d.messages.get? id = some m →
    ∃ m', d'.messages.get? id = some m' ∧ m'.conversationId = m.conversationId ∧
      m'.createdAt = m.createdAt

/-- The messages of a conversation as a history. -/
def conversation (aes : Aesgcm) (conversationId : Id) :
    Keyset (ChatDb aes) (Id × Message aes) Id (Time ×ₗ Id) where
  rows d := d.messages.rows.filter fun r => r.2.conversationId = conversationId
  key r := r.2.place r.1
  cursor := Prod.fst
  anchor d id := (d.messages.get? id).map fun m => m.place id

variable {cipher : FieldCipher} {conversationId : Id} {d d' : ChatDb aes} {ds : List (ChatDb aes)}

/-- `list_messages` returns a page of the conversation's messages. -/
theorem listMessages_eq_page (d : ChatDb aes) (conversationId : Id) (limit : ℕ)
    (cursor : Option Id) : ChatRepository.listMessages d conversationId limit cursor =
      (conversation aes conversationId).page limit d cursor := by
  unfold ChatRepository.listMessages Keyset.page
  split <;> rename_i h
  · rw [show cursor.bind ((conversation aes conversationId).anchor d) = none from h]
    rfl
  · rw [show cursor.bind ((conversation aes conversationId).anchor d) = some _ from h]
    rfl

/-- The messages of a conversation. -/
theorem mem_conversation {r : Id × Message aes} (hr : r ∈ (conversation aes conversationId).rows d) :
    d.messages.get? r.1 = some r.2 ∧ r.2.conversationId = conversationId := by
  obtain ⟨hmem, hid⟩ := List.mem_filter.mp hr
  exact ⟨Store.Table.get?_eq_some.mpr hmem, of_decide_eq_true hid⟩

/-- No two messages of a conversation have one place. -/
theorem conversation_keyed (d : ChatDb aes) : (conversation aes conversationId).Keyed d := by
  constructor
  · have hids : (((conversation aes conversationId).rows d).map Prod.fst).Nodup :=
      d.messages.nodup.sublist (List.filter_sublist.map Prod.fst)
    have hplaces : ((((conversation aes conversationId).rows d).map
        (conversation aes conversationId).key).map fun p => (ofLex p).2).Nodup := by
      rw [List.map_map]
      exact hids
    exact List.Nodup.of_map _ hplaces
  · intro r hr
    show (d.messages.get? r.1).map _ = _
    rw [(mem_conversation hr).1]
    rfl

/-- The messages of a conversation stay, with their places, when none changes its time. -/
theorem conversation_grows (h : ∀ id m, d.messages.get? id = some m →
    ∃ m', d'.messages.get? id = some m' ∧ m'.conversationId = m.conversationId ∧
      m'.createdAt = m.createdAt) : (conversation aes conversationId).Grows d d' := by
  constructor
  · intro r hr
    obtain ⟨hget, hconversation⟩ := mem_conversation hr
    obtain ⟨m', hget', hsame, htime⟩ := h r.1 r.2 hget
    refine ⟨(r.1, m'), List.mem_filter.mpr ⟨Store.Table.get?_eq_some.mp hget', ?_⟩, ?_, rfl⟩
    · exact decide_eq_true (hsame.trans hconversation)
    · show toLex (m'.createdAt, r.1) = toLex (r.2.createdAt, r.1)
      rw [htime]
  · intro id k hk
    obtain ⟨m, hget, rfl⟩ := Option.map_eq_some_iff.mp hk
    obtain ⟨m', hget', -, htime⟩ := h id m hget
    show (d'.messages.get? id).map _ = _
    rw [hget', Option.map_some, Message.place, Message.place, htime]

/-- The states of a growing conversation are a history. -/
theorem MessageHistory.history (h : MessageHistory cipher conversationId actorId ds) :
    (conversation aes conversationId).History ds :=
  ⟨fun d _ => conversation_keyed d, h.appends.imp fun _ _ hgrows => conversation_grows hgrows⟩

/-- The message that a page shows for a row that can be decrypted. -/
def dto (cipher : FieldCipher) (conversationId : Id) (r : Id × Message aes) :
    ChatService.ChatMessage :=
  ChatService.toDto r.1 r.2
    ((ChatService.openContent cipher conversationId r.2.contentEncrypted).toOption.getD [])

/-- The route returns a page, decrypted, and the cursor of the next one. -/
theorem listMessages_eq (h : MessageHistory cipher conversationId actorId ds) (hd : d ∈ ds)
    (cursor : Option Id) : listMessages cipher conversationId actorId limit d cursor =
      .ok (((conversation aes conversationId).page limit d cursor).map (dto cipher conversationId),
        (conversation aes conversationId).next limit
          ((conversation aes conversationId).page limit d cursor)) := by
  obtain ⟨c, hc, hmember⟩ := h.participates d hd
  have hfound : (d.conversations.get? conversationId).filter
      (fun c => c.customerId = actorId || c.courierId = actorId) = some c := by
    rw [hc, Option.filter_some, if_pos (by simpa using hmember)]
  -- Every row of the page decrypts, so the page has as many messages as rows.
  have hrows : ((conversation aes conversationId).page limit d cursor).mapM (fun r => do
      let content ← ChatService.openContent cipher conversationId r.2.contentEncrypted
      return ChatService.toDto r.1 r.2 content) =
      (.ok (((conversation aes conversationId).page limit d cursor).map (dto cipher conversationId)) :
        Except Err _) := by
    apply Store.mapM_eq_ok
    intro r hr
    rw [Keyset.page_eq] at hr
    obtain ⟨hget, hconversation⟩ :=
      mem_conversation (Keyset.mem_after.mp (List.mem_of_mem_take hr)).1
    obtain ⟨text, htext⟩ := h.readable d hd r.1 r.2 hget hconversation
    rw [dto, htext]
    rfl
  unfold listMessages ChatService.listMessages
  rw [hfound]
  dsimp only
  rw [listMessages_eq_page, hrows]
  show Except.ok _ = Except.ok _
  rw [List.length_map, List.getLast?_map, Option.map_map]
  rfl

/-! ### The calls of the chat -/

variable {d₁ d₂ d₃ : ChatDb aes}

/-- Every message can be decrypted. -/
def ChatDb.Readable (cipher : FieldCipher) (d : ChatDb aes) : Prop :=
  ∀ id m, d.messages.get? id = some m →
    ∃ text, ChatService.openContent cipher m.conversationId m.contentEncrypted = .ok text

/-- What was encrypted for a conversation is opened there. -/
theorem openContent_encryptContent (cipher : FieldCipher) (iv : Bytes) (conversationId : Id)
    (text : Text) : ChatService.openContent cipher conversationId
      (ChatService.encryptContent cipher iv conversationId text : Blob aes) = .ok text := by
  obtain ⟨key, hkey⟩ := Option.isSome_iff_exists.mp cipher.active
  have hversion : (ChatService.encryptContent cipher iv conversationId text : Blob aes).version =
      cipher.activeVersion := rfl
  unfold ChatService.openContent ChatService.decryptContent
  rw [hversion, hkey, ChatService.encryptContent, FieldCipher.decrypt_encrypt]

/-- What a call does to the tables: messages and conversations stay, with their members and times,
and what could be read can still be read. -/
structure ChatDb.Evolves (cipher : FieldCipher) (d d' : ChatDb aes) : Prop where
  readable : d.Readable cipher → d'.Readable cipher
  messages : d.messages.Extends (fun m => (m.conversationId, m.createdAt)) d'.messages
  conversations : d.conversations.Extends (fun c => (c.customerId, c.courierId)) d'.conversations

namespace ChatDb.Evolves

/-- Nothing happens to the messages. -/
theorem refl : d.Evolves cipher d := ⟨id, .refl, .refl⟩

/-- Messages that stay over two steps. -/
theorem trans (h : d₁.Evolves cipher d₂) (h' : d₂.Evolves cipher d₃) : d₁.Evolves cipher d₃ :=
  ⟨h'.readable ∘ h.readable, h.messages.trans h'.messages, h.conversations.trans h'.conversations⟩

/-- A message that can be decrypted is added. -/
theorem insertMessage (mid : Id) (m : Message aes) (hm : ∃ text,
    ChatService.openContent cipher m.conversationId m.contentEncrypted = .ok text) :
    d.Evolves cipher (d.insertMessage mid m) where
  readable h := by
    intro id m' hm'
    have hget : (d.messages.get? id).or (if id = mid then some m else none) = some m' := by
      rw [← Store.Table.get?_insert]
      exact hm'
    rcases Option.or_eq_some_iff.mp hget with hold | ⟨-, hnew⟩
    · exact h id m' hold
    · split_ifs at hnew
      exact Option.some.inj hnew ▸ hm
  messages := .insert mid m
  conversations := .refl

/-- Columns of a conversation are written, but not its members. -/
theorem updateConversation (id : Id) {f : Conversation aes → Conversation aes}
    (hf : ∀ c, (f c).customerId = c.customerId ∧ (f c).courierId = c.courierId) :
    d.Evolves cipher (d.updateConversation id f) where
  readable h := h
  messages := .refl
  conversations := .update id fun c => Prod.ext (hf c).1 (hf c).2

/-- Messages are marked as read. -/
theorem readMessages (ids : List Id) (conversationId otherId : Id) (readAt : Time) :
    d.Evolves cipher (d.readMessages ids conversationId otherId readAt) where
  readable h := by
    intro id m hm
    simp only [ChatDb.readMessages, Store.Table.get?_mapRows, Option.map_eq_some_iff] at hm
    obtain ⟨m', hm', rfl⟩ := hm
    split_ifs <;> exact h id m' hm'
  messages := .mapRows fun id m => by split_ifs <;> rfl
  conversations := .refl

end ChatDb.Evolves

/-- A call of the chat lets the tables evolve. -/
theorem ends_call (cipher : FieldCipher) (x : Call) (d : ChatDb aes) :
    Ends (x.tx cipher) (fun _ _ d' => d.Evolves cipher d') none d := by
  cases x with
  | sendMessage now draws conversationId senderId text =>
    simp only [Call.tx, Prog.void, ChatService.sendMessage, ChatService.requireConversation,
      ChatRepository.getForActor, Store.ends_bind, Store.ends_select, Store.ends_orm,
      Store.ends_ret]
    split
    · trivial
    · -- The new message decrypts to its text, and the conversation keeps its parties.
      simp only [ChatRepository.addMessage, ChatRepository.flushConversation, Store.ends_bind,
        Store.ends_flush, Prog.pure_eq, Store.ends_ret]
      intro _ _
      exact (ChatDb.Evolves.insertMessage _ _ ⟨text, openContent_encryptContent ..⟩).trans
        (.updateConversation _ fun _ => ⟨rfl, rfl⟩)
  | markRead now conversationId actorId =>
    simp only [Call.tx, ChatService.markRead, ChatService.requireConversation,
      ChatRepository.getForActor, Store.ends_bind, Store.ends_select, Store.ends_orm,
      Store.ends_ret]
    split
    · trivial
    · simp only [ChatRepository.markRead, ChatRepository.flushConversation, Prog.pure_eq,
        Store.ends_bind, Store.ends_when, Store.ends_flush, Store.ends_query, Store.ends_ret]
      constructor
      · -- The counter was not zero, so it is written first.
        intro _ _ _
        refine ChatDb.Evolves.trans (.updateConversation conversationId fun _ => ?_) (.readMessages ..)
        exact ⟨rfl, rfl⟩
      · intro _ _
        exact .readMessages ..

/-- The tables before the first of some calls, and after each of them. A call that raises is rolled
back. -/
def states (cipher : FieldCipher) (d : ChatDb aes) : List Call → List (ChatDb aes)
  | [] => [d]
  | x :: xs => d :: states cipher ((x.tx cipher).commit none d) xs

/-- One call after another. -/
theorem evolves_commit (cipher : FieldCipher) (x : Call) (d : ChatDb aes) :
    d.Evolves cipher ((x.tx cipher).commit none d) :=
  Store.commit_of_ends .refl (ends_call cipher x d)

/-- Every later state has evolved from the first, and each from the one before. -/
theorem states_evolve (cipher : FieldCipher) : ∀ (xs : List Call) (d : ChatDb aes),
    (∀ d' ∈ states cipher d xs, d.Evolves cipher d') ∧
      (states cipher d xs).IsChain (ChatDb.Evolves cipher)
  | [], d => ⟨by simp [states, ChatDb.Evolves.refl], .singleton d⟩
  | x :: xs, d => by
    have hstep := evolves_commit cipher x d
    obtain ⟨hall, hchain⟩ := states_evolve cipher xs ((x.tx cipher).commit none d)
    constructor
    · intro d' hd'
      rcases List.mem_cons.mp hd' with rfl | hd'
      · exact .refl
      · exact hstep.trans (hall d' hd')
    · refine List.isChain_cons.mpr ⟨fun d' hd' => ?_, hchain⟩
      cases xs <;> obtain rfl := Option.some.inj hd' <;> exact hstep

/-- The states that calls of the chat go through are a history of each conversation: its members can
read every message, also the new ones, and no message goes away. -/
theorem messageHistory_states {conversationId actorId : Id} {c : Conversation aes}
    (hreadable : d.Readable cipher) (hc : d.conversations.get? conversationId = some c)
    (hmember : c.customerId = actorId ∨ c.courierId = actorId) (xs : List Call) :
    MessageHistory cipher conversationId actorId (states cipher d xs) := by
  obtain ⟨hall, hchain⟩ := states_evolve cipher xs d
  constructor
  · intro d' hd'
    obtain ⟨c', hc', hsame⟩ := (hall d' hd').conversations conversationId c hc
    obtain ⟨hcustomer, hcourier⟩ := Prod.mk.inj hsame
    exact ⟨c', hc', by rwa [hcustomer, hcourier]⟩
  · intro d' hd' id m hm hid
    exact hid ▸ (hall d' hd').readable hreadable id m hm
  · refine hchain.imp fun d₁ d₂ h id m hm => ?_
    obtain ⟨m', hm', hsame⟩ := h.messages id m hm
    exact ⟨m', hm', (Prod.mk.inj hsame).1, (Prod.mk.inj hsame).2⟩

namespace Sample

/-- Two messages of the same time. -/
def twoSaid : ChatDb Giftly.Sample.aes :=
  ((say 10 802 2 ['y', 'e', 's']).tx Giftly.Sample.cipher).commit none
    (((say 10 801 1 ['h', 'i']).tx Giftly.Sample.cipher).commit none talk)

/-- A third one, whose id puts it below the others, and both members read. -/
def laterCalls : List Call :=
  [say 10 800 1 ['o', 'k'], .markRead 12 501 2, .markRead 13 501 1]

/-- The ids that a traversal reads, one to a page. -/
def idsRead (ds : List (ChatDb Giftly.Sample.aes)) : Option (List Id × Bool) :=
  (Store.traverse (listMessages Giftly.Sample.cipher 501 1 1) ds none).toOption.map fun r =>
    (r.1.map (·.id), r.2)

/-- The states after the calls of the sample are a history. -/
theorem twoSaid_history : MessageHistory Giftly.Sample.cipher 501 1
    (states Giftly.Sample.cipher twoSaid laterCalls) := by
  have hevolves : talk.Evolves Giftly.Sample.cipher twoSaid :=
    (evolves_commit Giftly.Sample.cipher _ _).trans (evolves_commit Giftly.Sample.cipher _ _)
  have hempty : talk.Readable Giftly.Sample.cipher := by
    intro id m hm
    cases hm
  obtain ⟨c, hc, hsame⟩ := hevolves.conversations 501 ⟨1, 2, none, 0, 0, 0⟩ rfl
  exact messageHistory_states (hevolves.readable hempty) hc (.inl (Prod.mk.inj hsame).1) laterCalls

end Sample

end Chat

/-! ## Every row once -/

/-- Whoever follows the cursors of a ledger or of a conversation, from the first page on, reads every
row that was there at the start exactly once, while rows are added. -/
theorem pages_cover :
    (∀ (actorId walletId : Id) (limit : ℕ) (x : Dated) (xs : List Dated), 1 ≤ limit →
      LedgerHistory actorId walletId (x :: xs) →
      Keyset.Covered (listMyTransactions actorId limit) TransactionResponse.place
        ((entries x walletId).map Prod.snd) (x :: xs)) ∧
    ∀ (aes : Aesgcm) (cipher : FieldCipher) (conversationId actorId : Id) (limit : ℕ)
      (d : Chat.ChatDb aes) (ds : List (Chat.ChatDb aes)), 1 ≤ limit →
      Chat.MessageHistory cipher conversationId actorId (d :: ds) →
      Keyset.Covered (Chat.listMessages cipher conversationId actorId limit)
        Chat.ChatService.ChatMessage.place
        ((d.messages.rows.filter fun r => r.2.conversationId = conversationId).map
          fun r => r.2.place r.1) (d :: ds) := by
  constructor
  · intro actorId walletId limit x xs hlimit h
    exact Keyset.covered hlimit h.history (fun _ => rfl)
      fun y hy cursor => listMyTransactions_eq h hy cursor
  · intro aes cipher conversationId actorId limit d ds hlimit h
    exact Keyset.covered hlimit h.history (fun _ => rfl)
      fun d' hd' cursor => Chat.listMessages_eq h hd' cursor

namespace Sample

/-- A top-up of the customer's wallet. -/
def topupRow (amount balanceAfter : ℤ) : Transaction where
  walletId := 11
  amount := amount
  type := .topup
  status := .settled
  correlationId := 301
  balanceAfter := balanceAfter
  idempotencyKey := none
  referenceOrderId := none
  referenceInvoiceId := none
  referenceIntentId := none
  description := none

/-- Two top-ups of the same time. -/
def ties : Dated :=
  ({ twoTopups with transactions := [topupRow 10000 10000, topupRow 5000 15000] },
    [toLex (5, 71), toLex (5, 72)])

/-- A third one, whose id puts it below the others. -/
def tiesLater : Dated :=
  ({ twoTopups with
      transactions := [topupRow 10000 10000, topupRow 5000 15000, topupRow 7000 22000] },
    [toLex (5, 71), toLex (5, 72), toLex (5, 70)])

/-- The ids that a traversal reads, one to a page. -/
def idsRead (xs : List Dated) : Option (List Id × Bool) :=
  (Store.traverse (listMyTransactions 1 1) xs none).toOption.map fun r => (r.1.map (·.id), r.2)

/-- The ledgers of the sample are a history. -/
theorem ties_history : LedgerHistory 1 11 [ties, tiesLater, tiesLater, tiesLater] where
  wallet x hx := by
    simp only [List.mem_cons, List.not_mem_nil, or_false] at hx
    rcases hx with rfl | rfl | rfl | rfl <;> exact ⟨_, rfl⟩
  stamped x hx := by
    simp only [List.mem_cons, List.not_mem_nil, or_false] at hx
    rcases hx with rfl | rfl | rfl | rfl <;> rfl
  ids x hx := by
    simp only [List.mem_cons, List.not_mem_nil, or_false] at hx
    rcases hx with rfl | rfl | rfl | rfl <;> decide
  appends := by
    have hadded : ties.1.transactions <+: tiesLater.1.transactions ∧ ties.2 <+: tiesLater.2 :=
      ⟨⟨[topupRow 7000 22000], rfl⟩, ⟨[toLex (5, 70)], rfl⟩⟩
    have hsame : tiesLater.1.transactions <+: tiesLater.1.transactions ∧
        tiesLater.2 <+: tiesLater.2 := ⟨List.prefix_rfl, List.prefix_rfl⟩
    exact .cons_cons hadded (.cons_cons hsame (.cons_cons hsame (.singleton _)))

end Sample

/-- Rows of one time, in pages of one row: of a ledger, and of a conversation whose members go on
writing and reading. -/
theorem pages_cover_ties :
    (Sample.idsRead [Sample.ties, Sample.tiesLater, Sample.tiesLater, Sample.tiesLater] =
      some ([72, 71, 70], true) ∧
    Keyset.Covered (listMyTransactions 1 1) TransactionResponse.place
      ((entries Sample.ties 11).map Prod.snd)
      [Sample.ties, Sample.tiesLater, Sample.tiesLater, Sample.tiesLater]) ∧
    Chat.Sample.idsRead (Chat.states Sample.cipher Chat.Sample.twoSaid Chat.Sample.laterCalls) =
      some ([802, 801, 800], true) ∧
    Keyset.Covered (Chat.listMessages Sample.cipher 501 1 1) Chat.ChatService.ChatMessage.place
      ((Chat.Sample.twoSaid.messages.rows.filter fun r => r.2.conversationId = 501).map
        fun r => r.2.place r.1)
      (Chat.states Sample.cipher Chat.Sample.twoSaid Chat.Sample.laterCalls) :=
  ⟨⟨by decide +kernel, pages_cover.1 1 11 1 Sample.ties [Sample.tiesLater, Sample.tiesLater,
    Sample.tiesLater] le_rfl Sample.ties_history⟩, by decide +kernel,
    pages_cover.2 Sample.aes Sample.cipher 501 1 1 _ _ le_rfl Chat.Sample.twoSaid_history⟩

end Giftly
