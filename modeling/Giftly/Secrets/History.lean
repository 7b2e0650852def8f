import Giftly.Secrets.Requests

/-!
# What the encrypted columns hold

The tables are a faithful account of the texts that were written (`Holds`): every request keeps it. So
whatever was written, and whenever the keys were rotated, a field reads as the text that it was last
given (`read_eq_text`).

A message is bound to its conversation and not to its id, so a ciphertext that is moved to another
field is opened under a context that is not its own, unless both are messages of one conversation. The
reader refuses it then, as long as the cipher is not fooled (`moved_refused_iff`).
-/

namespace Giftly

open Store (Table)

namespace Secrets

variable {e : AccountEnv} {a : Aead}

/-! ## One request -/

/-- A field holds a ciphertext of a text, written for its own context, that fits its column. -/
structure Entry (keys : ℕ → Option Bytes) (v : Vault a.aesgcm) (f : Field) (t : Text)
    (b : Blob a.aesgcm) : Prop where
  written : ∃ x, v.aad f = some x ∧ WrittenAs keys b x t
  fits : f.mutable = true → b.length ≤ 512

/-- The tables hold the texts. -/
def Holds (keys : ℕ → Option Bytes) (v : Vault a.aesgcm) (s : Texts) : Prop :=
  ∀ f, Option.Rel (Entry keys v f) (s f) (v.stored f)

variable {keys : ℕ → Option Bytes} {v v' : Vault a.aesgcm} {s : Texts} {w : Write e a}

/-- A field that is stored has a text. -/
theorem Holds.entry {f : Field} {b : Blob a.aesgcm} (h : Holds keys v s)
    (hb : v.stored f = some b) : ∃ t, s f = some t ∧ Entry keys v f t b := by
  have hf := h f
  rw [hb] at hf
  cases hs : s f with
  | none =>
    rw [hs] at hf
    cases hf
  | some t =>
    rw [hs] at hf
    exact ⟨t, rfl, Option.rel_some_some.mp hf⟩

/-- Tables that hold texts hold nothing but ciphertexts of the key map. -/
theorem Holds.sealed (h : Holds keys v s) : v.Sealed keys := by
  intro f b hb
  obtain ⟨t, -, hentry⟩ := h.entry hb
  obtain ⟨x, hx, hwritten⟩ := hentry.written
  exact ⟨x, hx, written_iff.mpr ⟨t, hwritten⟩⟩

/-- Tables that hold texts fit their columns. -/
theorem Holds.fits (h : Holds keys v s) : v.fits = true := by
  rw [Vault.fits_iff]
  intro f b hmutable hb
  obtain ⟨t, -, hentry⟩ := h.entry hb
  exact hentry.fits hmutable

/-- A request keeps the account of the texts when it writes the fields that it says, with what it
says, and leaves the others. -/
theorem Holds.apply (h : Holds keys v s)
    (hsame : ∀ f, (∀ p ∈ w.writes, f ≠ p.1) →
      v'.stored f = v.stored f ∧ ∀ b ∈ v.stored f, v'.aad f = v.aad f)
    (hwrites : ∀ p ∈ w.writes, Option.Rel (Entry keys v' p.1) p.2 (v'.stored p.1)) :
    Holds keys v' (w.apply s) := by
  intro f
  unfold Write.apply
  cases hlookup : w.writes.lookup f with
  -- The field is not written, and its blob and context are as before.
  | none =>
    have hf : ∀ p ∈ w.writes, f ≠ p.1 := by
      simpa [List.lookup_eq_none_iff] using hlookup
    obtain ⟨hstored, haad⟩ := hsame f hf
    have hrel := h f
    rw [hstored, Option.getD_none]
    cases hb : v.stored f with
    | none =>
      rw [hb] at hrel
      exact Store.rel_none hrel
    | some b =>
      rw [hb] at hrel
      apply Store.rel_imp hrel
      intro t b' _ hentry
      exact ⟨by rw [haad b hb]; exact hentry.written, hentry.fits⟩
  -- It is written, with the text that the account records.
  | some t =>
    obtain ⟨l₁, l₂, hl, -⟩ := List.lookup_eq_some_iff.mp hlookup
    have hmem : (f, t) ∈ w.writes := by simp [hl]
    rw [Option.getD_some]
    exact hwrites (f, t) hmem

/-- The documents that an account request writes are ciphertexts of the texts that it gives them. -/
theorem writes_account {c : FieldCipher} {now : Time} {x : Access.Request (e.over a c)}
    (hkeys : KeyMap keys) (hc : Within c keys) (hnonces : (Write.account c now x).Nonces) :
    (requestDocuments x = none ∧ (Write.account c now x).writes = []) ∨
      ∃ u d national passport, requestDocuments x = some (u, d) ∧
        (Write.account c now x).writes =
          [(.nationalId u, national), (.passportId u, passport)] ∧
        Option.Rel (fun t b => WrittenAs (a := a) keys b (profileAad "national_id" u) t) national
          (d.bind (·.1)) ∧
        Option.Rel (fun t b => WrittenAs (a := a) keys b (profileAad "passport_id" u) t) passport
          (d.bind (·.2)) := by
  -- A document is written under the key map when it is there, and not at all when it is not.
  have hencrypt : ∀ (column : String) (iv : Bytes) (u : Id) (document : Option Text),
      iv.length = ivBytes → Option.Rel
        (fun t b => WrittenAs (a := a) keys b (profileAad column u) t) (Write.documentText document)
        (AuthService.encryptDocument (e.over a c) column iv u document) := by
    intro column iv u document hiv
    unfold Write.documentText AuthService.encryptDocument
    obtain _ | t := document
    · exact .none
    · split_ifs
      · exact .some (hc.writtenAs hkeys hiv _ _)
      · exact .none
  cases x with
  | register r n token q =>
    obtain ⟨hnational, hpassport⟩ := hnonces
    cases hrole : q.role with
    -- Only a courier hands in documents.
    | customer | admin =>
      refine .inl ⟨?_, ?_⟩
      · simp only [requestDocuments, hrole]
      · simp only [Write.writes, hrole]
    | courier =>
      refine .inr ⟨n.userId, some
        (AuthService.encryptDocument (e.over a c) "national_id" n.nationalIv n.userId q.nationalId,
          AuthService.encryptDocument (e.over a c) "passport_id" n.passportIv n.userId q.passportId),
        Write.documentText q.nationalId, Write.documentText q.passportId, ?_, ?_,
        hencrypt _ _ _ _ hnational, hencrypt _ _ _ _ hpassport⟩
      · simp only [requestDocuments, hrole]
      · simp only [Write.writes, hrole]
  | createCourierProfile iv u city bio document type =>
    -- The document is one of the two, by its type.
    refine .inr ⟨u, _, _, _, rfl, rfl, ?_, ?_⟩
    · by_cases htype : type = "national_id"
      · simp only [htype, if_true]
        exact .some (hc.writtenAs hkeys hnonces _ _)
      · simp only [htype, if_false]
        exact .none
    · by_cases htype : type = "passport_id"
      · simp only [htype, if_true]
        exact .some (hc.writtenAs hkeys hnonces _ _)
      · simp only [htype, if_false]
        exact .none
  | deleteCourierProfile u => exact .inr ⟨u, _, _, _, rfl, rfl, .none, .none⟩
  | verifyOtp | refresh | createUser | updateUserProfile | setUserBanned | deleteUser
  | verifyCourier | updateCourierProfile | dashboardLogin | purgeExpired => exact .inl ⟨rfl, rfl⟩

/-- The national id of a courier, as the documents of its profile have it. -/
theorem stored_national (c : FieldCipher) (v : Vault a.aesgcm) (u : Id) :
    v.stored (.nationalId u) = (@documents (e.over a c) v.accounts u).bind (·.1) := by
  change (v.accounts.couriers.get? u).bind _ = ((v.accounts.couriers.get? u).map _).bind _
  cases v.accounts.couriers.get? u <;> rfl

/-- The passport id of a courier, as the documents of its profile have it. -/
theorem stored_passport (c : FieldCipher) (v : Vault a.aesgcm) (u : Id) :
    v.stored (.passportId u) = (@documents (e.over a c) v.accounts u).bind (·.2) := by
  change (v.accounts.couriers.get? u).bind _ = ((v.accounts.couriers.get? u).map _).bind _
  cases v.accounts.couriers.get? u <;> rfl

/-- An account request keeps the account of the texts. -/
theorem Holds.account {c : FieldCipher} {now : Time} {x : Access.Request (e.over a c)}
    {tokens : List (e.over a c).jwt.Token} {accounts : Accounts a.aesgcm} (h : Holds keys v s)
    (hkeys : KeyMap keys) (hc : Within c keys) (hnonces : (Write.account c now x).Nonces)
    (hx : x.handle now v.accounts = .ok (tokens, accounts)) :
    Holds keys { v with accounts } ((Write.account c now x).apply s) := by
  have hdocuments := documents_handle hx
  obtain ⟨hnone, hwrites⟩ | ⟨u, d, national, passport, hsome, hwrites, hnational, hpassport⟩ :=
    writes_account hkeys hc hnonces
  · -- The request writes no document, and every field is as it was.
    rw [hnone] at hdocuments
    have hsame : @documents (e.over a c) accounts = @documents (e.over a c) v.accounts := hdocuments
    apply h.apply
    · intro f _
      refine ⟨?_, fun b _ => rfl⟩
      cases f with
      | nationalId u => rw [stored_national (e := e) c, stored_national (e := e) c, hsame]
      | passportId u => rw [stored_passport (e := e) c, stored_passport (e := e) c, hsame]
      | preview | iban | content => rfl
    · rw [hwrites]
      exact List.forall_mem_nil _
  · -- It writes the documents of one courier, whose columns accepted the texts.
    rw [hsome] at hdocuments
    obtain ⟨hupdate, hfit⟩ := hdocuments
    -- The other couriers' documents stay.
    have hother : ∀ i, i ≠ u →
        @documents (e.over a c) accounts i = @documents (e.over a c) v.accounts i := by
      intro i hi
      rw [hupdate, Function.update_of_ne hi]
    have hnew : @documents (e.over a c) accounts u = d := by rw [hupdate, Function.update_self]
    have hlength : ∀ b : Blob a.aesgcm, b ∈ d.bind (·.1) ∨ b ∈ d.bind (·.2) → b.length ≤ 512 := by
      rintro b (hb | hb)
      · obtain ⟨y, hy, hyb⟩ := Option.bind_eq_some_iff.mp hb
        exact (hfit y hy).1 b hyb
      · obtain ⟨y, hy, hyb⟩ := Option.bind_eq_some_iff.mp hb
        exact (hfit y hy).2 b hyb
    apply h.apply
    · intro f hf
      rw [hwrites] at hf
      simp only [List.forall_mem_cons] at hf
      refine ⟨?_, fun b _ => rfl⟩
      cases f with
      | nationalId i =>
        have hi : i ≠ u := fun heq => hf.1 (by rw [heq])
        rw [stored_national (e := e) c, stored_national (e := e) c, hother i hi]
      | passportId i =>
        have hi : i ≠ u := fun heq => hf.2.1 (by rw [heq])
        rw [stored_passport (e := e) c, stored_passport (e := e) c, hother i hi]
      | preview | iban | content => rfl
    · rw [hwrites]
      simp only [List.forall_mem_cons]
      rw [stored_national (e := e) c, stored_passport (e := e) c, hnew]
      refine ⟨?_, ?_, List.forall_mem_nil _⟩
      · exact Store.rel_imp hnational fun t b hb hb' => ⟨⟨_, rfl, hb'⟩, fun _ => hlength b (.inl hb)⟩
      · exact Store.rel_imp hpassport fun t b hb hb' => ⟨⟨_, rfl, hb'⟩, fun _ => hlength b (.inr hb)⟩

/-- What a message that is sent writes to the chat. -/
structure Sent (c : FieldCipher) (draws : Chat.ChatService.Draws) (conversationId : Id) (text : Text)
    (d d' : Chat.ChatDb a.aesgcm) : Prop where
  fresh : d.messages.get? draws.messageId = none
  message : ∃ m, d'.messages = d.messages.insert draws.messageId m ∧
    m.conversationId = conversationId ∧
    m.contentEncrypted = Chat.ChatService.encryptContent c draws.contentIv conversationId text
  conversation : ∃ conv, d'.conversations = d.conversations.set conversationId conv ∧
    conv.lastMessagePreviewEncrypted =
      some (Chat.ChatService.encryptPreview c draws.previewIv conversationId text) ∧
    conv.check = none

/-- A send that passes writes its message and the preview of its conversation. -/
theorem sent_of_run {c : FieldCipher} {now : Time} {draws : Chat.ChatService.Draws}
    {conversationId senderId : Id} {text : Text} {d d' : Chat.ChatDb a.aesgcm} {u : Unit}
    {m : Option (Chat.Conversation a.aesgcm)}
    (h : ((Chat.Call.sendMessage now draws conversationId senderId text).tx c).run none d =
      .ok (u, m, d')) : Sent c draws conversationId text d d' := by
  have hends : Store.Ends ((Chat.Call.sendMessage now draws conversationId senderId text).tx c)
      (fun _ _ d' => Sent c draws conversationId text d d') none d := by
    unfold Chat.Call.tx Store.Prog.void Chat.ChatService.sendMessage
      Chat.ChatService.requireConversation Chat.ChatRepository.getForActor
      Chat.ChatRepository.addMessage Chat.ChatRepository.flushConversation
    simp only [Store.ends_bind, Store.ends_select, Store.ends_orm, Store.ends_ret]
    cases hfound : (d.conversations.get? conversationId).filter
        (fun c => c.customerId = senderId || c.courierId = senderId) with
    -- Who is not in the conversation gets an error, and no run ends.
    | none => exact (Store.ends_raise _).mpr trivial
    | some conversation =>
      dsimp only
      simp only [Store.ends_flush, Store.Prog.pure_eq, Store.ends_ret]
      intro hmessage hconversation
      have hrow : d.conversations.get? conversationId = some conversation :=
        (Option.filter_eq_some_iff.mp hfound).1
      -- The message's id was free, or the insert had failed.
      have hfresh : d.messages.get? draws.messageId = none := by
        by_contra hsome
        rw [if_pos (Option.isSome_iff_ne_none.mpr hsome)] at hmessage
        cases hmessage
      -- The conversation's row is updated in place.
      have hset : ∀ message f,
          ((d.insertMessage draws.messageId message).updateConversation conversationId f).conversations =
            d.conversations.set conversationId (f conversation) :=
        fun message f => Table.update_eq_set hrow rfl
      refine ⟨hfresh, ⟨_, rfl, rfl, rfl⟩, _, hset _ _, rfl, ?_⟩
      have hafter : ∀ message,
          (d.insertMessage draws.messageId message).conversations.get? conversationId =
            some conversation := fun _ => hrow
      rw [hafter] at hconversation
      exact hconversation
  exact hends.of_run h

/-- Reading the messages of a conversation writes no text. -/
structure SameTexts (d d' : Chat.ChatDb a.aesgcm) : Prop where
  preview : ∀ id, (d'.conversations.get? id).bind (·.lastMessagePreviewEncrypted) =
    (d.conversations.get? id).bind (·.lastMessagePreviewEncrypted)
  content : ∀ mid, (d'.messages.get? mid).map (fun m => (m.conversationId, m.contentEncrypted)) =
    (d.messages.get? mid).map fun m => (m.conversationId, m.contentEncrypted)

/-- Texts that stay over two steps. -/
theorem SameTexts.trans {d₁ d₂ d₃ : Chat.ChatDb a.aesgcm} (h₁ : SameTexts d₁ d₂)
    (h₂ : SameTexts d₂ d₃) : SameTexts d₁ d₃ where
  preview id := (h₂.preview id).trans (h₁.preview id)
  content mid := (h₂.content mid).trans (h₁.content mid)

/-- Reading messages leaves their texts. -/
theorem sameTexts_of_run {c : FieldCipher} {now : Time} {conversationId actorId : Id}
    {d d' : Chat.ChatDb a.aesgcm} {u : Unit} {m : Option (Chat.Conversation a.aesgcm)}
    (h : ((Chat.Call.markRead now conversationId actorId).tx c).run none d = .ok (u, m, d')) :
    SameTexts d d' := by
  -- The reader's counter is in the same row as the preview, which it leaves alone.
  have hupdate : ∀ (d : Chat.ChatDb a.aesgcm) (loaded assigned : Chat.Conversation a.aesgcm),
      SameTexts d (d.updateConversation conversationId (loaded.assignUnread assigned)) := by
    intro d loaded assigned
    refine ⟨fun id => ?_, fun mid => rfl⟩
    change ((d.conversations.update conversationId _).get? id).bind _ = _
    rw [Table.get?_update]
    split_ifs
    · rw [Option.bind_map]
      rfl
    · rfl
  -- So are the read marks and the content.
  have hread : ∀ (d : Chat.ChatDb a.aesgcm) (ids : List Id) (otherId : Id),
      SameTexts d (d.readMessages ids conversationId otherId now) := by
    intro d ids otherId
    refine ⟨fun id => rfl, fun mid => ?_⟩
    change ((d.messages.mapRows _).get? mid).map _ = _
    rw [Table.get?_mapRows, Option.map_map]
    congr 1
    funext message
    dsimp only [Function.comp_apply]
    split_ifs <;> rfl
  have hends : Store.Ends ((Chat.Call.markRead now conversationId actorId).tx c)
      (fun _ _ d' => SameTexts d d') none d := by
    unfold Chat.Call.tx Chat.ChatService.markRead
      Chat.ChatService.requireConversation Chat.ChatRepository.getForActor
      Chat.ChatRepository.markRead Chat.ChatRepository.flushConversation
    simp only [Store.ends_bind, Store.ends_select, Store.ends_orm, Store.ends_ret]
    cases hfound : (d.conversations.get? conversationId).filter
        (fun c => c.customerId = actorId || c.courierId = actorId) with
    | none => exact (Store.ends_raise _).mpr trivial
    | some conversation =>
      dsimp only
      simp only [Store.ends_flush, Store.Prog.pure_eq, Store.ends_ret, Store.ends_when, Store.ends_query]
      constructor
      · intro _ _ _
        exact (hupdate d _ _).trans (hread _ _ _)
      · intro _ _
        exact hread d _ _
  exact hends.of_run h

/-- The preview of a conversation that was flushed fits its column. -/
theorem preview_le {conv : Chat.Conversation a.aesgcm} {b : Blob a.aesgcm}
    (hcheck : conv.check = none) (hb : conv.lastMessagePreviewEncrypted = some b) :
    b.length ≤ 512 := by
  unfold Chat.Conversation.check at hcheck
  by_contra hlength
  have hfits : (conv.lastMessagePreviewEncrypted.all fun b => b.length ≤ 512) = false := by
    simpa [hb] using hlength
  rw [hfits, Bool.false_and, Bool.false_and, if_neg Bool.false_ne_true] at hcheck
  cases hcheck

/-- A new message, as its content and its context are read. -/
theorem content_new {mid : Id} {m : Chat.Message a.aesgcm} {d : Chat.ChatDb a.aesgcm}
    (hfresh : v.chat.messages.get? mid = none) (hd : d.messages = v.chat.messages.insert mid m) :
    Vault.stored { v with chat := d } (.content mid) = some m.contentEncrypted ∧
      Vault.aad { v with chat := d } (.content mid) =
        some (Chat.ChatService.contentAad m.conversationId) := by
  have hnew : d.messages.get? mid = some m := by rw [hd, Table.get?_insert_self _ _ hfresh]
  exact ⟨Option.map_eq_some_iff.mpr ⟨m, hnew, rfl⟩, Option.map_eq_some_iff.mpr ⟨m, hnew, rfl⟩⟩

/-- The other messages are as before. -/
theorem content_old {mid j : Id} {m : Chat.Message a.aesgcm} {d : Chat.ChatDb a.aesgcm}
    (hd : d.messages = v.chat.messages.insert mid m) (hj : j ≠ mid) :
    Vault.stored { v with chat := d } (.content j) = v.stored (.content j) ∧
      Vault.aad { v with chat := d } (.content j) = v.aad (.content j) := by
  have hget : d.messages.get? j = v.chat.messages.get? j := by
    rw [hd, Table.get?_insert_ne _ _ hj]
  constructor
  · change (d.messages.get? j).map _ = _
    rw [hget]
    rfl
  · change (d.messages.get? j).map _ = _
    rw [hget]
    rfl

/-- A message that is sent keeps the account of the texts. -/
theorem Holds.sent {c : FieldCipher} {now : Time} {draws : Chat.ChatService.Draws}
    {conversationId senderId : Id} {text : Text} {d : Chat.ChatDb a.aesgcm} (h : Holds keys v s)
    (hkeys : KeyMap keys) (hc : Within c keys) (hcontent : draws.contentIv.length = ivBytes)
    (hpreview : draws.previewIv.length = ivBytes)
    (hsent : Sent c draws conversationId text v.chat d) : Holds keys { v with chat := d }
      ((Write.chat c (.sendMessage now draws conversationId senderId text) : Write e a).apply s) := by
  obtain ⟨m, hmessages, hconversation, hm⟩ := hsent.message
  obtain ⟨conv, hconversations, hconv, hcheck⟩ := hsent.conversation
  apply h.apply
  · -- Only the message and its conversation's preview are written.
    intro f hf
    simp only [Write.writes, List.forall_mem_cons] at hf
    obtain ⟨hcontent, hpreview, -⟩ := hf
    cases f with
    | nationalId | passportId | iban => exact ⟨rfl, fun b _ => rfl⟩
    | preview id =>
      have hid : id ≠ conversationId := fun heq => hpreview (by rw [heq])
      have hget : d.conversations.get? id = v.chat.conversations.get? id := by
        rw [hconversations, Table.get?_set, if_neg hid]
      refine ⟨?_, fun b _ => rfl⟩
      change (d.conversations.get? id).bind _ = _
      rw [hget]
      rfl
    | content mid =>
      obtain ⟨hstored, haad⟩ :=
        content_old hmessages fun heq : mid = draws.messageId => hcontent (by rw [heq])
      exact ⟨hstored, fun b _ => haad⟩
  · simp only [Write.writes, List.forall_mem_cons]
    refine ⟨?_, ?_, List.forall_mem_nil _⟩
    · -- The new message, under the context of its conversation.
      obtain ⟨hstored, haad⟩ := content_new hsent.fresh hmessages
      rw [hconversation] at haad
      rw [hstored, hm]
      exact .some ⟨⟨_, haad, hc.writtenAs hkeys hcontent _ _⟩,
        fun hf => absurd hf Bool.false_ne_true⟩
    · have hset : d.conversations.get? conversationId = some conv := by
        rw [hconversations, Table.get?_set, if_pos rfl]
      have hstored : Vault.stored { v with chat := d } (.preview conversationId) =
          some (Chat.ChatService.encryptPreview c draws.previewIv conversationId text) :=
        Option.bind_eq_some_iff.mpr ⟨conv, hset, hconv⟩
      rw [hstored]
      exact .some ⟨⟨_, rfl, hc.writtenAs hkeys hpreview _ _⟩, fun _ => preview_le hcheck hconv⟩

/-- Reading messages keeps the account of the texts. -/
theorem Holds.sameTexts {d : Chat.ChatDb a.aesgcm} (h : Holds keys v s)
    (hsame : SameTexts v.chat d) (hwrites : w.writes = []) :
    Holds keys { v with chat := d } (w.apply s) := by
  apply h.apply
  · intro f _
    cases f with
    | nationalId | passportId | iban => exact ⟨rfl, fun b _ => rfl⟩
    | preview id => exact ⟨hsame.preview id, fun b _ => rfl⟩
    | content mid =>
      have hstored := congrArg (Option.map Prod.snd) (hsame.content mid)
      have haad := congrArg (Option.map fun m => Chat.ChatService.contentAad m.1) (hsame.content mid)
      simp only [Option.map_map] at hstored haad
      exact ⟨hstored, fun b _ => haad⟩
  · rw [hwrites]
    exact List.forall_mem_nil _

/-- A rotation keeps the account of the texts. -/
theorem Holds.rotated {c : FieldCipher} {ivs : Field → Bytes} {report : RotationReport}
    (h : Holds keys v s) (hkeys : KeyMap keys) (hc : Within c keys)
    (hivs : ∀ f, (ivs f).length = ivBytes)
    (hrotate : KeyRotationService.rotate c a ivs v = .ok (report, v')) : Holds keys v' s := by
  obtain ⟨hfits, hmessages, hkeeps⟩ := rotate_ok hkeys hc hivs hrotate
  rw [Vault.fits_iff] at hfits
  intro f
  obtain hf | hf : f.mutable = true ∨ f.mutable = false := by
    cases f.mutable <;> simp
  · -- A mutable field is renewed under the same context.
    obtain ⟨x, hx, -⟩ := Vault.stored_renewed (a := a) hf
    apply Store.rel_comp (h f) (hkeeps f x hf (hx v))
    intro t b b' hb' hentry hkept
    obtain ⟨y, hy, hwritten⟩ := hentry.written
    obtain rfl := Option.some.inj ((hx v).symm.trans hy)
    exact ⟨⟨x, hx v', hkept t hwritten⟩, fun _ => hfits f b' hf hb'⟩
  · -- Messages are never rotated.
    cases f with
    | content mid =>
      have hstored : v'.stored (.content mid) = v.stored (.content mid) := by
        rw [Vault.stored, Vault.stored, hmessages]
      have haad : v'.aad (.content mid) = v.aad (.content mid) := by
        rw [Vault.aad, Vault.aad, hmessages]
      rw [hstored]
      apply Store.rel_imp (h (.content mid))
      intro t b _ hentry
      exact ⟨by rw [haad]; exact hentry.written, hentry.fits⟩
    | nationalId | passportId | preview | iban => cases hf

/-- What an accepted order writes to the chat: a conversation without a preview, and its first
message. -/
theorem openConversation_ok {c : FieldCipher} {iv : Bytes} {now : Time}
    {messageId conversationId customerId courierId : Id} {d d' : Chat.ChatDb a.aesgcm}
    (h : OrderService.openConversation c iv now messageId conversationId customerId courierId d =
      .ok d') :
    (∀ id, (d'.conversations.get? id).bind (·.lastMessagePreviewEncrypted) =
      (d.conversations.get? id).bind (·.lastMessagePreviewEncrypted)) ∧
    d.messages.get? messageId = none ∧ ∃ m, d'.messages = d.messages.insert messageId m ∧
      m.conversationId = conversationId ∧ m.contentEncrypted =
        c.encrypt iv OrderService.acceptedText (Chat.ChatService.contentAad conversationId) := by
  obtain ⟨d₁, hcreate, hwrite⟩ := Store.exists_of_bind_eq_ok h
  unfold OrderRepository.insertConversation at hcreate
  split_ifs at hcreate with hfree
  obtain rfl := Except.ok.inj hcreate
  unfold OrderService.writeSystemMessage MessageWriter.addSystemMessage at hwrite
  split at hwrite
  · cases hwrite
  rename_i hnone
  obtain rfl := Except.ok.inj hwrite
  simp only [violated_eq_none, List.forall_mem_cons] at hnone
  -- The conversation's id was free, so no preview was there.
  have hnew : d.conversations.get? conversationId = none := by simpa using hfree
  refine ⟨fun id => ?_, by simpa using hnone.1, _, rfl, rfl, rfl⟩
  change ((d.conversations.insert conversationId _).get? id).bind _ = _
  by_cases hid : id = conversationId
  · subst hid
    rw [Table.get?_insert_self _ _ hnew, hnew]
    rfl
  · rw [Table.get?_insert_ne _ _ hid]

/-- An accepted order keeps the account of the texts. -/
theorem Holds.opened {c : FieldCipher} {iv : Bytes} {now : Time}
    {messageId conversationId customerId courierId : Id} {d : Chat.ChatDb a.aesgcm}
    (h : Holds keys v s) (hkeys : KeyMap keys) (hc : Within c keys) (hiv : iv.length = ivBytes)
    (hopen : OrderService.openConversation c iv now messageId conversationId customerId courierId
      v.chat = .ok d) :
    Holds keys { v with chat := d } ((Write.acceptOrder c iv now messageId conversationId customerId
      courierId : Write e a).apply s) := by
  obtain ⟨hpreviews, hfresh, m, hmessages, hconversation, hm⟩ := openConversation_ok hopen
  apply h.apply
  · intro f hf
    simp only [Write.writes, List.forall_mem_cons] at hf
    cases f with
    | nationalId | passportId | iban => exact ⟨rfl, fun b _ => rfl⟩
    | preview id => exact ⟨hpreviews id, fun b _ => rfl⟩
    | content mid =>
      obtain ⟨hstored, haad⟩ :=
        content_old hmessages fun heq : mid = messageId => hf.1 (by rw [heq])
      exact ⟨hstored, fun b _ => haad⟩
  · simp only [Write.writes, List.forall_mem_cons]
    refine ⟨?_, List.forall_mem_nil _⟩
    -- The system's message, under the context of its conversation.
    obtain ⟨hstored, haad⟩ := content_new hfresh hmessages
    rw [hconversation] at haad
    rw [hstored, hm]
    exact .some ⟨⟨_, haad, hc.writtenAs hkeys hiv _ _⟩, fun hf => absurd hf Bool.false_ne_true⟩

/-- A withdrawal that is inserted has an IBAN that fits its column and an id that was free. -/
theorem createPayout_ok {id : Id} {p : Payout a.aesgcm} {t t' : Table Id (Payout a.aesgcm)}
    (h : WithdrawalRepository.createPayout id p t = .ok t') :
    p.ibanEncrypted.length ≤ 512 ∧ t.get? id = none ∧ t' = t.insert id p := by
  unfold WithdrawalRepository.createPayout at h
  split at h
  · cases h
  · rename_i hnone
    simp only [violated_eq_none, List.forall_mem_cons, Bool.and_eq_true, decide_eq_true_eq] at hnone
    obtain ⟨⟨hlength, -⟩, hfree, -⟩ := hnone
    exact ⟨hlength, by simpa using hfree, (Except.ok.inj h).symm⟩

/-- A withdrawal keeps the account of the texts. -/
theorem Holds.requested {c : FieldCipher} {iv : Bytes} {id : Id} {request : Withdrawal} {iban : Text}
    {p : Payout a.aesgcm} {withdrawals : Table Id (Payout a.aesgcm)} (h : Holds keys v s)
    (hkeys : KeyMap keys) (hc : Within c keys) (hiv : iv.length = ivBytes)
    (hp : p.ibanEncrypted = c.encrypt iv iban (WithdrawalService.ibanAad id))
    (hcreate : WithdrawalRepository.createPayout id p v.withdrawals = .ok withdrawals) :
    Holds keys { v with withdrawals }
      ((Write.requestWithdrawal c iv id request iban : Write e a).apply s) := by
  obtain ⟨hlength, hfree, rfl⟩ := createPayout_ok hcreate
  apply h.apply
  · intro f hf
    simp only [Write.writes, List.forall_mem_cons] at hf
    cases f with
    | nationalId | passportId | preview | content => exact ⟨rfl, fun b _ => rfl⟩
    | iban j =>
      -- Another withdrawal keeps its row.
      have hj : j ≠ id := fun heq => hf.1 (by rw [heq])
      refine ⟨?_, fun b _ => rfl⟩
      change ((v.withdrawals.insert id p).get? j).map _ = _
      rw [Table.get?_insert_ne _ _ hj]
      rfl
  · simp only [Write.writes, List.forall_mem_cons]
    refine ⟨?_, List.forall_mem_nil _⟩
    have hstored : Vault.stored { v with withdrawals := v.withdrawals.insert id p } (.iban id) =
        some p.ibanEncrypted :=
      Option.map_eq_some_iff.mpr ⟨p, Table.get?_insert_self _ _ hfree, rfl⟩
    rw [hstored]
    exact .some ⟨⟨_, rfl, hp ▸ hc.writtenAs hkeys hiv _ _⟩, fun _ => hlength⟩

/-- A request that passes keeps the account of the texts. -/
theorem Holds.exec (h : Holds keys v s) (hkeys : KeyMap keys) (hw : w.Under keys)
    (hexec : w.exec v = .ok v') : Holds keys v' (w.apply s) := by
  cases w with
  | account c now x =>
    obtain ⟨⟨tokens, accounts⟩, hx, hret⟩ := Store.exists_of_bind_eq_ok hexec
    obtain rfl := Except.ok.inj hret
    exact h.account hkeys hw.keys hw.nonces hx
  | acceptOrder c iv now messageId conversationId customerId courierId =>
    obtain ⟨d, hopen, hret⟩ := Store.exists_of_bind_eq_ok hexec
    obtain rfl := Except.ok.inj hret
    exact h.opened hkeys hw.keys hw.nonces hopen
  | chat c call =>
    obtain ⟨⟨u, m, d⟩, hrun, hret⟩ := Store.exists_of_bind_eq_ok hexec
    obtain rfl := Except.ok.inj hret
    cases call with
    | sendMessage now draws conversationId senderId text =>
      exact h.sent hkeys hw.keys hw.nonces.1 hw.nonces.2 (sent_of_run hrun)
    | markRead now conversationId actorId => exact h.sameTexts (sameTexts_of_run hrun) rfl
  | requestWithdrawal c iv id request iban =>
    obtain ⟨withdrawals, hcreate, hret⟩ := Store.exists_of_bind_eq_ok hexec
    obtain rfl := Except.ok.inj hret
    exact h.requested hkeys hw.keys hw.nonces rfl hcreate
  | rotate c ivs =>
    obtain ⟨⟨report, v₁⟩, hrotate, hret⟩ := Store.exists_of_bind_eq_ok hexec
    obtain rfl := Except.ok.inj hret
    exact h.rotated hkeys hw.keys hw.nonces hrotate

/-! ## Runs of requests -/

/-- The tables and the texts after requests, from tables without a ciphertext. -/
def reached (v : Vault a.aesgcm) (ws : List (Write e a)) : Vault a.aesgcm × Texts :=
  ws.foldl Write.step (v, fun _ => none)

/-- Every request under a part of the key map keeps the tables holding the texts. -/
theorem holds_step {p : Vault a.aesgcm × Texts} (h : Holds keys p.1 p.2) (hkeys : KeyMap keys)
    (hw : w.Under keys) : Holds keys (Write.step p w).1 (Write.step p w).2 := by
  unfold Write.step
  cases hexec : w.exec p.1 with
  | ok v' => exact h.exec hkeys hw hexec
  | error err => exact h

/-- The tables hold the texts after every run, by induction on the requests. -/
theorem holds_reached (hkeys : KeyMap keys) (hempty : ∀ f, v.stored f = none)
    {ws : List (Write e a)} (hws : ∀ w ∈ ws, w.Under keys) :
    Holds keys (reached v ws).1 (reached v ws).2 := by
  have hrun : ∀ (ws : List (Write e a)) (p : Vault a.aesgcm × Texts), (∀ w ∈ ws, w.Under keys) →
      Holds keys p.1 p.2 → Holds keys (ws.foldl Write.step p).1 (ws.foldl Write.step p).2 := by
    intro ws
    induction ws with
    | nil => exact fun p _ hp => hp
    | cons w ws ih =>
      intro p hws hp
      obtain ⟨hw, hrest⟩ := List.forall_mem_cons.mp hws
      exact ih (Write.step p w) hrest (holds_step hp hkeys hw)
  have hstart : Holds keys v fun _ => none := by
    intro f
    rw [hempty f]
    exact .none
  exact hrun ws (v, fun _ => none) hws hstart

/-- In every run of requests, under whatever parts of a key map, a field reads as the text that was
last written to it, or as nothing if none was, under every cipher that has the key of its version.
Whenever a cipher has all the keys, a rotation succeeds. -/
theorem read_eq_text (e : AccountEnv) (a : Aead) (ha : a.Expands) (keys : ℕ → Option Bytes)
    (hkeys : KeyMap keys) (v : Vault a.aesgcm) (hempty : ∀ f, v.stored f = none)
    (ws : List (Write e a)) (hws : ∀ w ∈ ws, w.Under keys) :
    (∀ f c, (∀ b ∈ (reached v ws).1.stored f, c.keys b.version = keys b.version) →
      (reached v ws).1.read c f = ((reached v ws).2 f).map .ok) ∧
    ∀ (c : FieldCipher) (ivs : Field → Bytes), c.keys = keys → (∀ f, (ivs f).length = ivBytes) →
      ∃ report v', KeyRotationService.rotate c a ivs (reached v ws).1 = .ok (report, v') := by
  have hholds : Holds keys (reached v ws).1 (reached v ws).2 := holds_reached hkeys hempty hws
  constructor
  · -- What is stored was written under the context of its field, so it decrypts.
    intro f c hc
    unfold Vault.read
    cases hb : (reached v ws).1.stored f with
    | none =>
      have hrel := hholds f
      rw [hb] at hrel
      cases hs : (reached v ws).2 f with
      | none => rfl
      | some t =>
        rw [hs] at hrel
        cases hrel
    | some b =>
      obtain ⟨t, hs, hentry⟩ := hholds.entry hb
      obtain ⟨x, hx, hwritten⟩ := hentry.written
      rw [hs, Option.bind_some, hx, Option.map_some, hwritten.decryptText (hc b hb)]
      rfl
  · -- All that is stored is sealed under the map, so a rotation can read it.
    intro c ivs hc hivs
    obtain ⟨v', hrotate, -⟩ :=
      rotate_preserves a ha keys (reached v ws).1 hholds.sealed hholds.fits c hc ivs hivs
    exact ⟨_, v', hrotate⟩

namespace Sample

open Chat.ChatService.Sample (tagging tagging_expands)
open Giftly.Sample (accountEnv noAccounts)

/-- A withdrawal of fifty. -/
def fifty : Withdrawal where
  courierId := 7
  walletId := 8
  amount := 5000
  status := .requested
  idempotencyKey := none
  processedByAdminId := none
  rejectionReason := none

/-- A courier asks for a withdrawal to an account. -/
def ask (a : Aead) (id : Id) (iban : Text) : Write accountEnv a :=
  .requestWithdrawal (cipherAt 1 keyMap_one) nonce id fifty iban

/-- No row in any table. -/
def noVault (a : Aead) : Vault a.aesgcm := ⟨⟨.empty, .empty, .empty, .empty⟩, ⟨.empty, .empty⟩, .empty⟩

/-- Without rows nothing is stored. -/
theorem noVault_empty (a : Aead) (f : Field) : (noVault a).stored f = none := by
  cases f <;> rfl

/-- The key map of the sample can be that of a cipher. -/
theorem keyMap_keyMap : KeyMap keyMap := (cipherAt 1 keyMap_one).keySize

/-- The sample's withdrawal is under a part of the key map. -/
theorem under_ask (a : Aead) (id : Id) (iban : Text) : (ask a id iban).Under keyMap where
  keys _ _ h := h
  nonces := List.length_replicate

/-- A withdrawal is asked for under the first key, then the keys are rotated to the second. -/
def rotated : List (Write accountEnv tagging) :=
  [ask tagging 1 ['S', 'A'], .rotate (cipherAt 2 rfl) fun _ => nonce]

/-- The requests of the run are under parts of the key map. -/
theorem under_rotated : ∀ w ∈ rotated, w.Under keyMap := by
  unfold rotated
  simp only [List.forall_mem_cons]
  exact ⟨under_ask tagging 1 ['S', 'A'], ⟨fun _ _ h => h, fun _ => List.length_replicate⟩,
    List.forall_mem_nil _⟩

/-- The cipher after the first key is gone. -/
def secondAlone : FieldCipher where
  keys v := if v = 2 then some (List.replicate 32 2) else none
  activeVersion := 2
  keySize v k h := by
    split_ifs at h with hv
    exact ⟨Option.some.inj h ▸ List.length_replicate, by omega⟩
  active := rfl

/-- The sum of the bytes of a context, each times its place. -/
def checksum (aad : Bytes) : UInt8 :=
  .ofNat (aad.zipIdx.foldl (fun n x => n + x.1.toNat * (x.2 + 1)) 0)

/-- The tag of a context: sixteen times its checksum. -/
def tagOf (aad : Bytes) : Bytes := List.replicate 16 (checksum aad)

/-- A cipher that leaves the data as they are and adds a tag of the context. -/
def summing : Aead where
  encrypt _ _ data aad := data ++ tagOf aad
  decrypt _ _ data aad :=
    if data.drop (data.length - 16) = tagOf aad then some (data.take (data.length - 16)) else none
  decrypt_encrypt _ _ data aad := by
    have hlength : (data ++ tagOf aad).length - 16 = data.length := by
      rw [List.length_append, tagOf, List.length_replicate, Nat.add_sub_cancel]
    rw [hlength, List.drop_left, List.take_left, if_pos rfl]
  tag_le _ _ data aad := by
    rw [List.length_append, tagOf, List.length_replicate]
    exact Nat.le_add_left 16 data.length

/-- Contexts with different checksums do not fool the cipher. -/
theorem not_fooled_summing {key iv data aad aad' : Bytes} (h : checksum aad' ≠ checksum aad) :
    ¬summing.Fooled key iv data aad aad' := by
  rintro ⟨-, hsome⟩
  have hlength : (data ++ tagOf aad).length - 16 = data.length := by
    rw [List.length_append, tagOf, List.length_replicate, Nat.add_sub_cancel]
  change (if (data ++ tagOf aad).drop ((data ++ tagOf aad).length - 16) = tagOf aad' then _
    else _ : Option Bytes).isSome = true at hsome
  rw [hlength, List.drop_left] at hsome
  split_ifs at hsome with htag
  · exact h (List.replicate_right_injective (by decide : 16 ≠ 0) htag).symm
  · cases hsome

/-- Two withdrawals to different accounts. -/
def twoAsked : List (Write accountEnv summing) :=
  [ask summing 1 ['S', 'A'], ask summing 2 ['D', 'E']]

/-- The requests of the run are under parts of the key map. -/
theorem under_twoAsked : ∀ w ∈ twoAsked, w.Under keyMap := by
  unfold twoAsked
  simp only [List.forall_mem_cons]
  exact ⟨under_ask summing 1 ['S', 'A'], under_ask summing 2 ['D', 'E'], List.forall_mem_nil _⟩

end Sample

/-- The account of a withdrawal reads under the second key alone. -/
theorem read_eq_text_rotated : (reached (Sample.noVault Chat.ChatService.Sample.tagging)
    Sample.rotated).1.read Sample.secondAlone (.iban 1) = some (.ok ['S', 'A']) := by
  have hread := (read_eq_text Giftly.Sample.accountEnv Chat.ChatService.Sample.tagging
    Chat.ChatService.Sample.tagging_expands Sample.keyMap Sample.keyMap_keyMap
    (Sample.noVault Chat.ChatService.Sample.tagging) (Sample.noVault_empty _) Sample.rotated
    Sample.under_rotated).1 (.iban 1) Sample.secondAlone
  have hversion : ((reached (Sample.noVault Chat.ChatService.Sample.tagging)
      Sample.rotated).1.stored (.iban 1)).map (·.version) = some 2 := by decide +kernel
  rw [hread ?_]
  · rfl
  · intro b hb
    rw [hb] at hversion
    have hb : b.version = 2 := Option.some.inj hversion
    rw [hb]
    rfl

/-! ## A ciphertext in another place -/

/-- Overwrite a field of a row that is there. -/
def Vault.put (v : Vault a.aesgcm) (f : Field) (b : Blob a.aesgcm) : Vault a.aesgcm :=
  match f with
  | .nationalId u => { v with accounts := { v.accounts with
      couriers := v.accounts.couriers.update u fun p => { p with nationalIdEncrypted := some b } } }
  | .passportId u => { v with accounts := { v.accounts with
      couriers := v.accounts.couriers.update u fun p => { p with passportIdEncrypted := some b } } }
  | .preview id => { v with chat := { v.chat with
      conversations := v.chat.conversations.update id fun conv =>
        { conv with lastMessagePreviewEncrypted := some b } } }
  | .iban id => { v with
      withdrawals := v.withdrawals.update id fun wd => { wd with ibanEncrypted := b } }
  | .content mid => { v with chat := { v.chat with
      messages := v.chat.messages.update mid fun m => { m with contentEncrypted := b } } }

/-- A field that is overwritten stores the new ciphertext. -/
theorem stored_put {f : Field} {b b₀ : Blob a.aesgcm} (h : v.stored f = some b₀) :
    (v.put f b).stored f = some b := by
  cases f with
  | nationalId u | passportId u | preview u =>
    obtain ⟨row, hrow, -⟩ := Option.bind_eq_some_iff.mp h
    simp only [Vault.put, Vault.stored, Table.get?_update_self, hrow, Option.map_some,
      Option.bind_some]
  | iban id | content id =>
    obtain ⟨row, hrow, -⟩ := Option.map_eq_some_iff.mp h
    simp only [Vault.put, Vault.stored, Table.get?_update_self, hrow, Option.map_some]

/-- The context of a field does not depend on what it stores. -/
theorem aad_put (f : Field) (b : Blob a.aesgcm) : (v.put f b).aad f = v.aad f := by
  cases f with
  | nationalId | passportId | preview | iban => rfl
  | content mid =>
    simp only [Vault.put, Vault.aad, Table.get?_update_self, Option.map_map]
    rfl

/-- Two fields are contents of messages of one conversation. -/
def Vault.SameConversation (v : Vault a.aesgcm) (f g : Field) : Prop :=
  ∃ i j x y, f = .content i ∧ g = .content j ∧ v.chat.messages.get? i = some x ∧
    v.chat.messages.get? j = some y ∧ x.conversationId = y.conversationId

/-- The field that a context names, unless it is that of messages. -/
def Field.ofAad (x : Aad) : Option Field :=
  if x.column = "national_id" then some (.nationalId x.entityId)
  else if x.column = "passport_id" then some (.passportId x.entityId)
  else if x.column = "last_message_preview" then some (.preview x.entityId)
  else if x.column = "iban" then some (.iban x.entityId)
  else none

/-- A field is found by its context. -/
theorem ofAad_of_aad {f : Field} {x : Aad} (h : v.aad f = some x) :
    Field.ofAad x = if f.mutable = true then some f else none := by
  cases f with
  | nationalId | passportId | preview | iban =>
    obtain rfl := Option.some.inj h
    simp [Field.ofAad, Field.mutable, profileAad, Chat.ChatService.previewAad,
      WithdrawalService.ibanAad]
  | content mid =>
    obtain ⟨m, -, rfl⟩ := Option.map_eq_some_iff.mp h
    simp [Field.ofAad, Field.mutable, Chat.ChatService.contentAad]

/-- Only messages of one conversation share a context. -/
theorem aad_eq_iff {f g : Field} {x y : Aad} (hf : v.aad f = some x) (hg : v.aad g = some y) :
    x = y ↔ f = g ∨ v.SameConversation f g := by
  constructor
  · rintro rfl
    have hfield := (ofAad_of_aad hf).symm.trans (ofAad_of_aad hg)
    -- A context names its field, except that the messages of a conversation share one.
    split_ifs at hfield with hmutable hmutable' hmutable'
    · exact .inl (Option.some.inj hfield)
    · cases f with
      | content i =>
        cases g with
        | content j =>
          obtain ⟨p, hp, rfl⟩ := Option.map_eq_some_iff.mp hf
          obtain ⟨q, hq, hpq⟩ := Option.map_eq_some_iff.mp hg
          exact .inr ⟨i, j, p, q, rfl, rfl, hp, hq, (congrArg Aad.entityId hpq).symm⟩
        | nationalId | passportId | preview | iban => exact absurd rfl hmutable'
      | nationalId | passportId | preview | iban => exact absurd rfl hmutable
  · rintro (rfl | ⟨i, j, p, q, rfl, rfl, hp, hq, hpq⟩)
    · exact Option.some.inj (hf.symm.trans hg)
    · obtain ⟨_, hp', rfl⟩ := Option.map_eq_some_iff.mp hf
      obtain ⟨_, hq', rfl⟩ := Option.map_eq_some_iff.mp hg
      obtain rfl := Option.some.inj (hp.symm.trans hp')
      obtain rfl := Option.some.inj (hq.symm.trans hq')
      rw [hpq]

/-- In every state that is reached, a ciphertext that is moved to another field is opened under a
context that is not its own, and refused unless that fools the cipher. Between the contents of two
messages of one conversation it reads as the text that it has in its own place. -/
theorem moved_refused_iff (e : AccountEnv) (a : Aead) (keys : ℕ → Option Bytes)
    (hkeys : KeyMap keys) (v : Vault a.aesgcm) (hempty : ∀ f, v.stored f = none)
    (ws : List (Write e a)) (hws : ∀ w ∈ ws, w.Under keys) (f g : Field) (b₀ b : Blob a.aesgcm)
    (hf : (reached v ws).1.stored f = some b₀) (hg : (reached v ws).1.stored g = some b)
    (c : FieldCipher) (hc : c.keys b.version = keys b.version) :
    (f = g ∨ (reached v ws).1.SameConversation f g →
      ((reached v ws).1.put f b).read c f = ((reached v ws).2 g).map .ok) ∧
    (¬(f = g ∨ (reached v ws).1.SameConversation f g) → ∃ key t x y,
      keys b.version = some key ∧ (reached v ws).2 g = some t ∧
      (reached v ws).1.aad f = some x ∧ (reached v ws).1.aad g = some y ∧
      encodeUtf8 x.text ≠ encodeUtf8 y.text ∧
      ((∃ message, ((reached v ws).1.put f b).read c f = some (.error (.crypto message))) ↔
        ¬a.Fooled key b.iv (encodeUtf8 t) (encodeUtf8 y.text) (encodeUtf8 x.text))) := by
  have hholds : Holds keys (reached v ws).1 (reached v ws).2 := holds_reached hkeys hempty hws
  obtain ⟨_, -, hentry₀⟩ := hholds.entry hf
  obtain ⟨x, hx, -⟩ := hentry₀.written
  obtain ⟨t, hs, hentry⟩ := hholds.entry hg
  obtain ⟨y, hy, hwritten⟩ := hentry.written
  have hread : ((reached v ws).1.put f b).read c f = some (c.decryptText a b.text x.text) := by
    rw [Vault.read, stored_put hf, Option.bind_some, aad_put, hx]
    rfl
  rw [← aad_eq_iff hx hy]
  constructor
  · -- The same context reads the text that was written.
    rintro rfl
    rw [hread, hs, hwritten.decryptText hc]
    rfl
  · -- Another context is refused unless the cipher is fooled by it.
    intro hne
    obtain ⟨key, hkey⟩ := hwritten.exists_key
    have htext : encodeUtf8 x.text ≠ encodeUtf8 y.text := fun heq =>
      hne (Aad.text_inj (Vault.plain_aad hx) (Vault.plain_aad hy) (encodeUtf8_injective heq))
    refine ⟨key, t, x, y, hkey, hs, hx, hy, htext, ?_⟩
    rw [hread, ← hwritten.refused_iff (Vault.plain_aad hy) (Vault.plain_aad hx) (Ne.symm hne) hkey hc]
    simp only [Option.some.injEq]

/-- The account of one withdrawal, moved to another, is refused. -/
theorem moved_refused_iff_asked : ∃ b message,
    (reached (Sample.noVault Sample.summing) Sample.twoAsked).1.stored (.iban 2) = some b ∧
    ((reached (Sample.noVault Sample.summing) Sample.twoAsked).1.put (.iban 1) b).read
      (Sample.cipherAt 1 rfl) (.iban 1) = some (.error (.crypto message)) := by
  obtain ⟨b₀, hb₀⟩ := Option.isSome_iff_exists.mp (show ((reached (Sample.noVault Sample.summing)
    Sample.twoAsked).1.stored (.iban 1)).isSome = true by decide +kernel)
  obtain ⟨b, hb⟩ := Option.isSome_iff_exists.mp (show ((reached (Sample.noVault Sample.summing)
    Sample.twoAsked).1.stored (.iban 2)).isSome = true by decide +kernel)
  obtain ⟨-, hmoved⟩ := moved_refused_iff Giftly.Sample.accountEnv Sample.summing
    Sample.keyMap Sample.keyMap_keyMap (Sample.noVault Sample.summing)
    (Sample.noVault_empty _) Sample.twoAsked Sample.under_twoAsked (.iban 1) (.iban 2) b₀ b hb₀ hb
    (Sample.cipherAt 1 rfl) rfl
  have hother : ¬((.iban 1 : Field) = .iban 2 ∨
      (reached (Sample.noVault Sample.summing) Sample.twoAsked).1.SameConversation (.iban 1)
        (.iban 2)) := by
    rintro (heq | ⟨i, j, x, y, hi, -⟩)
    · cases heq
    · cases hi
  obtain ⟨key, t, x, y, -, -, hx, hy, -, hrefused⟩ := hmoved hother
  obtain rfl : WithdrawalService.ibanAad 1 = x := Option.some.inj hx
  obtain rfl : WithdrawalService.ibanAad 2 = y := Option.some.inj hy
  obtain ⟨message, hmessage⟩ := hrefused.mpr (Sample.not_fooled_summing (by decide +kernel))
  exact ⟨b, message, hb, hmessage⟩

end Secrets

end Giftly
