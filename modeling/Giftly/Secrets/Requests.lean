import Giftly.Accounts.Changes
import Giftly.Secrets.Rotation

/-!
# The writers of the encrypted columns

Every request that writes a table with an encrypted column, with the cipher that it is served under:
keys may be added and taken away, and the active version may be another one each time. `Texts` is what
the columns are for, a text for each field, and `Write.writes` is what a request does to it.

The account requests write the documents of the couriers; `documents_handle` says which.
-/

namespace Giftly

open Store (Table)

/-- The account services over the byte-wise library, under a cipher. -/
def AccountEnv.over (e : AccountEnv) (a : Aead) (c : FieldCipher) : AccountEnv where
  settings := e.settings
  jwt := e.jwt
  aes := a.aesgcm
  cipher := c
  hmacHex := e.hmacHex
  sha256Hex := e.sha256Hex

namespace WithdrawalRepository

variable {aes : Aesgcm}

/-- `create`, as far as its own row goes. -/
def createPayout (id : Id) (p : Secrets.Payout aes) (t : Table Id (Secrets.Payout aes)) :
    Except Err (Table Id (Secrets.Payout aes)) :=
  match violated [(p.ibanEncrypted.length ≤ 512 && fitsText 4 (some p.ibanLast4), .data),
      ((t.get? id).isNone, .integrity .primaryKey)] with
  | some e => .error e
  | none => .ok (t.insert id p)

end WithdrawalRepository

namespace OrderRepository

variable {aes : Aesgcm}

/-- `create_conversation`, as far as its own row goes. -/
def insertConversation (now : Time) (id customerId courierId : Id) (d : Chat.ChatDb aes) :
    Except Err (Chat.ChatDb aes) :=
  if (d.conversations.get? id).isSome then .error (.integrity .primaryKey)
  else .ok { d with
    conversations := d.conversations.insert id
      { customerId, courierId, lastMessagePreviewEncrypted := none, lastMessageTimestamp := now
        customerUnreadCount := 0, courierUnreadCount := 0 } }

end OrderRepository

namespace MessageWriter

variable {aes : Aesgcm}

/-- `add_system_message`. The message has no `created_at` before the flush, so the conversation keeps
its timestamp. -/
def addSystemMessage (now : Time) (messageId conversationId senderId : Id)
    (contentEncrypted : Blob aes) (d : Chat.ChatDb aes) : Except Err (Chat.ChatDb aes) :=
  match violated [((d.messages.get? messageId).isNone, .integrity .primaryKey),
      ((d.conversations.get? conversationId).isSome, .integrity .foreignKey)] with
  | some e => .error e
  | none => .ok (d.insertMessage messageId
      { conversationId, senderId, messageType := .system, contentEncrypted, isRead := false
        readAt := none, createdAt := now })

end MessageWriter

namespace OrderService

variable {aes : Aesgcm}

/-- The text of the message that `accept_order` writes. -/
def acceptedText : Text := "A courier accepted your order.".toList

/-- `_write_system_message`. -/
def writeSystemMessage (c : FieldCipher) (iv : Bytes) (now : Time)
    (messageId conversationId senderId : Id) (text : Text) (d : Chat.ChatDb aes) :
    Except Err (Chat.ChatDb aes) :=
  MessageWriter.addSystemMessage now messageId conversationId senderId
    (c.encrypt iv text (Chat.ChatService.contentAad conversationId)) d

/-- `accept_order`, as far as the chat goes. -/
def openConversation (c : FieldCipher) (iv : Bytes) (now : Time)
    (messageId conversationId customerId courierId : Id) (d : Chat.ChatDb aes) :
    Except Err (Chat.ChatDb aes) := do
  let d ← OrderRepository.insertConversation now conversationId customerId courierId d
  writeSystemMessage c iv now messageId conversationId courierId acceptedText d

end OrderService

namespace Secrets

/-- The texts of the fields. -/
abbrev Texts := Field → Option Text

/-- A request that writes a table with an encrypted column. -/
inductive Write (e : AccountEnv) (a : Aead)
  | account (c : FieldCipher) (now : Time) (x : Access.Request (e.over a c))
  | acceptOrder (c : FieldCipher) (iv : Bytes) (now : Time)
    (messageId conversationId customerId courierId : Id)
  | chat (c : FieldCipher) (call : Chat.Call)
  | requestWithdrawal (c : FieldCipher) (iv : Bytes) (id : Id) (request : Withdrawal) (iban : Text)
  | rotate (c : FieldCipher) (ivs : Field → Bytes)

variable {e : AccountEnv} {a : Aead}

namespace Write

/-- What a request does to the tables; one that raises is rolled back. -/
def exec (v : Vault a.aesgcm) : Write e a → Except Err (Vault a.aesgcm)
  | .account _ now x => do
    let (_, accounts) ← x.handle now v.accounts
    return { v with accounts }
  | .acceptOrder c iv now messageId conversationId customerId courierId => do
    let d ← OrderService.openConversation c iv now messageId conversationId customerId courierId
      v.chat
    return { v with chat := d }
  | .chat c call => do
    let (_, _, d) ← (call.tx c).run none v.chat
    return { v with chat := d }
  | .requestWithdrawal c iv id request iban => do
    let withdrawals ← WithdrawalRepository.createPayout id
      { request, ibanEncrypted := c.encrypt iv iban (WithdrawalService.ibanAad id)
        ibanLast4 := iban.drop (iban.length - 4) } v.withdrawals
    return { v with withdrawals }
  | .rotate c ivs => do
    let (_, v') ← KeyRotationService.rotate c a ivs v
    return v'

/-- The text of a document, as `_register_courier` takes it. -/
def documentText (document : Option Text) : Option Text :=
  if truthy document then document.map PaymentService.strip else none

/-- The fields that a request writes when it passes. -/
def writes : Write e a → List (Field × Option Text)
  | .account _ _ (.register _ n _ q) =>
    match q.role with
    | .courier => [(.nationalId n.userId, documentText q.nationalId),
        (.passportId n.userId, documentText q.passportId)]
    | _ => []
  | .account _ _ (.createCourierProfile _ userId _ _ document type) =>
    [(.nationalId userId, if type = "national_id" then some document else none),
      (.passportId userId, if type = "passport_id" then some document else none)]
  | .account _ _ (.deleteCourierProfile userId) =>
    [(.nationalId userId, none), (.passportId userId, none)]
  | .acceptOrder _ _ _ messageId .. => [(.content messageId, some OrderService.acceptedText)]
  | .chat _ (.sendMessage _ draws conversationId _ text) =>
    [(.content draws.messageId, some text),
      (.preview conversationId, some (text.take Chat.ChatService.previewChars))]
  | .requestWithdrawal _ _ id _ iban => [(.iban id, some iban)]
  | _ => []

/-- The texts after a request that passes. -/
def apply (w : Write e a) (s : Texts) : Texts := fun f => (w.writes.lookup f).getD (s f)

/-- The request draws nonces of 12 bytes. -/
def Nonces : Write e a → Prop
  | .account _ _ (.register _ n _ _) => n.nationalIv.length = ivBytes ∧ n.passportIv.length = ivBytes
  | .account _ _ (.createCourierProfile iv ..) => iv.length = ivBytes
  | .acceptOrder _ iv .. => iv.length = ivBytes
  | .chat _ (.sendMessage _ draws _ _ _) =>
    draws.contentIv.length = ivBytes ∧ draws.previewIv.length = ivBytes
  | .requestWithdrawal _ iv _ _ _ => iv.length = ivBytes
  | .rotate _ ivs => ∀ f, (ivs f).length = ivBytes
  | _ => True

/-- The cipher that a request is served under. -/
def cipher : Write e a → FieldCipher
  | .account c .. | .acceptOrder c .. | .chat c _ | .requestWithdrawal c .. | .rotate c _ => c

/-- A request under a part of a key map. -/
structure Under (keys : ℕ → Option Bytes) (w : Write e a) : Prop where
  keys : Within w.cipher keys
  nonces : w.Nonces

/-- The tables and the texts after a request. -/
def step (v : Vault a.aesgcm × Texts) (w : Write e a) : Vault a.aesgcm × Texts :=
  match w.exec v.1 with
  | .ok v' => (v', w.apply v.2)
  | .error _ => v

end Write

/-! ## The documents of the couriers -/

section Documents

variable {env : AccountEnv}

/-- The two encrypted columns of a courier profile. -/
abbrev Documents (env : AccountEnv) := Option (Blob env.aes) × Option (Blob env.aes)

/-- The documents of a courier. -/
def documents (a : Accounts env.aes) (u : Id) : Option (Documents env) :=
  (a.couriers.get? u).map fun p => (p.nationalIdEncrypted, p.passportIdEncrypted)

/-- The documents fit their columns. -/
def Documents.Fit (d : Documents env) : Prop :=
  (∀ b ∈ d.1, b.length ≤ 512) ∧ ∀ b ∈ d.2, b.length ≤ 512

/-- The documents that an account request writes: those of a new profile, or of one that is deleted. -/
def requestDocuments : Access.Request env → Option (Id × Option (Documents env))
  | .register _ n _ q =>
    match q.role with
    | .courier => some (n.userId, some
        (AuthService.encryptDocument env "national_id" n.nationalIv n.userId q.nationalId,
          AuthService.encryptDocument env "passport_id" n.passportIv n.userId q.passportId))
    | _ => none
  | .createCourierProfile iv userId _ _ document type =>
    let encrypted := env.cipher.encrypt iv document (profileAad
      (if type = "national_id" then "national_id" else "passport_id") userId)
    some (userId, some (if type = "national_id" then some encrypted else none,
      if type = "passport_id" then some encrypted else none))
  | .deleteCourierProfile userId => some (userId, none)
  | _ => none

/-- The documents after they were written. -/
def DocumentsAfter (a a' : Accounts env.aes) : Option (Id × Option (Documents env)) → Prop
  | none => documents a' = documents a
  | some (u, d) => documents a' = Function.update (documents a) u d ∧ ∀ y ∈ d, y.Fit

/-- The documents are the same. -/
def SameDocuments (env : AccountEnv) (a a' : Accounts env.aes) : Prop :=
  documents a' = documents a

instance sameDocuments_refl : Std.Refl (SameDocuments env) := ⟨fun _ => rfl⟩

instance sameDocuments_trans : IsTrans (Accounts env.aes) (SameDocuments env) :=
  ⟨fun _ _ _ h₁ h₂ => Eq.trans h₂ h₁⟩

/-- The documents depend on the courier profiles alone. -/
theorem documents_congr {a a' : Accounts env.aes} (h : a'.couriers = a.couriers) :
    documents a' = documents a := by
  funext u
  rw [documents, documents, h]

/-- A statement that does not touch the profiles. -/
theorem documents_write {error : Accounts env.aes → Option Err}
    {patch : Accounts env.aes → Accounts env.aes} (h : ∀ a, (patch a).couriers = a.couriers) :
    Handler.Ensures (SameDocuments env) (Handler.write error patch) :=
  .write fun a _ => documents_congr (h a)

/-- A change of the refresh tokens leaves the documents. -/
theorem documents_updateTokens {cond : RefreshToken → Bool} {f : RefreshToken → RefreshToken} :
    Handler.Ensures (SameDocuments env) (AuthRepository.updateTokens cond f) :=
  documents_write fun _ => rfl

/-- An `UPDATE` of the other columns of a profile. -/
theorem documents_update {u : Id} {f : Profile env.aes → Profile env.aes}
    (hf : ∀ p, (f p).nationalIdEncrypted = p.nationalIdEncrypted ∧
      (f p).passportIdEncrypted = p.passportIdEncrypted) :
    Handler.Ensures (SameDocuments env) (CourierRepository.update u f) := by
  apply Handler.Ensures.write
  intro a _
  funext v
  unfold documents
  rw [Table.get?_update]
  split_ifs
  · rw [Option.map_map]
    congr 1
    funext p
    exact Prod.ext (hf p).1 (hf p).2
  · rfl

/-- The `INSERT` of a profile. -/
theorem documents_insert {u : Id} {p : Profile env.aes} {x : Unit} {a a' : Accounts env.aes}
    (h : CourierRepository.insert u p a = .ok (x, a')) :
    documents a' = Function.update (documents a) u
        (some (p.nationalIdEncrypted, p.passportIdEncrypted)) ∧
      Documents.Fit (p.nationalIdEncrypted, p.passportIdEncrypted) := by
  obtain ⟨hnone, rfl⟩ := Handler.write_ok h
  unfold CourierRepository.rowError at hnone
  simp only [violated_eq_none, List.forall_mem_cons, Bool.and_eq_true, Option.all_eq_true,
    decide_eq_true_eq] at hnone
  obtain ⟨⟨⟨⟨-, hnational⟩, hpassport⟩, -⟩, -, hfree, -⟩ := hnone
  refine ⟨?_, hnational, hpassport⟩
  have hkey : a.couriers.get? u = none := by simpa using hfree
  funext v
  unfold documents
  by_cases hv : v = u
  · subst hv
    rw [Function.update_self, Table.get?_insert_self _ _ hkey]
    rfl
  · rw [Function.update_of_ne hv, Table.get?_insert_ne _ _ hv]

/-- Tokens are issued without touching the documents. -/
theorem documents_issueTokens {now : Time} {r : Drawn} {u : Id} {role : UserRole} :
    Handler.Ensures (SameDocuments env) (AuthService.issueTokens env now r u role) := by
  refine Handler.Ensures.bind ?_ fun _ => .pure _
  exact .bind (documents_write fun _ => rfl) fun _ => .pure _

/-- A login leaves the documents. -/
theorem documents_verifyOtp {now : Time} {r : Drawn} {phone : Text} :
    Handler.Ensures (SameDocuments env) (AuthService.verifyOtp env now r phone) := by
  refine Handler.Ensures.bind (.read _) fun found => ?_
  obtain _ | ⟨id, user⟩ := found
  · exact .pure _
  · refine Handler.Ensures.bind (.require _ _) fun _ => ?_
    exact .bind documents_issueTokens fun _ => .pure _

/-- An exchange of tokens leaves the documents. -/
theorem documents_refresh {now : Time} {r : Drawn} {raw : Text} :
    Handler.Ensures (SameDocuments env) (AuthService.refresh env now r raw) := by
  refine Handler.Ensures.bind (.read _) fun found => ?_
  obtain _ | ⟨id, row⟩ := found
  · exact .throw _
  have hrevoke : Handler.Ensures (SameDocuments env)
      (AuthRepository.revokeFamily row.familyId now) := documents_updateTokens
  dsimp only
  split_ifs
  · exact .bind hrevoke fun _ => .pure _
  · refine Handler.Ensures.bind (.require _ _) fun _ => ?_
    refine Handler.Ensures.bind (documents_write fun _ => rfl) fun _ => ?_
    refine Handler.Ensures.bind (.read _) fun found => ?_
    obtain _ | user := found
    · exact .throw _
    · refine Handler.Ensures.bind (.require _ _) fun _ => ?_
      refine Handler.Ensures.bind ?_ fun _ => .pure _
      exact .bind (documents_write fun _ => rfl) fun _ => .pure _

/-- A new user brings no documents. -/
theorem documents_createUser {u : Id} {phone : Text} {fullName email : Option Text}
    {role : UserRole} : Handler.Ensures (SameDocuments env)
      (AdminService.createUser u phone fullName email role) := by
  have hwrite : Handler.Ensures (SameDocuments env)
      (UserRepository.createAdminUser u phone fullName email role) := documents_write fun _ => rfl
  refine Handler.Ensures.bind (.require _ _) fun _ => ?_
  refine Handler.Ensures.bind (.require _ _) fun _ => ?_
  refine Handler.Ensures.bind (.read _) fun _ => ?_
  refine Handler.Ensures.bind (.require _ _) fun _ => ?_
  dsimp only
  split_ifs
  · exact .bind (.read _) fun _ => .bind (.require _ _) fun _ => hwrite
  · exact hwrite

/-- A ban leaves the documents. -/
theorem documents_setUserBanned {now : Time} {u : Id} {banned : Bool} :
    Handler.Ensures (SameDocuments env) (AdminService.setUserBanned now u banned) := by
  have hstatus : Handler.Ensures (SameDocuments env)
      (UserRepository.setStatus u (if banned then .banned else .active)) :=
    documents_write fun _ => rfl
  have hrevoke : Handler.Ensures (SameDocuments env)
      (AuthRepository.revokeAllForUser u now) := documents_updateTokens
  refine Handler.Ensures.bind (.read _) fun _ => ?_
  refine Handler.Ensures.bind (.require _ _) fun _ => ?_
  refine Handler.Ensures.bind hstatus fun _ => ?_
  split_ifs
  · exact hrevoke
  · exact .pure _

/-- The deletion of a user keeps the documents of its profile. -/
theorem documents_deleteUser {now : Time} {u : Id} :
    Handler.Ensures (SameDocuments env) (AdminService.deleteUser now u) := by
  have hdelete : Handler.Ensures (SameDocuments env) (UserRepository.softDelete now u) :=
    documents_write fun _ => rfl
  have hrevoke : Handler.Ensures (SameDocuments env)
      (AuthRepository.revokeAllForUser u now) := documents_updateTokens
  refine Handler.Ensures.bind (.read _) fun found => ?_
  obtain _ | user := found
  · exact .throw _
  · refine Handler.Ensures.bind (.require _ _) fun _ => ?_
    exact .bind hdelete fun _ => hrevoke

/-- A verification leaves the documents. -/
theorem documents_verifyCourier {now : Time} {adminId u : Id} {approve : Bool} :
    Handler.Ensures (SameDocuments env) (AdminService.verifyCourier now adminId u approve) := by
  have hstatus : Handler.Ensures (SameDocuments env) (UserRepository.setStatus u .active) :=
    documents_write fun _ => rfl
  refine Handler.Ensures.bind (.read _) fun _ => ?_
  refine Handler.Ensures.bind (.require _ _) fun _ => ?_
  refine Handler.Ensures.bind (documents_update fun _ => ⟨rfl, rfl⟩) fun _ => ?_
  refine Handler.Ensures.bind (.read _) fun found => ?_
  obtain _ | user := found
  · exact .pure _
  · dsimp only
    split_ifs
    · exact hstatus
    · exact .pure _

/-- A registration writes the documents of a courier, and none of a customer. -/
theorem documents_register {now : Time} {r : Drawn} {n : AuthService.NewAccount}
    {token : env.jwt.Token} {q : AuthService.Registration} {tokens : List env.jwt.Token}
    {a a' : Accounts env.aes}
    (h : (Access.Request.register r n token q).handle now a = .ok (tokens, a')) :
    DocumentsAfter a a' (requestDocuments (.register r n token q)) := by
  obtain ⟨pair, _, hregister, hret⟩ := Handler.bind_ok h
  obtain ⟨-, rfl⟩ := Handler.pure_ok hret
  obtain ⟨phone, _, hdecode, hregister⟩ := Handler.bind_ok hregister
  obtain rfl := Access.lift_ok hdecode
  obtain ⟨_, _, hread, hregister⟩ := Handler.bind_ok hregister
  obtain ⟨-, rfl⟩ := Access.read_ok hread
  obtain ⟨_, _, hfree, hregister⟩ := Handler.bind_ok hregister
  obtain ⟨-, rfl⟩ := Handler.require_ok hfree
  -- Only a courier's registration writes documents.
  cases hrole : q.role <;> rw [hrole] at hregister
  · have hdocuments : requestDocuments (.register r n token q) = none := by
      simp only [requestDocuments, hrole]
    have hcustomer : Handler.Ensures (SameDocuments env) (AuthRepository.createCustomer
        n.userId n.walletId phone q.fullName q.email q.dob) :=
      .bind (documents_write fun _ => rfl) fun _ => documents_write fun _ => rfl
    rw [hdocuments]
    exact (hcustomer.bind fun _ => documents_issueTokens) _ _ _ hregister
  · have hdocuments : requestDocuments (.register r n token q) = some (n.userId, some
        (AuthService.encryptDocument env "national_id" n.nationalIv n.userId q.nationalId,
          AuthService.encryptDocument env "passport_id" n.passportIv n.userId q.passportId)) := by
      simp only [requestDocuments, hrole]
    obtain ⟨_, _, hcity, hregister⟩ := Handler.bind_ok hregister
    obtain ⟨-, rfl⟩ := Handler.require_ok hcity
    obtain ⟨_, _, hdocument, hregister⟩ := Handler.bind_ok hregister
    obtain ⟨-, rfl⟩ := Handler.require_ok hdocument
    obtain ⟨_, _, hread, hregister⟩ := Handler.bind_ok hregister
    obtain ⟨-, rfl⟩ := Access.read_ok hread
    obtain ⟨_, _, hfree, hregister⟩ := Handler.bind_ok hregister
    obtain ⟨-, rfl⟩ := Handler.require_ok hfree
    obtain ⟨_, a₁, huser, hregister⟩ := Handler.bind_ok hregister
    obtain ⟨_, a₃, hprofile, hissue⟩ := Handler.bind_ok hregister
    obtain ⟨_, a₂, hwallet, hprofile⟩ := Handler.bind_ok hprofile
    have hinsert : Handler.Ensures (SameDocuments env) (AuthRepository.createCourierUser n.userId
        phone q.fullName q.email q.dob) := documents_write fun _ => rfl
    have hadd : Handler.Ensures (SameDocuments env)
        (AuthRepository.insertWallet n.walletId n.userId .courier) := documents_write fun _ => rfl
    -- The account and its wallet come before the profile, and the tokens after it.
    have h₁ : documents a₁ = documents _ := hinsert _ _ a₁ huser
    have h₂ : documents a₂ = documents a₁ := hadd a₁ _ a₂ hwallet
    obtain ⟨h₃, hfit⟩ := documents_insert hprofile
    have h₄ : documents _ = documents a₃ := documents_issueTokens a₃ _ _ hissue
    rw [hdocuments]
    refine ⟨?_, fun y hy => Option.some.inj hy ▸ hfit⟩
    rw [h₄, h₃, h₂, h₁]
  · cases hregister

/-- A profile that an administrator adds has one document. -/
theorem documents_createCourierProfile {iv : Bytes} {u : Id} {city : Text}
    {bio : Option Text} {document : Text} {type : String} {x : Unit} {a a' : Accounts env.aes}
    (h : AdminService.createCourierProfile env iv u city bio document type a = .ok (x, a')) :
    ∃ d, requestDocuments (.createCourierProfile iv u city bio document type) = some (u, some d) ∧
      documents a' = Function.update (documents a) u (some d) ∧ d.Fit := by
  obtain ⟨_, _, hread, h⟩ := Handler.bind_ok h
  obtain ⟨-, rfl⟩ := Access.read_ok hread
  obtain ⟨_, _, hcourier, h⟩ := Handler.bind_ok h
  obtain ⟨-, rfl⟩ := Handler.require_ok hcourier
  obtain ⟨_, _, hread, h⟩ := Handler.bind_ok h
  obtain ⟨-, rfl⟩ := Access.read_ok hread
  obtain ⟨_, _, hfree, h⟩ := Handler.bind_ok h
  obtain ⟨-, rfl⟩ := Handler.require_ok hfree
  obtain ⟨_, _, hcity, h⟩ := Handler.bind_ok h
  obtain ⟨-, rfl⟩ := Handler.require_ok hcity
  obtain ⟨_, _, hdocument, h⟩ := Handler.bind_ok h
  obtain ⟨-, rfl⟩ := Handler.require_ok hdocument
  obtain ⟨_, _, htype, h⟩ := Handler.bind_ok h
  obtain ⟨-, rfl⟩ := Handler.require_ok htype
  obtain ⟨_, _, hread, h⟩ := Handler.bind_ok h
  obtain ⟨-, rfl⟩ := Access.read_ok hread
  obtain ⟨_, _, hunique, h⟩ := Handler.bind_ok h
  obtain ⟨-, rfl⟩ := Handler.require_ok hunique
  -- All the checks only read; the insert is the one write.
  obtain ⟨hinsert, hfit⟩ := documents_insert h
  exact ⟨_, rfl, hinsert, hfit⟩

/-- The documents after an account request. -/
theorem documents_handle {now : Time} {x : Access.Request env} {tokens : List env.jwt.Token}
    {a a' : Accounts env.aes} (h : x.handle now a = .ok (tokens, a')) :
    DocumentsAfter a a' (requestDocuments x) := by
  -- The requests that touch no document column.
  have hsame : ∀ {α : Type} {y : Handler env.aes α} {k : α → Handler env.aes (List env.jwt.Token)},
      Handler.Ensures (SameDocuments env) y →
      (∀ z, Handler.Ensures (SameDocuments env) (k z)) → (y >>= k) a = .ok (tokens, a') →
      documents a' = documents a := fun hy hk hok => (hy.bind hk) a _ a' hok
  cases x with
  | register r n token q => exact documents_register h
  | verifyOtp r phone =>
    refine hsame documents_verifyOtp (fun z => ?_) h
    cases z <;> exact .pure _
  | refresh r raw =>
    refine hsame documents_refresh (fun z => ?_) h
    cases z <;> exact .pure _
  | createUser u phone fullName email role =>
    exact hsame documents_createUser (fun _ => .pure _) h
  | updateUserProfile u phone fullName email =>
    exact hsame (Access.ensures_updateUserProfile (documents_write fun _ => rfl)) (fun _ => .pure _) h
  | setUserBanned u banned => exact hsame documents_setUserBanned (fun _ => .pure _) h
  | deleteUser u => exact hsame documents_deleteUser (fun _ => .pure _) h
  | verifyCourier adminId u approve => exact hsame documents_verifyCourier (fun _ => .pure _) h
  -- An administrator's new profile, with one document or none.
  | createCourierProfile iv u city bio document type =>
    obtain ⟨_, _, hcreate, h⟩ := Handler.bind_ok h
    obtain ⟨-, rfl⟩ := Handler.pure_ok h
    obtain ⟨d, hd, hnew, hfit⟩ := documents_createCourierProfile hcreate
    rw [hd]
    exact ⟨hnew, fun y hy => Option.some.inj hy ▸ hfit⟩
  | updateCourierProfile u city bio =>
    have hupdate : Handler.Ensures (SameDocuments env)
        (AdminService.updateCourierProfile u city bio) := by
      refine Handler.Ensures.bind (.read _) fun _ => ?_
      refine Handler.Ensures.bind (.require _ _) fun _ => ?_
      refine Handler.Ensures.bind (.require _ _) fun _ => ?_
      exact documents_update fun _ => ⟨rfl, rfl⟩
    exact hsame hupdate (fun _ => .pure _) h
  -- The profile goes, and its documents with it.
  | deleteCourierProfile u =>
    obtain ⟨_, _, hdelete, h⟩ := Handler.bind_ok h
    obtain ⟨-, rfl⟩ := Handler.pure_ok h
    obtain ⟨_, _, hread, hdelete⟩ := Handler.bind_ok hdelete
    obtain ⟨-, rfl⟩ := Access.read_ok hread
    obtain ⟨_, _, hsome, hdelete⟩ := Handler.bind_ok hdelete
    obtain ⟨-, rfl⟩ := Handler.require_ok hsome
    obtain ⟨-, rfl⟩ := Handler.write_ok hdelete
    refine ⟨?_, fun y hy => absurd hy (Option.not_mem_none y)⟩
    funext v
    unfold documents
    rw [Table.get?_erase, Function.update_apply]
    split_ifs <;> rfl
  | dashboardLogin adminId phone =>
    refine hsame (documents_write fun a => ?_) (fun _ => .pure _) h
    split_ifs <;> rfl
  | purgeExpired before =>
    have hpurge : Handler.Ensures (SameDocuments env) (AuthRepository.purgeExpired before) :=
      documents_write fun _ => rfl
    exact hsame hpurge (fun _ => .pure _) h

end Documents

end Secrets

end Giftly
