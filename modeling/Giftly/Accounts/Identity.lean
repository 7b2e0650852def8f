import Giftly.Accounts.Services
import Mathlib.Data.List.DropRight

/-!
# The identity documents of the couriers

A courier profile holds a national id, a passport id or both, encrypted, and one fingerprint, under
a unique index. A document is protected from a second registration only when the fingerprint of its
profile is its own: `Covered`. `_register_courier` takes the fingerprint of one document and stores
both; `create_courier_profile` takes it of the document with its surrounding spaces.
`no_shared_document` says that these are the only ways in which two couriers come to share one.
-/

namespace Giftly

open Store (Table)
open PaymentService (strip)

namespace Identity

/-! ## What a profile holds -/

section Documents

variable (env : AccountEnv)

/-- The trimmed text of a document that is stored in a column of a profile. -/
def document (column : String) (userId : Id) (stored : Option (Blob env.aes)) : Option Text :=
  (stored.bind fun b => env.cipher.decrypt b (profileAad column userId)).map strip

/-- The trimmed national id of a courier. -/
def nationalId (userId : Id) (p : Profile env.aes) : Option Text :=
  document env "national_id" userId p.nationalIdEncrypted

/-- The trimmed passport id of a courier. -/
def passportId (userId : Id) (p : Profile env.aes) : Option Text :=
  document env "passport_id" userId p.passportIdEncrypted

/-- No two courier profiles hold the same national id or the same passport id. -/
def NoneShared (a : Accounts env.aes) : Prop :=
  ∀ u v p q, u ≠ v → a.couriers.get? u = some p → a.couriers.get? v = some q →
    ∀ t, ¬(nationalId env u p = some t ∧ nationalId env v q = some t) ∧
      ¬(passportId env u p = some t ∧ passportId env v q = some t)

/-- The fingerprint of a profile is that of every document that it holds. -/
def Own (u : Id) (p : Profile env.aes) : Prop :=
  ∀ t, nationalId env u p = some t ∨ passportId env u p = some t →
    p.identityFingerprint = some (env.hmacHex t)

/-- Every document is under its own fingerprint, and no two profiles share a fingerprint. -/
structure Covered (a : Accounts env.aes) : Prop where
  own : ∀ u p, a.couriers.get? u = some p → Own env u p
  unique : ∀ u v p q f, a.couriers.get? u = some p → a.couriers.get? v = some q →
    p.identityFingerprint = some f → q.identityFingerprint = some f → u = v

end Documents

/-! ## Calls -/

/-- A call that writes courier profiles, or the users that they are for. -/
inductive Call (env : AccountEnv)
  | register (now : Time) (r : Drawn) (n : AuthService.NewAccount) (token : env.jwt.Token)
    (q : AuthService.Registration)
  | createCourierProfile (iv : Bytes) (userId : Id) (cityOfResidence : Text) (bio : Option Text)
    (identityDocument : Text) (identityType : String)
  | createUser (userId : Id) (phone : Text) (fullName email : Option Text) (role : UserRole)
  | verifyCourier (now : Time) (adminId courierUserId : Id) (approve : Bool)
  | updateCourierProfile (userId : Id) (cityOfResidence : Text) (bio : Option Text)
  | deleteCourierProfile (userId : Id)

variable {env : AccountEnv}

/-- What a call does. -/
def Call.handle : Call env → Handler env.aes Unit
  | .register now r n token q => do
    let _ ← AuthService.register env now r n token q
  | .createCourierProfile iv userId city bio document type =>
    AdminService.createCourierProfile env iv userId city bio document type
  | .createUser userId phone fullName email role =>
    AdminService.createUser userId phone fullName email role
  | .verifyCourier now adminId courierUserId approve =>
    AdminService.verifyCourier now adminId courierUserId approve
  | .updateCourierProfile userId city bio => AdminService.updateCourierProfile userId city bio
  | .deleteCourierProfile userId => AdminService.deleteCourierProfile userId

/-- The tables after a call: a call that raises is rolled back. -/
def Call.exec (a : Accounts env.aes) (c : Call env) : Accounts env.aes :=
  match c.handle a with
  | .ok (_, a') => a'
  | .error _ => a

/-- A call whose fingerprint is that of every document that it gives: a courier's registration that
gives two documents gives the same text twice, and the document of a new profile has no spaces
around it. -/
def Call.Plain : Call env → Prop
  | .register _ _ _ _ q => q.role = .courier → truthy q.nationalId → truthy q.passportId →
    q.nationalId.map strip = q.passportId.map strip
  | .createCourierProfile _ _ _ _ document _ => strip document = document
  | _ => True

/-! ## What a profile is made of -/

/-- Trimming a text twice is trimming it once. -/
theorem strip_strip (t : Text) : strip (strip t) = strip t := by
  have hstrip : ∀ x : Text,
      strip x = (x.dropWhile PaymentService.isSpace).rdropWhile PaymentService.isSpace :=
    fun x => rfl
  -- a trimmed text starts as the text does after the spaces before it
  have hfront : (strip t).dropWhile PaymentService.isSpace = strip t := by
    rw [List.dropWhile_eq_self_iff]
    intro hpos
    have hpre : strip t <+: t.dropWhile PaymentService.isSpace := List.rdropWhile_prefix _ _
    have hne : t.dropWhile PaymentService.isSpace ≠ [] := by
      intro h
      rw [h, List.prefix_nil] at hpre
      rw [hpre] at hpos
      simp at hpos
    obtain ⟨s, hs⟩ := hpre
    have h0 := List.dropWhile_get_zero_not PaymentService.isSpace t (List.length_pos_iff.mpr hne)
    simpa [← hs, List.getElem_append_left hpos] using h0
  calc strip (strip t)
      = ((strip t).dropWhile PaymentService.isSpace).rdropWhile PaymentService.isSpace := hstrip _
    _ = (strip t).rdropWhile PaymentService.isSpace := by rw [hfront]
    _ = strip t := by rw [hstrip, List.rdropWhile_idempotent]

/-- What was encrypted for a column is what the column holds. -/
theorem document_encrypt {column : String} {iv : Bytes} {u : Id} {t : Text} :
    document env column u (some (env.cipher.encrypt iv t (profileAad column u))) =
      some (strip t) := by
  simp [document]

/-- A column of a registered courier holds the trimmed document, when one was given. -/
theorem document_encryptDocument {column : String} {iv : Bytes} {u : Id} {t : Option Text} :
    document env column u (AuthService.encryptDocument env column iv u t) =
      if truthy t then t.map strip else none := by
  unfold AuthService.encryptDocument
  split_ifs with ht
  · cases t with
    | none => rfl
    | some x =>
      rw [Option.map_some, Option.map_some, document_encrypt, strip_strip]
  · rfl

/-- The fingerprint of a registration that gives one document, or the same one twice, is that of
every document that it stores. -/
theorem own_register {q : AuthService.Registration} {n : AuthService.NewAccount}
    {p : Profile env.aes}
    (hplain : truthy q.nationalId → truthy q.passportId →
      q.nationalId.map strip = q.passportId.map strip)
    (hnational : p.nationalIdEncrypted =
      AuthService.encryptDocument env "national_id" n.nationalIv n.userId q.nationalId)
    (hpassport : p.passportIdEncrypted =
      AuthService.encryptDocument env "passport_id" n.passportIv n.userId q.passportId)
    (hfingerprint : p.identityFingerprint = some (env.hmacHex (AuthService.rawId q))) :
    Own env n.userId p := by
  intro t ht
  rw [hfingerprint]
  congr 2
  unfold nationalId passportId at ht
  rw [hnational, hpassport, document_encryptDocument, document_encryptDocument] at ht
  unfold AuthService.rawId orElse
  by_cases hn : truthy q.nationalId
  · -- the fingerprint is that of the national id
    have hraw : q.nationalId.map strip = some t := by
      by_cases hp : truthy q.passportId
      · simp only [hn, hp, if_true, ← hplain hn hp, or_self] at ht
        exact ht
      · simpa [hn, hp] using ht
    obtain ⟨x, hx, rfl⟩ := Option.map_eq_some_iff.mp hraw
    rw [if_pos hn, if_pos hn, hx]
    rfl
  · -- only the passport id is there
    have hp : truthy q.passportId := by
      by_contra hp
      simp [hn, hp] at ht
    have hraw : q.passportId.map strip = some t := by simpa [hn, hp] using ht
    obtain ⟨x, hx, rfl⟩ := Option.map_eq_some_iff.mp hraw
    rw [if_neg hn, if_pos hp, hx]
    rfl

/-- The fingerprint of a profile that an administrator creates is that of its document, when the
document has no spaces around it. -/
theorem own_createCourierProfile {iv : Bytes} {u : Id} {type : String} {t : Text}
    {p : Profile env.aes} (hplain : strip t = t)
    (hnational : p.nationalIdEncrypted = if type = "national_id" then
      some (env.cipher.encrypt iv t (profileAad "national_id" u)) else none)
    (hpassport : p.passportIdEncrypted = if type = "passport_id" then
      some (env.cipher.encrypt iv t (profileAad "passport_id" u)) else none)
    (hfingerprint : p.identityFingerprint = some (env.hmacHex t)) : Own env u p := by
  intro x hx
  rw [hfingerprint]
  congr 2
  unfold nationalId passportId at hx
  rw [hnational, hpassport] at hx
  -- Either column is the document under its own field name.
  rcases hx with hx | hx
  · split_ifs at hx
    · rw [document_encrypt, hplain] at hx
      exact Option.some.inj hx
    · cases hx
  · split_ifs at hx
    · rw [document_encrypt, hplain] at hx
      exact Option.some.inj hx
    · cases hx

/-! ## What the statements do to the profiles -/

/-- A profile that is inserted is under a free key and a free fingerprint. -/
theorem rowError_ok {u : Id} {p : Profile env.aes} {a : Accounts env.aes}
    (h : CourierRepository.rowError u p a = none) : a.couriers.get? u = none ∧
      ∀ f, p.identityFingerprint = some f →
        ∀ v q, a.couriers.get? v = some q → q.identityFingerprint ≠ some f := by
  unfold CourierRepository.rowError at h
  rw [violated_eq_none] at h
  simp only [List.mem_cons, List.not_mem_nil, or_false, forall_eq_or_imp, forall_eq] at h
  obtain ⟨-, -, hkey, -, hfingerprint⟩ := h
  constructor
  · simpa using hkey
  · intro f hf v q hq heq
    rw [hf] at hfingerprint
    have hnone : a.couriers.find? (fun _ q => decide (q.identityFingerprint = some f)) = none := by
      simpa using hfingerprint
    have hno := Table.find?_eq_none.mp hnone v q hq
    simp [heq] at hno

/-- A profile under its own fingerprint joins the others. -/
theorem Covered.insert {a : Accounts env.aes} (h : Covered env a) {u : Id} {p : Profile env.aes}
    (hrow : CourierRepository.rowError u p a = none) (hown : Own env u p)
    (users : Table Id Account) (wallets : Table Id Wallet) (tokens : Table Id RefreshToken) :
    Covered env ⟨users, wallets, a.couriers.insert u p, tokens⟩ := by
  obtain ⟨hkey, hfree⟩ := rowError_ok hrow
  -- a profile of the new table is the new one or one of the old ones
  have hcases : ∀ v q, (a.couriers.insert u p).get? v = some q →
      (v = u ∧ q = p) ∨ (v ≠ u ∧ a.couriers.get? v = some q) := by
    intro v q hq
    by_cases hv : v = u
    · subst hv
      rw [Table.get?_insert_self _ _ hkey] at hq
      exact .inl ⟨rfl, (Option.some.inj hq).symm⟩
    · rw [Table.get?_insert_ne _ _ hv] at hq
      exact .inr ⟨hv, hq⟩
  constructor
  · intro v q hq
    rcases hcases v q hq with ⟨rfl, rfl⟩ | ⟨-, hq'⟩
    · exact hown
    · exact h.own v q hq'
  · intro v w q r f hq hr hqf hrf
    rcases hcases v q hq with ⟨rfl, rfl⟩ | ⟨-, hq'⟩
    · rcases hcases w r hr with ⟨rfl, rfl⟩ | ⟨-, hr'⟩
      · rfl
      · exact absurd hrf (hfree f hqf w r hr')
    · rcases hcases w r hr with ⟨rfl, rfl⟩ | ⟨-, hr'⟩
      · exact absurd hqf (hfree f hrf v q hq')
      · exact h.unique v w q r f hq' hr' hqf hrf

/-- Nothing is lost when the profiles that are left keep their documents and fingerprints. -/
theorem Covered.of_subset {a a' : Accounts env.aes} (h : Covered env a)
    (hsub : ∀ u p', a'.couriers.get? u = some p' → ∃ p, a.couriers.get? u = some p ∧
      p'.nationalIdEncrypted = p.nationalIdEncrypted ∧
      p'.passportIdEncrypted = p.passportIdEncrypted ∧
      p'.identityFingerprint = p.identityFingerprint) : Covered env a' := by
  constructor
  · intro u p' hp' t ht
    obtain ⟨p, hp, hn, hpass, hf⟩ := hsub u p' hp'
    rw [hf]
    apply h.own u p hp t
    unfold nationalId passportId at ht ⊢
    rw [← hn, ← hpass]
    exact ht
  · intro u v p' q' f hp' hq' hpf hqf
    obtain ⟨p, hp, -, -, hf⟩ := hsub u p' hp'
    obtain ⟨q, hq, -, -, hg⟩ := hsub v q' hq'
    exact h.unique u v p q f hp hq (hf ▸ hpf) (hg ▸ hqf)

/-- The profiles are as they were. -/
theorem Covered.of_eq {a a' : Accounts env.aes} (h : Covered env a)
    (heq : a'.couriers = a.couriers) : Covered env a' :=
  h.of_subset fun _ p' hp' => ⟨p', heq ▸ hp', rfl, rfl, rfl⟩

/-- No two couriers share a document when every document is under its own fingerprint. -/
theorem Covered.noneShared {a : Accounts env.aes} (h : Covered env a) : NoneShared env a := by
  intro u v p q huv hp hq t
  constructor
  · intro ⟨hpt, hqt⟩
    exact huv (h.unique u v p q _ hp hq (h.own u p hp t (.inl hpt)) (h.own v q hq t (.inl hqt)))
  · intro ⟨hpt, hqt⟩
    exact huv (h.unique u v p q _ hp hq (h.own u p hp t (.inr hpt)) (h.own v q hq t (.inr hqt)))

/-! ## What the calls do to the profiles -/

/-- If every document was under its own fingerprint, it still is. -/
def Keeps (env : AccountEnv) (a a' : Accounts env.aes) : Prop := Covered env a → Covered env a'

instance : Std.Refl (Keeps env) := ⟨fun _ h => h⟩

instance : IsTrans (Accounts env.aes) (Keeps env) := ⟨fun _ _ _ h₁ h₂ h => h₂ (h₁ h)⟩

/-- A statement on another table. -/
theorem keeps_write {error : Accounts env.aes → Option Err}
    {patch : Accounts env.aes → Accounts env.aes} (h : ∀ a, (patch a).couriers = a.couriers) :
    Handler.Ensures (Keeps env) (.write error patch) :=
  .write fun a _ hcov => hcov.of_eq (h a)

/-- The `INSERT` of a profile under its own fingerprint. -/
theorem keeps_insert {u : Id} {p : Profile env.aes} (hown : Own env u p) :
    Handler.Ensures (Keeps env) (CourierRepository.insert u p) :=
  .write fun _ hrow hcov => hcov.insert hrow hown _ _ _

/-- The `UPDATE` of other columns of a profile. -/
theorem keeps_update {u : Id} {f : Profile env.aes → Profile env.aes}
    (hf : ∀ p, (f p).nationalIdEncrypted = p.nationalIdEncrypted ∧
      (f p).passportIdEncrypted = p.passportIdEncrypted ∧
      (f p).identityFingerprint = p.identityFingerprint) :
    Handler.Ensures (Keeps env) (CourierRepository.update u f) := by
  apply Handler.Ensures.write
  intro a _ hcov
  apply hcov.of_subset
  intro v p' hp'
  change (a.couriers.update u f).get? v = some p' at hp'
  rw [Table.get?_update] at hp'
  split_ifs at hp' with hv
  · obtain ⟨p, hp, rfl⟩ := Option.map_eq_some_iff.mp hp'
    exact ⟨p, hp, hf p⟩
  · exact ⟨p', hp', rfl, rfl, rfl⟩

/-- The `DELETE` of a profile. -/
theorem keeps_delete {u : Id} : Handler.Ensures (Keeps env) (CourierRepository.delete u) := by
  apply Handler.Ensures.write
  intro a _ hcov
  apply hcov.of_subset
  intro v p' hp'
  change (a.couriers.erase u).get? v = some p' at hp'
  rw [Table.get?_erase] at hp'
  split_ifs at hp'
  exact ⟨p', hp', rfl, rfl, rfl⟩

/-- Tokens are no documents. -/
theorem keeps_issueTokens {now : Time} {r : Drawn} {u : Id} {role : UserRole} :
    Handler.Ensures (Keeps env) (AuthService.issueTokens env now r u role) :=
  .bind (.bind (keeps_write fun _ => rfl) fun _ => .pure _) fun _ => .pure _

/-- A registration as a courier adds one profile, under the fingerprint of its documents. -/
theorem keeps_registerCourier {now : Time} {r : Drawn} {n : AuthService.NewAccount} {phone : Text}
    {q : AuthService.Registration} (hplain : truthy q.nationalId → truthy q.passportId →
      q.nationalId.map strip = q.passportId.map strip) :
    Handler.Ensures (Keeps env) (AuthService.registerCourier env now r n phone q) := by
  have hprofile : Handler.Ensures (Keeps env) (AuthRepository.addCourierWalletAndProfile n.walletId
      n.userId (q.city.getD [])
      (AuthService.encryptDocument env "national_id" n.nationalIv n.userId q.nationalId)
      (AuthService.encryptDocument env "passport_id" n.passportIv n.userId q.passportId)
      (env.hmacHex (AuthService.rawId q))) :=
    .bind (keeps_write fun _ => rfl) fun _ => keeps_insert (own_register hplain rfl rfl rfl)
  refine Handler.Ensures.bind (.require _ _) fun _ => ?_
  refine Handler.Ensures.bind (.require _ _) fun _ => ?_
  refine Handler.Ensures.bind (.read _) fun _ => ?_
  refine Handler.Ensures.bind (.require _ _) fun _ => ?_
  refine Handler.Ensures.bind (keeps_write fun _ => rfl) fun _ => ?_
  exact .bind hprofile fun _ => keeps_issueTokens

/-- A registration writes a document under its own fingerprint when both documents are one text. -/
theorem keeps_register {now : Time} {r : Drawn} {n : AuthService.NewAccount}
    {token : env.jwt.Token} {q : AuthService.Registration}
    (hplain : q.role = .courier → truthy q.nationalId → truthy q.passportId →
      q.nationalId.map strip = q.passportId.map strip) :
    Handler.Ensures (Keeps env) (AuthService.register env now r n token q) := by
  refine Handler.Ensures.bind (.lift _) fun phone => ?_
  refine Handler.Ensures.bind (.read _) fun _ => ?_
  refine Handler.Ensures.bind (.require _ _) fun _ => ?_
  cases hrole : q.role with
  | customer =>
    have hcustomer : Handler.Ensures (Keeps env) (AuthRepository.createCustomer
        n.userId n.walletId phone q.fullName q.email q.dob) :=
      .bind (keeps_write fun _ => rfl) fun _ => keeps_write fun _ => rfl
    exact .bind hcustomer fun _ => keeps_issueTokens
  | courier => exact keeps_registerCourier (hplain hrole)
  | admin => exact .throw _

/-- The profile of an existing courier is under the fingerprint of its document. -/
theorem keeps_createCourierProfile {iv : Bytes} {u : Id} {city : Text} {bio : Option Text}
    {t : Text} {type : String} (hplain : strip t = t) :
    Handler.Ensures (Keeps env) (AdminService.createCourierProfile env iv u city bio t type) := by
  refine Handler.Ensures.bind (.read _) fun _ => ?_
  refine Handler.Ensures.bind (.require _ _) fun _ => ?_
  refine Handler.Ensures.bind (.read _) fun _ => ?_
  refine Handler.Ensures.bind (.require _ _) fun _ => ?_
  refine Handler.Ensures.bind (.require _ _) fun _ => ?_
  refine Handler.Ensures.bind (.require _ _) fun _ => ?_
  refine Handler.Ensures.bind (.require _ _) fun _ => ?_
  refine Handler.Ensures.bind (.read _) fun _ => ?_
  refine Handler.Ensures.bind (.require _ _) fun _ => ?_
  refine keeps_insert (@own_createCourierProfile env iv u type t _ hplain ?_ ?_ rfl)
  · by_cases htype : type = "national_id" <;> simp [htype]
  · by_cases htype : type = "passport_id" <;> simp [htype]

/-- A new user has no documents. -/
theorem keeps_createUser {u : Id} {phone : Text} {fullName email : Option Text} {role : UserRole} :
    Handler.Ensures (Keeps env) (AdminService.createUser u phone fullName email role) := by
  refine Handler.Ensures.bind (.require _ _) fun _ => ?_
  refine Handler.Ensures.bind (.require _ _) fun _ => ?_
  refine Handler.Ensures.bind (.read _) fun _ => ?_
  refine Handler.Ensures.bind (.require _ _) fun _ => ?_
  split_ifs
  · refine Handler.Ensures.bind (.read _) fun _ => ?_
    refine Handler.Ensures.bind (.require _ _) fun _ => ?_
    exact keeps_write fun _ => rfl
  · exact keeps_write fun _ => rfl

/-- A verification writes no document. -/
theorem keeps_verifyCourier {now : Time} {adminId u : Id} {approve : Bool} :
    Handler.Ensures (Keeps env) (AdminService.verifyCourier now adminId u approve) := by
  refine Handler.Ensures.bind (.read _) fun _ => ?_
  refine Handler.Ensures.bind (.require _ _) fun _ => ?_
  refine Handler.Ensures.bind (keeps_update fun _ => ⟨rfl, rfl, rfl⟩) fun _ => ?_
  refine Handler.Ensures.bind (.read _) fun user => ?_
  cases user with
  | none => exact .pure _
  | some user =>
    dsimp only
    split_ifs
    · exact keeps_write fun _ => rfl
    · exact .pure _

/-- Every call whose fingerprint is that of its documents keeps the documents covered. -/
theorem Call.keeps {c : Call env} (hplain : c.Plain) : Handler.Ensures (Keeps env) c.handle := by
  cases c with
  | register now r n token q => exact .bind (keeps_register hplain) fun _ => .pure _
  | createCourierProfile iv userId city bio document type =>
    exact keeps_createCourierProfile hplain
  | createUser userId phone fullName email role => exact keeps_createUser
  | verifyCourier now adminId u approve => exact keeps_verifyCourier
  | updateCourierProfile u city bio =>
    refine Handler.Ensures.bind (.read _) fun _ => ?_
    refine Handler.Ensures.bind (.require _ _) fun _ => ?_
    refine Handler.Ensures.bind (.require _ _) fun _ => ?_
    exact keeps_update fun _ => ⟨rfl, rfl, rfl⟩
  | deleteCourierProfile u =>
    refine Handler.Ensures.bind (.read _) fun _ => ?_
    refine Handler.Ensures.bind (.require _ _) fun _ => ?_
    exact keeps_delete

/-- One call of a run. -/
theorem Covered.exec {a : Accounts env.aes} {c : Call env} (hcov : Covered env a)
    (hplain : c.Plain) : Covered env (c.exec a) := by
  unfold Call.exec
  split
  · rename_i y a' h
    exact Call.keeps hplain a y a' h hcov
  · exact hcov

/-! ## Runs -/

/-- From tables without courier profiles, whatever users there are: after every sequence of calls
whose couriers' registrations give one document, or the same text twice, and whose new profiles
get a document without spaces around it, no two couriers share an identity document. -/
theorem no_shared_document (env : AccountEnv) (a : Accounts env.aes)
    (hnone : a.couriers = .empty) (calls : List (Call env)) (hplain : ∀ c ∈ calls, c.Plain) :
    NoneShared env (calls.foldl Call.exec a) := by
  have hstart : Covered env a := by
    constructor
    · intro u p hp
      rw [hnone] at hp
      cases hp
    · intro u v p q f hp
      rw [hnone] at hp
      cases hp
  have hrun : ∀ a, Covered env a → Covered env (calls.foldl Call.exec a) := by
    clear hstart hnone
    -- Induction on the calls; each of them keeps every document covered by its fingerprint.
    induction calls with
    | nil => exact fun a hcov => hcov
    | cons c calls ih =>
      intro a hcov
      apply ih fun c hc => hplain c (List.mem_cons_of_mem _ hc)
      exact hcov.exec (hplain c List.mem_cons_self)
  exact (hrun a hstart).noneShared

end Identity

namespace Sample

/-- A cipher that writes the context beside the text. -/
def aes : Aesgcm where
  Ciphertext := Text × Aad
  size c := c.1.length + 16
  encrypt _ _ plaintext aad := (plaintext, aad)
  decrypt _ _ c aad := if c.2 = aad then some c.1 else none
  decrypt_encrypt _ _ _ _ := if_pos rfl

/-- One key, under version 1. -/
def cipher : FieldCipher where
  keys v := if v = 1 then some (List.replicate 32 0) else none
  activeVersion := 1
  keySize v k h := by
    split_ifs at h with hv
    obtain rfl := Option.some.inj h
    exact ⟨List.length_replicate, by omega⟩
  active := rfl

/-- Tokens that are their payloads. -/
def jwt : Jwt where
  Token := Claims
  encode c := c
  decode now c := if now < c.exp then some c else none
  decode_encode _ _ := rfl

/-- The collaborators, with the defaults of `core/config.py`. -/
def accountEnv : AccountEnv where
  settings := ⟨30, 30⟩
  jwt := jwt
  aes := aes
  cipher := cipher
  hmacHex := id
  sha256Hex := id

/-- The tables before the first registration. -/
def noAccounts : Accounts aes := ⟨.empty, .empty, .empty, .empty⟩

/-- A courier registers under a phone, with the given documents. -/
def registerCourier (userId : Id) (nationalId passportId : Option Text) :
    Identity.Call accountEnv :=
  .register 0 ⟨userId, [Char.ofNat (userId + 64)], userId, userId⟩
    ⟨userId, userId + 10, [], []⟩ (.registration [Char.ofNat (userId + 64)] 600)
    { role := .courier, fullName := none, email := none, dob := none, city := some ['R']
      nationalId, passportId }

end Sample

namespace Identity

/-- Two couriers register, one with each kind of document. -/
theorem no_shared_document_two : NoneShared Sample.accountEnv
    ([Sample.registerCourier 2 (some ['7', ' ']) none,
      Sample.registerCourier 3 none (some ['9'])].foldl Call.exec Sample.noAccounts) := by
  apply no_shared_document Sample.accountEnv Sample.noAccounts rfl
  intro c hc
  rcases List.mem_cons.mp hc with rfl | hc
  · exact fun _ _ hp => absurd hp (by decide)
  · obtain rfl := List.mem_singleton.mp hc
    exact fun _ hn => absurd hn (by decide)

/-- The first courier registers with a national id and a passport, the second with the same passport
alone: the second registration finds no fingerprint of the passport, and both hold it. -/
theorem passport_registered_twice : Function.Injective Sample.accountEnv.hmacHex ∧
    Sample.noAccounts.couriers = .empty ∧
    ¬NoneShared Sample.accountEnv
      ([Sample.registerCourier 2 (some ['7']) (some ['9']),
        Sample.registerCourier 3 none (some ['9'])].foldl Call.exec Sample.noAccounts) := by
  refine ⟨Function.injective_id, rfl, fun h => ?_⟩
  exact (h 2 3 _ _ (by decide) rfl rfl ['9']).2 ⟨rfl, rfl⟩

end Identity

end Giftly
