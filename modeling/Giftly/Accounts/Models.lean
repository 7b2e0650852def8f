import Giftly.Core.Crypto
import Giftly.Schema

/-!
# The tables of the accounts

The users, their wallets, the courier profiles and the refresh tokens, with the statements of
`auth_repository.py`, `user_repository.py` and `courier_repository.py`. A handler is a state
transformer that may raise; a request that raises is rolled back, so it has no state then. Audit
rows are left out: no handler reads them.
-/

namespace Giftly

open Store (Table)

/-- A row of `users`. -/
structure Account where
  phone : Text
  email : Option Text
  fullName : Option Text
  dateOfBirth : Option ℤ
  role : UserRole
  status : UserStatus
  deletedAt : Option Time
  deriving DecidableEq

/-- A row of `courier_profiles`, under the id of its user. -/
structure Profile (aes : Aesgcm) where
  cityOfResidence : Text
  bio : Option Text
  nationalIdEncrypted : Option (Blob aes)
  passportIdEncrypted : Option (Blob aes)
  identityFingerprint : Option Text
  isVerified : Bool
  verifiedAt : Option Time
  verifiedByAdminId : Option Id

/-- A row of `refresh_tokens`. -/
structure RefreshToken where
  userId : Id
  tokenHash : Text
  familyId : Id
  expiresAt : Time
  usedAt : Option Time
  revokedAt : Option Time
  deriving DecidableEq

/-- The tables that the account services read and write. -/
structure Accounts (aes : Aesgcm) where
  users : Table Id Account
  wallets : Table Id Wallet
  couriers : Table Id (Profile aes)
  refreshTokens : Table Id RefreshToken

/-- What an account service does with the tables. -/
abbrev Handler (aes : Aesgcm) := StateT (Accounts aes) (Except Err)

namespace Handler

variable {aes : Aesgcm} {α β : Type}

/-- Raise, unless a condition holds. -/
def require (cond : Bool) (e : Err) : Handler aes Unit :=
  if cond then pure () else throw e

/-- An `INSERT` or an `UPDATE`, with the first of its violated constraints. -/
def write (error : Accounts aes → Option Err) (patch : Accounts aes → Accounts aes) :
    Handler aes Unit := fun a =>
  match error a with
  | some e => .error e
  | none => .ok ((), patch a)

/-- A handler in two parts passes when both do. -/
theorem bind_ok {x : Handler aes α} {f : α → Handler aes β} {a a'' : Accounts aes} {b : β}
    (h : (x >>= f) a = .ok (b, a'')) : ∃ y a', x a = .ok (y, a') ∧ f y a' = .ok (b, a'') := by
  obtain ⟨⟨y, a'⟩, hx, hf⟩ := Store.exists_of_bind_eq_ok h
  exact ⟨y, a', hx, hf⟩

/-- A value that is returned leaves the tables. -/
theorem pure_ok {x y : α} {a a' : Accounts aes}
    (h : (pure x : Handler aes α) a = .ok (y, a')) : x = y ∧ a = a' :=
  Prod.mk.inj (Except.ok.inj h)

/-- A read of the tables returns them. -/
theorem get_ok {x a a' : Accounts aes} (h : (get : Handler aes _) a = .ok (x, a')) :
    a = x ∧ a = a' := by
  obtain ⟨rfl, rfl⟩ := Prod.mk.inj (Except.ok.inj h)
  exact ⟨rfl, rfl⟩

/-- After a check that passed, what is checked holds. -/
theorem require_ok {cond : Bool} {e : Err} {u : Unit} {a a' : Accounts aes}
    (h : require cond e a = .ok (u, a')) : cond = true ∧ a = a' := by
  unfold require at h
  split_ifs at h with hc
  · exact ⟨hc, (pure_ok h).2⟩
  · cases h

/-- A write that passed met the constraints. -/
theorem write_ok {error : Accounts aes → Option Err} {patch : Accounts aes → Accounts aes}
    {u : Unit} {a a' : Accounts aes} (h : write error patch a = .ok (u, a')) :
    error a = none ∧ a' = patch a := by
  unfold write at h
  split at h
  · cases h
  · rename_i hnone
    exact ⟨hnone, (Prod.mk.inj (Except.ok.inj h)).2.symm⟩

/-- Whenever the handler passes, the tables before and after it are related. -/
def Ensures (R : Accounts aes → Accounts aes → Prop) (x : Handler aes α) : Prop :=
  ∀ a y a', x a = .ok (y, a') → R a a'

namespace Ensures

variable {R : Accounts aes → Accounts aes → Prop}

/-- Two handlers in a row ensure a transitive relation if each does. -/
theorem bind [IsTrans (Accounts aes) R] {x : Handler aes α} {f : α → Handler aes β}
    (hx : Ensures R x) (hf : ∀ y, Ensures R (f y)) : Ensures R (x >>= f) := by
  intro a z a'' h
  obtain ⟨y, a', hy, hz⟩ := bind_ok h
  exact IsTrans.trans _ _ _ (hx a y a' hy) (hf y a' z a'' hz)

/-- A value that is returned ensures a reflexive relation. -/
theorem pure [Std.Refl R] (x : α) : Ensures R (Pure.pure x : Handler aes α) := by
  intro a y a' h
  obtain ⟨-, rfl⟩ := pure_ok h
  exact Std.Refl.refl a

/-- A read of the tables ensures a reflexive relation. -/
theorem get [Std.Refl R] : Ensures R (MonadState.get : Handler aes (Accounts aes)) := by
  intro a y a' h
  obtain ⟨-, rfl⟩ := get_ok h
  exact Std.Refl.refl a

/-- A read of the tables. -/
theorem read [IsTrans (Accounts aes) R] [Std.Refl R] (f : Accounts aes → α) :
    Ensures R (do return f (← MonadState.get) : Handler aes α) :=
  get.bind fun _ => pure _

/-- A step of a library that does not see the tables. -/
theorem lift [Std.Refl R] (x : Except Err α) : Ensures R (liftM x : Handler aes α) := by
  intro a y a' h
  cases x with
  | error e => cases h
  | ok z =>
    obtain ⟨-, rfl⟩ := Prod.mk.inj (Except.ok.inj h)
    exact Std.Refl.refl a

/-- A handler that raises ensures anything. -/
theorem throw (e : Err) : Ensures R (throw e : Handler aes α) := by
  intro a y a' h
  cases h

/-- A check ensures a reflexive relation. -/
theorem require [Std.Refl R] (cond : Bool) (e : Err) : Ensures R (require cond e) := by
  intro a y a' h
  obtain ⟨-, rfl⟩ := require_ok h
  exact Std.Refl.refl a

/-- A write ensures what it does to the tables when the constraints hold. -/
theorem write {error : Accounts aes → Option Err} {patch : Accounts aes → Accounts aes}
    (h : ∀ a, error a = none → R a (patch a)) : Ensures R (write error patch) := by
  intro a y a' hok
  obtain ⟨hnone, rfl⟩ := write_ok hok
  exact h a hnone

end Ensures

end Handler

/-! ## Statements -/

variable {aes : Aesgcm}

namespace UserRepository

/-- `get`. -/
def get (id : Id) : Handler aes (Option Account) := do
  return (← MonadState.get).users.get? id

/-- `get_by_phone`. -/
def getByPhone (phone : Text) : Handler aes (Option (Id × Account)) := do
  return (← MonadState.get).users.find? fun _ u => u.phone = phone

/-- `get_by_email`. -/
def getByEmail (email : Text) : Handler aes (Option (Id × Account)) := do
  return (← MonadState.get).users.find? fun _ u => u.email = some email

/-- The constraints of `users` on a row among the others. -/
def rowError (id : Id) (u : Account) (a : Accounts aes) : Option Err :=
  violated [(fitsText 20 (some u.phone) && fitsText 255 u.email && fitsText 120 u.fullName, .data),
    ((a.users.get? id).isNone, .integrity .primaryKey),
    ((a.users.find? fun _ v => v.phone = u.phone).isNone, .integrity .uqUsersPhone),
    (u.email.isNone || (a.users.find? fun _ v => v.email = u.email).isNone,
      .integrity .uqUsersEmail)]

/-- The `INSERT` of a user. -/
def insert (id : Id) (u : Account) : Handler aes Unit :=
  .write (rowError id u) fun a => { a with users := a.users.insert id u }

/-- `create_admin_user`: the status is the column's default. -/
def createAdminUser (id : Id) (phone : Text) (fullName email : Option Text) (role : UserRole) :
    Handler aes Unit :=
  insert id { phone, email, fullName, dateOfBirth := none, role, status := .active
              deletedAt := none }

/-- The `UPDATE` of a user's columns. -/
def update (id : Id) (f : Account → Account) : Handler aes Unit :=
  .write (fun a =>
      match a.users.get? id with
      | none => some .staleData
      | some u => rowError id (f u) { a with users := a.users.erase id })
    fun a => { a with users := a.users.update id f }

/-- `soft_delete`. -/
def softDelete (now : Time) (id : Id) : Handler aes Unit :=
  update id fun u => { u with status := .banned, deletedAt := some now }

/-- `set_status`. -/
def setStatus (id : Id) (status : UserStatus) : Handler aes Unit :=
  update id fun u => { u with status := status }

end UserRepository

namespace CourierRepository

/-- `get`. -/
def get (userId : Id) : Handler aes (Option (Profile aes)) := do
  return (← MonadState.get).couriers.get? userId

/-- `fingerprint_exists`, as both repositories have it. -/
def fingerprintExists (fingerprint : Text) : Handler aes Bool := do
  return ((← MonadState.get).couriers.find? fun _ p =>
    p.identityFingerprint = some fingerprint).isSome

/-- The constraints of `courier_profiles` on a row among the others. -/
def rowError (userId : Id) (p : Profile aes) (a : Accounts aes) : Option Err :=
  violated [(fitsText 100 (some p.cityOfResidence) &&
      (p.nationalIdEncrypted.all fun b => b.length ≤ 512) &&
      (p.passportIdEncrypted.all fun b => b.length ≤ 512) && fitsText 64 p.identityFingerprint,
      .data),
    (p.passportIdEncrypted.isSome || p.nationalIdEncrypted.isSome,
      .integrity .chkIdentityPresent),
    ((a.couriers.get? userId).isNone, .integrity .primaryKey),
    ((a.users.get? userId).isSome, .integrity .foreignKey),
    (p.identityFingerprint.isNone || (a.couriers.find? fun _ q =>
      q.identityFingerprint = p.identityFingerprint).isNone,
      .integrity .uqCourierIdentityFingerprint)]

/-- The `INSERT` of a profile. -/
def insert (userId : Id) (p : Profile aes) : Handler aes Unit :=
  .write (rowError userId p) fun a => { a with couriers := a.couriers.insert userId p }

/-- `create_admin_profile`. -/
def createAdminProfile (userId : Id) (cityOfResidence : Text) (bio : Option Text)
    (nationalIdEncrypted passportIdEncrypted : Option (Blob aes)) (identityFingerprint : Text) :
    Handler aes Unit :=
  insert userId
    { cityOfResidence, bio, nationalIdEncrypted, passportIdEncrypted
      identityFingerprint := some identityFingerprint
      isVerified := false, verifiedAt := none, verifiedByAdminId := none }

/-- `delete`. -/
def delete (userId : Id) : Handler aes Unit :=
  .write (fun _ => none) fun a => { a with couriers := a.couriers.erase userId }

/-- The `UPDATE` of a profile's columns. -/
def update (userId : Id) (f : Profile aes → Profile aes) : Handler aes Unit :=
  .write (fun a =>
      match a.couriers.get? userId with
      | none => some .staleData
      | some p => rowError userId (f p) { a with couriers := a.couriers.erase userId })
    fun a => { a with couriers := a.couriers.update userId f }

/-- `set_verified`. -/
def setVerified (userId : Id) (isVerified : Bool) (adminId : Id) (now : Time) : Handler aes Unit :=
  update userId fun p =>
    { p with
      isVerified := isVerified
      verifiedAt := if isVerified then some now else none
      verifiedByAdminId := some adminId }

/-- `update_admin_profile`. -/
def updateAdminProfile (userId : Id) (cityOfResidence : Text) (bio : Option Text) :
    Handler aes Unit :=
  update userId fun p => { p with cityOfResidence := cityOfResidence, bio := bio }

end CourierRepository

namespace AuthRepository

/-- The `INSERT` of a user's wallet, without money. -/
def insertWallet (id userId : Id) (type : WalletType) : Handler aes Unit :=
  .write (fun a => violated [((a.wallets.get? id).isNone, .integrity .primaryKey),
      ((a.users.get? userId).isSome, .integrity .foreignKey),
      ((a.wallets.find? fun _ w => w.userId = some userId).isNone, .integrity .uqWalletsUser)])
    fun a => { a with wallets := a.wallets.insert id ⟨some userId, type, 0, 0, 0⟩ }

/-- `create_customer`. -/
def createCustomer (userId walletId : Id) (phone : Text) (fullName email : Option Text)
    (dob : Option ℤ) : Handler aes Unit := do
  UserRepository.insert userId
    { phone, email, fullName, dateOfBirth := dob, role := .customer, status := .active
      deletedAt := none }
  insertWallet walletId userId .customer

/-- `create_courier_user`. -/
def createCourierUser (userId : Id) (phone : Text) (fullName email : Option Text)
    (dob : Option ℤ) : Handler aes Unit :=
  UserRepository.insert userId
    { phone, email, fullName, dateOfBirth := dob, role := .courier, status := .pendingVerification
      deletedAt := none }

/-- `add_courier_wallet_and_profile`. -/
def addCourierWalletAndProfile (walletId userId : Id) (city : Text)
    (nationalIdEncrypted passportIdEncrypted : Option (Blob aes)) (identityFingerprint : Text) :
    Handler aes Unit := do
  insertWallet walletId userId .courier
  CourierRepository.insert userId
    { cityOfResidence := city, bio := none, nationalIdEncrypted, passportIdEncrypted
      identityFingerprint := some identityFingerprint
      isVerified := false, verifiedAt := none, verifiedByAdminId := none }

/-- `add_refresh_token`. -/
def addRefreshToken (id : Id) (t : RefreshToken) : Handler aes Unit :=
  .write (fun a => violated [((a.refreshTokens.get? id).isNone, .integrity .primaryKey),
      ((a.users.get? t.userId).isSome, .integrity .foreignKey),
      ((a.refreshTokens.find? fun _ u => u.tokenHash = t.tokenHash).isNone,
        .integrity .uqRefreshTokensHash)])
    fun a => { a with refreshTokens := a.refreshTokens.insert id t }

/-- `get_refresh_token`. -/
def getRefreshToken (tokenHash : Text) : Handler aes (Option (Id × RefreshToken)) := do
  return (← MonadState.get).refreshTokens.find? fun _ t => t.tokenHash = tokenHash

/-- The `UPDATE` of the tokens that meet a condition. -/
def updateTokens (cond : RefreshToken → Bool) (f : RefreshToken → RefreshToken) :
    Handler aes Unit :=
  .write (fun _ => none) fun a =>
    { a with refreshTokens := a.refreshTokens.mapRows fun _ t => if cond t then f t else t }

/-- `mark_refresh_used`. -/
def markRefreshUsed (id : Id) (now : Time) : Handler aes Unit :=
  .write (fun _ => none) fun a =>
    { a with refreshTokens := a.refreshTokens.update id fun t => { t with usedAt := some now } }

/-- `revoke_family`. -/
def revokeFamily (familyId : Id) (now : Time) : Handler aes Unit :=
  updateTokens (fun t => t.familyId = familyId && t.revokedAt.isNone)
    fun t => { t with revokedAt := some now }

/-- `revoke_all_for_user`. -/
def revokeAllForUser (userId : Id) (now : Time) : Handler aes Unit :=
  updateTokens (fun t => t.userId = userId && t.revokedAt.isNone)
    fun t => { t with revokedAt := some now }

end AuthRepository

end Giftly
