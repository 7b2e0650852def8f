import Giftly.Accounts.Models
import Giftly.Services.Payment

/-!
# The account services

`AuthService` of `auth_service.py`, after the one-time code of a login is verified, and the parts of
`AdminService` of `admin_service.py` that write users and courier profiles. A service gets the random
values that it draws as arguments, and the collaborators that it is wired with as an `AccountEnv`.
The writes of `set_user_banned` and `delete_user` to Redis are not here.
-/

namespace Giftly

open Store (Table)

/-- The collaborators of the account services. -/
structure AccountEnv where
  settings : AuthSettings
  jwt : Jwt
  aes : Aesgcm
  cipher : FieldCipher
  /-- `hmac_hex` under `IDENTITY_FINGERPRINT_PEPPER`. -/
  hmacHex : Text → Text
  /-- `sha256_hex`. -/
  sha256Hex : Text → Text

/-- A pair of tokens, with the role that it is for. -/
structure TokenPair (env : AccountEnv) where
  accessToken : env.jwt.Token
  refreshToken : Text
  role : UserRole

/-- What `verify_otp` gives: tokens of a user, or a registration token. -/
inductive VerifyResult (env : AccountEnv)
  | tokens (pair : TokenPair env)
  | registration (token : env.jwt.Token)

/-- The values drawn when tokens are issued: a `jti`, the raw refresh token, and the keys of its row
and its family. -/
structure Drawn where
  jti : Id
  raw : Text
  refreshId : Id
  familyId : Id
  deriving DecidableEq

/-- A text that is there and not empty. -/
def truthy (t : Option Text) : Bool := t.any fun t => t ≠ []

/-- `a or b`. -/
def orElse (a b : Option Text) : Option Text := if truthy a then a else b

/-- `build_aad` for a column of a courier profile. -/
def profileAad (column : String) (userId : Id) : Aad where
  table := "courier_profiles"
  column := column
  entityId := userId

namespace AuthService

variable (env : AccountEnv)

/-- `_new_refresh`. -/
def newRefresh (now : Time) (r : Drawn) (userId familyId : Id) : Handler env.aes Text := do
  AuthRepository.addRefreshToken r.refreshId
    { userId, tokenHash := env.sha256Hex r.raw, familyId
      expiresAt := now + env.settings.jwtRefreshTtlDays * 86400
      usedAt := none, revokedAt := none }
  return r.raw

/-- `_issue_tokens`. -/
def issueTokens (now : Time) (r : Drawn) (userId : Id) (role : UserRole) :
    Handler env.aes (TokenPair env) := do
  let access := env.jwt.createAccessToken env.settings now r.jti userId role
  let refresh ← newRefresh env now r userId r.familyId
  return { accessToken := access, refreshToken := refresh, role }

/-- `verify_otp`, once the code is found right. -/
def verifyOtp (now : Time) (r : Drawn) (phone : Text) :
    Handler env.aes (VerifyResult env) := do
  match ← UserRepository.getByPhone phone with
  | none => return .registration (env.jwt.createRegistrationToken now phone)
  | some (id, user) =>
    -- a ban blocks fresh logins; `deleted_at` is not looked at
    Handler.require (user.status ≠ .banned) (.unauthorized "This account has been suspended.")
    return .tokens (← issueTokens env now r id user.role)

/-- What `register` is asked for. -/
structure Registration where
  role : UserRole
  fullName : Option Text
  email : Option Text
  dob : Option ℤ
  city : Option Text
  nationalId : Option Text
  passportId : Option Text
  deriving DecidableEq

/-- The keys and the nonces that `register` draws. -/
structure NewAccount where
  userId : Id
  walletId : Id
  nationalIv : Bytes
  passportIv : Bytes
  deriving DecidableEq

/-- The text of a document that `_register_courier` takes the fingerprint of. -/
def rawId (q : Registration) : Text :=
  PaymentService.strip ((orElse (orElse q.nationalId q.passportId) (some [])).getD [])

/-- A document as `_register_courier` stores it. -/
def encryptDocument (column : String) (iv : Bytes) (userId : Id) (document : Option Text) :
    Option (Blob env.aes) :=
  if truthy document then
    document.map fun t =>
      env.cipher.encrypt iv (PaymentService.strip t) (profileAad column userId)
  else none

/-- `_register_courier`. -/
def registerCourier (now : Time) (r : Drawn) (n : NewAccount) (phone : Text) (q : Registration) :
    Handler env.aes (TokenPair env) := do
  Handler.require (truthy q.city)
    (.validationDomain "A courier must provide a city of residence.")
  Handler.require (truthy q.nationalId || truthy q.passportId)
    (.validationDomain "A courier must provide a national id or passport.")
  let fingerprint := env.hmacHex (rawId q)
  Handler.require (!(← CourierRepository.fingerprintExists fingerprint))
    (.conflict "This identity document is already registered.")
  AuthRepository.createCourierUser n.userId phone q.fullName q.email q.dob
  AuthRepository.addCourierWalletAndProfile n.walletId n.userId (q.city.getD [])
    (encryptDocument env "national_id" n.nationalIv n.userId q.nationalId)
    (encryptDocument env "passport_id" n.passportIv n.userId q.passportId) fingerprint
  issueTokens env now r n.userId .courier

/-- `register`. -/
def register (now : Time) (r : Drawn) (n : NewAccount) (registrationToken : env.jwt.Token)
    (q : Registration) : Handler env.aes (TokenPair env) := do
  let phone ← (env.jwt.decodeRegistrationToken now registrationToken : Except Err Text)
  Handler.require (← UserRepository.getByPhone phone).isNone
    (.conflict "This phone is already registered.")
  match q.role with
  | .customer =>
    AuthRepository.createCustomer n.userId n.walletId phone q.fullName q.email q.dob
    issueTokens env now r n.userId .customer
  | .courier => registerCourier env now r n phone q
  | .admin => throw (.validationDomain "A public user cannot register as an admin.")

/-- `refresh`. The branch for a token that is used again commits before it raises: it ends with
its writes and an error. -/
def refresh (now : Time) (r : Drawn) (rawRefresh : Text) :
    Handler env.aes (Except Err (TokenPair env)) := do
  match ← AuthRepository.getRefreshToken (env.sha256Hex rawRefresh) with
  | none => throw (.unauthorized "Invalid refresh token.")
  | some (id, row) =>
    if row.revokedAt.isSome || row.usedAt.isSome then
      AuthRepository.revokeFamily row.familyId now
      return .error (.unauthorized "Refresh token reuse detected; please sign in again.")
    Handler.require (now < row.expiresAt) (.unauthorized "Refresh token has expired.")
    AuthRepository.markRefreshUsed id now
    match ← UserRepository.get row.userId with
    | none => throw (.unauthorized "Account no longer exists.")
    | some user =>
      Handler.require (user.status ≠ .banned) (.unauthorized "This account has been suspended.")
      let access := env.jwt.createAccessToken env.settings now r.jti row.userId user.role
      let newRefresh ← newRefresh env now r row.userId row.familyId
      return .ok { accessToken := access, refreshToken := newRefresh, role := user.role }

end AuthService

namespace AdminService

variable {aes : Aesgcm}

/-- `verify_courier`. -/
def verifyCourier (now : Time) (adminId courierUserId : Id) (approve : Bool) :
    Handler aes Unit := do
  Handler.require (← CourierRepository.get courierUserId).isSome
    (.notFound "Courier not found.")
  CourierRepository.setVerified courierUserId approve adminId now
  match ← UserRepository.get courierUserId with
  | none => return
  | some user =>
    if approve && user.status = .pendingVerification then
      UserRepository.setStatus courierUserId .active

/-- `set_user_banned`, without its writes to Redis. -/
def setUserBanned (now : Time) (userId : Id) (banned : Bool) : Handler aes Unit := do
  Handler.require (← UserRepository.get userId).isSome (.notFound "User not found.")
  UserRepository.setStatus userId (if banned then .banned else .active)
  if banned then AuthRepository.revokeAllForUser userId now

/-- `update_user_profile`. -/
def updateUserProfile (userId : Id) (phone fullName email : Option Text) :
    Handler aes Unit := do
  Handler.require (← UserRepository.get userId).isSome (.notFound "User not found.")
  if truthy phone then
    let owner ← UserRepository.getByPhone (phone.getD [])
    Handler.require (owner.all fun o => o.1 = userId)
      (.conflict "That phone number is already used by another user.")
  if truthy email then
    let owner ← UserRepository.getByEmail (email.getD [])
    Handler.require (owner.all fun o => o.1 = userId)
      (.conflict "That email is already used by another user.")
  UserRepository.update userId fun u =>
    { u with phone := phone.getD u.phone, fullName := fullName, email := email }

/-- `create_user`. -/
def createUser (userId : Id) (phone : Text) (fullName email : Option Text) (role : UserRole) :
    Handler aes Unit := do
  Handler.require (role ≠ .admin)
    (.validationDomain "Dashboard administrator accounts are environment-managed.")
  Handler.require (phone ≠ []) (.validationDomain "Phone is required.")
  Handler.require (← UserRepository.getByPhone phone).isNone
    (.conflict "That phone number is already used by another user.")
  if truthy email then
    Handler.require (← UserRepository.getByEmail (email.getD [])).isNone
      (.conflict "That email is already used by another user.")
  UserRepository.createAdminUser userId phone fullName email role

/-- `delete_user`, without its write to Redis. -/
def deleteUser (now : Time) (userId : Id) : Handler aes Unit := do
  match ← UserRepository.get userId with
  | none => throw (.notFound "User not found.")
  | some user =>
    Handler.require (user.role ≠ .admin)
      (.validationDomain "Dashboard administrator accounts are environment-managed.")
    UserRepository.softDelete now userId
    AuthRepository.revokeAllForUser userId now

/-- `update_courier_profile`. -/
def updateCourierProfile (userId : Id) (cityOfResidence : Text) (bio : Option Text) :
    Handler aes Unit := do
  Handler.require (← CourierRepository.get userId).isSome
    (.notFound "Courier not found.")
  Handler.require (cityOfResidence ≠ []) (.validationDomain "City is required.")
  CourierRepository.updateAdminProfile userId cityOfResidence bio

/-- `create_courier_profile`. The document is stored, and its fingerprint taken, as it comes. -/
def createCourierProfile (env : AccountEnv) (iv : Bytes) (userId : Id) (cityOfResidence : Text)
    (bio : Option Text) (identityDocument : Text) (identityType : String) :
    Handler env.aes Unit := do
  Handler.require ((← UserRepository.get userId).any fun u => u.role = .courier)
    (.validationDomain "Courier profiles require an existing courier user.")
  Handler.require (← CourierRepository.get userId).isNone
    (.conflict "That courier already has a profile.")
  Handler.require (cityOfResidence ≠ []) (.validationDomain "City is required.")
  Handler.require (identityDocument ≠ [])
    (.validationDomain "A national ID or passport is required.")
  Handler.require (identityType = "national_id" || identityType = "passport_id")
    (.validationDomain "Identity document type is invalid.")
  let fingerprint := env.hmacHex identityDocument
  Handler.require (!(← CourierRepository.fingerprintExists fingerprint))
    (.conflict "This identity document is already registered.")
  let column := if identityType = "national_id" then "national_id" else "passport_id"
  let encrypted := env.cipher.encrypt iv identityDocument (profileAad column userId)
  CourierRepository.createAdminProfile userId cityOfResidence bio
    (if identityType = "national_id" then some encrypted else none)
    (if identityType = "passport_id" then some encrypted else none) fingerprint

/-- `delete_courier_profile`. -/
def deleteCourierProfile (userId : Id) : Handler aes Unit := do
  Handler.require (← CourierRepository.get userId).isSome
    (.notFound "Courier profile not found.")
  CourierRepository.delete userId

end AdminService

end Giftly
