import Giftly.Accounts.Models
import Giftly.Datetime

/-!
# The sessions of the dashboard

`admin_auth_service.py` over `admin_session_repository.py`. A session is a row with the hash of its
cookie's value, an expiry that every load moves, and the time of its revocation. The throttle of the
logins is the reply of its script in Redis, which is an argument, and so are the clock and the values
that are drawn. `created_at` is the time of the login.
-/

namespace Giftly.Admin

open Store (Table)
open Datetime (Instant)

/-- A row of `admin_sessions`. -/
structure AdminSession where
  adminUserId : Id
  sessionTokenHash : Text
  ipAddress : Option Text
  userAgent : Option Text
  createdAt : Instant
  expiresAt : Instant
  revokedAt : Option Instant
  deriving DecidableEq

/-- The settings of the dashboard. No validator looks at `ADMIN_SESSION_TTL_MINUTES`, which may be any
integer. -/
structure AdminSettings where
  adminUsername : Option Text
  adminPassword : Option Text
  adminSessionSecret : Option Text
  adminSessionTtlMinutes : ℤ

/-- The collaborators of the service. -/
structure AdminEnv where
  settings : AdminSettings
  /-- `sha256_hex`. -/
  sha256Hex : Text → Text
  /-- `make_csrf_token`, of the hash of a session and the secret. -/
  makeCsrfToken : Text → Text → Text
  /-- `uuid.uuid5` in the name space of the dashboard. -/
  uuid5 : Text → Id

/-- The tables of the dashboard's sign-in. -/
structure AdminDb where
  users : Table Id Account
  sessions : Table Id AdminSession

/-- What the service does with the tables; a request that raises is rolled back. -/
abbrev AdminHandler := StateT AdminDb (Except Err)

namespace AdminHandler

/-- Raise, unless a condition holds. -/
def require (cond : Bool) (e : Err) : AdminHandler Unit := if cond then pure () else throw e

/-- A change of the sessions. -/
def update (f : Table Id AdminSession → Table Id AdminSession) : AdminHandler Unit :=
  modify fun d => { d with sessions := f d.sessions }

variable {α β : Type} {d d' : AdminDb}

/-- A handler in two parts passes when both do. -/
theorem bind_ok {x : AdminHandler α} {f : α → AdminHandler β} {b : β}
    (h : (x >>= f) d = .ok (b, d')) : ∃ a d₁, x d = .ok (a, d₁) ∧ f a d₁ = .ok (b, d') := by
  obtain ⟨⟨a, d₁⟩, hx, hf⟩ := Store.exists_of_bind_eq_ok h
  exact ⟨a, d₁, hx, hf⟩

/-- A handler goes on with what its first part returns. -/
theorem bind_of_ok {x : AdminHandler α} {f : α → AdminHandler β} {a : α} (h : x d = .ok (a, d')) :
    (x >>= f) d = f a d' := by
  change (x d >>= fun p => f p.1 p.2) = _
  rw [h]
  rfl

/-- A computation that succeeded leaves the tables. -/
theorem lift_of_ok {x : Except Err α} {a : α} (h : x = .ok a) :
    (liftM x : AdminHandler α) d = .ok (a, d) := by
  rw [h]
  rfl

/-- A value that is returned leaves the tables. -/
theorem pure_ok {a b : α} (h : (pure a : AdminHandler α) d = .ok (b, d')) : a = b ∧ d = d' :=
  Prod.mk.inj (Except.ok.inj h)

/-- After a check that passed, what is checked holds. -/
theorem require_ok {cond : Bool} {e : Err} {u : Unit} (h : require cond e d = .ok (u, d')) :
    cond = true ∧ d = d' := by
  unfold require at h
  split_ifs at h with hc
  · exact ⟨hc, (pure_ok h).2⟩
  · cases h

/-- A computation that does not see the tables. -/
theorem lift_ok {x : Except Err α} {a : α} (h : (liftM x : AdminHandler α) d = .ok (a, d')) :
    x = .ok a ∧ d = d' := by
  cases x with
  | error e => cases h
  | ok b =>
    obtain ⟨rfl, rfl⟩ := Prod.mk.inj (Except.ok.inj h)
    exact ⟨rfl, rfl⟩

end AdminHandler

namespace AdminSessionRepository

/-- The row that a login creates. -/
def newSession (adminUserId : Id) (tokenHash : Text) (now expiresAt : Instant)
    (ipAddress userAgent : Option Text) : AdminSession :=
  { adminUserId, sessionTokenHash := tokenHash, ipAddress, userAgent, createdAt := now, expiresAt
    revokedAt := none }

/-- `create`. -/
def create (id : Id) (s : AdminSession) : AdminHandler Unit := do
  let d ← get
  AdminHandler.require (d.sessions.get? id).isNone (.integrity .primaryKey)
  AdminHandler.require (d.sessions.find? fun _ r => r.sessionTokenHash = s.sessionTokenHash).isNone
    (.integrity .uqAdminSessionsTokenHash)
  AdminHandler.update fun t => t.insert id s

/-- The condition of `get_active`. -/
def active (tokenHash : Text) (now : Instant) (s : AdminSession) : Bool :=
  s.sessionTokenHash = tokenHash && s.revokedAt.isNone && now < s.expiresAt

/-- `get_active`. -/
def getActive (tokenHash : Text) (now : Instant) : AdminHandler (Option (Id × AdminSession)) := do
  return (← get).sessions.find? fun _ s => active tokenHash now s

/-- `touch`. -/
def touch (id : Id) (expiresAt : Instant) : AdminHandler Unit :=
  AdminHandler.update fun t => t.update id fun s => { s with expiresAt := expiresAt }

/-- `revoke`. -/
def revoke (id : Id) (now : Instant) : AdminHandler Unit :=
  AdminHandler.update fun t => t.update id fun s => { s with revokedAt := some now }

end AdminSessionRepository

/-- A user who may use the dashboard. -/
def mayAdminister (u : Account) : Bool := u.role = .admin && u.status = .active

/-- The user that stands for the dashboard's administrator. -/
def dashboardAdmin (phone : Text) : Account :=
  { phone, email := none, fullName := some "Dashboard administrator".toList, dateOfBirth := none
    role := .admin, status := .active, deletedAt := none }

/-- `ensure_dashboard_admin`: the actor of a name, inserted unless its id or its phone is taken. -/
def ensureDashboardAdmin (env : AdminEnv) (username : Text) :
    AdminHandler (Option (Id × Account)) := do
  let adminId := env.uuid5 username
  let phone := "admin:".toList ++ (env.sha256Hex username).take 14
  modify fun d =>
    if (d.users.find? fun _ u => u.phone = phone).isSome then d
    else { d with users := d.users.insert adminId (dashboardAdmin phone) }
  return ((← get).users.get? adminId).map fun u => (adminId, u)

/-- The user of an id, when it is an active administrator. -/
def administrator (id : Id) : AdminHandler (Option Account) := do
  return ((← get).users.get? id).filter mayAdminister

namespace AdminAuthService

/-- `_ABSOLUTE_CAP`. -/
def absoluteCap : ℤ := Datetime.minutes (12 * 60)

/-- `_LOGIN_WINDOW_SECONDS`. -/
def loginWindowSeconds : ℕ := 300

/-- `_session_secret`. -/
def sessionSecret (env : AdminEnv) : Except Err Text :=
  match env.settings.adminSessionSecret with
  | none => .error (.unauthorized "Admin dashboard is not configured.")
  | some secret => .ok secret

/-- `_credentials_match`. -/
def credentialsMatch (env : AdminEnv) (username password : Text) : Bool :=
  username = env.settings.adminUsername.getD [] && password = env.settings.adminPassword.getD []

/-- `_check_login_throttle`, by the reply of its script; `none` is a script that raised. -/
def checkLoginThrottle (reply : Option Bool) : Except Err Unit :=
  if reply = some true then .ok () else .error (.rateLimited loginWindowSeconds)

/-- The values drawn for a login: the cookie's value and the id of the row. -/
structure Drawn where
  raw : Text
  sessionId : Id

/-- `AdminLogin`. -/
structure AdminLogin where
  rawSessionToken : Text
  csrfToken : Text
  admin : Id × Account

/-- What a login is refused with. -/
def generic : Err := .unauthorized "Login failed. Check your credentials and try again."

/-- `complete_login`. -/
def completeLogin (env : AdminEnv) (now : Instant) (draw : Drawn) (throttle : Option Bool)
    (username password : Text) (ip userAgent : Option Text) : AdminHandler AdminLogin := do
  checkLoginThrottle throttle
  AdminHandler.require (credentialsMatch env username password) generic
  match ← ensureDashboardAdmin env username with
  | none => throw generic
  | some user =>
    AdminHandler.require (mayAdminister user.2) generic
    let tokenHash := env.sha256Hex draw.raw
    let ttl ← (Datetime.timedelta env.settings.adminSessionTtlMinutes : Except Err ℤ)
    let expiresAt ← (Datetime.add now ttl : Except Err Instant)
    AdminSessionRepository.create draw.sessionId
      (AdminSessionRepository.newSession user.1 tokenHash now expiresAt ip userAgent)
    let secret ← (sessionSecret env : Except Err Text)
    return { rawSessionToken := draw.raw, csrfToken := env.makeCsrfToken tokenHash secret
             admin := user }

/-- `load_session`: the expiry slides, but not past the cap. -/
def loadSession (env : AdminEnv) (now : Instant) (rawToken : Text) :
    AdminHandler (AdminSession × Account) := do
  match ← AdminSessionRepository.getActive (env.sha256Hex rawToken) now with
  | none => throw (.unauthorized "Your session has expired. Please sign in again.")
  | some (id, row) =>
    match ← administrator row.adminUserId with
    | none => throw (.unauthorized "Your session is no longer valid.")
    | some admin =>
      let cap ← (Datetime.add row.createdAt absoluteCap : Except Err Instant)
      let ttl ← (Datetime.timedelta env.settings.adminSessionTtlMinutes : Except Err ℤ)
      let newExpiry := min (← (Datetime.add now ttl : Except Err Instant)) cap
      AdminSessionRepository.touch id newExpiry
      return ({ row with expiresAt := newExpiry }, admin)

/-- `logout`. -/
def logout (env : AdminEnv) (now : Instant) (rawToken : Text) : AdminHandler Unit := do
  match ← AdminSessionRepository.getActive (env.sha256Hex rawToken) now with
  | none => return
  | some (id, _) => AdminSessionRepository.revoke id now

end AdminAuthService

end Giftly.Admin
