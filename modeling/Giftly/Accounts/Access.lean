import Giftly.Accounts.Services
import Giftly.Admin.Sessions
import Giftly.Store.Expiring

/-!
# Access

Who may do what with a token: `require_auth` of `core/deps.py`, `logout`, the two keys of Redis that
decide about access tokens, and the requests that write them or the tables behind them. A request is
served at a time of its own, on the tables and the keys (`World.serve`); one that raises is rolled
back.

A `World` also remembers what was drawn and handed out. A token that is presented is genuine: whatever
it decodes to, a token that was handed out decodes to. That is what a signature is for, and it is
assumed of the library, as is that random values do not repeat.
-/

namespace Giftly

open Store (Cell)

/-- `Actor`: the caller of a request. -/
structure Actor where
  id : Id
  role : UserRole
  jti : Id
  deriving DecidableEq

namespace UserRepository

variable {aes : Aesgcm}

/-- `ensure_dashboard_admin`, on the tables of the accounts. -/
def ensureDashboardAdmin (adminId : Id) (phone : Text) : Handler aes Unit :=
  .write (fun _ => none) fun a =>
    if (a.users.find? fun _ u => u.phone = phone).isSome then a
    else { a with users := a.users.insert adminId (Admin.dashboardAdmin phone) }

end UserRepository

/-- `purge_expired`. -/
def AuthRepository.purgeExpired {aes : Aesgcm} (before : Time) : Handler aes Unit :=
  .write (fun _ => none) fun a =>
    { a with refreshTokens := a.refreshTokens.filter fun _ t => !(t.expiresAt < before : Bool) }

namespace Access

/-- The keys of Redis that decide about access tokens. -/
structure Keys where
  /-- `jwt:denylist:{jti}`. -/
  denylist : Id → Cell Unit
  /-- `auth:banned:{user_id}`. -/
  banned : Id → Cell Unit

variable (env : AccountEnv)

/-- `require_auth`, on the token of the header. -/
def requireAuth (k : Keys) (now : Time) : Option env.jwt.Token → Except Err Actor
  | none => .error (.unauthorized "Missing bearer token.")
  | some token =>
    match env.jwt.decodeAccessToken now token with
    | .error _ => .error (.unauthorized "Invalid or expired token.")
    | .ok claims =>
      if ((k.denylist claims.jti).get now).isSome then
        .error (.unauthorized "This session has been revoked.")
      else if ((k.banned claims.sub).get now).isSome then
        .error (.unauthorized "This account has been suspended.")
      else .ok { id := claims.sub, role := claims.role, jti := claims.jti }

/-- `require_role`: the actor, when it has one of the roles. -/
def requireRole (allowed : List UserRole) (actor : Actor) : Except Err Actor :=
  if actor.role ∈ allowed then .ok actor
  else .error (.forbidden "Your role may not perform this action.")

/-- `logout`, on the claims of the caller's token. -/
def Keys.logout (k : Keys) (now : Time) (claims : Jwt.AccessClaims) : Keys :=
  { k with
    denylist := Function.update k.denylist claims.jti
      (.set () now (max (claims.exp - now) 1).toNat) }

/-- The key that `set_user_banned` and `delete_user` write: it outlives every access token. -/
def Keys.flag (k : Keys) (s : AuthSettings) (now : Time) : Option (Id × Bool) → Keys
  | none => k
  | some (userId, true) =>
    { k with
      banned := Function.update k.banned userId (.set () now (s.jwtAccessTtlMinutes * 60 + 60)) }
  | some (userId, false) => { k with banned := Function.update k.banned userId none }

/-- A request that reads or writes users, courier profiles or tokens. -/
inductive Request
  | register (r : Drawn) (n : AuthService.NewAccount) (token : env.jwt.Token)
    (q : AuthService.Registration)
  | verifyOtp (r : Drawn) (phone : Text)
  | refresh (r : Drawn) (raw : Text)
  | createUser (userId : Id) (phone : Text) (fullName email : Option Text) (role : UserRole)
  | updateUserProfile (userId : Id) (phone fullName email : Option Text)
  | setUserBanned (userId : Id) (banned : Bool)
  | deleteUser (userId : Id)
  | verifyCourier (adminId courierUserId : Id) (approve : Bool)
  | createCourierProfile (iv : Bytes) (userId : Id) (cityOfResidence : Text) (bio : Option Text)
    (identityDocument : Text) (identityType : String)
  | updateCourierProfile (userId : Id) (cityOfResidence : Text) (bio : Option Text)
  | deleteCourierProfile (userId : Id)
  | dashboardLogin (adminId : Id) (phone : Text)
  | purgeExpired (before : Time)

variable {env}

namespace Request

/-- The random values that a request draws for tokens. -/
def drawn : Request env → Option Drawn
  | .register r .. | .verifyOtp r _ | .refresh r _ => some r
  | _ => none

/-- The ban that a request sets, or lifts. -/
def ban : Request env → Option (Id × Bool)
  | .setUserBanned userId banned => some (userId, banned)
  | .deleteUser userId => some (userId, true)
  | _ => none

/-- What a request does to the tables, and the tokens that it hands out. -/
def handle (now : Time) : Request env → Handler env.aes (List env.jwt.Token)
  | .register r n token q => do
    let pair ← AuthService.register env now r n token q
    return [pair.accessToken]
  | .verifyOtp r phone => do
    match ← AuthService.verifyOtp env now r phone with
    | .tokens pair => return [pair.accessToken]
    | .registration token => return [token]
  | .refresh r raw => do
    match ← AuthService.refresh env now r raw with
    | .ok pair => return [pair.accessToken]
    | .error _ => return []
  | .createUser userId phone fullName email role => do
    AdminService.createUser userId phone fullName email role
    return []
  | .updateUserProfile userId phone fullName email => do
    AdminService.updateUserProfile userId phone fullName email
    return []
  | .setUserBanned userId banned => do
    AdminService.setUserBanned now userId banned
    return []
  | .deleteUser userId => do
    AdminService.deleteUser now userId
    return []
  | .verifyCourier adminId courierUserId approve => do
    AdminService.verifyCourier now adminId courierUserId approve
    return []
  | .createCourierProfile iv userId city bio document type => do
    AdminService.createCourierProfile env iv userId city bio document type
    return []
  | .updateCourierProfile userId city bio => do
    AdminService.updateCourierProfile userId city bio
    return []
  | .deleteCourierProfile userId => do
    AdminService.deleteCourierProfile userId
    return []
  | .dashboardLogin adminId phone => do
    UserRepository.ensureDashboardAdmin adminId phone
    return []
  | .purgeExpired before => do
    AuthRepository.purgeExpired before
    return []

end Request

variable (env)

/-- Random values that have not been drawn before. -/
def Fresh (drawn : List Drawn) (r : Drawn) : Prop :=
  ∀ x ∈ drawn, x.jti ≠ r.jti ∧ x.familyId ≠ r.familyId ∧
    env.sha256Hex x.raw ≠ env.sha256Hex r.raw

/-- The tables and the keys, with what has happened so far. -/
structure World where
  accounts : Accounts env.aes
  keys : Keys
  /-- The time of the last request. -/
  now : Time
  /-- The tokens that were handed out. -/
  handed : List env.jwt.Token
  /-- The `jti`s of the access tokens that were logged out. -/
  loggedOut : List Id
  /-- The random values that were drawn. -/
  drawn : List Drawn

variable {env}

namespace World

/-- A token decodes to nothing but what a token that was handed out decodes to. -/
def Genuine (w : World env) (token : env.jwt.Token) : Prop :=
  ∀ now c, env.jwt.decode now token = some c → ∃ t ∈ w.handed, env.jwt.decode now t = some c

/-- A request is served at a time. -/
def serve (w : World env) (now : Time) (r : Request env) : World env :=
  match r.handle now w.accounts with
  | .ok (tokens, accounts) =>
    { w with
      accounts
      keys := w.keys.flag env.settings now r.ban
      now
      handed := w.handed ++ tokens
      drawn := w.drawn ++ r.drawn.toList }
  | .error _ => { w with now, drawn := w.drawn ++ r.drawn.toList }

/-- A caller logs out. -/
def serveLogout (w : World env) (now : Time) (token : env.jwt.Token) : World env :=
  match requireAuth env w.keys now (some token), env.jwt.decodeAccessToken now token with
  | .ok actor, .ok claims =>
    { w with keys := w.keys.logout now claims, now, loggedOut := actor.jti :: w.loggedOut }
  | _, _ => { w with now }

/-- A run of requests, in the order of their times. -/
inductive Run (w : World env) : World env → Prop
  | refl : Run w w
  | serve {w' : World env} (h : Run w w') (now : Time) (r : Request env) (hnow : w'.now ≤ now)
      (hfresh : ∀ x ∈ r.drawn, Fresh env w'.drawn x) : Run w (w'.serve now r)
  | logout {w' : World env} (h : Run w w') (now : Time) (token : env.jwt.Token)
      (hnow : w'.now ≤ now) (hgenuine : w'.Genuine token) : Run w (w'.serveLogout now token)

/-- Nobody has a token yet. -/
structure Start (w : World env) : Prop where
  tokens : w.accounts.refreshTokens = .empty
  denylist : ∀ jti, w.keys.denylist jti = none
  banned : ∀ id, w.keys.banned id = none
  handed : w.handed = []
  loggedOut : w.loggedOut = []

end World

end Access

end Giftly
