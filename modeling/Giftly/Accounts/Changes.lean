import Giftly.Accounts.Access

/-!
# What the account requests change

The standing of an account is its role and its status. A request that passes is one of a few changes of
the standings and the refresh tokens (`Change`), and `Request.change` says which tokens it hands out
with each. What the requests write besides does not matter to who has access.
-/

namespace Giftly

open Store (Table)

/-- What access depends on of an account. -/
structure Standing where
  role : UserRole
  status : UserStatus
  deriving DecidableEq

/-- A token that was neither used nor revoked. -/
def RefreshToken.Live (t : RefreshToken) : Prop := t.usedAt = none ∧ t.revokedAt = none

/-- What `refresh` looks at. -/
theorem RefreshToken.spent_iff {t : RefreshToken} :
    (t.revokedAt.isSome || t.usedAt.isSome) = true ↔ ¬t.Live := by
  simp only [Live, Bool.or_eq_true, Option.isSome_iff_ne_none]
  tauto

/-- A token after it was revoked, unless it was before. -/
def RefreshToken.revoked (now : Time) (t : RefreshToken) : RefreshToken :=
  if t.revokedAt.isNone then { t with revokedAt := some now } else t

/-- A token is not alive once it was revoked. -/
@[simp]
theorem RefreshToken.not_live_revoked {now : Time} {t : RefreshToken} : ¬(t.revoked now).Live := by
  unfold Live revoked
  split_ifs with h
  · simp
  · rintro ⟨-, hnone⟩
    simp [hnone] at h

/-- A revocation leaves user, family and hash of a token. -/
theorem RefreshToken.revoked_columns (now : Time) (t : RefreshToken) :
    (t.revoked now).userId = t.userId ∧ (t.revoked now).familyId = t.familyId ∧
      (t.revoked now).tokenHash = t.tokenHash := by
  unfold revoked
  split_ifs <;> exact ⟨rfl, rfl, rfl⟩

namespace Accounts

variable {aes : Aesgcm}

/-- The standing of the account under an id. -/
def standing (a : Accounts aes) (id : Id) : Option Standing :=
  (a.users.get? id).map fun u => ⟨u.role, u.status⟩

/-- The standing of an account is the role and the status of its row. -/
theorem standing_eq_some {a : Accounts aes} {id : Id} {s : Standing} :
    a.standing id = some s ↔ ∃ u, a.users.get? id = some u ∧ u.role = s.role ∧ u.status = s.status := by
  unfold standing
  rw [Option.map_eq_some_iff]
  constructor
  · rintro ⟨u, hu, rfl⟩
    exact ⟨u, hu, rfl, rfl⟩
  · rintro ⟨u, hu, hrole, hstatus⟩
    exact ⟨u, hu, by rw [hrole, hstatus]⟩

/-- The standings are a matter of the users alone. -/
theorem standing_congr {a a' : Accounts aes} (h : a'.users = a.users) :
    a'.standing = a.standing := by
  funext id
  rw [standing, standing, h]

/-- A new user has the standing of its row. -/
theorem standing_insert {a : Accounts aes} {id : Id} {x : Account} (h : a.users.get? id = none) :
    { a with users := a.users.insert id x }.standing =
      Function.update a.standing id (some ⟨x.role, x.status⟩) := by
  funext j
  unfold standing
  by_cases hj : j = id
  · subst hj
    rw [Function.update_self, Table.get?_insert_self _ _ h]
    rfl
  · rw [Function.update_of_ne hj, Table.get?_insert_ne _ _ hj]

end Accounts

namespace Access

open Handler

variable {env : AccountEnv}

/-- The row of the refresh token that is issued with an access token. -/
def refreshRow (env : AccountEnv) (now : Time) (r : Drawn) (userId familyId : Id) : RefreshToken where
  userId := userId
  tokenHash := env.sha256Hex r.raw
  familyId := familyId
  expiresAt := now + env.settings.jwtRefreshTtlDays * 86400
  usedAt := none
  revokedAt := none

/-- The tables after a refresh token was issued. -/
structure Issued (env : AccountEnv) (now : Time) (r : Drawn) (userId familyId : Id)
    (a a' : Accounts env.aes) : Prop where
  free : a.refreshTokens.get? r.refreshId = none
  tokens : a'.refreshTokens =
    a.refreshTokens.insert r.refreshId (refreshRow env now r userId familyId)
  users : a'.users = a.users

/-- What a request that passes does to the standings and the refresh tokens, with the tokens that it
hands out. -/
inductive Change (env : AccountEnv) (now : Time) :
    Request env → Accounts env.aes → List env.jwt.Token → Accounts env.aes → Prop
  /-- Nothing. -/
  | quiet {x : Request env} {a a' : Accounts env.aes} (hban : x.ban = none)
      (hs : a'.standing = a.standing) (ht : a'.refreshTokens = a.refreshTokens) :
      Change env now x a [] a'
  /-- A registration token is handed out. -/
  | invited {x : Request env} {a : Accounts env.aes} (phone : Text) (hban : x.ban = none) :
      Change env now x a [env.jwt.createRegistrationToken now phone] a
  /-- An account is added. -/
  | joined {x : Request env} {a a' : Accounts env.aes} (id : Id) (s : Standing)
      (hban : x.ban = none) (hnew : a.standing id = none) (hstatus : s.status ≠ .banned)
      (hs : a'.standing = Function.update a.standing id (some s))
      (ht : a'.refreshTokens = a.refreshTokens) : Change env now x a [] a'
  /-- An account that waits for its verification becomes active. -/
  | verified {x : Request env} {a a' : Accounts env.aes} (id : Id) (role : UserRole)
      (hban : x.ban = none) (hold : a.standing id = some ⟨role, .pendingVerification⟩)
      (hs : a'.standing = Function.update a.standing id (some ⟨role, .active⟩))
      (ht : a'.refreshTokens = a.refreshTokens) : Change env now x a [] a'
  /-- An account that is not banned gets its first tokens of a family; it may be a new account. -/
  | signedIn {x : Request env} {a a₁ a' : Accounts env.aes} (r : Drawn) (id : Id) (s : Standing)
      (hdrawn : x.drawn = some r) (hban : x.ban = none)
      (hs : a₁.standing = a.standing ∨
        a.standing id = none ∧ a₁.standing = Function.update a.standing id (some s))
      (ht : a₁.refreshTokens = a.refreshTokens) (hid : a₁.standing id = some s)
      (hstatus : s.status ≠ .banned) (hissued : Issued env now r id r.familyId a₁ a') :
      Change env now x a [env.jwt.createAccessToken env.settings now r.jti id s.role] a'
  /-- A live token is exchanged for the next one of its family. -/
  | rotated {x : Request env} {a a₁ a' : Accounts env.aes} (r : Drawn) (rid : Id) (t : RefreshToken)
      (s : Standing) (hdrawn : x.drawn = some r) (hban : x.ban = none)
      (hrow : a.refreshTokens.get? rid = some t) (hlive : t.Live)
      (hs : a₁.standing = a.standing) (ht : a₁.refreshTokens =
        a.refreshTokens.update rid fun t => { t with usedAt := some now })
      (hid : a₁.standing t.userId = some s) (hstatus : s.status ≠ .banned)
      (hissued : Issued env now r t.userId t.familyId a₁ a') :
      Change env now x a [env.jwt.createAccessToken env.settings now r.jti t.userId s.role] a'
  /-- A token that is not live is presented: its family is revoked. -/
  | replayed {x : Request env} {a a' : Accounts env.aes} (rid : Id) (t : RefreshToken)
      (hban : x.ban = none) (hrow : a.refreshTokens.get? rid = some t) (hdead : ¬t.Live)
      (hs : a'.standing = a.standing) (ht : a'.refreshTokens = a.refreshTokens.mapRows fun _ u =>
        if u.familyId = t.familyId then u.revoked now else u) : Change env now x a [] a'
  /-- An account is banned, and its tokens are revoked. -/
  | banned {x : Request env} {a a' : Accounts env.aes} (id : Id) (role : UserRole)
      (status : UserStatus) (hban : x.ban = some (id, true))
      (hold : a.standing id = some ⟨role, status⟩)
      (hs : a'.standing = Function.update a.standing id (some ⟨role, .banned⟩))
      (ht : a'.refreshTokens = a.refreshTokens.mapRows fun _ u =>
        if u.userId = id then u.revoked now else u) : Change env now x a [] a'
  /-- A ban is lifted. -/
  | unbanned {x : Request env} {a a' : Accounts env.aes} (id : Id) (role : UserRole)
      (status : UserStatus) (hban : x.ban = some (id, false))
      (hold : a.standing id = some ⟨role, status⟩)
      (hs : a'.standing = Function.update a.standing id (some ⟨role, .active⟩))
      (ht : a'.refreshTokens = a.refreshTokens) : Change env now x a [] a'
  /-- Tokens that expired are deleted. -/
  | purged {x : Request env} {a a' : Accounts env.aes} (keep : RefreshToken → Bool)
      (hban : x.ban = none) (hs : a'.standing = a.standing)
      (ht : a'.refreshTokens = a.refreshTokens.filter fun _ t => keep t) : Change env now x a [] a'

/-! ## The statements -/

section Statements

variable {a a' : Accounts env.aes} {u : Unit} {id : Id}

/-- The `INSERT` of a user. -/
theorem insert_ok {x : Account} (h : UserRepository.insert id x a = .ok (u, a')) :
    a.standing id = none ∧
      a'.standing = Function.update a.standing id (some ⟨x.role, x.status⟩) ∧
      a'.refreshTokens = a.refreshTokens := by
  obtain ⟨hnone, rfl⟩ := write_ok h
  have hfree : a.users.get? id = none := by
    unfold UserRepository.rowError at hnone
    rw [violated_eq_none] at hnone
    simpa using hnone _ (List.mem_cons_of_mem _ List.mem_cons_self)
  refine ⟨?_, Accounts.standing_insert hfree, rfl⟩
  rw [Accounts.standing, hfree]
  rfl

/-- The `UPDATE` of a user. -/
theorem update_ok {f : Account → Account} (h : UserRepository.update id f a = .ok (u, a')) :
    ∃ x, a.users.get? id = some x ∧
      a'.standing = Function.update a.standing id (some ⟨(f x).role, (f x).status⟩) ∧
      a'.refreshTokens = a.refreshTokens := by
  obtain ⟨hnone, rfl⟩ := write_ok h
  cases hx : a.users.get? id with
  | none =>
    rw [hx] at hnone
    cases hnone
  | some x =>
    refine ⟨x, rfl, ?_, rfl⟩
    funext j
    unfold Accounts.standing
    by_cases hj : j = id
    · subst hj
      rw [Function.update_self, Table.get?_update_self, hx]
      rfl
    · rw [Function.update_of_ne hj, Table.get?_update_ne _ _ hj]

/-- An `UPDATE` of other columns of a user. -/
theorem update_ok_same {f : Account → Account} (h : UserRepository.update id f a = .ok (u, a'))
    (hf : ∀ x, (f x).role = x.role ∧ (f x).status = x.status) :
    a'.standing = a.standing ∧ a'.refreshTokens = a.refreshTokens := by
  obtain ⟨x, hx, hs, ht⟩ := update_ok h
  refine ⟨?_, ht⟩
  rw [hs, (hf x).1, (hf x).2]
  apply Function.update_eq_self_iff.mpr
  rw [Accounts.standing, hx]
  rfl

/-- A statement on the wallets or the profiles. -/
theorem write_ok_same {error : Accounts env.aes → Option Err}
    {patch : Accounts env.aes → Accounts env.aes} (h : Handler.write error patch a = .ok (u, a'))
    (hp : ∀ a, (patch a).users = a.users ∧ (patch a).refreshTokens = a.refreshTokens) :
    a'.standing = a.standing ∧ a'.refreshTokens = a.refreshTokens := by
  obtain ⟨-, rfl⟩ := write_ok h
  obtain ⟨husers, htokens⟩ := hp a
  exact ⟨Accounts.standing_congr husers, htokens⟩

/-- The tokens that meet a condition are revoked. -/
theorem revoke_ok {now : Time} {p : RefreshToken → Bool}
    (h : AuthRepository.updateTokens (fun t => p t && t.revokedAt.isNone)
      (fun t => { t with revokedAt := some now }) a = .ok (u, a')) :
    a'.users = a.users ∧ a'.refreshTokens = a.refreshTokens.mapRows fun _ t =>
      if p t then t.revoked now else t := by
  obtain ⟨-, rfl⟩ := write_ok h
  refine ⟨rfl, ?_⟩
  dsimp only
  apply Table.mapRows_congr
  intro _ t _
  unfold RefreshToken.revoked
  by_cases hp : p t = true <;> simp [hp]

/-- `_new_refresh`. -/
theorem newRefresh_ok {now : Time} {r : Drawn} {userId familyId : Id} {raw : Text}
    (h : AuthService.newRefresh env now r userId familyId a = .ok (raw, a')) :
    Issued env now r userId familyId a a' := by
  obtain ⟨_, a₁, hwrite, hret⟩ := bind_ok h
  obtain ⟨-, rfl⟩ := pure_ok hret
  obtain ⟨hnone, rfl⟩ := write_ok hwrite
  simp only [violated_eq_none, List.forall_mem_cons] at hnone
  exact ⟨by simpa using hnone.1, rfl, rfl⟩

/-- `_issue_tokens`. -/
theorem issueTokens_ok {now : Time} {r : Drawn} {userId : Id} {role : UserRole} {pair : TokenPair env}
    (h : AuthService.issueTokens env now r userId role a = .ok (pair, a')) :
    pair.accessToken = env.jwt.createAccessToken env.settings now r.jti userId role ∧
      Issued env now r userId r.familyId a a' := by
  obtain ⟨raw, a₁, hnew, hret⟩ := bind_ok h
  obtain ⟨rfl, rfl⟩ := pure_ok hret
  exact ⟨rfl, newRefresh_ok hnew⟩

end Statements

/-! ## The requests -/

/-- Neither the standings nor the refresh tokens change. -/
structure Quiet (env : AccountEnv) (a a' : Accounts env.aes) : Prop where
  standing : a'.standing = a.standing
  tokens : a'.refreshTokens = a.refreshTokens

instance quiet_refl : Std.Refl (Quiet env) := ⟨fun _ => ⟨rfl, rfl⟩⟩

instance quiet_trans : IsTrans (Accounts env.aes) (Quiet env) :=
  ⟨fun _ _ _ h₁ h₂ => ⟨h₂.standing.trans h₁.standing, h₂.tokens.trans h₁.tokens⟩⟩

/-- A write that leaves users and refresh tokens is quiet. -/
theorem quiet_write {error : Accounts env.aes → Option Err}
    {patch : Accounts env.aes → Accounts env.aes}
    (hp : ∀ a, (patch a).users = a.users ∧ (patch a).refreshTokens = a.refreshTokens) :
    Handler.Ensures (Quiet env) (Handler.write error patch) := by
  intro a u a' h
  obtain ⟨hs, ht⟩ := write_ok_same h hp
  exact ⟨hs, ht⟩

/-- An update of an account that leaves its role and its status is quiet. -/
theorem quiet_update {id : Id} {f : Account → Account}
    (hf : ∀ x, (f x).role = x.role ∧ (f x).status = x.status) :
    Handler.Ensures (Quiet env) (UserRepository.update id f) := by
  intro a u a' h
  obtain ⟨hs, ht⟩ := update_ok_same h hf
  exact ⟨hs, ht⟩

/-- `update_user_profile` does what its last statement does. -/
theorem ensures_updateUserProfile {R : Accounts env.aes → Accounts env.aes → Prop}
    [Std.Refl R] [IsTrans (Accounts env.aes) R] {id : Id} {phone fullName email : Option Text}
    (hwrite : Handler.Ensures R (UserRepository.update id fun u =>
      { u with phone := phone.getD u.phone, fullName := fullName, email := email })) :
    Handler.Ensures R (AdminService.updateUserProfile id phone fullName email) := by
  refine Handler.Ensures.bind (.read _) fun _ => ?_
  refine Handler.Ensures.bind (.require _ _) fun _ => ?_
  dsimp only
  split_ifs with hphone hemail hemail
  · refine Handler.Ensures.bind (.read _) fun _ => ?_
    refine Handler.Ensures.bind (.require _ _) fun _ => ?_
    exact .bind (.read _) fun _ => .bind (.require _ _) fun _ => hwrite
  · exact .bind (.read _) fun _ => .bind (.require _ _) fun _ => hwrite
  · exact .bind (.read _) fun _ => .bind (.require _ _) fun _ => hwrite
  · exact hwrite

/-- A courier profile is created quietly. -/
theorem quiet_createCourierProfile {iv : Bytes} {id : Id} {city : Text} {bio : Option Text}
    {identityDocument : Text} {type : String} :
    Handler.Ensures (Quiet env)
      (AdminService.createCourierProfile env iv id city bio identityDocument type) := by
  refine Handler.Ensures.bind (.read _) fun _ => ?_
  refine Handler.Ensures.bind (.require _ _) fun _ => ?_
  refine Handler.Ensures.bind (.read _) fun _ => ?_
  refine Handler.Ensures.bind (.require _ _) fun _ => ?_
  refine Handler.Ensures.bind (.require _ _) fun _ => ?_
  refine Handler.Ensures.bind (.require _ _) fun _ => ?_
  refine Handler.Ensures.bind (.require _ _) fun _ => ?_
  refine Handler.Ensures.bind (.read _) fun _ => ?_
  refine Handler.Ensures.bind (.require _ _) fun _ => ?_
  exact quiet_write fun _ => ⟨rfl, rfl⟩

/-- A courier profile is updated quietly. -/
theorem quiet_updateCourierProfile {id : Id} {city : Text} {bio : Option Text} :
    Handler.Ensures (Quiet env) (AdminService.updateCourierProfile id city bio) := by
  refine Handler.Ensures.bind (.read _) fun _ => ?_
  refine Handler.Ensures.bind (.require _ _) fun _ => ?_
  refine Handler.Ensures.bind (.require _ _) fun _ => ?_
  exact quiet_write fun _ => ⟨rfl, rfl⟩

/-- An active user is not banned. -/
theorem active_ne_banned : UserStatus.active ≠ .banned := by decide

/-- A handler in two parts, of which the first passes. -/
theorem bind_of_ok {α β : Type} {x : Handler env.aes α} {f : α → Handler env.aes β}
    {a a' : Accounts env.aes} {y : α} (h : x a = .ok (y, a')) : (x >>= f) a = f y a' := by
  change (x a >>= fun p => f p.1 p.2) = f y a'
  rw [h]
  rfl

/-- A read of the tables. -/
theorem read_ok {α : Type} {f : Accounts env.aes → α} {a a' : Accounts env.aes} {y : α}
    (h : (do return f (← get) : Handler env.aes α) a = .ok (y, a')) : f a = y ∧ a = a' :=
  Prod.mk.inj (Except.ok.inj h)

/-- A step of a library that does not see the tables. -/
theorem lift_ok {α : Type} {x : Except Err α} {a a' : Accounts env.aes} {y : α}
    (h : (liftM x : Handler env.aes α) a = .ok (y, a')) : a = a' := by
  obtain _ | z := x
  · cases h
  · exact (Prod.mk.inj (Except.ok.inj h)).2

/-- A request that ends without tokens. -/
theorem done_ok {x : Handler env.aes Unit} {now : Time} {r : Request env}
    {tokens : List env.jwt.Token} {a a' : Accounts env.aes}
    (hx : ∀ u, x a = .ok (u, a') → Change env now r a [] a')
    (h : (do x; return []) a = .ok (tokens, a')) : Change env now r a tokens a' := by
  obtain ⟨u, a₁, hok, hret⟩ := bind_ok h
  obtain ⟨rfl, rfl⟩ := pure_ok hret
  exact hx u hok

section Requests

variable {now : Time} {a a' : Accounts env.aes}

/-- An administrator's new user gets a standing and no token. -/
theorem createUser_change {id : Id} {phone : Text} {fullName email : Option Text} {role : UserRole}
    {u : Unit} {x : Request env} (hban : x.ban = none)
    (h : AdminService.createUser id phone fullName email role a = .ok (u, a')) :
    Change env now x a [] a' := by
  have hinsert : UserRepository.createAdminUser id phone fullName email role a = .ok (u, a') := by
    obtain ⟨_, _, hrole, h⟩ := bind_ok h
    obtain ⟨-, rfl⟩ := require_ok hrole
    obtain ⟨_, _, hphone, h⟩ := bind_ok h
    obtain ⟨-, rfl⟩ := require_ok hphone
    obtain ⟨_, _, hread, h⟩ := bind_ok h
    obtain ⟨-, rfl⟩ := read_ok hread
    obtain ⟨_, _, hfree, h⟩ := bind_ok h
    obtain ⟨-, rfl⟩ := require_ok hfree
    dsimp only at h
    -- An email is looked up only when there is one.
    split_ifs at h
    · obtain ⟨_, _, hread, h⟩ := bind_ok h
      obtain ⟨-, rfl⟩ := read_ok hread
      obtain ⟨_, _, hfree, h⟩ := bind_ok h
      obtain ⟨-, rfl⟩ := require_ok hfree
      exact h
    · exact h
  obtain ⟨hnew, hs, ht⟩ := insert_ok hinsert
  exact .joined id ⟨role, .active⟩ hban hnew active_ne_banned hs ht

/-- The login to the dashboard inserts its administrator or changes nothing. -/
theorem dashboardLogin_change {adminId : Id} {phone : Text} {u : Unit} {x : Request env}
    (hban : x.ban = none)
    (h : UserRepository.ensureDashboardAdmin adminId phone a = .ok (u, a')) :
    Change env now x a [] a' := by
  obtain ⟨-, rfl⟩ := write_ok h
  split_ifs with hphone
  · exact .quiet hban rfl rfl
  by_cases hfree : a.users.get? adminId = none
  · have hnew : a.standing adminId = none := by
      rw [Accounts.standing, hfree]
      rfl
    exact .joined adminId ⟨.admin, .active⟩ hban hnew active_ne_banned
      (Accounts.standing_insert hfree) rfl
  -- a taken key keeps its row
  · obtain ⟨y, hy⟩ := Option.ne_none_iff_exists'.mp hfree
    refine .quiet hban (funext fun id => ?_) rfl
    unfold Accounts.standing
    rw [Table.get?_insert]
    split_ifs with hid
    · rw [hid, hy]
      rfl
    · rw [Option.or_none]

/-- The verification of a courier changes one account, which is not banned by it. -/
theorem verifyCourier_change {adminId id : Id} {approve : Bool} {u : Unit} {x : Request env}
    (hban : x.ban = none)
    (h : AdminService.verifyCourier now adminId id approve a = .ok (u, a')) :
    Change env now x a [] a' := by
  -- The profile's row is written first; no account and no token is.
  have hquiet : Handler.Ensures (Quiet env)
      (CourierRepository.setVerified id approve adminId now) := quiet_write fun _ => ⟨rfl, rfl⟩
  obtain ⟨_, _, hread, h⟩ := bind_ok h
  obtain ⟨-, rfl⟩ := read_ok hread
  obtain ⟨_, _, hsome, h⟩ := bind_ok h
  obtain ⟨-, rfl⟩ := require_ok hsome
  obtain ⟨_, a₁, hprofile, h⟩ := bind_ok h
  obtain ⟨hs, ht⟩ := hquiet a _ a₁ hprofile
  obtain ⟨found, _, hread, h⟩ := bind_ok h
  obtain ⟨hfound, rfl⟩ := read_ok hread
  obtain _ | user := found
  · -- There is no such user: the profile alone was written.
    obtain ⟨-, rfl⟩ := pure_ok h
    exact .quiet hban hs ht
  dsimp only at h
  split_ifs at h with happrove
  · obtain ⟨y, hy, hs', ht'⟩ := update_ok h
    obtain rfl := Option.some.inj (hfound.symm.trans hy)
    -- Only a pending courier is made active, so no ban is lifted here.
    have hpending : user.status = .pendingVerification := by
      simp only [Bool.and_eq_true, decide_eq_true_eq] at happrove
      exact happrove.2
    have hold : a.standing id = some ⟨user.role, .pendingVerification⟩ := by
      rw [← hs]
      exact Accounts.standing_eq_some.mpr ⟨user, hfound, rfl, hpending⟩
    exact .verified id user.role hban hold (by rw [hs', hs]) (ht'.trans ht)
  · obtain ⟨-, rfl⟩ := pure_ok h
    exact .quiet hban hs ht

/-- A user is banned, and the tokens of the user are revoked. -/
theorem ban_change {id : Id} {f : Account → Account} {a₁ : Accounts env.aes} {u v : Unit}
    {x : Request env} (hban : x.ban = some (id, true))
    (hupdate : UserRepository.update id f a = .ok (u, a₁))
    (hrevoke : AuthRepository.revokeAllForUser id now a₁ = .ok (v, a'))
    (hf : ∀ y, (f y).role = y.role ∧ (f y).status = .banned) : Change env now x a [] a' := by
  obtain ⟨y, hy, hs, ht⟩ := update_ok hupdate
  obtain ⟨husers, htokens⟩ := revoke_ok hrevoke
  have hold : a.standing id = some ⟨y.role, y.status⟩ :=
    Accounts.standing_eq_some.mpr ⟨y, hy, rfl, rfl⟩
  apply Change.banned id y.role y.status hban hold
  · rw [Accounts.standing_congr husers, hs, (hf y).1, (hf y).2]
  · simp only [htokens, ht, decide_eq_true_eq]

/-- A ban changes the status of one account, and revokes its tokens if it is set. -/
theorem setUserBanned_change {id : Id} {banned : Bool} {u : Unit} {x : Request env}
    (hban : x.ban = some (id, banned))
    (h : AdminService.setUserBanned now id banned a = .ok (u, a')) :
    Change env now x a [] a' := by
  obtain ⟨_, _, hread, h⟩ := bind_ok h
  obtain ⟨-, rfl⟩ := read_ok hread
  obtain ⟨_, _, hsome, h⟩ := bind_ok h
  obtain ⟨-, rfl⟩ := require_ok hsome
  obtain ⟨_, a₁, hstatus, h⟩ := bind_ok h
  obtain _ | _ := banned
  · obtain ⟨-, rfl⟩ := pure_ok h
    obtain ⟨y, hy, hs, ht⟩ := update_ok hstatus
    have hold : a.standing id = some ⟨y.role, y.status⟩ :=
      Accounts.standing_eq_some.mpr ⟨y, hy, rfl, rfl⟩
    exact .unbanned id y.role y.status hban hold hs ht
  · exact ban_change hban hstatus h fun _ => ⟨rfl, rfl⟩

/-- A deletion bans the account and revokes its tokens. -/
theorem deleteUser_change {id : Id} {u : Unit} {x : Request env}
    (hban : x.ban = some (id, true)) (h : AdminService.deleteUser now id a = .ok (u, a')) :
    Change env now x a [] a' := by
  obtain ⟨found, _, hread, h⟩ := bind_ok h
  obtain ⟨-, rfl⟩ := read_ok hread
  obtain _ | user := found
  · cases h
  obtain ⟨_, _, hrole, h⟩ := bind_ok h
  obtain ⟨-, rfl⟩ := require_ok hrole
  obtain ⟨_, a₁, hdelete, h⟩ := bind_ok h
  exact ban_change hban hdelete h fun _ => ⟨rfl, rfl⟩

/-- Tokens of a new family, for a user that is there. -/
theorem issueTokens_change {r : Drawn} {id : Id} {s : Standing} {pair : TokenPair env}
    {a₁ : Accounts env.aes} {x : Request env} (hdrawn : x.drawn = some r) (hban : x.ban = none)
    (h : AuthService.issueTokens env now r id s.role a₁ = .ok (pair, a'))
    (hs : a₁.standing = a.standing ∨
      a.standing id = none ∧ a₁.standing = Function.update a.standing id (some s))
    (ht : a₁.refreshTokens = a.refreshTokens) (hid : a₁.standing id = some s)
    (hstatus : s.status ≠ .banned) : Change env now x a [pair.accessToken] a' := by
  obtain ⟨htoken, hissued⟩ := issueTokens_ok h
  rw [htoken]
  exact .signedIn r id s hdrawn hban hs ht hid hstatus hissued

/-- A login issues a token of a new family, if the phone has an account. -/
theorem verifyOtp_change {r : Drawn} {phone : Text} {tokens : List env.jwt.Token}
    (h : (Request.verifyOtp r phone : Request env).handle now a = .ok (tokens, a')) :
    Change env now (.verifyOtp r phone) a tokens a' := by
  obtain ⟨result, _, hverify, h⟩ := bind_ok h
  obtain ⟨found, _, hread, hverify⟩ := bind_ok hverify
  obtain ⟨hfound, rfl⟩ := read_ok hread
  obtain _ | ⟨id, user⟩ := found
  · obtain ⟨rfl, rfl⟩ := pure_ok hverify
    obtain ⟨rfl, rfl⟩ := pure_ok h
    exact .invited phone rfl
  obtain ⟨_, _, hrequire, hverify⟩ := bind_ok hverify
  obtain ⟨hstatus, rfl⟩ := require_ok hrequire
  obtain ⟨pair, _, hissue, hret⟩ := bind_ok hverify
  obtain ⟨rfl, rfl⟩ := pure_ok hret
  obtain ⟨rfl, rfl⟩ := pure_ok h
  have hid : a.standing id = some ⟨user.role, user.status⟩ :=
    Accounts.standing_eq_some.mpr ⟨user, (Table.find?_eq_some hfound).1, rfl, rfl⟩
  exact issueTokens_change rfl rfl hissue (.inl rfl) rfl hid (by simpa using hstatus)

/-- The first tokens of a new user. -/
theorem newUser_change {r : Drawn} {id : Id} {y : Account} {pair : TokenPair env} {u : Unit}
    {a₁ a₂ : Accounts env.aes} {x : Request env} (hdrawn : x.drawn = some r) (hban : x.ban = none)
    (hinsert : UserRepository.insert id y a = .ok (u, a₁)) (hquiet : Quiet env a₁ a₂)
    (hissue : AuthService.issueTokens env now r id y.role a₂ = .ok (pair, a'))
    (hstatus : y.status ≠ .banned) : Change env now x a [pair.accessToken] a' := by
  obtain ⟨hnew, hs, ht⟩ := insert_ok hinsert
  have hs₂ : a₂.standing = Function.update a.standing id (some ⟨y.role, y.status⟩) :=
    hquiet.standing.trans hs
  have hid : a₂.standing id = some ⟨y.role, y.status⟩ := by rw [hs₂, Function.update_self]
  exact issueTokens_change hdrawn hban hissue (.inr ⟨hnew, hs₂⟩) (hquiet.tokens.trans ht) hid
    hstatus

/-- The registration of a courier inserts an account and issues the first token of its family. -/
theorem registerCourier_change {r : Drawn} {n : AuthService.NewAccount} {phone : Text}
    {q : AuthService.Registration} {pair : TokenPair env} {x : Request env}
    (hdrawn : x.drawn = some r) (hban : x.ban = none)
    (h : AuthService.registerCourier env now r n phone q a = .ok (pair, a')) :
    Change env now x a [pair.accessToken] a' := by
  -- The wallet and the profile say nothing about standings or tokens.
  have hquiet : Handler.Ensures (Quiet env) (AuthRepository.addCourierWalletAndProfile n.walletId
      n.userId (q.city.getD [])
      (AuthService.encryptDocument env "national_id" n.nationalIv n.userId q.nationalId)
      (AuthService.encryptDocument env "passport_id" n.passportIv n.userId q.passportId)
      (env.hmacHex (AuthService.rawId q))) :=
    .bind (quiet_write fun _ => ⟨rfl, rfl⟩) fun _ => quiet_write fun _ => ⟨rfl, rfl⟩
  obtain ⟨_, _, hcity, h⟩ := bind_ok h
  obtain ⟨-, rfl⟩ := require_ok hcity
  obtain ⟨_, _, hdocument, h⟩ := bind_ok h
  obtain ⟨-, rfl⟩ := require_ok hdocument
  obtain ⟨_, _, hread, h⟩ := bind_ok h
  obtain ⟨-, rfl⟩ := read_ok hread
  obtain ⟨_, _, hfree, h⟩ := bind_ok h
  obtain ⟨-, rfl⟩ := require_ok hfree
  obtain ⟨_, a₁, huser, h⟩ := bind_ok h
  obtain ⟨_, a₂, hprofile, hissue⟩ := bind_ok h
  have hstatus : UserStatus.pendingVerification ≠ .banned := by decide
  exact newUser_change hdrawn hban huser (hquiet a₁ _ a₂ hprofile) hissue hstatus

/-- A registration inserts an account and issues the first token of its family. -/
theorem register_change {r : Drawn} {n : AuthService.NewAccount} {token : env.jwt.Token}
    {q : AuthService.Registration} {tokens : List env.jwt.Token}
    (h : (Request.register r n token q).handle now a = .ok (tokens, a')) :
    Change env now (.register r n token q) a tokens a' := by
  obtain ⟨pair, _, hregister, hret⟩ := bind_ok h
  obtain ⟨rfl, rfl⟩ := pure_ok hret
  obtain ⟨phone, _, hdecode, hregister⟩ := bind_ok hregister
  obtain rfl := lift_ok hdecode
  obtain ⟨_, _, hread, hregister⟩ := bind_ok hregister
  obtain ⟨-, rfl⟩ := read_ok hread
  obtain ⟨_, _, hfree, hregister⟩ := bind_ok hregister
  obtain ⟨-, rfl⟩ := require_ok hfree
  cases hrole : q.role <;> rw [hrole] at hregister
  · obtain ⟨_, a₂, hcreate, hissue⟩ := bind_ok hregister
    obtain ⟨_, a₁, huser, hwallet⟩ := bind_ok hcreate
    obtain ⟨hs, ht⟩ := write_ok_same hwallet fun _ => ⟨rfl, rfl⟩
    exact newUser_change rfl rfl huser ⟨hs, ht⟩ hissue active_ne_banned
  · exact registerCourier_change rfl rfl hregister
  · cases hregister

variable (now) in
/-- `refresh`, on a token that is not live: it revokes the family and gives no tokens. -/
theorem refresh_dead (r : Drawn) {raw : Text} {rid : Id} {t : RefreshToken}
    (hfound : a.refreshTokens.find? (fun _ t => t.tokenHash = env.sha256Hex raw) = some (rid, t))
    (hdead : ¬t.Live) : ∃ e a', AuthService.refresh env now r raw a = .ok (.error e, a') ∧
      a'.users = a.users ∧ a'.refreshTokens = a.refreshTokens.mapRows fun _ u =>
        if u.familyId = t.familyId then u.revoked now else u := by
  have hread : AuthRepository.getRefreshToken (env.sha256Hex raw) a = .ok (some (rid, t), a) := by
    rw [← hfound]
    rfl
  have hrevoke : AuthRepository.revokeFamily t.familyId now a = .ok ((), { a with
      refreshTokens := a.refreshTokens.mapRows fun _ u =>
        if u.familyId = t.familyId && u.revokedAt.isNone then { u with revokedAt := some now }
        else u }) := rfl
  refine ⟨.unauthorized "Refresh token reuse detected; please sign in again.", _, ?_,
    (revoke_ok hrevoke).1, ?_⟩
  · unfold AuthService.refresh
    rw [bind_of_ok hread]
    dsimp only
    -- The replay branch revokes the family and then raises.
    rw [if_pos (RefreshToken.spent_iff.mpr hdead), bind_of_ok hrevoke]
    rfl
  · rw [(revoke_ok hrevoke).2]
    simp only [decide_eq_true_eq]

/-- `refresh`, on a live token. -/
theorem refresh_live {r : Drawn} {raw : Text} {rid : Id} {t : RefreshToken}
    {result : Except Err (TokenPair env)}
    (hfound : a.refreshTokens.find? (fun _ t => t.tokenHash = env.sha256Hex raw) = some (rid, t))
    (hlive : t.Live) (h : AuthService.refresh env now r raw a = .ok (result, a')) :
    ∃ a₁ s pair, result = .ok pair ∧
      pair.accessToken = env.jwt.createAccessToken env.settings now r.jti t.userId s.role ∧
      a₁.standing = a.standing ∧
      a₁.refreshTokens = a.refreshTokens.update rid (fun t => { t with usedAt := some now }) ∧
      a₁.standing t.userId = some s ∧ s.status ≠ .banned ∧
      Issued env now r t.userId t.familyId a₁ a' := by
  obtain ⟨_, _, hread, h⟩ := bind_ok h
  obtain ⟨rfl, rfl⟩ := read_ok hread
  rw [hfound] at h
  dsimp only at h
  -- The row is live, so this is not the replay branch.
  rw [if_neg (fun hspent => RefreshToken.spent_iff.mp hspent hlive)] at h
  obtain ⟨_, _, hexpiry, h⟩ := bind_ok h
  obtain ⟨-, rfl⟩ := require_ok hexpiry
  obtain ⟨_, a₁, hused, h⟩ := bind_ok h
  obtain ⟨-, ha₁⟩ := write_ok hused
  -- The row is marked as used before the user is read, and no account changes by it.
  have hs : a₁.standing = a.standing := Accounts.standing_congr (by rw [ha₁])
  obtain ⟨found, _, hread, h⟩ := bind_ok h
  obtain ⟨huser, rfl⟩ := read_ok hread
  obtain _ | user := found
  · cases h
  have hid : a₁.standing t.userId = some ⟨user.role, user.status⟩ :=
    Accounts.standing_eq_some.mpr ⟨user, huser, rfl, rfl⟩
  obtain ⟨_, _, hrequire, h⟩ := bind_ok h
  obtain ⟨hstatus, rfl⟩ := require_ok hrequire
  obtain ⟨_, _, hnew, hret⟩ := bind_ok h
  obtain ⟨rfl, rfl⟩ := pure_ok hret
  have htokens : a₁.refreshTokens =
      a.refreshTokens.update rid (fun t => { t with usedAt := some now }) := by rw [ha₁]
  exact ⟨a₁, ⟨user.role, user.status⟩, _, rfl, rfl, hs, htokens, hid, by simpa using hstatus,
    newRefresh_ok hnew⟩

/-- `refresh` passes only on a token that is stored. -/
theorem refresh_found {r : Drawn} {raw : Text} {result : Except Err (TokenPair env)}
    (h : AuthService.refresh env now r raw a = .ok (result, a')) : ∃ rid t,
    a.refreshTokens.find? (fun _ t => t.tokenHash = env.sha256Hex raw) = some (rid, t) := by
  obtain ⟨found, _, hread, h⟩ := bind_ok h
  obtain ⟨hfound, rfl⟩ := read_ok hread
  obtain _ | ⟨rid, t⟩ := found
  · cases h
  · exact ⟨rid, t, hfound⟩

/-- An exchange marks the presented token as used and issues the next one of its family. -/
theorem refresh_change {r : Drawn} {raw : Text} {tokens : List env.jwt.Token}
    (h : (Request.refresh r raw : Request env).handle now a = .ok (tokens, a')) :
    Change env now (.refresh r raw) a tokens a' := by
  obtain ⟨result, a₂, hrefresh, h⟩ := bind_ok h
  obtain ⟨rid, t, hfound⟩ := refresh_found hrefresh
  have hrow : a.refreshTokens.get? rid = some t := (Table.find?_eq_some hfound).1
  by_cases hlive : t.Live
  · obtain ⟨a₁, s, pair, rfl, htoken, hs, ht, hid, hstatus, hissued⟩ :=
      refresh_live hfound hlive hrefresh
    obtain ⟨rfl, rfl⟩ := pure_ok h
    rw [htoken]
    exact .rotated r rid t s rfl rfl hrow hlive hs ht hid hstatus hissued
  · obtain ⟨e, a₁, heq, husers, htokens⟩ := refresh_dead now r hfound hlive
    obtain ⟨rfl, rfl⟩ := Prod.mk.inj (Except.ok.inj (hrefresh.symm.trans heq))
    obtain ⟨rfl, rfl⟩ := pure_ok h
    exact .replayed rid t rfl hrow hlive (Accounts.standing_congr husers) htokens

/-- A request that passes is one of the changes. -/
theorem Request.change {x : Request env} {tokens : List env.jwt.Token}
    (h : x.handle now a = .ok (tokens, a')) : Change env now x a tokens a' := by
  -- The requests that write neither an account's standing nor a token.
  have hquiet : ∀ {y : Handler env.aes Unit}, Handler.Ensures (Quiet env) y → x.ban = none →
      ∀ u, y a = .ok (u, a') → Change env now x a [] a' := by
    intro y hy hban u hok
    obtain ⟨hs, ht⟩ := hy a u a' hok
    exact .quiet hban hs ht
  cases x with
  | register r n token q => exact register_change h
  | verifyOtp r phone => exact verifyOtp_change h
  | refresh r raw => exact refresh_change h
  | createUser id phone fullName email role => exact done_ok (fun _ => createUser_change rfl) h
  | updateUserProfile id phone fullName email =>
    exact done_ok (hquiet (ensures_updateUserProfile (quiet_update fun _ => ⟨rfl, rfl⟩)) rfl) h
  | setUserBanned id banned => exact done_ok (fun _ => setUserBanned_change rfl) h
  | deleteUser id => exact done_ok (fun _ => deleteUser_change rfl) h
  | verifyCourier adminId id approve => exact done_ok (fun _ => verifyCourier_change rfl) h
  | createCourierProfile iv id city bio document type =>
    exact done_ok (hquiet quiet_createCourierProfile rfl) h
  | updateCourierProfile id city bio => exact done_ok (hquiet quiet_updateCourierProfile rfl) h
  | deleteCourierProfile id =>
    have hdelete : Handler.Ensures (Quiet env) (AdminService.deleteCourierProfile id) := by
      refine Handler.Ensures.bind (.read _) fun _ => ?_
      exact .bind (.require _ _) fun _ => quiet_write fun _ => ⟨rfl, rfl⟩
    exact done_ok (hquiet hdelete rfl) h
  | dashboardLogin adminId phone => exact done_ok (fun _ => dashboardLogin_change rfl) h
  | purgeExpired before =>
    refine done_ok (fun u hok => ?_) h
    obtain ⟨-, rfl⟩ := write_ok hok
    exact .purged (fun t => !(t.expiresAt < before : Bool)) rfl rfl rfl

/-! ## The standings after a change -/

/-- The accounts keep their roles, and the same ones are banned. -/
structure KeepsBans (f g : Id → Option Standing) : Prop where
  role : ∀ id s, f id = some s → ∃ st, g id = some ⟨s.role, st⟩
  banned : ∀ id role, g id = some ⟨role, .banned⟩ ↔ f id = some ⟨role, .banned⟩

/-- Nothing changes, and the same accounts are banned. -/
theorem KeepsBans.refl (f : Id → Option Standing) : KeepsBans f f :=
  ⟨fun _ s h => ⟨s.status, h⟩, fun _ _ => Iff.rfl⟩

/-- A standing that is written neither bans nor lifts a ban. -/
theorem KeepsBans.update {f : Id → Option Standing} {id : Id} {s : Standing}
    (hrole : ∀ s₀, f id = some s₀ → s₀.role = s.role) (hold : ∀ role, f id ≠ some ⟨role, .banned⟩)
    (hnew : s.status ≠ .banned) : KeepsBans f (Function.update f id (some s)) := by
  constructor
  · intro j s₀ hj
    by_cases hid : j = id
    · subst hid
      rw [Function.update_self, hrole s₀ hj]
      exact ⟨s.status, rfl⟩
    · rw [Function.update_of_ne hid]
      exact ⟨s₀.status, hj⟩
  · intro j role
    by_cases hid : j = id
    · subst hid
      rw [Function.update_self, iff_false_right (hold role)]
      intro heq
      exact hnew (congrArg Standing.status (Option.some.inj heq))
    · rw [Function.update_of_ne hid]

/-- A request keeps the roles, and bans or lifts a ban only where it says so. -/
theorem Change.standing_cases {x : Request env} {tokens : List env.jwt.Token}
    (h : Change env now x a tokens a') :
    (x.ban = none ∧ KeepsBans a.standing a'.standing) ∨
      ∃ id role status b, x.ban = some (id, b) ∧ a.standing id = some ⟨role, status⟩ ∧
        a'.standing = Function.update a.standing id
          (some ⟨role, if b then .banned else .active⟩) := by
  -- A new account was in nobody's row, so its status cannot end a ban.
  have hjoined : ∀ {id : Id} {s : Standing} {f : Id → Option Standing}, a.standing id = none →
      s.status ≠ .banned → f = Function.update a.standing id (some s) →
      KeepsBans a.standing f := by
    rintro id s f hnew hstatus rfl
    exact .update (fun s₀ h => absurd (hnew.symm.trans h) (by simp))
      (fun role h => absurd (hnew.symm.trans h) (by simp)) hstatus
  cases h with
  | quiet hban hs | purged _ hban hs | replayed _ _ hban _ _ hs => exact .inl ⟨hban, hs ▸ .refl _⟩
  | invited _ hban => exact .inl ⟨hban, .refl _⟩
  | joined id s hban hnew hstatus hs => exact .inl ⟨hban, hjoined hnew hstatus hs⟩
  | verified id role hban hold hs =>
    -- A verified courier was pending, which is no ban either.
    refine .inl ⟨hban, hs ▸ .update ?_ ?_ active_ne_banned⟩
    · intro s₀ h
      rw [hold] at h
      rw [← Option.some.inj h]
    · intro role' h
      rw [hold] at h
      have hstatus := congrArg Standing.status (Option.some.inj h)
      cases hstatus
  | signedIn r id s hdrawn hban hs ht hid hstatus hissued =>
    rw [Accounts.standing_congr hissued.users]
    obtain hs | ⟨hnew, hs⟩ := hs
    · exact .inl ⟨hban, hs ▸ .refl _⟩
    · -- The sign-in made the account.
      exact .inl ⟨hban, hjoined hnew hstatus hs⟩
  | rotated r rid t s hdrawn hban hrow hlive hs ht hid hstatus hissued =>
    rw [Accounts.standing_congr hissued.users]
    exact .inl ⟨hban, hs ▸ .refl _⟩
  | banned id role status hban hold hs => exact .inr ⟨id, role, status, true, hban, hold, hs⟩
  | unbanned id role status hban hold hs =>
    exact .inr ⟨id, role, status, false, hban, hold, hs⟩

end Requests

end Access

end Giftly
