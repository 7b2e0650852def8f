import Giftly.Admin.Sessions
import Mathlib.Data.List.Chain

/-!
# The lifetime of a session

The visits of a dashboard after a login: loads and logouts of any session, other logins, and changes
of the users. Everything that a visit can do to the row of a session is in `Moves`. The row's expiry is
at most one time to live after the last load, and that is all that a run needs for the sliding bound.
The absolute cap is applied by a load only, so the first expiry, which the login writes, keeps it only
when the time to live is at most twelve hours.
-/

namespace Giftly.Admin

open Store (Table)
open Datetime (Instant)
open AdminAuthService AdminSessionRepository

/-- A call of the service, or a change of the users by another request. -/
inductive Call
  | completeLogin (draw : Drawn) (throttle : Option Bool) (username password : Text)
      (ip userAgent : Option Text)
  | loadSession (rawToken : Text)
  | logout (rawToken : Text)
  | editUsers (f : Table Id Account → Table Id Account)

/-- A request to the dashboard. -/
structure Visit where
  now : Instant
  /-- Whether the request, once its call has returned, goes on to its commit. -/
  kept : Bool
  call : Call

/-- What a call does at a time. -/
def Call.handler (env : AdminEnv) (now : Instant) : Call → AdminHandler Unit
  | .completeLogin draw throttle username password ip userAgent => do
    let _ ← AdminAuthService.completeLogin env now draw throttle username password ip userAgent
  | .loadSession rawToken => do
    let _ ← AdminAuthService.loadSession env now rawToken
  | .logout rawToken => AdminAuthService.logout env now rawToken
  | .editUsers f => modify fun d => { d with users := f d.users }

namespace Visit

/-- The call of the visit returns. -/
def passes (env : AdminEnv) (v : Visit) (d : AdminDb) : Bool :=
  (v.call.handler env v.now d).isOk

/-- The tables after the visit: a request that fails is rolled back. -/
def exec (env : AdminEnv) (v : Visit) (d : AdminDb) : AdminDb :=
  match v.call.handler env v.now d with
  | .ok (_, d') => if v.kept then d' else d
  | .error _ => d

/-- A load of the session with a hash. -/
def isLoad (env : AdminEnv) (hash : Text) (v : Visit) : Bool :=
  match v.call with
  | .loadSession rawToken => env.sha256Hex rawToken = hash
  | _ => false

/-- A logout of the session with a hash, carried through to the commit. -/
def isLogout (env : AdminEnv) (hash : Text) (v : Visit) : Bool :=
  match v.call with
  | .logout rawToken => v.kept && env.sha256Hex rawToken = hash
  | _ => false

end Visit

/-- The tables after some visits. -/
def execAll (env : AdminEnv) (vs : List Visit) (d : AdminDb) : AdminDb :=
  vs.foldl (fun d v => v.exec env d) d

/-- The times at which a session is loaded. -/
def loads (env : AdminEnv) (hash : Text) : List Visit → AdminDb → List Instant
  | [], _ => []
  | v :: vs, d =>
    if v.isLoad env hash && v.passes env d then v.now :: loads env hash vs (v.exec env d)
    else loads env hash vs (v.exec env d)

/-- The time to live of a session. -/
def ttl (env : AdminEnv) : ℤ := Datetime.minutes env.settings.adminSessionTtlMinutes

/-- A session ends in time: no load succeeds twelve hours after the login or later, none later than
the time to live after the load before it, and none after a logout. -/
structure SessionEnds (env : AdminEnv) (login : Instant) (hash : Text) (vs : List Visit)
    (d : AdminDb) : Prop where
  capped : ∀ t ∈ loads env hash vs d, t < login + absoluteCap
  sliding : (loads env hash vs d).IsChain fun t u => u ≤ t + ttl env
  loggedOut : ∀ before v after, vs = before ++ v :: after → v.isLogout env hash = true →
    loads env hash after (execAll env (before ++ [v]) d) = []

/-! ## What the calls do -/

variable {env : AdminEnv} {now : Instant} {d d' : AdminDb} {hash rawToken : Text} {id : Id}
  {s s' : AdminSession} {v : Visit}

/-- A login adds the row of its session. -/
structure LogsIn (env : AdminEnv) (now : Instant) (draw : Drawn) (d d' : AdminDb)
    (s : AdminSession) : Prop where
  sessions : d'.sessions = d.sessions.insert draw.sessionId s
  idFree : d.sessions.get? draw.sessionId = none
  hashFree : ∀ j r, d.sessions.get? j = some r → r.sessionTokenHash ≠ env.sha256Hex draw.raw
  hash : s.sessionTokenHash = env.sha256Hex draw.raw
  createdAt : s.createdAt = now
  expiresAt : s.expiresAt = now + ttl env
  revokedAt : s.revokedAt = none
  inRange : Datetime.InRange (now + ttl env)
  timedelta : Datetime.timedelta env.settings.adminSessionTtlMinutes = .ok (ttl env)
  admin : ∃ u, d'.users.get? s.adminUserId = some u ∧ mayAdminister u = true

/-- The actor of the dashboard is found after it was ensured, and the sessions are left alone. -/
theorem ensureDashboardAdmin_ok {username : Text} {user : Id × Account}
    (h : ensureDashboardAdmin env username d = .ok (some user, d')) :
    d'.sessions = d.sessions ∧ d'.users.get? user.1 = some user.2 := by
  obtain ⟨hfound, rfl⟩ := Prod.mk.inj (Except.ok.inj h)
  obtain ⟨u, hu, rfl⟩ := Option.map_eq_some_iff.mp hfound
  refine ⟨?_, hu⟩
  dsimp only
  split_ifs <;> rfl

/-- A new session has an id and a hash of its own. -/
theorem create_ok {u : Unit} (h : create id s d = .ok (u, d')) :
    d.sessions.get? id = none ∧
      (∀ j r, d.sessions.get? j = some r → r.sessionTokenHash ≠ s.sessionTokenHash) ∧
      d' = { d with sessions := d.sessions.insert id s } := by
  unfold create at h
  obtain ⟨_, d₁, h₁, h⟩ := AdminHandler.bind_ok h
  obtain ⟨rfl, rfl⟩ := Prod.mk.inj (Except.ok.inj h₁)
  obtain ⟨_, d₂, h₂, h⟩ := AdminHandler.bind_ok h
  obtain ⟨hid, rfl⟩ := AdminHandler.require_ok h₂
  obtain ⟨_, d₃, h₃, h⟩ := AdminHandler.bind_ok h
  obtain ⟨hhash, rfl⟩ := AdminHandler.require_ok h₃
  refine ⟨Option.isNone_iff_eq_none.mp hid, ?_, (Prod.mk.inj (Except.ok.inj h)).2.symm⟩
  intro j r hr heq
  have hnone := Table.find?_eq_none.mp (Option.isNone_iff_eq_none.mp hhash) j r hr
  exact Bool.false_ne_true (hnone.symm.trans (decide_eq_true heq))

/-- A login that passes adds the row of its session. -/
theorem logsIn_of_completeLogin {draw : Drawn} {throttle : Option Bool} {username password : Text}
    {ip userAgent : Option Text} {login : AdminLogin}
    (h : completeLogin env now draw throttle username password ip userAgent d = .ok (login, d')) :
    ∃ s, LogsIn env now draw d d' s := by
  unfold completeLogin at h
  obtain ⟨_, d₁, h₁, h⟩ := AdminHandler.bind_ok h
  obtain ⟨-, rfl⟩ := AdminHandler.lift_ok h₁
  obtain ⟨_, d₂, h₂, h⟩ := AdminHandler.bind_ok h
  obtain ⟨-, rfl⟩ := AdminHandler.require_ok h₂
  obtain ⟨user, d₃, h₃, h⟩ := AdminHandler.bind_ok h
  cases user with
  | none => cases h
  | some user =>
    -- The account is made first, and no session with it.
    obtain ⟨hsessions, huser⟩ := ensureDashboardAdmin_ok h₃
    obtain ⟨_, d₄, h₄, h⟩ := AdminHandler.bind_ok h
    obtain ⟨hadmin, rfl⟩ := AdminHandler.require_ok h₄
    obtain ⟨delta, d₅, h₅, h⟩ := AdminHandler.bind_ok h
    obtain ⟨hdelta, rfl⟩ := AdminHandler.lift_ok h₅
    obtain rfl := Datetime.timedelta_eq_ok hdelta
    obtain ⟨expiresAt, d₆, h₆, h⟩ := AdminHandler.bind_ok h
    obtain ⟨hexpires, rfl⟩ := AdminHandler.lift_ok h₆
    obtain ⟨rfl, hrange⟩ := Datetime.add_eq_ok.mp hexpires
    obtain ⟨_, d₇, h₇, h⟩ := AdminHandler.bind_ok h
    -- The row of the session is inserted here; the secret is only read after it.
    obtain ⟨hid, hhash, rfl⟩ := create_ok h₇
    obtain ⟨secret, d₈, h₈, h⟩ := AdminHandler.bind_ok h
    obtain ⟨-, rfl⟩ := AdminHandler.lift_ok h₈
    obtain ⟨-, rfl⟩ := AdminHandler.pure_ok h
    rw [hsessions] at hid hhash
    exact ⟨_, by rw [hsessions], hid, hhash, rfl, rfl, rfl, rfl, hrange, hdelta, user.2, huser, hadmin⟩

/-- A load that succeeds found an active session, and moves its expiry. -/
theorem loadSession_ok {x : AdminSession × Account}
    (h : loadSession env now rawToken d = .ok (x, d')) :
    ∃ i r, d.sessions.get? i = some r ∧ active (env.sha256Hex rawToken) now r = true ∧
      Datetime.InRange (now + ttl env) ∧
      d' = { d with sessions := d.sessions.update i fun s =>
        { s with expiresAt := min (now + ttl env) (r.createdAt + absoluteCap) } } := by
  unfold loadSession at h
  obtain ⟨found, d₁, h₁, h⟩ := AdminHandler.bind_ok h
  obtain ⟨hfound, rfl⟩ := Prod.mk.inj (Except.ok.inj h₁)
  cases found with
  | none => cases h
  | some found =>
    obtain ⟨hrow, hactive⟩ := Table.find?_eq_some hfound
    obtain ⟨admin, d₂, h₂, h⟩ := AdminHandler.bind_ok h
    obtain ⟨-, rfl⟩ := Prod.mk.inj (Except.ok.inj h₂)
    cases admin with
    | none => cases h
    | some admin =>
      -- The cap, the length and the new expiry, each within the calendar.
      obtain ⟨cap, d₃, h₃, h⟩ := AdminHandler.bind_ok h
      obtain ⟨hcap, rfl⟩ := AdminHandler.lift_ok h₃
      obtain ⟨rfl, -⟩ := Datetime.add_eq_ok.mp hcap
      obtain ⟨delta, d₄, h₄, h⟩ := AdminHandler.bind_ok h
      obtain ⟨hdelta, rfl⟩ := AdminHandler.lift_ok h₄
      obtain rfl := Datetime.timedelta_eq_ok hdelta
      obtain ⟨extended, d₅, h₅, h⟩ := AdminHandler.bind_ok h
      obtain ⟨hextended, rfl⟩ := AdminHandler.lift_ok h₅
      obtain ⟨rfl, hrange⟩ := Datetime.add_eq_ok.mp hextended
      exact ⟨found.1, found.2, hrow, hactive, hrange, (Prod.mk.inj (Except.ok.inj h)).2.symm⟩

/-- A logout returns; it revokes the first active session of its hash, if there is one. -/
theorem logout_cases (env : AdminEnv) (now : Instant) (rawToken : Text) (d : AdminDb) :
    ∃ d', logout env now rawToken d = .ok ((), d') ∧
      ((d' = d ∧ ∀ i r, d.sessions.get? i = some r → active (env.sha256Hex rawToken) now r = false) ∨
        ∃ i r, d.sessions.get? i = some r ∧ active (env.sha256Hex rawToken) now r = true ∧
          d' = { d with
            sessions := d.sessions.update i fun s => { s with revokedAt := some now } }) := by
  unfold logout
  cases hfound : d.sessions.find? fun _ s => active (env.sha256Hex rawToken) now s with
  | none =>
    have hnone : getActive (env.sha256Hex rawToken) now d = .ok (none, d) :=
      congrArg (fun x => Except.ok (x, d)) hfound
    rw [AdminHandler.bind_of_ok hnone]
    exact ⟨d, rfl, .inl ⟨rfl, Table.find?_eq_none.mp hfound⟩⟩
  | some found =>
    have hsome : getActive (env.sha256Hex rawToken) now d = .ok (some found, d) :=
      congrArg (fun x => Except.ok (x, d)) hfound
    obtain ⟨hrow, hactive⟩ := Table.find?_eq_some hfound
    rw [AdminHandler.bind_of_ok hsome]
    exact ⟨_, rfl, .inr ⟨found.1, found.2, hrow, hactive, rfl⟩⟩

/-! ## What a visit does to a session -/

/-- The session with a hash: its row, which is the only one with that hash. -/
structure IsSession (tokenHash : Text) (id : Id) (s : AdminSession) (d : AdminDb) : Prop where
  row : d.sessions.get? id = some s
  hash : s.sessionTokenHash = tokenHash
  sole : ∀ j r, d.sessions.get? j = some r → r.sessionTokenHash = tokenHash → j = id

/-- What a visit can do to the row of a session: only a load moves its expiry. -/
inductive Moves (env : AdminEnv) (v : Visit) (d : AdminDb) (s : AdminSession) : AdminSession → Prop
  | stays : Moves env v d s s
  | slides (hload : v.isLoad env s.sessionTokenHash = true) (hpasses : v.passes env d = true)
      (hactive : active s.sessionTokenHash v.now s = true) :
      Moves env v d s
        { s with expiresAt := min (v.now + ttl env) (s.createdAt + absoluteCap) }
  | revoked : Moves env v d s { s with revokedAt := some v.now }

/-- An update of one row that keeps its hash. -/
theorem IsSession.update (h : IsSession hash id s d) (i : Id) (f : AdminSession → AdminSession)
    (hf : ∀ r, (f r).sessionTokenHash = r.sessionTokenHash) :
    IsSession hash id (if id = i then f s else s)
      { d with sessions := d.sessions.update i f } where
  row := by
    rw [Table.get?_update, h.row]
    split_ifs <;> rfl
  hash := by
    split_ifs
    · rw [hf, h.hash]
    · exact h.hash
  sole j r hr hhash := by
    rw [Table.get?_update] at hr
    split_ifs at hr with hj
    · obtain ⟨r', hr', rfl⟩ := Option.map_eq_some_iff.mp hr
      exact h.sole j r' hr' ((hf r').symm.trans hhash)
    · exact h.sole j r hr hhash

/-- A login leaves the other sessions alone. -/
theorem IsSession.logsIn {draw : Drawn} {r : AdminSession} (h : IsSession hash id s d)
    (hr : LogsIn env now draw d d' r) : IsSession hash id s d' := by
  have hid : id ≠ draw.sessionId := by
    rintro rfl
    exact Option.some_ne_none s (h.row.symm.trans hr.idFree)
  refine ⟨?_, h.hash, ?_⟩
  · rw [hr.sessions, Table.get?_insert_ne _ _ hid, h.row]
  · intro j r' hj hhash
    rw [hr.sessions] at hj
    by_cases hne : j = draw.sessionId
    · subst hne
      rw [Table.get?_insert_self _ _ hr.idFree] at hj
      obtain rfl := Option.some.inj hj
      -- the new row would have the hash of the session, which is taken
      exact absurd (h.hash.trans (hhash.symm.trans hr.hash)) (hr.hashFree id s h.row)
    · rw [Table.get?_insert_ne _ _ hne] at hj
      exact h.sole j r' hj hhash

/-- A call that returns moves the row of a session as `Moves` says. -/
theorem IsSession.call {u : Unit} (h : IsSession hash id s d)
    (hrun : v.call.handler env v.now d = .ok (u, d')) :
    ∃ s', Moves env v d s s' ∧ IsSession hash id s' d' := by
  have hpasses : v.passes env d = true := by
    rw [Visit.passes, hrun]
    rfl
  cases hcall : v.call with
  -- A login adds a row of its own.
  | completeLogin draw throttle username password ip userAgent =>
    rw [hcall] at hrun
    obtain ⟨login, d₁, h₁, hend⟩ := AdminHandler.bind_ok hrun
    obtain ⟨-, rfl⟩ := AdminHandler.pure_ok hend
    obtain ⟨r, hr⟩ := logsIn_of_completeLogin h₁
    exact ⟨s, .stays, h.logsIn hr⟩
  -- A load moves the row it finds, which may be this one or another.
  | loadSession rawToken =>
    rw [hcall] at hrun
    obtain ⟨x, d₁, h₁, hend⟩ := AdminHandler.bind_ok hrun
    obtain ⟨-, rfl⟩ := AdminHandler.pure_ok hend
    obtain ⟨i, r, hi, hactive, -, rfl⟩ := loadSession_ok h₁
    refine ⟨_, ?_, h.update i _ fun _ => rfl⟩
    split_ifs with heq
    · subst heq
      obtain rfl := Option.some.inj (h.row.symm.trans hi)
      have hhash : s.sessionTokenHash = env.sha256Hex rawToken := by
        simp only [active, Bool.and_eq_true, decide_eq_true_eq] at hactive
        exact hactive.1.1
      have hload : v.isLoad env s.sessionTokenHash = true := by
        rw [Visit.isLoad, hcall, hhash]
        exact decide_eq_true rfl
      exact .slides hload hpasses (hhash ▸ hactive)
    · exact .stays
  -- A logout revokes the row it finds, if any.
  | logout rawToken =>
    rw [hcall] at hrun
    obtain ⟨d₁, h₁, hcases⟩ := logout_cases env v.now rawToken d
    obtain ⟨-, rfl⟩ := Prod.mk.inj (Except.ok.inj (h₁.symm.trans hrun))
    obtain ⟨rfl, -⟩ | ⟨i, r, hi, hactive, rfl⟩ := hcases
    · exact ⟨s, .stays, h⟩
    · refine ⟨_, ?_, h.update i _ fun _ => rfl⟩
      split_ifs
      · exact .revoked
      · exact .stays
  | editUsers f =>
    rw [hcall] at hrun
    obtain ⟨-, rfl⟩ := Prod.mk.inj (Except.ok.inj hrun)
    exact ⟨s, .stays, h.row, h.hash, h.sole⟩

/-- A visit moves the row of a session as `Moves` says. -/
theorem IsSession.exec (env : AdminEnv) (h : IsSession hash id s d) (v : Visit) :
    ∃ s', Moves env v d s s' ∧ IsSession hash id s' (v.exec env d) := by
  unfold Visit.exec
  cases hrun : v.call.handler env v.now d with
  | error e => exact ⟨s, .stays, h⟩
  | ok x =>
    dsimp only
    split_ifs
    · exact h.call hrun
    · exact ⟨s, .stays, h⟩

/-- A load of the session succeeds only while the session is active. -/
theorem IsSession.of_passes (h : IsSession hash id s d) (hload : v.isLoad env hash = true)
    (hpasses : v.passes env d = true) :
    s.revokedAt = none ∧ v.now < s.expiresAt ∧ Datetime.InRange (v.now + ttl env) := by
  unfold Visit.isLoad at hload
  unfold Visit.passes at hpasses
  split at hload
  · rename_i rawToken hcall
    rw [hcall] at hpasses
    cases hrun : Call.handler env v.now (.loadSession rawToken) d with
    | error e =>
      rw [hrun] at hpasses
      cases hpasses
    | ok x =>
      obtain ⟨y, d₁, h₁, -⟩ := AdminHandler.bind_ok hrun
      obtain ⟨i, r, hi, hactive, hrange, -⟩ := loadSession_ok h₁
      simp only [active, Bool.and_eq_true, decide_eq_true_eq, Option.isNone_iff_eq_none] at hactive
      -- The row that was loaded is that of the session, since no other has its digest.
      obtain rfl := h.sole i r hi (hactive.1.1.trans (of_decide_eq_true hload))
      obtain rfl := Option.some.inj (h.row.symm.trans hi)
      exact ⟨hactive.1.2, hactive.2, hrange⟩
  · cases hload

/-! ## Runs -/

/-- A session that no load can find any more. -/
def Dead (t : Instant) (s : AdminSession) : Prop := s.revokedAt ≠ none ∨ s.expiresAt ≤ t

/-- A session that is dead stays so. -/
theorem Dead.moves {t : Instant} (h : Dead t s) (ht : t ≤ v.now) (hm : Moves env v d s s') :
    Dead v.now s' := by
  have hlater : Dead v.now s := h.imp_right fun h => h.trans ht
  cases hm with
  | stays => exact hlater
  | slides _ _ hactive =>
    simp only [active, Bool.and_eq_true, decide_eq_true_eq, Option.isNone_iff_eq_none] at hactive
    rcases hlater with hrevoked | hexpired
    · exact absurd hactive.1.2 hrevoked
    · exact absurd hactive.2 (not_lt.mpr hexpired)
  | revoked => exact .inl (Option.some_ne_none _)

/-- The times of some visits do not go back, from a time on. -/
def Timed (t : Instant) (vs : List Visit) : Prop := (t :: vs.map Visit.now).IsChain (· ≤ ·)

/-- A dead session is not loaded. -/
theorem loads_of_dead : ∀ {vs : List Visit} {t : Instant} {d : AdminDb} {s : AdminSession},
    Timed t vs → IsSession hash id s d → Dead t s → loads env hash vs d = []
  | [], _, _, _, _, _, _ => rfl
  | v :: vs, t, d, s, htimed, h, hdead => by
    obtain ⟨ht, htimed⟩ := List.isChain_cons_cons.mp htimed
    obtain ⟨s', hm, h'⟩ := h.exec env v
    have hrest := loads_of_dead htimed h' (hdead.moves ht hm)
    unfold loads
    split_ifs with hload
    · rw [Bool.and_eq_true] at hload
      obtain ⟨hrevoked, hexpires, -⟩ := h.of_passes hload.1 hload.2
      rcases hdead with hdead | hdead
      · exact absurd hrevoked hdead
      · exact absurd hexpires (not_lt.mpr (hdead.trans ht))
    · exact hrest

/-- What a run knows of a session that was last loaded at some time: the times of its row, and that
its expiry is at most one time to live away. -/
structure Slid (env : AdminEnv) (login last : Instant) (s : AdminSession) : Prop where
  createdAt : s.createdAt = login
  expires : s.expiresAt ≤ last + ttl env

/-- After a load, the expiry is at most one time to live after it. -/
theorem Slid.loaded {login last : Instant} (h : Slid env login last s) (hm : Moves env v d s s')
    (hle : last ≤ v.now) : Slid env login v.now s' := by
  have hlater : s.expiresAt ≤ v.now + ttl env := h.expires.trans (by gcongr)
  cases hm with
  | stays => exact ⟨h.createdAt, hlater⟩
  | slides => exact ⟨h.createdAt, min_le_left _ _⟩
  | revoked => exact ⟨h.createdAt, hlater⟩

/-- Other visits leave the expiry as it is. -/
theorem Slid.kept {login last : Instant} (h : Slid env login last s) (hm : Moves env v d s s')
    (hload : ¬(v.isLoad env s.sessionTokenHash && v.passes env d) = true) :
    Slid env login last s' := by
  cases hm with
  | stays => exact h
  | slides hl hp =>
    rw [hl, hp] at hload
    exact absurd rfl hload
  | revoked => exact ⟨h.createdAt, h.expires⟩

/-- Each load comes less than a time to live after the one before it. -/
theorem isChain_loads {login : Instant} : ∀ {vs : List Visit} {last t : Instant} {d : AdminDb}
    {s : AdminSession}, Timed t vs → last ≤ t → IsSession hash id s d → Slid env login last s →
    (last :: loads env hash vs d).IsChain fun t u => u < t + ttl env
  | [], _, _, _, _, _, _, _, _ => .singleton _
  | v :: vs, last, t, d, s, htimed, hlast, h, hslid => by
    obtain ⟨ht, htimed⟩ := List.isChain_cons_cons.mp htimed
    obtain ⟨s', hm, h'⟩ := h.exec env v
    unfold loads
    split_ifs with hload
    · rw [Bool.and_eq_true] at hload
      obtain ⟨-, hexpires, -⟩ := h.of_passes hload.1 hload.2
      exact List.isChain_cons_cons.mpr ⟨hexpires.trans_le hslid.expires,
        isChain_loads htimed le_rfl h' (hslid.loaded hm (hlast.trans ht))⟩
    · rw [← h.hash] at hload
      exact isChain_loads htimed (hlast.trans ht) h' (hslid.kept hm hload)

/-- The condition under which the absolute cap holds: the time to live is at most the cap, or so long
that a load at the cap overflows. -/
def Capped (env : AdminEnv) (login : Instant) : Prop :=
  ttl env ≤ absoluteCap ∨ Datetime.greatest < login + absoluteCap + ttl env

/-- No load reaches the cap. -/
theorem lt_cap_of_mem_loads {login : Instant} (hcapped : Capped env login) :
    ∀ {vs : List Visit} {d : AdminDb} {s : AdminSession}, IsSession hash id s d →
      s.createdAt = login → (ttl env ≤ absoluteCap → s.expiresAt ≤ login + absoluteCap) →
      ∀ t ∈ loads env hash vs d, t < login + absoluteCap
  | [], _, _, _, _, _, t, ht => absurd ht List.not_mem_nil
  | v :: vs, d, s, h, hcreated, hcap, t, ht => by
    obtain ⟨s', hm, h'⟩ := h.exec env v
    -- The later loads, by the same argument from the moved row.
    have hrest : ∀ t ∈ loads env hash vs (v.exec env d), t < login + absoluteCap := by
      refine lt_cap_of_mem_loads hcapped h' ?_ ?_
      · cases hm <;> exact hcreated
      · intro hle
        cases hm with
        | stays => exact hcap hle
        | slides => exact hcreated ▸ min_le_right _ _
        | revoked => exact hcap hle
    unfold loads at ht
    split_ifs at ht with hload
    · rw [Bool.and_eq_true] at hload
      obtain ⟨-, hexpires, hrange⟩ := h.of_passes hload.1 hload.2
      rcases List.mem_cons.mp ht with rfl | ht
      · rcases hcapped with hle | hlate
        · exact hexpires.trans_le (hcap hle)
        · -- a load this late would have overflowed
          exact lt_of_add_lt_add_right (hrange.2.trans_lt hlate)
      · exact hrest t ht
    · exact hrest t ht

/-- After a logout that was carried through, a session is dead. -/
theorem IsSession.dead_of_logout (h : IsSession hash id s d) (hlogout : v.isLogout env hash = true) :
    ∃ s', IsSession hash id s' (v.exec env d) ∧ Dead v.now s' := by
  unfold Visit.isLogout at hlogout
  split at hlogout
  · rename_i rawToken hcall
    simp only [Bool.and_eq_true, decide_eq_true_eq] at hlogout
    obtain ⟨hkept, hhash⟩ := hlogout
    obtain ⟨d', hrun, hcases⟩ := logout_cases env v.now rawToken d
    have hexec : v.exec env d = d' := by
      rw [Visit.exec, hcall]
      change (match logout env v.now rawToken d with | .ok (_, d') => _ | .error _ => d) = d'
      rw [hrun]
      exact if_pos hkept
    rw [hexec]
    obtain ⟨rfl, hnone⟩ | ⟨i, r, hi, hactive, rfl⟩ := hcases
    · -- The logout found no active row, so the session was dead before.
      have hinactive := hnone id s h.row
      simp only [active, hhash, h.hash, decide_true, Bool.true_and, Bool.and_eq_false_iff,
        decide_eq_false_iff_not, not_lt, Option.isNone_eq_false_iff] at hinactive
      exact ⟨s, h, hinactive.imp_left Option.isSome_iff_ne_none.mp⟩
    · -- It found one, and the hash is this session's alone.
      simp only [active, Bool.and_eq_true, decide_eq_true_eq] at hactive
      obtain rfl := h.sole i r hi (hactive.1.1.trans hhash)
      have hrow := h.update i (fun s => { s with revokedAt := some v.now }) fun _ => rfl
      rw [if_pos rfl] at hrow
      exact ⟨_, hrow, .inl (Option.some_ne_none _)⟩
  · cases hlogout

/-- The session is still there after some visits. -/
theorem IsSession.execAll (h : IsSession hash id s d) (env : AdminEnv) (vs : List Visit) :
    ∃ s', IsSession hash id s' (execAll env vs d) := by
  induction vs generalizing d s with
  | nil => exact ⟨s, h⟩
  | cons v vs ih =>
    obtain ⟨s', -, h'⟩ := h.exec env v
    exact ih h'

/-- The session of a login. -/
theorem LogsIn.isSession {draw : Drawn} (h : LogsIn env now draw d d' s) :
    IsSession (env.sha256Hex draw.raw) draw.sessionId s d' where
  row := by rw [h.sessions, Table.get?_insert_self _ _ h.idFree]
  hash := h.hash
  sole j r hj hhash := by
    by_contra hne
    rw [h.sessions, Table.get?_insert_ne _ _ hne] at hj
    exact h.hashFree j r hj hhash

/-- An active session is found by its hash. -/
theorem IsSession.getActive (h : IsSession hash id s d) (hactive : active hash now s = true) :
    AdminSessionRepository.getActive hash now d = .ok (some (id, s), d) := by
  obtain ⟨⟨i, r⟩, hfound⟩ : ∃ x, d.sessions.find? (fun _ s => active hash now s) = some x :=
    Table.find?_isSome h.row hactive
  obtain ⟨hrow, hr⟩ := Table.find?_eq_some hfound
  simp only [active, Bool.and_eq_true, decide_eq_true_eq] at hr
  obtain rfl := h.sole i r hrow hr.1.1
  obtain rfl := Option.some.inj (h.row.symm.trans hrow)
  exact congrArg (fun x => Except.ok (x, d)) hfound

/-- The load of a session at the cap succeeds, when nothing overflows and its expiry is later. -/
theorem passes_at_cap {draw : Drawn} (h : LogsIn env now draw d d' s)
    (hnow : Datetime.InRange now) (hlong : absoluteCap < ttl env)
    (hrange : now + absoluteCap + ttl env ≤ Datetime.greatest) :
    Visit.passes env ⟨now + absoluteCap, true, .loadSession draw.raw⟩ d' = true := by
  have hcap : (0 : ℤ) ≤ absoluteCap := by decide
  have hleast : Datetime.least ≤ now + absoluteCap := hnow.1.trans (le_add_of_nonneg_right hcap)
  have hactive : active (env.sha256Hex draw.raw) (now + absoluteCap) s = true := by
    simp only [active, h.hash, h.revokedAt, h.expiresAt, decide_true, Option.isNone_none,
      Bool.and_self, Bool.true_and, decide_eq_true_eq]
    gcongr
  obtain ⟨u, hu, hadmin⟩ := h.admin
  -- The login found an administrator, and nothing has changed since.
  have hadministrator : administrator s.adminUserId d' = .ok (some u, d') := by
    have hfilter : (d'.users.get? s.adminUserId).filter mayAdminister = some u := by
      rw [hu, Option.filter_some, if_pos hadmin]
    exact congrArg (fun x => Except.ok (x, d')) hfilter
  -- None of the three dates that the load computes is beyond the calendar.
  have hlimit : Datetime.add s.createdAt absoluteCap = .ok (now + absoluteCap) := by
    refine Datetime.add_eq_ok.mpr ⟨by rw [h.createdAt], hleast, ?_⟩
    exact (le_add_of_nonneg_right (hcap.trans hlong.le)).trans hrange
  have hextended : Datetime.add (now + absoluteCap) (ttl env) =
      .ok (now + absoluteCap + ttl env) :=
    Datetime.add_eq_ok.mpr
      ⟨rfl, hleast.trans (le_add_of_nonneg_right (hcap.trans hlong.le)), hrange⟩
  -- The load goes through each of its checks.
  have hload : ∃ x d₁, loadSession env (now + absoluteCap) draw.raw d' = .ok (x, d₁) := by
    unfold loadSession
    rw [AdminHandler.bind_of_ok (h.isSession.getActive hactive)]
    dsimp only
    rw [AdminHandler.bind_of_ok hadministrator]
    dsimp only
    rw [AdminHandler.bind_of_ok (AdminHandler.lift_of_ok hlimit),
      AdminHandler.bind_of_ok (AdminHandler.lift_of_ok h.timedelta),
      AdminHandler.bind_of_ok (AdminHandler.lift_of_ok hextended)]
    exact ⟨_, _, rfl⟩
  obtain ⟨x, d₁, hload⟩ := hload
  change ((loadSession env (now + absoluteCap) draw.raw >>= fun _ => pure ()) d').isOk = true
  rw [AdminHandler.bind_of_ok hload]
  rfl

/-- The sessions of a login end in time, whatever the visits after it, exactly when the time to live
is at most twelve hours or so long that a load twelve hours later overflows. -/
theorem session_ends_iff (env : AdminEnv) (now : Instant) (draw : Drawn) (throttle : Option Bool)
    (username password : Text) (ip userAgent : Option Text) (d d' : AdminDb) (login : AdminLogin)
    (hnow : Datetime.InRange now)
    (hlogin : completeLogin env now draw throttle username password ip userAgent d =
      .ok (login, d')) :
    (∀ vs, Timed now vs → SessionEnds env now (env.sha256Hex draw.raw) vs d') ↔
      Capped env now := by
  obtain ⟨s, hs⟩ := logsIn_of_completeLogin hlogin
  have hsession := hs.isSession
  constructor
  · intro hends
    by_contra hcapped
    simp only [Capped, not_or, not_le, not_lt] at hcapped
    have hcap : (0 : ℤ) ≤ absoluteCap := by decide
    -- the first load comes exactly at the cap
    let visit : Visit := ⟨now + absoluteCap, true, .loadSession draw.raw⟩
    have htimed : Timed now [visit] :=
      List.isChain_cons_cons.mpr ⟨le_add_of_nonneg_right hcap, .singleton _⟩
    have hload : visit.isLoad env (env.sha256Hex draw.raw) = true := decide_eq_true rfl
    have hpasses := passes_at_cap hs hnow hcapped.1 hcapped.2
    have hmem : now + absoluteCap ∈ loads env (env.sha256Hex draw.raw) [visit] d' := by
      unfold loads
      rw [hload, hpasses]
      exact List.mem_cons_self
    exact lt_irrefl _ ((hends [visit] htimed).capped _ hmem)
  · intro hcapped vs htimed
    refine ⟨?_, ?_, ?_⟩
    · refine lt_cap_of_mem_loads hcapped hsession hs.createdAt fun hle => ?_
      rw [hs.expiresAt]
      gcongr
    · have hslid : Slid env now now s := ⟨hs.createdAt, hs.expiresAt.le⟩
      exact (isChain_loads htimed le_rfl hsession hslid).tail.imp fun _ _ => le_of_lt
    · rintro before v after rfl hlogout
      have hafter : Timed v.now after := by
        unfold Timed at htimed
        rw [List.map_append, List.map_cons] at htimed
        exact (List.isChain_cons_split.mp htimed).2
      obtain ⟨s₁, h₁⟩ := hsession.execAll env before
      obtain ⟨s₂, h₂, hdead⟩ := h₁.dead_of_logout hlogout
      rw [execAll, List.foldl_append]
      exact loads_of_dead hafter h₂ hdead

namespace Sample

/-- A dashboard whose sessions live for some minutes. -/
def dashboard (ttlMinutes : ℤ) : AdminEnv where
  settings := ⟨some "admin".toList, some "gift".toList, some "seal".toList, ttlMinutes⟩
  sha256Hex t := t
  makeCsrfToken hash secret := hash ++ secret
  uuid5 _ := 1

/-- The values of the login. -/
def draw : Drawn := ⟨"cookie".toList, 901⟩

/-- No user and no session. -/
def noSessions : AdminDb := ⟨.empty, .empty⟩

/-- The login of the administrator, at time zero. -/
def signIn (ttlMinutes : ℤ) : Except Err (AdminLogin × AdminDb) :=
  completeLogin (dashboard ttlMinutes) 0 draw (some true) "admin".toList "gift".toList none none
    noSessions

/-- A load thirteen hours after the login. -/
def lateLoad : Visit := ⟨Datetime.minutes (13 * 60), true, .loadSession draw.raw⟩

end Sample

/-- With the default of an hour, every session ends in time. -/
theorem session_ends_iff_hour : ∃ login d', Sample.signIn 60 = .ok (login, d') ∧
    ∀ vs, Timed 0 vs → SessionEnds (Sample.dashboard 60) 0 Sample.draw.raw vs d' := by
  refine ⟨_, _, rfl, ?_⟩
  exact (session_ends_iff (Sample.dashboard 60) 0 Sample.draw (some true) "admin".toList
    "gift".toList none none Sample.noSessions _ _ (by decide) rfl).mpr (.inl (by decide))

/-- With a day, a session that was not loaded before is loaded thirteen hours after the login. -/
theorem late_load_succeeds : ∃ login d', Sample.signIn 1440 = .ok (login, d') ∧
    Timed 0 [Sample.lateLoad] ∧
    loads (Sample.dashboard 1440) Sample.draw.raw [Sample.lateLoad] d' = [Sample.lateLoad.now] ∧
    ¬SessionEnds (Sample.dashboard 1440) 0 Sample.draw.raw [Sample.lateLoad] d' := by
  refine ⟨_, _, rfl, List.isChain_pair.mpr (by decide), by decide +kernel, fun hends => ?_⟩
  exact absurd (hends.capped Sample.lateLoad.now (by decide +kernel)) (by decide)

end Giftly.Admin
