import Giftly.Store.Expiring
import Giftly.Store.Runs
import Giftly.Store.Table

/-!
# Locks with safe release

`redis_lock` takes a lock with `SET key token NX EX ttl` and releases it with a script that deletes the
key when it still holds the token of the user that releases. The users of one key run side by side: a
step is one command on the key, the end of a body, a crash, or time going by, and a user is known by
its random token. Times are in milliseconds, as the deadlines of Redis are.
-/

namespace Giftly.Locks

open Store (Cell Table runs)

variable {Token : Type} [DecidableEq Token]

/-- Where a call of `redis_lock` is. -/
inductive Phase
  /-- The `SET` is still to come. -/
  | entering
  /-- The body is executed. -/
  | inside
  /-- The body has ended, and the script is still to come. -/
  | leaving
  /-- The call has returned, was refused, or crashed. -/
  | ended
  deriving DecidableEq

/-- A call of `redis_lock` on the key. -/
structure User where
  ttlSeconds : ℤ
  phase : Phase
  /-- When its `SET` was carried out. -/
  acquiredAt : Option ℤ

/-- The `EX` argument in milliseconds. -/
def User.ttl (u : User) : ℤ := 1000 * u.ttlSeconds

/-- The key of the lock and the calls that use it, each under its token. -/
structure System (Token : Type) where
  now : ℤ
  key : Cell Token
  users : Table Token User

inductive Action (Token : Type)
  /-- Time goes by. -/
  | wait (ms : ℕ)
  /-- A call draws its token. -/
  | enter (token : Token) (ttlSeconds : ℤ)
  /-- `redis.set(key, token, nx=True, ex=ttl_seconds)`. -/
  | acquire (token : Token)
  /-- The body ends, also by an exception. -/
  | leave (token : Token)
  /-- `redis.eval(_RELEASE_LUA, 1, key, token)`. -/
  | release (token : Token)
  /-- The process of the call dies, or it loses Redis. -/
  | crash (token : Token)

/-- `SET` with `NX` and `EX`. A life that is not positive is an error of the command, and the lock is
not acquired. -/
def acquire (token : Token) (u : User) (s : System Token) : Cell Token × User :=
  match if u.ttlSeconds ≤ 0 then none else s.key.setNx token s.now u.ttl.toNat with
  | none => (s.key, { u with phase := .ended })
  | some key => (key, { u with phase := .inside, acquiredAt := some s.now })

/-- `_RELEASE_LUA`. -/
def releaseLua (token : Token) (s : System Token) : Cell Token := s.key.deleteIf token s.now

/-- A call goes on. -/
def System.put (s : System Token) (token : Token) (key : Cell Token) (u : User) : System Token :=
  { s with key := key, users := s.users.update token fun _ => u }

/-- What an action makes of the key and the calls. Random tokens are distinct: a token that was drawn
before is not drawn again. -/
def step (s : System Token) : Action Token → Option (System Token)
  | .wait ms => some { s with now := s.now + ms }
  | .enter token ttlSeconds =>
    if s.users.get? token = none then
      some { s with users := s.users.insert token ⟨ttlSeconds, .entering, none⟩ }
    else none
  | .acquire token => (s.users.get? token).bind fun u =>
    if u.phase = .entering then
      let (key, u') := acquire token u s
      some (s.put token key u')
    else none
  | .leave token => (s.users.get? token).bind fun u =>
    if u.phase = .inside then some (s.put token s.key { u with phase := .leaving }) else none
  | .release token => (s.users.get? token).bind fun u =>
    if u.phase = .leaving then
      some (s.put token (releaseLua token s) { u with phase := .ended })
    else none
  | .crash token => (s.users.get? token).bind fun u =>
    if u.phase = .ended then none else some (s.put token s.key { u with phase := .ended })

/-- Nobody has used the lock yet. -/
def initial (now : ℤ) : System Token := ⟨now, none, .empty⟩

/-- A user is inside its body, and its acquisition is younger than its time to live. -/
def System.Holds (s : System Token) (token : Token) : Prop :=
  ∃ u t, s.users.get? token = some u ∧ u.phase = .inside ∧ u.acquiredAt = some t ∧
    s.now < t + u.ttl

/-- A `SET` of any user would be carried out. -/
def System.Acquirable (s : System Token) : Prop :=
  ∀ token seconds, (s.key.setNx token s.now seconds).isSome

/-- Somebody acquired the lock after a time. -/
def System.AcquiredAfter (s : System Token) (t : ℤ) : Prop :=
  ∃ token u t', s.users.get? token = some u ∧ u.acquiredAt = some t' ∧ t < t' ∧ t' ≤ s.now

/-- What a lock promises to its users. -/
structure LockSafe (s : System Token) : Prop where
  /-- Inside the body is at most one user whose acquisition is younger than its time to live. -/
  exclusive : ∀ a b, s.Holds a → s.Holds b → a = b
  /-- A release deletes the key only if it still holds the token of the user that releases. -/
  release : ∀ a s', step s (.release a) = some s' →
    s'.key = s.key ∨ s.key.get s.now = some a ∧ s'.key = none
  /-- A release leaves the lock of anybody else as it is. -/
  others : ∀ a b s', step s (.release a) = some s' → s.key.get s.now = some b → b ≠ a →
    s'.key = s.key
  /-- A user that has crashed keeps nobody out longer than its time to live. -/
  crashed : ∀ a u s₁ actions s', s.users.get? a = some u → step s (.crash a) = some s₁ →
    runs step actions s₁ = some s' → s.now + u.ttl ≤ s'.now → s'.key.get s'.now ≠ some a
  /-- Within the time to live that the users have, the key can be acquired or has been. -/
  acquirable : ∀ ttl actions s', runs step actions s = some s' →
    (∀ a u, s'.users.get? a = some u → u.ttl ≤ ttl) → s.now + ttl ≤ s'.now →
    s'.Acquirable ∨ s'.AcquiredAfter s.now

/-! ## What a step does -/

variable {s s' : System Token} {a b token : Token} {u u' : User} {t : ℤ}

/-- The ways in which a step changes the key and the calls. -/
inductive Moved (s : System Token) : System Token → Prop
  | waited (ms : ℕ) : Moved s { s with now := s.now + ms }
  | entered (token : Token) (ttlSeconds : ℤ) (hfresh : s.users.get? token = none) :
      Moved s { s with users := s.users.insert token ⟨ttlSeconds, .entering, none⟩ }
  | acquired (token : Token) (u : User) (hu : s.users.get? token = some u)
      (hphase : u.phase = .entering) (hfree : s.key.get s.now = none) (hpos : 0 < u.ttl) :
      Moved s (s.put token (.set token s.now u.ttl.toNat)
        { u with phase := .inside, acquiredAt := some s.now })
  | withdrew (token : Token) (u : User) (phase : Phase) (key : Cell Token)
      (hu : s.users.get? token = some u) (hphase : phase = .leaving ∨ phase = .ended)
      (hkey : key = s.key ∨ key = releaseLua token s) :
      Moved s (s.put token key { u with phase := phase })

omit [DecidableEq Token] in
/-- `SET` with `NX` acquires a lock that nobody has, for a positive time, and changes nothing
otherwise. -/
theorem acquire_cases (token : Token) (u : User) (s : System Token) :
    acquire token u s = (s.key, { u with phase := .ended }) ∨
      s.key.get s.now = none ∧ 0 < u.ttl ∧ acquire token u s =
        (.set token s.now u.ttl.toNat, { u with phase := .inside, acquiredAt := some s.now }) := by
  unfold acquire
  split
  · exact .inl rfl
  · rename_i key hkey
    split_ifs at hkey with hpos
    obtain ⟨hfree, rfl⟩ := Cell.setNx_eq_some.mp hkey
    have httl : 0 < u.ttl := by
      unfold User.ttl
      omega
    exact .inr ⟨hfree, httl, rfl⟩

/-- Every step changes the key and the calls in one of the ways. -/
theorem moved_of_step {action : Action Token} (h : step s action = some s') : Moved s s' := by
  cases action with
  | wait ms =>
    obtain rfl := Option.some.inj h
    exact .waited ms
  | enter token ttlSeconds =>
    simp only [step] at h
    split_ifs at h with hfresh
    obtain rfl := Option.some.inj h
    exact .entered token ttlSeconds hfresh
  | acquire token =>
    obtain ⟨u, hu, h⟩ := Option.bind_eq_some_iff.mp h
    split_ifs at h with hphase
    -- `SET` with `NX` is refused while the key is there.
    rcases acquire_cases token u s with hrefused | ⟨hfree, hpos, hdone⟩
    · rw [hrefused] at h
      obtain rfl := Option.some.inj h
      exact .withdrew token u .ended s.key hu (.inr rfl) (.inl rfl)
    · rw [hdone] at h
      obtain rfl := Option.some.inj h
      exact .acquired token u hu hphase hfree hpos
  | leave token =>
    obtain ⟨u, hu, h⟩ := Option.bind_eq_some_iff.mp h
    split_ifs at h
    obtain rfl := Option.some.inj h
    exact .withdrew token u .leaving s.key hu (.inl rfl) (.inl rfl)
  -- The script deletes the key only if it holds this token.
  | release token =>
    obtain ⟨u, hu, h⟩ := Option.bind_eq_some_iff.mp h
    split_ifs at h
    obtain rfl := Option.some.inj h
    exact .withdrew token u .ended (releaseLua token s) hu (.inr rfl) (.inr rfl)
  | crash token =>
    obtain ⟨u, hu, h⟩ := Option.bind_eq_some_iff.mp h
    split_ifs at h
    obtain rfl := Option.some.inj h
    exact .withdrew token u .ended s.key hu (.inr rfl) (.inl rfl)

/-- The calls after one of them goes on. -/
theorem System.get?_put (key : Cell Token) (hu : s.users.get? token = some u) :
    (s.put token key u').users.get? a = if a = token then some u' else s.users.get? a := by
  rw [System.put, Table.get?_update]
  split_ifs with h
  · rw [h, hu]
    rfl
  · rfl

/-! ## What holds in every state of a run -/

/-- What is stored under the key is the last acquisition, for its time to live. -/
structure Keyed (s : System Token) : Prop where
  waiting : ∀ a u, s.users.get? a = some u → u.phase = .entering → u.acquiredAt = none
  past : ∀ a u t, s.users.get? a = some u → u.acquiredAt = some t → t ≤ s.now
  /-- An entry was written by the user whose token it is. -/
  owner : ∀ e, s.key = some e → ∃ u t, s.users.get? e.value = some u ∧ u.acquiredAt = some t ∧
    e.deadline = some (t + u.ttl)
  /-- As long as its time to live is not over, a user inside its body finds its token there. -/
  held : ∀ a u t, s.users.get? a = some u → u.phase = .inside → u.acquiredAt = some t →
    s.now < t + u.ttl → s.key = some ⟨a, some (t + u.ttl)⟩

/-- Nobody has acquired the lock at first. -/
theorem Keyed.initial (now : ℤ) : Keyed (initial now : System Token) where
  waiting _ _ h := nomatch h
  past _ _ _ h := nomatch h
  owner _ h := nomatch h
  held _ _ _ h := nomatch h

/-- A user that holds the lock is the one whose token is read. -/
theorem Keyed.get_of_held (hs : Keyed s) (hu : s.users.get? a = some u) (hin : u.phase = .inside)
    (ht : u.acquiredAt = some t) (hyoung : s.now < t + u.ttl) : s.key.get s.now = some a := by
  have halive : Cell.Alive (⟨a, some (t + u.ttl)⟩ : Store.Entry Token) s.now := by
    intro d hd
    obtain rfl := Option.some.inj hd
    exact hyoung
  exact Cell.get_of_some (hs.held a u t hu hin ht hyoung) halive

/-- Time passes, and what is stored is still the last acquisition. -/
theorem Keyed.waited (hs : Keyed s) (ms : ℕ) : Keyed { s with now := s.now + ms } where
  waiting := hs.waiting
  past a u t hu ht := by
    have hle := hs.past a u t hu ht
    show t ≤ s.now + ms
    omega
  owner := hs.owner
  held a u t hu hin ht hyoung := by
    have hbefore : s.now < t + u.ttl := by
      change s.now + ms < t + u.ttl at hyoung
      omega
    exact hs.held a u t hu hin ht hbefore

/-- A call that begins has acquired nothing yet. -/
theorem Keyed.entered (hs : Keyed s) {ttlSeconds : ℤ} (hfresh : s.users.get? token = none) :
    Keyed { s with users := s.users.insert token ⟨ttlSeconds, .entering, none⟩ } := by
  -- Whoever is found is the new call, which has acquired nothing, or was there before.
  have hget : ∀ a u, (s.users.insert token ⟨ttlSeconds, .entering, none⟩).get? a = some u →
      u = ⟨ttlSeconds, .entering, none⟩ ∨ s.users.get? a = some u := by
    intro a u hu
    by_cases ha : a = token
    · rw [ha, Table.get?_insert_self _ _ hfresh] at hu
      exact .inl (Option.some.inj hu).symm
    · rw [Table.get?_insert_ne _ _ ha] at hu
      exact .inr hu
  constructor
  · intro a u hu hphase
    rcases hget a u hu with rfl | hold
    · rfl
    · exact hs.waiting a u hold hphase
  · intro a u t hu ht
    rcases hget a u hu with rfl | hold
    · nomatch ht
    · exact hs.past a u t hold ht
  · intro e he
    obtain ⟨u, t, hu, ht, hd⟩ := hs.owner e he
    have hne : e.value ≠ token := by
      intro heq
      rw [heq, hfresh] at hu
      nomatch hu
    have hu' := hu
    rw [← Table.get?_insert_ne s.users ⟨ttlSeconds, .entering, none⟩ hne] at hu'
    exact ⟨u, t, hu', ht, hd⟩
  · intro a u t hu hin ht hyoung
    rcases hget a u hu with rfl | hold
    · nomatch hin
    · exact hs.held a u t hold hin ht hyoung

/-- A call acquires a lock that nobody has, and is the last one to do so. -/
theorem Keyed.acquired (hs : Keyed s) (hu : s.users.get? token = some u)
    (hfree : s.key.get s.now = none) (hpos : 0 < u.ttl) :
    Keyed (s.put token (.set token s.now u.ttl.toNat)
      { u with phase := .inside, acquiredAt := some s.now }) := by
  have hget := fun a => @System.get?_put Token _ s a token u
    { u with phase := .inside, acquiredAt := some s.now } (.set token s.now u.ttl.toNat) hu
  have hset : (.set token s.now u.ttl.toNat : Cell Token) = some ⟨token, some (s.now + u.ttl)⟩ := by
    rw [Cell.set, Int.toNat_of_nonneg hpos.le]
  constructor
  · intro a v hv hphase
    rw [hget] at hv
    split_ifs at hv
    · obtain rfl := Option.some.inj hv
      simp at hphase
    · exact hs.waiting a v hv hphase
  · intro a v t hv ht
    rw [hget] at hv
    split_ifs at hv
    · obtain rfl := Option.some.inj hv
      obtain rfl := Option.some.inj ht
      exact le_rfl
    · exact hs.past a v t hv ht
  · -- The key is the one that was just set, and its owner is inside.
    intro e he
    change (.set token s.now u.ttl.toNat : Cell Token) = some e at he
    rw [hset] at he
    obtain rfl := Option.some.inj he
    exact ⟨{ u with phase := .inside, acquiredAt := some s.now }, s.now,
      by rw [hget, if_pos rfl], rfl, rfl⟩
  · intro a v t hv hin ht hyoung
    rw [hget] at hv
    split_ifs at hv with ha
    · obtain rfl := Option.some.inj hv
      obtain rfl := Option.some.inj ht
      rw [ha]
      exact hset
    · -- Nobody else holds the lock, since the key was free.
      have hheld := hs.get_of_held hv hin ht hyoung
      rw [hfree] at hheld
      simp at hheld

/-- A call that leaves deletes its own acquisition or nothing. -/
theorem Keyed.withdrew (hs : Keyed s) {phase : Phase} {key : Cell Token}
    (hu : s.users.get? token = some u) (hphase : phase = .leaving ∨ phase = .ended)
    (hkey : key = s.key ∨ key = releaseLua token s) :
    Keyed (s.put token key { u with phase := phase }) := by
  have hget := fun a => @System.get?_put Token _ s a token u { u with phase := phase } key hu
  -- A user that has left is neither waiting nor inside.
  have hentering : phase ≠ .entering := by
    rcases hphase with rfl | rfl <;> nofun
  have hinside : phase ≠ .inside := by
    rcases hphase with rfl | rfl <;> nofun
  constructor
  · intro a v hv hv'
    rw [hget] at hv
    split_ifs at hv
    · obtain rfl := Option.some.inj hv
      exact absurd hv' hentering
    · exact hs.waiting a v hv hv'
  · intro a v t hv ht
    rw [hget] at hv
    split_ifs at hv with ha
    · obtain rfl := Option.some.inj hv
      exact hs.past token u t hu ht
    · exact hs.past a v t hv ht
  · intro e he
    -- A key that is there now was there before: the script only deletes.
    have hold : s.key = some e := by
      rcases hkey with rfl | rfl
      · exact he
      · change s.key.deleteIf token s.now = some e at he
        unfold Cell.deleteIf at he
        split_ifs at he
        exact he
    obtain ⟨v, t, hv, ht, hd⟩ := hs.owner e hold
    by_cases ha : e.value = token
    · rw [ha, hu] at hv
      obtain rfl := Option.some.inj hv
      exact ⟨{ u with phase := phase }, t, by rw [hget, if_pos ha], ht, hd⟩
    · exact ⟨v, t, by rw [hget, if_neg ha, hv], ht, hd⟩
  · intro a v t hv hin ht hyoung
    rw [hget] at hv
    split_ifs at hv with ha
    · obtain rfl := Option.some.inj hv
      exact absurd hin hinside
    · have hheld := hs.held a v t hv hin ht hyoung
      rcases hkey with rfl | rfl
      · exact hheld
      · -- The script finds the token of the user inside, which is another one.
        have hread := hs.get_of_held hv hin ht hyoung
        have hne : s.key.get s.now ≠ some token := by
          rw [hread]
          exact fun heq => ha (Option.some.inj heq)
        exact (Cell.deleteIf_of_ne hne).trans hheld

/-- Every step keeps what is stored the last acquisition. -/
theorem Keyed.step (hs : Keyed s) {action : Action Token} (h : Locks.step s action = some s') :
    Keyed s' := by
  cases moved_of_step h with
  | waited ms => exact hs.waited ms
  | entered token ttlSeconds hfresh => exact hs.entered hfresh
  | acquired token u hu hphase hfree hpos => exact hs.acquired hu hfree hpos
  | withdrew token u phase key hu hphase hkey => exact hs.withdrew hu hphase hkey

/-- What is stored is the last acquisition after every run, by induction on the actions. -/
theorem Keyed.run {actions : List (Action Token)} {now : ℤ}
    (h : runs Locks.step actions (Locks.initial now) = some s) : Keyed s :=
  Store.runs_induct (fun hp hstep => hp.step hstep) (Keyed.initial now) h

/-! ## What a run leaves of a call -/

/-- Time does not go back, a call keeps its time to live, and acquires at most once. -/
structure Later (s s' : System Token) : Prop where
  now_le : s.now ≤ s'.now
  kept : ∀ a u, s.users.get? a = some u → ∃ u', s'.users.get? a = some u' ∧ u'.ttl = u.ttl ∧
    (u.phase ≠ .entering → u'.phase ≠ .entering ∧ u'.acquiredAt = u.acquiredAt)

/-- Nothing happens. -/
theorem Later.refl (s : System Token) : Later s s :=
  ⟨le_rfl, fun _ u hu => ⟨u, hu, rfl, fun h => ⟨h, rfl⟩⟩⟩

/-- Two spells of time are one. -/
theorem Later.trans {s₁ s₂ s₃ : System Token} (h₁ : Later s₁ s₂) (h₂ : Later s₂ s₃) :
    Later s₁ s₃ := by
  refine ⟨h₁.now_le.trans h₂.now_le, ?_⟩
  intro a u hu
  obtain ⟨v, hv, httl, hkept⟩ := h₁.kept a u hu
  obtain ⟨w, hw, httl', hkept'⟩ := h₂.kept a v hv
  refine ⟨w, hw, httl'.trans httl, ?_⟩
  intro hphase
  obtain ⟨hphase', hat⟩ := hkept hphase
  obtain ⟨hphase'', hat'⟩ := hkept' hphase'
  exact ⟨hphase'', hat'.trans hat⟩

/-- A call that goes on to another phase, and acquires only when it was entering. -/
theorem Later.put {key : Cell Token} (hu : s.users.get? token = some u) (httl : u'.ttl = u.ttl)
    (hkept : u.phase ≠ .entering → u'.phase ≠ .entering ∧ u'.acquiredAt = u.acquiredAt) :
    Later s (s.put token key u') := by
  refine ⟨le_rfl, ?_⟩
  intro a v hv
  by_cases ha : a = token
  · rw [ha, hu] at hv
    obtain rfl := Option.some.inj hv
    exact ⟨u', by rw [System.get?_put key hu, if_pos ha], httl, hkept⟩
  · exact ⟨v, by rw [System.get?_put key hu, if_neg ha, hv], rfl, fun h => ⟨h, rfl⟩⟩

/-- A step is not back in time, and no call acquires twice by it. -/
theorem Later.step {action : Action Token} (h : Locks.step s action = some s') : Later s s' := by
  cases moved_of_step h with
  | waited ms =>
    have hle : s.now ≤ s.now + ms := by omega
    exact ⟨hle, (Later.refl s).kept⟩
  | entered token ttlSeconds hfresh =>
    refine ⟨le_rfl, ?_⟩
    intro a u hu
    have hne : a ≠ token := by
      rintro rfl
      rw [hfresh] at hu
      nomatch hu
    exact ⟨u, by rw [Table.get?_insert_ne _ _ hne, hu], rfl, fun h => ⟨h, rfl⟩⟩
  | acquired token u hu hphase hfree hpos => exact .put hu rfl fun h => absurd hphase h
  | withdrew token u phase key hu hphase hkey =>
    refine .put hu rfl fun _ => ⟨?_, rfl⟩
    rcases hphase with rfl | rfl <;> nofun

/-- A run is not back in time, by induction on its actions. -/
theorem Later.run {actions : List (Action Token)} (h : runs Locks.step actions s = some s') :
    Later s s' :=
  Store.runs_rel Later.refl Later.trans Later.step h

/-! ## What a lock promises -/

/-- A token that is read was written less than a time to live ago. -/
theorem Keyed.of_get (hs : Keyed s) (h : s.key.get s.now = some a) :
    ∃ u t, s.users.get? a = some u ∧ u.acquiredAt = some t ∧ s.now < t + u.ttl := by
  obtain ⟨e, he, halive, rfl⟩ := Cell.get_eq_some.mp h
  obtain ⟨u, t, hu, ht, hd⟩ := hs.owner e he
  exact ⟨u, t, hu, ht, halive _ hd⟩

/-- Two calls that hold the lock are one, as both are the last acquisition. -/
theorem Keyed.exclusive (hs : Keyed s) (ha : s.Holds a) (hb : s.Holds b) : a = b := by
  obtain ⟨u, t, hu, hin, ht, hyoung⟩ := ha
  obtain ⟨v, t', hv, hin', ht', hyoung'⟩ := hb
  have hread := hs.get_of_held hu hin ht hyoung
  have hread' := hs.get_of_held hv hin' ht' hyoung'
  rw [hread] at hread'
  exact Option.some.inj hread'

/-- A release deletes what `_RELEASE_LUA` deletes. -/
theorem release_key (h : step s (.release a) = some s') : s'.key = releaseLua a s := by
  obtain ⟨u, -, h⟩ := Option.bind_eq_some_iff.mp h
  split_ifs at h
  obtain rfl := Option.some.inj h
  rfl

/-- `_RELEASE_LUA` deletes the key of its own token or nothing. -/
theorem releaseLua_cases (a : Token) (s : System Token) :
    releaseLua a s = s.key ∨ s.key.get s.now = some a ∧ releaseLua a s = none := by
  unfold releaseLua Cell.deleteIf
  split_ifs with h
  · exact .inr ⟨h, rfl⟩
  · exact .inl rfl

/-- The acquisition of a call that crashed is gone once its time to live is over. -/
theorem Keyed.crashed {actions : List (Action Token)} {s₁ : System Token} (hs : Keyed s)
    (hu : s.users.get? a = some u) (hcrash : Locks.step s (.crash a) = some s₁)
    (hrun : runs Locks.step actions s₁ = some s') (hle : s.now + u.ttl ≤ s'.now) :
    s'.key.get s'.now ≠ some a := by
  intro hread
  have hs' : Keyed s' := Store.runs_induct (fun hp hstep => hp.step hstep) (hs.step hcrash) hrun
  -- After the crash the call is no longer entering, so its acquisition is the one before the crash.
  have hcrashed : s₁.users.get? a = some { u with phase := .ended } := by
    obtain ⟨v, hv, h⟩ := Option.bind_eq_some_iff.mp hcrash
    obtain rfl := Option.some.inj (hu.symm.trans hv)
    split_ifs at h
    obtain rfl := Option.some.inj h
    rw [System.get?_put _ hu, if_pos rfl]
  obtain ⟨w, hw, httl, hkept⟩ := (Later.run hrun).kept a _ hcrashed
  obtain ⟨v, t, hv, ht, hyoung⟩ := hs'.of_get hread
  obtain rfl := Option.some.inj (hw.symm.trans hv)
  have hat : u.acquiredAt = some t := by
    rw [(hkept nofun).2] at ht
    exact ht
  have hpast : t ≤ s.now := hs.past a u t hu hat
  have httl' : w.ttl = u.ttl := httl
  omega

omit [DecidableEq Token] in
/-- A lock that nobody has may be acquired. -/
theorem System.acquirable_of_get (h : s.key.get s.now = none) : s.Acquirable := by
  intro token seconds
  rw [Cell.setNx_eq_some.mpr ⟨h, rfl⟩]
  rfl

/-- After the longest time to live, the lock may be acquired or was. -/
theorem Keyed.acquirable {actions : List (Action Token)} {ttl : ℤ} (hs : Keyed s)
    (hrun : runs Locks.step actions s = some s') (hbound : ∀ a u, s'.users.get? a = some u → u.ttl ≤ ttl)
    (hle : s.now + ttl ≤ s'.now) : s'.Acquirable ∨ s'.AcquiredAfter s.now := by
  have hs' : Keyed s' := Store.runs_induct (fun hp hstep => hp.step hstep) hs hrun
  cases hread : s'.key.get s'.now with
  | none => exact .inl (System.acquirable_of_get hread)
  | some a =>
    obtain ⟨u, t, hu, ht, hyoung⟩ := hs'.of_get hread
    have hpast := hs'.past a u t hu ht
    have hshort := hbound a u hu
    have hafter : s.now < t := by omega
    exact .inr ⟨a, u, t, hu, ht, hafter, hpast⟩

/-- Whatever the users of a key do, and in whatever order, the lock keeps its promises. -/
theorem lock_safe (now : ℤ) (actions : List (Action Token)) (s : System Token)
    (h : runs step actions (initial now) = some s) : LockSafe s := by
  have hs : Keyed s := Keyed.run h
  constructor
  · intro a b ha hb
    exact hs.exclusive ha hb
  · intro a s' hstep
    rw [release_key hstep]
    exact releaseLua_cases a s
  · intro a b s' hstep hread hne
    have hother : s.key.get s.now ≠ some a := by
      rw [hread]
      exact fun heq => hne (Option.some.inj heq)
    exact (release_key hstep).trans (Cell.deleteIf_of_ne hother)
  · intro a u s₁ actions s' hu hcrash hrun hle
    exact hs.crashed hu hcrash hrun hle
  · intro ttl actions s' hrun hbound hle
    exact hs.acquirable hrun hbound hle

/-- A body that outlives its lock, while another user acquires it. -/
theorem lock_safe_overrun :
    ∃ s, runs step [.enter 1 10, .acquire 1, .wait 10000, .enter 2 10, .acquire 2, .leave 1]
      (initial 0) = some s ∧ s.Holds 2 ∧ LockSafe s := by
  refine ⟨_, rfl, ⟨_, 10000, rfl, rfl, rfl, by decide⟩, ?_⟩
  exact lock_safe 0 [.enter 1 10, .acquire 1, .wait 10000, .enter 2 10, .acquire 2, .leave 1] _ rfl

end Giftly.Locks
