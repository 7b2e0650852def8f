import Giftly.Store.Expiring
import Giftly.Store.Runs
import Mathlib.Algebra.Order.Ring.Nat

/-!
# Fixed windows

`RateLimiter` counts the calls of an identity under one key, in a script that Redis executes at once.
Times are in milliseconds; the `TTL` that a script reads and the window that it sets are in seconds. A
run is a list of calls at times that do not go back. Redis removes a key when its time is over, and the
run counts how often it has done so: two calls lie between the same two expiries when this number is
the same for both.
-/

namespace Giftly.RateLimit

open Store (Cell Entry runs)

/-- `RateLimiter`. -/
structure RateLimiter where
  max : ℕ
  window : ℕ

/-- `RateLimitDecision`. -/
structure RateLimitDecision where
  allowed : Bool
  retryAfterSeconds : ℤ
  blocked : Bool := false
  deriving DecidableEq

/-- The first number that `INCR` does not store, and the first deadline that `EXPIRE` does not. -/
def limit : ℕ := 2 ^ 63

/-- The `TTL` of a key in seconds, rounded as Redis does it. -/
def ttl (c : Cell ℕ) (now : ℤ) : ℤ :=
  match c.live now with
  | none => -2
  | some e => (e.deadline.map fun t => (t - now + 500) / 1000).getD (-1)

namespace RateLimiter

/-- `_WINDOW_LUA`, and the part of `_GUARDED_WINDOW_LUA` after its ban check: the reply, `none` when
one of the commands is an error, and the key. -/
def windowLua (l : RateLimiter) (now : ℤ) (c : Cell ℕ) : Option ℤ × Cell ℕ :=
  if limit ≤ c.count now + 1 then (none, c) else
  let c₁ := c.incr now
  let count := c₁.count now
  let repair := count = 1 ∨ ttl c₁ now < 0
  -- A script that fails keeps what its commands have done before.
  if repair ∧ limit ≤ now + 1000 * l.window then (none, c₁) else
  let c₂ := if repair then c₁.expire now (1000 * l.window) else c₁
  if l.max < count then (some (if 0 < ttl c₂ now then ttl c₂ now else l.window), c₂)
  else (some 0, c₂)

/-- `_GUARDED_WINDOW_LUA`. -/
def guardedWindowLua (l : RateLimiter) (banned : Bool) (now : ℤ) (c : Cell ℕ) :
    Option ℤ × Cell ℕ :=
  if banned then (some (-1), c) else l.windowLua now c

/-- What `check` makes of the reply. -/
def check : Option ℤ → RateLimitDecision
  | some retryAfter =>
    if 0 < retryAfter then { allowed := false, retryAfterSeconds := retryAfter }
    else { allowed := true, retryAfterSeconds := 0 }
  | none => { allowed := true, retryAfterSeconds := 0 }

/-- What `check_guarded` makes of the reply. -/
def checkGuarded : Option ℤ → RateLimitDecision
  | none => { allowed := false, retryAfterSeconds := 0, blocked := true }
  | some result =>
    if result = -1 then { allowed := false, retryAfterSeconds := 0, blocked := true }
    else if 0 < result then { allowed := false, retryAfterSeconds := result }
    else { allowed := true, retryAfterSeconds := 0 }

end RateLimiter

/-- Which method is called; for `check_guarded`, whether the ban key is there. -/
inductive Method
  | check
  | checkGuarded (banned : Bool)
  deriving DecidableEq

structure Call where
  now : ℤ
  method : Method
  /-- Whether Redis can be reached. -/
  reachable : Bool

/-- The script that a call has executed. -/
def Call.eval (l : RateLimiter) (call : Call) (c : Cell ℕ) : Option ℤ × Cell ℕ :=
  if !call.reachable then (none, c) else
  match call.method with
  | .check => l.windowLua call.now c
  | .checkGuarded banned => l.guardedWindowLua banned call.now c

/-- The decision on the reply to a call. -/
def Call.decision (call : Call) (reply : Option ℤ) : RateLimitDecision :=
  match call.method with
  | .check => RateLimiter.check reply
  | .checkGuarded _ => RateLimiter.checkGuarded reply

/-- What came of a call. -/
structure Outcome where
  now : ℤ
  /-- How often the key had expired. -/
  expiries : ℕ
  reply : Option ℤ
  decision : RateLimitDecision
  /-- The key after the call. -/
  key : Cell ℕ

structure System where
  now : ℤ
  key : Cell ℕ
  expiries : ℕ
  log : List Outcome

/-- Redis removes a key whose time is over. -/
def System.tick (s : System) (now : ℤ) : System :=
  if s.key.live now = none ∧ s.key ≠ none then
    { s with now := now, key := none, expiries := s.expiries + 1 }
  else { s with now := now }

/-- What comes of a call, on the key as it is. -/
def System.outcome (s : System) (l : RateLimiter) (call : Call) : Outcome where
  now := call.now
  expiries := s.expiries
  reply := (call.eval l s.key).1
  decision := call.decision (call.eval l s.key).1
  key := (call.eval l s.key).2

def System.serve (s : System) (l : RateLimiter) (call : Call) : System :=
  { s with key := (s.outcome l call).key, log := s.log ++ [s.outcome l call] }

/-- The next call, not before the last one. -/
def step (l : RateLimiter) (s : System) (call : Call) : Option System :=
  if s.now ≤ call.now then some ((s.tick call.now).serve l call) else none

def initial (now : ℤ) (key : Cell ℕ) : System := ⟨now, key, 0, []⟩

/-- What a run starts from: no key, a key that expires within a window, or a key without expiry. -/
def Start (l : RateLimiter) (now : ℤ) (key : Cell ℕ) : Prop :=
  key = none ∨ (∃ n d, key = some ⟨n, some d⟩ ∧ d ≤ now + 1000 * l.window) ∨
    ∃ n, key = some ⟨n, none⟩

/-- Redis has answered every script. -/
def System.Available (s : System) : Prop := ∀ o ∈ s.log, o.reply.isSome = true

instance (s : System) : Decidable s.Available :=
  inferInstanceAs (Decidable (∀ o ∈ s.log, o.reply.isSome = true))

/-- An allowed call at a number of expiries. -/
def Outcome.allowedAt (k : ℕ) (o : Outcome) : Bool := o.decision.allowed && o.expiries == k

/-- An allowed call in a window from some time on. -/
def Outcome.allowedFrom (l : RateLimiter) (t : ℤ) (o : Outcome) : Bool :=
  o.decision.allowed && t ≤ o.now && o.now ≤ t + 1000 * l.window

/-- The traffic is bounded, and nobody is kept out. -/
structure Bounded (l : RateLimiter) (s : System) : Prop where
  /-- Between two expiries of the key. -/
  perLife : ∀ k, s.log.countP (Outcome.allowedAt k) ≤ l.max
  /-- In any interval as long as the window. -/
  perWindow : ∀ t, s.log.countP (Outcome.allowedFrom l t) ≤ 2 * l.max
  /-- A call that is denied is told when to come back. -/
  retry : ∀ o ∈ s.log, o.decision.allowed = false → o.decision.blocked = false →
    1 ≤ o.decision.retryAfterSeconds ∧ o.decision.retryAfterSeconds ≤ l.window
  /-- A call that is not blocked leaves a key that expires within a window. -/
  expiring : ∀ o ∈ s.log, o.decision.blocked = false →
    ∃ n d, o.key = some ⟨n, some d⟩ ∧ o.now < d ∧ d ≤ o.now + 1000 * l.window
  /-- A call after the key has expired is allowed, unless it is blocked. -/
  reopened : ∀ call s', step l s call = some s' → s'.Available → s.key.live call.now = none →
    ∀ o ∈ s'.log.getLast?, o.decision.blocked = false → o.decision.allowed = true

/-! ## The script -/

variable {l : RateLimiter} {c : Cell ℕ} {now t d : ℤ} {n : ℕ} {r : ℤ} {s s' : System} {call : Call}
  {o : Outcome}

/-- A counter is live before its deadline. -/
theorem live_of_lt (h : now < d) : Cell.live (some ⟨n, some d⟩) now = some ⟨n, some d⟩ := by
  rw [Cell.live_eq_some]
  refine ⟨rfl, ?_⟩
  intro t ht
  obtain rfl := Option.some.inj ht
  exact h

/-- A counter without a deadline is live. -/
theorem live_of_none : Cell.live (some ⟨n, none⟩) now = some ⟨n, none⟩ := by
  rw [Cell.live_eq_some]
  exact ⟨rfl, nofun⟩

/-- The time to live of a counter is what is left until its deadline, rounded to a second. -/
theorem ttl_of_lt (h : now < d) : ttl (some ⟨n, some d⟩) now = (d - now + 500) / 1000 := by
  rw [ttl, live_of_lt h]
  rfl

/-- A counter without a deadline has the time to live -1. -/
theorem ttl_of_none : ttl (some ⟨n, none⟩) now = -1 := by
  rw [ttl, live_of_none]
  rfl

/-- A live counter is raised by one and keeps its deadline. -/
theorem incr_of_live (hc : c.live now = c) :
    c.incr now = some ⟨c.stored + 1, c.bind (·.deadline)⟩ := by
  unfold Cell.incr Cell.count Cell.get Cell.stored
  rw [hc]

/-- The deadline that a counter has once it is counted: a window from now, unless it had one that a
first count does not move. -/
def deadlineAfter (l : RateLimiter) (now : ℤ) : Cell ℕ → ℤ
  | some ⟨_ + 1, some d⟩ => d
  | _ => now + 1000 * l.window

/-- The keys that a script finds: nothing that is expired, and no deadline past the window. -/
structure Ready (l : RateLimiter) (now : ℤ) (c : Cell ℕ) : Prop where
  live : c.live now = c
  within : ∀ n d, c = some ⟨n, some d⟩ → d ≤ now + 1000 * l.window

/-- The deadline of a counter that is ready lies ahead. -/
theorem Ready.lt (hc : Ready l now (some ⟨n, some d⟩)) : now < d :=
  (Cell.live_eq_some.mp hc.live).2 d rfl

/-- After a count the deadline is within a window. -/
theorem Ready.deadlineAfter_le (hc : Ready l now c) : deadlineAfter l now c ≤ now + 1000 * l.window := by
  unfold deadlineAfter
  split
  · exact hc.within _ _ rfl
  · exact le_rfl

/-- After a count the deadline lies ahead. -/
theorem Ready.lt_deadlineAfter (hc : Ready l now c) (hwindow : 1 ≤ l.window) :
    now < deadlineAfter l now c := by
  unfold deadlineAfter
  split
  · exact hc.lt
  · omega

/-- A count does not bring the deadline nearer. -/
theorem Ready.le_deadlineAfter (hc : Ready l now (some ⟨n, some d⟩)) :
    d ≤ deadlineAfter l now (some ⟨n, some d⟩) := by
  cases n with
  | zero => exact hc.within 0 d rfl
  | succ n => exact le_rfl

/-- The key is repaired exactly when its deadline is set. -/
theorem Ready.repaired (hc : Ready l now c) :
    (if c.stored + 1 = 1 ∨ ttl (some ⟨c.stored + 1, c.bind (·.deadline)⟩) now < 0 then
      Cell.expire (some ⟨c.stored + 1, c.bind (·.deadline)⟩) now (1000 * l.window)
    else some ⟨c.stored + 1, c.bind (·.deadline)⟩) =
      some ⟨c.stored + 1, some (deadlineAfter l now c)⟩ := by
  have hms : ((1000 * l.window : ℕ) : ℤ) = 1000 * (l.window : ℤ) := by omega
  match c with
  -- The key is not there: the count starts, and its time with it.
  | none =>
    rw [if_pos (.inl rfl)]
    unfold Cell.expire
    rw [show ((none : Cell ℕ).bind (·.deadline)) = none from rfl, live_of_none, Option.map_some]
    dsimp only
    rw [hms]
    rfl
  -- A stranded key, whose time the script sets again.
  | some ⟨n, none⟩ =>
    have hneg : ttl (some ⟨n + 1, none⟩) now < 0 := by
      rw [ttl_of_none]
      omega
    rw [if_pos (.inr hneg)]
    unfold Cell.expire
    rw [show ((some ⟨n, none⟩ : Cell ℕ).bind (·.deadline)) = none from rfl, live_of_none,
      Option.map_some]
    dsimp only
    rw [hms]
    cases n <;> rfl
  -- A key with a time whose count starts.
  | some ⟨0, some d⟩ =>
    rw [if_pos (.inl rfl)]
    unfold Cell.expire
    rw [show ((some ⟨0, some d⟩ : Cell ℕ).bind (·.deadline)) = some d from rfl, live_of_lt hc.lt,
      Option.map_some]
    dsimp only
    rw [hms]
    rfl
  -- A running window keeps its time.
  | some ⟨n + 1, some d⟩ =>
    have hlt : now < d := hc.lt
    have hnot : ¬(n + 1 + 1 = 1 ∨ ttl (some ⟨n + 1 + 1, some d⟩) now < 0) := by
      rw [ttl_of_lt hlt]
      omega
    exact if_neg hnot

/-- What the script does when it is answered. -/
theorem windowLua_answered (hc : Ready l now c) (hwindow : 1 ≤ l.window)
    (h : (l.windowLua now c).1 = some r) :
    (l.windowLua now c).2 = some ⟨c.stored + 1, some (deadlineAfter l now c)⟩ ∧
      (c.stored + 1 ≤ l.max → r = 0) ∧
      (l.max < c.stored + 1 → 1 ≤ r ∧ r ≤ l.window) := by
  have hcount : (c.incr now).count now = c.stored + 1 := by
    rw [Cell.count_incr, Cell.count, Cell.get, hc.live, Cell.stored]
  unfold RateLimiter.windowLua at h ⊢
  dsimp only at h ⊢
  rw [hcount, incr_of_live hc.live] at h ⊢
  rw [hc.repaired, ttl_of_lt (hc.lt_deadlineAfter hwindow)] at h ⊢
  have hbefore := hc.lt_deadlineAfter hwindow
  have hafter := hc.deadlineAfter_le
  -- Over the maximum, with time left on the key or without, and within the maximum.
  split_ifs at h ⊢ with h₁ h₂ h₃ h₄
  · obtain rfl := Option.some.inj h
    refine ⟨rfl, fun hle => ?_, fun _ => ?_⟩ <;> omega
  · obtain rfl := Option.some.inj h
    refine ⟨rfl, fun hle => ?_, fun _ => ?_⟩ <;> omega
  · obtain rfl := Option.some.inj h
    refine ⟨rfl, fun _ => rfl, fun hlt => ?_⟩
    omega

/-- A call that Redis answers is blocked and leaves the key, or it is counted. -/
theorem eval_answered (hc : Ready l call.now c) (hwindow : 1 ≤ l.window)
    (h : (call.eval l c).1 = some r) :
    ((call.decision (some r)).blocked = true ∧ (call.decision (some r)).allowed = false ∧
      (call.eval l c).2 = c) ∨
    (call.eval l c).2 = some ⟨c.stored + 1, some (deadlineAfter l call.now c)⟩ ∧
      ((call.decision (some r)).allowed = true ↔ c.stored + 1 ≤ l.max) ∧
      ((call.decision (some r)).allowed = false →
        1 ≤ (call.decision (some r)).retryAfterSeconds ∧
        (call.decision (some r)).retryAfterSeconds ≤ l.window) := by
  obtain ⟨now, method, reachable⟩ := call
  cases reachable with
  | false => nomatch h
  | true =>
    cases method with
    | check =>
      obtain ⟨hkey, hallowed, hdenied⟩ := windowLua_answered hc hwindow h
      refine .inr ⟨hkey, ?_⟩
      unfold Call.decision RateLimiter.check
      dsimp only
      rcases Nat.lt_or_ge l.max (c.stored + 1) with hmax | hmax
      · obtain ⟨hpos, hle⟩ := hdenied hmax
        rw [if_pos (by omega)]
        exact ⟨iff_of_false Bool.false_ne_true (by omega), fun _ => ⟨hpos, hle⟩⟩
      · obtain rfl := hallowed hmax
        exact ⟨iff_of_true rfl hmax, nofun⟩
    | checkGuarded banned =>
      cases banned with
      | true =>
        -- A banned caller is answered before anything is counted.
        obtain rfl := Option.some.inj h
        exact .inl ⟨rfl, rfl, rfl⟩
      | false =>
        obtain ⟨hkey, hallowed, hdenied⟩ := windowLua_answered hc hwindow h
        refine .inr ⟨hkey, ?_⟩
        unfold Call.decision RateLimiter.checkGuarded
        dsimp only
        rcases Nat.lt_or_ge l.max (c.stored + 1) with hmax | hmax
        · obtain ⟨hpos, hle⟩ := hdenied hmax
          rw [if_neg (by omega), if_pos (by omega)]
          exact ⟨iff_of_false Bool.false_ne_true (by omega), fun _ => ⟨hpos, hle⟩⟩
        · obtain rfl := hallowed hmax
          exact ⟨iff_of_true rfl hmax, nofun⟩

/-! ## What holds along a run -/

/-- The allowed calls since the last expiry are counted under the key, and those before it lie more
than a window before its deadline. -/
structure Windowed (l : RateLimiter) (s : System) : Prop where
  within : ∀ n d, s.key = some ⟨n, some d⟩ → d ≤ s.now + 1000 * l.window
  counted : s.log.countP (Outcome.allowedAt s.expiries) ≤ s.key.stored
  perLife : ∀ k, s.log.countP (Outcome.allowedAt k) ≤ l.max
  past : ∀ o ∈ s.log, o.expiries ≤ s.expiries ∧ o.now ≤ s.now
  absent : s.key = none → ∀ o ∈ s.log, o.decision.allowed = true → o.now < s.now
  stranded : ∀ n, s.key = some ⟨n, none⟩ → ∀ o ∈ s.log, o.decision.allowed = false
  current : ∀ n d, s.key = some ⟨n, some d⟩ → ∀ o ∈ s.log, o.decision.allowed = true →
    o.expiries = s.expiries → o.now < d
  earlier : ∀ n d, s.key = some ⟨n, some d⟩ → ∀ o ∈ s.log, o.decision.allowed = true →
    o.expiries < s.expiries → o.now + 1000 * l.window < d
  spread : ∀ o ∈ s.log, o.decision.allowed = true → o.expiries + 1 < s.expiries →
    o.now + 1000 * l.window < s.now
  apart : ∀ o ∈ s.log, ∀ o' ∈ s.log, o.decision.allowed = true → o'.decision.allowed = true →
    o.expiries + 1 < o'.expiries → o.now + 1000 * l.window < o'.now
  retry : ∀ o ∈ s.log, o.decision.allowed = false → o.decision.blocked = false →
    1 ≤ o.decision.retryAfterSeconds ∧ o.decision.retryAfterSeconds ≤ l.window
  expiring : ∀ o ∈ s.log, o.decision.blocked = false →
    ∃ n d, o.key = some ⟨n, some d⟩ ∧ o.now < d ∧ d ≤ o.now + 1000 * l.window

/-- Nothing was allowed before a run. -/
theorem Windowed.initial (h : Start l now c) : Windowed l (initial now c) where
  within n d hkey := by
    obtain rfl : c = some ⟨n, some d⟩ := hkey
    -- A counter with a deadline is one of the three kinds that the store may hold.
    rcases h with h | ⟨m, d', h, hle⟩ | ⟨m, h⟩
    · nomatch h
    · obtain ⟨-, hd⟩ := Entry.mk.inj (Option.some.inj h)
      obtain rfl := Option.some.inj hd
      exact hle
    · obtain ⟨-, hd⟩ := Entry.mk.inj (Option.some.inj h)
      nomatch hd
  counted := Nat.zero_le _
  perLife _ := Nat.zero_le _
  past _ h := absurd h List.not_mem_nil
  absent _ _ h := absurd h List.not_mem_nil
  stranded _ _ _ h := absurd h List.not_mem_nil
  current _ _ _ _ h := absurd h List.not_mem_nil
  earlier _ _ _ _ h := absurd h List.not_mem_nil
  spread _ h := absurd h List.not_mem_nil
  apart _ h := absurd h List.not_mem_nil
  retry _ h := absurd h List.not_mem_nil
  expiring _ h := absurd h List.not_mem_nil

/-- A key that is stored and not alive has a deadline that is over. -/
theorem expired_iff {key : Cell ℕ} : key.live now = none ∧ key ≠ none ↔
    ∃ n d, key = some ⟨n, some d⟩ ∧ d ≤ now := by
  match key with
  -- Without a key or a deadline nothing is over.
  | none => simp
  | some ⟨n, none⟩ => simp [live_of_none]
  | some ⟨n, some d⟩ =>
    constructor
    · rintro ⟨hdead, -⟩
      refine ⟨n, d, rfl, ?_⟩
      by_contra hlt
      rw [live_of_lt (not_le.mp hlt)] at hdead
      nomatch hdead
    · rintro ⟨m, d', heq, hle⟩
      obtain ⟨-, hd⟩ := Entry.mk.inj (Option.some.inj heq)
      obtain rfl := Option.some.inj hd
      refine ⟨?_, nofun⟩
      by_contra hlive
      obtain ⟨e, he⟩ := Option.ne_none_iff_exists'.mp hlive
      obtain ⟨heq', halive⟩ := Cell.live_eq_some.mp he
      obtain rfl := Option.some.inj heq'
      have hlt := halive d rfl
      omega

/-- Time passes, and an expired counter takes the calls of its window with it. -/
theorem Windowed.tick (hs : Windowed l s) (hle : s.now ≤ now) : Windowed l (s.tick now) := by
  unfold System.tick
  split_ifs with hexpired
  · obtain ⟨n, d, hkey, hd⟩ := expired_iff.mp hexpired
    -- The life of the key that begins has no call in the log.
    have hnone : s.log.countP (Outcome.allowedAt (s.expiries + 1)) = 0 := by
      rw [List.countP_eq_zero]
      intro o ho hat
      have hlife := (hs.past o ho).1
      simp only [Outcome.allowedAt, Bool.and_eq_true, beq_iff_eq] at hat
      omega
    constructor
    · nofun
    · exact hnone.le
    · exact hs.perLife
    · intro o ho
      obtain ⟨hlife, htime⟩ := hs.past o ho
      dsimp only
      omega
    · intro _ o ho hallowed
      have hlife := (hs.past o ho).1
      rcases Nat.lt_or_ge o.expiries s.expiries with hearlier | hcurrent
      · have := hs.earlier n d hkey o ho hallowed hearlier
        dsimp only
        omega
      · have := hs.current n d hkey o ho hallowed (by omega)
        dsimp only
        omega
    · nofun
    · nofun
    · nofun
    · intro o ho hallowed hlife
      have := hs.earlier n d hkey o ho hallowed (by dsimp only at hlife; omega)
      dsimp only
      omega
    · exact hs.apart
    · exact hs.retry
    · exact hs.expiring
  · constructor
    · intro n d hkey
      have := hs.within n d hkey
      dsimp only
      omega
    · exact hs.counted
    · exact hs.perLife
    · intro o ho
      obtain ⟨hlife, htime⟩ := hs.past o ho
      dsimp only
      omega
    · intro hkey o ho hallowed
      have := hs.absent hkey o ho hallowed
      dsimp only
      omega
    · exact hs.stranded
    · exact hs.current
    · exact hs.earlier
    · intro o ho hallowed hlife
      have := hs.spread o ho hallowed hlife
      dsimp only
      omega
    · exact hs.apart
    · exact hs.retry
    · exact hs.expiring

/-- What is found under the key when a call is made. -/
theorem Windowed.ready (hs : Windowed l s) (hle : s.now ≤ now) : Ready l now (s.tick now).key := by
  constructor
  · unfold System.tick
    split_ifs with hexpired
    · rfl
    · dsimp only
      match hkey : s.key with
      | none => rfl
      | some ⟨n, none⟩ => exact live_of_none
      | some ⟨n, some d⟩ =>
        have hlt : now < d := by
          by_contra hge
          exact hexpired (expired_iff.mpr ⟨n, d, hkey, by omega⟩)
        exact live_of_lt hlt
  · intro n d hkey
    have := (hs.tick hle).within n d hkey
    rwa [show (s.tick now).now = now by unfold System.tick; split_ifs <;> rfl] at this

/-- One outcome more. -/
theorem countP_concat {p : Outcome → Bool} {log : List Outcome} :
    (log ++ [o]).countP p = log.countP p + if p o then 1 else 0 := by
  rw [List.countP_append, List.countP_singleton]

/-- What holds of a log and of one outcome more. -/
theorem forall_concat {P : Outcome → Prop} {log : List Outcome} (hlog : ∀ o ∈ log, P o) (ho : P o) :
    ∀ o' ∈ log ++ [o], P o' := by
  intro o' ho'
  rcases List.mem_append.mp ho' with h | h
  · exact hlog o' h
  · rw [List.mem_singleton.mp h]
    exact ho

/-- A call that is not allowed is not counted against the window. -/
theorem Windowed.blocked (hs : Windowed l s) (hnow : o.now = s.now) (hlife : o.expiries = s.expiries)
    (hallowed : o.decision.allowed = false) (hblocked : o.decision.blocked = true) :
    Windowed l { s with log := s.log ++ [o] } := by
  have hnot : o.decision.allowed ≠ true := by
    rw [hallowed]
    exact Bool.false_ne_true
  -- A blocked call is not allowed, so it counts in no window.
  have hcount : ∀ k, (s.log ++ [o]).countP (Outcome.allowedAt k) =
      s.log.countP (Outcome.allowedAt k) := by
    intro k
    rw [countP_concat, if_neg, Nat.add_zero]
    rw [Outcome.allowedAt, hallowed]
    exact Bool.false_ne_true
  constructor
  · exact hs.within
  · exact (hcount s.expiries).trans_le hs.counted
  · intro k
    exact (hcount k).trans_le (hs.perLife k)
  · exact forall_concat hs.past ⟨hlife.le, hnow.le⟩
  · intro hkey
    exact forall_concat (hs.absent hkey) fun h => absurd h hnot
  · intro n hkey
    exact forall_concat (hs.stranded n hkey) hallowed
  · intro n d hkey
    exact forall_concat (hs.current n d hkey) fun h => absurd h hnot
  · intro n d hkey
    exact forall_concat (hs.earlier n d hkey) fun h => absurd h hnot
  · exact forall_concat hs.spread fun h => absurd h hnot
  · apply forall_concat
    · intro o₁ h₁
      exact forall_concat (hs.apart o₁ h₁) fun _ h => absurd h hnot
    · intro o₁ _ h
      exact absurd h hnot
  · exact forall_concat hs.retry fun _ h => absurd (hblocked.symm.trans h) (by decide)
  · exact forall_concat hs.expiring fun h => absurd (hblocked.symm.trans h) (by decide)

/-- A call that is counted. -/
theorem Windowed.served (hs : Windowed l s) (hready : Ready l s.now s.key) (hwindow : 1 ≤ l.window)
    (hnow : o.now = s.now) (hlife : o.expiries = s.expiries)
    (hkey : o.key = some ⟨s.key.stored + 1, some (deadlineAfter l s.now s.key)⟩)
    (hallowed : o.decision.allowed = true ↔ s.key.stored + 1 ≤ l.max)
    (hdenied : o.decision.allowed = false →
      1 ≤ o.decision.retryAfterSeconds ∧ o.decision.retryAfterSeconds ≤ l.window) :
    Windowed l { s with key := o.key, log := s.log ++ [o] } := by
  have hlt := hready.lt_deadlineAfter hwindow
  have hle := hready.deadlineAfter_le
  have hnew : ∀ n d, o.key = some ⟨n, some d⟩ → d = deadlineAfter l s.now s.key := by
    intro n d h
    obtain ⟨-, hd⟩ := Entry.mk.inj (Option.some.inj (h.symm.trans hkey))
    exact Option.some.inj hd
  constructor
  · intro n d h
    rw [hnew n d h]
    exact hle
  · show (s.log ++ [o]).countP (Outcome.allowedAt s.expiries) ≤ Cell.stored o.key
    have hstored : Cell.stored o.key = s.key.stored + 1 := by rw [hkey]; rfl
    have hbefore := hs.counted
    rw [countP_concat, hstored]
    split_ifs <;> omega
  · intro k
    have hbefore := hs.perLife k
    show (s.log ++ [o]).countP (Outcome.allowedAt k) ≤ l.max
    rw [countP_concat]
    split_ifs with h
    · -- The call is allowed: the key stands at what is allowed since the last expiry, and below the bound.
      simp only [Outcome.allowedAt, Bool.and_eq_true, beq_iff_eq] at h
      obtain ⟨ha, hk⟩ := h
      have hcounted := hs.counted
      rw [← hlife, hk] at hcounted
      have hmax := hallowed.mp ha
      omega
    · omega
  · exact forall_concat hs.past ⟨hlife.le, hnow.le⟩
  · intro h
    rw [hkey] at h
    nomatch h
  · intro n h
    obtain ⟨-, hd⟩ := Entry.mk.inj (Option.some.inj (h.symm.trans hkey))
    nomatch hd
  · intro n d h
    rw [hnew n d h]
    apply forall_concat
    · intro o' ho' _ _
      have htime := (hs.past o' ho').2
      omega
    · intro _ _
      omega
  · intro n d h
    rw [hnew n d h]
    apply forall_concat
    · intro o' ho' ha hearlier
      match hold : s.key with
      | none =>
        have hbefore := hs.absent hold o' ho' ha
        show o'.now + 1000 * l.window < s.now + 1000 * l.window
        omega
      | some ⟨n, none⟩ =>
        -- While the key has no deadline, no call of the log was allowed.
        rw [hs.stranded n hold o' ho'] at ha
        nomatch ha
      | some ⟨n, some d⟩ =>
        -- The deadline only moves later, so the calls of earlier lives stay a window before it.
        have hbefore := hs.earlier n d hold o' ho' ha hearlier
        rw [hold] at hready
        have hkept := hready.le_deadlineAfter
        omega
    · intro _ hearlier
      dsimp only at hearlier
      omega
  · apply forall_concat hs.spread
    intro _ hearlier
    omega
  · apply forall_concat
    · intro o₁ h₁
      apply forall_concat (hs.apart o₁ h₁)
      intro ha _ hfar
      have hspread := hs.spread o₁ h₁ ha (by omega)
      omega
    · apply forall_concat
      · intro o₂ h₂ _ _ hfar
        have hpast := (hs.past o₂ h₂).1
        omega
      · intro _ _ hfar
        omega
  · exact forall_concat hs.retry fun ha _ => hdenied ha
  · apply forall_concat hs.expiring
    intro _
    exact ⟨_, _, hkey, by omega, by omega⟩

/-- A tick takes the system to its time. -/
theorem System.tick_now (s : System) (now : ℤ) : (s.tick now).now = now := by
  unfold System.tick
  split_ifs <;> rfl

/-- A tick adds nothing to the log. -/
theorem System.tick_log (s : System) (now : ℤ) : (s.tick now).log = s.log := by
  unfold System.tick
  split_ifs <;> rfl

/-- A step that Redis answers. -/
theorem step_answered (h : step l s call = some s') (havail : s'.Available) :
    s.now ≤ call.now ∧ s' = (s.tick call.now).serve l call ∧
      ∃ r, (call.eval l (s.tick call.now).key).1 = some r := by
  unfold step at h
  split_ifs at h with hle
  have heq := Option.some.inj h
  rw [← heq] at havail
  have hreply := havail _ (List.mem_append_right _ (List.mem_singleton_self _))
  exact ⟨hle, heq.symm, Option.isSome_iff_exists.mp hreply⟩

/-- A call that Redis answers keeps the calls since the last expiry counted. -/
theorem Windowed.step (hs : Windowed l s) (hwindow : 1 ≤ l.window)
    (h : RateLimit.step l s call = some s') (havail : s'.Available) : Windowed l s' := by
  obtain ⟨hle, rfl, r, hr⟩ := step_answered h havail
  have htick := hs.tick hle
  have hready := hs.ready hle
  have hnow := s.tick_now call.now
  have hdecision : ((s.tick call.now).outcome l call).decision = call.decision (some r) := by
    rw [System.outcome, hr]
  rcases eval_answered hready hwindow hr with ⟨hblocked, hallowed, hkey⟩ | ⟨hkey, hallowed, hdenied⟩
  · rw [← hdecision] at hblocked hallowed
    -- A blocked call leaves the key alone, and only the log grows.
    have hsame : (s.tick call.now).serve l call =
        { s.tick call.now with
          log := (s.tick call.now).log ++ [(s.tick call.now).outcome l call] } := by
      unfold System.serve
      congr 1
    rw [hsame]
    exact htick.blocked hnow.symm rfl hallowed hblocked
  · rw [← hdecision] at hallowed hdenied
    have hready' : Ready l (s.tick call.now).now (s.tick call.now).key := by
      rw [hnow]
      exact hready
    have hkey' : ((s.tick call.now).outcome l call).key = some ⟨(s.tick call.now).key.stored + 1,
        some (deadlineAfter l (s.tick call.now).now (s.tick call.now).key)⟩ := by
      rw [hnow]
      exact hkey
    exact htick.served hready' hwindow hnow.symm rfl hkey' hallowed hdenied

/-- A step keeps what was logged before. -/
theorem log_step (h : RateLimit.step l s call = some s') : s.log <+: s'.log := by
  unfold RateLimit.step at h
  split_ifs at h
  obtain rfl := Option.some.inj h
  rw [← s.tick_log call.now]
  exact List.prefix_append _ _

/-- The calls since the last expiry are counted after every run, by induction on the calls. -/
theorem Windowed.run {calls : List Call} (hwindow : 1 ≤ l.window) (hstart : Start l now c)
    (h : runs (RateLimit.step l) calls (RateLimit.initial now c) = some s) (havail : s.Available) :
    Windowed l s := by
  have hrun : s.Available → Windowed l s := by
    refine @Store.runs_induct _ _ (RateLimit.step l) (fun s => s.Available → Windowed l s) ?_ _ _ _
      (fun _ => Windowed.initial hstart) h
    intro s call s' hs hstep havail'
    have hbefore : s.Available := fun o ho => havail' o ((log_step hstep).subset ho)
    exact (hs hbefore).step hwindow hstep havail'
  exact hrun havail

/-! ## The bounds -/

/-- What one of two tests selects is selected by them together at least as often. -/
theorem countP_le_add {p q q' : Outcome → Bool} (log : List Outcome)
    (h : ∀ o ∈ log, p o = true → q o = true ∨ q' o = true) :
    log.countP p ≤ log.countP q + log.countP q' := by
  induction log with
  | nil => exact Nat.zero_le _
  | cons o log ih =>
    have hrest := ih fun o' ho' => h o' (List.mem_cons_of_mem o ho')
    have hfirst := h o List.mem_cons_self
    simp only [List.countP_cons]
    split_ifs <;> first | omega | simp_all

/-- Allowed calls of one interval lie between at most three expiries. -/
theorem Windowed.perWindow (hs : Windowed l s) (t : ℤ) :
    s.log.countP (Outcome.allowedFrom l t) ≤ 2 * l.max := by
  -- By induction on a bound of the number of expiries at these calls.
  have hbound : ∀ K, (∀ o ∈ s.log, o.allowedFrom l t = true → o.expiries ≤ K) →
      s.log.countP (Outcome.allowedFrom l t) ≤ 2 * l.max := by
    intro K
    induction K with
    | zero =>
      intro hlast
      have hzero : s.log.countP (Outcome.allowedFrom l t) ≤ s.log.countP (Outcome.allowedAt 0) := by
        apply List.countP_mono_left
        intro o ho hfrom
        have hlife := hlast o ho hfrom
        simp only [Outcome.allowedFrom, Outcome.allowedAt, Bool.and_eq_true, beq_iff_eq] at hfrom ⊢
        exact ⟨hfrom.1.1, by omega⟩
      have hmax := hs.perLife 0
      omega
    | succ K ih =>
      intro hlast
      by_cases hreached : ∃ o ∈ s.log, o.allowedFrom l t = true ∧ o.expiries = K + 1
      · obtain ⟨o', ho', hfrom', hlife'⟩ := hreached
        have htwo : s.log.countP (Outcome.allowedFrom l t) ≤
            s.log.countP (Outcome.allowedAt K) + s.log.countP (Outcome.allowedAt (K + 1)) := by
          apply countP_le_add
          intro o ho hfrom
          have hlife := hlast o ho hfrom
          simp only [Outcome.allowedFrom, Bool.and_eq_true, decide_eq_true_eq] at hfrom hfrom'
          simp only [Outcome.allowedAt, Bool.and_eq_true, beq_iff_eq, hfrom.1.1, true_and]
          -- Two expiries earlier is more than a window earlier.
          have hclose : ¬o.expiries + 1 < o'.expiries := by
            intro hfar
            have := hs.apart o ho o' ho' hfrom.1.1 hfrom'.1.1 hfar
            omega
          omega
        have hmax := hs.perLife K
        have hmax' := hs.perLife (K + 1)
        omega
      · apply ih
        intro o ho hfrom
        have hlife := hlast o ho hfrom
        have hne : o.expiries ≠ K + 1 := fun heq => hreached ⟨o, ho, hfrom, heq⟩
        omega
  exact hbound s.expiries fun o ho _ => (hs.past o ho).1

/-- A call on a key that is not there is the first of its window. -/
theorem Windowed.reopened (hs : Windowed l s) (hmax : 1 ≤ l.max) (hwindow : 1 ≤ l.window)
    (h : RateLimit.step l s call = some s') (havail : s'.Available)
    (hgone : s.key.live call.now = none) (ho : o ∈ s'.log.getLast?)
    (hblocked : o.decision.blocked = false) : o.decision.allowed = true := by
  obtain ⟨hle, rfl, r, hr⟩ := step_answered h havail
  have hready := hs.ready hle
  have hkey : (s.tick call.now).key = none := by
    unfold System.tick
    split_ifs with hexpired
    · rfl
    · by_contra hne
      exact hexpired ⟨hgone, hne⟩
  have hlast : o = (s.tick call.now).outcome l call := by
    rw [System.serve, List.getLast?_concat] at ho
    exact (Option.some.inj ho).symm
  have hdecision : o.decision = call.decision (some r) := by
    rw [hlast, System.outcome, hr]
  -- A first call is allowed, since the limit is at least one.
  rcases eval_answered hready hwindow hr with ⟨hb, -, -⟩ | ⟨-, hallowed, -⟩
  · rw [← hdecision, hblocked] at hb
    nomatch hb
  · rw [hdecision, hallowed, hkey]
    exact hmax

/-- Whatever calls are made, the traffic of an identity is bounded by the windows. -/
theorem rate_bounded (l : RateLimiter) (hmax : 1 ≤ l.max) (hwindow : 1 ≤ l.window) (now : ℤ)
    (key : Cell ℕ) (hstart : Start l now key) (calls : List Call) (s : System)
    (hrun : runs (step l) calls (initial now key) = some s) (havail : s.Available) :
    Bounded l s := by
  have hs := Windowed.run hwindow hstart hrun havail
  constructor
  · exact hs.perLife
  · exact hs.perWindow
  · exact hs.retry
  · exact hs.expiring
  · intro call s' hstep havail' hgone o ho hblocked
    exact hs.reopened hmax hwindow hstep havail' hgone ho hblocked

/-- A stranded counter is repaired by a call that is denied, and the next window is open. -/
theorem rate_bounded_stranded :
    ∃ s, runs (step ⟨1, 60⟩) [⟨0, .check, true⟩, ⟨59900, .checkGuarded true, true⟩,
        ⟨60000, .checkGuarded false, true⟩] (initial 0 (some ⟨7, none⟩)) = some s ∧
      s.log.map (·.decision.allowed) = [false, false, true] ∧ Bounded ⟨1, 60⟩ s := by
  refine ⟨_, rfl, by decide, ?_⟩
  exact rate_bounded ⟨1, 60⟩ le_rfl (by decide) 0 (some ⟨7, none⟩) (.inr (.inr ⟨7, rfl⟩))
    [⟨0, .check, true⟩, ⟨59900, .checkGuarded true, true⟩, ⟨60000, .checkGuarded false, true⟩] _ rfl
    (by decide)

end Giftly.RateLimit
