import Giftly.Models
import Giftly.Store.Expiring

/-!
# One-time codes

`OtpService` of `otp_service.py` for one phone: any number of `request_otp` and `verify_otp` calls
over the four keys of the phone in Redis. Each Redis command is one step, the commands of different
calls interleave as they like, the clock goes on between them, and a call that takes no further step
is one that crashed. `RequestPc` and `VerifyPc` say which command of its function a call executes
next, with the values that the function holds there.

History variables, which no command reads: the number of the request that wrote the stored code
(`Code.issue`), how often the attempts counter was deleted by a request (`System.resets`) and what it
was when a call took its number (`since`), and the codes that guesses were compared with and that
calls accepted.
-/

namespace Giftly.Otp

open Store (Cell)

/-- The settings, and `hmac_hex` under the key of the service. -/
structure Env where
  otpTtlSeconds : ℕ
  otpMaxPerWindow : ℕ
  otpWindowSeconds : ℕ
  otpBlockSeconds : ℕ
  /-- `ENVIRONMENT` is `development`. -/
  development : Bool
  hmacHex : Text → Text

/-- What is stored under `otp:code:<phone>`. -/
structure Code where
  digest : Text
  /-- The call that wrote it. -/
  issue : ℕ
  deriving DecidableEq

/-- The keys of a phone. -/
structure Keys where
  /-- `otp:code:<phone>` -/
  code : Cell Code
  /-- `otp:attempts:<phone>` -/
  attempts : Cell ℕ
  /-- `otp:rate:<phone>` -/
  rate : Cell ℕ
  /-- `otp:block:<phone>` -/
  block : Cell Unit
  deriving DecidableEq

/-! ## `request_otp` -/

/-- The next command of a `request_otp`. -/
inductive RequestPc
  | getBlock
  | incrRate
  | ttlRate (count : ℕ)
  | expireRate (count : ℕ)
  | setBlock
  | setCode
  | delAttempts
  | sendOtp
  | returned (result : Except Err (Option Text))

/-- `request_otp` once its counter has an expiry: over the ceiling it blocks the phone. -/
def RequestPc.afterRate (env : Env) (count : ℕ) : RequestPc :=
  if env.otpMaxPerWindow < count then .setBlock else .setCode

/-- One command of the `request_otp` with the number `id`, which has drawn `code`. -/
def RequestPc.step (env : Env) (now : ℤ) (id : ℕ) (code : Text) (k : Keys) :
    RequestPc → Option (RequestPc × Keys)
  | .getBlock =>
    if (k.block.get now).isSome then
      some (.returned (.error (.rateLimited env.otpBlockSeconds)), k)
    else some (.incrRate, k)
  | .incrRate =>
    let count := k.rate.count now + 1
    some (if count = 1 then .expireRate count else .ttlRate count, { k with rate := k.rate.incr now })
  | .ttlRate count =>
    -- a counter without an expiry was left by a call that crashed before its `EXPIRE`
    some (if k.rate.ttl now < 0 then .expireRate count else .afterRate env count, k)
  | .expireRate count =>
    some (.afterRate env count, { k with rate := k.rate.expire now env.otpWindowSeconds })
  | .setBlock =>
    some (.returned (.error (.rateLimited env.otpBlockSeconds)),
      { k with block := .set () now env.otpBlockSeconds })
  | .setCode =>
    some (.delAttempts, { k with code := .set ⟨env.hmacHex code, id⟩ now env.otpTtlSeconds })
  | .delAttempts => some (.sendOtp, { k with attempts := none })
  | .sendOtp => some (.returned (.ok (if env.development then some code else none)), k)
  | .returned _ => none

/-! ## `verify_otp` -/

/-- The next command of a `verify_otp`. -/
inductive VerifyPc
  | incrAttempts
  | ttlAttempts (attempts since : ℕ)
  | expireAttempts (attempts since : ℕ)
  | delCode
  | getCode (since : ℕ)
  | delCodeAttempts (issue : ℕ)
  | delRate (issue : ℕ)
  | returned (result : Except Err Bool)

/-- `verify_otp` once its counter has an expiry: after the fifth attempt the code is deleted. -/
def VerifyPc.afterAttempts (attempts since : ℕ) : VerifyPc :=
  if 5 < attempts then .delCode else .getCode since

/-- One command of a `verify_otp` of `guess`, when `resets` requests have deleted the counter. -/
def VerifyPc.step (env : Env) (now : ℤ) (resets : ℕ) (guess : Text) (k : Keys) :
    VerifyPc → Option (VerifyPc × Keys)
  | .incrAttempts =>
    let attempts := k.attempts.count now + 1
    some (if attempts = 1 then .expireAttempts attempts resets else .ttlAttempts attempts resets,
      { k with attempts := k.attempts.incr now })
  | .ttlAttempts attempts since =>
    some (if k.attempts.ttl now < 0 then .expireAttempts attempts since
      else .afterAttempts attempts since, k)
  | .expireAttempts attempts since =>
    some (.afterAttempts attempts since,
      { k with attempts := k.attempts.expire now env.otpTtlSeconds })
  | .delCode => some (.returned (.error (.rateLimited env.otpTtlSeconds)), { k with code := none })
  | .getCode _ =>
    match k.code.get now with
    | none => some (.returned (.ok false), k)
    | some c =>
      -- the comparison needs no command: the call goes on from the `GET` with its outcome
      some (if c.digest = env.hmacHex guess then .delCodeAttempts c.issue
        else .returned (.ok false), k)
  | .delCodeAttempts issue => some (.delRate issue, { k with code := none, attempts := none })
  | .delRate _ => some (.returned (.ok true), { k with rate := none })
  | .returned _ => none

/-! ## Interleaved calls -/

/-- A call, with what it was given or has drawn. -/
inductive Call
  | request (code : Text) (pc : RequestPc)
  | verify (guess : Text) (pc : VerifyPc)

/-- The clock, the keys, and the calls in the order in which they began. -/
structure System where
  now : ℤ
  keys : Keys
  calls : List Call
  /-- How many requests have deleted the attempts counter. -/
  resets : ℕ
  /-- The issues of the codes that guesses were compared with. -/
  compared : List ℕ
  /-- The issues of the codes that calls which returned `True` accepted. -/
  accepted : List ℕ

/-- The code that a guess is compared with in the next step of a `verify_otp`. -/
def VerifyPc.compares (now : ℤ) (k : Keys) : VerifyPc → Option ℕ
  | .getCode _ => (k.code.get now).map (·.issue)
  | _ => none

/-- The code that a `verify_otp` has accepted when its next step returns `True`. -/
def VerifyPc.accepts : VerifyPc → Option ℕ
  | .delRate issue => some issue
  | _ => none

/-- The number of deletions of the counter by the next step of a `request_otp`. -/
def RequestPc.deletes : RequestPc → ℕ
  | .delAttempts => 1
  | _ => 0

namespace System

/-- One command of the `i`-th call. -/
def step (env : Env) (s : System) (i : ℕ) : Option System :=
  match s.calls[i]? with
  | some (.request code pc) =>
    (pc.step env s.now i code s.keys).map fun x =>
      { s with
        keys := x.2
        calls := s.calls.set i (.request code x.1)
        resets := s.resets + pc.deletes }
  | some (.verify guess pc) =>
    (pc.step env s.now s.resets guess s.keys).map fun x =>
      { s with
        keys := x.2
        calls := s.calls.set i (.verify guess x.1)
        compared := (pc.compares s.now s.keys).toList ++ s.compared
        accepted := pc.accepts.toList ++ s.accepted }
  | none => none

/-- A new call at its first command. -/
def start (s : System) (c : Call) : System := { s with calls := s.calls ++ [c] }

/-- Before the first call: no code is stored. -/
def initial (now : ℤ) (attempts rate : Cell ℕ) (block : Cell Unit) : System where
  now := now
  keys := ⟨none, attempts, rate, block⟩
  calls := []
  resets := 0
  compared := []
  accepted := []

/-- The states that interleavings of calls reach, when every step is taken under a condition. -/
inductive Run (env : Env) (cond : System → ℕ → Prop) (s₀ : System) : System → Prop
  | init : Run env cond s₀ s₀
  | request {s} (code : Text) : Run env cond s₀ s →
      Run env cond s₀ (s.start (.request code .getBlock))
  | verify {s} (guess : Text) : Run env cond s₀ s →
      Run env cond s₀ (s.start (.verify guess .incrAttempts))
  | tick {s} (seconds : ℕ) : Run env cond s₀ s → Run env cond s₀ { s with now := s.now + seconds }
  | step {s s'} (i : ℕ) : Run env cond s₀ s → cond s i → s.step env i = some s' →
      Run env cond s₀ s'

/-- An event of a schedule. -/
inductive Event
  | request (code : Text)
  | verify (guess : Text)
  | tick (seconds : ℕ)
  | step (i : ℕ)

/-- Execute a schedule, as long as its steps meet the condition. -/
def play (env : Env) (cond : System → ℕ → Prop) [∀ s i, Decidable (cond s i)] :
    List Event → System → Option System
  | [], s => some s
  | .request code :: es, s => play env cond es (s.start (.request code .getBlock))
  | .verify guess :: es, s => play env cond es (s.start (.verify guess .incrAttempts))
  | .tick seconds :: es, s => play env cond es { s with now := s.now + seconds }
  | .step i :: es, s => if cond s i then (s.step env i).bind (play env cond es) else none

/-- A schedule that is executed to its end is a run. -/
theorem Run.of_play {env : Env} {cond : System → ℕ → Prop} [∀ s i, Decidable (cond s i)]
    {s₀ s s' : System} {es : List Event} (hs : Run env cond s₀ s)
    (h : play env cond es s = some s') : Run env cond s₀ s' := by
  induction es generalizing s with
  | nil =>
    obtain rfl := Option.some.inj h
    exact hs
  | cons e es ih =>
    cases e with
    | request code => exact ih (hs.request code) h
    | verify guess => exact ih (hs.verify guess) h
    | tick seconds => exact ih (hs.tick seconds) h
    | step i =>
      simp only [play] at h
      split_ifs at h with hc
      obtain ⟨s₁, h₁, h₂⟩ := Option.bind_eq_some_iff.mp h
      exact ih (hs.step i hc h₁) h₂

end System

end Giftly.Otp
