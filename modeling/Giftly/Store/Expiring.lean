import Mathlib.Algebra.Order.Group.Int
import Mathlib.Data.Option.Basic

/-!
# Keys that expire

What is stored under one key of a cache with expiry: nothing, or a value with the time from which it
is gone. Every operation is given the time at which it is executed and sees only what is alive then:
`get`, `incr`, `expire`, `ttl` and `set` are the commands of that name, and a deleted key is `none`.
Times are integers in one unit of the clock; a parameter `seconds` is a life in that unit.
-/

namespace Giftly.Store

/-- A value, and the time from which it is gone. -/
structure Entry (V : Type) where
  value : V
  /-- `none` is a key that does not expire. -/
  deadline : Option ℤ
  deriving DecidableEq

/-- What is stored under a key. -/
abbrev Cell (V : Type) := Option (Entry V)

namespace Cell

variable {V : Type} {c : Cell V} {e : Entry V} {now later : ℤ} {seconds : ℕ}

/-- An entry is not expired. -/
def Alive (e : Entry V) (now : ℤ) : Prop := ∀ t ∈ e.deadline, now < t

instance (e : Entry V) (now : ℤ) : Decidable (Alive e now) :=
  inferInstanceAs (Decidable (∀ t ∈ e.deadline, now < t))

/-- The entry under a key, if it is not expired. -/
def live (c : Cell V) (now : ℤ) : Cell V := c.filter fun e => Alive e now

/-- `GET`. -/
def get (c : Cell V) (now : ℤ) : Option V := (c.live now).map (·.value)

/-- `SET` with `EX`. -/
def set (value : V) (now : ℤ) (seconds : ℕ) : Cell V := some ⟨value, some (now + seconds)⟩

/-- `SET` with `NX` and `EX`: nothing is written over an entry that is alive. -/
def setNx (c : Cell V) (value : V) (now : ℤ) (seconds : ℕ) : Option (Cell V) :=
  if c.live now = none then some (.set value now seconds) else none

/-- A script that deletes the key when it holds a value. -/
def deleteIf [DecidableEq V] (c : Cell V) (value : V) (now : ℤ) : Cell V :=
  if c.get now = some value then none else c

/-- `EXPIRE`: a key that is there is gone after so many seconds. -/
def expire (c : Cell V) (now : ℤ) (seconds : ℕ) : Cell V :=
  (c.live now).map fun e => { e with deadline := some (now + seconds) }

/-- `TTL`: the seconds left, `-1` for a key that does not expire, `-2` for one that is not there. -/
def ttl (c : Cell V) (now : ℤ) : ℤ :=
  match c.live now with
  | none => -2
  | some e => (e.deadline.map fun t => t - now).getD (-1)

/-- The number that a counter stands at; a key that is not there counts as zero. -/
def count (c : Cell ℕ) (now : ℤ) : ℕ := (c.get now).getD 0

/-- `INCR`: the next number, under the deadline that the key has. The reply is `count` of the
result. -/
def incr (c : Cell ℕ) (now : ℤ) : Cell ℕ :=
  some ⟨c.count now + 1, (c.live now).bind (·.deadline)⟩

/-- An entry is live if it is there and has not expired. -/
theorem live_eq_some : c.live now = some e ↔ c = some e ∧ Alive e now := by
  simp [live, Option.filter_eq_some_iff]

/-- `GET` returns the value of a live entry. -/
theorem get_eq_some {v : V} : c.get now = some v ↔ ∃ e, c = some e ∧ Alive e now ∧ e.value = v := by
  simp only [get, Option.map_eq_some_iff, live_eq_some]
  constructor
  · rintro ⟨e, ⟨hc, ha⟩, hv⟩
    exact ⟨e, hc, ha, hv⟩
  · rintro ⟨e, hc, ha, hv⟩
    exact ⟨e, ⟨hc, ha⟩, hv⟩

/-- What is alive later is alive now. -/
theorem Alive.mono (h : Alive e later) (hle : now ≤ later) : Alive e now :=
  fun t ht => lt_of_le_of_lt hle (h t ht)

/-- A `SET` with `NX` is carried out exactly when nothing is alive under the key. -/
theorem setNx_eq_some {c' : Cell V} {v : V} :
    c.setNx v now seconds = some c' ↔ c.get now = none ∧ c' = .set v now seconds := by
  rw [setNx, get, Option.map_eq_none_iff]
  split_ifs with h
  · simp only [h, Option.some.injEq, true_and]
    exact eq_comm
  · simp only [h, false_and]

/-- What is read under a key is stored there, and not expired. -/
theorem get_of_some (hc : c = some e) (ha : Alive e now) : c.get now = some e.value :=
  get_eq_some.mpr ⟨e, hc, ha, rfl⟩

/-- A script that deletes another value leaves the key as it is. -/
theorem deleteIf_of_ne [DecidableEq V] {v : V} (h : c.get now ≠ some v) :
    c.deleteIf v now = c := if_neg h

/-- The reply of `INCR`. -/
@[simp]
theorem count_incr (c : Cell ℕ) (now : ℤ) : (c.incr now).count now = c.count now + 1 := by
  have halive : Alive ⟨c.count now + 1, (c.live now).bind (·.deadline)⟩ now := by
    intro t ht
    obtain ⟨e, he, het⟩ := Option.bind_eq_some_iff.mp ht
    exact (live_eq_some.mp he).2 t het
  have hlive : (c.incr now).live now = c.incr now := by
    rw [incr, live_eq_some]
    exact ⟨rfl, halive⟩
  unfold count get
  rw [hlive]
  rfl

/-! ## Keys that are there until some time -/

/-- The key does not expire before a time, or is not there. -/
def Outlives (c : Cell V) (t : ℤ) : Prop := ∀ e, c = some e → ∀ d ∈ e.deadline, t ≤ d

/-- The number under a key, expired or not. -/
def stored (c : Cell ℕ) : ℕ := (c.map (·.value)).getD 0

/-- A key that is not there does not expire. -/
theorem Outlives.none {t : ℤ} : Outlives (none : Cell V) t := nofun

/-- Before that time nothing of it is expired. -/
theorem Outlives.live_eq {t : ℤ} (h : Outlives c t) (ht : now < t) : live c now = c := by
  cases c with
  | none => rfl
  | some e =>
    rw [live_eq_some]
    exact ⟨rfl, fun d hd => lt_of_lt_of_le ht (h e rfl d hd)⟩

/-- Before that time a counter stands at the number that is stored. -/
theorem Outlives.count_eq {c : Cell ℕ} {t : ℤ} (h : Outlives c t) (ht : now < t) :
    count c now = stored c := by
  unfold count get stored
  rw [h.live_eq ht]

/-- Counting does not shorten the life of a key. -/
theorem Outlives.incr {c : Cell ℕ} {t : ℤ} (h : Outlives c t) : Outlives (incr c now) t := by
  intro e he d hd
  obtain rfl := Option.some.inj he
  obtain ⟨e', he', hd'⟩ := Option.bind_eq_some_iff.mp hd
  exact h e' (live_eq_some.mp he').1 d hd'

/-- An `EXPIRE` to a later time. -/
theorem Outlives.expire {t : ℤ} (ht : t ≤ now + seconds) : Outlives (expire c now seconds) t := by
  intro e he d hd
  obtain ⟨e', -, rfl⟩ := Option.map_eq_some_iff.mp he
  obtain rfl := Option.some.inj hd
  exact ht

/-- A counter that is alive stays where it stands when its life is set. -/
theorem stored_expire {c : Cell ℕ} {t : ℤ} (h : Outlives c t) (ht : now < t) :
    stored (expire c now seconds) = stored c := by
  unfold stored expire
  rw [h.live_eq ht, Option.map_map]
  rfl

/-- `INCR` stores one more than what was live. -/
@[simp]
theorem stored_incr (c : Cell ℕ) (now : ℤ) : stored (incr c now) = count c now + 1 := rfl

end Cell

end Giftly.Store
