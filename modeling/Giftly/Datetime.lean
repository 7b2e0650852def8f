import Giftly.Core.Money

/-!
# Date arithmetic

Points in time and differences of Python's `datetime` module, in microseconds. A time lies between the
years 1 and 9999 and a difference within 999999999 days; arithmetic that leaves these bounds is an
`OverflowError`.
-/

namespace Giftly.Datetime

/-- A `datetime` in UTC, in microseconds since 1970. -/
abbrev Instant := ℤ

/-- `datetime.min`. -/
def least : Instant := -62135596800000000

/-- `datetime.max`. -/
def greatest : Instant := 253402300799999999

/-- A time that `datetime` can represent. -/
def InRange (t : Instant) : Prop := least ≤ t ∧ t ≤ greatest

instance (t : Instant) : Decidable (InRange t) := inferInstanceAs (Decidable (_ ∧ _))

/-- The microseconds of some minutes. -/
def minutes (n : ℤ) : ℤ := n * 60000000

/-- `timedelta(minutes=n)`. -/
def timedelta (n : ℤ) : Except Err ℤ :=
  if (n / 1440).natAbs ≤ 999999999 then .ok (minutes n) else .error .overflow

/-- The sum of a time and a difference. -/
def add (t : Instant) (delta : ℤ) : Except Err Instant :=
  if InRange (t + delta) then .ok (t + delta) else .error .overflow

/-- A `timedelta` that is made has its minutes. -/
theorem timedelta_eq_ok {n delta : ℤ} (h : timedelta n = .ok delta) : delta = minutes n := by
  unfold timedelta at h
  split_ifs at h
  exact (Except.ok.inj h).symm

/-- A sum of a time and a difference is made exactly when it is in range. -/
theorem add_eq_ok {t u : Instant} {delta : ℤ} : add t delta = .ok u ↔ u = t + delta ∧ InRange u := by
  unfold add
  split_ifs with h
  · constructor
    · intro heq
      obtain rfl := Except.ok.inj heq
      exact ⟨rfl, h⟩
    · rintro ⟨rfl, -⟩
      rfl
  · refine iff_of_false (fun heq => nomatch heq) ?_
    rintro ⟨rfl, hrange⟩
    exact h hrange

end Giftly.Datetime
