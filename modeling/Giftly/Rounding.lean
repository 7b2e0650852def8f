import Giftly.Core.Money
import Mathlib.Algebra.Order.Round
import Mathlib.Data.Nat.Cast.Field
import Mathlib.Data.Rat.Floor
import Mathlib.Tactic.FieldSimp
import Mathlib.Tactic.Linarith
import Mathlib.Tactic.NormNum
import Mathlib.Tactic.Positivity

/-!
# The values of decimal numbers

A `Dec` denotes a rational number, and an operation of the context is the exact operation on the
values followed by `fix`, which changes a value by at most one part in `10 ^ 27` (`abs_val_fix_sub`)
and keeps the order (`val_fix_mono`). `quantize` rounds the value itself, half away from zero
(`halfUp`), so a money amount is the rounded hundredfold of a value (`quantizeMoney_eq`).
-/

namespace Giftly

/-- The nearest integer, the one away from zero when two are equally near. -/
def halfUp (q : ℚ) : ℤ := if 0 ≤ q then round q else -round (-q)

section HalfUp

variable {q r : ℚ}

/-- A number that is not negative is rounded to the nearest integer, halves up. -/
theorem halfUp_of_nonneg (h : 0 ≤ q) : halfUp q = round q := if_pos h

/-- Rounding is symmetric about zero. -/
theorem halfUp_neg (q : ℚ) : halfUp (-q) = -halfUp q := by
  unfold halfUp
  rcases lt_trichotomy q 0 with h | rfl | h
  · rw [if_pos (by linarith), if_neg (by linarith), neg_neg]
  · simp
  · rw [if_neg (by linarith), if_pos h.le, neg_neg]

/-- An integer is not rounded. -/
@[simp]
theorem halfUp_intCast (n : ℤ) : halfUp n = n := by
  unfold halfUp
  split_ifs
  · exact round_intCast n
  · rw [← Int.cast_neg, round_intCast, neg_neg]

/-- Zero is not rounded. -/
@[simp]
theorem halfUp_zero : halfUp 0 = 0 := halfUp_intCast 0

/-- Rounding to the nearest integer keeps the order. -/
theorem round_mono (h : q ≤ r) : round q ≤ round r := by
  rw [round_eq, round_eq]
  exact Int.floor_le_floor (by linarith)

/-- A number that is not negative does not become negative. -/
theorem halfUp_nonneg (h : 0 ≤ q) : 0 ≤ halfUp q := by
  rw [halfUp_of_nonneg h]
  simpa using round_mono h

/-- Rounding keeps the order. -/
theorem halfUp_mono (h : q ≤ r) : halfUp q ≤ halfUp r := by
  rcases le_total 0 q with hq | hq
  · rw [halfUp_of_nonneg hq, halfUp_of_nonneg (hq.trans h)]
    exact round_mono h
  rcases le_total 0 r with hr | hr
  · have h1 : halfUp q ≤ 0 := by
      have := halfUp_nonneg (neg_nonneg.mpr hq)
      rw [halfUp_neg] at this
      omega
    exact h1.trans (halfUp_nonneg hr)
  · have h1 := round_mono (neg_le_neg h)
    rw [← halfUp_of_nonneg (neg_nonneg.mpr hr), ← halfUp_of_nonneg (neg_nonneg.mpr hq), halfUp_neg,
      halfUp_neg] at h1
    omega

/-- The rounded number is at most one half away. -/
theorem abs_halfUp_sub (q : ℚ) : |(halfUp q : ℚ) - q| ≤ 1 / 2 := by
  unfold halfUp
  split_ifs
  · rw [abs_sub_comm]
    exact abs_sub_round q
  · have h := abs_sub_round (-q)
    rw [Int.cast_neg, show -(round (-q) : ℚ) - q = -q - round (-q) by ring]
    exact h

/-- What is below a half is rounded to zero. -/
theorem halfUp_eq_zero (h0 : 0 ≤ q) (h : q < 1 / 2) : halfUp q = 0 := by
  rw [halfUp_of_nonneg h0, round_eq, Int.floor_eq_iff]
  constructor <;> norm_num <;> linarith

/-- Rounding at most doubles. -/
theorem halfUp_le_two_mul (h : 0 ≤ q) : (halfUp q : ℚ) ≤ 2 * q := by
  by_cases hq : q < 1 / 2
  · rw [halfUp_eq_zero h hq]
    simpa using h
  · have := (abs_le.mp (abs_halfUp_sub q)).2
    linarith

/-- An integer bound of a number is one of the rounded number. -/
theorem halfUp_le_of_lt {n : ℤ} (h : q < n + 1 / 2) : halfUp q ≤ n := by
  rcases le_total 0 q with hq | hq
  · rw [halfUp_of_nonneg hq, round_eq]
    have hfloor : ⌊q + 1 / 2⌋ < n + 1 := Int.floor_lt.mpr (by push_cast; linarith)
    omega
  · by_contra hlt
    have hn : n < halfUp q := not_le.mp hlt
    have h0 : halfUp q ≤ 0 := (halfUp_mono hq).trans_eq halfUp_zero
    have habs := (abs_le.mp (abs_halfUp_sub q)).2
    have hcast : (n : ℚ) + 1 ≤ halfUp q := by exact_mod_cast hn
    linarith

/-- The nearest integer of a quotient, in integer arithmetic. -/
theorem halfUp_div {a b : ℤ} (ha : 0 ≤ a) (hb : 0 < b) :
    halfUp (a / b : ℚ) = (2 * a + b) / (2 * b) := by
  have hb' : (0 : ℚ) < b := by exact_mod_cast hb
  have ha' : (0 : ℚ) ≤ a := by exact_mod_cast ha
  obtain ⟨m, rfl⟩ := Int.eq_ofNat_of_zero_le hb.le
  have hshift : (a / (m : ℤ) : ℚ) + 1 / 2 = ((2 * a + m : ℤ) : ℚ) / ((2 * m : ℕ) : ℚ) := by
    push_cast at hb' ⊢
    field_simp
  rw [halfUp_of_nonneg (by positivity), round_eq, hshift, Rat.floor_intCast_div_natCast]
  norm_cast

/-- A number near a quotient is rounded to the same integer, unless the quotient is half way between
two of them: then it has to be the quotient itself. -/
theorem halfUp_eq_of_near {a b : ℤ} {r : ℚ} (ha : 0 ≤ a) (hb : 0 < b)
    (hnear : |r - a / b| * (2 * b) < 1) (hhalf : 2 * b ∣ 2 * a + b → r = a / b) :
    halfUp r = (2 * a + b) / (2 * b) := by
  by_cases hdvd : 2 * b ∣ 2 * a + b
  · rw [hhalf hdvd, halfUp_div ha hb]
  have hb' : (0 : ℚ) < 2 * b := by exact_mod_cast (by omega : (0 : ℤ) < 2 * b)
  set m := (2 * a + b) / (2 * b) with hm
  set rest := (2 * a + b) % (2 * b) with hrest
  have hsplit := Int.mul_ediv_add_emod (2 * a + b) (2 * b)
  -- No tie: `a / b` is at least `1 / (2 b)` away from the next half.
  have hlow : 1 ≤ rest := by
    have hnonneg := Int.emod_nonneg (2 * a + b) (by omega : 2 * b ≠ 0)
    have hne : rest ≠ 0 := fun h => hdvd (Int.dvd_of_emod_eq_zero h)
    omega
  have hhigh : rest < 2 * b := Int.emod_lt_of_pos _ (by omega)
  have hexact : (a / b : ℚ) * (2 * b) = 2 * b * m + rest - b := by
    have hcast : (2 * b * m + rest : ℚ) = 2 * a + b := by exact_mod_cast hsplit
    rw [hcast]
    field_simp
    ring
  have hlow' : (1 : ℚ) ≤ rest := by exact_mod_cast hlow
  have hhigh' : (rest : ℚ) + 1 ≤ 2 * b := by exact_mod_cast hhigh
  rw [← abs_of_pos hb', ← abs_mul, sub_mul, hexact, abs_lt] at hnear
  -- So `r` is on the same side of both halves.
  have habove : r < m + 1 / 2 := by nlinarith
  have hbelow : (m : ℚ) - 1 / 2 < r := by nlinarith
  have hle := halfUp_le_of_lt habove
  have hge : m - 1 < halfUp r := by
    have habs := (abs_le.mp (abs_halfUp_sub r)).1
    by_contra hlt
    have hcast : (halfUp r : ℚ) ≤ m - 1 := by exact_mod_cast (by omega : halfUp r ≤ m - 1)
    linarith
  omega

end HalfUp

namespace Dec

/-- The value of a number. -/
def val (x : Dec) : ℚ := x.coeff * 10 ^ x.exp

variable {x y : Dec}

/-- Powers of ten are positive. -/
theorem ten_zpow_pos (e : ℤ) : (0 : ℚ) < 10 ^ e := zpow_pos (by norm_num) e

/-- The value of an amount in halalas. -/
@[simp]
theorem val_cents (n : ℤ) : (cents n).val = n / 100 := by
  simp [val, cents, div_eq_mul_inv]
  norm_num

/-- The value of zero. -/
@[simp]
theorem val_zero : zero.val = 0 := by
  rw [val_cents, Int.cast_zero, zero_div]

/-- A coefficient at a smaller exponent. -/
theorem val_scaled {e : ℤ} (h : e ≤ x.exp) : (x.scaled e : ℚ) * 10 ^ e = x.val := by
  unfold scaled val
  push_cast
  rw [mul_assoc, ← zpow_natCast, ← zpow_add₀ (by norm_num : (10 : ℚ) ≠ 0),
    Int.toNat_of_nonneg (by omega), sub_add_cancel]

/-- A sum is the exact one, rounded by the context. -/
theorem exists_add (x y : Dec) : ∃ z : Dec, x.add y = z.fix ∧ z.val = x.val + y.val := by
  refine ⟨⟨x.scaled (Min.min x.exp y.exp) + y.scaled (Min.min x.exp y.exp), Min.min x.exp y.exp⟩,
    rfl, ?_⟩
  rw [← val_scaled (min_le_left x.exp y.exp), ← val_scaled (min_le_right x.exp y.exp), ← add_mul]
  simp [val]

/-- A difference is the exact one, rounded by the context. -/
theorem exists_sub (x y : Dec) : ∃ z : Dec, x.sub y = z.fix ∧ z.val = x.val - y.val := by
  refine ⟨⟨x.scaled (Min.min x.exp y.exp) - y.scaled (Min.min x.exp y.exp), Min.min x.exp y.exp⟩,
    rfl, ?_⟩
  rw [← val_scaled (min_le_left x.exp y.exp), ← val_scaled (min_le_right x.exp y.exp), ← sub_mul]
  simp [val]

/-- The exact product of two numbers. -/
theorem val_product (x y : Dec) : (⟨x.coeff * y.coeff, x.exp + y.exp⟩ : Dec).val = x.val * y.val := by
  unfold val
  rw [zpow_add₀ (by norm_num)]
  push_cast
  ring

/-- Numbers are compared by their values. -/
theorem lt_eq (x y : Dec) : x.lt y = decide (x.val < y.val) := by
  unfold lt
  rw [decide_eq_decide, ← val_scaled (min_le_left x.exp y.exp),
    ← val_scaled (min_le_right x.exp y.exp), mul_lt_mul_iff_left₀ (ten_zpow_pos _)]
  exact Int.cast_lt.symm

/-- Numbers are compared by their values. -/
theorem le_eq (x y : Dec) : x.le y = decide (x.val ≤ y.val) := by
  unfold le
  rw [lt_eq, ← decide_not, decide_eq_decide, not_lt]

/-- Numbers are equal by their values. -/
theorem eq_eq (x y : Dec) : x.eq y = decide (x.val = y.val) := by
  unfold eq
  rw [le_eq, le_eq, ← Bool.decide_and, decide_eq_decide]
  exact antisymm_iff

/-! ## Rounding to the digits of the context -/

/-- Division of a natural number by a power of ten, rounded to nearest, ties to even. -/
def halfEven (n k : ℕ) : ℕ :=
  if 10 ^ k < 2 * (n % 10 ^ k) ∨ (2 * (n % 10 ^ k) = 10 ^ k ∧ n / 10 ^ k % 2 = 1) then n / 10 ^ k + 1
  else n / 10 ^ k

/-- The magnitude is rounded, and the sign is kept. -/
theorem divHalfEven_eq (n : ℤ) (k : ℕ) : divHalfEven n k = n.sign * halfEven n.natAbs k := rfl

/-- A multiple of the power is divided exactly. -/
theorem halfEven_mul (a k : ℕ) : halfEven (a * 10 ^ k) k = a := by
  have hpos : 0 < 10 ^ k := Nat.pow_pos (by omega)
  unfold halfEven
  rw [Nat.mul_mod_left, Nat.mul_div_cancel a hpos, if_neg]
  omega

/-- Half-even rounding keeps the order. -/
theorem halfEven_mono {n n' k : ℕ} (h : n ≤ n') : halfEven n k ≤ halfEven n' k := by
  have hq : n / 10 ^ k ≤ n' / 10 ^ k := Nat.div_le_div_right h
  unfold halfEven
  rcases hq.lt_or_eq with hlt | heq
  · split_ifs <;> omega
  · -- equal quotients, so the remainders are ordered
    have h1 := Nat.div_add_mod n (10 ^ k)
    have h2 := Nat.div_add_mod n' (10 ^ k)
    rw [heq] at h1 ⊢
    have hr : n % 10 ^ k ≤ n' % 10 ^ k := by omega
    split_ifs <;> omega

/-- Rounding changes a number by at most half a unit of the last digit. -/
theorem abs_halfEven_sub (n k : ℕ) :
    |((halfEven n k * 10 ^ k : ℕ) : ℤ) - n| * 2 ≤ (10 ^ k : ℕ) := by
  have h := Nat.div_add_mod n (10 ^ k)
  have hlt := Nat.mod_lt n (show 0 < 10 ^ k from Nat.pow_pos (by omega))
  unfold halfEven
  split_ifs with hc
  · have hmul : (n / 10 ^ k + 1) * 10 ^ k = 10 ^ k * (n / 10 ^ k) + 10 ^ k := by ring
    rw [hmul]
    generalize 10 ^ k * (n / 10 ^ k) = a at *
    generalize n % 10 ^ k = r at *
    generalize 10 ^ k = p at *
    rw [abs_of_nonneg (by omega)]
    omega
  · rw [Nat.mul_comm (n / 10 ^ k)]
    generalize 10 ^ k * (n / 10 ^ k) = a at *
    rw [abs_of_nonpos (by omega)]
    omega

/-- The number of digits to drop from a coefficient. -/
def excess (n : ℕ) : ℕ := digits n n - 28

/-- A natural number rounded to 28 digits. -/
def round28 (n : ℕ) : ℕ := halfEven n (excess n) * 10 ^ excess n

/-- A coefficient below the limit has no digit too many. -/
theorem excess_eq_zero {n : ℕ} (h : n < limit) : excess n = 0 := by
  rcases Nat.eq_zero_or_pos n with rfl | hpos
  · rfl
  · obtain ⟨h1, hlow, -⟩ := digits_bounds n n hpos le_rfl
    have hlt : 10 ^ (digits n n - 1) < 10 ^ 28 := hlow.trans_lt h
    have hdigits := (Nat.pow_lt_pow_iff_right (show 1 < 10 by omega)).mp hlt
    unfold excess
    omega

/-- A number that is too long lies between two powers of ten. -/
theorem excess_bounds {n : ℕ} (h : limit ≤ n) :
    0 < excess n ∧ 10 ^ (excess n + 27) ≤ n ∧ n < 10 ^ (excess n + 28) := by
  have hpos : 0 < n := (Nat.pow_pos (by omega)).trans_le h
  obtain ⟨h1, hlow, hhigh⟩ := digits_bounds n n hpos le_rfl
  have hlt : 10 ^ 28 < 10 ^ digits n n := h.trans_lt hhigh
  have hdigits := (Nat.pow_lt_pow_iff_right (show 1 < 10 by omega)).mp hlt
  have hsum : excess n + 28 = digits n n := by
    unfold excess
    omega
  rw [show excess n + 27 = digits n n - 1 by omega, hsum]
  exact ⟨by omega, hlow, hhigh⟩

/-- A coefficient below the limit is not rounded. -/
theorem round28_of_lt {n : ℕ} (h : n < limit) : round28 n = n := by
  unfold round28
  rw [excess_eq_zero h]
  simpa using halfEven_mul n 0

/-- The rounding of the context keeps the order. -/
theorem round28_mono {n n' : ℕ} (h : n ≤ n') : round28 n ≤ round28 n' := by
  rcases lt_or_ge n' limit with h' | h'
  · rwa [round28_of_lt h', round28_of_lt (h.trans_lt h')]
  obtain ⟨-, hlow', -⟩ := excess_bounds h'
  have hle : excess n ≤ excess n' := by
    rcases lt_or_ge n limit with hn | hn
    · rw [excess_eq_zero hn]
      omega
    · obtain ⟨-, hlow, -⟩ := excess_bounds hn
      obtain ⟨-, -, hhigh'⟩ := excess_bounds h'
      have hlt : 10 ^ (excess n + 27) < 10 ^ (excess n' + 28) := (hlow.trans h).trans_lt hhigh'
      have hexp := (Nat.pow_lt_pow_iff_right (show 1 < 10 by omega)).mp hlt
      omega
  rcases hle.eq_or_lt with heq | hlt
  · -- As many digits are dropped from both.
    unfold round28
    rw [heq]
    exact Nat.mul_le_mul_right _ (halfEven_mono h)
  · -- a power of ten lies between them
    have hn : n ≤ 10 ^ 28 * 10 ^ excess n := by
      rcases lt_or_ge n limit with hn | hn
      · rw [excess_eq_zero hn, pow_zero, mul_one]
        exact hn.le
      · obtain ⟨-, -, hhigh⟩ := excess_bounds hn
        rw [← pow_add, Nat.add_comm]
        exact hhigh.le
    have hn' : 10 ^ 27 * 10 ^ excess n' ≤ n' := by
      rw [← pow_add, Nat.add_comm]
      exact hlow'
    have hquot : halfEven n (excess n) ≤ 10 ^ 28 := by
      have hmono := halfEven_mono (k := excess n) hn
      rwa [halfEven_mul] at hmono
    have hquot' : 10 ^ 27 ≤ halfEven n' (excess n') := by
      have hmono := halfEven_mono (k := excess n') hn'
      rwa [halfEven_mul] at hmono
    calc round28 n ≤ 10 ^ 28 * 10 ^ excess n := Nat.mul_le_mul_right _ hquot
      _ = 10 ^ (28 + excess n) := (pow_add ..).symm
      _ ≤ 10 ^ (27 + excess n') := Nat.pow_le_pow_right (by omega) (by omega)
      _ = 10 ^ 27 * 10 ^ excess n' := pow_add ..
      _ ≤ round28 n' := Nat.mul_le_mul_right _ hquot'

/-- Rounding to 28 digits changes a number by at most one part in `10 ^ 27`. -/
theorem abs_round28_sub (n : ℕ) : |(round28 n : ℤ) - n| * 10 ^ 27 ≤ n := by
  rcases lt_or_ge n limit with h | h
  · rw [round28_of_lt h]
    simp
  · obtain ⟨-, hlow, -⟩ := excess_bounds h
    have habs := abs_halfEven_sub n (excess n)
    rw [pow_add] at hlow
    have hcast : ((10 ^ excess n * 10 ^ 27 : ℕ) : ℤ) ≤ n := by exact_mod_cast hlow
    unfold round28
    push_cast at hcast habs ⊢
    linarith

/-- A number that is rounded up to a multiple of ten is rounded to it with one digit fewer. -/
theorem halfEven_succ {n k a : ℕ} (h : halfEven n k = 10 * a) (hn : n ≤ a * 10 ^ (k + 1)) :
    halfEven n (k + 1) = a := by
  -- Rounding is monotone, so the shorter result is at most the multiple.
  have hle : halfEven n (k + 1) ≤ a := by
    have hmono := halfEven_mono (k := k + 1) hn
    rwa [halfEven_mul] at hmono
  by_contra hne
  have hlt : halfEven n (k + 1) + 1 ≤ a := lt_of_le_of_ne hle hne
  have h1 := abs_halfEven_sub n k
  have h2 := abs_halfEven_sub n (k + 1)
  have hpos : 0 < 10 ^ k := Nat.pow_pos (by omega)
  have hmul := Nat.mul_le_mul_right (10 ^ k) hlt
  have hsucc : 10 ^ (k + 1) = 10 * 10 ^ k := by rw [pow_succ, Nat.mul_comm]
  rw [h, Nat.mul_assoc] at h1
  rw [hsucc, Nat.mul_left_comm] at h2
  rw [Nat.add_mul, one_mul] at hmul
  -- The products are linear from here on.
  generalize a * 10 ^ k = x at *
  generalize halfEven n (k + 1) * 10 ^ k = y at *
  generalize 10 ^ k = z at *
  have h1' := neg_abs_le (((10 * x : ℕ) : ℤ) - n)
  have h1'' := le_abs_self (((10 * x : ℕ) : ℤ) - n)
  have h2' := neg_abs_le (((10 * y : ℕ) : ℤ) - n)
  omega

/-- When 28 digits are rounded up to a power of ten, one digit fewer gives the same number. -/
theorem halfEven_carry {n : ℕ} (hn : limit ≤ n) (h : limit ≤ halfEven n (excess n)) :
    halfEven n (excess n + 1) * 10 ^ (excess n + 1) = round28 n := by
  obtain ⟨-, -, hhigh⟩ := excess_bounds hn
  have hpow : 10 ^ (excess n + 28) = limit * 10 ^ excess n := by rw [pow_add, Nat.mul_comm]
  have hpow' : 10 ^ (excess n + 28) = 10 ^ 27 * 10 ^ (excess n + 1) := by
    rw [show excess n + 28 = 27 + (excess n + 1) by omega, pow_add]
  have hle : halfEven n (excess n) ≤ limit := by
    have hmono := halfEven_mono (k := excess n) (hpow ▸ hhigh.le)
    rwa [halfEven_mul] at hmono
  have heq : halfEven n (excess n) = limit := le_antisymm hle h
  have heq' : halfEven n (excess n + 1) = 10 ^ 27 :=
    halfEven_succ (heq.trans (pow_succ' 10 27)) (hpow' ▸ hhigh.le)
  unfold round28
  rw [heq, heq', ← hpow, ← hpow']

/-- The value of a number rounded to the digits of the context. -/
theorem val_fix (x : Dec) :
    x.fix.val = (x.coeff.sign * (round28 x.coeff.natAbs : ℤ) : ℤ) * (10 : ℚ) ^ x.exp := by
  have hten : ∀ k : ℕ, (10 : ℚ) ^ (x.exp + k) = 10 ^ k * 10 ^ x.exp := by
    intro k
    rw [zpow_add₀ (by norm_num), zpow_natCast, mul_comm]
  have hexcess : digits x.coeff.natAbs x.coeff.natAbs - 28 = excess x.coeff.natAbs := rfl
  unfold fix
  split_ifs with h
  · rw [round28_of_lt h, Int.sign_mul_natAbs]
    rfl
  dsimp only
  rw [hexcess]
  split_ifs with hc
  · -- The rounded coefficient still has 28 digits.
    rw [divHalfEven_eq]
    unfold val round28
    rw [hten]
    push_cast
    ring
  · -- The rounding carried into a new digit, which is dropped again.
    have hlimit : limit ≤ x.coeff.natAbs := not_lt.mp h
    have hne : x.coeff ≠ 0 := by
      intro h0
      rw [h0] at h
      simp at h
    rw [divHalfEven_eq, Int.natAbs_mul, Int.natAbs_sign_of_ne_zero hne, one_mul, Int.natAbs_natCast,
      not_lt] at hc
    rw [divHalfEven_eq, ← halfEven_carry hlimit hc]
    unfold val
    rw [show x.exp + (excess x.coeff.natAbs : ℤ) + 1 =
      x.exp + ((excess x.coeff.natAbs + 1 : ℕ) : ℤ) by push_cast; ring, hten]
    push_cast
    ring

/-- Rounding changes a value by at most one part in `10 ^ 27`. -/
theorem abs_val_fix_sub (x : Dec) : |x.fix.val - x.val| * 10 ^ 27 ≤ |x.val| := by
  have h := abs_round28_sub x.coeff.natAbs
  have hcoeff : (x.coeff : ℚ) = (x.coeff.sign * (x.coeff.natAbs : ℤ) : ℤ) := by
    rw [Int.sign_mul_natAbs]
  rw [val_fix]
  unfold val
  rw [← sub_mul, abs_mul, abs_mul, abs_of_pos (ten_zpow_pos _), mul_right_comm]
  refine mul_le_mul_of_nonneg_right ?_ (ten_zpow_pos _).le
  rw [hcoeff, ← Int.cast_sub, ← mul_sub, Int.cast_mul, abs_mul, Int.cast_mul, abs_mul, mul_assoc]
  refine mul_le_mul_of_nonneg_left ?_ (abs_nonneg _)
  have hcast : |((round28 x.coeff.natAbs : ℤ) - (x.coeff.natAbs : ℤ) : ℤ)| * 10 ^ 27 ≤
      |(x.coeff.natAbs : ℤ)| := by
    rwa [Nat.abs_cast]
  exact_mod_cast hcast

/-- Zero is not rounded. -/
theorem round28_zero : round28 0 = 0 := round28_of_lt (Nat.pow_pos (by omega))

/-- A monotone function on magnitudes gives a monotone one on signed numbers. -/
theorem signed_mono {f : ℕ → ℕ} (h0 : f 0 = 0) (hf : ∀ n n', n ≤ n' → f n ≤ f n') {c c' : ℤ}
    (h : c ≤ c') : c.sign * (f c.natAbs : ℤ) ≤ c'.sign * (f c'.natAbs : ℤ) := by
  have hpos : ∀ a : ℤ, 0 ≤ a → a.sign * (f a.natAbs : ℤ) = f a.natAbs := by
    intro a ha
    rcases ha.eq_or_lt with rfl | hlt
    · simp [h0]
    · rw [Int.sign_eq_one_of_pos hlt, one_mul]
  have hneg : ∀ a : ℤ, a ≤ 0 → a.sign * (f a.natAbs : ℤ) = -f a.natAbs := by
    intro a ha
    rcases ha.eq_or_lt with rfl | hlt
    · simp [h0]
    · rw [Int.sign_eq_neg_one_of_neg hlt, neg_one_mul]
  rcases le_total 0 c with hc | hc
  · rw [hpos c hc, hpos c' (hc.trans h)]
    exact_mod_cast hf _ _ (by omega)
  rcases le_total 0 c' with hc' | hc'
  · rw [hneg c hc, hpos c' hc']
    omega
  · rw [hneg c hc, hneg c' hc']
    have hle := hf c'.natAbs c.natAbs (by omega)
    omega

/-- Rounding keeps the order of numbers with one exponent. -/
theorem val_fix_mono {c c' : ℤ} (h : c ≤ c') (e : ℤ) :
    (fix ⟨c, e⟩).val ≤ (fix ⟨c', e⟩).val := by
  rw [val_fix, val_fix]
  refine mul_le_mul_of_nonneg_right (Int.cast_le.mpr ?_) (ten_zpow_pos _).le
  exact signed_mono round28_zero (fun _ _ => round28_mono) h

/-- A common power of ten is cancelled. -/
theorem halfEven_mul_pow (n j k : ℕ) : halfEven (n * 10 ^ k) (j + k) = halfEven n j := by
  have hk : 0 < 10 ^ k := Nat.pow_pos (by omega)
  unfold halfEven
  rw [pow_add, Nat.mul_div_mul_right _ _ hk, Nat.mul_mod_mul_right, ← mul_assoc]
  simp only [Nat.mul_lt_mul_right hk, Nat.mul_left_inj hk.ne']

/-- Zeros at the end of a coefficient do not change its rounding. -/
theorem round28_mul_pow (n k : ℕ) : round28 (n * 10 ^ k) = round28 n * 10 ^ k := by
  rcases lt_or_ge (n * 10 ^ k) limit with hlt | hge
  · have hn : n < limit := (Nat.le_mul_of_pos_right n (Nat.pow_pos (by omega))).trans_lt hlt
    rw [round28_of_lt hlt, round28_of_lt hn]
  obtain ⟨-, hlow, hhigh⟩ := excess_bounds hge
  rcases lt_or_ge n limit with hn | hn
  · -- only zeros are dropped
    have hle : excess (n * 10 ^ k) ≤ k := by
      have hlt : 10 ^ (excess (n * 10 ^ k) + 27) < 10 ^ (28 + k) := by
        rw [pow_add _ 28]
        exact hlow.trans_lt (Nat.mul_lt_mul_of_pos_right hn (Nat.pow_pos (by omega)))
      have hexp := (Nat.pow_lt_pow_iff_right (show 1 < 10 by omega)).mp hlt
      omega
    obtain ⟨j, hj⟩ := Nat.exists_eq_add_of_le' hle
    have hpow : n * 10 ^ k = n * 10 ^ j * 10 ^ excess (n * 10 ^ k) := by
      rw [mul_assoc, ← pow_add, ← hj]
    rw [round28_of_lt hn]
    calc round28 (n * 10 ^ k)
        = halfEven (n * 10 ^ j * 10 ^ excess (n * 10 ^ k)) (excess (n * 10 ^ k)) *
          10 ^ excess (n * 10 ^ k) := by rw [← hpow]; rfl
      _ = n * 10 ^ k := by rw [halfEven_mul, ← hpow]
  · -- Digits of `n` are dropped, and the new zeros with them.
    have hexcess : excess (n * 10 ^ k) = excess n + k := by
      obtain ⟨-, hlow', hhigh'⟩ := excess_bounds hn
      have h1 : 10 ^ (excess n + k + 27) ≤ n * 10 ^ k := by
        rw [show excess n + k + 27 = excess n + 27 + k by ring, pow_add]
        exact Nat.mul_le_mul_right _ hlow'
      have h2 : n * 10 ^ k < 10 ^ (excess n + k + 28) := by
        rw [show excess n + k + 28 = excess n + 28 + k by ring, pow_add]
        exact Nat.mul_lt_mul_of_pos_right hhigh' (Nat.pow_pos (by omega))
      have h3 := (Nat.pow_lt_pow_iff_right (show 1 < 10 by omega)).mp (h1.trans_lt hhigh)
      have h4 := (Nat.pow_lt_pow_iff_right (show 1 < 10 by omega)).mp (hlow.trans_lt h2)
      omega
    unfold round28
    rw [hexcess, halfEven_mul_pow, pow_add, mul_assoc]

/-- The value of a rounded number depends on the value alone. -/
theorem val_fix_scaled {x : Dec} {e : ℤ} (h : e ≤ x.exp) :
    (fix ⟨x.scaled e, e⟩).val = x.fix.val := by
  obtain ⟨k, hk⟩ := Int.eq_ofNat_of_zero_le (sub_nonneg.mpr h)
  have hpow : (10 : ℤ) ^ k = ((10 ^ k : ℕ) : ℤ) := by push_cast; rfl
  have hsign : (x.coeff * (10 : ℤ) ^ k).sign = x.coeff.sign := by
    rw [Int.sign_mul, Int.sign_eq_one_of_pos (pow_pos (by norm_num) k), mul_one]
  rw [val_fix, val_fix]
  unfold scaled
  rw [hk, Int.toNat_natCast]
  dsimp only
  rw [hsign, hpow, Int.natAbs_mul, Int.natAbs_natCast, round28_mul_pow,
    show x.exp = k + e by omega, zpow_add₀ (by norm_num), zpow_natCast]
  push_cast
  ring

/-- Rounding keeps the order. -/
theorem val_fix_le {x y : Dec} (h : x.val ≤ y.val) : x.fix.val ≤ y.fix.val := by
  have hx : Min.min x.exp y.exp ≤ x.exp := min_le_left _ _
  have hy : Min.min x.exp y.exp ≤ y.exp := min_le_right _ _
  rw [← val_fix_scaled hx, ← val_fix_scaled hy]
  rw [← val_scaled hx, ← val_scaled hy, mul_le_mul_iff_left₀ (ten_zpow_pos _)] at h
  exact val_fix_mono (Int.cast_le.mp h) _

/-- Numbers of one value are rounded by the context to one value. -/
theorem val_fix_congr {x y : Dec} (h : x.val = y.val) : x.fix.val = y.fix.val :=
  le_antisymm (val_fix_le h.le) (val_fix_le h.ge)

/-! ## Quotients -/

/-- Trailing zeros do not matter to the value. -/
theorem val_stripZeros : ∀ (fuel : ℕ) (c e ideal : ℤ),
    (stripZeros fuel c e ideal).val = c * (10 : ℚ) ^ e
  | 0, _, _, _ => rfl
  | fuel + 1, c, e, ideal => by
    unfold stripZeros
    split_ifs with h
    · have hc : c = c / 10 * 10 := by omega
      rw [val_stripZeros fuel, zpow_add₀ (by norm_num), zpow_one]
      conv_rhs => rw [hc]
      push_cast
      ring
    · rfl

/-- There is a quotient for every divisor but zero. -/
theorem exists_div (x : Dec) {y : Dec} (hy : y.coeff ≠ 0) : ∃ r, x.div y = some r := by
  unfold div
  rw [if_neg hy]
  split_ifs
  · exact ⟨_, rfl⟩
  · dsimp only
    split_ifs <;> exact ⟨_, rfl⟩

/-- The coefficient of a quotient with its sticky last digit. -/
theorem abs_sticky_sub {n m : ℕ} (hm : 0 < m) :
    |((if n / m % 5 = 0 then n / m + 1 else n / m : ℕ) : ℚ) - n / m| ≤ 1 := by
  have hdiv : (n : ℚ) = m * (n / m : ℕ) + (n % m : ℕ) := by exact_mod_cast (Nat.div_add_mod n m).symm
  have hm' : (0 : ℚ) < m := by exact_mod_cast hm
  have hmod : ((n % m : ℕ) : ℚ) ≤ m := by exact_mod_cast (Nat.mod_lt n hm).le
  have hpos : (0 : ℚ) ≤ (n % m : ℕ) := Nat.cast_nonneg _
  have hq : (n : ℚ) / m = (n / m : ℕ) + (n % m : ℕ) / m := by
    rw [hdiv]
    field_simp
  have h1 : ((n % m : ℕ) : ℚ) / m ≤ 1 := (div_le_one hm').mpr hmod
  have h0 : (0 : ℚ) ≤ (n % m : ℕ) / m := by positivity
  rw [hq, abs_le]
  split_ifs <;> push_cast <;> constructor <;> linarith

/-- The digits of a quotient of coefficients, scaled to one digit more than the context holds. -/
theorem limit_mul_le {a b : ℕ} (ha : 0 < a) (hb : 0 < b) (s : ℤ)
    (hs : s = (digits b b : ℤ) - digits a a + 28 + 1) :
    limit * (b * 10 ^ (-s).toNat) ≤ a * 10 ^ s.toNat := by
  obtain ⟨ha1, halow, -⟩ := digits_bounds a a ha le_rfl
  obtain ⟨hb1, -, hbhigh⟩ := digits_bounds b b hb le_rfl
  have hexp : 28 + (digits b b + (-s).toNat) = digits a a - 1 + s.toNat := by omega
  calc limit * (b * 10 ^ (-s).toNat) ≤ limit * (10 ^ digits b b * 10 ^ (-s).toNat) :=
        Nat.mul_le_mul_left _ (Nat.mul_le_mul_right _ hbhigh.le)
    _ = 10 ^ (digits a a - 1) * 10 ^ s.toNat := by rw [← pow_add, ← pow_add, ← pow_add, hexp]
    _ ≤ a * 10 ^ s.toNat := Nat.mul_le_mul_right _ halow

/-- The quotient of two positive numbers is the rounding of a number near the exact one, which is a
fraction of integers with more digits than the context holds. The number is the exact one when the
fraction is whole. -/
theorem exists_quotient {x y r : Dec} (h : x.div y = some r) (hx : 0 < x.coeff)
    (hy : 0 < y.coeff) : ∃ (n m : ℕ) (e : ℤ) (z : Dec), 0 < m ∧ limit * m ≤ n ∧
      x.val / y.val = n / m * (10 : ℚ) ^ e ∧ r = z.fix ∧ (m ∣ n → z.val = x.val / y.val) ∧
      |z.val - x.val / y.val| * 10 ^ 28 ≤ x.val / y.val := by
  obtain ⟨a, ha⟩ := Int.eq_ofNat_of_zero_le hx.le
  obtain ⟨b, hb⟩ := Int.eq_ofNat_of_zero_le hy.le
  have hapos : 0 < a := by omega
  have hbpos : 0 < b := by omega
  unfold div at h
  rw [if_neg hy.ne', if_neg hx.ne'] at h
  rw [Int.sign_eq_one_of_pos hx, Int.sign_eq_one_of_pos hy] at h
  simp only [one_mul, ha, hb, Int.natAbs_natCast] at h
  set s : ℤ := (digits b b : ℤ) - digits a a + 28 + 1 with hs
  set n := a * 10 ^ s.toNat with hn
  set m := b * 10 ^ (-s).toNat with hm
  set e := x.exp - y.exp - s with he
  have hmpos : 0 < m := Nat.mul_pos hbpos (Nat.pow_pos (by omega))
  -- The scale gives the quotient more than 28 digits.
  have hlarge : limit * m ≤ n := limit_mul_le hapos hbpos s hs
  have hm' : (0 : ℚ) < m := by exact_mod_cast hmpos
  -- The scaled integers have the ratio of the operands, up to a power of ten.
  have hquot : x.val / y.val = n / m * (10 : ℚ) ^ e := by
    have hpow : (10 : ℚ) ^ s.toNat = 10 ^ s * 10 ^ (-s).toNat := by
      rw [← zpow_natCast, ← zpow_natCast, ← zpow_add₀ (by norm_num)]
      congr 1
      omega
    have hb' : (b : ℚ) ≠ 0 := by exact_mod_cast hbpos.ne'
    unfold val
    rw [ha, hb, hn, hm, he, zpow_sub₀ (by norm_num), zpow_sub₀ (by norm_num)]
    push_cast
    rw [hpow]
    have h1 := (ten_zpow_pos s).ne'
    have h2 := (ten_zpow_pos y.exp).ne'
    have h3 : (10 : ℚ) ^ (-s).toNat ≠ 0 := by positivity
    field_simp
  have hratio : (10 : ℚ) ^ 28 ≤ n / m := by
    rw [le_div_iff₀ hm']
    exact_mod_cast hlarge
  by_cases hsticky : n % m ≠ 0
  · -- the last digit is made sticky
    rw [if_pos hsticky] at h
    refine ⟨n, m, e, _, hmpos, hlarge, hquot, (Option.some.inj h).symm,
      fun hdvd => absurd (Nat.mod_eq_zero_of_dvd hdvd) hsticky, ?_⟩
    have hdiff := abs_sticky_sub (n := n) hmpos
    rw [hquot]
    unfold val
    rw [← sub_mul, abs_mul, abs_of_pos (ten_zpow_pos e), mul_right_comm]
    refine mul_le_mul_of_nonneg_right ?_ (ten_zpow_pos e).le
    rw [Int.cast_natCast]
    linarith
  · -- the fraction is whole
    rw [if_neg hsticky] at h
    have hwhole : ((n / m : ℕ) : ℚ) = n / m :=
      Nat.cast_div (Nat.dvd_of_mod_eq_zero (not_not.mp hsticky)) hm'.ne'
    have hexact : (stripZeros 60 (n / m : ℕ) e (x.exp - y.exp)).val = x.val / y.val := by
      rw [val_stripZeros, Int.cast_natCast, hwhole, hquot]
    refine ⟨n, m, e, _, hmpos, hlarge, hquot, (Option.some.inj h).symm, fun _ => hexact, ?_⟩
    rw [hexact, sub_self, abs_zero, zero_mul, hquot]
    exact mul_nonneg (by positivity) (ten_zpow_pos e).le

/-- The quotient of two positive numbers, up to one part in `10 ^ 26`. -/
theorem abs_val_div_sub {x y r : Dec} (h : x.div y = some r) (hx : 0 < x.coeff)
    (hy : 0 < y.coeff) : |r.val - x.val / y.val| * 10 ^ 26 ≤ x.val / y.val := by
  obtain ⟨n, m, e, z, -, -, hquot, rfl, -, hz⟩ := exists_quotient h hx hy
  have hpos : 0 ≤ x.val / y.val := by
    rw [hquot]
    exact mul_nonneg (by positivity) (ten_zpow_pos e).le
  have hfix := abs_val_fix_sub z
  have htri := abs_sub_le z.fix.val z.val (x.val / y.val)
  have hzabs : |z.val| ≤ |z.val - x.val / y.val| + x.val / y.val := by
    have := abs_sub_abs_le_abs_sub z.val (x.val / y.val)
    rw [abs_of_nonneg hpos] at this
    linarith
  linarith

/-- A quotient of at most 28 digits is exact. -/
theorem val_div_eq {x y r : Dec} (h : x.div y = some r) (hx : 0 < x.coeff) (hy : 0 < y.coeff)
    {q : Dec} (hq : x.val / y.val = q.val) (hdigits : q.coeff.natAbs < limit) :
    r.val = q.val := by
  obtain ⟨n, m, e, z, hm, hlarge, hquot, rfl, hz, -⟩ := exists_quotient h hx hy
  have hm' : (0 : ℚ) < m := by exact_mod_cast hm
  have hratio : (10 : ℚ) ^ 28 ≤ n / m := by
    rw [le_div_iff₀ hm']
    exact_mod_cast hlarge
  have hsmall : (q.coeff : ℚ) < 10 ^ 28 := by
    have hlt : q.coeff < (limit : ℤ) := by omega
    exact_mod_cast hlt
  -- the fraction has more digits than the coefficient, so it is a multiple of it
  have hfraction : (n / m : ℚ) = q.coeff * 10 ^ (q.exp - e) := by
    rw [hquot] at hq
    rw [eq_comm, zpow_sub₀ (by norm_num), ← mul_div_assoc, div_eq_iff (ten_zpow_pos e).ne']
    exact hq.symm
  have hexp : 0 ≤ q.exp - e := by
    by_contra hneg
    have hcoeff : (0 : ℚ) < q.coeff := by
      have hpos : (0 : ℚ) < q.coeff * 10 ^ (q.exp - e) := by
        rw [← hfraction]
        linarith
      exact (mul_pos_iff_of_pos_right (ten_zpow_pos _)).mp hpos
    have hle : (10 : ℚ) ^ (q.exp - e) ≤ 1 := zpow_le_one_of_nonpos₀ (by norm_num) (by omega)
    have hmul := mul_le_mul_of_nonneg_left hle hcoeff.le
    linarith
  obtain ⟨k, hk⟩ := Int.eq_ofNat_of_zero_le hexp
  have hdvd : (m : ℤ) ∣ n := by
    refine ⟨q.coeff * 10 ^ k, ?_⟩
    rw [hk, zpow_natCast, div_eq_iff hm'.ne'] at hfraction
    have hcast : ((n : ℤ) : ℚ) = ((m * (q.coeff * 10 ^ k) : ℤ) : ℚ) := by
      push_cast
      rw [hfraction]
      ring
    exact_mod_cast hcast
  have hval := val_fix_congr ((hz (Int.natCast_dvd_natCast.mp hdvd)).trans hq)
  rwa [fix_of_lt hdigits] at hval

end Dec

/-! ## Money -/

/-- The division that rounds half up is the rounding of the quotient. -/
theorem divHalfUp_eq (n : ℤ) (k : ℕ) : Dec.divHalfUp n k = halfUp (n / 10 ^ k) := by
  -- for a natural number, the rounded quotient is a floor
  have hnat : ∀ m : ℕ, halfUp ((m : ℤ) / 10 ^ k) = ((2 * m + 10 ^ k) / (2 * 10 ^ k) : ℕ) := by
    intro m
    have hfloor : ((m : ℤ) : ℚ) / 10 ^ k + 1 / 2 =
        ((2 * m + 10 ^ k : ℕ) : ℤ) / ((2 * 10 ^ k : ℕ) : ℚ) := by
      push_cast
      field_simp
    rw [halfUp_of_nonneg (by positivity), round_eq, hfloor, Rat.floor_intCast_div_natCast]
    norm_cast
  unfold Dec.divHalfUp
  rcases le_total 0 n with hn | hn
  · obtain ⟨m, rfl⟩ := Int.eq_ofNat_of_zero_le hn
    rw [hnat, Int.natAbs_natCast]
    rcases Nat.eq_zero_or_pos m with rfl | hm
    · have hzero : (2 * 0 + 10 ^ k) / (2 * 10 ^ k) = 0 :=
        Nat.div_eq_of_lt (by have := Nat.pow_pos (n := k) (show 0 < 10 by omega); omega)
      rw [hzero]
      simp
    · rw [Int.sign_eq_one_of_pos (by omega), one_mul]
  · obtain ⟨m, hm⟩ := Int.eq_ofNat_of_zero_le (neg_nonneg.mpr hn)
    obtain rfl : n = -(m : ℤ) := by omega
    rw [Int.natAbs_neg, Int.natAbs_natCast, Int.cast_neg, neg_div, halfUp_neg, hnat]
    rcases Nat.eq_zero_or_pos m with rfl | hm
    · have hzero : (2 * 0 + 10 ^ k) / (2 * 10 ^ k) = 0 :=
        Nat.div_eq_of_lt (by have := Nat.pow_pos (n := k) (show 0 < 10 by omega); omega)
      rw [hzero]
      simp
    · rw [Int.sign_eq_neg_one_of_neg (by omega), neg_one_mul]

/-- The coefficient of a number rescaled to some decimals. -/
theorem rescaled_eq (x : Dec) (places : ℕ) :
    (if -(places : ℤ) ≤ x.exp then x.scaled (-places)
      else Dec.divHalfUp x.coeff (-places - x.exp).toNat) = halfUp (x.val * 10 ^ places) := by
  split_ifs with h
  · have hval := Dec.val_scaled h
    rw [zpow_neg, zpow_natCast] at hval
    rw [← hval, inv_mul_cancel_right₀ (by positivity), halfUp_intCast]
  · rw [divHalfUp_eq]
    congr 1
    unfold Dec.val
    rw [div_eq_mul_inv, mul_assoc, ← zpow_natCast, ← zpow_natCast, ← zpow_neg,
      ← zpow_add₀ (by norm_num : (10 : ℚ) ≠ 0), Int.toNat_of_nonneg (by omega)]
    congr 2
    ring

/-- The coefficient of a number rescaled to two decimals. -/
theorem rescale_eq (x : Dec) :
    (if -2 ≤ x.exp then x.scaled (-2) else Dec.divHalfUp x.coeff (-2 - x.exp).toNat) =
      halfUp (100 * x.val) := by
  have h := rescaled_eq x 2
  rw [mul_comm, show (10 : ℚ) ^ 2 = 100 by norm_num] at h
  exact h

/-- `quantize_money` rounds the hundredfold of a value, and raises when it needs more than 28
digits. -/
theorem quantizeMoney_eq (x : Dec) : quantizeMoney (.finite x) =
    if (halfUp (100 * x.val)).natAbs < Dec.limit then .ok (halfUp (100 * x.val))
    else .error .invalidOperation := by
  have h := rescale_eq x
  simp only [quantizeMoney, Dec.quantize]
  rw [h]
  split_ifs <;> rfl

/-- A number is written to its column rounded half up. -/
theorem toMoneyColumn_eq (x : Dec) : toMoneyColumn x = halfUp (100 * x.val) := rescale_eq x

end Giftly
