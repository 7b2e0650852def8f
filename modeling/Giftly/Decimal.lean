import Mathlib.Algebra.Order.Ring.Int
import Mathlib.Tactic.Ring
import Mathlib.Tactic.SplitIfs

/-!
# Decimal arithmetic in a context of 28 digits

The finite numbers of Python's `decimal` module under its default context. A number is an integer
coefficient and a power of ten. A sum, difference, product, quotient or negation is the exact
result rounded half-even to 28 significant digits (`fix`), and `quantize` rescales a number to a
given exponent, rounding half away from zero, and fails when the result needs more than 28 digits.
The exponent limits of the context are not modelled, nor is the sign of a zero, which no comparison
sees.

Numbers with two decimals are the ones that money uses. `add_cents` and its companions say that
arithmetic on them is integer arithmetic on their coefficients while 28 digits suffice.
-/

namespace Giftly

/-- A finite decimal number, `coeff * 10 ^ exp`. -/
structure Dec where
  /-- The signed coefficient. -/
  coeff : ℤ
  /-- The exponent. -/
  exp : ℤ
  deriving DecidableEq, Repr

/-- A value of Python's `Decimal`: a finite number, an infinity, or not a number. -/
inductive Decimal
  | finite (x : Dec)
  | infinite (negative : Bool)
  | nan
  deriving DecidableEq, Repr

namespace Dec

/-- The coefficients of the default context are below `10 ^ 28` in magnitude. -/
abbrev limit : ℕ := 10 ^ 28

/-- The number of decimal digits of a coefficient, at most `fuel`. -/
def digits : ℕ → ℕ → ℕ
  | 0, _ => 0
  | fuel + 1, n => if n < 10 then 1 else digits fuel (n / 10) + 1

/-- Division of an integer by a power of ten, rounded to nearest, ties away from zero. -/
def divHalfUp (n : ℤ) (k : ℕ) : ℤ := n.sign * ((2 * n.natAbs + 10 ^ k) / (2 * 10 ^ k) : ℕ)

/-- Division of an integer by a power of ten, rounded to nearest, ties to even. -/
def divHalfEven (n : ℤ) (k : ℕ) : ℤ :=
  let q := n.natAbs / 10 ^ k
  let r := 2 * (n.natAbs % 10 ^ k)
  n.sign * (if 10 ^ k < r ∨ (r = 10 ^ k ∧ q % 2 = 1) then q + 1 else q : ℕ)

/-- Round to the digits of the context, half-even. -/
def fix (x : Dec) : Dec :=
  if x.coeff.natAbs < limit then x
  else
    let k := digits x.coeff.natAbs x.coeff.natAbs - 28
    let c := divHalfEven x.coeff k
    if c.natAbs < limit then ⟨c, x.exp + k⟩ else ⟨divHalfEven x.coeff (k + 1), x.exp + k + 1⟩

/-- The coefficient of a number at an exponent not above its own. -/
def scaled (x : Dec) (e : ℤ) : ℤ := x.coeff * 10 ^ (x.exp - e).toNat

/-- Sum. -/
def add (x y : Dec) : Dec :=
  let e := min x.exp y.exp
  fix ⟨x.scaled e + y.scaled e, e⟩

/-- Difference. -/
def sub (x y : Dec) : Dec :=
  let e := min x.exp y.exp
  fix ⟨x.scaled e - y.scaled e, e⟩

/-- Negation. -/
def neg (x : Dec) : Dec := fix ⟨-x.coeff, x.exp⟩

/-- Product. -/
def mul (x y : Dec) : Dec := fix ⟨x.coeff * y.coeff, x.exp + y.exp⟩

/-- Remove trailing zeros of the coefficient while the exponent stays at most `ideal`. -/
def stripZeros : ℕ → ℤ → ℤ → ℤ → Dec
  | 0, c, e, _ => ⟨c, e⟩
  | fuel + 1, c, e, ideal =>
    if e < ideal ∧ c % 10 = 0 then stripZeros fuel (c / 10) (e + 1) ideal else ⟨c, e⟩

/-- Quotient, rounded to the digits of the context; `none` for a zero divisor. The coefficient is
computed to one digit more than the context holds and its last digit is made sticky. -/
def div (x y : Dec) : Option Dec :=
  if y.coeff = 0 then none
  else if x.coeff = 0 then some ⟨0, x.exp - y.exp⟩
  else
    let dx := digits x.coeff.natAbs x.coeff.natAbs
    let dy := digits y.coeff.natAbs y.coeff.natAbs
    let shift : ℤ := dy - dx + 28 + 1
    let n := x.coeff.natAbs * 10 ^ shift.toNat
    let m := y.coeff.natAbs * 10 ^ (-shift).toNat
    let e := x.exp - y.exp - shift
    let sign := x.coeff.sign * y.coeff.sign
    if n % m ≠ 0 then
      let q := if n / m % 5 = 0 then n / m + 1 else n / m
      some (fix ⟨sign * q, e⟩)
    else some (fix (stripZeros 60 (sign * (n / m : ℕ)) e (x.exp - y.exp)))

/-- Whether one number is below another. -/
def lt (x y : Dec) : Bool :=
  let e := min x.exp y.exp
  x.scaled e < y.scaled e

/-- Whether one number is at most another. -/
def le (x y : Dec) : Bool := !y.lt x

/-- Whether two numbers are equal in value. -/
def eq (x y : Dec) : Bool := x.le y && y.le x

/-- The smaller number, the first of two equal ones. -/
def min (x y : Dec) : Dec := if y.lt x then y else x

/-- The larger number, the first of two equal ones. -/
def max (x y : Dec) : Dec := if x.lt y then y else x

/-- Rescale to an exponent, half away from zero; `none` when the result has more than 28 digits. -/
def quantize (x : Dec) (e : ℤ) : Option Dec :=
  let c := if e ≤ x.exp then x.scaled e else divHalfUp x.coeff (e - x.exp).toNat
  if c.natAbs < limit then some ⟨c, e⟩ else none

/-- `str(x)`: plain digits when the exponent is at most zero and not too small, else scientific. -/
def str (x : Dec) : String :=
  let sign := if x.coeff < 0 then "-" else ""
  let ds := toString x.coeff.natAbs
  let left : ℤ := x.exp + ds.length
  if x.exp ≤ 0 ∧ -6 < left then
    if x.exp = 0 then sign ++ ds
    else if 0 < left then
      sign ++ String.ofList (ds.toList.take left.toNat) ++ "." ++
        String.ofList (ds.toList.drop left.toNat)
    else sign ++ "0." ++ String.ofList (List.replicate (-left).toNat '0') ++ ds
  else
    let point := if ds.length = 1 then ds
      else String.ofList (ds.toList.take 1) ++ "." ++ String.ofList (ds.toList.drop 1)
    sign ++ point ++ "E" ++ (if 0 < left then "+" else "") ++ toString (left - 1)

/-- A number with two decimals, from its hundredths. -/
def cents (n : ℤ) : Dec := ⟨n, -2⟩

/-- A coefficient that fits the context is not rounded. -/
theorem fix_of_lt {x : Dec} (h : x.coeff.natAbs < limit) : x.fix = x := by
  rw [fix, if_pos h]

/-- The hundredths of an amount. -/
theorem scaled_cents (n : ℤ) : (cents n).scaled (-2) = n := by
  simp [scaled, cents]

/-- The sum of two numbers with two decimals. -/
theorem add_cents (a b : ℤ) : (cents a).add (cents b) = (cents (a + b)).fix := by
  simp only [add]
  rw [show Min.min (cents a).exp (cents b).exp = -2 from rfl, scaled_cents, scaled_cents]
  rfl

/-- The difference of two numbers with two decimals. -/
theorem sub_cents (a b : ℤ) : (cents a).sub (cents b) = (cents (a - b)).fix := by
  simp only [sub]
  rw [show Min.min (cents a).exp (cents b).exp = -2 from rfl, scaled_cents, scaled_cents]
  rfl

/-- The negation of a number with two decimals. -/
theorem neg_cents (a : ℤ) : (cents a).neg = (cents (-a)).fix := rfl

/-- Comparison of numbers with two decimals. -/
@[simp]
theorem lt_cents (a b : ℤ) : (cents a).lt (cents b) = decide (a < b) := by
  simp [lt, cents, scaled]

/-- Rescaling a number with two decimals to two decimals changes nothing. -/
theorem quantize_cents (a : ℤ) :
    (cents a).quantize (-2) = if a.natAbs < limit then some (cents a) else none := by
  simp [quantize, cents, scaled]

/-- A positive coefficient has at least one digit, and lies between two powers of ten. -/
theorem digits_bounds : ∀ (fuel n : ℕ), 0 < n → n ≤ fuel →
    1 ≤ digits fuel n ∧ 10 ^ (digits fuel n - 1) ≤ n ∧ n < 10 ^ digits fuel n
  | 0, n, h0, hn => by omega
  | fuel + 1, n, h0, hn => by
    rw [digits]
    split_ifs with h
    · exact ⟨le_refl 1, h0, by simpa using h⟩
    · obtain ⟨h1, hlow, hhigh⟩ := digits_bounds fuel (n / 10) (by omega) (by omega)
      obtain ⟨k, hk⟩ : ∃ k, digits fuel (n / 10) = k + 1 := ⟨digits fuel (n / 10) - 1, by omega⟩
      rw [hk] at hlow hhigh ⊢
      rw [pow_succ] at hhigh
      refine ⟨by omega, ?_, ?_⟩
      · rw [show k + 1 + 1 - 1 = k + 1 by omega, pow_succ]
        rw [show k + 1 - 1 = k by omega] at hlow
        omega
      · rw [pow_succ, pow_succ]
        omega

/-- Rounding half-even keeps at least the truncated quotient. -/
theorem le_natAbs_divHalfEven (n : ℤ) (k : ℕ) (hn : n ≠ 0) :
    n.natAbs / 10 ^ k ≤ (divHalfEven n k).natAbs := by
  unfold divHalfEven
  rw [Int.natAbs_mul, Int.natAbs_sign_of_ne_zero hn, one_mul, Int.natAbs_natCast]
  split_ifs <;> omega

/-- A number that is too long is rounded to a coefficient that keeps its magnitude. -/
theorem fix_of_le {n : ℤ} (h : limit ≤ n.natAbs) :
    ∃ j : ℕ, (cents n).fix = ⟨divHalfEven n j, -2 + j⟩ ∧
      limit ≤ (divHalfEven n j).natAbs * 10 ^ j := by
  have hn : n ≠ 0 := by
    rintro rfl
    simp at h
  obtain ⟨-, hlow, hhigh⟩ := digits_bounds n.natAbs n.natAbs (by omega) le_rfl
  set D := digits n.natAbs n.natAbs with hD
  -- The number has more digits than the context keeps.
  have hlen : 28 < D := by
    by_contra hlen
    have hpow := Nat.pow_le_pow_right (show 0 < 10 by omega) (show D ≤ 28 by omega)
    exact absurd (h.trans_lt hhigh) (not_lt.mpr hpow)
  -- Dropping no more digits than that leaves at least the limit.
  have hbig : ∀ j, j ≤ D - 27 → limit ≤ (divHalfEven n j).natAbs * 10 ^ j := by
    intro j hj
    have hq : 10 ^ (D - 1 - j) ≤ n.natAbs / 10 ^ j := by
      rw [Nat.le_div_iff_mul_le (Nat.pow_pos (by omega)), ← pow_add,
        show D - 1 - j + j = D - 1 by omega]
      exact hlow
    calc limit ≤ 10 ^ (D - 1) := Nat.pow_le_pow_right (by omega) (by omega)
      _ = 10 ^ (D - 1 - j) * 10 ^ j := by rw [← pow_add, show D - 1 - j + j = D - 1 by omega]
      _ ≤ _ := Nat.mul_le_mul (hq.trans (le_natAbs_divHalfEven n j hn)) (le_refl _)
  unfold fix
  rw [if_neg (show ¬(cents n).coeff.natAbs < limit from not_lt.mpr h)]
  simp only [cents, ← hD]
  split_ifs
  · exact ⟨D - 28, rfl, hbig _ (by omega)⟩
  · refine ⟨D - 28 + 1, ?_, hbig _ (by omega)⟩
    rw [Nat.cast_add, Nat.cast_one, add_assoc]

/-- Rescaling a rounded number with two decimals gives it back, or fails because it is too long. -/
theorem quantize_fix (n : ℤ) :
    (cents n).fix.quantize (-2) = if n.natAbs < limit then some (cents n) else none := by
  split_ifs with h
  · rw [fix_of_lt h, quantize_cents, if_pos h]
  · obtain ⟨j, hfix, hbig⟩ := fix_of_le (not_lt.mp h)
    have habs : ((⟨divHalfEven n j, -2 + j⟩ : Dec).scaled (-2)).natAbs =
        (divHalfEven n j).natAbs * 10 ^ j := by
      simp [scaled, Int.natAbs_mul, Int.natAbs_pow]
    rw [hfix, quantize, if_pos (show (-2 : ℤ) ≤ -2 + j by omega)]
    exact if_neg (not_lt.mpr (habs ▸ hbig))

/-- Rounding does not change the sign. -/
theorem zero_lt_fix (n : ℤ) : (cents 0).lt (cents n).fix = decide (0 < n) := by
  by_cases h : n.natAbs < limit
  · rw [fix_of_lt h, lt_cents]
  · obtain ⟨j, hfix, hbig⟩ := fix_of_le (not_lt.mp h)
    have hexp : ((-2 : ℤ) + j - -2).toNat = j := by omega
    have hmin : Min.min (-2 : ℤ) (-2 + j) = -2 := by omega
    have hpow : (0 : ℤ) < 10 ^ j := pow_pos (by omega) j
    rw [hfix]
    simp only [lt, cents, hmin, scaled, hexp, zero_mul, decide_eq_decide]
    rw [mul_pos_iff_of_pos_right hpow]
    -- The rounded coefficient is the sign of `n` times a positive number.
    have hne : divHalfEven n j ≠ 0 := by
      intro h0
      rw [h0] at hbig
      simp at hbig
    unfold divHalfEven at hne ⊢
    have hpos := pos_of_ne_zero (Nat.cast_ne_zero.mp (right_ne_zero_of_mul hne))
    rw [mul_pos_iff_of_pos_right (by exact_mod_cast hpos)]
    exact Int.sign_pos_iff

/-- A rescaled number has at most 28 digits. -/
theorem natAbs_lt_of_quantize {x y : Dec} {e : ℤ} (h : x.quantize e = some y) :
    y.coeff.natAbs < limit := by
  unfold quantize at h
  generalize (if e ≤ x.exp then x.scaled e else divHalfUp x.coeff (e - x.exp).toNat) = c at h
  simp only [Option.ite_none_right_eq_some, Option.some.injEq] at h
  obtain ⟨hlt, rfl⟩ := h
  exact hlt

end Dec

/-- Negation of a value. -/
def Decimal.neg : Decimal → Decimal
  | .finite x => .finite x.neg
  | .infinite negative => .infinite !negative
  | .nan => .nan

end Giftly
