import Giftly.Core.Pricing
import Giftly.Rounding
import Giftly.Store.Outcome

/-!
# Amounts in whole halalas

`x.amount` is a number rounded to halalas, as `quantize_money` rounds it, and `x.Halalas n` says
that a number is the amount `n`, whatever its exponent. Sums, differences and comparisons of such
numbers are those of the integers while 28 digits suffice, and a rate of an amount is the rounded
integer `timesRate`. The steps of the engine are stated in these terms.
-/

namespace Giftly

open Store (Outcome)

namespace Dec

/-- A number rounded to halalas. -/
def amount (x : Dec) : ℤ := halfUp (100 * x.val)

/-- A number is a whole number of halalas. -/
def Halalas (x : Dec) (n : ℤ) : Prop := x.val = n / 100

/-- An amount is a whole number of halalas. -/
theorem halalas_cents (n : ℤ) : (cents n).Halalas n := val_cents n

/-- An amount rounded to the digits of the context. -/
def inContext (n : ℤ) : ℤ := n.sign * (round28 n.natAbs : ℤ)

/-- An amount of at most 28 digits is not rounded by the context. -/
theorem inContext_of_lt {n : ℤ} (h : n.natAbs < limit) : inContext n = n := by
  unfold inContext
  rw [round28_of_lt h, Int.sign_mul_natAbs]

/-- The rounding of the context keeps the order. -/
theorem inContext_mono {n n' : ℤ} (h : n ≤ n') : inContext n ≤ inContext n' :=
  signed_mono round28_zero (fun _ _ => round28_mono) h

/-- What needs more digits than the context holds still does after rounding. -/
theorem limit_le_inContext {n : ℤ} (h : (limit : ℤ) ≤ n) : (limit : ℤ) ≤ inContext n := by
  have hmono := inContext_mono h
  have hround : round28 limit = limit := by
    have hone := round28_mul_pow 1 28
    rwa [one_mul, round28_of_lt (show 1 < limit by norm_num), one_mul] at hone
  have hlimit : inContext (limit : ℤ) = limit := by
    unfold inContext
    rw [Int.natAbs_natCast, hround, Int.sign_eq_one_of_pos (by norm_num), one_mul]
  omega

/-- An amount rounded by the context, as a number. -/
theorem val_fix_cents_inContext (n : ℤ) : (cents n).fix.val = inContext n / 100 := by
  rw [val_fix]
  unfold inContext cents
  norm_num
  ring

/-- An amount of at most 28 digits stays as it is. -/
theorem val_fix_cents {n : ℤ} (h : n.natAbs < limit) : (cents n).fix.val = n / 100 := by
  rw [val_fix_cents_inContext, inContext_of_lt h]

namespace Halalas

variable {x y : Dec} {a b : ℤ}

/-- A number is at most one whole number of halalas. -/
theorem unique (hx : x.Halalas a) (hx' : x.Halalas b) : a = b := by
  have h : (a : ℚ) / 100 = b / 100 := hx.symm.trans hx'
  exact_mod_cast (div_left_inj' (by norm_num)).mp h

/-- A whole number of halalas is its own amount. -/
theorem amount_eq (hx : x.Halalas a) : x.amount = a := by
  unfold amount
  rw [show x.val = a / 100 from hx, show (100 : ℚ) * (a / 100) = a by ring, halfUp_intCast]

/-- A rounded amount is a whole number of halalas, however large it is. -/
theorem fix_inContext (hx : x.Halalas a) : x.fix.Halalas (inContext a) := by
  have h : x.fix.val = (cents a).fix.val := val_fix_congr (hx.trans (val_cents a).symm)
  exact h.trans (val_fix_cents_inContext a)

/-- The sum of two amounts is rounded by the context. -/
theorem add_inContext (hx : x.Halalas a) (hy : y.Halalas b) :
    (x.add y).Halalas (inContext (a + b)) := by
  obtain ⟨z, hz, hval⟩ := exists_add x y
  have hz' : z.Halalas (a + b) := by
    unfold Halalas at *
    rw [hval, hx, hy]
    push_cast
    ring
  rw [hz]
  exact hz'.fix_inContext

/-- The difference of two amounts is rounded by the context. -/
theorem sub_inContext (hx : x.Halalas a) (hy : y.Halalas b) :
    (x.sub y).Halalas (inContext (a - b)) := by
  obtain ⟨z, hz, hval⟩ := exists_sub x y
  have hz' : z.Halalas (a - b) := by
    unfold Halalas at *
    rw [hval, hx, hy]
    push_cast
    ring
  rw [hz]
  exact hz'.fix_inContext

/-- An amount of at most 28 digits is not rounded. -/
theorem fix (hx : x.Halalas a) (ha : a.natAbs < limit) : x.fix.Halalas a := by
  have h := hx.fix_inContext
  rwa [inContext_of_lt ha] at h

/-- The sum of two amounts is exact while it has at most 28 digits. -/
theorem add (hx : x.Halalas a) (hy : y.Halalas b) (h : (a + b).natAbs < limit) :
    (x.add y).Halalas (a + b) := by
  have hadd := hx.add_inContext hy
  rwa [inContext_of_lt h] at hadd

/-- The difference of two amounts is exact while it has at most 28 digits. -/
theorem sub (hx : x.Halalas a) (hy : y.Halalas b) (h : (a - b).natAbs < limit) :
    (x.sub y).Halalas (a - b) := by
  have hsub := hx.sub_inContext hy
  rwa [inContext_of_lt h] at hsub

/-- Amounts are compared as whole numbers. -/
theorem lt_eq (hx : x.Halalas a) (hy : y.Halalas b) : x.lt y = decide (a < b) := by
  rw [Dec.lt_eq, decide_eq_decide, show x.val = a / 100 from hx, show y.val = b / 100 from hy,
    div_lt_div_iff_of_pos_right (by norm_num), Int.cast_lt]

/-- Amounts are compared as whole numbers. -/
theorem le_eq (hx : x.Halalas a) (hy : y.Halalas b) : x.le y = decide (a ≤ b) := by
  unfold le
  rw [hy.lt_eq hx, ← decide_not, decide_eq_decide, not_lt]

/-- Amounts are equal as whole numbers. -/
theorem eq_eq (hx : x.Halalas a) (hy : y.Halalas b) : x.eq y = decide (a = b) := by
  unfold Dec.eq
  rw [hx.le_eq hy, hy.le_eq hx, ← Bool.decide_and, decide_eq_decide]
  exact antisymm_iff

/-- The smaller of two amounts. -/
theorem min (hx : x.Halalas a) (hy : y.Halalas b) : (x.min y).Halalas (Min.min a b) := by
  unfold Dec.min
  rw [hy.lt_eq hx]
  by_cases h : b < a
  · rw [if_pos (decide_eq_true h), min_eq_right h.le]
    exact hy
  · rw [if_neg (by simpa using h), min_eq_left (not_lt.mp h)]
    exact hx

/-- The larger of two amounts. -/
theorem max (hx : x.Halalas a) (hy : y.Halalas b) : (x.max y).Halalas (Max.max a b) := by
  unfold Dec.max
  rw [hx.lt_eq hy]
  by_cases h : a < b
  · rw [if_pos (decide_eq_true h), max_eq_right h.le]
    exact hy
  · rw [if_neg (by simpa using h), max_eq_left (not_lt.mp h)]
    exact hx

/-- The halalas of an amount. -/
@[simp]
theorem amount_cents (n : ℤ) : (cents n).amount = n := (halalas_cents n).amount_eq

/-- An amount is written to its column as it is. -/
theorem toMoneyColumn_eq (hx : x.Halalas a) : toMoneyColumn x = a :=
  (Giftly.toMoneyColumn_eq x).trans hx.amount_eq

end Halalas

/-- A sum of amounts is whole, however large it is. -/
theorem exists_halalas_foldl : ∀ {xs : List Dec} {acc : Dec}, (∀ x ∈ xs, ∃ n, x.Halalas n) →
    (∃ a, acc.Halalas a) → ∃ n, (xs.foldl Dec.add acc).Halalas n
  | [], _, _, hacc => hacc
  | x :: xs, acc, hxs, ⟨a, ha⟩ => by
    obtain ⟨n, hn⟩ := hxs x List.mem_cons_self
    show ∃ n, (xs.foldl Dec.add (acc.add x)).Halalas n
    exact exists_halalas_foldl (fun y hy => hxs y (List.mem_cons_of_mem x hy))
      ⟨_, ha.add_inContext hn⟩

/-- A sum of amounts whose magnitudes together have at most 28 digits. -/
theorem halalas_foldl {xs : List Dec} {ns : List ℤ} (h : List.Forall₂ Halalas xs ns) :
    ∀ {acc : Dec} {a : ℤ}, acc.Halalas a → a.natAbs + (ns.map Int.natAbs).sum < limit →
      (xs.foldl Dec.add acc).Halalas (a + ns.sum) := by
  induction h with
  | nil => exact fun hacc _ => by simpa using hacc
  | @cons x n xs ns hx _ ih =>
    intro acc a hacc hsum
    simp only [List.map_cons, List.sum_cons] at hsum
    have habs := Int.natAbs_add_le a n
    have hstep := hacc.add hx (by omega)
    have hrest := ih hstep (by omega)
    rwa [add_assoc] at hrest

end Dec

open Dec

/-- A running sum is exact while the magnitudes add up to at most 28 digits. -/
theorem halalas_sumDec {xs : List Dec} {ns : List ℤ} (h : List.Forall₂ Halalas xs ns)
    (hsum : (ns.map Int.natAbs).sum < limit) : (sumDec xs).Halalas ns.sum := by
  have hfold := halalas_foldl h (halalas_cents 0) (by simpa using hsum)
  rwa [zero_add] at hfold

/-- The sum of amounts that are not negative is exact as long as it has at most 28 digits, and
never has as few again. -/
theorem exists_foldl_cents : ∀ {ns : List ℤ} {acc : Dec} {m s : ℤ}, (∀ n ∈ ns, 0 ≤ n) →
    acc.Halalas m → 0 ≤ s → min m (limit : ℤ) = min s (limit : ℤ) →
      ∃ m', ((ns.map cents).foldl Dec.add acc).Halalas m' ∧
        min m' (limit : ℤ) = min (s + ns.sum) (limit : ℤ)
  | [], acc, m, s, _, hacc, _, hmin => ⟨m, hacc, by simpa using hmin⟩
  | n :: ns, acc, m, s, hns, hacc, hs, hmin => by
    have hn := hns n List.mem_cons_self
    have hlimit : (0 : ℤ) < limit := by norm_num
    have hstep := hacc.add_inContext (halalas_cents n)
    have hmin' : min (inContext (m + n)) (limit : ℤ) = min (s + n) (limit : ℤ) := by
      rcases lt_or_ge (m + n) (limit : ℤ) with hlt | hge
      · rw [inContext_of_lt (by omega)]
        omega
      · have hle := limit_le_inContext hge
        omega
    obtain ⟨m', hm', hmin''⟩ := exists_foldl_cents
      (fun n' hn' => hns n' (List.mem_cons_of_mem n hn')) hstep (add_nonneg hs hn) hmin'
    rw [add_assoc] at hmin''
    exact ⟨m', hm', hmin''⟩

/-- A running sum of nonnegative amounts is exact up to the limit, and reaches it if the exact sum
does. -/
theorem exists_sumDec_cents {ns : List ℤ} (hns : ∀ n ∈ ns, 0 ≤ n) :
    ∃ m, (sumDec (ns.map cents)).Halalas m ∧ min m (limit : ℤ) = min ns.sum (limit : ℤ) := by
  have h := exists_foldl_cents hns (halalas_cents 0) le_rfl rfl
  rwa [zero_add] at h

/-- `quantize_money` gives the rounded amount, when it has at most 28 digits. -/
theorem quantizeDec_eq (x : Dec) : quantizeDec x =
    if x.amount.natAbs < limit then .ok (cents x.amount) else .error .invalidOperation := by
  unfold quantizeDec
  rw [quantizeMoney_eq, show halfUp (100 * x.val) = x.amount from rfl]
  split_ifs <;> rfl

/-- What is quantized to two decimals is the amount. -/
theorem eq_of_quantizeDec {x y : Dec} (h : quantizeDec x = .ok y) : y = cents x.amount := by
  rw [quantizeDec_eq] at h
  split_ifs at h
  exact (Except.ok.inj h).symm

/-- A number is quantized to its amount, or that is too long. -/
theorem quantizeDec_outcome (x : Dec) :
    Outcome (fun y => y = cents x.amount ∧ x.amount.natAbs < limit) (· = .invalidOperation)
      (quantizeDec x) := by
  rw [quantizeDec_eq]
  split_ifs with h
  · exact ⟨rfl, h⟩
  · rfl

/-- An amount is quantized to itself. -/
theorem Dec.Halalas.quantizeDec_eq {x : Dec} {a : ℤ} (hx : x.Halalas a) (h : a.natAbs < limit) :
    quantizeDec x = .ok (cents a) := by
  rw [Giftly.quantizeDec_eq, hx.amount_eq, if_pos h]

/-- An amount is what `quantize_money` makes of it. -/
theorem Dec.Halalas.quantizeMoney_eq {x : Dec} {a : ℤ} (hx : x.Halalas a)
    (h : a.natAbs < limit) : quantizeMoney (.finite x) = .ok a := by
  rw [Giftly.quantizeMoney_eq, show halfUp (100 * x.val) = a from hx.amount_eq, if_pos h]

/-! ## Rates of amounts -/

/-- A rate of an amount, rounded to halalas. -/
def timesRate (rate : Dec) (n : ℤ) : ℤ := ((cents n).mul rate).amount

/-- A rate of a number depends on its amount alone. -/
theorem timesRate_eq {x : Dec} {n : ℤ} (hx : x.Halalas n) (rate : Dec) :
    (x.mul rate).amount = timesRate rate n := by
  unfold timesRate amount Dec.mul
  rw [val_fix_congr]
  rw [val_product, val_product, hx, val_cents]

section Rate

variable {rate : Dec}

/-- A rate of more is not less. -/
theorem timesRate_mono (h0 : 0 ≤ rate.val) {n n' : ℤ} (h : n ≤ n') :
    timesRate rate n ≤ timesRate rate n' := by
  unfold timesRate amount Dec.mul
  have hle : (⟨(cents n).coeff * rate.coeff, (cents n).exp + rate.exp⟩ : Dec).val ≤
      (⟨(cents n').coeff * rate.coeff, (cents n').exp + rate.exp⟩ : Dec).val := by
    rw [val_product, val_product, val_cents, val_cents]
    have hcast : (n : ℚ) ≤ n' := by exact_mod_cast h
    exact mul_le_mul_of_nonneg_right (by linarith) h0
  have hfix := val_fix_le hle
  exact halfUp_mono (by linarith)

/-- A rate of nothing is nothing. -/
@[simp]
theorem timesRate_zero : timesRate rate 0 = 0 := by
  unfold timesRate amount Dec.mul
  rw [val_fix_congr (y := cents 0) (by rw [val_product, val_cents]; simp)]
  rw [val_fix_cents (by decide)]
  simp

/-- A rate of an amount that is not negative is not negative. -/
theorem timesRate_nonneg (h0 : 0 ≤ rate.val) {n : ℤ} (hn : 0 ≤ n) : 0 ≤ timesRate rate n := by
  have h := timesRate_mono h0 hn
  rwa [timesRate_zero] at h

/-- A rate of at most one gives at most the amount. -/
theorem timesRate_le (h1 : rate.val ≤ 1) {n : ℤ} (hn : 0 ≤ n) (hlimit : n.natAbs < limit) :
    timesRate rate n ≤ n := by
  have hle : (⟨(cents n).coeff * rate.coeff, (cents n).exp + rate.exp⟩ : Dec).val ≤
      (cents n).val := by
    have hcast : (0 : ℚ) ≤ n := by exact_mod_cast hn
    rw [val_product, val_cents]
    exact mul_le_of_le_one_right (by positivity) h1
  have hfix := val_fix_le hle
  rw [val_fix_cents hlimit] at hfix
  have hmono : timesRate rate n ≤ halfUp (n : ℚ) := by
    apply halfUp_mono
    unfold Dec.mul
    linarith
  rwa [halfUp_intCast] at hmono

/-- A rate of at most one takes a negative amount no further down. -/
theorem le_timesRate (h1 : rate.val ≤ 1) {n : ℤ} (hn : n ≤ 0) (hlimit : n.natAbs < limit) :
    n ≤ timesRate rate n := by
  have hle : (cents n).val ≤
      (⟨(cents n).coeff * rate.coeff, (cents n).exp + rate.exp⟩ : Dec).val := by
    have hcast : (n : ℚ) ≤ 0 := by exact_mod_cast hn
    rw [val_product, val_cents]
    nlinarith
  have hfix := val_fix_le hle
  rw [val_fix_cents hlimit] at hfix
  have hmono : halfUp (n : ℚ) ≤ timesRate rate n := by
    apply halfUp_mono
    unfold Dec.mul
    linarith
  rwa [halfUp_intCast] at hmono

/-- A rate between zero and one gives no more than the amount, in magnitude. -/
theorem natAbs_timesRate_le (h0 : 0 ≤ rate.val) (h1 : rate.val ≤ 1) {n : ℤ}
    (hlimit : n.natAbs < limit) : (timesRate rate n).natAbs ≤ n.natAbs := by
  rcases le_total 0 n with hn | hn
  · have hlow := timesRate_nonneg h0 hn
    have hhigh := timesRate_le h1 hn hlimit
    omega
  · have hlow := le_timesRate h1 hn hlimit
    have hhigh := timesRate_mono h0 hn
    rw [timesRate_zero] at hhigh
    omega

end Rate

/-! ## Amounts within a bound -/

/-- The amounts below which every step of the engine is exact, in halalas. -/
abbrev exactBound : ℤ := 10 ^ 24

/-- A hundred amounts below the bound fit the context. -/
theorem exactBound_lt : 100 * exactBound < (limit : ℤ) := by norm_num

/-- The magnitude of a sum is at most the sum of the magnitudes. -/
theorem natAbs_sum_le (ns : List ℤ) : ns.sum.natAbs ≤ (ns.map Int.natAbs).sum := by
  induction ns with
  | nil => rfl
  | cons n ns ih =>
    rw [List.map_cons, List.sum_cons, List.sum_cons]
    omega

/-- A number is the amount `n`, of magnitude at most `k` times `exactBound`. -/
structure Dec.Within (x : Dec) (k : ℕ) (n : ℤ) : Prop where
  halalas : x.Halalas n
  le : |n| ≤ k * exactBound

namespace Dec.Within

variable {x y : Dec} {j k : ℕ} {a b : ℤ}

/-- A number within a hundred bounds fits the context. -/
theorem lt_limit (h : x.Within k a) (hk : k ≤ 100) : a.natAbs < limit := by
  have hle := abs_le.mp h.le
  have hlimit := exactBound_lt
  have hmul : k * exactBound ≤ 100 * exactBound :=
    mul_le_mul_of_nonneg_right (by exact_mod_cast hk) (by norm_num)
  omega

/-- The sum of two numbers within their bounds. -/
theorem add (hx : x.Within j a) (hy : y.Within k b) (h : j + k ≤ 100) :
    (x.add y).Within (j + k) (a + b) := by
  have hle : |a + b| ≤ (j + k : ℕ) * exactBound := by
    calc |a + b| ≤ |a| + |b| := abs_add_le a b
      _ ≤ j * exactBound + k * exactBound := add_le_add hx.le hy.le
      _ = (j + k : ℕ) * exactBound := by push_cast; ring
  have hlt := lt_limit ⟨halalas_cents (a + b), hle⟩ h
  exact ⟨hx.halalas.add hy.halalas hlt, hle⟩

/-- The difference of two numbers within their bounds. -/
theorem sub (hx : x.Within j a) (hy : y.Within k b) (h : j + k ≤ 100) :
    (x.sub y).Within (j + k) (a - b) := by
  have hle : |a - b| ≤ (j + k : ℕ) * exactBound := by
    calc |a - b| ≤ |a| + |b| := abs_sub a b
      _ ≤ j * exactBound + k * exactBound := add_le_add hx.le hy.le
      _ = (j + k : ℕ) * exactBound := by push_cast; ring
  have hlt := lt_limit ⟨halalas_cents (a - b), hle⟩ h
  exact ⟨hx.halalas.sub hy.halalas hlt, hle⟩

/-- An amount below the bound is within it once. -/
theorem one (hx : x.Halalas a) (h : |a| ≤ exactBound) : x.Within 1 a := ⟨hx, by simpa using h⟩

/-- An amount between zero and some bounds is within them. -/
theorem of_nonneg (hx : x.Halalas a) (h0 : 0 ≤ a) (h : a ≤ k * exactBound) : x.Within k a :=
  ⟨hx, (abs_of_nonneg h0).le.trans h⟩

/-- A rate between zero and one of an amount. -/
theorem timesRate {rate : Dec} (hx : x.Within k a) (h0 : 0 ≤ rate.val) (h1 : rate.val ≤ 1)
    (h : k ≤ 100) : (cents (timesRate rate a)).Within k (Giftly.timesRate rate a) := by
  have hle : |Giftly.timesRate rate a| ≤ |a| := by
    rw [Int.abs_eq_natAbs, Int.abs_eq_natAbs]
    exact_mod_cast natAbs_timesRate_le h0 h1 (hx.lt_limit h)
  exact ⟨halalas_cents _, hle.trans hx.le⟩

end Dec.Within

/-- A running sum is within the bounds that its magnitudes add up to. -/
theorem within_sumDec {xs : List Dec} {ns : List ℤ} {k : ℕ} (h : List.Forall₂ Halalas xs ns)
    (hsum : ((ns.map Int.natAbs).sum : ℤ) ≤ k * exactBound) (hk : k ≤ 100) :
    (sumDec xs).Within k ns.sum := by
  have habs : |ns.sum| ≤ k * exactBound := by
    rw [Int.abs_eq_natAbs]
    exact le_trans (by exact_mod_cast natAbs_sum_le ns) hsum
  have hlimit := exactBound_lt
  have hmul : k * exactBound ≤ 100 * exactBound :=
    mul_le_mul_of_nonneg_right (by exact_mod_cast hk) (by norm_num)
  exact ⟨halalas_sumDec h (by omega), habs⟩

end Giftly
