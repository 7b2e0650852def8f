import Giftly.Pricing.Amounts

/-!
# The allocation of a discount

`_allocate_discount` in halalas. A component's share is its part of the discount, computed with an
error of at most one part in `10 ^ 25` and rounded (`Share`). The last component gets what the other
shares leave (`Allocated`), so the shares add up to the discount, and the others take about twice
the discount at most.
-/

namespace Giftly

open Dec

/-- A component's share as the source rounds it, `quantize_money(discount * net / discountable)`. -/
def shareOf (discount discountable : Dec) (net : ℤ) : ℤ :=
  match (discount.mul (cents net)).div discountable with
  | some share => share.amount
  | none => 0

/-- `s` is the rounded share of a component `n` of `base` in `discount`, up to the error of the
context. -/
def Share (discount base n s : ℤ) : Prop :=
  ∃ r : ℚ, s = halfUp r ∧
    |r - (discount * n / base : ℚ)| * 10 ^ 25 ≤ (discount * n / base : ℚ)

/-- A number is positive when its coefficient is. -/
theorem Dec.coeff_pos {x : Dec} : 0 < x.coeff ↔ 0 < x.val := by
  unfold Dec.val
  rw [mul_pos_iff_of_pos_right (ten_zpow_pos _), Int.cast_pos]

/-- A computed share that returns. -/
theorem eq_of_discountShare {d b y : Dec} {n : ℤ} (h : discountShare d b (cents n) = .ok y) :
    y = cents (shareOf d b n) := by
  unfold discountShare at h
  unfold shareOf
  cases hshare : (d.mul (cents n)).div b with
  | none =>
    rw [hshare] at h
    nomatch h
  | some share =>
    rw [hshare] at h
    exact eq_of_quantizeDec h

/-- The share of a component when it has at most 28 digits. -/
theorem discountShare_eq {d b : Dec} {n : ℤ} (hb : b.coeff ≠ 0)
    (h : (shareOf d b n).natAbs < limit) :
    discountShare d b (cents n) = .ok (cents (shareOf d b n)) := by
  obtain ⟨r, hr⟩ := exists_div (d.mul (cents n)) hb
  unfold shareOf at h ⊢
  unfold discountShare
  rw [hr] at h ⊢
  exact (quantizeDec_eq r).trans (if_pos h)

section Share

variable {discount base n s : ℤ}

/-- The source's share is one up to the error of the context. -/
theorem share_shareOf {d b : Dec} (hd : d.Halalas discount) (hb : b.Halalas base)
    (hdiscount : 0 < discount) (hbase : 0 < base) (hn : 0 < n) :
    Share discount base n (shareOf d b n) := by
  have hd' : (0 : ℚ) < discount := by exact_mod_cast hdiscount
  have hb' : (0 : ℚ) < base := by exact_mod_cast hbase
  have hn' : (0 : ℚ) < n := by exact_mod_cast hn
  -- the product, up to one part in `10 ^ 27`
  have hexact : (⟨d.coeff * (cents n).coeff, d.exp + (cents n).exp⟩ : Dec).val =
      discount * n / 10000 := by
    rw [val_product, show d.val = discount / 100 from hd, val_cents]
    ring
  have hexactpos : (0 : ℚ) < discount * n / 10000 := by positivity
  have hproduct := abs_val_fix_sub (⟨d.coeff * (cents n).coeff, d.exp + (cents n).exp⟩ : Dec)
  rw [hexact, abs_of_pos hexactpos] at hproduct
  change |(d.mul (cents n)).val - _| * _ ≤ _ at hproduct
  have hpos : 0 < (d.mul (cents n)).val := by
    have hlow := neg_abs_le ((d.mul (cents n)).val - discount * n / 10000)
    linarith
  have hbval : b.val = base / 100 := hb
  have hbpos : 0 < b.val := by
    rw [hbval]
    positivity
  obtain ⟨share, hshare⟩ := exists_div (d.mul (cents n)) (coeff_pos.mpr hbpos).ne'
  have hquot := abs_val_div_sub hshare (coeff_pos.mpr hpos) (coeff_pos.mpr hbpos)
  unfold shareOf
  rw [hshare]
  refine ⟨_, rfl, ?_⟩
  -- the errors of the product and of the quotient together
  set p := (d.mul (cents n)).val with hp
  have hscale : (discount * n / base : ℚ) = 100 * ((discount * n / 10000) / b.val) := by
    rw [hbval]
    field_simp
    norm_num
  set e : ℚ := discount * n / 10000 with he
  have hdiv : |p / b.val - e / b.val| * 10 ^ 27 ≤ e / b.val := by
    rw [← sub_div, abs_div, abs_of_pos hbpos, div_mul_eq_mul_div]
    exact div_le_div_of_nonneg_right hproduct hbpos.le
  have htri := abs_sub_le share.val (p / b.val) (e / b.val)
  have hup := le_abs_self (p / b.val - e / b.val)
  have hepos : 0 < e / b.val := div_pos hexactpos hbpos
  rw [hscale, ← mul_sub, abs_mul, abs_of_pos (by norm_num : (0 : ℚ) < 100)]
  linarith

/-- The products of amounts below which a rounded part is exact, in squares of a halala. -/
abbrev productBound : ℤ := 10 ^ 25

/-- The product of two amounts is exact while 28 digits suffice. -/
theorem Dec.Halalas.val_mul_cents {d : Dec} (hd : d.Halalas discount)
    (hbound : (discount * n).natAbs < limit) :
    (d.mul (cents n)).val = discount * n / 10000 := by
  have hproduct : (⟨d.coeff * (cents n).coeff, d.exp + (cents n).exp⟩ : Dec).val =
      (⟨discount * n, -4⟩ : Dec).val := by
    rw [val_product, show d.val = discount / 100 from hd, val_cents]
    unfold val
    push_cast
    norm_num
    ring
  have hfix := val_fix_congr hproduct
  rw [fix_of_lt (x := ⟨discount * n, -4⟩) hbound] at hfix
  refine Eq.trans hfix ?_
  unfold val
  push_cast
  norm_num
  ring

/-- The source's share of a component is the exact part rounded half up, as long as the product of
the discount and the component is at most `productBound`. -/
theorem shareOf_eq {d b : Dec} (hd : d.Halalas discount) (hb : b.Halalas base)
    (hdiscount : 0 < discount) (hbase : 0 < base) (hn : 0 < n)
    (hbound : discount * n ≤ productBound) :
    shareOf d b n = (2 * (discount * n) + base) / (2 * base) := by
  have hb' : (0 : ℚ) < base := by exact_mod_cast hbase
  have hprod : 0 < discount * n := mul_pos hdiscount hn
  have hprod' : (0 : ℚ) < discount * n := by exact_mod_cast hprod
  have hle : discount * n ≤ 10 ^ 25 := hbound
  have hbound' : (discount * n).natAbs < limit := by
    norm_num
    omega
  have hpval := hd.val_mul_cents hbound'
  have hbval : b.val = base / 100 := hb
  have hpos : 0 < (d.mul (cents n)).val := by
    rw [hpval]
    positivity
  have hbpos : 0 < b.val := by
    rw [hbval]
    positivity
  obtain ⟨share, hshare⟩ := exists_div (d.mul (cents n)) (coeff_pos.mpr hbpos).ne'
  have hquot := abs_val_div_sub hshare (coeff_pos.mpr hpos) (coeff_pos.mpr hbpos)
  have hratio : (d.mul (cents n)).val / b.val = (discount * n : ℤ) / base / 100 := by
    rw [hpval, hbval]
    push_cast
    field_simp
    norm_num
  rw [hratio] at hquot
  unfold shareOf
  rw [hshare]
  refine halfUp_eq_of_near hprod.le hbase ?_ fun hdvd => ?_
  · have herror : |100 * share.val - (discount * n : ℤ) / base| * 10 ^ 26 ≤
        (discount * n : ℤ) / base := by
      have hscale : 100 * share.val - ((discount * n : ℤ) : ℚ) / base =
          100 * (share.val - ((discount * n : ℤ) : ℚ) / base / 100) := by ring
      rw [hscale, abs_mul, abs_of_pos (by norm_num : (0 : ℚ) < 100)]
      linarith
    have hmul := mul_le_mul_of_nonneg_right herror hb'.le
    rw [div_mul_cancel₀ _ hb'.ne'] at hmul
    have hcast : (discount * n : ℚ) ≤ 10 ^ 25 := by exact_mod_cast hle
    push_cast at hmul ⊢
    linarith
  · obtain ⟨k, hk⟩ := hdvd
    -- the part is half way between two halalas, so it has few digits
    have hhalf : ((discount * n : ℤ) : ℚ) / base = (2 * k - 1) / 2 := by
      rw [div_eq_div_iff hb'.ne' two_ne_zero]
      have hcast : (2 * (discount * n) + base : ℚ) = 2 * base * k := by exact_mod_cast hk
      push_cast
      linarith
    have hdouble : base * (2 * k - 1) = 2 * (discount * n) := by linarith
    have hodd : 0 < 2 * k - 1 := by
      by_contra hle
      have hmul := mul_nonpos_of_nonneg_of_nonpos hbase.le (not_lt.mp hle)
      omega
    have hsmall : 2 * k - 1 ≤ 2 * (discount * n) := by
      rw [← hdouble]
      exact le_mul_of_one_le_left hodd.le hbase
    have hshort : (⟨(2 * k - 1) * 5, -3⟩ : Dec).val = (discount * n : ℤ) / base / 100 := by
      rw [hhalf]
      unfold val
      push_cast
      norm_num
      ring
    have hval := val_div_eq hshare (coeff_pos.mpr hpos) (coeff_pos.mpr hbpos)
      (hratio.trans hshort.symm) (by norm_num; omega)
    rw [hval, hshort]
    ring

namespace Share

/-- No share of a discount is negative. -/
theorem nonneg (h : Share discount base n s) (hdiscount : 0 < discount) (hbase : 0 < base)
    (hn : 0 < n) : 0 ≤ s := by
  obtain ⟨r, rfl, hr⟩ := h
  have hd' : (0 : ℚ) < discount := by exact_mod_cast hdiscount
  have hb' : (0 : ℚ) < base := by exact_mod_cast hbase
  have hn' : (0 : ℚ) < n := by exact_mod_cast hn
  have hq : (0 : ℚ) < discount * n / base := by positivity
  have hlow := neg_abs_le (r - discount * n / base : ℚ)
  exact halfUp_nonneg (by linarith)

/-- A rounded share is at most twice the exact one, up to the error of the context. -/
theorem mul_le (h : Share discount base n s) (hdiscount : 0 < discount) (hbase : 0 < base)
    (hn : 0 < n) : s * base * 10 ^ 25 ≤ 2 * (discount * n) * (10 ^ 25 + 1) := by
  have hs := h.nonneg hdiscount hbase hn
  obtain ⟨r, rfl, hr⟩ := h
  have hd' : (0 : ℚ) < discount := by exact_mod_cast hdiscount
  have hb' : (0 : ℚ) < base := by exact_mod_cast hbase
  have hn' : (0 : ℚ) < n := by exact_mod_cast hn
  have hq : (0 : ℚ) < discount * n / base := by positivity
  have hlow := neg_abs_le (r - discount * n / base : ℚ)
  have hup := le_abs_self (r - discount * n / base : ℚ)
  -- Rounding half up at most doubles a number that is not negative.
  have hround := halfUp_le_two_mul (q := r) (by linarith)
  have hle : (halfUp r : ℚ) * 10 ^ 25 ≤ 2 * (discount * n / base) * (10 ^ 25 + 1) := by linarith
  have hmul := mul_le_mul_of_nonneg_right hle hb'.le
  rw [show (2 : ℚ) * (discount * n / base) * (10 ^ 25 + 1) * base =
    2 * (discount * n) * (10 ^ 25 + 1) by field_simp] at hmul
  have hcast : ((halfUp r * base * 10 ^ 25 : ℤ) : ℚ) ≤
      ((2 * (discount * n) * (10 ^ 25 + 1) : ℤ) : ℚ) := by
    push_cast
    linarith
  exact_mod_cast hcast

end Share

/-- The shares of several components are together at most twice their part of the discount. -/
theorem sum_shares_mul_le {f : ℤ → ℤ} (hdiscount : 0 < discount) (hbase : 0 < base) :
    ∀ {ns : List ℤ}, (∀ n ∈ ns, 0 < n) → (∀ n ∈ ns, Share discount base n (f n)) →
      (ns.map f).sum * base * 10 ^ 25 ≤ 2 * (discount * ns.sum) * (10 ^ 25 + 1)
  | [], _, _ => by simp
  | n :: ns, hns, hf => by
    have hle := (hf n List.mem_cons_self).mul_le hdiscount hbase (hns n List.mem_cons_self)
    have ih := sum_shares_mul_le hdiscount hbase (fun n' h => hns n' (List.mem_cons_of_mem n h))
      fun n' h => hf n' (List.mem_cons_of_mem n h)
    rw [List.map_cons, List.sum_cons, List.sum_cons]
    linarith

/-- The shares of components that fit the base are together at most three discounts. -/
theorem sum_shares_le {f : ℤ → ℤ} {ns : List ℤ} (hdiscount : 0 < discount) (hbase : 0 < base)
    (hns : ∀ n ∈ ns, 0 < n) (hf : ∀ n ∈ ns, Share discount base n (f n)) (hsum : ns.sum ≤ base) :
    (ns.map f).sum ≤ 3 * discount := by
  have hle := sum_shares_mul_le hdiscount hbase hns hf
  have hpart : discount * ns.sum ≤ discount * base := mul_le_mul_of_nonneg_left hsum hdiscount.le
  have hpos : 0 < discount * base := mul_pos hdiscount hbase
  have hmul : (ns.map f).sum * base ≤ 3 * discount * base := by linarith
  exact le_of_mul_le_mul_right hmul hbase

/-- No share among several is negative. -/
theorem shares_nonneg {f : ℤ → ℤ} {ns : List ℤ} (hdiscount : 0 < discount) (hbase : 0 < base)
    (hns : ∀ n ∈ ns, 0 < n) (hf : ∀ n ∈ ns, Share discount base n (f n)) :
    ∀ s ∈ ns.map f, 0 ≤ s := by
  intro s hs
  obtain ⟨n, hn, rfl⟩ := List.mem_map.mp hs
  exact (hf n hn).nonneg hdiscount hbase (hns n hn)

end Share

/-- What the lines and the courier fee get of a discount, when `f` rounds the shares. -/
inductive Allocated (f : ℤ → ℤ) (discount : ℤ) : List ℤ → ℤ → List ℤ → ℤ → Prop
  | none {nets : List ℤ} {fee : ℤ} (h : discount = 0) :
    Allocated f discount nets fee (nets.map fun _ => 0) 0
  /-- The courier fee gets what the lines leave. -/
  | courier {nets : List ℤ} {fee : ℤ} (h : 0 < discount) (hfee : 0 < fee) :
    Allocated f discount nets fee (nets.map f) (discount - (nets.map f).sum)
  /-- Without a courier fee, the last line gets what the other lines leave. -/
  | line (init : List ℤ) (last : ℤ) (h : 0 < discount) :
    Allocated f discount (init ++ [last]) 0 (init.map f ++ [discount - (init.map f).sum]) 0

/-- The last positive amount of a list that ends with one. -/
theorem lastPositive_append {xs : List Dec} {x : Dec} (h : zero.lt x = true) :
    lastPositive (xs ++ [x]) = xs.length := by
  unfold lastPositive
  rw [List.zipIdx_append, List.foldl_append]
  simp [h]

/-- The last member of a list is modified at the length of what stands before it. -/
theorem modify_append {α : Type} (xs : List α) (x : α) (f : α → α) :
    (xs ++ [x]).modify xs.length f = xs ++ [f x] :=
  List.modifyTailIdx_add (List.modifyHead f) 0 xs [x]

/-- The residue is put on the share of the last line. -/
theorem modify_lastPositive {init shares : List ℤ} {last : ℤ} (hlast : 0 < last)
    (h : init.length = shares.length) (s : ℤ) (g : Dec → Dec) :
    ((shares ++ [s]).map cents).modify (lastPositive ((init ++ [last]).map cents)) g =
      shares.map cents ++ [g (cents s)] := by
  have hlength : (init.map cents).length = (shares.map cents).length := by simpa using h
  rw [List.map_append, List.map_singleton, List.map_append, List.map_singleton,
    lastPositive_append (by simpa using hlast), hlength, modify_append]

/-- The magnitudes of nonnegative numbers add up to their sum. -/
theorem sum_natAbs {ns : List ℤ} (h : ∀ n ∈ ns, 0 ≤ n) :
    (((ns.map Int.natAbs).sum : ℕ) : ℤ) = ns.sum := by
  induction ns with
  | nil => rfl
  | cons n ns ih =>
    have hn := h n List.mem_cons_self
    have hrest := ih fun n' hn' => h n' (List.mem_cons_of_mem n hn')
    rw [List.map_cons, List.sum_cons, List.sum_cons]
    rw [Nat.cast_add]
    omega

/-- Positive nets have a sum that is not negative. -/
theorem sum_pos_nonneg {nets : List ℤ} (h : ∀ n ∈ nets, 0 < n) : 0 ≤ nets.sum :=
  List.sum_nonneg fun n hn => (h n hn).le

/-- Without a courier fee a base that is positive has a line. -/
theorem ne_nil_of_base_pos {nets : List ℤ} {fee : ℤ} (h : 0 < nets.sum + fee) :
    fee = 0 → nets ≠ [] := by
  rintro rfl rfl
  simp at h

/-- Amounts are whole numbers of halalas. -/
theorem forall₂_halalas_cents (ns : List ℤ) : List.Forall₂ Halalas (ns.map cents) ns := by
  induction ns with
  | nil => exact .nil
  | cons n ns ih => exact .cons (halalas_cents n) ih

/-- `_allocate_discount` allocates a discount that is at most the base. -/
theorem exists_allocateDiscount {nets : List ℤ} {discount discountable : Dec} {fee d base : ℤ}
    (hd : discount.Halalas d) (hb : discountable.Halalas base) (hne : fee = 0 → nets ≠ [])
    (hnets : ∀ n ∈ nets, 0 < n) (hfee0 : 0 ≤ fee) (hbase : base = nets.sum + fee)
    (hd0 : 0 ≤ d) (hdb : d ≤ base) (hbound : base ≤ exactBound) :
    ∃ lineAlloc courierAlloc shares c,
      allocateDiscount (nets.map cents) (cents fee) discount discountable =
        .ok (lineAlloc, courierAlloc) ∧
      List.Forall₂ Halalas lineAlloc shares ∧ courierAlloc.Halalas c ∧
      Allocated (shareOf discount discountable) d nets fee shares c := by
  have hzero : zero.Halalas 0 := halalas_cents 0
  rcases hd0.eq_or_lt with h0 | hd0
  · have hle : discount.le zero = true := by rw [hd.le_eq hzero, decide_eq_true h0.ge]
    unfold allocateDiscount
    rw [hle, Bool.true_or, if_pos rfl]
    refine ⟨_, _, nets.map fun _ => 0, 0, rfl, ?_, hzero, .none h0.symm⟩
    exact List.rel_map (fun _ _ _ => hzero) (forall₂_halalas_cents nets)
  have hlimit := exactBound_lt
  have hb0 : 0 < base := hd0.trans_le hdb
  have hcoeff : discountable.coeff ≠ 0 := by
    have hval : (0 : ℚ) < discountable.val := by
      rw [show discountable.val = base / 100 from hb]
      have : (0 : ℚ) < base := by exact_mod_cast hb0
      positivity
    exact (coeff_pos.mpr hval).ne'
  have hnets0 := sum_pos_nonneg hnets
  have hnet_le : ∀ n ∈ nets, n ≤ base := fun n hn => by
    have := List.single_le_sum (fun n hn => (hnets n hn).le) n hn
    omega
  -- every share of a component has at most 28 digits
  set f := shareOf discount discountable with hf
  have hshare : ∀ n, 0 < n → Share d base n (f n) := fun n hn => share_shareOf hd hb hd0 hb0 hn
  have hok : ∀ n, 0 < n → n ≤ base →
      0 ≤ f n ∧ f n ≤ 3 * d ∧ discountShare discount discountable (cents n) = .ok (cents (f n)) := by
    intro n hn hle
    have h0 := (hshare n hn).nonneg hd0 hb0 hn
    have h3 : ([n].map f).sum ≤ 3 * d := sum_shares_le hd0 hb0 (by simpa using hn)
      (by simpa using hshare n hn) (by simpa using hle)
    rw [List.map_singleton, List.sum_singleton] at h3
    exact ⟨h0, h3, discountShare_eq hcoeff (by rw [← hf]; omega)⟩
  have hmapM : (nets.map cents).mapM (discountShare discount discountable) =
      .ok ((nets.map f).map cents) := by
    rw [List.mapM_map, List.map_map]
    exact Store.mapM_eq_ok fun n hn => (hok n (hnets n hn) (hnet_le n hn)).2.2
  have hpos := shares_nonneg hd0 hb0 hnets fun n hn => hshare n (hnets n hn)
  have hle := sum_shares_le hd0 hb0 hnets (fun n hn => hshare n (hnets n hn)) (by omega)
  have hsum0 : 0 ≤ (nets.map f).sum := List.sum_nonneg hpos
  have habs := sum_natAbs hpos
  have halloc := forall₂_halalas_cents (nets.map f)
  have hsumDec := halalas_sumDec halloc (by omega)
  have hcond : (discount.le zero || discountable.le zero) = false := by
    rw [hd.le_eq hzero, hb.le_eq hzero, decide_eq_false (not_le.mpr hd0),
      decide_eq_false (not_le.mpr hb0), Bool.or_self]
  unfold allocateDiscount
  rw [hcond, if_neg (by simp), hmapM]
  by_cases hfeepos : 0 < fee
  · -- the courier fee takes the residue
    have hlt : zero.lt (cents fee) = true := by simpa using hfeepos
    obtain ⟨hs0, hs3, hs⟩ := hok fee hfeepos (by omega)
    have htotal := hsumDec.add (halalas_cents (f fee)) (by omega)
    have hresidue := hd.sub htotal (by omega)
    simp only [hlt, if_true, hs, Store.ok_bind]
    rw [hresidue.eq_eq hzero]
    by_cases hr : d - ((nets.map f).sum + f fee) = 0
    · rw [if_pos (decide_eq_true hr)]
      have hrest : f fee = d - (nets.map f).sum := by omega
      exact ⟨_, _, _, _, rfl, halloc, hrest ▸ halalas_cents (f fee), .courier hd0 hfeepos⟩
    · rw [if_neg (by simpa using hr)]
      have hlast := (halalas_cents (f fee)).add hresidue (by omega)
      rw [show f fee + (d - ((nets.map f).sum + f fee)) = d - (nets.map f).sum by ring] at hlast
      exact ⟨_, _, _, _, rfl, halloc, hlast, .courier hd0 hfeepos⟩
  · -- the last line takes it
    obtain rfl : fee = 0 := by omega
    have hlt : zero.lt (cents 0) = false := by simp
    have htotal := hsumDec.add hzero (by omega)
    have hresidue := hd.sub htotal (by omega)
    simp only [hlt, Bool.false_eq_true, if_false, Store.ok_bind]
    rw [hresidue.eq_eq hzero]
    obtain ⟨init, last, rfl⟩ := (List.eq_nil_or_concat' nets).resolve_left (hne rfl)
    have hlast := hnets last (by simp)
    obtain ⟨hs0, hs3, -⟩ := hok last hlast (hnet_le last (by simp))
    have hinit0 : 0 ≤ (init.map f).sum := List.sum_nonneg fun s hs => hpos s (by
      rw [List.map_append]
      exact List.mem_append_left _ hs)
    rw [List.map_append, List.map_singleton, List.sum_append, List.sum_singleton] at *
    by_cases hr : d - ((init.map f).sum + f last + 0) = 0
    · rw [if_pos (decide_eq_true hr)]
      have hrest : f last = d - (init.map f).sum := by omega
      exact ⟨_, _, _, _, rfl, hrest ▸ halloc, hzero, .line init last hd0⟩
    · rw [if_neg (by simpa using hr)]
      have hmoved := (halalas_cents (f last)).add hresidue (by omega)
      rw [show f last + (d - ((init.map f).sum + f last + 0)) = d - (init.map f).sum by ring]
        at hmoved
      refine ⟨_, _, _, _, rfl, ?_, hzero, .line init last hd0⟩
      rw [modify_lastPositive hlast (by simp)]
      exact List.rel_append (forall₂_halalas_cents _) (.cons hmoved .nil)

namespace Allocated

variable {f : ℤ → ℤ} {discount base fee c : ℤ} {nets shares : List ℤ}

/-- There is a share for every line. -/
theorem length_eq (h : Allocated f discount nets fee shares c) : nets.length = shares.length := by
  cases h <;> simp

/-- The shares add up to the discount. -/
theorem sum_eq (h : Allocated f discount nets fee shares c) : shares.sum + c = discount := by
  cases h with
  | none h => simp [h]
  | courier => omega
  | line =>
    rw [List.sum_append, List.sum_singleton]
    omega

/-- The shares are together at most six discounts in magnitude. -/
theorem sum_natAbs_le (h : Allocated f discount nets fee shares c) (hnets : ∀ n ∈ nets, 0 < n)
    (hfee : 0 ≤ fee) (hbase : base = nets.sum + fee) (hbase0 : 0 < base)
    (hf : 0 < discount → ∀ n ∈ nets, Share discount base n (f n)) :
    ((shares.map Int.natAbs).sum : ℤ) + c.natAbs ≤ 6 * discount := by
  cases h with
  | none h => simp [h]
  -- The courier's fee takes the rest, so every line has its rounded share.
  | courier hd =>
    have hle := sum_shares_le hd hbase0 hnets (hf hd) (by omega)
    have hpos := shares_nonneg hd hbase0 hnets (hf hd)
    have hsum0 : 0 ≤ (nets.map f).sum := List.sum_nonneg hpos
    rw [sum_natAbs hpos]
    omega
  -- The last line takes the rest, so only the lines before it have theirs.
  | line init last hd =>
    have hlast : 0 < last := hnets last (by simp)
    have hinit : ∀ n ∈ init, 0 < n := fun n hn => hnets n (by simp [hn])
    have hfinit : ∀ n ∈ init, Share discount base n (f n) := fun n hn => hf hd n (by simp [hn])
    rw [List.sum_append, List.sum_singleton] at hbase
    have hle := sum_shares_le hd hbase0 hinit hfinit (by omega)
    have hpos := shares_nonneg hd hbase0 hinit hfinit
    have hsum0 : 0 ≤ (init.map f).sum := List.sum_nonneg hpos
    have habs := sum_natAbs hpos
    rw [List.map_append, List.sum_append, List.map_singleton, List.sum_singleton, Nat.cast_add]
    omega

end Allocated

end Giftly
