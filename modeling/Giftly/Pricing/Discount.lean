import Giftly.Pricing.Totals

/-!
# What a discount does to the components

Each component but the last one gets a share between zero and itself, and the last one gets its
exact part of the discount and all that rounding leaves of the others' parts. That fits it exactly
when those leftovers, which are remainders of the nets and the discount modulo the base, find room in
it (`ResidueFits`): the residue of many small components can be more than the last one is worth.
-/

namespace Giftly

open Dec

/-- A share of at most the base is at most its component. -/
theorem Share.le {discount base n s : ℤ} (h : Share discount base n s) (hdiscount : 0 < discount)
    (hdb : discount ≤ base) (hn : 0 < n) (hbound : n ≤ exactBound) : s ≤ n := by
  obtain ⟨r, rfl, hr⟩ := h
  have hb : 0 < base := hdiscount.trans_le hdb
  have hb' : (0 : ℚ) < base := by exact_mod_cast hb
  have hn' : (0 : ℚ) < n := by exact_mod_cast hn
  have hdb' : (discount : ℚ) ≤ base := by exact_mod_cast hdb
  have hbound' : (n : ℚ) ≤ 10 ^ 24 := by exact_mod_cast hbound
  have hq : (discount * n / base : ℚ) ≤ n := by
    rw [div_le_iff₀ hb', mul_comm (n : ℚ)]
    exact mul_le_mul_of_nonneg_right hdb' hn'.le
  have hup := le_abs_self (r - discount * n / base : ℚ)
  exact halfUp_le_of_lt (by linarith)

/-- The components that get their rounded shares: all but the last. -/
def others (nets : List ℤ) (fee : ℤ) : List ℤ := if 0 < fee then nets else nets.dropLast

/-- The component that gets what the others leave: the courier fee, or the last line. -/
def lastOf (nets : List ℤ) (fee : ℤ) : ℤ := if 0 < fee then fee else nets.getLastD 0

section

variable {nets : List ℤ} {fee : ℤ}

/-- With a courier fee all lines get rounded shares. -/
theorem others_of_pos (h : 0 < fee) : others nets fee = nets := if_pos h

/-- With a courier fee it gets what the lines leave. -/
theorem lastOf_of_pos (h : 0 < fee) : lastOf nets fee = fee := if_pos h

/-- Without a courier fee all lines but the last get rounded shares. -/
@[simp]
theorem others_append (init : List ℤ) (last : ℤ) : others (init ++ [last]) 0 = init := by
  rw [others, if_neg (lt_irrefl 0), List.dropLast_concat]

/-- Without a courier fee the last line gets what the others leave. -/
@[simp]
theorem lastOf_append (init : List ℤ) (last : ℤ) : lastOf (init ++ [last]) 0 = last := by
  rw [lastOf, if_neg (lt_irrefl 0), List.getLastD_concat]

end

/-- What rounding to the nearest halala, halves up, leaves of the exact part
`discount * n / base` of a component, in units of `1 / (2 * base)` of a halala. -/
def leftover (discount base n : ℤ) : ℤ := (2 * (discount * n) + base) % (2 * base) - base

/-- The leftovers of the others find room in the last component: what they lack is at most its exact
part of the discount, and what they add is at most what it keeps. -/
def ResidueFits (nets : List ℤ) (fee discount : ℤ) : Prop :=
  -(2 * discount * lastOf nets fee) ≤
      ((others nets fee).map (leftover discount (nets.sum + fee))).sum ∧
    ((others nets fee).map (leftover discount (nets.sum + fee))).sum ≤
      2 * (nets.sum + fee - discount) * lastOf nets fee

instance (nets : List ℤ) (fee discount : ℤ) : Decidable (ResidueFits nets fee discount) :=
  inferInstanceAs (Decidable (_ ∧ _))

section Residue

variable {nets : List ℤ} {fee discount base : ℤ}

/-- The others and the last component make up the base. -/
theorem sum_others_add_last (hfee : 0 ≤ fee) (hne : fee = 0 → nets ≠ []) :
    (others nets fee).sum + lastOf nets fee = nets.sum + fee := by
  rcases hfee.lt_or_eq with hpos | rfl
  · rw [others_of_pos hpos, lastOf_of_pos hpos]
  · obtain ⟨init, last, rfl⟩ := (List.eq_nil_or_concat' nets).resolve_left (hne rfl)
    simp

/-- A part is its rounded share and its leftover. -/
theorem share_add_leftover (discount base n : ℤ) :
    2 * base * ((2 * (discount * n) + base) / (2 * base)) + leftover discount base n =
      2 * (discount * n) := by
  have hsplit := Int.mul_ediv_add_emod (2 * (discount * n) + base) (2 * base)
  unfold leftover
  omega

/-- The rounded shares of several components and their leftovers are their part of the discount. -/
theorem sum_shares_add_leftovers (discount base : ℤ) (ns : List ℤ) :
    2 * base * (ns.map fun n => (2 * (discount * n) + base) / (2 * base)).sum +
      (ns.map (leftover discount base)).sum = 2 * (discount * ns.sum) := by
  induction ns with
  | nil => simp
  | cons n ns ih =>
    have hn := share_add_leftover discount base n
    simp only [List.map_cons, List.sum_cons, mul_add] at ih ⊢
    linarith

/-- The exactly rounded shares of the others leave a rest between zero and the last component exactly
when their leftovers find room in it. -/
theorem rest_fits_iff {taken : ℤ} (hfee : 0 ≤ fee) (hne : fee = 0 → nets ≠ [])
    (hbase : 0 < nets.sum + fee) (htaken : taken = ((others nets fee).map fun n =>
      (2 * (discount * n) + (nets.sum + fee)) / (2 * (nets.sum + fee))).sum) :
    discount - lastOf nets fee ≤ taken ∧ taken ≤ discount ↔ ResidueFits nets fee discount := by
  have hsum := sum_shares_add_leftovers discount (nets.sum + fee) (others nets fee)
  have hothers := sum_others_add_last hfee hne
  rw [← htaken] at hsum
  unfold ResidueFits
  set base := nets.sum + fee
  set last := lastOf nets fee
  set left := ((others nets fee).map (leftover discount base)).sum
  rw [show (others nets fee).sum = base - last by omega] at hsum
  have hbase2 : 0 < 2 * base := by omega
  -- both bounds, multiplied by twice the base
  have hlow : discount - last ≤ taken ↔ left ≤ 2 * (base - discount) * last := by
    rw [← mul_le_mul_iff_right₀ hbase2]
    constructor <;> intro h <;> linarith
  have hhigh : taken ≤ discount ↔ -(2 * discount * last) ≤ left := by
    rw [← mul_le_mul_iff_right₀ hbase2]
    constructor <;> intro h <;> linarith
  rw [hlow, hhigh, and_comm]

/-- A leftover is at most half a halala, either way. -/
theorem abs_leftover_le (hbase : 0 < base) (discount n : ℤ) : |leftover discount base n| ≤ base := by
  have hnonneg := Int.emod_nonneg (2 * (discount * n) + base) (by omega : 2 * base ≠ 0)
  have hlt := Int.emod_lt_of_pos (2 * (discount * n) + base) (by omega : 0 < 2 * base)
  unfold leftover
  rw [abs_le]
  omega

/-- The leftovers find room when the last component's exact part, and what it keeps, are both worth
half a halala for each of the others. -/
theorem residueFits_of_length_le (hbase : 0 < nets.sum + fee)
    (hpart : (others nets fee).length * (nets.sum + fee) ≤ 2 * discount * lastOf nets fee)
    (hkeeps : (others nets fee).length * (nets.sum + fee) ≤
      2 * (nets.sum + fee - discount) * lastOf nets fee) : ResidueFits nets fee discount := by
  have habs : ∀ ns : List ℤ, |(ns.map (leftover discount (nets.sum + fee))).sum| ≤
      ns.length * (nets.sum + fee) := by
    intro ns
    induction ns with
    | nil => simp
    | cons n ns ih =>
      have hn := abs_leftover_le hbase discount n
      have htri := abs_add_le (leftover discount (nets.sum + fee) n)
        (ns.map (leftover discount (nets.sum + fee))).sum
      simp only [List.map_cons, List.sum_cons, List.length_cons, Nat.cast_add, Nat.cast_one,
        add_mul, one_mul]
      linarith
  obtain ⟨hlow, hhigh⟩ := abs_le.mp (habs (others nets fee))
  exact ⟨by linarith, by linarith⟩

end Residue

/-- What the others' rounded shares take of the discount. -/
def takenBy (nets : List ℤ) (fee : ℤ) (discount : Dec) : ℤ :=
  ((others nets fee).map (shareOf discount (discountableOf nets fee))).sum

/-- The allocation returns shares between zero and their components that add up to the discount. -/
def SharesFit (nets : List ℤ) (fee : ℤ) (discount : Dec) : Prop :=
  ∃ lineAlloc courierAlloc shares c,
    allocateDiscount (nets.map cents) (cents fee) discount (discountableOf nets fee) =
      .ok (lineAlloc, courierAlloc) ∧
    List.Forall₂ Halalas lineAlloc shares ∧ courierAlloc.Halalas c ∧
    List.Forall₂ (fun n s => 0 ≤ s ∧ s ≤ n) nets shares ∧ 0 ≤ c ∧ c ≤ fee ∧
    shares.sum + c = discount.amount

/-- A list related to one with a last element has a last element. -/
theorem exists_of_forall₂_append {α β : Type} {R : α → β → Prop} {x : α} :
    ∀ {xs : List α} {ys : List β}, List.Forall₂ R (xs ++ [x]) ys →
      ∃ init last, ys = init ++ [last] ∧ List.Forall₂ R xs init ∧ R x last
  | [], _, .cons (b := y) hy .nil => ⟨[], y, rfl, .nil, hy⟩
  | _ :: _, _, .cons (b := y) hy hrest => by
    obtain ⟨init, last, rfl, hinit, hlast⟩ := exists_of_forall₂_append hrest
    exact ⟨y :: init, last, rfl, .cons hy hinit, hlast⟩

/-- The allocation fits exactly when the rest does. -/
theorem Allocated.fits_iff {f : ℤ → ℤ} {d fee c : ℤ} {nets shares : List ℤ}
    (h : Allocated f d nets fee shares c) (hd : 0 < d) (hf : ∀ n ∈ nets, 0 ≤ f n ∧ f n ≤ n) :
    (List.Forall₂ (fun n s => 0 ≤ s ∧ s ≤ n) nets shares ∧ 0 ≤ c ∧ c ≤ fee) ↔
      d - lastOf nets fee ≤ ((others nets fee).map f).sum ∧ ((others nets fee).map f).sum ≤ d := by
  cases h with
  | none h => omega
  -- The courier's fee is last, and the lines are shares by proportion.
  | courier _ hfee =>
    rw [others_of_pos hfee, lastOf_of_pos hfee, List.forall₂_map_right_iff, List.forall₂_same]
    constructor
    · rintro ⟨-, h0, h1⟩
      omega
    · rintro ⟨h0, h1⟩
      exact ⟨hf, by omega, by omega⟩
  -- The last line is last, and there is no fee.
  | line init last =>
    rw [others_append, lastOf_append]
    constructor
    · rintro ⟨hfits, -, -⟩
      obtain ⟨init', last', heq, -, hlast⟩ := exists_of_forall₂_append hfits
      obtain ⟨-, hrest⟩ := List.append_inj' heq rfl
      obtain rfl := (List.cons.inj hrest).1
      omega
    · rintro ⟨h0, h1⟩
      refine ⟨List.rel_append ?_ (.cons ⟨by omega, by omega⟩ .nil), le_rfl, le_rfl⟩
      rw [List.forall₂_map_right_iff, List.forall₂_same]
      exact fun n hn => hf n (List.mem_append_left _ hn)

/-- A list of numbers is one list of amounts. -/
theorem forall₂_halalas_unique {xs : List Dec} {ns ms : List ℤ} (h : List.Forall₂ Halalas xs ns)
    (h' : List.Forall₂ Halalas xs ms) : ns = ms := by
  induction h generalizing ms with
  | nil => cases h'; rfl
  | cons hx _ ih =>
    cases h' with
    | cons hx' h' => rw [hx.unique hx', ih h']

/-- The rounded shares of components whose shares are computed. -/
theorem eq_of_mapM_discountShare {ns : List ℤ} {d b : Dec} {ys : List Dec}
    (h : (ns.map cents).mapM (discountShare d b) = .ok ys) :
    ys = (ns.map (shareOf d b)).map cents := by
  rw [List.mapM_map] at h
  have hall := Store.forall₂_of_mapM_eq_ok h
  have heq := hall.imp fun n y (hy : discountShare d b (cents n) = .ok y) => eq_of_discountShare hy
  rw [List.map_map]
  clear h hall
  induction heq with
  | nil => rfl
  | cons hy _ ih => rw [hy, ih]; rfl

/-- What an allocation that returns has computed: nothing on an empty base, and otherwise the
rounded shares of the others. -/
theorem allocateDiscount_inv {nets : List ℤ} {fee : ℤ} {discount discountable : Dec}
    {lineAlloc : List Dec} {courierAlloc : Dec}
    (h : allocateDiscount (nets.map cents) (cents fee) discount discountable =
      .ok (lineAlloc, courierAlloc)) (hnets : ∀ n ∈ nets, 0 < n) (hfee : 0 ≤ fee)
    (hne : fee = 0 → nets ≠ []) :
    (lineAlloc = (nets.map fun _ => 0).map cents ∧ courierAlloc = zero) ∨
    (0 < fee ∧ lineAlloc = (nets.map (shareOf discount discountable)).map cents) ∨
    (∃ init last x, nets = init ++ [last] ∧ fee = 0 ∧ courierAlloc = zero ∧
      lineAlloc = (init.map (shareOf discount discountable)).map cents ++ [x]) := by
  unfold allocateDiscount at h
  by_cases hcond : (discount.le zero || discountable.le zero) = true
  · -- No discount, or nothing to discount: every share is zero.
    rw [if_pos hcond] at h
    obtain ⟨rfl, rfl⟩ := Prod.mk.inj (Except.ok.inj h)
    refine .inl ⟨?_, rfl⟩
    rw [List.map_map, List.map_map]
    rfl
  rw [if_neg hcond] at h
  obtain ⟨lineAlloc', hlines, h⟩ := Store.exists_of_bind_eq_ok h
  obtain rfl := eq_of_mapM_discountShare hlines
  by_cases hfeepos : 0 < fee
  · -- The courier's fee takes the rest.
    have hlt : zero.lt (cents fee) = true := by simpa using hfeepos
    simp only [hlt, if_true] at h
    obtain ⟨courierAlloc', -, h⟩ := Store.exists_of_bind_eq_ok h
    right; left
    split_ifs at h <;> exact ⟨hfeepos, (Prod.mk.inj (Except.ok.inj h)).1.symm⟩
  · -- There is no fee, and the last line with a positive net takes the rest.
    obtain rfl : fee = 0 := by omega
    obtain ⟨init, last, rfl⟩ := (List.eq_nil_or_concat' nets).resolve_left (hne rfl)
    have hlt : zero.lt (cents 0) = false := by simp
    have hlast := hnets last (by simp)
    simp only [hlt, Bool.false_eq_true, if_false, Store.ok_bind] at h
    right; right
    split_ifs at h
    · obtain ⟨rfl, rfl⟩ := Prod.mk.inj (Except.ok.inj h)
      exact ⟨init, last, cents (shareOf discount discountable last), rfl, rfl, rfl, by simp⟩
    · obtain ⟨rfl, rfl⟩ := Prod.mk.inj (Except.ok.inj h)
      rw [show (init ++ [last]).map (shareOf discount discountable) =
        init.map (shareOf discount discountable) ++ [shareOf discount discountable last] by simp]
      exact ⟨init, last, _, rfl, rfl, rfl, modify_lastPositive hlast (by simp) _ _⟩

/-- When the shares fit, what the others take leaves a rest for the last component that fits. -/
theorem takenBy_of_sharesFit {nets : List ℤ} {fee : ℤ} {discount : Dec}
    (hnets : ∀ n ∈ nets, 0 < n) (hfee : 0 ≤ fee) (hd : 0 < discount.amount)
    (hle : discount.amount ≤ nets.sum + fee) (h : SharesFit nets fee discount) :
    discount.amount - lastOf nets fee ≤ takenBy nets fee discount ∧
      takenBy nets fee discount ≤ discount.amount := by
  obtain ⟨lineAlloc, courierAlloc, shares, c, hok, hshares, hc, hfits, hc0, hc1, hsum⟩ := h
  have hne := ne_nil_of_base_pos (hd.trans_le hle)
  unfold takenBy
  rcases allocateDiscount_inv hok hnets hfee hne with ⟨rfl, rfl⟩ | ⟨hfeepos, rfl⟩ |
    ⟨init, last, x, rfl, rfl, rfl, rfl⟩
  · -- nothing was allocated, but the discount is positive
    have hzeros := forall₂_halalas_unique hshares (forall₂_halalas_cents _)
    have hc' := hc.unique (halalas_cents 0)
    rw [hzeros] at hsum
    simp [hc'] at hsum
    omega
  · -- The fee took the rest, and it fits.
    rw [others_of_pos hfeepos, lastOf_of_pos hfeepos]
    obtain rfl := forall₂_halalas_unique hshares (forall₂_halalas_cents _)
    omega
  · -- The last line took the rest, and it fits.
    rw [others_append, lastOf_append]
    obtain ⟨sInit, s, rfl, hsInit, hs⟩ := exists_of_forall₂_append hshares
    obtain rfl := forall₂_halalas_unique hsInit (forall₂_halalas_cents _)
    obtain ⟨sInit', s', heq, -, hs0, hs1⟩ := exists_of_forall₂_append hfits
    obtain ⟨-, hrest⟩ := List.append_inj' heq rfl
    obtain rfl := (List.cons.inj hrest).1
    rw [List.sum_append, List.sum_singleton] at hsum
    omega

/-- A share by proportion is between zero and its net. -/
theorem shareOf_within {nets : List ℤ} {fee d : ℤ} {discount : Dec} (hdiscount : discount.Halalas d)
    (hnets : ∀ n ∈ nets, 0 < n) (hfee : 0 ≤ fee) (hd : 0 < d) (hle : d ≤ nets.sum + fee)
    (hbound : nets.sum + fee ≤ exactBound) :
    ∀ n ∈ nets, 0 ≤ shareOf discount (discountableOf nets fee) n ∧
      shareOf discount (discountableOf nets fee) n ≤ n := by
  intro n hn
  have hb0 : 0 < nets.sum + fee := hd.trans_le hle
  have hnpos := hnets n hn
  have hnle := List.single_le_sum (fun n hn => (hnets n hn).le) n hn
  have hbase := halalas_discountableOf hnets hfee hbound
  have hshare := share_shareOf hdiscount hbase hd hb0 hnpos
  exact ⟨hshare.nonneg hd hb0 hnpos, hshare.le hd hle hnpos (by omega)⟩

/-- Below `exactBound`, a rest that fits makes shares that fit. -/
theorem sharesFit_of_takenBy {nets : List ℤ} {fee : ℤ} {discount : Dec}
    (hdiscount : discount.Halalas discount.amount)
    (hnets : ∀ n ∈ nets, 0 < n) (hfee : 0 ≤ fee) (hd : 0 < discount.amount)
    (hle : discount.amount ≤ nets.sum + fee) (hbound : nets.sum + fee ≤ exactBound)
    (h : discount.amount - lastOf nets fee ≤ takenBy nets fee discount ∧
      takenBy nets fee discount ≤ discount.amount) : SharesFit nets fee discount := by
  have hne := ne_nil_of_base_pos (hd.trans_le hle)
  have hbase := halalas_discountableOf hnets hfee hbound
  obtain ⟨lineAlloc, courierAlloc, shares, c, hok, hshares, hc, halloc⟩ :=
    exists_allocateDiscount hdiscount hbase hne hnets hfee rfl hd.le hle hbound
  have hf := shareOf_within hdiscount hnets hfee hd hle hbound
  obtain ⟨hfits, hc0, hc1⟩ := (halloc.fits_iff hd hf).mpr h
  exact ⟨lineAlloc, courierAlloc, shares, c, hok, hshares, hc, hfits, hc0, hc1, halloc.sum_eq⟩

/-- No amount of the lines, and no tax, is negative. -/
structure NoNegative (r : PricingResult) : Prop where
  taxable : ∀ line ∈ r.lines, 0 ≤ line.lineTaxableAmount.val
  tax : ∀ line ∈ r.lines, 0 ≤ line.lineTaxAmount.val
  total : ∀ line ∈ r.lines, 0 ≤ line.lineTotalAmount.val
  courierTax : 0 ≤ r.courierFeeTaxAmount.val
  taxAmount : 0 ≤ r.taxAmount.val

/-- An amount that is not negative has a value that is not negative. -/
theorem Dec.Halalas.val_nonneg {x : Dec} {n : ℤ} (hx : x.Halalas n) (hn : 0 ≤ n) : 0 ≤ x.val := by
  rw [show x.val = n / 100 from hx]
  positivity

/-- Lines whose shares fit have taxable amounts that are not negative. -/
theorem taxable_nonneg : ∀ {items : List PricingItem} {shares : List ℤ},
    List.Forall₂ (fun n s => 0 ≤ s ∧ s ≤ n) (items.map PricingItem.net) shares →
      ∀ l ∈ legs items shares, 0 ≤ l.taxable
  | i :: items, s :: shares, .cons h hrest, l, hl => by
    rcases List.mem_cons.mp hl with rfl | hmem
    · exact sub_nonneg.mpr h.2
    · exact taxable_nonneg hrest l hmem

/-- Legs whose taxable amounts are not negative are priced without a negative amount. -/
theorem Legs.Priced.noNegative {lines : List PricedLeg} {vatRate : Dec}
    {fee courierShare service discount : ℤ} {r : PricingResult}
    (h : (Legs.invoice lines vatRate fee courierShare service discount).Priced r)
    (hrates : ∀ l ∈ lines, 0 ≤ l.rate.val) (hvat : 0 ≤ vatRate.val)
    (htaxable : ∀ l ∈ lines, 0 ≤ l.taxable) (hcourier : courierShare ≤ fee)
    (hservice : 0 ≤ service) : NoNegative r := by
  have htax : ∀ l ∈ lines, 0 ≤ l.tax := fun l hl =>
    timesRate_nonneg (hrates l hl) (htaxable l hl)
  have hcourierTax : 0 ≤ timesRate vatRate (fee - courierShare) := timesRate_nonneg hvat (by omega)
  have hserviceTax : 0 ≤ timesRate vatRate service := timesRate_nonneg hvat hservice
  have hsum : 0 ≤ (lines.map PricedLeg.tax).sum := by
    apply List.sum_nonneg
    intro t ht
    obtain ⟨l, hl, rfl⟩ := List.mem_map.mp ht
    exact htax l hl
  constructor
  case taxable =>
    intro line hline
    obtain ⟨l, hl, hshows⟩ := Store.exists_of_forall₂_right h.lines hline
    exact hshows.taxable.val_nonneg (htaxable l hl)
  case tax =>
    intro line hline
    obtain ⟨l, hl, hshows⟩ := Store.exists_of_forall₂_right h.lines hline
    exact hshows.tax.val_nonneg (htax l hl)
  case total =>
    intro line hline
    obtain ⟨l, hl, hshows⟩ := Store.exists_of_forall₂_right h.lines hline
    exact hshows.total.val_nonneg (add_nonneg (htaxable l hl) (htax l hl))
  case courierTax =>
    apply h.courierFeeTax.val_nonneg
    simpa [Legs.invoice] using hcourierTax
  case taxAmount =>
    apply h.tax.val_nonneg
    rw [Legs.tax_invoice]
    omega

/-- Shares that fit leave no negative amount in the invoice. -/
theorem Computed.noNegative {items : List PricingItem} {courierFeeAmount : Dec}
    {promo : Option PricingPromo} {cfg : PricingConfig} {r : PricingResult}
    {service discount courierShare : ℤ} {shares : List ℤ}
    (h : Computed items courierFeeAmount promo cfg r service discount shares courierShare)
    (hvalid : ValidInputs items courierFeeAmount promo cfg) (hd : 0 < discount)
    (hrest : discount - lastOf (items.map PricingItem.net) courierFeeAmount.amount ≤
        takenBy (items.map PricingItem.net) courierFeeAmount.amount r.discountAmount ∧
      takenBy (items.map PricingItem.net) courierFeeAmount.amount r.discountAmount ≤ discount) :
    NoNegative r := by
  have hdiscount : r.discountAmount.Halalas discount := h.priced.discount
  have hfee := ExactInputs.amount_nonneg hvalid.fee_nonneg
  have hnets := ExactInputs.net_pos hvalid.item_valid
  -- The shares by proportion are within their nets.
  have hf := shareOf_within hdiscount hnets hfee hd h.discount_le hvalid.base_le
  unfold takenBy at hrest
  -- So is the rest, by the condition.
  obtain ⟨hfits, -, hc⟩ := (h.allocated.fits_iff hd hf).mpr hrest
  apply h.priced.noNegative _ hvalid.cfg_valid.vatRate_nonneg (taxable_nonneg hfits) hc
    (hvalid.service_nonneg h)
  intro l hl
  obtain ⟨i, hi, s, rfl⟩ := exists_of_mem_legs hl
  exact (hvalid.item_valid i hi).rate_nonneg

/-- Below `productBound`, what the others take is the sum of their exact parts, rounded half up. -/
theorem takenBy_eq {nets : List ℤ} {fee : ℤ} {discount : Dec}
    (hdiscount : discount.Halalas discount.amount) (hnets : ∀ n ∈ nets, 0 < n) (hfee : 0 ≤ fee)
    (hd : 0 < discount.amount) (hle : discount.amount ≤ nets.sum + fee)
    (hbound : nets.sum + fee ≤ exactBound)
    (hproduct : ∀ n ∈ nets, discount.amount * n ≤ productBound) :
    takenBy nets fee discount = ((others nets fee).map fun n =>
      (2 * (discount.amount * n) + (nets.sum + fee)) / (2 * (nets.sum + fee))).sum := by
  have hbase := halalas_discountableOf hnets hfee hbound
  unfold takenBy
  congr 1
  apply List.map_congr_left
  intro n hn
  have hmem : n ∈ nets := by
    unfold others at hn
    split_ifs at hn
    · exact hn
    · exact List.mem_of_mem_dropLast hn
  exact shareOf_eq hdiscount hbase hd (hd.trans_le hle) (hnets n hmem) (hproduct n hmem)

/-- Every share is between zero and its component exactly when the leftovers of the other components
find room in the last one; in the engine no amount is negative then. -/
theorem shares_fit_iff (nets : List ℤ) (fee : ℤ) (discount : Dec) (items : List PricingItem)
    (courierFeeAmount : Dec) (promo : Option PricingPromo) (cfg : PricingConfig) :
    (discount.Halalas discount.amount → (∀ n ∈ nets, 0 < n) → 0 ≤ fee → 0 < discount.amount →
      discount.amount ≤ nets.sum + fee → nets.sum + fee ≤ exactBound →
      (∀ n ∈ nets, discount.amount * n ≤ productBound) →
      (SharesFit nets fee discount ↔ ResidueFits nets fee discount.amount)) ∧
    (ValidInputs items courierFeeAmount promo cfg → ∀ d : Dec,
      computeDiscount (discountableOf (items.map PricingItem.net) courierFeeAmount.amount) promo =
        .ok d → 0 < d.amount → (∀ i ∈ items, d.amount * i.net ≤ productBound) →
      ∀ r, calculateInvoiceTotals items courierFeeAmount promo cfg = .ok r →
        (SharesFit (items.map PricingItem.net) courierFeeAmount.amount d ∧ NoNegative r ↔
          ResidueFits (items.map PricingItem.net) courierFeeAmount.amount d.amount)) := by
  constructor
  · -- The allocation alone.
    intro hdiscount hnets hfee hd hle hbound hproduct
    rw [← rest_fits_iff hfee (ne_nil_of_base_pos (hd.trans_le hle)) (hd.trans_le hle)
      (takenBy_eq hdiscount hnets hfee hd hle hbound hproduct)]
    exact ⟨takenBy_of_sharesFit hnets hfee hd hle,
      sharesFit_of_takenBy hdiscount hnets hfee hd hle hbound⟩
  · -- A whole pricing, whose nets and fee are those of its inputs.
    intro hvalid d hdiscountEq hd hproduct r hr
    obtain ⟨service, discount, shares, c, h⟩ :=
      (calculateInvoiceTotals_outcome hvalid.exact).of_eq_ok hr
    obtain rfl := Except.ok.inj (hdiscountEq.symm.trans h.discount_eq)
    have hdiscount : r.discountAmount.Halalas discount := h.priced.discount
    have hle := h.discount_le
    have hfee := ExactInputs.amount_nonneg hvalid.fee_nonneg
    have hnets := ExactInputs.net_pos hvalid.item_valid
    have hproduct' : ∀ n ∈ items.map PricingItem.net,
        r.discountAmount.amount * n ≤ productBound := by
      intro n hn
      obtain ⟨i, hi, rfl⟩ := List.mem_map.mp hn
      exact hproduct i hi
    have hamount := hdiscount.amount_eq
    rw [← hamount] at hdiscount hle h
    rw [← rest_fits_iff hfee (ne_nil_of_base_pos (hd.trans_le hle)) (hd.trans_le hle)
      (takenBy_eq hdiscount hnets hfee hd hle hvalid.base_le hproduct')]
    constructor
    · rintro ⟨hfits, -⟩
      exact takenBy_of_sharesFit hnets hfee hd hle hfits
    · intro hrest
      exact ⟨sharesFit_of_takenBy hdiscount hnets hfee hd hle hvalid.base_le hrest,
        h.noNegative hvalid hd hrest⟩

/-- Five lines of a halala with a discount of two: every share but the last is rounded to zero. -/
theorem shares_overrun :
    ¬SharesFit [1, 1, 1, 1, 1] 0 (cents 2) ∧
      (calculateInvoiceTotals (List.replicate 5 (giftLine 1 10000)) (cents 0)
        (some (PromoService.toPricingPromo (fixedPromo 2))) (plainConfig 500 1500)).toOption.map
          (fun r => r.lines.map fun line => (line.lineTaxableAmount, line.lineTaxAmount)) =
        some (List.replicate 4 (cents 1, cents 1) ++ [(cents (-1), cents (-1))]) := by
  constructor
  · intro h
    have hrest := takenBy_of_sharesFit (by decide) le_rfl (by simp) (by simp) h
    exact absurd hrest (by decide +kernel)
  · rfl

/-- Two equal lines share a discount evenly, in the allocation and in the engine. -/
theorem shares_fit_iff_even :
    SharesFit [100, 100] 0 (cents 50) ∧
      ∀ r, calculateInvoiceTotals [giftLine 100 1500, giftLine 100 1500] (cents 0)
        (some (PromoService.toPricingPromo (fixedPromo 50))) (plainConfig 500 1500) = .ok r →
        SharesFit [100, 100] 0 (cents 50) ∧ NoNegative r := by
  have hnets : [giftLine 100 1500, giftLine 100 1500].map PricingItem.net = [100, 100] := by simp
  have hfee := Halalas.amount_cents 0
  constructor
  · have hfit := (shares_fit_iff [100, 100] 0 (cents 50) [] (cents 0) none (plainConfig 500 1500)).1
      (by simp [halalas_cents]) (by decide) le_rfl (by simp) (by simp) (by norm_num) (by norm_num)
    exact hfit.mpr (by decide +kernel)
  · intro r hr
    have hfit := (shares_fit_iff [] 0 (cents 50) [giftLine 100 1500, giftLine 100 1500] (cents 0)
      (some (PromoService.toPricingPromo (fixedPromo 50))) (plainConfig 500 1500)).2
      (validInputs_gifts (by norm_num) (by norm_num) (by norm_num) (by norm_num) (by norm_num))
      (cents 50) (by rw [hnets, hfee]; rfl) (by simp) (by norm_num) r hr
    rw [hnets, hfee, Halalas.amount_cents] at hfit
    exact hfit.mpr (by decide +kernel)

end Giftly
