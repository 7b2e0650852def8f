import Giftly.Pricing.Discount

/-!
# What a promo does to the total

A promo lowers the taxable amount of every component but possibly the last one, whose share may be
negative. What the others take is less than twice the discount, so the taxable amount of the last
one grows by less than the discount, and so does its tax: the total never grows.
-/

namespace Giftly

open Dec

/-- A rate of at most one grows by at most the growth of the amount, up to the rounding. -/
theorem timesRate_add_le {rate : Dec} (h0 : 0 ≤ rate.val) (h1 : rate.val ≤ 1) {t x : ℤ}
    (ht : 0 ≤ t) (hx : 0 ≤ x) (ht' : t ≤ exactBound) (hx' : x ≤ 2 * exactBound) :
    timesRate rate (t + x) ≤ timesRate rate t + x + 1 := by
  have ht0 : (0 : ℚ) ≤ t := by exact_mod_cast ht
  have hx0 : (0 : ℚ) ≤ x := by exact_mod_cast hx
  have ht1 : (t : ℚ) ≤ 10 ^ 24 := by exact_mod_cast ht'
  have hx1 : (x : ℚ) ≤ 2 * 10 ^ 24 := by exact_mod_cast hx'
  -- the product of an amount of at most `3 * 10 ^ 24` with the rate
  have hproduct : ∀ n : ℤ, (0 : ℚ) ≤ n → (n : ℚ) ≤ 3 * 10 ^ 24 →
      |100 * ((cents n).mul rate).val - n * rate.val| ≤ 3 / 1000 := by
    intro n hn0 hn1
    have hn : (0 : ℚ) ≤ n / 100 := div_nonneg hn0 (by norm_num)
    have hval : (⟨(cents n).coeff * rate.coeff, (cents n).exp + rate.exp⟩ : Dec).val =
        n / 100 * rate.val := by rw [val_product, val_cents]
    have hfix : |((cents n).mul rate).val - n / 100 * rate.val| * 10 ^ 27 ≤ n / 100 * rate.val := by
      have h := abs_val_fix_sub (⟨(cents n).coeff * rate.coeff, (cents n).exp + rate.exp⟩ : Dec)
      rwa [hval, abs_of_nonneg (mul_nonneg hn h0)] at h
    have hle : (n : ℚ) / 100 * rate.val ≤ n / 100 := mul_le_of_le_one_right hn h1
    rw [show 100 * ((cents n).mul rate).val - n * rate.val =
      100 * (((cents n).mul rate).val - n / 100 * rate.val) by ring, abs_mul,
      abs_of_pos (by norm_num : (0 : ℚ) < 100)]
    linarith
  have hsum := abs_le.mp (hproduct (t + x) (by push_cast; linarith) (by push_cast; linarith))
  have hone := abs_le.mp (hproduct t ht0 (by linarith))
  have hround := abs_le.mp (abs_halfUp_sub (100 * ((cents (t + x)).mul rate).val))
  have hround' := abs_le.mp (abs_halfUp_sub (100 * ((cents t).mul rate).val))
  have hxrate : (x : ℚ) * rate.val ≤ x := mul_le_of_le_one_right hx0 h1
  have hlt : (timesRate rate (t + x) : ℚ) < timesRate rate t + x + 2 := by
    unfold timesRate amount
    push_cast at hsum
    linarith
  have hcast : timesRate rate (t + x) < timesRate rate t + x + 2 := by exact_mod_cast hlt
  omega

/-- The shares of components that leave one of the base take less than twice the discount. -/
theorem sum_shares_lt {discount base : ℤ} {f : ℤ → ℤ} {ns : List ℤ} (hdiscount : 0 < discount)
    (hbase : 0 < base) (hns : ∀ n ∈ ns, 0 < n) (hf : ∀ n ∈ ns, Share discount base n (f n))
    (hsum : ns.sum < base) (hbound : base ≤ exactBound) : (ns.map f).sum < 2 * discount := by
  have hle := sum_shares_mul_le hdiscount hbase hns hf
  have hpart : discount * (ns.sum + 1) ≤ discount * base :=
    mul_le_mul_of_nonneg_left (by omega) hdiscount.le
  have hsmall : discount * base ≤ discount * 10 ^ 24 :=
    mul_le_mul_of_nonneg_left hbound hdiscount.le
  have hmul : (ns.map f).sum * base < 2 * discount * base := by linarith
  exact lt_of_mul_lt_mul_right hmul hbase.le

/-- The legs of two lists of lines. -/
theorem legs_append {items items' : List PricingItem} {shares shares' : List ℤ}
    (h : items.length = shares.length) :
    legs (items ++ items') (shares ++ shares') = legs items shares ++ legs items' shares' :=
  List.zipWith_append h

/-- The tax of the leg of a line. -/
theorem tax_leg (i : PricingItem) (s : ℤ) : (i.leg s).tax = timesRate i.taxRate (i.net - s) := rfl

/-- Shares that are not negative lower the taxes of the lines. -/
theorem sum_tax_le : ∀ {items : List PricingItem} {shares : List ℤ}, (∀ i ∈ items, i.Valid) →
    (∀ s ∈ shares, 0 ≤ s) → items.length = shares.length →
      ((legs items shares).map PricedLeg.tax).sum ≤
        ((legs items (items.map fun _ => 0)).map PricedLeg.tax).sum
  | [], [], _, _, _ => le_rfl
  | i :: items, s :: shares, hitems, hshares, hlength => by
    have hs := hshares s List.mem_cons_self
    have hi := hitems i List.mem_cons_self
    have hhead : (i.leg s).tax ≤ (i.leg 0).tax :=
      timesRate_mono hi.rate_nonneg (sub_le_sub_left hs _)
    have hrest := sum_tax_le (fun i' h => hitems i' (List.mem_cons_of_mem i h))
      (fun s' h => hshares s' (List.mem_cons_of_mem s h)) (Nat.succ.inj hlength)
    exact add_le_add hhead hrest

/-- The tax of the component that gets the rest: it grows by less than the discount. -/
theorem rest_tax_le {rate : Dec} (h0 : 0 ≤ rate.val) (h1 : rate.val ≤ 1) {t d taken : ℤ}
    (ht : 0 ≤ t) (ht' : t ≤ exactBound) (hd0 : 0 < d) (hd : d ≤ exactBound)
    (htaken : taken < 2 * d) : timesRate rate (t - (d - taken)) ≤ timesRate rate t + d := by
  rcases le_total taken d with hle | hle
  · have hmono := timesRate_mono h0 (show t - (d - taken) ≤ t by omega)
    omega
  · have hadd := timesRate_add_le h0 h1 ht (show 0 ≤ taken - d by omega) ht' (by omega)
    rw [show t - (d - taken) = t + (taken - d) by ring]
    omega

/-- A promo raises the taxes of the components by at most the discount. -/
theorem Allocated.tax_le {f : ℤ → ℤ} {d fee c base : ℤ} {items : List PricingItem}
    {shares : List ℤ} {vatRate : Dec} (h : Allocated f d (items.map PricingItem.net) fee shares c)
    (hitems : ∀ i ∈ items, i.Valid) (h0 : 0 ≤ vatRate.val) (h1 : vatRate.val ≤ 1) (hd : 0 < d)
    (hfee : 0 ≤ fee) (hbase : base = (items.map PricingItem.net).sum + fee) (hdb : d ≤ base)
    (hbound : base ≤ exactBound) (hf : ∀ n ∈ items.map PricingItem.net, Share d base n (f n)) :
    ((legs items shares).map PricedLeg.tax).sum + timesRate vatRate (fee - c) ≤
      ((legs items (items.map fun _ => 0)).map PricedLeg.tax).sum + timesRate vatRate fee + d := by
  have hnets := ExactInputs.net_pos hitems
  have hb0 : 0 < base := hd.trans_le hdb
  generalize hmap : items.map PricingItem.net = nets at h hnets hf hbase
  cases h with
  | none h => omega
  | courier _ hfeepos =>
    -- the courier fee gets the rest
    have hlength : items.length = (nets.map f).length := by rw [List.length_map, ← hmap, List.length_map]
    have hlines := sum_tax_le hitems (shares_nonneg hd hb0 hnets hf) hlength
    have hlt := sum_shares_lt hd hb0 hnets hf (by omega) hbound
    have hnets0 := sum_pos_nonneg hnets
    have hrest := rest_tax_le h0 h1 hfee (by omega) hd (by omega) hlt
    omega
  | line init last =>
    -- the last line gets the rest
    obtain ⟨itemsInit, itemsLast, rfl, hinit, hlast⟩ := List.map_eq_append_iff.mp hmap
    obtain ⟨i, rfl, rfl⟩ := List.map_eq_singleton_iff.mp hlast
    have hi := hitems i (by simp)
    have hinit' : ∀ n ∈ init, 0 < n := fun n hn => hnets n (List.mem_append_left _ hn)
    have hfinit : ∀ n ∈ init, Share d base n (f n) := fun n hn => hf n (List.mem_append_left _ hn)
    have hlength : itemsInit.length = (init.map f).length := by
      rw [List.length_map, ← hinit, List.length_map]
    have hlines := sum_tax_le (fun i' hi' => hitems i' (List.mem_append_left _ hi'))
      (shares_nonneg hd hb0 hinit' hfinit) hlength
    have hpos := hi.net_pos
    rw [List.sum_append, List.sum_singleton] at hbase
    have hlt := sum_shares_lt hd hb0 hinit' hfinit (by omega) hbound
    have hinit0 := sum_pos_nonneg hinit'
    have hrest := rest_tax_le hi.rate_nonneg hi.rate_le hpos.le (by omega) hd (by omega) hlt
    have hzero := tax_leg i 0
    rw [sub_zero] at hzero
    have hzeros : itemsInit.length = (itemsInit.map fun _ => (0 : ℤ)).length := by
      rw [List.length_map]
    rw [List.map_append, legs_append hlength, legs_append hzeros, List.map_append, List.map_append,
      List.sum_append, List.sum_append]
    change _ + ((i.leg _).tax + 0) + _ ≤ _ + ((i.leg 0).tax + 0) + _ + _
    rw [tax_leg, hzero, sub_self 0]
    omega

/-- A promo whose fixed amount and cap have two decimals. -/
structure PricingPromo.TwoDecimal (p : PricingPromo) : Prop where
  fixed : ∀ x ∈ p.fixedAmount, ∃ n, x.Halalas n
  cap : ∀ x ∈ p.maxDiscountAmount, ∃ n, x.Halalas n

/-- A fixed promo has two decimals. -/
theorem fixedPromo_twoDecimal (amount : ℤ) :
    (PromoService.toPricingPromo (fixedPromo amount)).TwoDecimal where
  fixed := by
    intro x hx
    obtain rfl := Option.some.inj hx
    exact ⟨amount, halalas_cents amount⟩
  cap := fun _ hx => nomatch hx

/-- Rates between zero and one, and two-decimal bounds of the service fee, in any order. -/
structure PricingConfig.TwoDecimal (cfg : PricingConfig) : Prop where
  feeRate_nonneg : 0 ≤ cfg.serviceFeeRate.val
  feeRate_le : cfg.serviceFeeRate.val ≤ 1
  vatRate_nonneg : 0 ≤ cfg.defaultVatRate.val
  vatRate_le : cfg.defaultVatRate.val ≤ 1
  feeMin : ∃ n, cfg.serviceFeeMinAmount.Halalas n
  feeMax : ∃ n, cfg.serviceFeeMaxAmount.Halalas n

/-- The plain configuration has two decimals. -/
theorem plainConfig_twoDecimal (feeMin feeMax : ℤ) : (plainConfig feeMin feeMax).TwoDecimal where
  feeRate_nonneg := by norm_num [plainConfig, Dec.val]
  feeRate_le := by norm_num [plainConfig, Dec.val]
  vatRate_nonneg := by norm_num [plainConfig, Dec.val]
  vatRate_le := by norm_num [plainConfig, Dec.val]
  feeMin := ⟨feeMin, halalas_cents feeMin⟩
  feeMax := ⟨feeMax, halalas_cents feeMax⟩

/-- The smaller of two numbers is at most the second one. -/
theorem Dec.val_min_le (x y : Dec) : (x.min y).val ≤ y.val := by
  unfold Dec.min
  rw [lt_eq]
  split_ifs with h
  · exact le_rfl
  · simpa using h

/-- A discount is an amount that is cut at the base. -/
theorem exists_of_computeDiscount {b y : Dec} {p : PricingPromo} (hp : p.TwoDecimal)
    (h : computeDiscount b (some p) = .ok y) : ∃ d n, Halalas d n ∧ y = d.min b := by
  cases htype : p.discountType with
  -- A percentage is rounded, and may be capped by the promo.
  | percent =>
    cases hpercent : p.percentValue with
    | none =>
      simp only [computeDiscount, htype, hpercent] at h
      cases h
    | some percent =>
      simp only [computeDiscount, htype, hpercent] at h
      split at h
      · obtain ⟨d, hd, h⟩ := Store.exists_of_bind_eq_ok h
        obtain rfl := eq_of_quantizeDec hd
        obtain rfl := Except.ok.inj h
        cases hcap : p.maxDiscountAmount with
        | none => exact ⟨_, _, halalas_cents _, rfl⟩
        | some cap =>
          obtain ⟨n, hn⟩ := hp.cap cap hcap
          exact ⟨_, _, (halalas_cents _).min hn, rfl⟩
      · cases h
  | fixed =>
    cases hfixed : p.fixedAmount with
    | none =>
      simp only [computeDiscount, htype, hfixed] at h
      cases h
    | some d =>
      simp only [computeDiscount, htype, hfixed] at h
      obtain ⟨n, hn⟩ := hp.fixed d hfixed
      exact ⟨d, n, hn, (Except.ok.inj h).symm⟩

/-- A service fee is whole, and lies within the bounds that it is clamped to. -/
theorem exists_of_computeServiceFee {b y : Dec} {cfg : PricingConfig} (hcfg : cfg.TwoDecimal)
    {base : ℤ} (hb : b.Halalas base) (hbase : 0 < base) (hbound : base ≤ exactBound)
    (hmin : cfg.serviceFeeMinAmount.amount ≤ exactBound)
    (hmax : -exactBound ≤ cfg.serviceFeeMaxAmount.amount) (h : computeServiceFee b cfg = .ok y) :
    ∃ n, y.Halalas n ∧ |n| ≤ exactBound := by
  have hlimit := exactBound_lt
  obtain ⟨m, hm⟩ := hcfg.feeMin
  obtain ⟨M, hM⟩ := hcfg.feeMax
  rw [hm.amount_eq] at hmin
  rw [hM.amount_eq] at hmax
  have hle : b.le zero = false := by
    rw [hb.le_eq (halalas_cents 0), decide_eq_false (not_le.mpr hbase)]
  unfold computeServiceFee at h
  rw [hle, if_neg (by simp)] at h
  obtain ⟨raw, hraw, h⟩ := Store.exists_of_bind_eq_ok h
  obtain rfl := eq_of_quantizeDec hraw
  obtain rfl := Except.ok.inj h
  rw [timesRate_eq hb]
  -- The raw fee lies between nothing and the base.
  have hraw0 := timesRate_nonneg hcfg.feeRate_nonneg hbase.le
  have hraw1 := timesRate_le hcfg.feeRate_le hbase.le (by omega)
  exact ⟨_, ((halalas_cents _).max hm).min hM, abs_le.mpr ⟨by omega, by omega⟩⟩

/-- Without a discount every share is zero. -/
theorem Allocated.eq_zero {f : ℤ → ℤ} {nets shares : List ℤ} {fee c : ℤ}
    (h : Allocated f 0 nets fee shares c) : shares = nets.map (fun _ => 0) ∧ c = 0 := by
  generalize hd : (0 : ℤ) = d at h
  cases h with
  | none => exact ⟨by rw [hd], hd⟩
  | courier h => omega
  | line _ _ h => omega

section

variable {items : List PricingItem} {courierFeeAmount : Dec} {promo : PricingPromo}
  {cfg : PricingConfig} {r r₀ : PricingResult}

/-- Without lines and a courier fee there is nothing to discount. -/
theorem base_pos_of_discount_pos (hitems : ∀ i ∈ items, i.Valid) (hfee : 0 ≤ courierFeeAmount.val)
    (hpromo : promo.TwoDecimal)
    (hr : calculateInvoiceTotals items courierFeeAmount (some promo) cfg = .ok r)
    (hd : 0 < r.discountAmount.val) : 0 < baseOf items courierFeeAmount := by
  have hreturned := returned_of_calculateInvoiceTotals hr
  -- Otherwise there are no items and no fee, and the discount is cut at zero.
  by_contra hempty
  have hfee0 := ExactInputs.amount_nonneg hfee
  obtain rfl : items = [] := by
    by_contra hne
    exact hempty (ExactInputs.base_pos_of_ne_nil hne hitems hfee)
  have hfeeAmount : courierFeeAmount.amount = 0 := by
    unfold baseOf at hempty
    simp at hempty
    omega
  obtain ⟨lineNets, hnets, hitemsNet⟩ := hreturned.itemsNet
  obtain rfl : lineNets = [] := (Except.ok.inj hnets).symm
  have hcourierFee := eq_of_quantizeDec hreturned.courierFee
  obtain ⟨d, n, hn, hdiscount⟩ := exists_of_computeDiscount hpromo hreturned.discount
  have hle := val_min_le d (r.itemsNetAmount.add r.courierFeeAmount)
  have hzero : ((sumDec []).add (cents 0)).Halalas 0 :=
    (halalas_cents 0).add (halalas_cents 0) (by decide)
  rw [← hdiscount, hitemsNet, hcourierFee, hfeeAmount, show _ = _ from hzero] at hle
  norm_num at hle
  linarith

/-- The inputs of both runs are exact. -/
theorem exactInputs_of_twoDecimal (hitems : ∀ i ∈ items, i.Valid) (hfee : 0 ≤ courierFeeAmount.val)
    (hcfg : cfg.TwoDecimal) (hpos : 0 < baseOf items courierFeeAmount)
    (hbound : baseOf items courierFeeAmount ≤ exactBound)
    (hmin : cfg.serviceFeeMinAmount.amount ≤ exactBound)
    (hmax : -exactBound ≤ cfg.serviceFeeMaxAmount.amount) {promo : Option PricingPromo}
    (hdiscount : ∀ y, computeDiscount
      (discountableOf (items.map PricingItem.net) courierFeeAmount.amount) promo = .ok y →
        ∃ n, y.Halalas n ∧ 0 ≤ n ∧ n ≤ baseOf items courierFeeAmount) :
    ExactInputs items courierFeeAmount promo cfg where
  item_valid := hitems
  fee_nonneg := hfee
  base_pos := hpos
  vatRate_nonneg := hcfg.vatRate_nonneg
  vatRate_le := hcfg.vatRate_le
  base_le := hbound
  service := fun _ hy => exists_of_computeServiceFee hcfg (ExactInputs.halalas_base hitems hfee hbound)
    hpos hbound hmin hmax hy
  discount := hdiscount

/-- The base that the engine adds up, when it returns. -/
theorem Returned.base_eq {promo : Option PricingPromo}
    (h : Returned items courierFeeAmount promo cfg r) (hitems : ∀ i ∈ items, i.Valid)
    (hfee : 0 ≤ courierFeeAmount.val) (hbound : baseOf items courierFeeAmount ≤ exactBound) :
    r.itemsNetAmount.add r.courierFeeAmount =
      discountableOf (items.map PricingItem.net) courierFeeAmount.amount := by
  have hlimit := exactBound_lt
  have hfee0 := ExactInputs.amount_nonneg hfee
  have hnetpos := ExactInputs.net_pos hitems
  have hnet_le : ∀ i ∈ items, i.net ≤ (items.map PricingItem.net).sum := fun i hi =>
    List.single_le_sum (fun n hn => (hnetpos n hn).le) _ (List.mem_map_of_mem hi)
  unfold baseOf at hbound
  obtain ⟨lineNets, hnets, hitemsNet⟩ := h.itemsNet
  rw [lineNets_eq hitems fun i hi => (hnet_le i hi).trans_lt (by omega)] at hnets
  obtain rfl := Except.ok.inj hnets
  rw [hitemsNet, eq_of_quantizeDec h.courierFee]
  rfl

/-- A promo never raises the total, and leaves the other amounts as they are. -/
theorem calculateInvoiceTotals_promo_le (items : List PricingItem) (courierFeeAmount : Dec)
    (promo : PricingPromo) (cfg : PricingConfig) (r r₀ : PricingResult)
    (hitems : ∀ i ∈ items, i.Valid) (hfee : 0 ≤ courierFeeAmount.val)
    (hpromo : promo.TwoDecimal) (hcfg : cfg.TwoDecimal)
    (hbound : baseOf items courierFeeAmount ≤ exactBound)
    (hmin : cfg.serviceFeeMinAmount.amount ≤ exactBound)
    (hmax : -exactBound ≤ cfg.serviceFeeMaxAmount.amount)
    (hr : calculateInvoiceTotals items courierFeeAmount (some promo) cfg = .ok r)
    (hr₀ : calculateInvoiceTotals items courierFeeAmount none cfg = .ok r₀)
    (hd : 0 < r.discountAmount.val) :
    r.totalAmount.val ≤ r₀.totalAmount.val ∧ r.itemsNetAmount = r₀.itemsNetAmount ∧
      r.courierFeeAmount = r₀.courierFeeAmount ∧ r.serviceFeeAmount = r₀.serviceFeeAmount ∧
      r.serviceFeeTaxAmount.val = r₀.serviceFeeTaxAmount.val := by
  have hpos := base_pos_of_discount_pos hitems hfee hpromo hr hd
  have hbase := ExactInputs.halalas_base hitems hfee hbound
  -- both runs are exact
  have hdiscount : ∀ y, computeDiscount
      (discountableOf (items.map PricingItem.net) courierFeeAmount.amount) (some promo) = .ok y →
        ∃ n, y.Halalas n ∧ 0 ≤ n ∧ n ≤ baseOf items courierFeeAmount := by
    have hreturned := returned_of_calculateInvoiceTotals hr
    intro y hy
    have hy' := hreturned.discount
    rw [hreturned.base_eq hitems hfee hbound, hy] at hy'
    obtain rfl := Except.ok.inj hy'
    obtain ⟨d, n, hn, hmin⟩ := exists_of_computeDiscount hpromo hy
    have hy : r.discountAmount.Halalas _ := hmin ▸ hn.min hbase
    rw [show r.discountAmount.val = _ from hy] at hd
    have hd' : (0 : ℚ) < (Min.min n (baseOf items courierFeeAmount) : ℤ) := by linarith
    exact ⟨_, hy, (Int.cast_pos.mp hd').le, min_le_right _ _⟩
  have hdiscount₀ : ∀ y, computeDiscount
      (discountableOf (items.map PricingItem.net) courierFeeAmount.amount) none = .ok y →
        ∃ n, y.Halalas n ∧ 0 ≤ n ∧ n ≤ baseOf items courierFeeAmount := by
    intro y hy
    obtain rfl := Except.ok.inj hy
    exact ⟨0, halalas_cents 0, le_rfl, hpos.le⟩
  obtain ⟨service, discount, shares, c, h⟩ := (calculateInvoiceTotals_outcome
    (exactInputs_of_twoDecimal hitems hfee hcfg hpos hbound hmin hmax hdiscount)).of_eq_ok hr
  obtain ⟨service₀, discount₀, shares₀, c₀, h₀⟩ := (calculateInvoiceTotals_outcome
    (exactInputs_of_twoDecimal hitems hfee hcfg hpos hbound hmin hmax hdiscount₀)).of_eq_ok hr₀
  have hd' : r.discountAmount.Halalas discount := h.priced.discount
  have hdpos : 0 < discount := by
    rw [show r.discountAmount.val = _ from hd'] at hd
    have hcast : (0 : ℚ) < discount := by linarith
    exact_mod_cast hcast
  obtain rfl : discount₀ = 0 := by
    have hzero : r₀.discountAmount = zero := (Except.ok.inj h₀.discount_eq).symm
    have hd₀ : r₀.discountAmount.Halalas discount₀ := h₀.priced.discount
    rw [hzero] at hd₀
    exact hd₀.unique (halalas_cents 0)
  obtain ⟨rfl, rfl⟩ := h₀.allocated.eq_zero
  -- the service fee is computed on the same base
  have hservice : r.serviceFeeAmount = r₀.serviceFeeAmount :=
    Except.ok.inj (h.service_eq.symm.trans h₀.service_eq)
  have hs : r.serviceFeeAmount.Halalas service := by simpa [Legs.invoice] using h.priced.serviceFee
  have hs₀ : r₀.serviceFeeAmount.Halalas service₀ := by
    simpa [Legs.invoice] using h₀.priced.serviceFee
  obtain rfl : service = service₀ := hs.unique (hservice ▸ hs₀)
  refine ⟨?_, h.itemsNet_eq.trans h₀.itemsNet_eq.symm, h.courierFee_eq.trans h₀.courierFee_eq.symm,
    hservice, ?_⟩
  · -- the taxes grow by at most the discount
    have htax := h.allocated.tax_le hitems hcfg.vatRate_nonneg hcfg.vatRate_le hdpos
      (ExactInputs.amount_nonneg hfee) rfl h.discount_le hbound fun n hn =>
        share_shareOf hd' hbase hdpos hpos (ExactInputs.net_pos hitems n hn)
    have htotal := h.priced.total
    have htotal₀ := h₀.priced.total
    rw [Legs.total_invoice, legs_map_net h.length_eq] at htotal
    rw [Legs.total_invoice, legs_map_net h₀.length_eq] at htotal₀
    rw [show r.totalAmount.val = _ from htotal, show r₀.totalAmount.val = _ from htotal₀]
    rw [div_le_div_iff_of_pos_right (by norm_num), Int.cast_le, List.map_map]
    change _ ≤ (items.map PricingItem.net).sum + _ + _ - _ +
      (((legs items (items.map fun _ => 0)).map PricedLeg.tax).sum + _)
    rw [sub_zero courierFeeAmount.amount]
    omega
  · have htax := h.priced.serviceFeeTax
    have htax₀ := h₀.priced.serviceFeeTax
    exact htax.trans htax₀.symm

end

/-- A gift of 100.00 and a courier fee of 50.00, with a promo of 10.00. -/
theorem calculateInvoiceTotals_promo_le_welcome : ∃ r r₀,
    calculateInvoiceTotals [giftLine 10000 1500] (cents 5000)
      (some (PromoService.toPricingPromo (fixedPromo 1000))) (plainConfig 500 1500) = .ok r ∧
    calculateInvoiceTotals [giftLine 10000 1500] (cents 5000) none (plainConfig 500 1500) =
      .ok r₀ ∧
    r.totalAmount.val ≤ r₀.totalAmount.val ∧ r.itemsNetAmount = r₀.itemsNetAmount ∧
      r.courierFeeAmount = r₀.courierFeeAmount ∧ r.serviceFeeAmount = r₀.serviceFeeAmount ∧
      r.serviceFeeTaxAmount.val = r₀.serviceFeeTaxAmount.val := by
  obtain ⟨r, hr, hd⟩ : ∃ r, calculateInvoiceTotals [giftLine 10000 1500] (cents 5000)
      (some (PromoService.toPricingPromo (fixedPromo 1000))) (plainConfig 500 1500) = .ok r ∧
      0 < r.discountAmount.coeff := ⟨_, rfl, by decide⟩
  obtain ⟨r₀, hr₀⟩ : ∃ r₀, calculateInvoiceTotals [giftLine 10000 1500] (cents 5000) none
      (plainConfig 500 1500) = .ok r₀ := ⟨_, rfl⟩
  refine ⟨r, r₀, hr, hr₀, calculateInvoiceTotals_promo_le _ _ _ _ r r₀ ?_ ?_
    (fixedPromo_twoDecimal 1000) (plainConfig_twoDecimal 500 1500) ?_ ?_ ?_ hr hr₀
    (coeff_pos.mp hd)⟩
  · simpa using giftLine_valid (by norm_num) (by norm_num) (by norm_num)
  · rw [val_cents]
    norm_num
  · norm_num [baseOf]
  · norm_num [plainConfig]
  · norm_num [plainConfig]

/-- Without any fee, and with room for a total that needs more than 28 digits. -/
def feelessConfig : PricingConfig where
  serviceFeeRate := ⟨0, 0⟩
  serviceFeeMinAmount := .cents 0
  serviceFeeMaxAmount := .cents 0
  defaultVatRate := ⟨0, 0⟩
  maxInvoiceAmount := ⟨1, 27⟩

/-- The configuration without a fee has two decimals. -/
theorem feelessConfig_twoDecimal : feelessConfig.TwoDecimal where
  feeRate_nonneg := by norm_num [feelessConfig, Dec.val]
  feeRate_le := by norm_num [feelessConfig, Dec.val]
  vatRate_nonneg := by norm_num [feelessConfig, Dec.val]
  vatRate_le := by norm_num [feelessConfig, Dec.val]
  feeMin := ⟨0, halalas_cents 0⟩
  feeMax := ⟨0, halalas_cents 0⟩

/-- Four gifts of 28 digits each: the promo moves the rounding of the total up. -/
theorem calculateInvoiceTotals_promo_dearer : ∃ items promo r r₀,
    (∀ i ∈ items, PricingItem.Valid i) ∧ PricingPromo.TwoDecimal promo ∧
      feelessConfig.TwoDecimal ∧
      calculateInvoiceTotals items (cents 0) (some promo) feelessConfig = .ok r ∧
      calculateInvoiceTotals items (cents 0) none feelessConfig = .ok r₀ ∧
      0 < r.discountAmount.val ∧ r₀.totalAmount.val < r.totalAmount.val := by
  have hitems : ∀ i ∈ List.replicate 3 (giftLine 5000000000000000000000000010 0) ++
      [giftLine 5000000000000000000000000010 5000], i.Valid := by
    intro i hi
    rcases List.mem_append.mp hi with hrest | hlast
    · obtain rfl := List.eq_of_mem_replicate hrest
      exact giftLine_valid (by norm_num) (by norm_num) (by norm_num)
    · obtain rfl := List.mem_singleton.mp hlast
      exact giftLine_valid (by norm_num) (by norm_num) (by norm_num)
  refine ⟨_, _, _, _, hitems, fixedPromo_twoDecimal 2, feelessConfig_twoDecimal, rfl, rfl, ?_, ?_⟩
  · exact coeff_pos.mp (by decide)
  · exact of_decide_eq_true ((Dec.lt_eq _ _).symm.trans (by decide))

end Giftly
