import Giftly.Pricing.Promos

/-!
# The settlement of a priced invoice

`compute_settlement` pays the courier on the base before the discount and leaves the platform the
rest of the total. The amounts of a priced invoice are whole whenever those of its promo and of the
bounds of the service fee are, so the rest is the service fee and the commission less the discount,
and it is the payout of the same invoice without the promo.
-/

namespace Giftly

open Dec

/-- `compute_settlement` on a priced invoice. -/
def PricingResult.settle (r : PricingResult) (commissionRate : Dec) : Except Err Settlement :=
  computeSettlement r.itemsNetAmount r.courierFeeAmount r.taxAmount r.totalAmount commissionRate

/-- The amounts that make up the total have at most twenty-four digits. -/
structure PricingResult.Moderate (r : PricingResult) : Prop where
  itemsNet : |r.itemsNetAmount.amount| ≤ exactBound
  courierFee : |r.courierFeeAmount.amount| ≤ exactBound
  serviceFee : |r.serviceFeeAmount.amount| ≤ exactBound
  discount : |r.discountAmount.amount| ≤ exactBound
  tax : |r.taxAmount.amount| ≤ exactBound

/-- The amounts that make up the total are whole, and the total is their sum. -/
structure PricingResult.Whole (r : PricingResult) : Prop where
  itemsNet : r.itemsNetAmount.Halalas r.itemsNetAmount.amount
  courierFee : r.courierFeeAmount.Halalas r.courierFeeAmount.amount
  serviceFee : r.serviceFeeAmount.Halalas r.serviceFeeAmount.amount
  discount : r.discountAmount.Halalas r.discountAmount.amount
  tax : r.taxAmount.Halalas r.taxAmount.amount
  total : r.totalAmount.Halalas (r.itemsNetAmount.amount + r.courierFeeAmount.amount +
    r.serviceFeeAmount.amount - r.discountAmount.amount + r.taxAmount.amount)

/-- A whole number of halalas is that of its amount. -/
theorem Dec.Halalas.amount_self {x : Dec} (h : ∃ n, x.Halalas n) : x.Halalas x.amount := by
  obtain ⟨n, hn⟩ := h
  rwa [hn.amount_eq]

/-- A service fee between two-decimal bounds is whole. -/
theorem exists_halalas_of_computeServiceFee {b y : Dec} {cfg : PricingConfig}
    (hmin : ∃ n, cfg.serviceFeeMinAmount.Halalas n) (hmax : ∃ n, cfg.serviceFeeMaxAmount.Halalas n)
    (h : computeServiceFee b cfg = .ok y) : ∃ n, y.Halalas n := by
  obtain ⟨m, hm⟩ := hmin
  obtain ⟨M, hM⟩ := hmax
  unfold computeServiceFee at h
  split_ifs at h
  · obtain rfl := Except.ok.inj h
    exact ⟨0, halalas_cents 0⟩
  · obtain ⟨raw, hraw, h⟩ := Store.exists_of_bind_eq_ok h
    obtain rfl := eq_of_quantizeDec hraw
    obtain rfl := Except.ok.inj h
    exact ⟨_, ((halalas_cents _).max hm).min hM⟩

/-- A discount of a two-decimal promo on a whole base is whole. -/
theorem exists_halalas_of_computeDiscount {b y : Dec} {promo : Option PricingPromo}
    (hpromo : ∀ p ∈ promo, p.TwoDecimal) (hb : ∃ n, b.Halalas n)
    (h : computeDiscount b promo = .ok y) : ∃ n, y.Halalas n := by
  cases promo with
  | none =>
    obtain rfl := Except.ok.inj h
    exact ⟨0, halalas_cents 0⟩
  | some p =>
    obtain ⟨base, hbase⟩ := hb
    obtain ⟨d, n, hn, rfl⟩ := exists_of_computeDiscount (hpromo p rfl) h
    exact ⟨_, hn.min hbase⟩

section

variable {items : List PricingItem} {courierFeeAmount : Dec} {promo : Option PricingPromo}
  {cfg : PricingConfig} {r : PricingResult}

/-- The amounts of a result are whole when the promo and the fee bounds are. -/
theorem Returned.whole (h : Returned items courierFeeAmount promo cfg r)
    (hpromo : ∀ p ∈ promo, p.TwoDecimal) (hmin : ∃ n, cfg.serviceFeeMinAmount.Halalas n)
    (hmax : ∃ n, cfg.serviceFeeMaxAmount.Halalas n) (hr : r.Moderate) : r.Whole := by
  obtain ⟨lineNets, hnets, hitemsNet⟩ := h.itemsNet
  have hN : r.itemsNetAmount.Halalas r.itemsNetAmount.amount := by
    apply Halalas.amount_self
    rw [hitemsNet]
    refine exists_halalas_foldl (fun x hx => ?_) ⟨0, halalas_cents 0⟩
    obtain ⟨i, -, hi⟩ := Store.exists_of_forall₂_right (Store.forall₂_of_mapM_eq_ok hnets) hx
    exact ⟨_, eq_of_quantizeDec hi ▸ halalas_cents _⟩
  have hf : r.courierFeeAmount.Halalas r.courierFeeAmount.amount :=
    Halalas.amount_self ⟨_, eq_of_quantizeDec h.courierFee ▸ halalas_cents _⟩
  have hb := hN.add_inContext hf
  have hs := Halalas.amount_self (exists_halalas_of_computeServiceFee hmin hmax h.serviceFee)
  have hd := Halalas.amount_self (exists_halalas_of_computeDiscount hpromo ⟨_, hb⟩ h.discount)
  have ht : r.taxAmount.Halalas r.taxAmount.amount := by
    apply Halalas.amount_self
    obtain ⟨c, hc⟩ := h.courierFeeTax
    obtain ⟨s, hs⟩ := h.serviceFeeTax
    obtain ⟨l, hl⟩ : ∃ l, (sumDec (r.lines.map (·.lineTaxAmount))).Halalas l := by
      refine exists_halalas_foldl (fun x hx => ?_) ⟨0, halalas_cents 0⟩
      obtain ⟨line, hline, rfl⟩ := List.mem_map.mp hx
      obtain ⟨n, hn⟩ := h.lineTax line hline
      exact ⟨n, hn ▸ halalas_cents n⟩
    rw [h.tax, hc, hs]
    exact ⟨_, hl.add_inContext ((halalas_cents c).add_inContext (halalas_cents s))⟩
  -- below the bound the total is the exact sum
  have hbase := (Within.one hN hr.itemsNet).add (.one hf hr.courierFee) (by decide)
  have hnet := (hbase.add (.one hs hr.serviceFee) (by decide)).sub (.one hd hr.discount) (by decide)
  have htotal := hnet.add (.one ht hr.tax) (by decide)
  rw [← h.netAfterDiscount, ← h.total] at htotal
  exact ⟨hN, hf, hs, hd, ht, htotal.halalas⟩

end

/-- `compute_settlement` in halalas. -/
theorem computeSettlement_eq {itemsNet courierFee tax total rate : Dec} {n f t T : ℤ}
    (hn : itemsNet.Within 1 n) (hf : courierFee.Within 1 f) (ht : tax.Within 1 t)
    (hT : total.Within 5 T) (h0 : 0 ≤ rate.val) (h1 : rate.val ≤ 1) :
    computeSettlement itemsNet courierFee tax total rate =
      .ok ⟨timesRate rate (n + f), n + f - timesRate rate (n + f), t,
        T - t - (n + f - timesRate rate (n + f))⟩ := by
  have hbase := hn.add hf (by decide)
  -- Each amount stays within the context, so its rounding changes nothing.
  have hcommission := (Within.mk (halalas_cents (n + f)) hbase.le).timesRate h0 h1 (by decide)
  have hpayout := (Within.mk (halalas_cents (n + f)) hbase.le).sub hcommission (by decide)
  have hnet := (Within.mk (halalas_cents T) hT.le).sub (.mk (halalas_cents t) ht.le) (by decide)
  have hrevenue := hnet.sub (.mk (halalas_cents _) hpayout.le) (by decide)
  have hrate : quantizeMoney (.finite ((cents (n + f)).mul rate)) = .ok (timesRate rate (n + f)) := by
    rw [Giftly.quantizeMoney_eq]
    exact if_pos (hcommission.lt_limit (by decide))
  unfold computeSettlement
  rw [hbase.halalas.quantizeMoney_eq (hbase.lt_limit (by decide)), Store.ok_bind, hrate,
    Store.ok_bind, hpayout.halalas.quantizeMoney_eq (hpayout.lt_limit (by decide)), Store.ok_bind,
    ht.halalas.quantizeMoney_eq (ht.lt_limit (by decide)), Store.ok_bind,
    hT.halalas.quantizeMoney_eq (hT.lt_limit (by decide)), Store.ok_bind,
    hrevenue.halalas.quantizeMoney_eq (hrevenue.lt_limit (by decide))]
  rfl

namespace PricingResult

variable {r : PricingResult} {rate : Dec}

/-- What a discount is applied to. -/
def base (r : PricingResult) : ℤ := r.itemsNetAmount.amount + r.courierFeeAmount.amount

/-- The settlement of a priced invoice: the commission, the tax and what the courier gets. -/
theorem Whole.settle_eq (h : r.Whole) (hr : r.Moderate) (h0 : 0 ≤ rate.val) (h1 : rate.val ≤ 1) :
    r.settle rate = .ok
      { commissionAmount := timesRate rate r.base
        courierPayoutAmount := r.base - timesRate rate r.base
        taxAmount := r.taxAmount.amount
        platformRevenueAmount :=
          r.serviceFeeAmount.amount + timesRate rate r.base - r.discountAmount.amount } := by
  have hbase := (Within.one h.itemsNet hr.itemsNet).add (.one h.courierFee hr.courierFee) (by decide)
  have hnet := (hbase.add (.one h.serviceFee hr.serviceFee) (by decide)).sub
    (.one h.discount hr.discount) (by decide)
  have htax := Within.one h.tax hr.tax
  have htotal := (hnet.add htax (by decide)).le
  unfold settle
  rw [computeSettlement_eq (.one h.itemsNet hr.itemsNet) (.one h.courierFee hr.courierFee) htax
    ⟨h.total, htotal⟩ h0 h1]
  unfold base
  congr 2
  ring

end PricingResult

/-- The lines and the fee decide the base, whatever the promo is. -/
theorem Returned.base_eq_base {items : List PricingItem} {courierFeeAmount : Dec}
    {promo promo' : Option PricingPromo} {cfg : PricingConfig} {r r' : PricingResult}
    (h : Returned items courierFeeAmount promo cfg r)
    (h' : Returned items courierFeeAmount promo' cfg r') : r.base = r'.base := by
  obtain ⟨nets, hnets, hitemsNet⟩ := h.itemsNet
  obtain ⟨nets', hnets', hitemsNet'⟩ := h'.itemsNet
  obtain rfl := Except.ok.inj (hnets.symm.trans hnets')
  have hfee := Except.ok.inj (h.courierFee.symm.trans h'.courierFee)
  unfold PricingResult.base
  rw [hitemsNet, hitemsNet', hfee]

/-- The settlement of a priced invoice: its parts make up the total, the platform keeps the service
fee and the commission less the discount, and the courier gets what the invoice without the promo
pays. -/
theorem settle_priced (items : List PricingItem) (courierFeeAmount : Dec)
    (promo : Option PricingPromo) (cfg : PricingConfig) (r : PricingResult) (rate : Dec)
    (hr : calculateInvoiceTotals items courierFeeAmount promo cfg = .ok r)
    (hpromo : ∀ p ∈ promo, p.TwoDecimal) (hmin : ∃ n, cfg.serviceFeeMinAmount.Halalas n)
    (hmax : ∃ n, cfg.serviceFeeMaxAmount.Halalas n) (hmoderate : r.Moderate)
    (h0 : 0 ≤ rate.val) (h1 : rate.val ≤ 1) :
    ∃ x, r.settle rate = .ok x ∧
      r.totalAmount.val = (cents x.courierPayoutAmount).val + (cents x.taxAmount).val +
        (cents x.platformRevenueAmount).val ∧
      (cents x.platformRevenueAmount).val =
        r.serviceFeeAmount.val + (cents x.commissionAmount).val - r.discountAmount.val ∧
      (0 ≤ r.itemsNetAmount.val + r.courierFeeAmount.val →
        0 ≤ x.commissionAmount ∧
          (cents x.commissionAmount).val ≤ r.itemsNetAmount.val + r.courierFeeAmount.val ∧
          0 ≤ x.courierPayoutAmount) ∧
      ∀ r₀, calculateInvoiceTotals items courierFeeAmount none cfg = .ok r₀ → r₀.Moderate →
        ∃ x₀, r₀.settle rate = .ok x₀ ∧ x₀.courierPayoutAmount = x.courierPayoutAmount ∧
          x₀.commissionAmount = x.commissionAmount := by
  have hreturned := returned_of_calculateInvoiceTotals hr
  have hwhole := hreturned.whole hpromo hmin hmax hmoderate
  refine ⟨_, hwhole.settle_eq hmoderate h0 h1, ?_, ?_, ?_, ?_⟩
  · -- The three parts add up to the total.
    simp only [val_cents]
    rw [show r.totalAmount.val = _ from hwhole.total]
    unfold PricingResult.base
    push_cast
    ring
  · -- The platform gets the fees, and pays for the discount.
    simp only [val_cents]
    rw [show r.serviceFeeAmount.val = _ from hwhole.serviceFee,
      show r.discountAmount.val = _ from hwhole.discount]
    push_cast
    ring
  · -- The commission is a part of the base, so the payout is too.
    intro hbase
    rw [show r.itemsNetAmount.val = _ from hwhole.itemsNet,
      show r.courierFeeAmount.val = _ from hwhole.courierFee, ← add_div] at hbase ⊢
    have hbase0 : 0 ≤ r.base := by
      have hcast : (0 : ℚ) ≤ ((r.base : ℤ) : ℚ) := by
        unfold PricingResult.base
        push_cast
        linarith
      exact_mod_cast hcast
    have hlimit : r.base.natAbs < limit :=
      ((Within.one hwhole.itemsNet hmoderate.itemsNet).add
        (.one hwhole.courierFee hmoderate.courierFee) (by decide)).lt_limit (by decide)
    have hcommission := timesRate_le h1 hbase0 hlimit
    refine ⟨timesRate_nonneg h0 hbase0, ?_, sub_nonneg.mpr hcommission⟩
    rw [val_cents, div_le_div_iff_of_pos_right (by norm_num)]
    exact_mod_cast hcommission
  · -- Without the promo the base is the same, and so is the payout.
    intro r₀ hr₀ hmoderate₀
    have hreturned₀ := returned_of_calculateInvoiceTotals hr₀
    have hwhole₀ := hreturned₀.whole (fun _ hp => nomatch hp) hmin hmax hmoderate₀
    refine ⟨_, hwhole₀.settle_eq hmoderate₀ h0 h1, ?_, ?_⟩
    · rw [hreturned₀.base_eq_base hreturned]
    · rw [hreturned₀.base_eq_base hreturned]

/-- An amount below the bound is below it as a number. -/
theorem abs_amount_le {x : Dec} {n : ℤ} (hx : x = cents n) (h : |n| ≤ exactBound) :
    |x.amount| ≤ exactBound := by
  rwa [hx, Halalas.amount_cents]

/-- A gift of 100.00 and a courier fee of 50.00 with a promo of 10.00, at a commission of 10%. -/
theorem settle_priced_welcome : ∃ r r₀ x x₀,
    calculateInvoiceTotals [giftLine 10000 1500] (cents 5000)
      (some (PromoService.toPricingPromo (fixedPromo 1000))) (plainConfig 500 1500) = .ok r ∧
    calculateInvoiceTotals [giftLine 10000 1500] (cents 5000) none (plainConfig 500 1500) =
      .ok r₀ ∧
    r.settle ⟨1, -1⟩ = .ok x ∧ r₀.settle ⟨1, -1⟩ = .ok x₀ ∧
    r.totalAmount.val = (cents x.courierPayoutAmount).val + (cents x.taxAmount).val +
      (cents x.platformRevenueAmount).val ∧ x₀.courierPayoutAmount = x.courierPayoutAmount := by
  -- The price with the promo.
  obtain ⟨r, hr, hmoderate⟩ : ∃ r, calculateInvoiceTotals [giftLine 10000 1500] (cents 5000)
      (some (PromoService.toPricingPromo (fixedPromo 1000))) (plainConfig 500 1500) = .ok r ∧
      r.Moderate := by
    refine ⟨_, rfl, ?_⟩
    exact ⟨abs_amount_le (n := 10000) rfl (by norm_num), abs_amount_le (n := 5000) rfl (by norm_num),
      abs_amount_le (n := 500) rfl (by norm_num), abs_amount_le (n := 1000) rfl (by norm_num),
      abs_amount_le (n := 2175) rfl (by norm_num)⟩
  -- The price without it.
  obtain ⟨r₀, hr₀, hmoderate₀⟩ : ∃ r₀, calculateInvoiceTotals [giftLine 10000 1500] (cents 5000) none
      (plainConfig 500 1500) = .ok r₀ ∧ r₀.Moderate := by
    refine ⟨_, rfl, ?_⟩
    exact ⟨abs_amount_le (n := 10000) rfl (by norm_num), abs_amount_le (n := 5000) rfl (by norm_num),
      abs_amount_le (n := 500) rfl (by norm_num), abs_amount_le (n := 0) rfl (by norm_num),
      abs_amount_le (n := 2325) rfl (by norm_num)⟩
  obtain ⟨x, hx, htotal, -, -, hwithout⟩ := settle_priced _ _ _ _ r ⟨1, -1⟩ hr
    (by
      intro p hp
      obtain rfl := Option.some.inj hp
      exact fixedPromo_twoDecimal 1000)
    ⟨500, halalas_cents 500⟩ ⟨1500, halalas_cents 1500⟩ hmoderate (by norm_num [Dec.val])
    (by norm_num [Dec.val])
  obtain ⟨x₀, hx₀, hpayout, -⟩ := hwithout r₀ hr₀ hmoderate₀
  exact ⟨r, r₀, x, x₀, hr, hr₀, hx, hx₀, htotal, hpayout⟩

/-- What the identity needs: a base that is not negative, a two-decimal promo and two-decimal
bounds of the service fee, and amounts that fit the context. -/
theorem settle_priced_limits :
    (∃ r x, calculateInvoiceTotals [giftLine 100 10000, giftLine (-150) 0] (cents 0) none
        feelessConfig = .ok r ∧ r.settle ⟨1, -1⟩ = .ok x ∧
        x.commissionAmount < 0 ∧ x.courierPayoutAmount < 0) ∧
      (∃ r x, calculateInvoiceTotals [giftLine 10000 0] (cents 0)
        (some { PromoService.toPricingPromo (fixedPromo 1) with fixedAmount := some ⟨5, -3⟩ })
        feelessConfig = .ok r ∧ r.settle ⟨1, -1⟩ = .ok x ∧
        r.totalAmount.lt (cents (x.courierPayoutAmount + x.taxAmount + x.platformRevenueAmount))) ∧
      (∃ r x, calculateInvoiceTotals [giftLine 10000 0] (cents 0) none
        { feelessConfig with serviceFeeMinAmount := ⟨5005, -3⟩, serviceFeeMaxAmount := ⟨10, 0⟩ } =
          .ok r ∧ r.settle ⟨1, -1⟩ = .ok x ∧
        r.totalAmount.lt (cents (x.courierPayoutAmount + x.taxAmount + x.platformRevenueAmount))) ∧
      ∃ r, calculateInvoiceTotals (List.replicate 4 (giftLine 5000000000000000000000000010 0))
        (cents 0) none feelessConfig = .ok r ∧ r.settle ⟨1, -1⟩ = .error .invalidOperation := by
  refine ⟨⟨_, _, rfl, rfl, ?_, ?_⟩, ⟨_, _, rfl, rfl, ?_⟩, ⟨_, _, rfl, rfl, ?_⟩, _, rfl, rfl⟩
  · decide
  · decide
  · decide
  · decide

end Giftly
