import Giftly.Pricing.Engine
import Giftly.Services.Invoice

/-!
# The stored arithmetic of an invoice

What the engine returns is stored as it is, and the constraints of the tables repeat its arithmetic:
`chk_invoice_net_math`, `chk_invoice_total_math` and `chk_item_line_math`. Below `exactBound` the
engine's sums are exact, so the rows meet them, and neither of its assertions about sums fails.
-/

namespace Giftly

open Dec
open Store (Outcome)

/-- `chk_promo_value_by_type`. -/
def Promo.valueByType (p : Promo) : Bool :=
  (p.discountType = .percent && p.fixedAmount.isNone &&
    p.percentValue.any fun v => 0 < v && v ≤ 10000) ||
  (p.discountType = .fixed && p.percentValue.isNone && p.fixedAmount.any fun v => 0 < v)

/-- A promo that the table admits, with a cap that is not negative, is one for the engine. -/
theorem Promo.valid_toPricingPromo {p : Promo} (h : p.valueByType = true)
    (hcap : ∀ n ∈ p.maxDiscountAmount, 0 ≤ n) : (PromoService.toPricingPromo p).Valid := by
  unfold valueByType at h
  simp only [Bool.or_eq_true, Bool.and_eq_true, decide_eq_true_eq, Option.any_eq_true] at h
  constructor
  · intro htype
    -- A percentage has a value that is positive.
    rcases h with ⟨-, v, hv, hpos, -⟩ | ⟨⟨hfixed, -⟩, -⟩
    · refine ⟨cents v, ?_, ?_⟩
      · simp [PromoService.toPricingPromo, hv]
      · rw [val_cents]
        have : (0 : ℚ) < v := by exact_mod_cast hpos
        positivity
    · cases htype.symm.trans hfixed
  · intro htype
    rcases h with ⟨⟨hpercent, -⟩, -⟩ | ⟨-, v, hv, hpos⟩
    · -- A fixed promo is no percentage.
      cases htype.symm.trans hpercent
    · exact ⟨cents v, v, by simp [PromoService.toPricingPromo, hv], halalas_cents v, hpos⟩
  · intro x hx
    obtain ⟨n, hn, rfl⟩ := Option.map_eq_some_iff.mp hx
    exact ⟨n, halalas_cents n, hcap n hn⟩

namespace InvoiceRepository

/-- The row that `add_item` inserts. -/
def itemRow (invoiceId : Id) (line : PricingLine) : InvoiceItem where
  invoiceId := invoiceId
  position := line.position
  title := line.title
  description := line.description
  unitPriceAmount := toMoneyColumn line.unitPriceAmount
  quantity := line.quantity
  taxRate := toRateColumn line.taxRate
  lineNetAmount := toMoneyColumn line.lineNetAmount
  lineDiscountAmount := toMoneyColumn line.lineDiscountAmount
  lineTaxableAmount := toMoneyColumn line.lineTaxableAmount
  lineTaxAmount := toMoneyColumn line.lineTaxAmount
  lineTotalAmount := toMoneyColumn line.lineTotalAmount

/-- `add_item` inserts its row if the position is free and the constraints hold. -/
theorem addItem_eq (id invoiceId : Id) (line : PricingLine) : addItem id invoiceId line =
    insertRow [.item id] (·.items.get? id) (Db.insertItem id (itemRow invoiceId line)) fun d =>
      if (d.items.find? fun _ t => t.invoiceId = invoiceId && t.position = line.position).isSome then
        some (.integrity .uqInvoiceItemPosition)
      else (itemRow invoiceId line).check := rfl

end InvoiceRepository

open InvoiceRepository

/-- Every amount of a result. -/
def PricingResult.amounts (r : PricingResult) : List Dec :=
  [r.itemsNetAmount, r.courierFeeAmount, r.courierFeeDiscountAmount, r.courierFeeTaxAmount,
    r.serviceFeeAmount, r.serviceFeeTaxAmount, r.discountAmount, r.netAfterDiscountAmount,
    r.taxAmount, r.totalAmount] ++
  r.lines.flatMap fun l => [l.unitPriceAmount, l.lineNetAmount, l.lineDiscountAmount,
    l.lineTaxableAmount, l.lineTaxAmount, l.lineTotalAmount]

/-- The arithmetic of a result and of the rows that store it. -/
structure StoredArithmetic (r : PricingResult) : Prop where
  /-- `chk_invoice_net_math`. -/
  netMath : ∀ orderId courierId promoId code,
    let i := draft orderId courierId r promoId code
    i.netAfterDiscountAmount =
      i.itemsNetAmount + i.courierFeeAmount + i.serviceFeeAmount - i.discountAmount
  /-- `chk_invoice_total_math`. -/
  totalMath : ∀ orderId courierId promoId code,
    let i := draft orderId courierId r promoId code
    i.totalAmount = i.netAfterDiscountAmount + i.taxAmount
  /-- `chk_item_line_math`. -/
  lineMath : ∀ line ∈ r.lines, ∀ invoiceId,
    let t := itemRow invoiceId line
    t.lineNetAmount = t.unitPriceAmount * t.quantity ∧
      t.lineTaxableAmount = t.lineNetAmount - t.lineDiscountAmount ∧
      t.lineTotalAmount = t.lineTaxableAmount + t.lineTaxAmount
  whole : ∀ x ∈ r.amounts, ∃ n, x.Halalas n
  serviceFee_nonneg : 0 ≤ r.serviceFeeAmount.val
  discount_le : r.discountAmount.val ≤ r.itemsNetAmount.val + r.courierFeeAmount.val
  reconstructed : (r.lines.map (·.lineTotalAmount.val)).sum +
      (r.courierFeeAmount.val - r.courierFeeDiscountAmount.val + r.courierFeeTaxAmount.val) +
      (r.serviceFeeAmount.val + r.serviceFeeTaxAmount.val) = r.totalAmount.val

/-- A computed line meets the constraint of its row. -/
theorem PricedLeg.Shows.lineMath {l : PricedLeg} {line : PricingLine} (h : l.Shows line) (invoiceId : Id) :
    let t := itemRow invoiceId line
    t.lineNetAmount = t.unitPriceAmount * t.quantity ∧
      t.lineTaxableAmount = t.lineNetAmount - t.lineDiscountAmount ∧
      t.lineTotalAmount = t.lineTaxableAmount + t.lineTaxAmount := by
  simp only [itemRow, h.unitPrice.toMoneyColumn_eq, h.quantity, h.net.toMoneyColumn_eq,
    h.discount.toMoneyColumn_eq, h.taxable.toMoneyColumn_eq, h.tax.toMoneyColumn_eq,
    h.total.toMoneyColumn_eq]
  exact ⟨rfl, rfl, rfl⟩

/-- The amounts of a computed line are whole numbers of halalas. -/
theorem PricedLeg.Shows.whole {l : PricedLeg} {line : PricingLine} (h : l.Shows line) :
    ∀ x ∈ [line.unitPriceAmount, line.lineNetAmount, line.lineDiscountAmount,
      line.lineTaxableAmount, line.lineTaxAmount, line.lineTotalAmount], ∃ n, x.Halalas n := by
  simp only [List.forall_mem_cons, List.not_mem_nil, false_implies, implies_true, and_true]
  exact ⟨⟨_, h.unitPrice⟩, ⟨_, h.net⟩, ⟨_, h.discount⟩, ⟨_, h.taxable⟩, ⟨_, h.tax⟩, ⟨_, h.total⟩⟩

/-- The totals of the lines, as values. -/
theorem sum_val_of_shows {ls : List PricedLeg} {lines : List PricingLine}
    (h : List.Forall₂ PricedLeg.Shows ls lines) :
    (lines.map (·.lineTotalAmount.val)).sum = ((ls.map PricedLeg.total).sum : ℚ) / 100 := by
  induction h with
  | nil => simp
  | @cons l line ls lines hl _ ih =>
    simp only [List.map_cons, List.sum_cons, ih, Int.cast_add]
    rw [show line.lineTotalAmount.val = l.total / 100 from hl.total]
    ring

/-- A result that shows legs whose shares add up to the discount. -/
theorem Legs.Priced.storedArithmetic {lines : List PricedLeg} {vatRate : Dec}
    {fee courierShare service discount : ℤ} {r : PricingResult}
    (h : (Legs.invoice lines vatRate fee courierShare service discount).Priced r)
    (hsum : (lines.map PricedLeg.share).sum + courierShare = discount) (hservice : 0 ≤ service)
    (hdiscount : discount ≤ (lines.map PricedLeg.net).sum + fee) : StoredArithmetic r := by
  obtain ⟨hlines, hitemsNet, hfee, hfeeDiscount, hfeeTax, hservicefee, hserviceTax, hd, hnet, htax,
    htotal⟩ := h
  rw [Legs.net_invoice] at hnet
  rw [Legs.tax_invoice] at htax
  rw [Legs.total_invoice] at htotal
  simp only [Legs.invoice, PricedLeg.net_one, PricedLeg.tax_one] at hfee hfeeTax hservicefee hserviceTax
  rw [sub_zero] at hserviceTax
  change r.itemsNetAmount.Halalas (lines.map PricedLeg.net).sum at hitemsNet
  change r.discountAmount.Halalas discount at hd
  change r.courierFeeDiscountAmount.Halalas courierShare at hfeeDiscount
  change List.Forall₂ PricedLeg.Shows lines r.lines at hlines
  constructor
  -- The stored columns are the halalas that the legs say.
  case netMath =>
    intro orderId courierId promoId code
    simp only [draft, hnet.toMoneyColumn_eq, hitemsNet.toMoneyColumn_eq, hfee.toMoneyColumn_eq,
      hservicefee.toMoneyColumn_eq, hd.toMoneyColumn_eq]
  case totalMath =>
    intro orderId courierId promoId code
    simp only [draft, htotal.toMoneyColumn_eq, hnet.toMoneyColumn_eq, htax.toMoneyColumn_eq]
  case lineMath =>
    intro line hline invoiceId
    obtain ⟨l, -, hl⟩ := Store.exists_of_forall₂_right hlines hline
    exact hl.lineMath invoiceId
  -- Every amount of the result is a number of halalas.
  case whole =>
    intro x hx
    rcases List.mem_append.mp hx with hhead | hrest
    · simp only [List.mem_cons, List.not_mem_nil, or_false] at hhead
      rcases hhead with rfl | rfl | rfl | rfl | rfl | rfl | rfl | rfl | rfl | rfl
      · exact ⟨_, hitemsNet⟩
      · exact ⟨_, hfee⟩
      · exact ⟨_, hfeeDiscount⟩
      · exact ⟨_, hfeeTax⟩
      · exact ⟨_, hservicefee⟩
      · exact ⟨_, hserviceTax⟩
      · exact ⟨_, hd⟩
      · exact ⟨_, hnet⟩
      · exact ⟨_, htax⟩
      · exact ⟨_, htotal⟩
    · obtain ⟨line, hline, hmem⟩ := List.mem_flatMap.mp hrest
      obtain ⟨l, -, hl⟩ := Store.exists_of_forall₂_right hlines hline
      exact hl.whole x hmem
  case serviceFee_nonneg =>
    rw [show r.serviceFeeAmount.val = service / 100 from hservicefee]
    positivity
  case discount_le =>
    rw [show r.discountAmount.val = discount / 100 from hd,
      show r.itemsNetAmount.val = _ from hitemsNet,
      show r.courierFeeAmount.val = fee / 100 from hfee, ← add_div]
    have hcast : (discount : ℚ) ≤ ((lines.map PricedLeg.net).sum : ℤ) + fee := by exact_mod_cast hdiscount
    linarith
  -- The lines and fees add up to the total, since the shares add up to the discount.
  case reconstructed =>
    rw [sum_val_of_shows hlines, show r.courierFeeAmount.val = fee / 100 from hfee,
      show r.courierFeeDiscountAmount.val = courierShare / 100 from hfeeDiscount,
      show r.courierFeeTaxAmount.val = _ from hfeeTax,
      show r.serviceFeeAmount.val = service / 100 from hservicefee,
      show r.serviceFeeTaxAmount.val = _ from hserviceTax, show r.totalAmount.val = _ from htotal,
      sum_total_eq, ← hsum]
    push_cast
    ring

/-- What the engine computes meets the arithmetic constraints of the tables. -/
theorem Computed.storedArithmetic {items : List PricingItem} {courierFeeAmount : Dec}
    {promo : Option PricingPromo} {cfg : PricingConfig} {r : PricingResult}
    {service discount courierShare : ℤ} {shares : List ℤ}
    (h : Computed items courierFeeAmount promo cfg r service discount shares courierShare)
    (hservice : 0 ≤ service) : StoredArithmetic r := by
  have hsum := h.allocated.sum_eq
  rw [← legs_map_share h.length_eq] at hsum
  have hdiscount := h.discount_le
  unfold baseOf at hdiscount
  rw [← legs_map_net h.length_eq] at hdiscount
  exact h.priced.storedArithmetic hsum hservice hdiscount

/-- Below `exactBound`, the engine raises neither of its errors about sums, and what it returns has
the arithmetic of the tables. -/
theorem calculateInvoiceTotals_storedArithmetic (items : List PricingItem) (courierFeeAmount : Dec)
    (promo : Option Promo) (cfg : PricingConfig) (hne : items ≠ [])
    (hitems : ∀ i ∈ items, i.Valid) (hfee : 0 ≤ courierFeeAmount.val)
    (hpromo : ∀ p ∈ promo, p.valueByType = true ∧ ∀ n ∈ p.maxDiscountAmount, 0 ≤ n)
    (hcfg : cfg.Valid)
    (hbound : baseOf items courierFeeAmount + cfg.serviceFeeMinAmount.amount ≤ exactBound) :
    let x := calculateInvoiceTotals items courierFeeAmount (promo.map PromoService.toPricingPromo) cfg
    x ≠ .error (.pricingIntegrity "Discount allocation does not sum to the discount.") ∧
      x ≠ .error (.pricingIntegrity "Total does not equal the sum of its legs.") ∧
      ∀ r, x = .ok r → StoredArithmetic r := by
  have hvalid : ValidInputs items courierFeeAmount (promo.map PromoService.toPricingPromo) cfg := by
    refine ⟨hne, hitems, hfee, ?_, hcfg, hbound⟩
    intro p hp
    obtain ⟨row, hrow, rfl⟩ := Option.map_eq_some_iff.mp hp
    exact Promo.valid_toPricingPromo (hpromo row hrow).1 (hpromo row hrow).2
  have houtcome := calculateInvoiceTotals_outcome hvalid.exact
  refine ⟨fun h => (houtcome.of_eq_error h).1 rfl, fun h => (houtcome.of_eq_error h).2 rfl, ?_⟩
  intro r hr
  obtain ⟨service, discount, shares, c, hcomputed⟩ := houtcome.of_eq_ok hr
  exact hcomputed.storedArithmetic (hvalid.service_nonneg hcomputed)

/-- One line of a gift, at a price in halalas and a rate in ten-thousandths. -/
def giftLine (price rate : ℤ) : PricingItem where
  title := "Gift".toList
  unitPriceAmount := .cents price
  quantity := 1
  taxRate := ⟨rate, -4⟩
  description := none
  position := 1

/-- The line of a gift is valid. -/
theorem giftLine_valid {price rate : ℤ} (hprice : 0 < price) (h0 : 0 ≤ rate) (h1 : rate ≤ 10000) :
    (giftLine price rate).Valid := by
  have hp : (giftLine price rate).price = price := Halalas.amount_cents price
  have h0' : (0 : ℚ) ≤ rate := by exact_mod_cast h0
  have h1' : (rate : ℚ) ≤ 10000 := by exact_mod_cast h1
  constructor
  case price =>
    rw [hp]
    exact halalas_cents price
  case price_pos => rwa [hp]
  case quantity_pos => exact le_rfl
  case quantity_le => exact Nat.le_of_ble_eq_true rfl
  case rate_nonneg =>
    simp only [giftLine, Dec.val]
    positivity
  case rate_le =>
    simp only [giftLine, Dec.val]
    norm_num
    linarith

/-- The net of a gift is its price. -/
@[simp]
theorem net_giftLine (price rate : ℤ) : (giftLine price rate).net = price := by
  simp [PricingItem.net, PricingItem.price, giftLine]

/-- A configuration without a service fee rate, for small bounds of the fee. -/
def plainConfig (feeMin feeMax : ℤ) : PricingConfig where
  serviceFeeRate := ⟨0, 0⟩
  serviceFeeMinAmount := .cents feeMin
  serviceFeeMaxAmount := .cents feeMax
  defaultVatRate := ⟨15, -2⟩
  maxInvoiceAmount := ⟨50000, 0⟩

/-- The plain configuration is valid. -/
theorem plainConfig_valid {feeMin feeMax : ℤ} (h0 : 0 ≤ feeMin) (h1 : feeMin ≤ feeMax) :
    (plainConfig feeMin feeMax).Valid where
  feeRate_nonneg := by norm_num [plainConfig, Dec.val]
  feeRate_le := by norm_num [plainConfig, Dec.val]
  vatRate_nonneg := by norm_num [plainConfig, Dec.val]
  vatRate_le := by norm_num [plainConfig, Dec.val]
  feeMin := by simp [plainConfig, halalas_cents]
  feeMax := by simp [plainConfig, halalas_cents]
  feeMin_nonneg := by simpa [plainConfig] using h0
  feeMin_le := by simpa [plainConfig] using h1

/-- A promo of a fixed amount, in halalas. -/
def fixedPromo (amount : ℤ) : Promo where
  code := "WELCOME".toList
  discountType := .fixed
  percentValue := none
  fixedAmount := some amount
  maxDiscountAmount := none
  minOrderAmount := 0
  maxTotalUsages := none
  maxUsagesPerUser := 1
  usedCount := 0
  isActive := true
  startsAt := none
  endsAt := none

/-- A fixed promo meets the constraint on its value. -/
theorem fixedPromo_valueByType {amount : ℤ} (h : 0 < amount) :
    (fixedPromo amount).valueByType = true := by
  change (true && true && decide (0 < amount)) = true
  simpa using h

/-- An invoice of two gifts with a fixed promo. -/
theorem validInputs_gifts {price rate amount : ℤ} (hprice : 0 < price) (h0 : 0 ≤ rate)
    (h1 : rate ≤ 10000) (hamount : 0 < amount) (hbound : 2 * price + 500 ≤ exactBound) :
    ValidInputs [giftLine price rate, giftLine price rate] (.cents 0)
      (some (PromoService.toPricingPromo (fixedPromo amount))) (plainConfig 500 1500) where
  nonempty := by simp
  item_valid := by simpa using giftLine_valid hprice h0 h1
  fee_nonneg := by simp
  promo_valid := by
    intro p hp
    obtain rfl := Option.some.inj hp
    exact Promo.valid_toPricingPromo (fixedPromo_valueByType hamount) fun n hn => nomatch hn
  cfg_valid := plainConfig_valid (by norm_num) (by norm_num)
  bound := by
    simp only [baseOf, List.map_cons, List.map_nil, net_giftLine, Halalas.amount_cents,
      plainConfig, List.sum_cons, List.sum_nil]
    omega

/-- An invoice of one gift with a welcome promo. -/
theorem calculateInvoiceTotals_storedArithmetic_welcome :
    let x := calculateInvoiceTotals [giftLine 10000 1500] (.cents 5000)
      (some (PromoService.toPricingPromo (fixedPromo 1000))) (plainConfig 500 1500)
    x ≠ .error (.pricingIntegrity "Discount allocation does not sum to the discount.") ∧
      x ≠ .error (.pricingIntegrity "Total does not equal the sum of its legs.") ∧
      ∀ r, x = .ok r → StoredArithmetic r :=
  calculateInvoiceTotals_storedArithmetic [giftLine 10000 1500] (.cents 5000)
    (some (fixedPromo 1000)) (plainConfig 500 1500) (by simp)
    (by simpa using giftLine_valid (by norm_num) (by norm_num) (by norm_num))
    (by rw [val_cents]; norm_num) (by
      intro p hp
      obtain rfl := Option.some.inj hp
      exact ⟨fixedPromo_valueByType (by norm_num), fun n hn => nomatch hn⟩)
    (plainConfig_valid (by norm_num) (by norm_num))
    (by
      simp only [baseOf, net_giftLine, plainConfig, List.map_cons, List.map_nil,
        Halalas.amount_cents]
      norm_num)

/-- Beyond 28 digits the sum of the legs is rounded, and an admissible invoice is refused. -/
theorem calculateInvoiceTotals_rejects_total :
    (giftLine 8000000000000000000000000005 5000).Valid ∧ (plainConfig 4 500).Valid ∧
      calculateInvoiceTotals [giftLine 8000000000000000000000000005 5000] (.cents 0) none
        (plainConfig 4 500) =
        .error (.pricingIntegrity "Total does not equal the sum of its legs.") :=
  ⟨giftLine_valid (by norm_num) (by norm_num) (by norm_num),
    plainConfig_valid (by norm_num) (by norm_num), rfl⟩

end Giftly
