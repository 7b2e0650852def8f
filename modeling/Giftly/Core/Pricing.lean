import Giftly.Models

/-!
# The pricing engine

`core/pricing.py`: `calculateInvoiceTotals` computes every leg of an invoice from the courier's
lines, and `computeSettlement` splits a paid total on completion. All arithmetic is `Decimal`
arithmetic in the default context, quantized at the steps at which the source quantizes. The
`breakdown` of a result, an audit record in JSON that no service reads back, is left out.
-/

namespace Giftly

/-- One line the courier entered. -/
structure PricingItem where
  title : Text
  unitPriceAmount : Dec
  quantity : ℕ
  taxRate : Dec
  description : Option Text
  position : ℕ

/-- The promo values needed to compute a discount. -/
structure PricingPromo where
  discountType : PromoDiscountType
  percentValue : Option Dec
  fixedAmount : Option Dec
  maxDiscountAmount : Option Dec
  minOrderAmount : Dec

/-- The business-rule knobs of the engine. -/
structure PricingConfig where
  serviceFeeRate : Dec
  serviceFeeMinAmount : Dec
  serviceFeeMaxAmount : Dec
  defaultVatRate : Dec
  maxInvoiceAmount : Dec

/-- A computed invoice line. -/
structure PricingLine where
  position : ℕ
  title : Text
  description : Option Text
  unitPriceAmount : Dec
  quantity : ℕ
  taxRate : Dec
  lineNetAmount : Dec
  lineDiscountAmount : Dec
  lineTaxableAmount : Dec
  lineTaxAmount : Dec
  lineTotalAmount : Dec

/-- Every computed leg of an invoice. -/
structure PricingResult where
  lines : List PricingLine
  itemsNetAmount : Dec
  courierFeeAmount : Dec
  courierFeeDiscountAmount : Dec
  courierFeeTaxAmount : Dec
  serviceFeeAmount : Dec
  serviceFeeTaxAmount : Dec
  discountAmount : Dec
  netAfterDiscountAmount : Dec
  taxAmount : Dec
  totalAmount : Dec

/-- How a paid invoice's total splits on completion, in halalas. -/
structure Settlement where
  commissionAmount : ℤ
  courierPayoutAmount : ℤ
  taxAmount : ℤ
  platformRevenueAmount : ℤ

/-- `compute_settlement`: the courier is paid on the pre-discount base, and the platform's revenue
is the residue of the total. -/
def computeSettlement (itemsNetAmount courierFeeAmount taxAmount totalAmount commissionRate : Dec) :
    Except Err Settlement := do
  let base ← quantizeMoney (.finite (itemsNetAmount.add courierFeeAmount))
  let commission ← quantizeMoney (.finite ((Dec.cents base).mul commissionRate))
  let courierPayout ← quantizeMoney (.finite ((Dec.cents base).sub (.cents commission)))
  let tax ← quantizeMoney (.finite taxAmount)
  let total ← quantizeMoney (.finite totalAmount)
  let revenue ← quantizeMoney (.finite (((Dec.cents total).sub (.cents tax)).sub
    (.cents courierPayout)))
  return ⟨commission, courierPayout, tax, revenue⟩

/-- The parts of a settlement add up to the total. -/
theorem total_of_computeSettlement {net fee rate : Dec} {tax total : ℤ} {x : Settlement}
    (htax : fitsMoney tax = true) (htotal : fitsMoney total = true)
    (h : computeSettlement net fee (.cents tax) (.cents total) rate = .ok x) :
    x.courierPayoutAmount + x.taxAmount + x.platformRevenueAmount = total := by
  unfold computeSettlement at h
  obtain ⟨base, -, h⟩ := Store.exists_of_bind_eq_ok h
  obtain ⟨commission, -, h⟩ := Store.exists_of_bind_eq_ok h
  obtain ⟨payout, -, h⟩ := Store.exists_of_bind_eq_ok h
  obtain ⟨y, hy, h⟩ := Store.exists_of_bind_eq_ok h
  obtain ⟨z, hz, h⟩ := Store.exists_of_bind_eq_ok h
  obtain ⟨revenue, hr, h⟩ := Store.exists_of_bind_eq_ok h
  obtain rfl := Except.ok.inj h
  obtain ⟨rfl, -⟩ := eq_of_quantizeMoney_money hy
  obtain ⟨rfl, -⟩ := eq_of_quantizeMoney_money hz
  simp only [fitsMoney, decide_eq_true_eq] at htax htotal
  -- The difference fits the context, so that no digit is lost.
  have hlt : (z - y).natAbs < Dec.limit := by
    have : (2 : ℕ) * 10 ^ 12 ≤ Dec.limit := by decide
    omega
  rw [Dec.sub_cents z, Dec.fix_of_lt (x := .cents (z - y)) hlt, Dec.sub_cents] at hr
  obtain ⟨rfl, -⟩ := eq_of_quantizeMoney_fix hr
  dsimp only
  omega

/-- `_compute_service_fee`: the clamped platform fee, zero on an empty base. -/
def computeServiceFee (base : Dec) (cfg : PricingConfig) : Except Err Dec :=
  if base.le zero then .ok zero
  else do
    let raw ← quantizeDec (base.mul cfg.serviceFeeRate)
    return (raw.max cfg.serviceFeeMinAmount).min cfg.serviceFeeMaxAmount

/-- `_compute_discount`: the discount on the discountable base, at most the base. -/
def computeDiscount (discountable : Dec) : Option PricingPromo → Except Err Dec
  | none => .ok zero
  | some promo =>
    match promo.discountType with
    | .percent =>
      match promo.percentValue with
      | none => .error (.pricingIntegrity "A percentage promo needs percent_value.")
      | some percent => do
        let some ratio := (discountable.mul percent).div ⟨100, 0⟩ | .error .invalidOperation
        let d ← quantizeDec ratio
        let d := match promo.maxDiscountAmount with
          | some cap => d.min cap
          | none => d
        return d.min discountable
    | .fixed =>
      match promo.fixedAmount with
      | none => .error (.pricingIntegrity "A fixed promo needs fixed_amount.")
      | some d => .ok (d.min discountable)

/-- `compute_promo_discount`. -/
def computePromoDiscount (discountable : Dec) (promo : PricingPromo) : Except Err Dec :=
  computeDiscount discountable (some promo)

/-- A component's pro-rata share of the discount, `quantize_money(discount * net / discountable)`. -/
def discountShare (discount discountable net : Dec) : Except Err Dec :=
  match (discount.mul net).div discountable with
  | some share => quantizeDec share
  | none => .error .invalidOperation

/-- The last position with a positive net, `0` when there is none. -/
def lastPositive (nets : List Dec) : ℕ :=
  nets.zipIdx.foldl (fun acc x => if zero.lt x.1 then x.2 else acc) 0

/-- `_allocate_discount`: the discount pro rata over the lines and the courier fee. The last
component absorbs the rounding residue. -/
def allocateDiscount (lineNets : List Dec) (courierFeeNet discount discountable : Dec) :
    Except Err (List Dec × Dec) :=
  if discount.le zero || discountable.le zero then .ok (lineNets.map fun _ => zero, zero)
  else do
    let lineAlloc ← lineNets.mapM (discountShare discount discountable)
    let courierAlloc ← if zero.lt courierFeeNet then discountShare discount discountable courierFeeNet
      else .ok zero
    let residue := discount.sub ((sumDec lineAlloc).add courierAlloc)
    if residue.eq zero then return (lineAlloc, courierAlloc)
    else if zero.lt courierFeeNet then return (lineAlloc, courierAlloc.add residue)
    else return (lineAlloc.modify (lastPositive lineNets) (·.add residue), courierAlloc)

/-- Step 8 of the engine for one line: the tax on the discounted base. -/
def priceLine (idx : ℕ) (item : PricingItem) (net alloc : Dec) : Except Err PricingLine := do
  let taxable := net.sub alloc
  let lineTax ← quantizeDec (taxable.mul item.taxRate)
  let unitPrice ← quantizeDec item.unitPriceAmount
  return {
    position := if item.position = 0 then idx + 1 else item.position
    title := item.title
    description := item.description
    unitPriceAmount := unitPrice
    quantity := item.quantity
    taxRate := item.taxRate
    lineNetAmount := net
    lineDiscountAmount := alloc
    lineTaxableAmount := taxable
    lineTaxAmount := lineTax
    lineTotalAmount := taxable.add lineTax }

/-- `calculate_invoice_totals`: every priced leg of an invoice, with the engine's own assertions. -/
def calculateInvoiceTotals (items : List PricingItem) (courierFeeAmount : Dec)
    (promo : Option PricingPromo) (cfg : PricingConfig) : Except Err PricingResult := do
  let lineNets ← items.mapM fun i => quantizeDec (i.unitPriceAmount.mul ⟨i.quantity, 0⟩)
  let itemsNet := sumDec lineNets
  let courierFeeNet ← quantizeDec courierFeeAmount
  let serviceFee ← computeServiceFee (itemsNet.add courierFeeNet) cfg
  let discountable := itemsNet.add courierFeeNet
  let discount ← computeDiscount discountable promo
  let (lineAlloc, courierAlloc) ← allocateDiscount lineNets courierFeeNet discount discountable
  let lines ← (items.zip (lineNets.zip lineAlloc)).zipIdx.mapM fun x =>
    priceLine x.2 x.1.1 x.1.2.1 x.1.2.2
  let linesTax := sumDec (lines.map (·.lineTaxAmount))
  let courierTaxable := courierFeeNet.sub courierAlloc
  let courierTax ← quantizeDec (courierTaxable.mul cfg.defaultVatRate)
  let serviceTax ← quantizeDec (serviceFee.mul cfg.defaultVatRate)
  let taxAmount := linesTax.add (courierTax.add serviceTax)
  let netAfterDiscount := ((itemsNet.add courierFeeNet).add serviceFee).sub discount
  let totalAmount := netAfterDiscount.add taxAmount
  let totalAlloc := (sumDec lineAlloc).add courierAlloc
  if !totalAlloc.eq discount then
    throw (.pricingIntegrity "Discount allocation does not sum to the discount.")
  let reconstructed := ((sumDec (lines.map (·.lineTotalAmount))).add
    (courierTaxable.add courierTax)).add (serviceFee.add serviceTax)
  if !reconstructed.eq totalAmount then
    throw (.pricingIntegrity "Total does not equal the sum of its legs.")
  if totalAmount.le zero then throw (.pricingIntegrity "Invoice total must be positive.")
  if cfg.maxInvoiceAmount.lt totalAmount then
    throw (.pricingIntegrity "Invoice total exceeds the maximum permitted.")
  return {
    lines
    itemsNetAmount := itemsNet
    courierFeeAmount := courierFeeNet
    courierFeeDiscountAmount := courierAlloc
    courierFeeTaxAmount := courierTax
    serviceFeeAmount := serviceFee
    serviceFeeTaxAmount := serviceTax
    discountAmount := discount
    netAfterDiscountAmount := netAfterDiscount
    taxAmount
    totalAmount }

end Giftly
