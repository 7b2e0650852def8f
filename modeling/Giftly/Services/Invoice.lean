import Giftly.Repositories.Invoice
import Giftly.Services.Order

/-!
# The promo engine and the invoice service

`services/promo_service.py` and `services/invoice_service.py`. The courier authors an invoice, the
pricing engine computes it, and the promo is reserved for it. A cancelled invoice returns the promo
slot and reopens the order.
-/

namespace Giftly

open Store (Prog)
open OrderState

namespace PromoService

/-- `to_pricing_promo`. -/
def toPricingPromo (promo : Promo) : PricingPromo where
  discountType := promo.discountType
  percentValue := promo.percentValue.map .cents
  fixedAmount := promo.fixedAmount.map .cents
  maxDiscountAmount := promo.maxDiscountAmount.map .cents
  minOrderAmount := .cents promo.minOrderAmount

/-- `validate`: the promo under a code, when it can be applied to the base, with its discount. -/
def validate (now : Time) (code : Text) (discountableBase : Dec) (userId : Id) :
    Tx ((Id × Promo) × Dec) := do
  match ← PromoRepository.getByCode code with
  | none => .raise .promoNotFound
  | some (promoId, promo) =>
    Prog.require (promo.isActive = true) .promoInactive
    Prog.require (promo.startsAt.all (fun t => t ≤ now) = true) .promoNotStarted
    Prog.require (promo.endsAt.all (fun t => now < t) = true) .promoExpired
    Prog.require (discountableBase.lt (.cents promo.minOrderAmount) = false) .promoMinOrderNotMet
    Prog.require (promo.maxTotalUsages.all (fun n => promo.usedCount < n) = true)
      .promoUsageExceeded
    let userUses ← PromoRepository.countUserRedemptions promoId userId
    Prog.require ((userUses : ℤ) < promo.maxUsagesPerUser) .promoUserLimitReached
    let discount ← Prog.ofExcept (computePromoDiscount discountableBase (toPricingPromo promo))
    return ((promoId, promo), discount)

/-- `reserve`. -/
def reserve (now : Time) (redemptionId promoId : Id) (promo : Promo) (userId invoiceId orderId : Id)
    (discountAmount : ℤ) : Tx Unit := do
  let newCount ← PromoRepository.atomicReserve now promoId
  Prog.require (newCount.isSome = true) .promoUsageExceeded
  let userUses ← PromoRepository.countUserRedemptions promoId userId
  Prog.require ((userUses : ℤ) < promo.maxUsagesPerUser) .promoUserLimitReached
  PromoRepository.insertRedemption redemptionId promoId userId invoiceId orderId discountAmount

/-- `consume`: the reservation of a paid invoice is used up. -/
def consume (now : Time) (invoiceId : Id) : Tx Unit := do
  match ← PromoRepository.getRedemptionByInvoice invoiceId with
  | none => return ()
  | some (id, redemption) =>
    (PromoRepository.setRedemptionStatus id redemption .consumed now).when
      (redemption.status = .reserved)

/-- `release`: the slot of an abandoned invoice returns to the pool. -/
def release (now : Time) (invoiceId : Id) : Tx Unit := do
  match ← PromoRepository.getRedemptionByInvoice invoiceId with
  | none => return ()
  | some (id, redemption) =>
    Prog.when (do
      PromoRepository.setRedemptionStatus id redemption .released now
      let _ ← PromoRepository.atomicRelease redemption.promoId
      return ()) (redemption.status = .reserved)

end PromoService

namespace InvoiceService

/-- `InvoiceLineInput`: one line the courier entered. -/
structure InvoiceLineInput where
  title : Text
  unitPriceAmount : Dec
  quantity : ℤ
  taxRate : Dec
  description : Option Text

/-- `NewInvoiceInput`. The promo code is absent when the source's is empty, and normalized. -/
structure NewInvoiceInput where
  items : List InvoiceLineInput
  courierFeeAmount : Dec
  promoCode : Option Text

/-- `_pricing_config`. -/
def pricingConfig (s : Settings) : PricingConfig where
  serviceFeeRate := s.serviceFeeRate
  serviceFeeMinAmount := s.serviceFeeMinAmount
  serviceFeeMaxAmount := s.serviceFeeMaxAmount
  defaultVatRate := s.defaultVatRate
  maxInvoiceAmount := s.maxInvoiceAmount

/-- The checks of `_validate_items` on one line. -/
def validateItem (s : Settings) (line : InvoiceLineInput) : Except Err Unit := do
  if line.unitPriceAmount.le zero then
    throw (.validationDomain "Each line unit price must be positive.")
  if s.maxItemUnitPrice.lt line.unitPriceAmount then
    throw (.validationDomain "A line unit price exceeds the maximum permitted.")
  if ¬(1 ≤ line.quantity ∧ line.quantity ≤ 999) then
    throw (.validationDomain "Each line quantity must be between 1 and 999.")
  if !(zero.le line.taxRate && line.taxRate.le ⟨1, 0⟩) then
    throw (.validationDomain "Each line tax rate must be between 0 and 1.")

/-- `_validate_items`. -/
def validateItems (s : Settings) (items : List InvoiceLineInput) : Except Err Unit := do
  if items.isEmpty then throw (.validationDomain "An invoice must have at least one line.")
  if s.maxInvoiceItems < items.length then
    throw (.validationDomain s!"An invoice may have at most {s.maxInvoiceItems} lines.")
  items.forM (validateItem s)

/-- The lines as the pricing engine takes them. -/
def pricingItems (items : List InvoiceLineInput) : List PricingItem :=
  items.zipIdx.map fun x =>
    { title := x.1.title
      unitPriceAmount := x.1.unitPriceAmount
      quantity := x.1.quantity.toNat
      taxRate := x.1.taxRate
      description := x.1.description
      position := x.2 + 1 }

/-- `_discountable_base`. -/
def discountableBase (items : List PricingItem) (courierFeeAmount : Dec) : Except Err Dec := do
  let nets ← items.mapM fun i => quantizeDec (i.unitPriceAmount.mul ⟨i.quantity, 0⟩)
  return (sumDec nets).add (← quantizeDec courierFeeAmount)

/-- The ids that the rows of a new invoice get. -/
structure NewIds where
  invoiceId : Id
  redemptionId : Id
  itemId : ℕ → Id

/-- The promo of a new invoice, when a code was given. -/
def promoFor (now : Time) (customerId : Id) (data : NewInvoiceInput) : Tx (Option (Id × Promo)) :=
  match data.promoCode with
  | none => return none
  | some code => do
    let base ← Prog.ofExcept (discountableBase (pricingItems data.items) data.courierFeeAmount)
    let (promo, _) ← PromoService.validate now code base customerId
    return some promo

/-- The reservation of the promo of a new invoice, when there is one. -/
def reservePromo (now : Time) (ids : NewIds) (orderId customerId : Id) (discountAmount : ℤ) :
    Option (Id × Promo) → Tx Unit
  | none => return ()
  | some (promoId, promo) =>
    PromoService.reserve now ids.redemptionId promoId promo customerId ids.invoiceId orderId
      discountAmount

/-- The rows of a new invoice: the `DRAFT`, its lines, the promo reservation, and the issue. -/
def writeInvoice (s : Settings) (now : Time) (ids : NewIds) (orderId courierId customerId : Id)
    (promo : Option (Id × Promo)) (result : PricingResult) : Tx Unit := do
  let invoice := InvoiceRepository.draft orderId courierId result (promo.map (·.1))
    (promo.map (·.2.code))
  InvoiceRepository.createDraft ids.invoiceId invoice
  result.lines.zipIdx.forM fun x => InvoiceRepository.addItem (ids.itemId x.2) ids.invoiceId x.1
  reservePromo now ids orderId customerId (toMoneyColumn result.discountAmount) promo
  InvoiceRepository.issue ids.invoiceId invoice now (now + s.paymentExpiryHours * 3600)

/-- `create_invoice`: the order is read without a lock. -/
def createInvoice (s : Settings) (now : Time) (ids : NewIds) (orderId courierId : Id)
    (data : NewInvoiceInput) : Tx Unit := do
  match ← OrderRepository.getForActor orderId courierId with
  | none => .raise (.notFound "Order not found.")
  | some order =>
    OrderRepository.keep orderId order
    assertTransition order.status .waitingPayment
    let active ← InvoiceRepository.getActiveForOrder orderId
    Prog.require (active.isNone = true) (.conflict "This order already has an active invoice.")
    Prog.ofExcept (validateItems s data.items)
    let promo ← promoFor now order.customerId data
    let result ← Prog.ofExcept (calculateInvoiceTotals (pricingItems data.items)
      data.courierFeeAmount (promo.map fun p => PromoService.toPricingPromo p.2) (pricingConfig s))
    Prog.require (promo.isNone = true ∨ zero.lt result.discountAmount = true)
      (.validationDomain "This promo yields no discount for this invoice.")
    writeInvoice s now ids orderId courierId order.customerId promo result
    OrderRepository.flush now orderId order
      { order with
        status := .waitingPayment, totalAmount := toMoneyColumn result.totalAmount }

/-- The stored lines of an invoice as the pricing engine takes them. -/
def storedItems (items : List InvoiceItem) : List PricingItem :=
  items.map fun t =>
    { title := t.title
      unitPriceAmount := .cents t.unitPriceAmount
      quantity := t.quantity
      taxRate := ⟨t.taxRate, -4⟩
      description := t.description
      position := t.position }

/-- `PromoPreview`: a promo that a customer tries on an invoice. -/
structure PromoPreview where
  code : Text
  discountAmount : Dec
  originalTotalAmount : Dec
  totalAmount : Dec

/-- `preview_promo`: the engine again, over the stored lines of the active invoice. -/
def previewPromo (s : Settings) (now : Time) (orderId : Id) (code : Text) (customerId : Id) :
    Tx PromoPreview := do
  match ← InvoiceRepository.getActiveForOrderForActor orderId customerId with
  | none => .raise (.notFound "No active invoice for this order.")
  | some (invoiceId, invoice) =>
    let items ← InvoiceRepository.listItems invoiceId
    let base ← Prog.ofExcept (discountableBase (storedItems items) (.cents invoice.courierFeeAmount))
    let ((_, promo), _) ← PromoService.validate now code base customerId
    let result ← Prog.ofExcept (calculateInvoiceTotals (storedItems items)
      (.cents invoice.courierFeeAmount) (some (PromoService.toPricingPromo promo)) (pricingConfig s))
    return {
      code := promo.code
      discountAmount := result.discountAmount
      originalTotalAmount := .cents invoice.totalAmount
      totalAmount := result.totalAmount }

/-- `cancel_invoice`. -/
def cancelInvoice (now : Time) (invoiceId courierId : Id) : Tx Unit := do
  match ← InvoiceRepository.lockForCourier invoiceId courierId with
  | none => .raise (.notFound "Invoice not found.")
  | some invoice =>
    Prog.require (invoice.status = .issued)
      (.invalidStateTransition "Only an issued, unpaid invoice can be cancelled.")
    match ← OrderRepository.lock invoice.orderId with
    | none => .raise (.notFound "Order not found.")
    | some order =>
      PromoService.release now invoiceId
      assertTransition order.status .assigned
      OrderRepository.flush now invoice.orderId order
        { order with status := .assigned, totalAmount := 0 }
      InvoiceRepository.flush invoiceId invoice { invoice with status := .cancelled }

end InvoiceService

end Giftly
