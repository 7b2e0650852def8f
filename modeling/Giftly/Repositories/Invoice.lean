import Giftly.Core.Pricing
import Giftly.Statements
import Mathlib.Data.List.Sort

/-!
# Invoices and promos

`repositories/invoice_repository.py` and `repositories/promo_repository.py`. An invoice is stored
as the pricing engine computed it, as a `DRAFT` that its lines are attached to, and is then issued.
The caller's promo code is taken in its normalized form.
-/

namespace Giftly

open Store (Prog)

namespace InvoiceRepository

/-- The `DRAFT` row of a pricing result. -/
def draft (orderId courierId : Id) (result : PricingResult) (promoId : Option Id)
    (promoCodeSnapshot : Option Text) : Invoice where
  orderId := orderId
  issuedByCourierId := courierId
  status := .draft
  itemsNetAmount := toMoneyColumn result.itemsNetAmount
  courierFeeAmount := toMoneyColumn result.courierFeeAmount
  serviceFeeAmount := toMoneyColumn result.serviceFeeAmount
  discountAmount := toMoneyColumn result.discountAmount
  netAfterDiscountAmount := toMoneyColumn result.netAfterDiscountAmount
  taxAmount := toMoneyColumn result.taxAmount
  totalAmount := toMoneyColumn result.totalAmount
  promoId := promoId
  promoCodeSnapshot := promoCodeSnapshot
  paymentMethod := none
  amountFromWallet := 0
  amountFromGateway := 0
  expiresAt := none
  issuedAt := none
  paidAt := none
  receiptEmailSentAt := none

/-- The constraints on an invoice row as a whole: its columns and the index over the active
invoices. -/
def checkRow (id : Id) (d : Db) (i : Invoice) : Option Err :=
  i.check.or (if i.soleActive d id then none else some (.integrity .uqInvoicesOneActivePerOrder))

/-- `create_draft`. -/
def createDraft (id : Id) (invoice : Invoice) : Tx Unit :=
  insertRow [.invoice id, .activeInvoice invoice.orderId] (·.invoices.get? id)
    (Db.insertInvoice id invoice) fun d =>
      if (d.orders.get? invoice.orderId).isSome && (d.users.get? invoice.issuedByCourierId).isSome &&
          (invoice.promoId.all fun p => (d.promos.get? p).isSome) then checkRow id d invoice
      else some (.integrity .foreignKey)

/-- The flush of an invoice, from its instance before and after the request's changes. -/
def flush (id : Id) (loaded assigned : Invoice) : Tx Unit :=
  if assigned = loaded then .ret ()
  else updateRow [.invoice id] (·.invoices.get? id) (Db.updateInvoice id) (loaded.assign assigned)
    (checkRow id)

/-- `issue`. -/
def issue (id : Id) (invoice : Invoice) (issuedAt expiresAt : Time) : Tx Unit :=
  flush id invoice
    { invoice with status := .issued, issuedAt := some issuedAt, expiresAt := some expiresAt }

/-- A rate written to a `NUMERIC(6, 4)` column, in ten-thousandths. -/
def toRateColumn (x : Dec) : ℤ :=
  if -4 ≤ x.exp then x.scaled (-4) else Dec.divHalfUp x.coeff (-4 - x.exp).toNat

/-- `add_item`. -/
def addItem (id invoiceId : Id) (line : PricingLine) : Tx Unit :=
  let item : InvoiceItem :=
    { invoiceId
      position := line.position
      title := line.title
      description := line.description
      unitPriceAmount := toMoneyColumn line.unitPriceAmount
      quantity := line.quantity
      taxRate := toRateColumn line.taxRate
      lineNetAmount := toMoneyColumn line.lineNetAmount
      lineDiscountAmount := toMoneyColumn line.lineDiscountAmount
      lineTaxableAmount := toMoneyColumn line.lineTaxableAmount
      lineTaxAmount := toMoneyColumn line.lineTaxAmount
      lineTotalAmount := toMoneyColumn line.lineTotalAmount }
  insertRow [.item id] (·.items.get? id) (Db.insertItem id item) fun d =>
    if (d.items.find? fun _ t => t.invoiceId = invoiceId && t.position = line.position).isSome then
      some (.integrity .uqInvoiceItemPosition)
    else item.check

/-- `get_for_actor`: an invoice of an order of which the actor is the customer or the courier. -/
def getForActor (invoiceId actorId : Id) : Tx (Option Invoice) :=
  Prog.query fun d => (d.invoices.get? invoiceId).filter fun i =>
    (d.orders.get? i.orderId).any fun o => o.customerId = actorId || o.courierId = some actorId

/-- The caller keeps an invoice that it read. -/
def keep (invoiceId : Id) (invoice : Invoice) : Tx Unit :=
  .orm (fun m => m.setInvoice invoiceId (some invoice)) fun _ => .ret ()

/-- `get_active_for_order`. -/
def getActiveForOrder (orderId : Id) : Tx (Option (Id × Invoice)) :=
  Prog.query fun d => d.invoices.find? fun _ i => i.orderId = orderId && i.status.active

/-- `get_active_for_order_for_actor`: the active invoice of an order that the actor takes part in. -/
def getActiveForOrderForActor (orderId actorId : Id) : Tx (Option (Id × Invoice)) :=
  Prog.query fun d => d.invoices.find? fun _ i => i.orderId = orderId && i.status.active &&
    (d.orders.get? i.orderId).any fun o => o.customerId = actorId || o.courierId = some actorId

/-- `lock`. -/
def lock (invoiceId : Id) : Tx (Option Invoice) :=
  .lock (fun d => (d.invoices.get? invoiceId).map fun _ => .invoice invoiceId) fun d =>
    .ret (d.invoices.get? invoiceId)

/-- `lock_for_courier`: only an invoice that the courier issued. -/
def lockForCourier (invoiceId courierId : Id) : Tx (Option Invoice) :=
  let find := fun d : Db =>
    (d.invoices.get? invoiceId).filter fun i => i.issuedByCourierId = courierId
  .lock (fun d => (find d).map fun _ => .invoice invoiceId) fun d => .ret (find d)

/-- `list_items`: the lines of an invoice in the order of their positions. -/
def listItems (invoiceId : Id) : Tx (List InvoiceItem) :=
  Prog.query fun d => ((d.items.rows.map Prod.snd).filter fun t =>
    t.invoiceId = invoiceId).insertionSort fun a b => a.position ≤ b.position

/-- `list_expired_issued`: the `ISSUED` invoices whose expiry has passed, oldest first. -/
def listExpiredIssued (now : Time) (limit : ℕ) : Tx (List Id) :=
  Prog.query fun d => (((d.invoices.rows.filter fun r =>
    r.2.status = .issued && (r.2.expiresAt.any fun t => t < now)).insertionSort fun a b =>
      a.2.expiresAt.getD 0 ≤ b.2.expiresAt.getD 0).take limit).map Prod.fst

end InvoiceRepository

namespace PromoRepository

/-- `get_by_code`. -/
def getByCode (code : Text) : Tx (Option (Id × Promo)) :=
  Prog.query fun d => d.promos.find? fun _ p => p.code = code

/-- The condition of the atomic claim of a slot. -/
def claimable (now : Time) (p : Promo) : Bool :=
  p.isActive && (p.startsAt.all fun t => t ≤ now) && (p.endsAt.all fun t => now < t) &&
    (p.maxTotalUsages.all fun n => p.usedCount < n)

/-- A conditional `UPDATE` of a promo's counter, by `delta`. The row is locked when it meets the
condition, which is evaluated again on the row that the lock was granted on. -/
def updateCounter (promoId : Id) (cond : Promo → Bool) (delta : ℤ) : Tx (Option ℤ) :=
  let find := fun d : Db => (d.promos.get? promoId).filter cond
  .lock (fun d => (find d).map fun _ => .promo promoId) fun d =>
    match find d with
    | none => .ret none
    | some p => do
      updateRow [.promo promoId] (·.promos.get? promoId) (Db.updatePromo promoId)
        (fun p => { p with usedCount := p.usedCount + delta }) fun _ p => p.check
      return some (p.usedCount + delta)

/-- `atomic_reserve`: claim one usage slot, or none. -/
def atomicReserve (now : Time) (promoId : Id) : Tx (Option ℤ) :=
  updateCounter promoId (claimable now) 1

/-- `atomic_release`: return one usage slot. -/
def atomicRelease (promoId : Id) : Tx (Option ℤ) :=
  updateCounter promoId (fun p => 0 < p.usedCount) (-1)

/-- `count_user_redemptions`. -/
def countUserRedemptions (promoId userId : Id) : Tx ℕ :=
  Prog.query fun d => d.redemptions.count fun _ r =>
    r.promoId = promoId && r.userId = userId && r.status ≠ .released

/-- `insert_redemption`. -/
def insertRedemption (id promoId userId invoiceId orderId : Id) (discountAmount : ℤ) : Tx Unit :=
  let redemption : PromoRedemption :=
    { promoId, userId, invoiceId, orderId, discountAmount, status := .reserved
      consumedAt := none, releasedAt := none }
  insertRow [.redemption id] (·.redemptions.get? id) (Db.insertRedemption id redemption) fun d =>
    if (d.redemptions.find? fun _ r => r.promoId = promoId && r.invoiceId = invoiceId).isSome then
      some (.integrity .uqPromoRedemptionInvoice)
    else redemption.check

/-- `get_redemption_by_invoice`. -/
def getRedemptionByInvoice (invoiceId : Id) : Tx (Option (Id × PromoRedemption)) :=
  Prog.query fun d => d.redemptions.find? fun _ r => r.invoiceId = invoiceId

/-- `set_redemption_status`. -/
def setRedemptionStatus (id : Id) (redemption : PromoRedemption) (status : PromoRedemptionStatus)
    (when : Time) : Tx Unit :=
  updateRow [.redemption id] (·.redemptions.get? id) (Db.updateRedemption id)
    (redemption.assign { redemption with
      status := status
      consumedAt := if status = .consumed then some when else redemption.consumedAt
      releasedAt := if status = .released then some when else redemption.releasedAt })
    fun _ r => r.check

end PromoRepository

end Giftly
