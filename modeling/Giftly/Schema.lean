import Giftly.Models

/-!
# The schema

The constraints of `models/tables.py` on the modelled tables, and the statements by which a flush
writes rows: an `INSERT` of a new row, and an `UPDATE` of the columns that the session changed. A
column constraint that fails is an `IntegrityError` under the constraint's name; a number or a text
that does not fit its column is a `DataError`.

`Db.Evolves` says what every modelled statement does to the database: it leaves the tables alone
that it does not name, it never removes a row, and it never rewrites the columns of a row that no
function assigns.
-/

namespace Giftly

open Store (Table Prog)

/-- The first error of a list of constraints, each given with whether it holds. -/
def violated (cs : List (Bool × Err)) : Option Err := (cs.find? fun c => !c.1).map Prod.snd

/-- Nothing is violated exactly when every constraint holds. -/
theorem violated_eq_none {cs : List (Bool × Err)} : violated cs = none ↔ ∀ c ∈ cs, c.1 = true := by
  simp [violated, List.find?_eq_none]

/-- A text fits a column of `n` characters. -/
def fitsText (n : ℕ) (t : Option Text) : Bool := (t.getD []).length ≤ n

/-! ## Wallets and the ledger -/

/-- The accounts whose balance may be negative. -/
def WalletType.mayOverdraw : WalletType → Bool
  | .systemGateway | .systemRevenue => true
  | _ => false

/-- The constraints of a wallet row. -/
def Wallet.check (w : Wallet) : Option Err :=
  violated [(fitsMoney w.balance, .data), (fitsMoney w.heldBalance, .data),
    (w.version < 2 ^ 31, .data),
    (w.type.mayOverdraw || (0 ≤ w.balance && 0 ≤ w.heldBalance),
      .integrity .chkBalanceNonNegative)]

/-- What the constraints of a wallet say. -/
theorem Wallet.check_eq_none {w : Wallet} : w.check = none ↔
    fitsMoney w.balance = true ∧ fitsMoney w.heldBalance = true ∧ w.version < 2 ^ 31 ∧
      (w.type.mayOverdraw = true ∨ 0 ≤ w.balance ∧ 0 ≤ w.heldBalance) := by
  simp [check, violated_eq_none]

/-- A wallet row after an `UPDATE` of the columns that the session changed. -/
def Wallet.assign (loaded assigned row : Wallet) : Wallet :=
  { row with
    balance := Giftly.assign loaded.balance assigned.balance row.balance
    heldBalance := Giftly.assign loaded.heldBalance assigned.heldBalance row.heldBalance
    version := Giftly.assign loaded.version assigned.version row.version }

/-- The constraints of a ledger row: its columns and its references. -/
def Transaction.check (d : Db) (t : Transaction) : Option Err :=
  violated [(fitsMoney t.amount, .data), (fitsMoney t.balanceAfter, .data),
    (t.amount ≠ 0, .integrity .chkAmountNonZero),
    ((d.wallets.get? t.walletId).isSome, .integrity .foreignKey),
    (t.referenceOrderId.all fun id => (d.orders.get? id).isSome, .integrity .foreignKey),
    (t.referenceInvoiceId.all fun id => (d.invoices.get? id).isSome, .integrity .foreignKey),
    (t.referenceIntentId.all fun id => (d.intents.get? id).isSome, .integrity .foreignKey)]

/-- What the constraints of a ledger row say, with its foreign keys. -/
theorem Transaction.check_eq_none {d : Db} {t : Transaction} : t.check d = none ↔
    fitsMoney t.amount = true ∧ fitsMoney t.balanceAfter = true ∧ t.amount ≠ 0 ∧
      (d.wallets.get? t.walletId).isSome = true ∧
      (∀ id ∈ t.referenceOrderId, (d.orders.get? id).isSome = true) ∧
      (∀ id ∈ t.referenceInvoiceId, (d.invoices.get? id).isSome = true) ∧
      ∀ id ∈ t.referenceIntentId, (d.intents.get? id).isSome = true := by
  simp [check, violated_eq_none, Option.all_eq_true]

/-- The idempotency keys of ledger rows. -/
def ledgerKeys (ts : List Transaction) : List IdempotencyKey := ts.filterMap (·.idempotencyKey)

/-- The keys of a ledger that was appended to. -/
theorem ledgerKeys_append (ts us : List Transaction) :
    ledgerKeys (ts ++ us) = ledgerKeys ts ++ ledgerKeys us := List.filterMap_append

/-! ## Orders -/

/-- The days of a `CURRENT_DATE` at a time. -/
def today (now : Time) : ℤ := now / 86400

/-- The constraints of an order row, which Postgres evaluates at every write of the row, with the
date of the write. -/
def Order.check (now : Time) (o : Order) : Option Err :=
  violated [(fitsMoney o.totalAmount && fitsMoney o.commissionAmount &&
      fitsMoney o.courierPayoutAmount && fitsText 255 o.cancelledReason, .data),
    (today now ≤ o.deliveryDate && o.deliveryDate ≤ today now + 180,
      .integrity .chkDeliveryDateWindow),
    (0 ≤ o.totalAmount && 0 ≤ o.commissionAmount && 0 ≤ o.courierPayoutAmount,
      .integrity .chkAmountsNonNegative),
    (o.status = .new || o.status = .cancelled || o.courierId.isSome,
      .integrity .chkCourierRequiredAfterAssignment)]

/-- An order row after an `UPDATE` of the columns that the session changed. -/
def Order.assign (loaded assigned row : Order) : Order :=
  { row with
    courierId := Giftly.assign loaded.courierId assigned.courierId row.courierId
    status := Giftly.assign loaded.status assigned.status row.status
    totalAmount := Giftly.assign loaded.totalAmount assigned.totalAmount row.totalAmount
    commissionAmount :=
      Giftly.assign loaded.commissionAmount assigned.commissionAmount row.commissionAmount
    courierPayoutAmount :=
      Giftly.assign loaded.courierPayoutAmount assigned.courierPayoutAmount row.courierPayoutAmount
    assignedAt := Giftly.assign loaded.assignedAt assigned.assignedAt row.assignedAt
    deliveredAt := Giftly.assign loaded.deliveredAt assigned.deliveredAt row.deliveredAt
    completedAt := Giftly.assign loaded.completedAt assigned.completedAt row.completedAt
    cancelledReason := Giftly.assign loaded.cancelledReason assigned.cancelledReason
      row.cancelledReason }

/-- The columns of an order that no modelled function rewrites. -/
def Order.frozen (o : Order) : Id × ℤ := (o.customerId, o.deliveryDate)

/-! ## Invoices -/

/-- An invoice in one of these statuses blocks a second one for its order. -/
def InvoiceStatus.active : InvoiceStatus → Bool
  | .draft | .issued | .paid => true
  | _ => false

/-- The constraints of an invoice row, without the index over all rows. -/
def Invoice.check (i : Invoice) : Option Err :=
  violated [([i.itemsNetAmount, i.courierFeeAmount, i.serviceFeeAmount, i.discountAmount,
      i.netAfterDiscountAmount, i.taxAmount, i.totalAmount, i.amountFromWallet,
      i.amountFromGateway].all fitsMoney && fitsText 32 i.promoCodeSnapshot, .data),
    (0 ≤ i.itemsNetAmount && 0 ≤ i.courierFeeAmount && 0 ≤ i.serviceFeeAmount &&
      0 ≤ i.discountAmount && 0 ≤ i.taxAmount && 0 ≤ i.totalAmount,
      .integrity .chkInvoiceAmountsNonNegative),
    (i.status = .draft || 0 < i.totalAmount, .integrity .chkInvoiceTotalPositive),
    (i.netAfterDiscountAmount = i.itemsNetAmount + i.courierFeeAmount + i.serviceFeeAmount -
      i.discountAmount, .integrity .chkInvoiceNetMath),
    (i.totalAmount = i.netAfterDiscountAmount + i.taxAmount, .integrity .chkInvoiceTotalMath),
    ((i.promoId.isNone && i.discountAmount = 0) || (i.promoId.isSome && 0 < i.discountAmount),
      .integrity .chkInvoicePromoPairing)]

/-- An invoice that was issued meets the constraints in every status. -/
theorem Invoice.check_of_status {i : Invoice} {st : InvoiceStatus} (h : i.check = none)
    (hi : i.status ≠ .draft) : ({ i with status := st } : Invoice).check = none := by
  simp only [check, violated_eq_none, List.forall_mem_cons] at h ⊢
  obtain ⟨h₁, h₂, h₃, h₄⟩ := h
  refine ⟨h₁, h₂, ?_, h₄⟩
  simpa [hi] using Or.inr h₃

/-- The total and the parts of an invoice that meets the constraints. -/
theorem Invoice.total_nonneg {i : Invoice} (h : i.check = none) :
    0 ≤ i.totalAmount ∧ fitsMoney i.amountFromWallet = true := by
  simp only [check, violated_eq_none, List.forall_mem_cons, List.all_cons, Bool.and_eq_true,
    decide_eq_true_eq] at h
  exact ⟨h.2.1.2, h.1.1.2.2.2.2.2.2.2.1⟩

/-- `uq_invoices_one_active_per_order` for one row: an active invoice is the only one of its
order. -/
def Invoice.soleActive (d : Db) (id : Id) (i : Invoice) : Bool :=
  !i.status.active ||
    (d.invoices.find? fun j k => j ≠ id && k.orderId = i.orderId && k.status.active).isNone

/-- An invoice row after an `UPDATE` of the columns that the session changed. -/
def Invoice.assign (loaded assigned row : Invoice) : Invoice :=
  { row with
    status := Giftly.assign loaded.status assigned.status row.status
    paymentMethod := Giftly.assign loaded.paymentMethod assigned.paymentMethod row.paymentMethod
    amountFromWallet :=
      Giftly.assign loaded.amountFromWallet assigned.amountFromWallet row.amountFromWallet
    amountFromGateway :=
      Giftly.assign loaded.amountFromGateway assigned.amountFromGateway row.amountFromGateway
    expiresAt := Giftly.assign loaded.expiresAt assigned.expiresAt row.expiresAt
    issuedAt := Giftly.assign loaded.issuedAt assigned.issuedAt row.issuedAt
    paidAt := Giftly.assign loaded.paidAt assigned.paidAt row.paidAt }

/-- The columns of an invoice that no modelled function rewrites: all but its status, its payment
and its dates. -/
def Invoice.frozen (i : Invoice) : Invoice :=
  { i with
    status := .draft, paymentMethod := none, amountFromWallet := 0, amountFromGateway := 0
    expiresAt := none, issuedAt := none, paidAt := none }

/-- The order of an invoice is a frozen column. -/
theorem Invoice.orderId_of_frozen {i j : Invoice} (h : i.frozen = j.frozen) :
    i.orderId = j.orderId := by
  have := congrArg Invoice.orderId h
  exact this

/-- The total of an invoice is a frozen column. -/
theorem Invoice.totalAmount_of_frozen {i j : Invoice} (h : i.frozen = j.frozen) :
    i.totalAmount = j.totalAmount := by
  have := congrArg Invoice.totalAmount h
  exact this

/-- The constraints of an invoice line. -/
def InvoiceItem.check (t : InvoiceItem) : Option Err :=
  violated [([t.unitPriceAmount, t.lineNetAmount, t.lineDiscountAmount, t.lineTaxableAmount,
      t.lineTaxAmount, t.lineTotalAmount].all fitsMoney && fitsText 120 (some t.title) &&
      fitsText 500 t.description && t.taxRate.natAbs < 10 ^ 6, .data),
    (1 ≤ t.quantity && t.quantity ≤ 999, .integrity .chkItemQuantity),
    (0 < t.unitPriceAmount, .integrity .chkItemUnitPrice),
    (0 ≤ t.taxRate && t.taxRate ≤ 10000, .integrity .chkItemTaxRate),
    (t.lineNetAmount = t.unitPriceAmount * t.quantity &&
      t.lineTaxableAmount = t.lineNetAmount - t.lineDiscountAmount &&
      t.lineTotalAmount = t.lineTaxableAmount + t.lineTaxAmount, .integrity .chkItemLineMath)]

/-! ## Payments, disputes, promos and withdrawals -/

/-- The constraints of a payment intent row, without the index over all rows. -/
def PaymentIntent.check (p : PaymentIntent) : Option Err :=
  violated [(fitsMoney p.amount && fitsText 512 p.streampayPaymentUrl &&
      fitsText 255 p.failureReason, .data),
    (0 < p.amount, .integrity .chkIntentAmountPositive),
    ((p.purpose = .orderInvoice && p.referenceInvoiceId.isSome) ||
      (p.purpose = .walletTopup && p.referenceInvoiceId.isNone),
      .integrity .chkIntentPurposeReference)]

/-- The constraints ask for a positive amount of an intent. -/
theorem PaymentIntent.amount_pos {p : PaymentIntent} (h : p.check = none) : 0 < p.amount := by
  simp only [check, violated_eq_none, List.forall_mem_cons, decide_eq_true_eq] at h
  exact h.2.1

/-- `uq_payment_intents_streampay_link` for one row. -/
def PaymentIntent.soleLink (d : Db) (id : Id) (p : PaymentIntent) : Bool :=
  p.streampayPaymentLinkId.isNone ||
    (d.intents.find? fun j q =>
      j ≠ id && q.streampayPaymentLinkId = p.streampayPaymentLinkId).isNone

/-- A payment intent row after an `UPDATE` of the columns that the session changed. -/
def PaymentIntent.assign (loaded assigned row : PaymentIntent) : PaymentIntent :=
  { row with
    status := Giftly.assign loaded.status assigned.status row.status
    streampayPaymentLinkId := Giftly.assign loaded.streampayPaymentLinkId
      assigned.streampayPaymentLinkId row.streampayPaymentLinkId
    streampayPaymentUrl := Giftly.assign loaded.streampayPaymentUrl assigned.streampayPaymentUrl
      row.streampayPaymentUrl
    paidAt := Giftly.assign loaded.paidAt assigned.paidAt row.paidAt
    failureReason := Giftly.assign loaded.failureReason assigned.failureReason row.failureReason }

/-- The columns of a payment intent that no modelled function rewrites. -/
def PaymentIntent.frozen (p : PaymentIntent) : PaymentIntent :=
  { p with
    status := .new, streampayPaymentLinkId := none, streampayPaymentUrl := none, paidAt := none
    failureReason := none }

/-- The amount of an intent is a frozen column. -/
theorem PaymentIntent.amount_of_frozen {p q : PaymentIntent} (h : p.frozen = q.frozen) :
    p.amount = q.amount := by
  have := congrArg PaymentIntent.amount h
  exact this

/-- `chk_topup_bounds`. -/
def WalletTopup.check (t : WalletTopup) : Option Err :=
  violated [(fitsMoney t.amount, .data),
    (10000 ≤ t.amount && t.amount ≤ 2000000, .integrity .chkTopupBounds)]

/-- The constraints of a dispute row, without the index over all rows. -/
def Dispute.check (s : Dispute) : Option Err := violated [(fitsText 1000 (some s.reason), .data)]

/-- A dispute row after an `UPDATE` of the columns that the session changed. -/
def Dispute.assign (loaded assigned row : Dispute) : Dispute :=
  { row with
    status := Giftly.assign loaded.status assigned.status row.status
    resolutionNote := Giftly.assign loaded.resolutionNote assigned.resolutionNote row.resolutionNote
    resolvedByAdminId :=
      Giftly.assign loaded.resolvedByAdminId assigned.resolvedByAdminId row.resolvedByAdminId
    resolvedAt := Giftly.assign loaded.resolvedAt assigned.resolvedAt row.resolvedAt }

/-- The columns of a dispute that no modelled function rewrites. -/
def Dispute.frozen (s : Dispute) : Id × Id × Text := (s.orderId, s.raisedByUserId, s.reason)

/-- `chk_promo_usage_bounds`. -/
def Promo.check (p : Promo) : Option Err :=
  violated [(0 ≤ p.usedCount && (p.maxTotalUsages.all fun n => p.usedCount ≤ n) &&
    1 ≤ p.maxUsagesPerUser, .integrity .chkPromoUsageBounds)]

/-- The columns of a promo that no modelled function rewrites: all but its counter. -/
def Promo.frozen (p : Promo) : Promo := { p with usedCount := 0 }

/-- A promo with `n` more usages. -/
def Promo.counted (n : ℤ) (p : Promo) : Promo := { p with usedCount := p.usedCount + n }

/-- `chk_redemption_amount_positive`. -/
def PromoRedemption.check (r : PromoRedemption) : Option Err :=
  violated [(fitsMoney r.discountAmount, .data),
    (0 < r.discountAmount, .integrity .chkRedemptionAmountPositive)]

/-- A redemption row after an `UPDATE` of the columns that the session changed. -/
def PromoRedemption.assign (loaded assigned row : PromoRedemption) : PromoRedemption :=
  { row with
    status := Giftly.assign loaded.status assigned.status row.status
    consumedAt := Giftly.assign loaded.consumedAt assigned.consumedAt row.consumedAt
    releasedAt := Giftly.assign loaded.releasedAt assigned.releasedAt row.releasedAt }

/-- A redemption as `set_redemption_status` leaves it. -/
def PromoRedemption.marked (r : PromoRedemption) (st : PromoRedemptionStatus) (when : Time) :
    PromoRedemption :=
  { r with
    status := st
    consumedAt := if st = .consumed then some when else r.consumedAt
    releasedAt := if st = .released then some when else r.releasedAt }

/-- The columns of a redemption that no modelled function rewrites. -/
def PromoRedemption.frozen (r : PromoRedemption) : PromoRedemption :=
  { r with status := .reserved, consumedAt := none, releasedAt := none }

/-- A redemption takes a slot of a promo. -/
def PromoRedemption.takes (promoId : Id) (r : PromoRedemption) : Bool :=
  r.promoId = promoId && r.status ≠ .released

/-- The number of `RESERVED` and `CONSUMED` redemptions of a promo. -/
def Db.taken (d : Db) (promoId : Id) : ℕ := d.redemptions.count fun _ r => r.takes promoId

/-- The constraints of a withdrawal row, without the index over all rows. -/
def Withdrawal.check (w : Withdrawal) : Option Err :=
  violated [(fitsMoney w.amount && fitsText 128 w.idempotencyKey && fitsText 255 w.rejectionReason,
      .data),
    (5000 ≤ w.amount, .integrity .chkWithdrawalMin)]

/-- A withdrawal row after an `UPDATE` of the columns that the session changed. -/
def Withdrawal.assign (loaded assigned row : Withdrawal) : Withdrawal :=
  { row with
    status := Giftly.assign loaded.status assigned.status row.status
    processedByAdminId :=
      Giftly.assign loaded.processedByAdminId assigned.processedByAdminId row.processedByAdminId
    rejectionReason :=
      Giftly.assign loaded.rejectionReason assigned.rejectionReason row.rejectionReason }

/-- The columns of a withdrawal that no modelled function rewrites. -/
def Withdrawal.frozen (w : Withdrawal) : Withdrawal :=
  { w with status := .requested, processedByAdminId := none, rejectionReason := none }

/-- The amount of a withdrawal is a frozen column. -/
theorem Withdrawal.amount_of_frozen {w x : Withdrawal} (h : w.frozen = x.frozen) :
    w.amount = x.amount := by
  have := congrArg Withdrawal.amount h
  exact this

end Giftly
