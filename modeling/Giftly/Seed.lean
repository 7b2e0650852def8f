import Giftly.Requests

/-!
# A small database

The books as the first migration leaves them, with one customer, one verified courier and one
administrator, and an order of that customer with its invoice. The witnesses and the
counterexamples run on it.
-/

namespace Giftly

open Store (Table)

namespace Sample

/-- The settings, with the defaults of `core/config.py`. -/
def settings : Settings where
  defaultVatRate := ⟨15, -2⟩
  serviceFeeRate := ⟨5, -2⟩
  serviceFeeMinAmount := ⟨500, -2⟩
  serviceFeeMaxAmount := ⟨50000, -2⟩
  platformCommissionRate := ⟨10, -2⟩
  maxInvoiceItems := 20
  maxInvoiceAmount := ⟨5000000, -2⟩
  maxItemUnitPrice := ⟨5000000, -2⟩
  minTopupAmount := ⟨10000, -2⟩
  maxTopupAmount := ⟨2000000, -2⟩
  minWithdrawalAmount := ⟨5000, -2⟩
  maxWithdrawalAmount := ⟨2000000, -2⟩
  maxDeliveryRadiusMeters := 200
  autoApproveHours := 72
  paymentExpiryHours := 48

/-- A gateway that answers every checkout with a link of its own. -/
def gateway : PaymentService.Gateway := fun intentId _ => .ok ⟨intentId + 1000, ['u']⟩

/-- The customer's wallet is 11, the courier's is 12, and the system wallets are 21 to 24. -/
def wallets (balance held escrow : ℤ) : Table Id Wallet where
  rows := [(11, ⟨some 1, .customer, balance, held, 0⟩), (12, ⟨some 2, .courier, 0, 0, 0⟩),
    (21, ⟨none, .systemEscrow, escrow, 0, 0⟩), (22, ⟨none, .systemRevenue, 0, 0, 0⟩),
    (23, ⟨none, .systemGateway, -(balance + escrow), 0, 0⟩),
    (24, ⟨none, .systemTaxPayable, 0, 0, 0⟩)]
  nodup := by simp

/-- Order 401 of the customer, accepted by the courier. -/
def order (status : OrderStatus) : Order where
  customerId := 1
  courierId := some 2
  deliveryDate := 10
  status := status
  totalAmount := 10000
  commissionAmount := 0
  courierPayoutAmount := 0
  assignedAt := some 0
  deliveredAt := none
  completedAt := none
  cancelledReason := none

/-- Invoice 601 of the order, of 100.00. -/
def invoice (status : InvoiceStatus) (fromWallet fromGateway : ℤ) : Invoice where
  orderId := 401
  issuedByCourierId := 2
  status := status
  itemsNetAmount := 8000
  courierFeeAmount := 500
  serviceFeeAmount := 500
  discountAmount := 0
  netAfterDiscountAmount := 9000
  taxAmount := 1000
  totalAmount := 10000
  promoId := none
  promoCodeSnapshot := none
  paymentMethod := none
  amountFromWallet := fromWallet
  amountFromGateway := fromGateway
  expiresAt := some 172800
  issuedAt := some 0
  paidAt := none
  receiptEmailSentAt := none

/-- A payment intent of the customer. -/
def intent (purpose : PaymentPurpose) (amount : ℤ) (status : PaymentIntentStatus)
    (invoiceId : Option Id) (linkId : Id) : PaymentIntent where
  userId := 1
  purpose := purpose
  amount := amount
  status := status
  referenceInvoiceId := invoiceId
  streampayPaymentLinkId := some linkId
  streampayPaymentUrl := some ['u']
  expiresAt := 172800
  paidAt := none
  failureReason := none

/-- The accounts with the given wallets, and nothing else. -/
def accounts (wallets : Table Id Wallet) : Db where
  users := ⟨[(1, ⟨.customer, .active⟩), (2, ⟨.courier, .active⟩), (3, ⟨.admin, .active⟩)], by decide⟩
  couriers := ⟨[(2, ⟨true⟩)], by decide⟩
  wallets := wallets
  transactions := []
  holds := []
  orders := .empty
  conversations := .empty
  invoices := .empty
  items := .empty
  intents := .empty
  topups := .empty
  disputes := .empty
  promos := .empty
  redemptions := .empty
  withdrawals := .empty

/-- Two orders that await their payments. -/
def twoOrders : Table Id Order :=
  ⟨[(401, order .waitingPayment), (402, order .waitingPayment)], by simp⟩

/-- A promo of 10.00 that can be used once. -/
def onePromo : Table Id Promo :=
  ⟨[(801,
    { code := ['P'], discountType := .fixed, percentValue := none, fixedAmount := some 1000
      maxDiscountAmount := none, minOrderAmount := 0, maxTotalUsages := some 1
      maxUsagesPerUser := 1, usedCount := 0, isActive := true, startsAt := none
      endsAt := none })], by simp⟩

/-- The intent of invoice 601, for all of it. -/
def invoiceIntent : Table Id PaymentIntent :=
  ⟨[(302, intent .orderInvoice 10000 .new (some 601) 802)], by simp⟩

/-- The accounts with the order and its invoice. -/
def ordered (wallets : Table Id Wallet) (o : Order) (i : Invoice) : Db :=
  { accounts wallets with
    orders := ⟨[(401, o)], by simp⟩
    invoices := ⟨[(601, i)], by simp⟩ }

end Sample

end Giftly
