import Giftly.Core.Money
import Giftly.Store.Table
import Giftly.Store.Logic

/-!
# The data model

The tables of `models/tables.py` that the order, invoice, payment, fulfilment and withdrawal
services read and write, with the enumerations of `models/enums.py`. Identifiers are UUIDs in the
source; only their equality and their order matter, and they are natural numbers here. Timestamps
are seconds since the epoch, dates are days, and money columns are halalas. Columns that none of
the modelled functions reads or writes are left out.

`Row` names what a transaction can lock: a row, or an entry of a unique index, on which a second
transaction that writes the same entry waits until the first one ends. `Memory` is the session's
identity map: the instances of rows that the request keeps a reference to.
-/

namespace Giftly

open Store (Table)

/-- A UUID. -/
abbrev Id := ℕ

/-- A timestamp, in seconds. -/
abbrev Time := ℤ

/-- A text, as its code points. -/
abbrev Text := List Char

/-! ## Enumerations -/

inductive UserRole
  | customer
  | courier
  | admin
  deriving DecidableEq, Repr

inductive UserStatus
  | active
  | banned
  | pendingVerification
  deriving DecidableEq, Repr

inductive OrderStatus
  | new
  | assigned
  | waitingPayment
  | inProgress
  | delivered
  | completed
  | cancelled
  | disputed
  | refunded
  deriving DecidableEq, Repr

inductive InvoiceStatus
  | draft
  | issued
  | paid
  | cancelled
  | expired
  | refunded
  deriving DecidableEq, Repr

inductive PaymentPurpose
  | orderInvoice
  | walletTopup
  deriving DecidableEq, Repr

inductive PaymentIntentStatus
  | new
  | paid
  | failed
  | expired
  | cancelled
  deriving DecidableEq, Repr

inductive PaymentMethod
  | walletOnly
  | gatewayOnly
  | split
  deriving DecidableEq, Repr

inductive PromoDiscountType
  | percent
  | fixed
  deriving DecidableEq, Repr

inductive PromoRedemptionStatus
  | reserved
  | consumed
  | released
  deriving DecidableEq, Repr

inductive WalletType
  | customer
  | courier
  | systemEscrow
  | systemRevenue
  | systemGateway
  | systemTaxPayable
  deriving DecidableEq, Repr

inductive TransactionType
  | topup
  | withdrawal
  | escrowHold
  | escrowRelease
  | payment
  | refund
  | commission
  | serviceFee
  | tax
  | promoSubsidy
  deriving DecidableEq, Repr

inductive TransactionStatus
  | pending
  | settled
  | reversed
  deriving DecidableEq, Repr

inductive WithdrawalStatus
  | requested
  | approved
  | paid
  | rejected
  deriving DecidableEq, Repr

inductive DisputeStatus
  | open
  | resolvedCustomer
  | resolvedCourier
  | resolvedSplit
  deriving DecidableEq, Repr

/-- The idempotency keys of the ledger, `intent:<id>:topup` and so on. -/
inductive IdempotencyKey
  /-- `intent:<id>:topup` -/
  | topup (intentId : Id)
  /-- `invoice:<id>:escrow` -/
  | escrow (invoiceId : Id)
  /-- `order:<id>:release` -/
  | release (orderId : Id)
  /-- `order:<id>:refund` -/
  | refund (orderId : Id)
  /-- `order:<id>:split` -/
  | split (orderId : Id)
  /-- `withdrawal:<id>:paid` -/
  | paid (withdrawalId : Id)
  deriving DecidableEq, Repr

/-! ## Rows -/

structure User where
  role : UserRole
  status : UserStatus
  deriving DecidableEq

structure CourierProfile where
  isVerified : Bool
  deriving DecidableEq

structure Wallet where
  userId : Option Id
  type : WalletType
  balance : ℤ
  heldBalance : ℤ
  version : ℕ
  deriving DecidableEq

structure Transaction where
  walletId : Id
  amount : ℤ
  type : TransactionType
  status : TransactionStatus
  correlationId : Id
  balanceAfter : ℤ
  idempotencyKey : Option IdempotencyKey
  referenceOrderId : Option Id
  referenceInvoiceId : Option Id
  referenceIntentId : Option Id
  description : Option String
  deriving DecidableEq

structure Order where
  customerId : Id
  courierId : Option Id
  deliveryDate : ℤ
  status : OrderStatus
  totalAmount : ℤ
  commissionAmount : ℤ
  courierPayoutAmount : ℤ
  assignedAt : Option Time
  deliveredAt : Option Time
  completedAt : Option Time
  cancelledReason : Option Text
  deriving DecidableEq

structure Conversation where
  orderId : Id
  customerId : Id
  courierId : Id
  deriving DecidableEq

structure Invoice where
  orderId : Id
  issuedByCourierId : Id
  status : InvoiceStatus
  itemsNetAmount : ℤ
  courierFeeAmount : ℤ
  serviceFeeAmount : ℤ
  discountAmount : ℤ
  netAfterDiscountAmount : ℤ
  taxAmount : ℤ
  totalAmount : ℤ
  promoId : Option Id
  promoCodeSnapshot : Option Text
  paymentMethod : Option PaymentMethod
  amountFromWallet : ℤ
  amountFromGateway : ℤ
  expiresAt : Option Time
  issuedAt : Option Time
  paidAt : Option Time
  receiptEmailSentAt : Option Time
  deriving DecidableEq

structure InvoiceItem where
  invoiceId : Id
  position : ℕ
  title : Text
  description : Option Text
  unitPriceAmount : ℤ
  quantity : ℕ
  /-- In ten-thousandths. -/
  taxRate : ℤ
  lineNetAmount : ℤ
  lineDiscountAmount : ℤ
  lineTaxableAmount : ℤ
  lineTaxAmount : ℤ
  lineTotalAmount : ℤ
  deriving DecidableEq

structure PaymentIntent where
  userId : Id
  purpose : PaymentPurpose
  amount : ℤ
  status : PaymentIntentStatus
  referenceInvoiceId : Option Id
  streampayPaymentLinkId : Option Id
  streampayPaymentUrl : Option Text
  expiresAt : Time
  paidAt : Option Time
  failureReason : Option Text
  deriving DecidableEq

structure WalletTopup where
  userId : Id
  walletId : Id
  paymentIntentId : Id
  amount : ℤ
  deriving DecidableEq

structure Dispute where
  orderId : Id
  raisedByUserId : Id
  reason : Text
  status : DisputeStatus
  resolutionNote : Option Text
  resolvedByAdminId : Option Id
  resolvedAt : Option Time
  deriving DecidableEq

structure Promo where
  code : Text
  discountType : PromoDiscountType
  /-- `NUMERIC(5, 2)`, in hundredths of a percent. -/
  percentValue : Option ℤ
  fixedAmount : Option ℤ
  maxDiscountAmount : Option ℤ
  minOrderAmount : ℤ
  maxTotalUsages : Option ℤ
  maxUsagesPerUser : ℤ
  usedCount : ℤ
  isActive : Bool
  startsAt : Option Time
  endsAt : Option Time
  deriving DecidableEq

structure PromoRedemption where
  promoId : Id
  userId : Id
  invoiceId : Id
  orderId : Id
  discountAmount : ℤ
  status : PromoRedemptionStatus
  consumedAt : Option Time
  releasedAt : Option Time
  deriving DecidableEq

structure Withdrawal where
  courierId : Id
  walletId : Id
  amount : ℤ
  status : WithdrawalStatus
  idempotencyKey : Option Text
  processedByAdminId : Option Id
  rejectionReason : Option Text
  deriving DecidableEq

/-- The database: the rows of every modelled table, and the ledger in the order of its rows. -/
structure Db where
  users : Table Id User
  couriers : Table Id CourierProfile
  wallets : Table Id Wallet
  transactions : List Transaction
  /-- A history variable: the movements of the wallets' held balances, with their wallets. The
  source does not store them, and no modelled function reads them. -/
  holds : List (Id × ℤ)
  orders : Table Id Order
  conversations : Table Id Conversation
  invoices : Table Id Invoice
  items : Table Id InvoiceItem
  intents : Table Id PaymentIntent
  topups : Table Id WalletTopup
  disputes : Table Id Dispute
  promos : Table Id Promo
  redemptions : Table Id PromoRedemption
  withdrawals : Table Id Withdrawal

/-! ## Locks and sessions -/

/-- What a transaction can lock: rows, and entries of unique indexes. -/
inductive Row
  | wallet (id : Id)
  | order (id : Id)
  | conversation (id : Id)
  | invoice (id : Id)
  | item (id : Id)
  | intent (id : Id)
  | topup (id : Id)
  | dispute (id : Id)
  | promo (id : Id)
  | redemption (id : Id)
  | withdrawal (id : Id)
  /-- The entry of `uq_transactions_idempotency` for a key. -/
  | idempotency (key : IdempotencyKey)
  /-- The entry of `uq_invoices_one_active_per_order` for an order. -/
  | activeInvoice (orderId : Id)
  /-- The entry of `uq_payment_intents_streampay_link` for a payment link. -/
  | paymentLink (linkId : Id)
  /-- The entry of `uq_disputes_order` for an order. -/
  | disputeOf (orderId : Id)
  /-- The entry of `uq_conversations_order` for an order. -/
  | conversationOf (orderId : Id)
  /-- The entry of `uq_withdrawals_courier_idempotency`. -/
  | withdrawalKey (courierId : Id) (key : Text)
  deriving DecidableEq

/-- The identity map of a session: the instances of wallet, order and invoice rows that the request
holds, with their attributes as the session has them. -/
structure Memory where
  wallets : Id → Option Wallet
  orders : Id → Option Order
  invoices : Id → Option Invoice

namespace Memory

/-- A session that has loaded nothing. -/
def empty : Memory := ⟨fun _ => none, fun _ => none, fun _ => none⟩

/-- The session with the instance of a wallet. -/
def setWallet (m : Memory) (id : Id) (w : Option Wallet) : Memory :=
  { m with wallets := Function.update m.wallets id w }

/-- The session with the instance of an order. -/
def setOrder (m : Memory) (id : Id) (o : Option Order) : Memory :=
  { m with orders := Function.update m.orders id o }

/-- The session with the instance of an invoice. -/
def setInvoice (m : Memory) (id : Id) (i : Option Invoice) : Memory :=
  { m with invoices := Function.update m.invoices id i }

end Memory

/-- A transaction of the application. -/
abbrev Tx := Store.Prog Db Row Err Memory

/-- The settings that the modelled functions read. -/
structure Settings where
  defaultVatRate : Dec
  serviceFeeRate : Dec
  serviceFeeMinAmount : Dec
  serviceFeeMaxAmount : Dec
  platformCommissionRate : Dec
  maxInvoiceItems : ℕ
  maxInvoiceAmount : Dec
  maxItemUnitPrice : Dec
  minTopupAmount : Dec
  maxTopupAmount : Dec
  minWithdrawalAmount : Dec
  maxWithdrawalAmount : Dec
  maxDeliveryRadiusMeters : ℕ
  autoApproveHours : ℕ
  paymentExpiryHours : ℕ

/-- The value of a column after an `UPDATE` by a flush: the mapper writes a column only when the
value assigned to it differs from the value it loaded. -/
def assign {α : Type} [DecidableEq α] (loaded assigned current : α) : α :=
  if assigned = loaded then current else assigned

/-- Over the value that was loaded, the assigned value is written. -/
@[simp]
theorem assign_self {α : Type} [DecidableEq α] (loaded assigned : α) :
    assign loaded assigned loaded = assigned := by
  unfold assign
  split_ifs with h
  · exact h.symm
  · rfl

end Giftly
