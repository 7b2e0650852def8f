import Giftly.Services.Invoice
import Giftly.Services.Money

/-!
# Fulfilment

`services/fulfillment_service.py`: delivery, approval and disputes. The order is locked before its
status is read, and an approval or a resolution pays out the escrow of the order's paid invoice. The
distance to the drop-off is a parameter: the result of the spatial query.
-/

namespace Giftly

open Store (Prog)
open OrderState WalletRepository

namespace FulfillmentService

/-- `_MAX_PROOF_MEDIA`. -/
def maxProofMedia : ℕ := 5

/-- The order of a participant, locked. The first read is dropped, so the locked one loads the
row. -/
def lockForActor (orderId actorId : Id) : Tx Order := do
  let mine ← OrderRepository.getForActor orderId actorId
  Prog.require (mine.isSome = true) (.notFound "Order not found.")
  match ← OrderRepository.lock orderId with
  | none => .raise (.notFound "Order not found.")
  | some order => return order

/-- `submit_delivery`. -/
def submitDelivery (s : Settings) (now : Time) (confirm : Text → Except Err Unit)
    (distance : Option ℚ) (orderId courierId : Id) (proofMediaKeys : List Text) : Tx Unit := do
  let order ← lockForActor orderId courierId
  assertTransition order.status .delivered
  Prog.require (proofMediaKeys ≠ []) (.validationDomain "At least one delivery photo is required.")
  Prog.require (proofMediaKeys.length ≤ maxProofMedia)
    (.validationDomain "At most 5 delivery photos are allowed.")
  Prog.require (distance.any (fun x => x ≤ (s.maxDeliveryRadiusMeters : ℚ)) = true)
    (.validationDomain "You are too far from the drop-off location.")
  Prog.ofExcept (proofMediaKeys.forM confirm)
  OrderRepository.flush now orderId order
    { order with status := .delivered, deliveredAt := some now }

/-- The paid invoice that an order is settled by. -/
def paidInvoice (orderId : Id) : Tx (Id × Invoice) := do
  let active ← InvoiceRepository.getActiveForOrder orderId
  match active.filter fun x => x.2.status = .paid with
  | none => .raise (.conflict "The order has no paid invoice to settle.")
  | some x => return x

/-- The settlement of a paid invoice. -/
def settlementOf (s : Settings) (invoice : Invoice) : Except Err Settlement :=
  computeSettlement (.cents invoice.itemsNetAmount) (.cents invoice.courierFeeAmount)
    (.cents invoice.taxAmount) (.cents invoice.totalAmount) s.platformCommissionRate

/-- The payout of a completed order. -/
def releaseFor (refresh : Bool) (orderId invoiceId courierWalletId : Id) (settlement : Settlement)
    (correlationId : Id) : Tx Bool :=
  MoneyService.releaseEscrowOnCompletion refresh orderId invoiceId courierWalletId
    (money settlement.courierPayoutAmount) (money settlement.taxAmount)
    (money settlement.platformRevenueAmount) correlationId

/-- `_complete_and_release`. -/
def completeAndRelease (refresh : Bool) (s : Settings) (now : Time) (correlationId orderId : Id)
    (order : Order) : Tx Unit := do
  assertTransition order.status .completed
  let (invoiceId, invoice) ← paidInvoice orderId
  match order.courierId with
  | none => .raise (.conflict "The order has no assigned courier.")
  | some courierId =>
    match ← getByUser courierId with
    | none => .raise (.notFound "Courier wallet not found.")
    | some (courierWalletId, _) =>
      let settlement ← Prog.ofExcept (settlementOf s invoice)
      let _ ← releaseFor refresh orderId invoiceId courierWalletId settlement correlationId
      OrderRepository.flush now orderId order
        { order with
          status := .completed, completedAt := some now
          commissionAmount := settlement.commissionAmount
          courierPayoutAmount := settlement.courierPayoutAmount }

/-- `approve_order`. -/
def approveOrder (refresh : Bool) (s : Settings) (now : Time)
    (correlationId orderId customerId : Id) : Tx Unit := do
  let order ← lockForActor orderId customerId
  completeAndRelease refresh s now correlationId orderId order

/-- `auto_approve`. -/
def autoApprove (refresh : Bool) (s : Settings) (now : Time) (correlationId orderId : Id) :
    Tx Bool := do
  match ← OrderRepository.lock orderId with
  | none => return false
  | some order =>
    if order.status ≠ .delivered then return false
    else
      completeAndRelease refresh s now correlationId orderId order
      return true

/-- `auto_approve_cutoff`. -/
def autoApproveCutoff (s : Settings) (now : Time) : Time := now - s.autoApproveHours * 3600

/-- `raise_dispute`. -/
def raiseDispute (now : Time) (disputeId orderId actorId : Id) (reason : Text) : Tx Unit := do
  let order ← lockForActor orderId actorId
  let existing ← DisputeRepository.getForOrder orderId
  Prog.require (existing.isNone = true) (.conflict "A dispute already exists for this order.")
  assertTransition order.status .disputed
  OrderRepository.flush now orderId order { order with status := .disputed }
  let _ ← DisputeRepository.create disputeId orderId actorId reason
  return ()

/-- `_apply_dispute_outcome`: move the escrow, and return the order as it will be, without its
status, and the status. -/
def applyDisputeOutcome (refresh : Bool) (s : Settings) (correlationId orderId : Id) (order : Order)
    (invoiceId : Id) (invoice : Invoice) (outcome : DisputeStatus)
    (courierAmount : Option Decimal) : Tx (Order × OrderStatus) := do
  match order.courierId with
  | none => .raise (.conflict "The order has no assigned courier.")
  | some courierId =>
    let courierWallet ← getByUser courierId
    let customerWallet ← getByUser order.customerId
    match courierWallet, customerWallet with
    | some (courierWalletId, _), some (customerWalletId, _) =>
      match outcome with
      | .resolvedCustomer =>
        let _ ← MoneyService.refundEscrow refresh orderId invoiceId customerWalletId
          (money invoice.totalAmount) correlationId
        return (order, .refunded)
      | .resolvedCourier =>
        let settlement ← Prog.ofExcept (settlementOf s invoice)
        let _ ← releaseFor refresh orderId invoiceId courierWalletId settlement correlationId
        return ({ order with
            commissionAmount := settlement.commissionAmount
            courierPayoutAmount := settlement.courierPayoutAmount }, .completed)
      | .resolvedSplit =>
        match courierAmount with
        | none => .raise (.validationDomain "A split resolution requires a courier amount.")
        | some amount =>
          let courierShare ← Prog.ofExcept (quantizeMoney amount)
          let total ← Prog.ofExcept (quantizeMoney (money invoice.totalAmount))
          Prog.require (0 ≤ courierShare ∧ courierShare ≤ total)
            (.validationDomain "The courier amount must be between 0 and the total.")
          let _ ← MoneyService.splitEscrow refresh orderId invoiceId courierWalletId
            customerWalletId (money courierShare)
            (.finite ((Dec.cents invoice.totalAmount).sub (.cents courierShare))) correlationId
          return ({ order with courierPayoutAmount := courierShare }, .completed)
      | .open => .raise (.validationDomain "Unsupported dispute outcome.")
    | _, _ => .raise (.notFound "A wallet was not found.")

/-- `resolve_dispute`. -/
def resolveDispute (refresh : Bool) (s : Settings) (now : Time)
    (correlationId disputeId adminId : Id) (outcome : DisputeStatus) (note : Option Text)
    (courierAmount : Option Decimal) : Tx Unit := do
  match ← DisputeRepository.lock disputeId with
  | none => .raise (.notFound "Dispute not found.")
  | some dispute =>
    Prog.require (dispute.status = .open) (.conflict "This dispute is already resolved.")
    match ← OrderRepository.lock dispute.orderId with
    | none => .raise (.notFound "Order not found.")
    | some order =>
      let (invoiceId, invoice) ← paidInvoice dispute.orderId
      let (settled, target) ← applyDisputeOutcome refresh s correlationId dispute.orderId order
        invoiceId invoice outcome courierAmount
      assertTransition order.status target
      OrderRepository.flush now dispute.orderId order
        { settled with
          status := target
          completedAt := if target = .completed then some now else order.completedAt }
      DisputeRepository.resolve disputeId dispute outcome adminId note now

end FulfillmentService

end Giftly
