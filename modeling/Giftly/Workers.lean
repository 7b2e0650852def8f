import Giftly.Services.Fulfillment
import Giftly.Services.Payment
import Giftly.Store.Passes

/-!
# The sweepers

`workers/expiry.py` and `workers/auto_approve.py`. A sweep lists its candidates in one transaction
and settles each of them in a transaction of its own, which is rolled back when it raises. The
auto-approval of one order is `FulfillmentService.autoApprove`. The time at which a sweep reaches an
item is a parameter.
-/

namespace Giftly

open Store (Prog)
open OrderState WalletRepository

namespace Expiry

/-- The candidates of `expire_stale`: the lapsed invoices, and the lapsed top-up intents. -/
def candidates (now : Time) (limit : ℕ) : Tx (List Id × List Id) := do
  let invoiceIds ← InvoiceRepository.listExpiredIssued now limit
  let intents ← PaymentRepository.listExpiredNew now limit
  return (invoiceIds, (intents.filter fun r => r.2.purpose = .walletTopup).map Prod.fst)

/-- The open intent of a lapsed invoice: its hold is returned, and it expires. -/
def expireIntent (refresh : Bool) (invoice : Invoice) : Option (Id × PaymentIntent) → Tx Unit
  | none => return ()
  | some (intentId, intent) => do
    Prog.when (do
      match ← getByUser intent.userId with
      | none => return ()
      | some (walletId, _) =>
        MoneyService.releaseHold refresh walletId (money invoice.amountFromWallet))
      (0 < invoice.amountFromWallet)
    PaymentRepository.markExpired intentId intent

/-- `_expire_invoice`. -/
def expireInvoice (refresh : Bool) (now : Time) (invoiceId : Id) : Tx Bool := do
  match ← InvoiceRepository.lock invoiceId with
  | none => return false
  | some invoice =>
    if invoice.status ≠ .issued then return false
    else
      let intent ← PaymentRepository.getOpenIntentForInvoice invoiceId
      expireIntent refresh invoice intent
      PromoService.release now invoiceId
      InvoiceRepository.flush invoiceId invoice { invoice with status := .expired }
      match ← OrderRepository.lock invoice.orderId with
      | none => return true
      | some order =>
        Prog.when (do
          assertTransition order.status .assigned
          OrderRepository.flush now invoice.orderId order
            { order with status := .assigned, totalAmount := 0 }) (order.status = .waitingPayment)
        return true

/-- `_expire_topup_intent`: the status of the locked intent is not looked at. -/
def expireTopupIntent (intentId : Id) : Tx Bool := do
  match ← PaymentRepository.lockIntent intentId with
  | none => return false
  | some intent =>
    if intent.purpose ≠ .walletTopup then return false
    else
      PaymentRepository.markExpired intentId intent
      return true

/-- `expire_stale`: the numbers of expired invoices and top-up intents, and the database after it. -/
def expireStale (refresh : Bool) (now : Time) (limit : ℕ) (clock : Id → Time) (d : Db) :
    Except Err ((ℕ × ℕ) × Db) := do
  let ((invoiceIds, topupIds), _, d) ← (candidates now limit).run .empty d
  let invoices := Store.pass .empty (fun id => expireInvoice refresh (clock id) id) invoiceIds d
  let intents := Store.pass .empty expireTopupIntent topupIds invoices.2
  return ((invoices.1, intents.1), intents.2)

end Expiry

/-- `auto_approve_delivered`: the number of completed orders, and the database after it. -/
def autoApproveDelivered (refresh : Bool) (s : Settings) (now : Time) (limit : ℕ)
    (clock : Id → Time) (correlationIds : Id → Id) (d : Db) : Except Err (ℕ × Db) := do
  let cutoff := FulfillmentService.autoApproveCutoff s now
  let (orderIds, _, d) ← (OrderRepository.listAutoApproveDue cutoff limit).run .empty d
  return Store.pass .empty
    (fun id => FulfillmentService.autoApprove refresh s (clock id) (correlationIds id) id) orderIds d

end Giftly
