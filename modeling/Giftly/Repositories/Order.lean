import Giftly.Statements
import Mathlib.Data.List.Sort

/-!
# Orders and disputes

`repositories/order_repository.py` and `repositories/dispute_repository.py`. A read that the caller
keeps is remembered in the session (`keep`): a later write of the row starts from the attributes
that this read found. Order media are left out, since no modelled function reads them back.
-/

namespace Giftly

open Store (Prog)

namespace OrderRepository

/-- Statuses that count against a customer's limit of concurrent orders. -/
def customerActive : OrderStatus → Bool
  | .new | .assigned | .waitingPayment | .inProgress | .delivered | .disputed => true
  | _ => false

/-- Statuses that count against a courier's limit of concurrent assignments. -/
def courierActive : OrderStatus → Bool
  | .assigned | .waitingPayment | .inProgress => true
  | _ => false

/-- `create`: a `NEW` order. -/
def create (now : Time) (id customerId : Id) (deliveryDate : ℤ) : Tx Order := do
  let order : Order :=
    { customerId, courierId := none, deliveryDate, status := .new, totalAmount := 0
      commissionAmount := 0, courierPayoutAmount := 0, assignedAt := none, deliveredAt := none
      completedAt := none, cancelledReason := none }
  insertRow [.order id] (·.orders.get? id) (Db.insertOrder id order) fun d =>
    if (d.users.get? customerId).isSome then order.check now else some (.integrity .foreignKey)
  return order

/-- `get_for_actor`: an order of which the actor is the customer or the courier. -/
def getForActor (orderId actorId : Id) : Tx (Option Order) :=
  Prog.query fun d => (d.orders.get? orderId).filter fun o =>
    o.customerId = actorId || o.courierId = some actorId

/-- `lock`. -/
def lock (orderId : Id) : Tx (Option Order) :=
  .lock (fun d => (d.orders.get? orderId).map fun _ => .order orderId) fun d =>
    .ret (d.orders.get? orderId)

/-- The caller keeps an order that it read. -/
def keep (orderId : Id) (order : Order) : Tx Unit :=
  .orm (fun m => m.setOrder orderId (some order)) fun _ => .ret ()

/-- The flush of an order, from its instance before and after the request's changes. -/
def flush (now : Time) (orderId : Id) (loaded assigned : Order) : Tx Unit :=
  if assigned = loaded then .ret ()
  else updateRow [.order orderId] (·.orders.get? orderId) (Db.updateOrder orderId)
    (loaded.assign assigned) fun d o =>
      if o.courierId.all fun id => (d.users.get? id).isSome then o.check now
      else some (.integrity .foreignKey)

/-- `count_customer_active`. -/
def countCustomerActive (customerId : Id) : Tx ℕ :=
  Prog.query fun d => d.orders.count fun _ o => o.customerId = customerId && customerActive o.status

/-- `count_courier_active`. -/
def countCourierActive (courierId : Id) : Tx ℕ :=
  Prog.query fun d =>
    d.orders.count fun _ o => o.courierId = some courierId && courierActive o.status

/-- `list_auto_approve_due`: the `DELIVERED` orders that were delivered by the cutoff, oldest first. -/
def listAutoApproveDue (cutoff : Time) (limit : ℕ) : Tx (List Id) :=
  Prog.query fun d => (((d.orders.rows.filter fun r =>
    r.2.status = .delivered && (r.2.deliveredAt.any fun t => t ≤ cutoff)).insertionSort fun a b =>
      a.2.deliveredAt.getD 0 ≤ b.2.deliveredAt.getD 0).take limit).map Prod.fst

/-- `create_conversation`. -/
def createConversation (id orderId customerId courierId : Id) : Tx Unit :=
  insertRow [.conversation id, .conversationOf orderId] (·.conversations.get? id)
    (Db.insertConversation id { orderId, customerId, courierId }) fun d =>
      if (d.conversations.find? fun _ c => c.orderId = orderId).isSome then
        some (.integrity .uqConversationsOrder)
      else if (d.orders.get? orderId).isSome && (d.users.get? customerId).isSome &&
          (d.users.get? courierId).isSome then none
      else some (.integrity .foreignKey)

end OrderRepository

namespace DisputeRepository

/-- `create`. -/
def create (id orderId raisedByUserId : Id) (reason : Text) : Tx Dispute := do
  let dispute : Dispute :=
    { orderId, raisedByUserId, reason, status := .open, resolutionNote := none
      resolvedByAdminId := none, resolvedAt := none }
  insertRow [.dispute id, .disputeOf orderId] (·.disputes.get? id) (Db.insertDispute id dispute)
    fun d =>
      if (d.disputes.find? fun _ s => s.orderId = orderId).isSome then
        some (.integrity .uqDisputesOrder)
      else if (d.orders.get? orderId).isSome && (d.users.get? raisedByUserId).isSome then
        dispute.check
      else some (.integrity .foreignKey)
  return dispute

/-- `get_for_order`. -/
def getForOrder (orderId : Id) : Tx (Option (Id × Dispute)) :=
  Prog.query fun d => d.disputes.find? fun _ s => s.orderId = orderId

/-- `lock`. -/
def lock (disputeId : Id) : Tx (Option Dispute) :=
  .lock (fun d => (d.disputes.get? disputeId).map fun _ => .dispute disputeId) fun d =>
    .ret (d.disputes.get? disputeId)

/-- `resolve`. -/
def resolve (disputeId : Id) (dispute : Dispute) (status : DisputeStatus) (adminId : Id)
    (note : Option Text) (when : Time) : Tx Unit :=
  updateRow [.dispute disputeId] (·.disputes.get? disputeId) (Db.updateDispute disputeId)
    (dispute.assign { dispute with
      status := status, resolvedByAdminId := some adminId, resolutionNote := note
      resolvedAt := some when }) fun d _ =>
      if (d.users.get? adminId).isSome then none else some (.integrity .foreignKey)

end DisputeRepository

end Giftly
