import Giftly.Repositories.Order
import Mathlib.Algebra.Order.Ring.Rat

/-!
# The order state machine and the order service

`services/order_state.py` and `services/order_service.py`. The legal transitions of an order are
one table, and every service asserts the transition it makes against the status that it read. The
Redis lock around an acceptance is a parameter: whether it was granted. So is the media store: what
it says of an uploaded object.
-/

namespace Giftly

open Store (Prog)

/-- The statuses that an order can have after its invoice was paid. -/
def OrderStatus.funded : OrderStatus → Bool
  | .inProgress | .delivered | .disputed | .completed | .refunded => true
  | _ => false

namespace OrderState

/-- `_TRANSITIONS`: the complete set of legal order transitions. -/
def transitions : OrderStatus → List OrderStatus
  | .new => [.assigned, .cancelled]
  | .assigned => [.waitingPayment, .cancelled]
  | .waitingPayment => [.inProgress, .assigned, .cancelled]
  | .inProgress => [.delivered, .disputed]
  | .delivered => [.completed, .disputed]
  | .disputed => [.completed, .refunded]
  | .completed => []
  | .cancelled => []
  | .refunded => []

/-- `can_transition`. -/
def canTransition (current target : OrderStatus) : Bool := target ∈ transitions current

/-- The name of a status. -/
def value : OrderStatus → String
  | .new => "NEW"
  | .assigned => "ASSIGNED"
  | .waitingPayment => "WAITING_PAYMENT"
  | .inProgress => "IN_PROGRESS"
  | .delivered => "DELIVERED"
  | .completed => "COMPLETED"
  | .cancelled => "CANCELLED"
  | .disputed => "DISPUTED"
  | .refunded => "REFUNDED"

/-- `assert_transition`. -/
def assertTransition (current target : OrderStatus) : Tx Unit :=
  Prog.require (canTransition current target = true) (.invalidStateTransition
    ("Cannot move an order from " ++ value current ++ " to " ++ value target ++ "."))

end OrderState

namespace OrderService

open OrderState

/-- `NewOrderInput`, without the texts that are only stored. Coordinates are in degrees. -/
structure NewOrderInput where
  latitude : ℚ
  longitude : ℚ
  deliveryDate : ℤ
  requestMediaKeys : List Text

/-- `_MAX_CUSTOMER_ACTIVE`. -/
def maxCustomerActive : ℕ := 5

/-- `_MAX_COURIER_ACTIVE`. -/
def maxCourierActive : ℕ := 3

/-- `_MAX_REQUEST_MEDIA`. -/
def maxRequestMedia : ℕ := 3

/-- `create_order`. -/
def createOrder (now : Time) (confirm : Text → Except Err Unit) (orderId customerId : Id)
    (data : NewOrderInput) : Tx Order := do
  Prog.require (16 ≤ data.latitude ∧ data.latitude ≤ 33)
    (.validationDomain "Latitude is outside the service area.")
  Prog.require (34 ≤ data.longitude ∧ data.longitude ≤ 56)
    (.validationDomain "Longitude is outside the service area.")
  Prog.require (data.requestMediaKeys.length ≤ maxRequestMedia)
    (.validationDomain "At most 3 request photos are allowed.")
  let active ← OrderRepository.countCustomerActive customerId
  Prog.require (active < maxCustomerActive)
    (.conflict "You have reached the maximum number of active orders.")
  Prog.ofExcept (data.requestMediaKeys.forM confirm)
  OrderRepository.create now orderId customerId data.deliveryDate

/-- `_require_active_verified_courier`. -/
def requireActiveVerifiedCourier (courierId : Id) : Tx Unit := do
  let user ← Prog.query fun d : Db => d.users.get? courierId
  Prog.require (user.any (fun u => u.role = .courier && u.status = .active) = true)
    (.forbidden "Only an active courier may accept orders.")
  let profile ← Prog.query fun d : Db => d.couriers.get? courierId
  Prog.require (profile.any (·.isVerified) = true)
    (.forbidden "Your courier account is not verified yet.")

/-- `_assign_locked`. The system message that it writes is left out. -/
def assignLocked (now : Time) (conversationId orderId courierId : Id) : Tx Order := do
  match ← OrderRepository.lock orderId with
  | none => .raise (.notFound "Order not found.")
  | some order =>
    Prog.require (order.status = .new) .orderAlreadyAssigned
    assertTransition order.status .assigned
    let assigned :=
      { order with courierId := some courierId, status := .assigned, assignedAt := some now }
    OrderRepository.flush now orderId order assigned
    OrderRepository.createConversation conversationId orderId order.customerId courierId
    return assigned

/-- `accept_order`. -/
def acceptOrder (now : Time) (lockGranted : Bool) (conversationId orderId courierId : Id) :
    Tx Order := do
  requireActiveVerifiedCourier courierId
  let active ← OrderRepository.countCourierActive courierId
  Prog.require (active < maxCourierActive)
    (.forbidden "You have reached the maximum number of active assignments.")
  Prog.require (lockGranted = true) .orderAlreadyAssigned
  assignLocked now conversationId orderId courierId

/-- `cancel_order`: the order is read without a lock. -/
def cancelOrder (now : Time) (orderId actorId : Id) (reason : Option Text) : Tx Order := do
  match ← OrderRepository.getForActor orderId actorId with
  | none => .raise (.notFound "Order not found.")
  | some order =>
    OrderRepository.keep orderId order
    assertTransition order.status .cancelled
    let cancelled := { order with status := .cancelled, cancelledReason := reason }
    OrderRepository.flush now orderId order cancelled
    return cancelled

end OrderService

end Giftly
