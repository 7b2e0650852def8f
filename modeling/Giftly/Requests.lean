import Giftly.Services.Withdrawal
import Giftly.Workers

/-!
# Requests

The operations of the services as requests with their arguments, and `Request.tx`, the transaction
that serves each of them. A sweep is the sequence of the requests for its candidates, and a request
for an item that is no candidate is allowed too. Ids that the source draws at random, the clock, the
gateway and the media store are arguments.
-/

namespace Giftly

open PaymentService OrderService InvoiceService

/-- A request to the services, or an item of a sweep. -/
inductive Request
  | createOrder (now : Time) (confirm : Text → Except Err Unit) (orderId customerId : Id)
      (data : NewOrderInput)
  | acceptOrder (now : Time) (lockGranted : Bool) (conversationId orderId courierId : Id)
  | cancelOrder (now : Time) (orderId actorId : Id) (reason : Option Text)
  | createInvoice (now : Time) (ids : NewIds) (orderId courierId : Id) (data : NewInvoiceInput)
  | cancelInvoice (now : Time) (invoiceId courierId : Id)
  | createTopup (now : Time) (gateway : Gateway) (intentId topupId userId : Id) (amount : Decimal)
  | payInvoice (now : Time) (input : PayInput) (invoiceId customerId : Id)
  | handleWebhook (now : Time) (verified lockGranted : Bool) (correlationId : Id)
      (event : Except Err WebhookEvent)
  | expireInvoice (now : Time) (invoiceId : Id)
  | expireTopupIntent (intentId : Id)
  | submitDelivery (now : Time) (confirm : Text → Except Err Unit) (distance : Option ℚ)
      (orderId courierId : Id) (proofMediaKeys : List Text)
  | approveOrder (now : Time) (correlationId orderId customerId : Id)
  | autoApprove (now : Time) (correlationId orderId : Id)
  | raiseDispute (now : Time) (disputeId orderId actorId : Id) (reason : Text)
  | resolveDispute (now : Time) (correlationId disputeId adminId : Id) (outcome : DisputeStatus)
      (note : Option Text) (courierAmount : Option Decimal)
  | requestWithdrawal (withdrawalId courierId : Id) (amount : Decimal) (idempotencyKey : Text)
  | approveWithdrawal (withdrawalId adminId : Id)
  | rejectWithdrawal (withdrawalId adminId : Id) (reason : Text)
  | markPaid (correlationId withdrawalId adminId : Id)

/-- The transaction that serves a request. -/
def Request.tx (refresh : Bool) (s : Settings) : Request → Tx Unit
  | .createOrder now confirm orderId customerId data =>
    (OrderService.createOrder now confirm orderId customerId data).void
  | .acceptOrder now lockGranted conversationId orderId courierId =>
    (OrderService.acceptOrder now lockGranted conversationId orderId courierId).void
  | .cancelOrder now orderId actorId reason => (OrderService.cancelOrder now orderId actorId reason).void
  | .createInvoice now ids orderId courierId data =>
    InvoiceService.createInvoice s now ids orderId courierId data
  | .cancelInvoice now invoiceId courierId => InvoiceService.cancelInvoice now invoiceId courierId
  | .createTopup now gateway intentId topupId userId amount =>
    (PaymentService.createTopup s now gateway intentId topupId userId amount).void
  | .payInvoice now input invoiceId customerId =>
    (PaymentService.payInvoice refresh s now input invoiceId customerId).void
  | .handleWebhook now verified lockGranted correlationId event =>
    (PaymentService.handleWebhook refresh now verified lockGranted correlationId event).void
  | .expireInvoice now invoiceId => (Expiry.expireInvoice refresh now invoiceId).void
  | .expireTopupIntent intentId => (Expiry.expireTopupIntent intentId).void
  | .submitDelivery now confirm distance orderId courierId proofMediaKeys =>
    FulfillmentService.submitDelivery s now confirm distance orderId courierId proofMediaKeys
  | .approveOrder now correlationId orderId customerId =>
    FulfillmentService.approveOrder refresh s now correlationId orderId customerId
  | .autoApprove now correlationId orderId =>
    (FulfillmentService.autoApprove refresh s now correlationId orderId).void
  | .raiseDispute now disputeId orderId actorId reason =>
    FulfillmentService.raiseDispute now disputeId orderId actorId reason
  | .resolveDispute now correlationId disputeId adminId outcome note courierAmount =>
    FulfillmentService.resolveDispute refresh s now correlationId disputeId adminId outcome note
      courierAmount
  | .requestWithdrawal withdrawalId courierId amount idempotencyKey =>
    (WithdrawalService.requestWithdrawal refresh s withdrawalId courierId amount
      idempotencyKey).void
  | .approveWithdrawal withdrawalId adminId => WithdrawalService.approve withdrawalId adminId
  | .rejectWithdrawal withdrawalId adminId reason =>
    WithdrawalService.reject refresh withdrawalId adminId reason
  | .markPaid correlationId withdrawalId adminId =>
    WithdrawalService.markPaid refresh correlationId withdrawalId adminId

/-- The transaction that serves a request, with the request as its result. -/
def Request.logged (refresh : Bool) (s : Settings) (r : Request) : Tx Request := do
  r.tx refresh s
  return r

/-- The transactions of requests of a kind. -/
def Requested (refresh : Bool) (s : Settings) (kind : Request → Prop) (p : Tx Unit) : Prop :=
  ∃ r : Request, kind r ∧ p = r.tx refresh s

/-- The transactions of requests of a kind, which return the request when they commit. -/
def Logged (refresh : Bool) (s : Settings) (kind : Request → Prop) (p : Tx Request) : Prop :=
  ∃ r : Request, kind r ∧ p = r.logged refresh s

end Giftly
