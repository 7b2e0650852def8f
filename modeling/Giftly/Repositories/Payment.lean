import Giftly.Statements
import Mathlib.Data.List.Sort

/-!
# Payment intents, top-ups and withdrawals

`repositories/payment_repository.py` and `repositories/withdrawal_repository.py`. A payment intent
is the one record of a payment that the gateway takes, and it is found by the id of its payment
link.
-/

namespace Giftly

open Store (Prog)

namespace PaymentRepository

/-- A `NEW` payment intent. -/
def newIntent (userId : Id) (purpose : PaymentPurpose) (amount : ℤ)
    (referenceInvoiceId : Option Id) (expiresAt : Time) : PaymentIntent where
  userId := userId
  purpose := purpose
  amount := amount
  status := .new
  referenceInvoiceId := referenceInvoiceId
  streampayPaymentLinkId := none
  streampayPaymentUrl := none
  expiresAt := expiresAt
  paidAt := none
  failureReason := none

/-- `create_intent`. -/
def createIntent (id : Id) (intent : PaymentIntent) : Tx Unit :=
  insertRow [.intent id] (·.intents.get? id) (Db.insertIntent id intent) fun d =>
    if (d.users.get? intent.userId).isSome &&
        (intent.referenceInvoiceId.all fun i => (d.invoices.get? i).isSome) then intent.check
    else some (.integrity .foreignKey)

/-- The flush of a payment intent, from its instance before and after the request's changes. -/
def flush (names : List Row) (id : Id) (loaded assigned : PaymentIntent) : Tx Unit :=
  if assigned = loaded then .ret ()
  else updateRow (.intent id :: names) (·.intents.get? id) (Db.updateIntent id)
    (loaded.assign assigned) fun d p =>
      p.check.or (if p.soleLink d id then none else some (.integrity .uqPaymentIntentsStreampayLink))

/-- `attach_streampay`. -/
def attachStreampay (id : Id) (intent : PaymentIntent) (paymentLinkId : Id) (url : Text) :
    Tx Unit :=
  flush [.paymentLink paymentLinkId] id intent
    { intent with streampayPaymentLinkId := some paymentLinkId, streampayPaymentUrl := some url }

/-- `create_topup`. -/
def createTopup (id : Id) (topup : WalletTopup) : Tx Unit :=
  insertRow [.topup id] (·.topups.get? id) (Db.insertTopup id topup) fun d =>
    if (d.users.get? topup.userId).isSome && (d.wallets.get? topup.walletId).isSome &&
        (d.intents.get? topup.paymentIntentId).isSome then topup.check
    else some (.integrity .foreignKey)

/-- `lock_intent_by_payment_link`. -/
def lockIntentByPaymentLink (paymentLinkId : Id) : Tx (Option (Id × PaymentIntent)) :=
  let find := fun d : Db =>
    d.intents.find? fun _ p => p.streampayPaymentLinkId = some paymentLinkId
  .lock (fun d => (find d).map fun r => .intent r.1) fun d => .ret (find d)

/-- `get_open_intent_for_invoice`. -/
def getOpenIntentForInvoice (invoiceId : Id) : Tx (Option (Id × PaymentIntent)) :=
  Prog.query fun d => d.intents.find? fun _ p =>
    p.referenceInvoiceId = some invoiceId && p.status = .new

/-- `list_expired_new`: the `NEW` intents whose expiry has passed, oldest first. -/
def listExpiredNew (now : Time) (limit : ℕ) : Tx (List (Id × PaymentIntent)) :=
  Prog.query fun d => ((d.intents.rows.filter fun r =>
    r.2.status = .new && r.2.expiresAt < now).insertionSort fun a b =>
      a.2.expiresAt ≤ b.2.expiresAt).take limit

/-- `lock_intent`. -/
def lockIntent (intentId : Id) : Tx (Option PaymentIntent) :=
  .lock (fun d => (d.intents.get? intentId).map fun _ => .intent intentId) fun d =>
    .ret (d.intents.get? intentId)

/-- `mark_expired`. -/
def markExpired (id : Id) (intent : PaymentIntent) : Tx Unit :=
  flush [] id intent { intent with status := .expired }

/-- `mark_paid`. -/
def markPaid (id : Id) (intent : PaymentIntent) (paidAt : Time) : Tx Unit :=
  flush [] id intent { intent with status := .paid, paidAt := some paidAt }

/-- `mark_failed`. -/
def markFailed (id : Id) (intent : PaymentIntent) (reason : Text) : Tx Unit :=
  flush [] id intent { intent with status := .failed, failureReason := some (reason.take 255) }

end PaymentRepository

namespace WithdrawalRepository

/-- `get_by_idempotency`. -/
def getByIdempotency (courierId : Id) (idempotencyKey : Text) : Tx (Option (Id × Withdrawal)) :=
  Prog.query fun d => d.withdrawals.find? fun _ w =>
    w.courierId = courierId && w.idempotencyKey = some idempotencyKey

/-- The constraints on a new withdrawal. -/
def checkNew (w : Withdrawal) (d : Db) : Option Err :=
  if (d.withdrawals.find? fun _ v =>
      v.courierId = w.courierId && v.idempotencyKey = w.idempotencyKey).isSome then
    some (.integrity .uqWithdrawalsCourierIdempotency)
  else if (d.users.get? w.courierId).isSome && (d.wallets.get? w.walletId).isSome then w.check
  else some (.integrity .foreignKey)

/-- `get_for_update`. -/
def getForUpdate (withdrawalId : Id) : Tx (Option Withdrawal) :=
  .lock (fun d => (d.withdrawals.get? withdrawalId).map fun _ => .withdrawal withdrawalId) fun d =>
    .ret (d.withdrawals.get? withdrawalId)

/-- `set_status`. -/
def setStatus (id : Id) (row : Withdrawal) (status : WithdrawalStatus) (adminId : Id)
    (rejectionReason : Option Text) : Tx Unit :=
  updateRow [.withdrawal id] (·.withdrawals.get? id) (Db.updateWithdrawal id)
    (row.assign { row with
      status := status, processedByAdminId := some adminId, rejectionReason := rejectionReason })
    fun d w => if (d.users.get? adminId).isSome then w.check else some (.integrity .foreignKey)

end WithdrawalRepository

end Giftly
