import Giftly.Requests
import Giftly.Store.Outbox

/-!
# Receipts

`services/receipt_service.py` and `workers/receipts.py`: a paid invoice is sent to its customer once. A
pass of the sweeper lists the pending invoices in a transaction of its own and then sends each receipt
in a transaction of its own, which is rolled back when it raises; its Redis lock keeps no other pass
from running, since it lapses after `_LOCK_TTL_SECONDS`.

The answer of the email client is an argument, and so is the time. The addresses of the users are a
function: no transaction of this file writes `users.email`. The session's outbox holds what the email
client has accepted.
-/

namespace Giftly

open Store (Prog)

/-- The template variables of a receipt. The ids and `paid_at` are the values that the source renders
as texts. -/
structure ReceiptVariables where
  invoiceId : Id
  orderId : Id
  currency : String
  itemsNetAmount : String
  courierFeeAmount : String
  serviceFeeAmount : String
  discountAmount : String
  taxAmount : String
  totalAmount : String
  promoCode : Text
  paidAt : Option Time

/-- What `send_transactional` is called with. -/
structure Receipt where
  toEmail : Text
  templateKey : String
  templateVariables : ReceiptVariables

/-- The invoice of a receipt. -/
def Receipt.invoiceId (r : Receipt) : Id := r.templateVariables.invoiceId

/-- A transaction that may send receipts. -/
abbrev MailTx := Prog Db Row Err (Memory × List Receipt)

namespace InvoiceRepository

/-- `list_receipt_pending`: the `PAID` invoices without a receipt, oldest first. -/
def listReceiptPending (limit : ℕ) : Tx (List Id) :=
  Prog.query fun d => (((d.invoices.rows.filter fun r =>
    r.2.status = .paid && r.2.receiptEmailSentAt.isNone).insertionSort fun a b =>
      a.2.paidAt.getD 0 ≤ b.2.paidAt.getD 0).take limit).map Prod.fst

/-- `mark_receipt_sent`, on an invoice that was loaded without a receipt. -/
def markReceiptSent (invoiceId : Id) (when : Time) : Tx Unit :=
  updateRow [.invoice invoiceId] (·.invoices.get? invoiceId) (Db.updateInvoice invoiceId)
    (fun i => { i with receiptEmailSentAt := some when }) (checkRow invoiceId)

end InvoiceRepository

namespace ReceiptService

/-- The addresses of the users, and the setting `SNDR_INVOICE_PAID_TEMPLATE_KEY`. -/
structure Env where
  emailOf : Id → Option Text
  invoicePaidTemplateKey : Option String

/-- `_template_key`. -/
def templateKey (env : Env) : String :=
  match env.invoicePaidTemplateKey with
  | none => "invoice_paid_receipt"
  | some key => if key = "" then "invoice_paid_receipt" else key

/-- `money_str` of a money column. -/
def moneyStr (amount : ℤ) : String := (Dec.cents amount).str

/-- The receipt of an invoice. -/
def receipt (env : Env) (toEmail : Text) (invoiceId : Id) (invoice : Invoice) : Receipt where
  toEmail := toEmail
  templateKey := templateKey env
  templateVariables :=
    { invoiceId := invoiceId
      orderId := invoice.orderId
      currency := "SAR"
      itemsNetAmount := moneyStr invoice.itemsNetAmount
      courierFeeAmount := moneyStr invoice.courierFeeAmount
      serviceFeeAmount := moneyStr invoice.serviceFeeAmount
      discountAmount := moneyStr invoice.discountAmount
      taxAmount := moneyStr invoice.taxAmount
      totalAmount := moneyStr invoice.totalAmount
      promoCode := invoice.promoCodeSnapshot.getD []
      paidAt := invoice.paidAt }

/-- The address of a customer who is there, unless it is empty. -/
def Env.address (env : Env) (customerId : Id) (user : Option User) : Option Text :=
  user.bind fun _ => (env.emailOf customerId).filter fun email => !email.isEmpty

/-- The address that `send_receipt` sends to. -/
def addressOf (env : Env) (orderId : Id) : Tx (Option Text) := do
  match ← Prog.query fun d : Db => d.orders.get? orderId with
  | none => return none
  | some order =>
    let user ← Prog.query fun d : Db => d.users.get? order.customerId
    return env.address order.customerId user

/-- `send_receipt`. The receipt is sent first, and then the invoice is stamped. -/
def sendReceipt (env : Env) (now : Time) (answer : Except Err Unit) (invoiceId : Id) :
    MailTx Bool := do
  match ← (InvoiceRepository.lock invoiceId).silent with
  | none => return false
  | some invoice =>
    if invoice.status ≠ .paid ∨ invoice.receiptEmailSentAt.isSome = true then return false
    else
      match ← (addressOf env invoice.orderId).silent with
      | none =>
        (InvoiceRepository.markReceiptSent invoiceId now).silent
        return false
      | some email =>
        Prog.ofExcept answer
        Prog.send (receipt env email invoiceId invoice)
        (InvoiceRepository.markReceiptSent invoiceId now).silent
        return true

/-- A payment that may settle an invoice. -/
def Settles : Request → Prop
  | .payInvoice .. | .handleWebhook .. => True
  | _ => False

/-- The transactions of passes of `send_pending_receipts`, whatever invoices a pass has on its list,
and of payments. -/
inductive Delivers (env : Env) (refresh : Bool) (s : Settings) : MailTx Unit → Prop
  | list (limit : ℕ) :
    Delivers env refresh s (InvoiceRepository.listReceiptPending limit).silent.void
  | send (now : Time) (answer : Except Err Unit) (invoiceId : Id) :
    Delivers env refresh s (sendReceipt env now answer invoiceId).void
  | settle (r : Request) : Settles r → Delivers env refresh s (r.tx refresh s).silent

end ReceiptService

end Giftly
