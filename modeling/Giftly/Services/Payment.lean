import Giftly.Repositories.Payment
import Giftly.Services.Invoice
import Giftly.Services.Money

/-!
# The payment service

`services/payment_service.py`. A top-up and the gateway's part of an invoice are payment intents,
and the gateway's webhook settles them: it locks the intent by its payment link, and a success event
of the intent's amount posts the group that the intent is for.

What is outside the repository is a parameter: the answer of the gateway's client to a new checkout
(`checkout`), whether the webhook's signature is right, the parsed event, and whether the Redis lock
around a settlement was granted.
-/

namespace Giftly

open Store (Prog)
open OrderState WalletRepository

namespace PaymentService

/-- `StreamPayCheckout`: the payment link that the gateway created. -/
structure Checkout where
  paymentLinkId : Id
  paymentUrl : Text

/-- `StreamPayItem`. -/
structure StreamPayItem where
  name : Text
  description : Text
  amount : ℤ

/-- The gateway's client: what it answers to a checkout of some items. -/
abbrev Gateway := Id → List StreamPayItem → Except Err Checkout

/-- `TopupResult`. -/
structure TopupResult where
  intentId : Id
  amount : ℤ
  paymentUrl : Text

/-- The status of a `PayResult`. -/
inductive PayStatus
  | paid
  | pending
  deriving DecidableEq

/-- `PayResult`. -/
structure PayResult where
  invoiceId : Id
  status : PayStatus
  amountFromWallet : ℤ
  amountFromGateway : ℤ
  paymentUrl : Option Text

/-- `WebhookEvent`. -/
structure WebhookEvent where
  paymentLinkId : Id
  status : Text
  amount : Option ℤ

/-- The outcome of a webhook. -/
inductive WebhookOutcome
  | processed
  | alreadyProcessed
  | failed
  deriving DecidableEq

/-- `_expiry`. -/
def expiry (s : Settings) (now : Time) : Time := now + s.paymentExpiryHours * 3600

/-- `_create_checkout`: the user must be there, and the gateway must answer. -/
def createCheckout (gateway : Gateway) (intentId userId : Id) (items : List StreamPayItem) :
    Tx Checkout := do
  let user ← Prog.query fun d : Db => d.users.get? userId
  Prog.require (user.isSome = true) (.notFound "User not found.")
  Prog.ofExcept (gateway intentId items)

/-- A text. -/
def text (s : String) : Text := s.toList

/-- The characters that `str.strip` removes. -/
def isSpace (c : Char) : Bool :=
  let n := c.toNat
  (9 ≤ n && n ≤ 13) || (28 ≤ n && n ≤ 32) || n = 133 || n = 160 || n = 5760 ||
    (8192 ≤ n && n ≤ 8202) || n = 8232 || n = 8233 || n = 8239 || n = 8287 || n = 12288

/-- `str.strip`. -/
def strip (t : Text) : Text :=
  ((t.dropWhile isSpace).reverse.dropWhile isSpace).reverse

/-- `create_topup`. -/
def createTopup (s : Settings) (now : Time) (gateway : Gateway) (intentId topupId userId : Id)
    (amount : Decimal) : Tx TopupResult := do
  let amount ← Prog.ofExcept (quantizeMoney amount)
  Prog.require (s.minTopupAmount.le (.cents amount) && (Dec.cents amount).le s.maxTopupAmount)
    (.validationDomain ("Top-up must be between " ++ s.minTopupAmount.str ++ " and " ++
      s.maxTopupAmount.str ++ "."))
  match ← getByUser userId with
  | none => .raise (.notFound "Wallet not found.")
  | some (walletId, _) =>
    let intent := PaymentRepository.newIntent userId .walletTopup amount none (expiry s now)
    PaymentRepository.createIntent intentId intent
    PaymentRepository.createTopup topupId
      { userId, walletId, paymentIntentId := intentId, amount }
    let checkout ← createCheckout gateway intentId userId
      [{ name := text "SAFE-GIFT wallet top-up", description := text "Wallet credit", amount }]
    PaymentRepository.attachStreampay intentId intent checkout.paymentLinkId checkout.paymentUrl
    return { intentId, amount, paymentUrl := checkout.paymentUrl }

/-- `_invoice_checkout_items`: the lines of the invoice, with an adjustment, when they do not exceed
the amount to pay; else one line with the balance. The sums are of amounts that a column holds. -/
def invoiceCheckoutItems (invoiceId : Id) (paymentAmount : ℤ) (invoiceItems : List InvoiceItem) :
    List StreamPayItem :=
  let sourceTotal := (invoiceItems.map (·.lineTotalAmount)).sum
  if invoiceItems.isEmpty || sourceTotal > paymentAmount ||
      invoiceItems.any (fun t => t.lineTotalAmount < 100) then
    [{ name := text "SAFE-GIFT invoice " ++ (toString invoiceId).toList
       description := text "Outstanding invoice balance", amount := paymentAmount }]
  else
    let items := invoiceItems.map fun t : InvoiceItem =>
      { name := t.title
        description := strip (text "Quantity: " ++ (toString t.quantity).toList ++ text ". " ++
          t.description.getD [])
        amount := t.lineTotalAmount : StreamPayItem }
    let adjustment := paymentAmount - sourceTotal
    if 100 ≤ adjustment then
      items ++ [{ name := text "Invoice adjustment"
                  description := text "Delivery, service fees, tax, and discounts"
                  amount := adjustment }]
    else if 0 < adjustment then
      items.modify (items.length - 1) fun last => { last with amount := last.amount + adjustment }
    else items

/-- `_settle_invoice_record`: the invoice is `PAID`, the order goes on, and the promo is consumed. The
session flushes the invoice and the order at the first read that follows. -/
def settleInvoiceRecord (now : Time) (invoiceId : Id) (invoice : Invoice) (orderId : Id)
    (order : Order) (method : PaymentMethod) (walletAmount gatewayAmount : ℤ) : Tx Unit := do
  let walletAmount ← Prog.ofExcept (quantizeMoney (money walletAmount))
  let gatewayAmount ← Prog.ofExcept (quantizeMoney (money gatewayAmount))
  assertTransition order.status .inProgress
  OrderRepository.flush now orderId order { order with status := .inProgress }
  InvoiceRepository.flush invoiceId invoice
    { invoice with
      status := .paid, paidAt := some now, paymentMethod := some method
      amountFromWallet := walletAmount, amountFromGateway := gatewayAmount }
  PromoService.consume now invoiceId

/-- The ids and answers that a payment of an invoice gets from outside. -/
structure PayInput where
  intentId : Id
  correlationId : Id
  gateway : Gateway

/-- The wallet covers the invoice: settle at once. -/
def payFromWallet (refresh : Bool) (now : Time) (input : PayInput) (invoiceId : Id)
    (invoice : Invoice) (order : Order) (walletId : Id) (total : ℤ) : Tx PayResult := do
  let _ ← MoneyService.fundEscrowForInvoice refresh walletId (money total) (money 0) invoiceId
    invoice.orderId none false input.correlationId
  settleInvoiceRecord now invoiceId invoice invoice.orderId order .walletOnly total 0
  return { invoiceId, status := .paid, amountFromWallet := total, amountFromGateway := 0
           paymentUrl := none }

/-- A remainder is due from the gateway: hold the wallet's part, and open a payment intent. -/
def startGateway (refresh : Bool) (s : Settings) (now : Time) (input : PayInput) (invoiceId : Id)
    (invoice : Invoice) (customerId walletId : Id) (walletAmount gatewayAmount : ℤ) :
    Tx PayResult := do
  let method := if 0 < walletAmount then PaymentMethod.split else .gatewayOnly
  (MoneyService.holdFunds refresh walletId (money walletAmount)).when (0 < walletAmount)
  InvoiceRepository.flush invoiceId invoice
    { invoice with
      amountFromWallet := walletAmount, amountFromGateway := gatewayAmount
      paymentMethod := some method }
  let intent := PaymentRepository.newIntent customerId .orderInvoice gatewayAmount (some invoiceId)
    (expiry s now)
  PaymentRepository.createIntent input.intentId intent
  let items ← InvoiceRepository.listItems invoiceId
  let checkout ← createCheckout input.gateway input.intentId customerId
    (invoiceCheckoutItems invoiceId gatewayAmount items)
  PaymentRepository.attachStreampay input.intentId intent checkout.paymentLinkId checkout.paymentUrl
  return { invoiceId, status := .pending, amountFromWallet := walletAmount
           amountFromGateway := gatewayAmount, paymentUrl := some checkout.paymentUrl }

/-- The gateway branch of `pay_invoice`: an open intent is used again. -/
def payThroughGateway (refresh : Bool) (s : Settings) (now : Time) (input : PayInput)
    (invoiceId : Id) (invoice : Invoice) (customerId walletId : Id)
    (walletAmount gatewayAmount : ℤ) : Tx PayResult := do
  let existing ← PaymentRepository.getOpenIntentForInvoice invoiceId
  match existing.bind fun x => x.2.streampayPaymentUrl.map fun url => (x.2.amount, url) with
  | some (amount, url) =>
    return { invoiceId, status := .pending, amountFromWallet := invoice.amountFromWallet
             amountFromGateway := amount, paymentUrl := some url }
  | none =>
    startGateway refresh s now input invoiceId invoice customerId walletId walletAmount
      gatewayAmount

/-- `pay_invoice`: the invoice is read without a lock, and then the order is locked. -/
def payInvoice (refresh : Bool) (s : Settings) (now : Time) (input : PayInput)
    (invoiceId customerId : Id) : Tx PayResult := do
  match ← InvoiceRepository.getForActor invoiceId customerId with
  | none => .raise (.notFound "Invoice not found.")
  | some invoice =>
    InvoiceRepository.keep invoiceId invoice
    Prog.require (invoice.status = .issued) (.conflict "This invoice is not awaiting payment.")
    Prog.require (invoice.expiresAt.all (fun t => now ≤ t) = true)
      (.conflict "This invoice has expired.")
    match ← OrderRepository.lock invoice.orderId with
    | none => .raise (.notFound "Order not found.")
    | some order =>
      Prog.require (order.status = .waitingPayment)
        (.invalidStateTransition "This order is not awaiting payment.")
      match ← getByUser customerId with
      | none => .raise (.notFound "Wallet not found.")
      | some (walletId, _) =>
        let total ← Prog.ofExcept (quantizeMoney (money invoice.totalAmount))
        let available ← MoneyService.availableBalance customerId
        let walletAmount := min available total
        let gatewayAmount ← Prog.ofExcept
          (quantizeMoney (.finite ((Dec.cents total).sub (.cents walletAmount))))
        if gatewayAmount ≤ 0 then
          payFromWallet refresh now input invoiceId invoice order walletId total
        else
          payThroughGateway refresh s now input invoiceId invoice customerId walletId walletAmount
            gatewayAmount

/-- `_settle_topup`. -/
def settleTopup (refresh : Bool) (correlationId intentId : Id) (intent : PaymentIntent) :
    Tx Unit := do
  match ← getByUser intent.userId with
  | none => .raise (.notFound "Wallet not found.")
  | some (walletId, _) =>
    let _ ← MoneyService.creditTopup refresh walletId (money intent.amount) intentId correlationId
    return ()

/-- `_settle_invoice`. -/
def settleInvoice (refresh : Bool) (now : Time) (correlationId intentId : Id)
    (intent : PaymentIntent) : Tx Unit := do
  match intent.referenceInvoiceId with
  | none => .raise (.conflict "The payment intent has no invoice reference.")
  | some invoiceId =>
    match ← InvoiceRepository.lock invoiceId with
    | none => .raise (.notFound "Invoice not found.")
    | some invoice =>
      if invoice.status = .paid then return ()
      else
        match ← OrderRepository.lock invoice.orderId with
        | none => .raise (.notFound "Order not found.")
        | some order =>
          match ← getByUser intent.userId with
          | none => .raise (.notFound "Wallet not found.")
          | some (walletId, _) =>
            let _ ← MoneyService.fundEscrowForInvoice refresh walletId
              (money invoice.amountFromWallet) (money intent.amount) invoiceId invoice.orderId
              (some intentId) (decide (0 < invoice.amountFromWallet)) correlationId
            settleInvoiceRecord now invoiceId invoice invoice.orderId order
              (invoice.paymentMethod.getD .gatewayOnly) invoice.amountFromWallet intent.amount

/-- The settlement of an intent, by its purpose. -/
def settleIntent (refresh : Bool) (now : Time) (correlationId intentId : Id)
    (intent : PaymentIntent) : Tx Unit :=
  match intent.purpose with
  | .walletTopup => settleTopup refresh correlationId intentId intent
  | .orderInvoice => settleInvoice refresh now correlationId intentId intent

/-- The upper case of the characters that can make up `PAID`. -/
def upper : Char → Char
  | 'p' => 'P'
  | 'a' => 'A'
  | 'i' => 'I'
  | 'ı' => 'I'
  | 'd' => 'D'
  | c => c

/-- `event.status.upper() == "PAID"`. -/
def isPaid (status : Text) : Bool := status.map upper = ['P', 'A', 'I', 'D']

/-- `_settle_locked`. -/
def settleLocked (refresh : Bool) (now : Time) (correlationId : Id) (event : WebhookEvent) :
    Tx WebhookOutcome := do
  match ← PaymentRepository.lockIntentByPaymentLink event.paymentLinkId with
  | none => .raise (.notFound "Unknown StreamPay payment link.")
  | some (intentId, intent) =>
    if intent.status ≠ .new then return .alreadyProcessed
    else if isPaid event.status = false then
      PaymentRepository.markFailed intentId intent event.status
      return .failed
    else
      let quantized ← Prog.ofExcept (event.amount.mapM fun n => quantizeMoney (money n))
      let due ← Prog.ofExcept (quantizeMoney (money intent.amount))
      Prog.require (quantized = some due) .paymentAmountMismatch
      settleIntent refresh now correlationId intentId intent
      PaymentRepository.markPaid intentId intent now
      return .processed

/-- `handle_webhook`. -/
def handleWebhook (refresh : Bool) (now : Time) (verified : Bool) (lockGranted : Bool)
    (correlationId : Id) (event : Except Err WebhookEvent) : Tx WebhookOutcome := do
  Prog.require (verified = true) .invalidWebhookSignature
  let event ← Prog.ofExcept event
  Prog.require (lockGranted = true) .lockNotAcquired
  settleLocked refresh now correlationId event

end PaymentService

end Giftly
