import Giftly.Repositories.Wallet

/-!
# The ledger

`services/money_service.py`, the only code that moves money. Every movement is a group of legs
whose amounts sum to zero, and `postGroup` posts it: it checks the legs, looks for a replay by the
idempotency keys, locks the wallets, applies the legs to the balances and appends one row a leg. The
flush runs in a savepoint. When it violates a constraint, a second look at the keys tells a replay
that another transaction won from an error. Holds change the held balance of a wallet and post
nothing.
-/

namespace Giftly

open Store (Prog)
open WalletRepository

namespace MoneyService

/-- One side of a double-entry movement. An infinity or a NaN is never a leg: every operation
quantizes its amounts first, and the checks of a group raise on what is left. -/
structure Leg where
  walletId : Id
  amount : Dec
  txnType : TransactionType
  idempotencyKey : Option IdempotencyKey := none
  referenceOrderId : Option Id := none
  referenceInvoiceId : Option Id := none
  referenceIntentId : Option Id := none
  description : Option String := none

/-- `_validate_legs`: at least two legs, none of them zero, that sum to zero. -/
def validateLegs (legs : List Leg) : Except Err Unit := do
  if legs.length < 2 then
    throw (.ledgerImbalance "A ledger group needs at least two legs.")
  let total := sumDec (legs.map (·.amount))
  if (← quantizeMoney (.finite total)) ≠ 0 then
    throw (.ledgerImbalance ("Ledger group does not sum to zero (got " ++ total.str ++ ")."))
  legs.forM fun leg => do
    if (← quantizeMoney (.finite leg.amount)) = 0 then
      throw (.ledgerImbalance "A ledger leg amount must be non-zero.")

/-- `_any_key_exists`. -/
def anyKeyExists : List Leg → Tx Bool
  | [] => return false
  | leg :: legs =>
    match leg.idempotencyKey with
    | none => anyKeyExists legs
    | some key => do
      if ← idempotencyKeyExists key then return true else anyKeyExists legs

/-- One leg applied to the instance of its wallet, with the ledger row it appends. -/
def applyLeg (correlationId : Id) (locked : Id → Option Wallet) (leg : Leg) :
    Except Err ((Id → Option Wallet) × Transaction) :=
  match locked leg.walletId with
  | none => .error .key
  | some wallet => do
    let balance ← quantizeMoney (.finite ((Dec.cents wallet.balance).add leg.amount))
    let amount ← quantizeMoney (.finite leg.amount)
    return (Function.update locked leg.walletId
        (some { wallet with balance := balance, version := wallet.version + 1 }),
      { walletId := leg.walletId
        amount := amount
        type := leg.txnType
        status := .settled
        correlationId := correlationId
        balanceAfter := balance
        idempotencyKey := leg.idempotencyKey
        referenceOrderId := leg.referenceOrderId
        referenceInvoiceId := leg.referenceInvoiceId
        referenceIntentId := leg.referenceIntentId
        description := leg.description })

/-- The legs applied one after the other. -/
def applyLegs (correlationId : Id) : (Id → Option Wallet) → List Leg →
    Except Err ((Id → Option Wallet) × List Transaction)
  | locked, [] => .ok (locked, [])
  | locked, leg :: legs => do
    let (locked, row) ← applyLeg correlationId locked leg
    let (locked, rows) ← applyLegs correlationId locked legs
    return (locked, row :: rows)

/-- The wallets of a group's legs. -/
def walletIds (legs : List Leg) : List Id := legs.map (·.walletId)

/-- The idempotency keys of a group's legs. -/
def legKeys (legs : List Leg) : List IdempotencyKey := legs.filterMap (·.idempotencyKey)

/-- The flush of a group inside its savepoint, and what follows a violated constraint. -/
def flushGroup (legs : List Leg) (loaded assigned : Id → Option Wallet) (rows : List Transaction) :
    Tx Bool :=
  .write ((legKeys legs).map .idempotency ++ (walletIds legs).map .wallet)
    (Db.post (written loaded assigned) rows)
    (checkGroup (walletIds legs) loaded assigned rows)
    (.orm (remember (walletIds legs) assigned) fun _ => .ret true)
    fun e =>
      match e with
      | .integrity c =>
        -- The rolled back savepoint expires the instances that were changed inside it.
        .orm (remember (walletIds legs) fun _ => none) fun _ => do
          if ← anyKeyExists legs then return false else .raise (.integrity c)
      | e => .raise e

/-- `post_group`: `true` when the group was posted, `false` when it is a replay. -/
def postGroup (refresh : Bool) (legs : List Leg) (correlationId : Id) : Tx Bool := do
  Prog.ofExcept (validateLegs legs)
  if ← anyKeyExists legs then return false
  let locked ← lockWallets refresh (walletIds legs)
  let (assigned, rows) ← Prog.ofExcept (applyLegs correlationId locked legs)
  flushGroup legs locked assigned rows

/-- The legs of `credit_topup`. -/
def topupLegs (userWalletId gateway intentId : Id) (credit debit : ℤ) : List Leg :=
  [{ walletId := userWalletId, amount := .cents credit, txnType := .topup
     idempotencyKey := some (.topup intentId), referenceIntentId := some intentId },
   { walletId := gateway, amount := .cents debit, txnType := .topup
     referenceIntentId := some intentId }]

/-- `credit_topup`. -/
def creditTopup (refresh : Bool) (userWalletId : Id) (amount : Decimal) (intentId : Id)
    (correlationId : Id) : Tx Bool := do
  let (gateway, _) ← getSystem .systemGateway
  let credit ← Prog.ofExcept (quantizeMoney amount)
  let debit ← Prog.ofExcept (quantizeMoney amount.neg)
  postGroup refresh (topupLegs userWalletId gateway intentId credit debit) correlationId

/-- A leg of a payout of an order's escrow. -/
def payoutLeg (orderId invoiceId walletId : Id) (amount : Dec) (txnType : TransactionType)
    (key : Option IdempotencyKey) : Leg :=
  { walletId := walletId, amount := amount, txnType := txnType, idempotencyKey := key
    referenceOrderId := some orderId, referenceInvoiceId := some invoiceId }

/-- The legs of `release_escrow_on_completion`. -/
def releaseLegs (orderId invoiceId escrow courierWalletId taxWallet revenueWallet : Id)
    (total courierPayout tax revenue : ℤ) : List Leg :=
  [payoutLeg orderId invoiceId escrow (Dec.cents total).neg .escrowRelease
      (some (.release orderId)),
    payoutLeg orderId invoiceId courierWalletId (.cents courierPayout) .escrowRelease none] ++
  (if tax ≠ 0 then [payoutLeg orderId invoiceId taxWallet (.cents tax) .tax none] else []) ++
  (if revenue ≠ 0 then
    [payoutLeg orderId invoiceId revenueWallet (.cents revenue) .commission none] else [])

/-- `release_escrow_on_completion`. -/
def releaseEscrowOnCompletion (refresh : Bool) (orderId invoiceId courierWalletId : Id)
    (courierPayoutAmount taxAmount platformRevenueAmount : Decimal) (correlationId : Id) :
    Tx Bool := do
  let courierPayout ← Prog.ofExcept (quantizeMoney courierPayoutAmount)
  let tax ← Prog.ofExcept (quantizeMoney taxAmount)
  let revenue ← Prog.ofExcept (quantizeMoney platformRevenueAmount)
  let total ← Prog.ofExcept (quantizeMoney
    (.finite (((Dec.cents courierPayout).add (.cents tax)).add (.cents revenue))))
  let (escrow, _) ← getSystem .systemEscrow
  let (taxWallet, _) ← getSystem .systemTaxPayable
  let (revenueWallet, _) ← getSystem .systemRevenue
  postGroup refresh (releaseLegs orderId invoiceId escrow courierWalletId taxWallet revenueWallet
    total courierPayout tax revenue) correlationId

/-- The legs of `refund_escrow`. -/
def refundLegs (orderId invoiceId escrow customerWalletId : Id) (amount : ℤ) : List Leg :=
  [payoutLeg orderId invoiceId escrow (Dec.cents amount).neg .refund (some (.refund orderId)),
   payoutLeg orderId invoiceId customerWalletId (.cents amount) .refund none]

/-- `refund_escrow`. -/
def refundEscrow (refresh : Bool) (orderId invoiceId customerWalletId : Id) (amount : Decimal)
    (correlationId : Id) : Tx Bool := do
  let amount ← Prog.ofExcept (quantizeMoney amount)
  let (escrow, _) ← getSystem .systemEscrow
  postGroup refresh (refundLegs orderId invoiceId escrow customerWalletId amount) correlationId

/-- The legs of `split_escrow`. -/
def splitLegs (orderId invoiceId escrow courierWalletId customerWalletId : Id)
    (total courierAmount refundAmount : ℤ) : List Leg :=
  [payoutLeg orderId invoiceId escrow (Dec.cents total).neg .escrowRelease
      (some (.split orderId))] ++
  (if courierAmount ≠ 0 then
    [payoutLeg orderId invoiceId courierWalletId (.cents courierAmount) .escrowRelease none]
    else []) ++
  (if refundAmount ≠ 0 then
    [payoutLeg orderId invoiceId customerWalletId (.cents refundAmount) .refund none] else [])

/-- `split_escrow`. -/
def splitEscrow (refresh : Bool) (orderId invoiceId courierWalletId customerWalletId : Id)
    (courierAmount refundAmount : Decimal) (correlationId : Id) : Tx Bool := do
  let courierAmount ← Prog.ofExcept (quantizeMoney courierAmount)
  let refundAmount ← Prog.ofExcept (quantizeMoney refundAmount)
  let total ← Prog.ofExcept (quantizeMoney
    (.finite ((Dec.cents courierAmount).add (.cents refundAmount))))
  let (escrow, _) ← getSystem .systemEscrow
  postGroup refresh (splitLegs orderId invoiceId escrow courierWalletId customerWalletId total
    courierAmount refundAmount) correlationId

/-- `quantize_money(wallet.balance - wallet.held_balance)`. -/
def available (w : Wallet) : Except Err ℤ :=
  quantizeMoney (.finite ((Dec.cents w.balance).sub (.cents w.heldBalance)))

/-- `available_balance`. -/
def availableBalance (userId : Id) : Tx ℤ := do
  match ← getByUser userId with
  | none => return 0
  | some (_, wallet) => Prog.ofExcept (available wallet)

/-- `hold_funds` up to its flush: the instance of the wallet before and after the hold. -/
def reserveFunds (refresh : Bool) (walletId : Id) (amount : Decimal) : Tx (Wallet × Wallet) := do
  let amount ← Prog.ofExcept (quantizeMoney amount)
  match (← lockWallets refresh [walletId]) walletId with
  | none => .raise .key
  | some wallet =>
    Prog.require (amount ≤ (← Prog.ofExcept (available wallet))) .insufficientFunds
    let held ← Prog.ofExcept
      (quantizeMoney (.finite ((Dec.cents wallet.heldBalance).add (.cents amount))))
    return (wallet, { wallet with heldBalance := held, version := wallet.version + 1 })

/-- `hold_funds`. -/
def holdFunds (refresh : Bool) (walletId : Id) (amount : Decimal) : Tx Unit := do
  let (loaded, assigned) ← reserveFunds refresh walletId amount
  flushWallet walletId loaded assigned

/-- `release_hold`: a release above the hold is clamped, with a warning in the log. -/
def releaseHold (refresh : Bool) (walletId : Id) (amount : Decimal) : Tx Unit := do
  let amount ← Prog.ofExcept (quantizeMoney amount)
  match (← lockWallets refresh [walletId]) walletId with
  | none => .raise .key
  | some wallet =>
    let held ← Prog.ofExcept (quantizeMoney
      (.finite (zero.max ((Dec.cents wallet.heldBalance).sub (.cents amount)))))
    flushWallet walletId wallet { wallet with heldBalance := held, version := wallet.version + 1 }

/-- The legs of `pay_withdrawal`. -/
def withdrawalLegs (courierWalletId gateway withdrawalId : Id) (amount : ℤ) : List Leg :=
  [{ walletId := courierWalletId, amount := (Dec.cents amount).neg, txnType := .withdrawal
     idempotencyKey := some (.paid withdrawalId)
     description := some s!"Courier withdrawal {withdrawalId}" },
   { walletId := gateway, amount := .cents amount, txnType := .withdrawal
     description := some s!"Courier withdrawal {withdrawalId}" }]

/-- `pay_withdrawal`. -/
def payWithdrawal (refresh : Bool) (courierWalletId : Id) (amount : Decimal) (withdrawalId : Id)
    (correlationId : Id) : Tx Bool := do
  let amount ← Prog.ofExcept (quantizeMoney amount)
  let (gateway, _) ← getSystem .systemGateway
  let posted ← postGroup refresh (withdrawalLegs courierWalletId gateway withdrawalId amount)
    correlationId
  (releaseHold refresh courierWalletId (money amount)).when (posted = true)
  return posted

/-- A leg of the funding of an invoice's escrow. -/
def fundingLeg (invoiceId orderId : Id) (intentId : Option Id) (walletId : Id) (amount : Dec)
    (txnType : TransactionType) (key : Option IdempotencyKey) : Leg :=
  { walletId := walletId, amount := amount, txnType := txnType, idempotencyKey := key
    referenceOrderId := some orderId, referenceInvoiceId := some invoiceId
    referenceIntentId := intentId }

/-- The legs of `fund_escrow_for_invoice`. -/
def fundingLegs (customerWalletId gateway escrow invoiceId orderId : Id) (intentId : Option Id)
    (total walletAmount gatewayAmount : ℤ) : List Leg :=
  (if 0 < walletAmount then
    [fundingLeg invoiceId orderId intentId customerWalletId (Dec.cents walletAmount).neg .payment
      none] else []) ++
  (if 0 < gatewayAmount then
    [fundingLeg invoiceId orderId intentId gateway (Dec.cents gatewayAmount).neg .payment none]
    else []) ++
  [fundingLeg invoiceId orderId intentId escrow (.cents total) .escrowHold
    (some (.escrow invoiceId))]

/-- `fund_escrow_for_invoice`. -/
def fundEscrowForInvoice (refresh : Bool) (customerWalletId : Id)
    (walletAmount gatewayAmount : Decimal) (invoiceId orderId : Id) (intentId : Option Id)
    (wasHeld : Bool) (correlationId : Id) : Tx Bool := do
  let walletAmount ← Prog.ofExcept (quantizeMoney walletAmount)
  let gatewayAmount ← Prog.ofExcept (quantizeMoney gatewayAmount)
  let total ← Prog.ofExcept (quantizeMoney
    (.finite ((Dec.cents walletAmount).add (.cents gatewayAmount))))
  let (escrow, _) ← getSystem .systemEscrow
  let (gateway, _) ← getSystem .systemGateway
  let posted ← postGroup refresh (fundingLegs customerWalletId gateway escrow invoiceId orderId
    intentId total walletAmount gatewayAmount) correlationId
  -- The reservation is returned on the first successful post, never on a replay.
  (releaseHold refresh customerWalletId (money walletAmount)).when
    (posted = true ∧ wasHeld = true ∧ 0 < walletAmount)
  return posted

end MoneyService

end Giftly
