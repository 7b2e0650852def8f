import Giftly.Repositories.Payment
import Giftly.Services.Money

/-!
# Courier withdrawals

`services/withdrawal_service.py`. A request holds the amount and stores the withdrawal in one
savepoint, an approval keeps the hold, a rejection returns it, and a payout debits the wallet and
returns it. The encryption of the IBAN and the audit records are left out.
-/

namespace Giftly

open Store (Prog)
open WalletRepository

namespace WithdrawalService

/-- The flush of a request in its savepoint: the wallet with its hold, and the new row. A violated
constraint undoes both, and a second look at the key tells a replay from an error. -/
def flushRequest (withdrawalId : Id) (row : Withdrawal) (idempotencyKey : Text)
    (loaded assigned : Wallet) : Tx Withdrawal :=
  .write [.wallet row.walletId, .withdrawal withdrawalId,
      .withdrawalKey row.courierId idempotencyKey]
    (fun d => (d.updateWallet row.walletId (loaded.assign assigned)
      (assigned.heldBalance - loaded.heldBalance)).insertWithdrawal withdrawalId row)
    (fun d => (match d.wallets.get? row.walletId with
        | none => some Err.staleData
        | some w => (loaded.assign assigned w).check).or
      (if (d.withdrawals.get? withdrawalId).isSome then some (.integrity .primaryKey)
        else WithdrawalRepository.checkNew row d))
    (.orm (fun m => m.setWallet row.walletId (some assigned)) fun _ => .ret row)
    fun e =>
      match e with
      | .integrity c =>
        .orm (fun m => m.setWallet row.walletId none) fun _ => do
          match ← WithdrawalRepository.getByIdempotency row.courierId idempotencyKey with
          | some (_, replay) => return replay
          | none => .raise (.integrity c)
      | e => .raise e

/-- `request_withdrawal`. -/
def requestWithdrawal (refresh : Bool) (s : Settings) (withdrawalId courierId : Id)
    (amount : Decimal) (idempotencyKey : Text) : Tx Withdrawal := do
  match ← WithdrawalRepository.getByIdempotency courierId idempotencyKey with
  | some (_, existing) => return existing
  | none =>
    let amount ← Prog.ofExcept (quantizeMoney amount)
    Prog.require
      (s.minWithdrawalAmount.le (.cents amount) && (Dec.cents amount).le s.maxWithdrawalAmount)
      (.validationDomain "Withdrawal amount is outside the allowed range.")
    match ← getByUser courierId with
    | none => .raise (.notFound "Wallet not found.")
    | some (walletId, _) =>
      let (loaded, assigned) ← MoneyService.reserveFunds refresh walletId (money amount)
      flushRequest withdrawalId
        { courierId, walletId, amount, status := .requested, idempotencyKey := some idempotencyKey
          processedByAdminId := none, rejectionReason := none }
        idempotencyKey loaded assigned

/-- `_get_locked`. -/
def getLocked (withdrawalId : Id) : Tx Withdrawal := do
  match ← WithdrawalRepository.getForUpdate withdrawalId with
  | none => .raise (.notFound "Withdrawal not found.")
  | some row => return row

/-- `approve`. -/
def approve (withdrawalId adminId : Id) : Tx Unit := do
  let row ← getLocked withdrawalId
  if row.status = .approved then return ()
  else
    Prog.require (row.status = .requested)
      (.invalidStateTransition "Only requested withdrawals may be approved.")
    WithdrawalRepository.setStatus withdrawalId row .approved adminId none

/-- `reject`. -/
def reject (refresh : Bool) (withdrawalId adminId : Id) (reason : Text) : Tx Unit := do
  let row ← getLocked withdrawalId
  if row.status = .rejected then return ()
  else
    Prog.require (row.status = .requested ∨ row.status = .approved)
      (.invalidStateTransition "This withdrawal can no longer be rejected.")
    MoneyService.releaseHold refresh row.walletId (money row.amount)
    WithdrawalRepository.setStatus withdrawalId row .rejected adminId (some reason)

/-- `mark_paid`. -/
def markPaid (refresh : Bool) (correlationId withdrawalId adminId : Id) : Tx Unit := do
  let row ← getLocked withdrawalId
  if row.status = .paid then return ()
  else
    Prog.require (row.status = .approved)
      (.invalidStateTransition "Only approved withdrawals may be paid.")
    let posted ← MoneyService.payWithdrawal refresh row.walletId (money row.amount) withdrawalId
      correlationId
    Prog.require (posted = true) (.invalidStateTransition "This withdrawal was already paid.")
    WithdrawalRepository.setStatus withdrawalId row .paid adminId none

end WithdrawalService

end Giftly
