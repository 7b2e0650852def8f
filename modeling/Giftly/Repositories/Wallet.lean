import Giftly.Statements
import Mathlib.Data.List.Dedup
import Mathlib.Data.List.Sort

/-!
# Wallets and the ledger

`repositories/wallet_repository.py`. A read of a wallet is answered by the instance of the row that
the session already holds, with the attributes it was loaded with; only the first read of a row
takes them from the database. This is so for a locking read too, unless it is told to refresh the
instance, and `refresh` is the parameter that says which of the two a session does.
-/

namespace Giftly

open Store (Prog)

namespace WalletRepository

/-- The instance of a row that was just read: the one the session holds, or a new one. -/
def instanceOf (id : Id) (row : Wallet) : Tx Wallet :=
  .orm (fun m => if (m.wallets id).isSome then m else m.setWallet id (some row)) fun m =>
    .ret ((m.wallets id).getD row)

/-- The first wallet that satisfies a condition, with its id. -/
def scalar (p : Wallet → Bool) : Tx (Option (Id × Wallet)) := do
  match ← Prog.query fun d => d.wallets.find? fun _ w => p w with
  | none => return none
  | some (id, row) => return some (id, ← instanceOf id row)

/-- `get_by_user`. -/
def getByUser (userId : Id) : Tx (Option (Id × Wallet)) := scalar fun w => w.userId = some userId

/-- `get_system`. -/
def getSystem (walletType : WalletType) : Tx (Id × Wallet) := do
  match ← scalar fun w => w.type = walletType && w.userId.isNone with
  | none => .raise .lookup
  | some w => return w

/-- One row of `lock_wallets`. -/
def lockWallet (refresh : Bool) (id : Id) : Tx (Option Wallet) :=
  .lock (fun d => (d.wallets.get? id).map fun _ => .wallet id) fun d =>
    match d.wallets.get? id with
    | none => .ret none
    | some row =>
      .orm (fun m => if (m.wallets id).isSome && !refresh then m else m.setWallet id (some row))
        fun m => .ret (m.wallets id)

/-- The rows of `lock_wallets`, in the order given. -/
def lockEach (refresh : Bool) : List Id → Tx (Id → Option Wallet)
  | [] => return fun _ => none
  | id :: ids => do
    let w ← lockWallet refresh id
    let rest ← lockEach refresh ids
    return Function.update rest id w

/-- `lock_wallets`: the given wallets, locked in ascending order of their ids. -/
def lockWallets (refresh : Bool) (ids : List Id) : Tx (Id → Option Wallet) :=
  lockEach refresh (ids.dedup.insertionSort (· ≤ ·))

/-- `idempotency_key_exists`. -/
def idempotencyKeyExists (key : IdempotencyKey) : Tx Bool :=
  Prog.query fun d => key ∈ ledgerKeys d.transactions

/-- A wallet row after the flush of a group, from the instances before and after its legs. -/
def written (loaded assigned : Id → Option Wallet) (id : Id) (row : Wallet) : Wallet :=
  match loaded id, assigned id with
  | some l, some a => l.assign a row
  | _, _ => row

/-- The constraints on the flush of a group: the wallets that it changes, its rows, and the unique
index over the idempotency keys. -/
def checkGroup (ids : List Id) (loaded assigned : Id → Option Wallet) (rows : List Transaction)
    (d : Db) : Option Err :=
  (ids.findSome? fun id =>
      ((d.post (written loaded assigned) rows).wallets.get? id).bind Wallet.check).or
    ((rows.findSome? (Transaction.check d)).or
      (if (ledgerKeys (d.transactions ++ rows)).Nodup then none
        else some (.integrity .uqTransactionsIdempotency)))

/-- The session with new instances of some wallets. -/
def remember (ids : List Id) (assigned : Id → Option Wallet) (m : Memory) : Memory :=
  { m with wallets := fun id => if id ∈ ids then assigned id else m.wallets id }

/-- The flush of a changed wallet, with its instance before and after the change. -/
def flushWallet (id : Id) (loaded assigned : Wallet) : Tx Unit := do
  updateRow [.wallet id] (·.wallets.get? id)
    (fun f d => d.updateWallet id f (assigned.heldBalance - loaded.heldBalance))
    (loaded.assign assigned) fun _ w => w.check
  .orm (fun m => m.setWallet id (some assigned)) fun _ => .ret ()

end WalletRepository

end Giftly
