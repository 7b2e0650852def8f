import Giftly.Ledger.Operations
import Giftly.Seed

/-!
# The ledger invariant

Any sequence of calls of the ledger service, each one transaction executed alone, keeps the books:
every balance is the sum of the wallet's settled rows and the balance that its last row records,
every correlation sums to zero, all balances sum to zero, and no account is overdrawn but those that
may be. The amounts are any `Decimal`s and the ids are any ids. What a call does to the database is
a sequence of movements (`Moves`), and a movement keeps the invariant.
-/

namespace Giftly

open Store
open WalletRepository MoneyService

/-- A call of the ledger service. -/
inductive MoneyCall
  | creditTopup (userWalletId : Id) (amount : Decimal) (intentId correlationId : Id)
  | fundEscrowForInvoice (customerWalletId : Id) (walletAmount gatewayAmount : Decimal)
      (invoiceId orderId : Id) (intentId : Option Id) (wasHeld : Bool) (correlationId : Id)
  | releaseEscrowOnCompletion (orderId invoiceId courierWalletId : Id)
      (courierPayoutAmount taxAmount platformRevenueAmount : Decimal) (correlationId : Id)
  | refundEscrow (orderId invoiceId customerWalletId : Id) (amount : Decimal) (correlationId : Id)
  | splitEscrow (orderId invoiceId courierWalletId customerWalletId : Id)
      (courierAmount refundAmount : Decimal) (correlationId : Id)
  | payWithdrawal (courierWalletId : Id) (amount : Decimal) (withdrawalId correlationId : Id)
  | holdFunds (walletId : Id) (amount : Decimal)
  | releaseHold (walletId : Id) (amount : Decimal)

/-- The transaction of a call. -/
def MoneyCall.tx (refresh : Bool) : MoneyCall → Tx Unit
  | .creditTopup u amount i c => (MoneyService.creditTopup refresh u amount i c).void
  | .fundEscrowForInvoice u a b i o x held c =>
    (MoneyService.fundEscrowForInvoice refresh u a b i o x held c).void
  | .releaseEscrowOnCompletion o i k payout tax revenue c =>
    (MoneyService.releaseEscrowOnCompletion refresh o i k payout tax revenue c).void
  | .refundEscrow o i u amount c => (MoneyService.refundEscrow refresh o i u amount c).void
  | .splitEscrow o i k u a b c => (MoneyService.splitEscrow refresh o i k u a b c).void
  | .payWithdrawal k amount w c => (MoneyService.payWithdrawal refresh k amount w c).void
  | .holdFunds id amount => MoneyService.holdFunds refresh id amount
  | .releaseHold id amount => MoneyService.releaseHold refresh id amount

/-- A call executed alone, as one transaction. -/
def MoneyCall.exec (refresh : Bool) (d : Db) (call : MoneyCall) : Db :=
  (call.tx refresh).commit .empty d

/-- The books before the first movement: wallets at zero and an empty ledger. -/
structure Seeded (d : Db) : Prop where
  wallets : ∀ id w, d.wallets.get? id = some w → w.balance = 0 ∧ w.heldBalance = 0
  transactions : d.transactions = []

/-- The books are in order. -/
structure LedgerOk (d : Db) : Prop where
  /-- A balance is the sum of the wallet's settled rows. -/
  settled : ∀ id w, d.wallets.get? id = some w → w.balance = ledgerSum id d.transactions
  /-- A balance is the one that the last row of the wallet records. -/
  last : ∀ id w, d.wallets.get? id = some w → w.balance = (lastBalance id d.transactions).getD 0
  /-- The rows of every correlation sum to zero. -/
  correlation : ∀ c, correlationSum c d.transactions = 0
  /-- All balances sum to zero. -/
  total : d.wallets.sum (fun _ w => w.balance) = 0
  /-- Only the gateway and the revenue accounts may be overdrawn. -/
  nonneg : ∀ id w, d.wallets.get? id = some w → w.type ≠ .systemGateway → w.type ≠ .systemRevenue →
    0 ≤ w.balance ∧ 0 ≤ w.heldBalance

/-- The seeded books are in order. -/
theorem Seeded.ledgerOk {d : Db} (h : Seeded d) : LedgerOk d where
  settled id w hw := by rw [(h.wallets id w hw).1, h.transactions, ledgerSum_nil]
  last id w hw := by rw [(h.wallets id w hw).1, h.transactions]; rfl
  correlation c := by rw [h.transactions]; rfl
  total := Table.sum_eq_zero fun id w hw => (h.wallets id w hw).1
  nonneg id w hw _ _ := by
    obtain ⟨hb, hh⟩ := h.wallets id w hw
    omega

/-! ## Movements -/

/-- One movement of the books: a posted group, or a new held balance. -/
inductive Moves (d : Db) : Db → Prop
  | post {c : Id} {legs : List Leg} {d' : Db} (h : PostedGroup c legs d d') : Moves d d'
  | hold {id : Id} {w : Wallet} {n : ℤ} (hw : d.wallets.get? id = some w)
      (hcheck : (w.setHeld n).check = none) : Moves d (d.setHeld id w n)

/-- A row of the wallets after a movement of the held balance. -/
theorem get?_setHeld {d : Db} {id j : Id} {w v : Wallet} {n : ℤ}
    (hw : d.wallets.get? id = some w) (hv : (d.setHeld id w n).wallets.get? j = some v) :
    (j = id ∧ v = w.setHeld n) ∨ (j ≠ id ∧ d.wallets.get? j = some v) := by
  simp only [Db.setHeld, Db.updateWallet, Table.get?_update] at hv
  split_ifs at hv with hj
  · subst hj
    rw [hw, Option.map_some, Option.some.injEq] at hv
    exact .inl ⟨rfl, hv.symm⟩
  · exact .inr ⟨hj, hv⟩

/-- A row of the wallets after a posted group. -/
theorem Posted.get? {c : Id} {legs : List Leg} {ts : List Transaction} {d d' : Db} {id : Id}
    {w' : Wallet} (h : Posted c legs ts d d') (hw : d'.wallets.get? id = some w') :
    ∃ w, d.wallets.get? id = some w ∧ w' = creditRows ts id w := by
  rw [h.eq, Db.post, Table.get?_mapRows, Option.map_eq_some_iff] at hw
  obtain ⟨w, hw, rfl⟩ := hw
  exact ⟨w, hw, rfl⟩

/-- The rows of a group that a table of wallets has sum to the group's total. -/
theorem sum_ledgerSum (t : Table Id Wallet) : ∀ (ts : List Transaction),
    (∀ x ∈ ts, (t.get? x.walletId).isSome ∧ x.status = .settled) →
    t.sum (fun id _ => ledgerSum id ts) = (ts.map (·.amount)).sum
  | [], _ => Table.sum_eq_zero fun _ _ _ => rfl
  | x :: ts, h => by
    obtain ⟨hsome, hsettled⟩ := h x List.mem_cons_self
    obtain ⟨w, hw⟩ := Option.isSome_iff_exists.mp hsome
    have hone : t.sum (fun id _ => if x.walletId = id ∧ x.status = .settled then x.amount else 0) =
        x.amount := by
      rw [Table.sum_single t _ hw]
      · rw [if_pos ⟨rfl, hsettled⟩]
      · exact fun j _ _ hj => if_neg fun h' => hj h'.1.symm
    simp only [ledgerSum_cons, List.map_cons, List.sum_cons]
    rw [Table.sum_add, hone, sum_ledgerSum t ts fun y hy => h y (List.mem_cons_of_mem _ hy)]

/-- A posted group adds nothing to any correlation. -/
theorem Posted.correlationSum {c : Id} {legs : List Leg} {ts : List Transaction} {d d' : Db}
    (h : Posted c legs ts d d') (k : Id) : correlationSum k ts = 0 := by
  have hrows := rows_settled h.rows
  unfold Giftly.correlationSum
  by_cases hk : k = c
  · have hmap : (ts.map fun t => if t.correlationId = k ∧ t.status = .settled then t.amount else 0) =
        ts.map (·.amount) := by
      refine List.map_congr_left fun t ht => ?_
      obtain ⟨hc, hs⟩ := hrows t ht
      rw [if_pos ⟨hc.trans hk.symm, hs⟩]
    rw [hmap]
    exact h.zero
  · refine List.sum_eq_zero fun n hn => ?_
    obtain ⟨t, ht, rfl⟩ := List.mem_map.mp hn
    exact if_neg fun h' => hk (h'.1.symm.trans (hrows t ht).1)

/-- A posted group keeps the books. -/
theorem LedgerOk.post {c : Id} {legs : List Leg} {ts : List Transaction} {d d' : Db}
    (hok : LedgerOk d) (h : Posted c legs ts d d') : LedgerOk d' where
  -- The balance and the sum of the wallet's rows grow alike.
  settled id w' hw' := by
    obtain ⟨w, hw, rfl⟩ := h.get? hw'
    have := hok.settled id w hw
    simp only [h.eq, Db.post, ledgerSum_append, creditRows, Wallet.credit]
    omega
  -- The last row of the wallet is of the new group, or else the one before.
  last id w' hw' := by
    obtain ⟨w, hw, rfl⟩ := h.get? hw'
    simp only [h.eq, Db.post, lastBalance_append, creditRows, Wallet.credit]
    cases hb : lastBalance id ts with
    | none =>
      rw [Option.none_or, ledgerSum_eq_zero (lastBalance_eq_none.mp hb), add_zero]
      exact hok.last id w hw
    | some b => exact (h.last id w b hw hb).symm
  correlation k := by
    simp only [h.eq, Db.post, correlationSum_append, hok.correlation k, h.correlationSum k, add_zero]
  -- The group sums to zero over all wallets, so the total stays.
  total := by
    have hrows := rows_settled h.rows
    have hall : ∀ x ∈ ts, (d.wallets.get? x.walletId).isSome ∧ x.status = .settled :=
      fun x hx => ⟨(Transaction.check_eq_none.mp (h.checked x hx)).2.2.2.1, (hrows x hx).2⟩
    rw [h.eq, Db.post, Table.sum_mapRows]
    simp only [creditRows, Wallet.credit]
    rw [Table.sum_add, hok.total, sum_ledgerSum d.wallets ts hall, h.zero, add_zero]
  nonneg id w' hw' hg hr := by
    obtain ⟨w, hw, rfl⟩ := h.get? hw'
    by_cases hid : id ∈ walletIds legs
    · -- The wallet is in the group, and the check of its row was made.
      obtain ⟨-, -, -, hover | hnonneg⟩ := Wallet.check_eq_none.mp (h.wallets id hid _ hw')
      · generalize (creditRows ts id w).type = t at hover hg hr
        cases t <;> simp_all [WalletType.mayOverdraw]
      · exact hnonneg
    · rw [creditRows_of_notMem h.rows hid] at hg hr ⊢
      exact hok.nonneg id w hw hg hr

/-- A new held balance keeps the books. -/
theorem LedgerOk.hold {id : Id} {w : Wallet} {n : ℤ} {d : Db} (hok : LedgerOk d)
    (hw : d.wallets.get? id = some w) (hcheck : (w.setHeld n).check = none) :
    LedgerOk (d.setHeld id w n) where
  settled j v hv := by
    rcases get?_setHeld hw hv with ⟨rfl, rfl⟩ | ⟨-, hv⟩
    · exact hok.settled _ w hw
    · exact hok.settled j v hv
  last j v hv := by
    rcases get?_setHeld hw hv with ⟨rfl, rfl⟩ | ⟨-, hv⟩
    · exact hok.last _ w hw
    · exact hok.last j v hv
  correlation := hok.correlation
  total := by
    rw [Db.setHeld, Db.updateWallet, Table.sum_update _ _ _ hw, hok.total]
    simp [Wallet.setHeld]
  nonneg j v hv hg hr := by
    rcases get?_setHeld hw hv with ⟨rfl, rfl⟩ | ⟨-, hv⟩
    · -- The constraint lets only the gateway and the revenue overdraw.
      obtain ⟨-, -, -, hover | hnonneg⟩ := Wallet.check_eq_none.mp hcheck
      · generalize (w.setHeld n).type = t at hover hg hr
        cases t <;> simp_all [WalletType.mayOverdraw]
      · exact hnonneg
    · exact hok.nonneg j v hv hg hr

/-- A movement keeps the books in order. -/
theorem LedgerOk.move {d d' : Db} (hok : LedgerOk d) (h : Moves d d') : LedgerOk d' := by
  cases h with
  | post h =>
    obtain ⟨ts, hp⟩ := h
    exact hok.post hp
  | hold hw hcheck => exact hok.hold hw hcheck

/-! ## Calls -/

/-- Every call is a sequence of movements. -/
theorem MoneyCall.moves (refresh : Bool) (call : MoneyCall) (d : Db) :
    Ends (call.tx refresh) (fun _ _ d' => Relation.ReflTransGen Moves d d') .empty d := by
  have hc := Coherent.empty d
  cases call <;> simp only [tx, Prog.void, ends_bind, ends_ret]
  case creditTopup =>
    exact creditTopup_ends hc (fun _ _ _ => .refl) fun _ _ _ _ _ _ _ h => .single (.post h)
  -- Two movements when a hold is released after the posting, one otherwise.
  case fundEscrowForInvoice =>
    refine fundEscrowForInvoice_ends hc (fun _ _ _ => .refl) ?_ ?_
    · exact fun _ _ _ _ _ _ _ _ _ _ _ _ h _ _ => .single (.post h)
    · exact fun _ _ _ _ _ _ _ _ _ _ _ _ _ h _ _ hv hcheck _ =>
        (Relation.ReflTransGen.single (.post h)).tail (.hold hv hcheck)
  case releaseEscrowOnCompletion =>
    exact releaseEscrowOnCompletion_ends hc (fun _ _ _ => .refl)
      fun _ _ _ _ _ _ _ _ _ _ _ _ _ _ _ h => .single (.post h)
  case refundEscrow =>
    exact refundEscrow_ends hc (fun _ _ _ => .refl) fun _ _ _ _ _ _ _ h => .single (.post h)
  case splitEscrow =>
    exact splitEscrow_ends hc (fun _ _ _ => .refl) fun _ _ _ _ _ _ _ _ _ h => .single (.post h)
  case payWithdrawal =>
    refine payWithdrawal_ends hc (fun _ _ _ => .refl) ?_
    exact fun _ _ _ _ _ _ _ h hv hcheck _ =>
      (Relation.ReflTransGen.single (.post h)).tail (.hold hv hcheck)
  case holdFunds =>
    exact holdFunds_ends hc fun _ _ _ _ hw _ hcheck _ => .single (.hold hw hcheck)
  case releaseHold =>
    exact releaseHold_ends hc fun _ _ _ _ hw hcheck _ => .single (.hold hw hcheck)

/-- One call keeps the books, whether it commits or is rolled back. -/
theorem LedgerOk.exec {d : Db} (hok : LedgerOk d) (refresh : Bool) (call : MoneyCall) :
    LedgerOk (call.exec refresh d) := by
  refine commit_of_ends hok (Ends.mono (fun _ _ d' h => ?_) (call.moves refresh d))
  induction h with
  | refl => exact hok
  | tail _ hmove ih => exact ih.move hmove

/-- Every sequence of calls over the seeded wallets keeps the books. -/
theorem ledgerOk_foldl_exec (refresh : Bool) {d : Db} (h : Seeded d) (calls : List MoneyCall) :
    LedgerOk (calls.foldl (MoneyCall.exec refresh) d) := by
  have hok := h.ledgerOk
  clear h
  induction calls generalizing d with
  | nil => exact hok
  | cons call calls ih => exact ih (hok.exec refresh call)

/-- The seeded books, with a payment intent that a top-up can refer to. -/
def Sample.seeded : Db :=
  { accounts (wallets 0 0 0) with
    intents := ⟨[(101, intent .walletTopup 10000 .new none 1101)], by simp⟩ }

/-- The sample's books are seeded. -/
theorem Sample.seeded_ok : Seeded seeded where
  wallets := Table.forall_get?.mpr (by simp [seeded, accounts, Sample.wallets])
  transactions := rfl

/-- A top-up, its replay, a hold and a call with a negative amount. -/
def Sample.calls : List MoneyCall :=
  [.creditTopup 11 (.finite ⟨10000, -2⟩) 101 301, .creditTopup 11 (.finite ⟨10000, -2⟩) 101 302,
    .holdFunds 11 (.finite ⟨3000, -2⟩), .creditTopup 11 (.finite ⟨-5, 3⟩) 101 303]

/-- The books after a top-up, its replay, a hold and a call that is refused. -/
theorem ledgerOk_sample : Seeded Sample.seeded ∧
    (Sample.calls.foldl (MoneyCall.exec false) Sample.seeded).transactions.length = 2 ∧
    LedgerOk (Sample.calls.foldl (MoneyCall.exec false) Sample.seeded) :=
  ⟨Sample.seeded_ok, by decide +kernel, ledgerOk_foldl_exec false Sample.seeded_ok Sample.calls⟩

end Giftly
