import Giftly.Serial.Recorded

/-!
# The balance sheet

The balance of every wallet is what the tables of the business say. A balance is the sum of the rows
of the wallet (`Books.Balanced`), the rows are the legs of the recorded events, and an event moves on
each wallet what the row that records it says; so a balance is a sum over the intents, the invoices,
the orders and the withdrawals (`Db.statement`).
-/

namespace Giftly

open Store OrderState
open WalletRepository MoneyService

/-! ## Balances and rows -/

/-- A balance is the sum of the rows of the wallet. -/
def Books.Balanced (b : Books) : Prop :=
  ∀ id w, b.wallets.get? id = some w → w.balance = ledgerSum id b.transactions

namespace Books.Balanced

variable {b b' : Books} {c wid : Id} {n k : ℤ} {legs : List Leg}

/-- The balances depend on the wallets and the ledger alone. -/
theorem congr (h : b.Balanced) (hw : b'.wallets = b.wallets)
    (ht : b'.transactions = b.transactions) : b'.Balanced := by
  intro id w hget
  rw [ht]
  exact h id w (hw ▸ hget)

/-- A new hold leaves the balances. -/
theorem setHeld (h : b.Balanced) : (b.setHeld wid n).Balanced := by
  intro id w hget
  simp only [Books.setHeld, Table.get?_update] at hget
  split_ifs at hget
  · obtain ⟨v, hv, rfl⟩ := Option.map_eq_some_iff.mp hget
    exact h id v hv
  · exact h id w hget

/-- A posted group adds to each balance what its rows add to the sum. -/
theorem post (h : b.Balanced) (hp : Posts c legs b b') : b'.Balanced := by
  obtain ⟨ts, hrows, rfl, -⟩ := hp
  intro id w hget
  rw [Table.get?_mapRows, Option.map_eq_some_iff] at hget
  obtain ⟨v, hv, rfl⟩ := hget
  have hbalance := h id v hv
  simp only [creditRows, Wallet.credit, ledgerSum_append]
  omega

/-- The payment of an invoice keeps the balances. -/
theorem fund {iid oid : Id} {x : Option Id} {held : Bool} (h : b.Balanced)
    (hf : b.Funded c wid iid oid x n k held b') : b'.Balanced := by
  rcases hf with ⟨-, rfl⟩ | ⟨g, e, b₁, -, -, -, -, hp, hheld⟩
  · exact h
  have hposted := h.post hp
  rcases hheld with ⟨-, rfl⟩ | ⟨-, -, v, -, rfl⟩
  · exact hposted
  · exact hposted.setHeld

/-- Every request of the deals keeps the balances. -/
theorem step {s : Settings} {r : Request} (h : b.Balanced) (heff : Effect s b r b') :
    b'.Balanced := by
  cases heff with
  -- Requests that move no money leave the sum as it is.
  | idle => exact h
  | createOrder | acceptOrder | cancelOrder | submitDelivery | raiseDispute | cancelInvoice
  | createTopup | webhookFailed | webhookPaid | expireTopup => exact h.congr rfl rfl
  | createInvoice _ _ _ _ _ _ hpromo => cases hpromo <;> exact h.congr rfl rfl
  -- A hold is released, which changes no balance.
  | @expireInvoice now iid i =>
    have hexpired : (b.expiredIntent iid i).Balanced := by
      rcases b.expiredIntent_cases iid i with ⟨heq, -⟩ | ⟨jid, p, b₁, -, -, -, heq, hb₁⟩ <;> rw [heq]
      · exact h
      · rcases hb₁ with ⟨rfl, -⟩ | ⟨wid, w, -, -, rfl⟩
        · exact h.congr rfl rfl
        · exact h.setHeld.congr rfl rfl
    rcases Books.reopened_cases (((b.expiredIntent iid i).released now iid).setInvoice iid
      { i with status := .expired }) i.orderId with ⟨heq, -⟩ | ⟨o, -, -, heq⟩ <;>
      (rw [heq]; exact hexpired.congr rfl rfl)
  | payWallet _ _ _ _ _ _ _ hf => exact (h.fund hf).congr rfl rfl
  | payGateway _ _ _ _ _ _ _ _ _ _ _ hb₁ =>
    rw [hb₁]
    split_ifs
    · exact h.setHeld.congr rfl rfl
    · exact h.congr rfl rfl
  -- A replayed event finds its keys; a first one posts a group that sums to zero.
  | webhookTopup _ _ _ _ _ _ hb =>
    rcases hb with ⟨-, rfl⟩ | ⟨g, -, hp⟩
    · exact h.congr rfl rfl
    · exact (h.post hp).congr rfl rfl
  | webhookSettle _ _ _ _ _ _ _ _ _ _ _ hf => exact (h.fund hf).congr rfl rfl
  | settle _ _ _ _ _ _ hpay =>
    rcases hpay with ⟨-, rfl⟩ | ⟨legs, -, hp⟩
    · exact h.congr rfl rfl
    · exact (h.post hp).congr rfl rfl

/-- Every request of withdrawals keeps the balances. -/
theorem draw {r : Request} {d d' : Db} (h : d.books.Balanced) (hdraw : Drawing d r d') :
    d'.books.Balanced := by
  cases hdraw with
  | idle => exact h
  | requested | rejected => exact h.setHeld.congr rfl rfl
  | approved => exact h.congr rfl rfl
  | paid _ _ _ _ hp => exact (h.post hp.books).setHeld.congr rfl rfl

end Books.Balanced

/-! ## What the tables say -/

/-- The wallet's share of what a user gets. -/
def Wallet.share (w : Wallet) (userId : Id) (n : ℤ) : ℤ := if w.userId = some userId then n else 0

/-- The wallet's share of what a system account gets. -/
def Wallet.account (w : Wallet) (walletType : WalletType) (n : ℤ) : ℤ :=
  if w.userId = none ∧ w.type = walletType then n else 0

/-- What a top-up moves on a wallet: its user gets the money from the gateway. -/
def PaymentIntent.entry (w : Wallet) (p : PaymentIntent) : ℤ :=
  if p.toppedUp = true then w.share p.userId p.amount - w.account .systemGateway p.amount else 0

/-- What a withdrawal moves on a wallet: its courier gives the money to the gateway. -/
def Withdrawal.entry (w : Wallet) (x : Withdrawal) : ℤ :=
  if x.status = .paid then w.account .systemGateway x.amount - w.share x.courierId x.amount else 0

namespace Db

/-- What the payment of an invoice moves on a wallet: the customer and the gateway give their parts
to the escrow. -/
def paymentEntry (d : Db) (w : Wallet) (i : Invoice) : ℤ :=
  if i.status = .paid then
    w.account .systemEscrow i.totalAmount - w.account .systemGateway i.amountFromGateway -
      ((d.orders.get? i.orderId).map fun o => w.share o.customerId i.amountFromWallet).getD 0
  else 0

/-- A column of the paid invoice of an order. -/
def paidFor (d : Db) (orderId : Id) (f : Invoice → ℤ) : ℤ :=
  d.invoices.sum fun _ i => if i.orderId = orderId ∧ i.status = .paid then f i else 0

/-- The dispute of an order was resolved by a split. -/
def wasSplit (d : Db) (orderId : Id) : Bool :=
  (d.disputes.find? fun _ x => x.orderId = orderId && x.status = .resolvedSplit).isSome

/-- What the payout of an order moves on a wallet: the escrow gives the total back to the customer, or
the courier's part to the courier and the rest to the customer or to the platform and the tax. -/
def payoutEntry (d : Db) (w : Wallet) (orderId : Id) (o : Order) : ℤ :=
  let total := d.paidFor orderId (·.totalAmount)
  let tax := d.paidFor orderId (·.taxAmount)
  let rest := total - o.courierPayoutAmount
  match o.status with
  | .refunded => w.share o.customerId total - w.account .systemEscrow total
  | .completed =>
    (o.courierId.map fun k => w.share k o.courierPayoutAmount).getD 0 +
      (if d.wasSplit orderId then w.share o.customerId rest
        else w.account .systemTaxPayable tax + w.account .systemRevenue (rest - tax)) -
      w.account .systemEscrow total
  | _ => 0

/-- The balance of a wallet, by the intents, the invoices, the orders and the withdrawals. -/
def statement (d : Db) (w : Wallet) : ℤ :=
  d.intents.sum (fun _ p => p.entry w) + d.invoices.sum (fun _ i => d.paymentEntry w i) +
    d.orders.sum (fun oid o => d.payoutEntry w oid o) + d.withdrawals.sum fun _ x => x.entry w

/-- What an event moves on a wallet. -/
def moved (d : Db) (w : Wallet) : Event → ℤ
  | .topup jid => ((d.intents.get? jid).map (·.entry w)).getD 0
  | .payment iid => ((d.invoices.get? iid).map (d.paymentEntry w)).getD 0
  | .payout oid => ((d.orders.get? oid).map (d.payoutEntry w oid)).getD 0
  | .withdrawal id => ((d.withdrawals.get? id).map (·.entry w)).getD 0

/-- The statement is the sum of what the recorded events move. -/
theorem sum_moved (d : Db) (w : Wallet) : (d.events.map (d.moved w)).sum = d.statement w := by
  -- Each kind of event sums one column of its own table, which is zero outside of the kind.
  have htopups : ((d.books.intents.keysWhere fun _ p => p.toppedUp).map
      (d.moved w ∘ Event.topup)).sum = d.intents.sum fun _ p => p.entry w := by
    apply Table.sum_keysWhere
    · intro jid p (hp : d.intents.get? jid = some p) _
      simp [moved, hp]
    · intro jid p _ hno
      simp [PaymentIntent.entry, hno]
  have hpayments : ((d.books.invoices.keysWhere fun _ i => i.status = .paid).map
      (d.moved w ∘ Event.payment)).sum = d.invoices.sum fun _ i => d.paymentEntry w i := by
    apply Table.sum_keysWhere
    · intro iid i (hi : d.invoices.get? iid = some i) _
      simp [moved, hi]
    · intro iid i _ hno
      exact if_neg (by simpa using hno)
  have hpayouts : ((d.books.orders.keysWhere fun _ o => o.status.closed).map
      (d.moved w ∘ Event.payout)).sum = d.orders.sum fun oid o => d.payoutEntry w oid o := by
    apply Table.sum_keysWhere
    · intro oid o (ho : d.orders.get? oid = some o) _
      simp [moved, ho]
    · intro oid o _ hno
      unfold payoutEntry
      revert hno
      cases o.status <;> simp [OrderStatus.closed]
  have hwithdrawals : ((d.withdrawals.keysWhere fun _ x => x.status = .paid).map
      (d.moved w ∘ Event.withdrawal)).sum = d.withdrawals.sum fun _ x => x.entry w := by
    apply Table.sum_keysWhere
    · intro id x hx _
      simp [moved, hx]
    · intro id x _ hno
      exact if_neg (by simpa using hno)
  unfold events Books.events statement
  simp only [List.map_append, List.map_map, List.sum_append]
  rw [htopups, hpayments, hpayouts, hwithdrawals]

end Db

/-! ## Legs on a wallet -/

/-- What legs move on a wallet. -/
def legsOn (id : Id) (legs : List Leg) : ℤ :=
  (legs.map fun l => if l.walletId = id then l.amount.coeff else 0).sum

/-- A leg on one wallet, seen from another. -/
def legOn (id walletId : Id) (n : ℤ) : ℤ := if walletId = id then n else 0

section Legs

variable {id wid kid uid g e t r iid oid jid : Id} {x : Option Id} {n k total tax revenue : ℤ}

/-- The opposite of an amount of at most 28 digits. -/
theorem coeff_neg_of_lt (h : n.natAbs < Dec.limit) : (Dec.cents n).neg.coeff = -n := by
  rw [neg_cents_of_lt h]
  rfl

/-- What a top-up moves on a wallet. -/
theorem legsOn_topupLegs : legsOn id (topupLegs wid g jid n (-n)) =
    legOn id wid n + legOn id g (-n) := by
  simp [legsOn, legOn, topupLegs, Dec.cents]

/-- What a withdrawal moves on a wallet. -/
theorem legsOn_withdrawalLegs (h : n.natAbs < Dec.limit) :
    legsOn id (withdrawalLegs wid g jid n) = legOn id wid (-n) + legOn id g n := by
  have hneg := coeff_neg_of_lt h
  simp [legsOn, legOn, withdrawalLegs, hneg]
  rfl

/-- What the payment of an invoice moves on a wallet, a part of zero having no leg. -/
theorem legsOn_fundingLegs (hn : 0 ≤ n) (hk : 0 ≤ k) (hsum : n + k = total)
    (h : total.natAbs < Dec.limit) : legsOn id (fundingLegs wid g e iid oid x total n k) =
      legOn id wid (-n) + legOn id g (-k) + legOn id e total := by
  have hnegn : (Dec.cents n).neg.coeff = -n := coeff_neg_of_lt (by omega)
  have hnegk : (Dec.cents k).neg.coeff = -k := coeff_neg_of_lt (by omega)
  have htotal : (Dec.cents total).coeff = total := rfl
  -- A part of zero has no leg.
  by_cases hpos : 0 < n <;> by_cases hpos' : 0 < k
  · simp [legsOn, legOn, fundingLegs, fundingLeg, hpos, hpos', hnegn, hnegk, htotal, add_assoc]
  · obtain rfl : k = 0 := by omega
    simp [legsOn, legOn, fundingLegs, fundingLeg, hpos, hnegn, htotal]
  · obtain rfl : n = 0 := by omega
    simp [legsOn, legOn, fundingLegs, fundingLeg, hpos', hnegk, htotal]
  · obtain rfl : n = 0 := by omega
    obtain rfl : k = 0 := by omega
    simp [legsOn, legOn, fundingLegs, fundingLeg, htotal]

/-- What a release moves on a wallet, a part of zero having no leg. -/
theorem legsOn_releaseLegs (h : total.natAbs < Dec.limit) :
    legsOn id (releaseLegs oid iid e wid t r total n tax revenue) =
      legOn id e (-total) + legOn id wid n + legOn id t tax + legOn id r revenue := by
  have hneg := coeff_neg_of_lt h
  have hcoeff : ∀ a, (Dec.cents a).coeff = a := fun _ => rfl
  by_cases htax : tax = 0 <;> by_cases hrevenue : revenue = 0 <;>
    simp [legsOn, legOn, releaseLegs, payoutLeg, htax, hrevenue, hneg, hcoeff, add_assoc]

/-- What a refund moves on a wallet. -/
theorem legsOn_refundLegs (h : total.natAbs < Dec.limit) :
    legsOn id (refundLegs oid iid e wid total) = legOn id e (-total) + legOn id wid total := by
  have hneg := coeff_neg_of_lt h
  have hcoeff : ∀ a, (Dec.cents a).coeff = a := fun _ => rfl
  simp [legsOn, legOn, refundLegs, payoutLeg, hneg, hcoeff]

/-- What a split moves on a wallet, a part of zero having no leg. -/
theorem legsOn_splitLegs (h : total.natAbs < Dec.limit) :
    legsOn id (splitLegs oid iid e kid uid total n k) =
      legOn id e (-total) + legOn id kid n + legOn id uid k := by
  have hneg := coeff_neg_of_lt h
  have hcoeff : ∀ a, (Dec.cents a).coeff = a := fun _ => rfl
  by_cases hn : n = 0 <;> by_cases hk : k = 0 <;>
    simp [legsOn, legOn, splitLegs, payoutLeg, hn, hk, hneg, hcoeff, add_assoc]

end Legs

/-! ## The legs of an event -/

section Accounts

variable {d : Db} {id wid g u iid oid : Id} {w : Wallet} {t : WalletType} {n : ℤ} {e : Event}
  {legs : List Leg}

/-- The share of what a user gives. -/
theorem Wallet.share_neg : w.share u (-n) = -w.share u n := by
  unfold share
  split_ifs <;> simp

/-- The share of what a system account gives. -/
theorem Wallet.account_neg : w.account t (-n) = -w.account t n := by
  unfold account
  split_ifs <;> simp

/-- A user has one wallet. -/
theorem legOn_owned (hindex : WalletIndex d) (hw : d.wallets.get? id = some w)
    (ho : d.books.Owns wid u) : legOn id wid n = w.share u n := by
  obtain ⟨v, hv, howner⟩ := ho
  have hiff : wid = id ↔ w.userId = some u := by
    constructor
    · rintro rfl
      obtain rfl : v = w := Option.some.inj (hv.symm.trans hw)
      exact howner
    · intro hu
      exact hindex.user wid id v w u hv hw howner hu
  unfold legOn Wallet.share
  simp only [hiff]

/-- A system account has one wallet. -/
theorem legOn_system (hindex : WalletIndex d) (hw : d.wallets.get? id = some w)
    (hs : d.books.IsSystem t g) : legOn id g n = w.account t n := by
  obtain ⟨v, hv, htype, hnone⟩ := hs
  have hiff : g = id ↔ w.userId = none ∧ w.type = t := by
    constructor
    · rintro rfl
      obtain rfl : v = w := Option.some.inj (hv.symm.trans hw)
      exact ⟨hnone, htype⟩
    · rintro ⟨hu, ht⟩
      exact hindex.system g id v w hv hw hnone hu (htype.trans ht.symm)
  unfold legOn Wallet.account
  simp only [hiff]

/-- The paid invoice of an order is the only one. -/
theorem paidFor_eq {i : Invoice} (hd : DealsOk d.books) (hi : d.invoices.get? iid = some i)
    (hio : i.orderId = oid) (hst : i.status = .paid) (f : Invoice → ℤ) : d.paidFor oid f = f i := by
  unfold Db.paidFor
  rw [Table.sum_single _ _ hi, if_pos ⟨hio, hst⟩]
  intro j y hy hj
  apply if_neg
  rintro ⟨hyo, hys⟩
  have hsole := hd.sole j iid y i hy hi (hyo.trans hio.symm) (by rw [hys]; rfl) (by rw [hst]; rfl)
  exact hj hsole

/-- A dispute was resolved by a split if its row says so. -/
theorem wasSplit_iff : d.wasSplit oid = true ↔ d.books.SplitFor oid := by
  unfold Db.wasSplit
  constructor
  · intro hsome
    obtain ⟨⟨xid, x⟩, hf⟩ := Option.isSome_iff_exists.mp hsome
    obtain ⟨hx, hmatch⟩ := Table.find?_eq_some hf
    simp only [Bool.and_eq_true, decide_eq_true_eq] at hmatch
    exact ⟨xid, x, hx, hmatch.1, hmatch.2⟩
  · rintro ⟨xid, x, hx, hxo, hxs⟩
    have hx : d.disputes.get? xid = some x := hx
    obtain ⟨y, hy⟩ := Table.find?_isSome (p := fun _ x => x.orderId = oid && x.status = .resolvedSplit)
      hx (by simp [hxo, hxs])
    rw [hy]
    rfl

/-- An amount that fits its column fits the context. -/
theorem limit_of_fits (h : fitsMoney n = true) : n.natAbs < Dec.limit := by
  simp only [fitsMoney, decide_eq_true_eq] at h
  exact h.trans (by decide)

/-- What the payout of an order moves. -/
theorem legsOn_payout {o : Order} {i : Invoice} {outcome : DisputeStatus} (hindex : WalletIndex d)
    (hd : DealsOk d.books) (hw : d.wallets.get? id = some w) (hi : d.invoices.get? iid = some i)
    (hio : i.orderId = oid) (hst : i.status = .paid)
    (hlegs : d.books.PayoutLegs oid iid o i outcome legs)
    (hsplit : outcome = .resolvedSplit ↔ d.books.SplitFor oid) :
    legsOn id legs = d.payoutEntry w oid o := by
  have htotal := limit_of_fits (Books.fitsMoney_of_check (hd.row iid i hi).1).1
  -- The sums over the invoices of the order are the columns of this one.
  have hpaid := paidFor_eq hd hi hio hst
  rw [← wasSplit_iff] at hsplit
  unfold Db.payoutEntry
  rw [hpaid, hpaid]
  cases hlegs with
  | released hst' hk hkw he ht hr _ =>
    have hno : d.wasSplit oid = false := by
      rw [← Bool.not_eq_true, ← hsplit]
      exact fun h => DisputeStatus.noConfusion h
    rw [legsOn_releaseLegs htotal, legOn_system hindex hw he, legOn_owned hindex hw hkw,
      legOn_system hindex hw ht, legOn_system hindex hw hr, Wallet.account_neg]
    simp only [hst', hk, hno, Option.map_some, Option.getD_some, Bool.false_eq_true, if_false]
    ring
  | refunded hst' huw he =>
    rw [legsOn_refundLegs htotal, legOn_system hindex hw he, legOn_owned hindex hw huw,
      Wallet.account_neg]
    simp only [hst']
    ring
  | split hst' hk hkw huw he _ =>
    have hyes : d.wasSplit oid = true := hsplit.mp rfl
    rw [legsOn_splitLegs htotal, legOn_system hindex hw he, legOn_owned hindex hw hkw,
      legOn_owned hindex hw huw, Wallet.account_neg]
    simp only [hst', hk, hyes, Option.map_some, Option.getD_some, if_true]
    ring

/-- The legs of an event move on a wallet what the tables say. -/
theorem legsOn_eq_moved (h : JournalOk d) (hw : d.wallets.get? id = some w)
    (hlegs : d.LegsOf e legs) : legsOn id legs = d.moved w e := by
  have hindex := h.index
  cases hlegs with
  | @withdrawal xid x g hx hst hg =>
    obtain ⟨hcourier, v, hv, howner⟩ := h.owner xid x hx
    have hlimit := limit_of_fits (Withdrawal.check_eq_none.mp (h.row xid x hx)).1
    -- A withdrawal is from the wallet of its courier.
    have hown : d.books.Owns x.walletId x.courierId := ⟨v, hv, howner⟩
    rw [legsOn_withdrawalLegs hlimit, legOn_owned hindex hw hown, legOn_system hindex hw hg,
      Wallet.share_neg]
    simp only [Db.moved, hx, Option.map_some, Option.getD_some, Withdrawal.entry, hst, if_true]
    ring
  | deal hlegs =>
    cases hlegs with
    | @topup jid p wid g hp hst hown hg =>
      have hp : d.intents.get? jid = some p := hp
      rw [legsOn_topupLegs, legOn_owned hindex hw hown, legOn_system hindex hw hg,
        Wallet.account_neg]
      simp only [Db.moved, hp, Option.map_some, Option.getD_some, PaymentIntent.entry, hst, if_true]
      ring
    | @payment iid i o wid g y x hi hst ho hown hg he hparts =>
      have hi : d.invoices.get? iid = some i := hi
      have ho : d.orders.get? i.orderId = some o := ho
      have htotal := limit_of_fits (Books.fitsMoney_of_check (h.deals.row iid i hi).1).1
      -- The two parts make up the total.
      obtain ⟨hsum, -⟩ := h.deals.paid iid i hi hst
      rw [legsOn_fundingLegs hparts.1 hparts.2 hsum htotal, legOn_owned hindex hw hown,
        legOn_system hindex hw hg, legOn_system hindex hw he, Wallet.share_neg, Wallet.account_neg]
      simp only [Db.moved, hi, ho, Option.map_some, Option.getD_some, Db.paymentEntry, hst, if_true]
      ring
    | @payout oid o iid i outcome legs ho hi hio hst hlegs hsplit =>
      have ho : d.orders.get? oid = some o := ho
      rw [legsOn_payout hindex h.deals hw hi hio hst hlegs hsplit]
      simp only [Db.moved, ho, Option.map_some, Option.getD_some]

end Accounts

/-! ## Runs -/

section Runs

variable {refresh : Bool} {s : Settings} {d₀ d : Db} {id : Id} {w : Wallet}

/-- The sum of a wallet, event by event. -/
theorem ledgerSum_flatMap (js : List (Event × List Transaction)) :
    ledgerSum id (js.flatMap Prod.snd) = (js.map fun j => ledgerSum id j.2).sum := by
  induction js with
  | nil => rfl
  | cons j js ih => rw [List.flatMap_cons, ledgerSum_append, ih, List.map_cons, List.sum_cons]

/-- A balance is the wallet's statement when the journal accounts for the ledger. -/
theorem JournalOk.balance (h : JournalOk d) (hbalanced : d.books.Balanced)
    (hw : d.wallets.get? id = some w) : w.balance = d.statement w := by
  obtain ⟨js, hj⟩ := h.journal
  have hgroups : ∀ j ∈ js, ledgerSum id j.2 = d.moved w j.1 := by
    intro j hmem
    obtain ⟨c, legs, hlegs, hrows⟩ := hj.records j hmem
    rw [ledgerSum_rows hrows]
    exact legsOn_eq_moved h hw hlegs
  calc w.balance = ledgerSum id d.transactions := hbalanced id w hw
    _ = (js.map fun j => ledgerSum id j.2).sum := by rw [hj.rows, ledgerSum_flatMap]
    _ = (js.map fun j => d.moved w j.1).sum := congrArg List.sum (List.map_congr_left hgroups)
    _ = ((js.map Prod.fst).map (d.moved w)).sum := by rw [List.map_map]; rfl
    _ = (d.events.map (d.moved w)).sum := (hj.events.map _).sum_eq
    _ = d.statement w := d.sum_moved w

/-- The balances are the sums of the rows in every run. -/
theorem SerialRun.balanced {cond : Request → Db → Prop} (hrun : SerialRun refresh s cond d₀ d)
    (h₀ : Opening d₀) : d.books.Balanced := by
  apply hrun.inv (I := fun d => d.books.Balanced)
  · intro id w hw
    have hzero := (h₀.wallets id w hw).1
    have ht : d₀.books.transactions = [] := h₀.transactions
    rw [hzero, ht, ledgerSum_nil]
  · intro r d _ h
    cases ht : r.trades with
    | true => exact h.step (Request.exec_effect (s := s) ht)
    | false => exact h.draw (Request.exec_drawing ht)

/-- In every state of every run, the balance of every wallet is what the intents, the invoices, the
orders and the withdrawals say. -/
theorem balance_eq_statement (refresh : Bool) (s : Settings) (h₀ : Opening d₀)
    (hrun : SerialRun refresh s Request.asSwept d₀ d) (hw : d.wallets.get? id = some w) :
    w.balance = d.statement w :=
  (hrun.journalOk h₀).balance (hrun.balanced h₀) hw

/-- The customer of the sample is left with the refund of 66.79, and the gateway has that much less
than nothing. -/
theorem balance_eq_statement_sample : ∃ w g, Sample.closedDb.wallets.get? 11 = some w ∧
    Sample.closedDb.wallets.get? 23 = some g ∧ w.balance = 6679 ∧
    Sample.closedDb.statement w = 6679 ∧ Sample.closedDb.statement g = -6679 := by
  have hcustomer : (Sample.closedDb.wallets.get? 11).any (fun w => w.balance = 6679) = true := by
    decide +kernel
  have hgateway : (Sample.closedDb.wallets.get? 23).any (fun w => w.balance = -6679) = true := by
    decide +kernel
  obtain ⟨w, hw, hbalance⟩ := (Option.any_eq_true _ _).mp hcustomer
  obtain ⟨g, hg, hbalance'⟩ := (Option.any_eq_true _ _).mp hgateway
  have hstatement := balance_eq_statement false Sample.settings Sample.opening_ok
    Sample.lifetime_run hw
  have hstatement' := balance_eq_statement false Sample.settings Sample.opening_ok
    Sample.lifetime_run hg
  simp only [decide_eq_true_eq] at hbalance hbalance'
  exact ⟨w, g, hw, hg, hbalance, hstatement ▸ hbalance, hstatement' ▸ hbalance'⟩

end Runs

end Giftly
