import Giftly.Concurrency.Operations
import Giftly.Seed

/-!
# The payout of an order's escrow

Delivery, approval, disputes and their resolution race on an order. Three ledger groups can pay out
its escrow, each under a key of its own, so the ledger alone does not exclude a second payout. The
order is locked before its status is read, and a payout moves it to a final status: the policy's
invariant says that an order is either not paid out, or paid out once, by the total of its paid
invoice, and then completed or refunded.
-/

namespace Giftly

open Store OrderState
open WalletRepository MoneyService

/-- The keys of the groups that pay out an order's escrow. -/
def payoutKeys (o : Id) : List IdempotencyKey := [.release o, .refund o, .split o]

/-- The types of the rows of a payout. -/
def TransactionType.isPayout : TransactionType → Bool
  | .escrowRelease | .refund | .tax | .commission => true
  | _ => false

/-- A ledger row of a payout of an order. -/
def isPayoutOf (o : Id) (t : Transaction) : Bool := t.referenceOrderId = some o && t.type.isPayout

/-- A wallet is `SYSTEM_ESCROW`. -/
def isEscrow (d : Db) (id : Id) : Bool :=
  (d.wallets.get? id).any fun w => w.type = .systemEscrow && w.userId.isNone

/-- The sum of the rows on the wallets that satisfy a condition. -/
def sumWhere (p : Id → Bool) (ts : List Transaction) : ℤ :=
  ((ts.filter fun t => p t.walletId).map (·.amount)).sum

/-- The amount that payouts of an order took from `SYSTEM_ESCROW`. -/
def leftEscrow (o : Id) (d : Db) : ℤ :=
  -sumWhere (isEscrow d) (d.transactions.filter (isPayoutOf o))

/-- The sum of the other legs of the payouts of an order. -/
def creditedFrom (o : Id) (d : Db) : ℤ :=
  sumWhere (fun id => !isEscrow d id) (d.transactions.filter (isPayoutOf o))

/-- No group has paid out the order. -/
structure NotPaidOut (o : Id) (d : Db) : Prop where
  keys : (ledgerKeys d.transactions).filter (· ∈ payoutKeys o) = []
  rows : d.transactions.filter (isPayoutOf o) = []

/-- One group has paid out the order, by the total of its paid invoice. -/
structure PaidOut (o : Id) (d : Db) : Prop where
  keys : ∃ key ∈ payoutKeys o, (ledgerKeys d.transactions).filter (· ∈ payoutKeys o) = [key]
  order : ∃ x, d.orders.get? o = some x ∧ (x.status = .completed ∨ x.status = .refunded)
  invoice : ∃ iid i, d.invoices.get? iid = some i ∧ i.orderId = o ∧ i.status = .paid ∧
    leftEscrow o d = i.totalAmount ∧ creditedFrom o d = i.totalAmount

/-- The totals of invoices fit their columns. -/
def TotalsFit (d : Db) : Prop :=
  ∀ iid i, d.invoices.get? iid = some i →
    fitsMoney i.totalAmount = true ∧ fitsMoney i.taxAmount = true

/-- A completed or refunded order stays so. -/
def SettledStays (o : Id) (d d' : Db) : Prop :=
  ∀ x, d.orders.get? o = some x → x.status = .completed ∨ x.status = .refunded →
    ∃ x', d'.orders.get? o = some x' ∧ x'.status = x.status

/-- The tables that the requests that fulfil orders write. -/
def fulfilmentTables : List Tbl := [.wallets, .transactions, .orders, .disputes]

/-- The policy of the requests that fulfil orders, for one order. -/
def payoutPolicy (o : Id) : Policy where
  tables := fulfilmentTables
  inv d := TotalsFit d ∧ (NotPaidOut o d ∨ PaidOut o d)
  guar := SettledStays o
  guar_refl _ x hx _ := ⟨x, hx, rfl⟩

namespace PayoutProof

/-! ## Sums over the rows of a group -/

/-- The two parts of a sum. -/
theorem sumWhere_add_not (p : Id → Bool) (ts : List Transaction) :
    sumWhere p ts + sumWhere (fun id => !p id) ts = (ts.map (·.amount)).sum := by
  induction ts with
  | nil => rfl
  | cons t ts ih =>
    simp only [sumWhere, List.filter_cons, List.map_cons, List.sum_cons] at *
    cases p t.walletId <;> simp <;> omega

/-- A group of which only the first leg is on a wallet that counts. -/
theorem sumWhere_legs {c : Id} {leg : Leg} {rest : List Leg} {rows : List Transaction}
    {p : Id → Bool} (h : List.Forall₂ (RowOf c) (leg :: rest) rows)
    (hleg : p leg.walletId = true) (hrest : ∀ l ∈ rest, p l.walletId = false) :
    sumWhere p rows = leg.amount.coeff := by
  obtain ⟨t, ts, ht, hts, rfl⟩ := List.forall₂_cons_left_iff.mp h
  have hnone : ts.filter (fun t => p t.walletId) = [] := by
    rw [List.filter_eq_nil_iff]
    intro u hu
    have hmem : u.walletId ∈ walletIds rest := by
      rw [← rows_walletId hts]
      exact List.mem_map_of_mem hu
    obtain ⟨l, hl, heq⟩ := List.mem_map.mp hmem
    rw [← heq, hrest l hl]
    exact Bool.false_ne_true
  simp [sumWhere, ht.walletId, hleg, hnone, ht.amount]

/-- The escrow wallet is told by columns that never change. -/
theorem isEscrow_of_kind {d : Db} {id : Id} {k : Option Id × WalletType}
    (h : (d.wallets.get? id).map Wallet.frozen = some k) :
    isEscrow d id = decide (k = (none, .systemEscrow)) := by
  obtain ⟨w, hw, rfl⟩ := Option.map_eq_some_iff.mp h
  simp only [isEscrow, hw, Option.any_some, Wallet.frozen, Prod.mk.injEq]
  cases w.userId <;> simp

/-- The type of a wallet is a frozen column. -/
theorem isEscrow_of_evolves {ts : List Tbl} {d d' : Db} (h : d.Evolves ts d') :
    isEscrow d' = isEscrow d := by
  funext id
  have hk := h.wallets id
  unfold isEscrow
  cases hd : d.wallets.get? id <;> cases hd' : d'.wallets.get? id <;>
    simp_all [Wallet.frozen]

/-! ## What a commit does to the invariant -/

/-- The rows that a payout of an order appends to the ledger. -/
structure Pays (x : Id) (total : ℤ) (p : Id → Bool) (rows : List Transaction) : Prop where
  keys : ∃ key ∈ payoutKeys x, ledgerKeys rows = [key]
  payout : ∀ t ∈ rows, isPayoutOf x t = true
  left : sumWhere p rows = -total
  credited : sumWhere (fun id => !p id) rows = total

/-- Nothing was appended to the ledger, or the payout of an order by the total of its paid
invoice. -/
def Settles (x : Id) (d d' : Db) : Prop :=
  ∃ rows, d'.transactions = d.transactions ++ rows ∧
    (rows = [] ∨ ∃ iid i, d.invoices.get? iid = some i ∧ i.orderId = x ∧ i.status = .paid ∧
      Pays x i.totalAmount (isEscrow d) rows)

/-- The payouts of another order have other keys. -/
theorem payoutKeys_ne {o x : Id} {key : IdempotencyKey} (h : key ∈ payoutKeys x) (hne : x ≠ o) :
    key ∉ payoutKeys o := by
  intro h'
  simp only [payoutKeys, List.mem_cons, List.not_mem_nil, or_false] at h h'
  rcases h with rfl | rfl | rfl <;> simp_all

variable {o x : Id} {d d' : Db}

/-- Rows without a payout of the order, and the order still settled if it was. -/
theorem paidOut_frame {rows : List Transaction} (hev : d.Evolves fulfilmentTables d')
    (hrows : d'.transactions = d.transactions ++ rows)
    (hkeys : (ledgerKeys rows).filter (· ∈ payoutKeys o) = [])
    (hnone : rows.filter (isPayoutOf o) = []) (hstays : SettledStays o d d')
    (h : NotPaidOut o d ∨ PaidOut o d) : NotPaidOut o d' ∨ PaidOut o d' := by
  have hkeys' : (ledgerKeys d'.transactions).filter (· ∈ payoutKeys o) =
      (ledgerKeys d.transactions).filter (· ∈ payoutKeys o) := by
    rw [hrows, ledgerKeys_append, List.filter_append, hkeys, List.append_nil]
  have hrows' : d'.transactions.filter (isPayoutOf o) = d.transactions.filter (isPayoutOf o) := by
    rw [hrows, List.filter_append, hnone, List.append_nil]
  have hinv : d'.invoices = d.invoices := hev.invoices_eq (by decide)
  rcases h with h | h
  · exact .inl ⟨hkeys'.trans h.keys, hrows'.trans h.rows⟩
  · obtain ⟨y, hy, hs⟩ := h.order
    obtain ⟨y', hy', hs'⟩ := hstays y hy hs
    obtain ⟨iid, i, hi, ho, hp, hleft, hcred⟩ := h.invoice
    refine .inr ⟨hkeys' ▸ h.keys, ⟨y', hy', hs' ▸ hs⟩, iid, i, hinv ▸ hi, ho, hp, ?_, ?_⟩
    · rw [← hleft, leftEscrow, leftEscrow, hrows', isEscrow_of_evolves hev]
    · rw [← hcred, creditedFrom, creditedFrom, hrows', isEscrow_of_evolves hev]

/-- The payout of an order that was not paid out. -/
theorem paidOut_of_pays {rows : List Transaction} {iid : Id} {i : Invoice}
    (hev : d.Evolves fulfilmentTables d')
    (hrows : d'.transactions = d.transactions ++ rows) (hi : d.invoices.get? iid = some i)
    (hio : i.orderId = o) (hip : i.status = .paid) (hpays : Pays o i.totalAmount (isEscrow d) rows)
    (hfinal : ∃ y, d'.orders.get? o = some y ∧ (y.status = .completed ∨ y.status = .refunded))
    (h : NotPaidOut o d) : PaidOut o d' := by
  obtain ⟨key, hkey, hkeys⟩ := hpays.keys
  have hall : rows.filter (isPayoutOf o) = rows := List.filter_eq_self.mpr hpays.payout
  have hrows' : d'.transactions.filter (isPayoutOf o) = rows := by
    rw [hrows, List.filter_append, h.rows, hall, List.nil_append]
  refine ⟨⟨key, hkey, ?_⟩, hfinal, iid, i, ?_, hio, hip, ?_, ?_⟩
  · rw [hrows, ledgerKeys_append, List.filter_append, h.keys, hkeys]
    simp [hkey]
  · rw [hev.invoices_eq (by decide)]
    exact hi
  · rw [leftEscrow, hrows', isEscrow_of_evolves hev, hpays.left, Int.neg_neg]
  · rw [creditedFrom, hrows', isEscrow_of_evolves hev, hpays.credited]

/-- A move of an order to another status, with what it appends to the ledger. -/
theorem inv_of_move {y y' : Order} (hev : d.Evolves fulfilmentTables d')
    (hy : d.orders.get? x = some y) (hy' : d'.orders.get? x = some y')
    (hothers : ∀ j, j ≠ x → d'.orders.get? j = d.orders.get? j)
    (ht : canTransition y.status y'.status = true)
    (hsettles : d'.transactions = d.transactions ∨
      Settles x d d' ∧ (y'.status = .completed ∨ y'.status = .refunded))
    (h : (payoutPolicy o).inv d) :
    (payoutPolicy o).inv d' ∧ SettledStays o d d' := by
  -- A final status has no move, so the order was open.
  have hopen : ¬(y.status = .completed ∨ y.status = .refunded) := by
    rintro (hs | hs) <;> simp [canTransition, transitions, hs] at ht
  have hstays : SettledStays o d d' := by
    intro z hz hs
    by_cases hx : o = x
    · subst hx
      obtain rfl : y = z := Option.some.inj (hy.symm.trans hz)
      exact absurd hs hopen
    · exact ⟨z, (hothers o hx).trans hz, rfl⟩
  have hfit : TotalsFit d' := by
    intro iid i hi
    rw [hev.invoices_eq (by decide)] at hi
    exact h.1 iid i hi
  have hquiet : d'.transactions = d.transactions → NotPaidOut o d' ∨ PaidOut o d' := fun hts =>
    paidOut_frame hev (show _ = _ ++ [] by rw [hts, List.append_nil]) rfl rfl hstays h.2
  refine ⟨⟨hfit, ?_⟩, hstays⟩
  rcases hsettles with hts | ⟨⟨rows, hrows, rfl | hpays⟩, hfinal⟩
  · -- Nothing was booked.
    exact hquiet hts
  · exact hquiet (by rw [hrows, List.append_nil])
  · -- A payout was booked, for the invariant's order or for another one.
    obtain ⟨iid, i, hi, hio, hip, hpays⟩ := hpays
    by_cases hx : x = o
    · -- The row was not settled, so the invariant leaves only one case.
      subst hx
      have hnot : NotPaidOut x d := h.2.resolve_right fun hp => by
        obtain ⟨z, hz, hs⟩ := hp.order
        obtain rfl : y = z := Option.some.inj (hy.symm.trans hz)
        exact hopen hs
      exact .inr (paidOut_of_pays hev hrows hi hio hip hpays ⟨y', hy', hfinal⟩ hnot)
    · -- The payout of another order has keys of its own.
      obtain ⟨key, hkey, hkeys⟩ := hpays.keys
      refine paidOut_frame hev hrows ?_ ?_ hstays h.2
      · rw [hkeys]
        simp [payoutKeys_ne hkey hx]
      · rw [List.filter_eq_nil_iff]
        intro t ht ho
        have := hpays.payout t ht
        simp only [isPayoutOf, Bool.and_eq_true, decide_eq_true_eq] at this ho
        exact hx (Option.some.inj (this.1.symm.trans ho.1))

/-! ## Assertions -/

section Requests

variable {v : TxView} {y : Order} {c : Id} {refresh : Bool} {s : Settings} {now : Time}

/-- The transaction holds an order, and has written no order. -/
def Ready (o x : Id) (y : Order) (v : TxView) : Prop :=
  (HeldOrder x y v ∧ OrdersClean v) ∧ (payoutPolicy o).Framed v

/-- The transaction has paid out nothing, or the order. -/
def Settling (o x : Id) (v : TxView) : Prop :=
  ∀ d, (payoutPolicy o).around.rely v.held v.last d → Settles x d (v.pending d)

/-- An invoice of an order is paid. -/
def PaidBy (iid : Id) (i : Invoice) (x : Id) (v : TxView) : Prop :=
  v.last.invoices.get? iid = some i ∧ i.orderId = x ∧ i.status = .paid ∧
    fitsMoney i.totalAmount = true ∧ fitsMoney i.taxAmount = true

/-- Being framed does not depend on what the tables hold. -/
theorem robust_framed : Robust (payoutPolicy o) fulfilmentTables (payoutPolicy o).Framed :=
  Policy.robust_framed

/-- The order that is held stays as it was read while its escrow is paid out. -/
theorem robust_ready : Robust (payoutPolicy o) [.wallets, .transactions, .disputes] (Ready o x y) :=
  ((robust_heldOrder y).and (robust_ordersClean (by decide))).and
    (robust_framed.mono (by decide))

/-- No request of the policy writes invoices, so what is known of a paid one lasts. -/
theorem robust_paidBy {iid : Id} {i : Invoice} (ts : List Tbl) :
    Robust (payoutPolicy o) ts (PaidBy iid i x) :=
  .lasting (A := fun d => d.invoices.get? iid = some i ∧ i.orderId = x ∧ i.status = .paid ∧
      fitsMoney i.totalAmount = true ∧ fitsMoney i.taxAmount = true)
    fun d d' _ hev _ h => by
      have hev : d.Evolves fulfilmentTables d' := hev
      rw [hev.invoices_eq (by decide)]
      exact h

/-- A transaction that has posted nothing has paid out nothing. -/
theorem settling_of_clean (h : LedgerClean v) : Settling o x v :=
  fun d _ => ⟨[], by rw [h d, List.append_nil], .inl rfl⟩

/-- A replay pays out nothing. -/
theorem settling_of_later {v₁ : TxView} (h : LedgerClean v) (hl : Later (payoutPolicy o) v v₁) :
    Settling o x v₁ :=
  settling_of_clean ((robust_ledgerClean List.not_mem_nil).later h hl)

/-- A leg of a payout, on a wallet that is not the escrow. -/
def Credits (x : Id) (v : TxView) (l : Leg) : Prop :=
  (l.referenceOrderId = some x ∧ l.txnType.isPayout = true) ∧
    ∃ k, k ≠ (none, .systemEscrow) ∧ Kind l.walletId k v

/-- A booked group that takes the total of the paid invoice from the escrow. -/
theorem settling_of_booked {leg : Leg} {rest : List Leg} {v₀ v' : TxView} {iid : Id} {i : Invoice}
    {key : IdempotencyKey}
    (hb : BookedAfter (payoutPolicy o) refresh c (leg :: rest) v v₀ v')
    (hlen : (leg :: rest).length ≤ 4) (hc : LedgerClean v) (hpaid : PaidBy iid i x v)
    (hkey : key ∈ payoutKeys x) (hkeys : legKeys (leg :: rest) = [key])
    (hleg : leg.referenceOrderId = some x ∧ leg.txnType.isPayout = true)
    (he : Kind leg.walletId (none, .systemEscrow) v₀) (hamount : leg.amount.coeff = -i.totalAmount)
    (hrest : ∀ l ∈ rest, Credits x v₀ l) : Settling o x v' := by
  obtain ⟨hprep, v₁, loaded, assigned, rows, d, hb, rfl⟩ := hb
  intro d' hd'
  have hreach := hb.reach_start hd'
  have hescrow : isEscrow d' = isEscrow v₀.last :=
    isEscrow_of_evolves (Policy.rely_evolves hreach)
  -- Only the first leg is on the escrow account, and it takes the whole invoice.
  have hleft : sumWhere (isEscrow d') rows = -i.totalAmount := by
    rw [hescrow, ← hamount]
    refine sumWhere_legs hb.applied.rows ?_ fun l hl => ?_
    · rw [isEscrow_of_kind he]
      rfl
    · obtain ⟨-, k, hk, hkind⟩ := hrest l hl
      rw [isEscrow_of_kind hkind]
      exact decide_eq_false hk
  have hpaid' := (robust_paidBy []).rely v₀ d' ((robust_paidBy []).later hpaid hprep.later) hreach
  refine ⟨rows, ?_, .inr ⟨iid, i, hpaid'.1, hpaid'.2.1, hpaid'.2.2.1, ⟨key, hkey, ?_⟩, ?_, hleft, ?_⟩⟩
  · simp only [booked, Function.comp_apply, Db.post, hprep.later.pending, hc d']
  · rw [rows_keys hb.applied.rows, hkeys]
  · intro t ht
    obtain ⟨l, hl, hr⟩ := exists_leg_of_mem hb.applied.rows ht
    have hl' : l.referenceOrderId = some x ∧ l.txnType.isPayout = true := by
      rcases List.mem_cons.mp hl with rfl | hl
      · exact hleg
      · exact (hrest l hl).1
    simp [isPayoutOf, hr.referenceOrderId, hr.type, hl'.1, hl'.2]
  · -- A group sums to zero, so the other legs are what left the escrow.
    have := sumWhere_add_not (isEscrow d') rows
    rw [hb.zero (length_le_of_four hlen), hleft] at this
    omega

/-! ## Payouts -/

/-- What is known before a payout: the order is held, and nothing was posted. -/
def Before (o x : Id) (y : Order) (v : TxView) : Prop := Ready o x y v ∧ LedgerClean v

/-- What is known before a payout does not depend on the disputes. -/
theorem robust_before : Robust (payoutPolicy o) [.disputes] (Before o x y) :=
  (robust_ready.mono (by decide)).and (robust_ledgerClean (by decide))

/-- A payout keeps the order held, whatever it settles. -/
theorem wp_payout {α : Type} {p : Tx α} {Q : α → TxView → Prop}
    (hw : WritesTo [.wallets, .transactions] p) (hv : Ready o x y v)
    (hp : wp (payoutPolicy o).around p (fun _ v' => Settling o x v') v)
    (hQ : ∀ a v', Ready o x y v' → Settling o x v' → Q a v') :
    wp (payoutPolicy o).around p Q v :=
  wp_mono (fun a v' h => hQ a v' h.1 h.2) (wp_and (robust_ready.keeps hw (by decide) v hv) hp)

variable {iid k u : Id} {i : Invoice} {t t' : WalletType} {kid uid : Id}

/-- A user's wallet is not the escrow. -/
theorem credits_of_user {leg : Leg} {v₀ : TxView} (hl : Later (payoutPolicy o) v v₀)
    (hk : Kind leg.walletId (some kid, t) v)
    (hleg : leg.referenceOrderId = some x ∧ leg.txnType.isPayout = true) : Credits x v₀ leg :=
  ⟨hleg, _, by simp, (robust_kind []).later hk hl⟩

/-- A refund pays the total of the invoice to the customer. -/
theorem wp_refund {Q : Bool → TxView → Prop} (hv : Before o x y v) (hpaid : PaidBy iid i x v)
    (hu : Kind u (some uid, t) v) (hQ : ∀ b v', Ready o x y v' → Settling o x v' → Q b v') :
    wp (payoutPolicy o).around (refundEscrow refresh x iid u (money i.totalAmount) c) Q v := by
  refine wp_payout writesTo_refundEscrow hv.1 (wp_refundEscrow hv.1.2
    (fun v₁ hl _ => settling_of_later hv.2 hl) fun v₀ v' e n hn he hlt hb => ?_) hQ
  obtain ⟨rfl, -⟩ := eq_of_quantizeMoney_money hn
  refine settling_of_booked hb length_refundLegs hv.2 hpaid (by simp [payoutKeys])
    legKeys_refundLegs ⟨rfl, rfl⟩ he (congrArg Dec.coeff (neg_cents_of_lt hlt)) fun l hl => ?_
  rw [List.mem_singleton] at hl
  subst hl
  exact credits_of_user hb.1.later hu ⟨rfl, rfl⟩

/-- A release pays the total of the invoice to the courier and to the system wallets. -/
theorem wp_release {st : Settlement} {Q : Bool → TxView → Prop} (hv : Before o x y v)
    (hpaid : PaidBy iid i x v) (hk : Kind k (some kid, t) v)
    (hst : FulfillmentService.settlementOf s i = .ok st)
    (hQ : ∀ b v', Ready o x y v' → Settling o x v' → Q b v') :
    wp (payoutPolicy o).around (FulfillmentService.releaseFor refresh x iid k st c) Q v := by
  refine wp_payout writesTo_releaseEscrow hv.1 (wp_releaseEscrow hv.1.2
    (fun v₁ hl _ => settling_of_later hv.2 hl) fun v₀ v' e tw r a b n ha hb hn he ht hr hlt hbook => ?_)
    hQ
  obtain ⟨rfl, -⟩ := eq_of_quantizeMoney_money ha
  obtain ⟨rfl, -⟩ := eq_of_quantizeMoney_money hb
  obtain ⟨rfl, -⟩ := eq_of_quantizeMoney_money hn
  -- The three parts of the settlement are the total of the invoice.
  have htotal := total_of_computeSettlement hpaid.2.2.2.2 hpaid.2.2.2.1 hst
  refine settling_of_booked hbook length_releaseLegs hv.2 hpaid (by simp [payoutKeys])
    legKeys_releaseLegs ⟨rfl, rfl⟩ he
    (by rw [← htotal]; exact congrArg Dec.coeff (neg_cents_of_lt hlt)) fun l hl => ?_
  simp only [List.append_eq, List.cons_append, List.nil_append, List.mem_cons, List.mem_append,
    List.mem_ite_nil_right, List.not_mem_nil, or_false] at hl
  rcases hl with rfl | ⟨-, rfl⟩ | ⟨-, rfl⟩
  · exact credits_of_user hbook.1.later hk ⟨rfl, rfl⟩
  · exact ⟨⟨rfl, rfl⟩, _, by simp, ht⟩
  · exact ⟨⟨rfl, rfl⟩, _, by simp, hr⟩

/-- A split pays the total of the invoice to the courier and to the customer. -/
theorem wp_split {share : ℤ} {Q : Bool → TxView → Prop} (hv : Before o x y v)
    (hpaid : PaidBy iid i x v) (hk : Kind k (some kid, t) v) (hu : Kind u (some uid, t') v)
    (hQ : ∀ b v', Ready o x y v' → Settling o x v' → Q b v') :
    wp (payoutPolicy o).around (splitEscrow refresh x iid k u (money share)
      (.finite ((Dec.cents i.totalAmount).sub (.cents share))) c) Q v := by
  refine wp_payout writesTo_splitEscrow hv.1 (wp_splitEscrow hv.1.2
    (fun v₁ hl _ => settling_of_later hv.2 hl) fun v₀ v' e a b ha hb he hlt hbook => ?_) hQ
  obtain ⟨rfl, -⟩ := eq_of_quantizeMoney_money ha
  rw [Dec.sub_cents] at hb
  obtain ⟨rfl, -⟩ := eq_of_quantizeMoney_fix hb
  have hsum : a + (i.totalAmount - a) = i.totalAmount := by omega
  rw [hsum] at hlt hbook
  refine settling_of_booked hbook length_splitLegs hv.2 hpaid (by simp [payoutKeys])
    legKeys_splitLegs ⟨rfl, rfl⟩ he (congrArg Dec.coeff (neg_cents_of_lt hlt)) fun l hl => ?_
  simp only [List.append_eq, List.nil_append, List.mem_append, List.mem_cons, List.mem_ite_nil_right,
    List.not_mem_nil, or_false] at hl
  rcases hl with ⟨-, rfl⟩ | ⟨-, rfl⟩
  · exact credits_of_user hbook.1.later hk ⟨rfl, rfl⟩
  · exact credits_of_user hbook.1.later hu ⟨rfl, rfl⟩

/-! ## Moves -/

/-- The flush of a held order that moves on, with what was posted before. -/
theorem wp_moveOrder {a : Order} {Q : Unit → TxView → Prop} (hv : Ready o x y v)
    (ht : canTransition y.status a.status = true)
    (hs : LedgerClean v ∨ Settling o x v ∧ (a.status = .completed ∨ a.status = .refunded))
    (hQ : ∀ v', (payoutPolicy o).Safe v' → Q () v') :
    wp (payoutPolicy o).around (OrderRepository.flush now x y a) Q v := by
  have hne : a.status ≠ y.status := ne_of_canTransition ht
  refine wp_flushOrder (fun h => hne (h ▸ rfl)) fun d z hd _ _ => hQ _ fun d' hd' => ?_
  -- The row is held, so at the flush it is still the one that was loaded.
  have hreach : (payoutPolicy o).around.rely v.held v.last d' :=
    Policy.rely_after [.order x] hd hd'
  have hrow : d'.orders.get? x = some y := (Policy.rely_order hreach hv.1.1.1).trans hv.1.1.2
  have hclean : (v.pending d').orders = d'.orders := hv.1.2 d'
  have hev : d'.Evolves fulfilmentTables (Db.updateOrder x (y.assign a) (v.pending d')) :=
    .trans (hv.2 d').1 ((Db.Evolves.updateOrder x (y.assign_frozen a) _).mono (by decide))
  have hmoved : (Db.updateOrder x (y.assign a) (v.pending d')).orders.get? x =
      some (y.assign a y) := by
    simp only [Db.updateOrder, Table.get?_update_self, hclean, hrow, Option.map_some]
  have hothers : ∀ j, j ≠ x → (Db.updateOrder x (y.assign a) (v.pending d')).orders.get? j =
      d'.orders.get? j := by
    intro j hj
    simp only [Db.updateOrder, Table.get?_update_ne _ _ hj, hclean]
  have hstatus : (y.assign a y).status = a.status := assign_self _ _
  obtain ⟨hinv, hstays⟩ := inv_of_move hev hrow hmoved hothers (by rw [hstatus]; exact ht)
    (hs.imp (fun h => h d') fun h => ⟨h.1 d' hreach, hstatus ▸ h.2⟩) hd'.1
  exact ⟨hinv, trivial, hstays, fun _ _ => trivial⟩

/-! ## Requests -/

/-- The transaction has written no order, and posted nothing. -/
def Clean (o : Id) (v : TxView) : Prop :=
  (OrdersClean v ∧ LedgerClean v) ∧ (payoutPolicy o).Framed v

/-- A write of the disputes leaves orders and ledger unwritten. -/
theorem robust_clean : Robust (payoutPolicy o) [.disputes] (Clean o) :=
  ((robust_ordersClean (by decide)).and (robust_ledgerClean (by decide))).and
    (robust_framed.mono (by decide))

/-- A transaction begins with nothing written. -/
theorem clean_start {m : Memory} {d : Db} : Clean o (.start m d) :=
  ⟨⟨fun _ => rfl, fun _ => rfl⟩, fun d => ⟨.refl _ d, fun l _ => .refl l d⟩⟩

/-- Once the order is locked, what a payout needs is known. -/
theorem before_of_clean (hh : HeldOrder x y v) (hc : Clean o v) : Before o x y v :=
  ⟨⟨⟨hh, hc.1.1⟩, hc.2⟩, hc.1.2⟩

/-- A transaction that has written neither orders nor ledger may commit. -/
theorem safe_of_clean (hc : Clean o v) : (payoutPolicy o).Safe v := by
  intro d hd
  have hev : d.Evolves fulfilmentTables (v.pending d) := (hc.2 d).1
  have hstays : SettledStays o d (v.pending d) := fun z hz _ => ⟨z, hc.1.1 d ▸ hz, rfl⟩
  refine ⟨⟨?_, ?_⟩, trivial, hstays, fun _ _ => trivial⟩
  · intro iid i hi
    rw [hev.invoices_eq (by decide)] at hi
    exact hd.1.1 iid i hi
  · exact paidOut_frame hev (show _ = _ ++ [] by rw [hc.1.2 d, List.append_nil]) rfl rfl hstays
      hd.1.2

/-- The policy reads wallets, ledger, orders and invoices only. -/
theorem payoutPolicy_reads : (payoutPolicy o).Reads [.wallets, .transactions, .orders, .invoices] where
  inv d d' h hinv := by
    have hw : d'.wallets = d.wallets := (h .wallets (by simp)).1
    have ht : d'.transactions = d.transactions := h .transactions (by simp)
    have ho : d'.orders = d.orders := h .orders (by simp)
    have hi : d'.invoices = d.invoices := h .invoices (by simp)
    have he : isEscrow d' = isEscrow d := by
      funext id
      rw [isEscrow, isEscrow, hw]
    obtain ⟨hfit, hpaid⟩ := hinv
    refine ⟨fun iid i => hi ▸ hfit iid i, ?_⟩
    rcases hpaid with ⟨hk, hr⟩ | ⟨hk, hord, hinv⟩
    · exact .inl ⟨ht ▸ hk, ht ▸ hr⟩
    · refine .inr ⟨ht ▸ hk, ho ▸ hord, ?_⟩
      rw [leftEscrow, creditedFrom, he, ht, hi]
      exact hinv
  grow _ _ _ _ _ := trivial
  guar d₀ d d' h hguar := by
    have ho : d'.orders = d.orders := h .orders (by simp)
    change SettledStays o d₀ d at hguar
    change SettledStays o d₀ d'
    unfold SettledStays at *
    rw [ho]
    exact hguar
  keeps _ _ _ _ _ _ := trivial

/-- A transaction that may commit may still do so after a write of the disputes. -/
theorem robust_safe : Robust (payoutPolicy o) [.disputes] (payoutPolicy o).Safe :=
  Policy.robust_safe payoutPolicy_reads (by decide)

/-- The paid invoice of an order. -/
theorem wp_paidInvoice {Q : Id × Invoice → TxView → Prop} (hv : Before o x y v)
    (hQ : ∀ iid i v', Before o x y v' → PaidBy iid i x v' → Q (iid, i) v') :
    wp (payoutPolicy o).around (FulfillmentService.paidInvoice x) Q v := by
  unfold FulfillmentService.paidInvoice
  refine wp_query_bind fun d hd => ?_
  have hinv : (v.pending d).invoices = d.invoices :=
    Db.Evolves.invoices_eq (hv.1.2 d).1 (show Tbl.invoices ∉ fulfilmentTables by decide)
  rw [hinv]
  split
  · trivial
  · rename_i r hr
    obtain ⟨hr, hp⟩ := Option.filter_eq_some_iff.mp hr
    obtain ⟨hrow, hcond⟩ := Table.find?_eq_some hr
    simp only [Bool.and_eq_true, decide_eq_true_eq] at hcond hp
    exact hQ r.1 r.2 _ (robust_before.rely v d hv hd)
      ⟨hrow, hcond.1, hp, (hd.1.1 r.1 r.2 hrow).1, (hd.1.1 r.1 r.2 hrow).2⟩

/-- What is known before a payout, together with the paid invoice, does not depend on the disputes.
-/
theorem robust_payable (iid : Id) (i : Invoice) :
    Robust (payoutPolicy o) [.disputes] fun v => Before o x y v ∧ PaidBy iid i x v :=
  robust_before.and (robust_paidBy _)

/-- A delivery pays out nothing. -/
theorem wp_submitDelivery {confirm : Text → Except Err Unit} {q : Option ℚ} {keys : List Text}
    (hc : Clean o v) :
    wp (payoutPolicy o).around (FulfillmentService.submitDelivery s now confirm q x k keys)
      (fun _ v => (payoutPolicy o).Safe v) v := by
  unfold FulfillmentService.submitDelivery
  rw [wp_bind]
  refine wp_lockForActor robust_clean hc hc.1.1 fun y v hc hh _ => wp_assertTransition_bind
    fun ht => ?_
  refine wp_require_bind fun _ => wp_require_bind fun _ => wp_require_bind fun _ =>
    wp_ofExcept_bind fun _ _ => ?_
  exact wp_moveOrder (before_of_clean hh hc).1 ht (.inl hc.1.2) fun _ h => h

/-- A completion pays out the order that it completes. -/
theorem wp_completeAndRelease (hv : Before o x y v) :
    wp (payoutPolicy o).around (FulfillmentService.completeAndRelease refresh s now c x y)
      (fun _ v => (payoutPolicy o).Safe v) v := by
  unfold FulfillmentService.completeAndRelease
  refine wp_assertTransition_bind fun ht => ?_
  rw [wp_bind]
  refine wp_paidInvoice hv fun iid i v hv hpaid => ?_
  dsimp only
  split
  · trivial
  rename_i courierId _
  refine wp_getByUser_bind hv.1.2 (fun _ _ => trivial) fun v₁ k _ t hprep _ hk => ?_
  obtain ⟨hv, hpaid⟩ := (robust_payable iid i).later ⟨hv, hpaid⟩ hprep.later
  refine wp_ofExcept_bind fun st hst => ?_
  rw [wp_bind]
  exact wp_release hv hpaid hk hst fun _ v' hv' hs =>
    wp_moveOrder hv' ht (.inr ⟨hs, .inl rfl⟩) fun _ h => h

/-- `approve_order` commits a payout or nothing. -/
theorem wp_approveOrder (hc : Clean o v) :
    wp (payoutPolicy o).around (FulfillmentService.approveOrder refresh s now c x u)
      (fun _ v => (payoutPolicy o).Safe v) v := by
  unfold FulfillmentService.approveOrder
  rw [wp_bind]
  exact wp_lockForActor robust_clean hc hc.1.1 fun y v hc hh _ =>
    wp_completeAndRelease (before_of_clean hh hc)

/-- The automatic approval commits a payout or nothing. -/
theorem wp_autoApprove (hc : Clean o v) :
    wp (payoutPolicy o).around (FulfillmentService.autoApprove refresh s now c x)
      (fun _ v => (payoutPolicy o).Safe v) v := by
  unfold FulfillmentService.autoApprove
  rw [wp_bind]
  refine wp_lockOrder_clean robust_clean hc hc.1.1 (fun _ hc => safe_of_clean hc)
    fun y v hc hh _ => ?_
  dsimp only
  rw [wp_ite]
  refine ⟨fun _ => safe_of_clean hc, fun _ => ?_⟩
  rw [wp_bind]
  exact wp_completeAndRelease (before_of_clean hh hc)

/-- A dispute that is raised pays out nothing. -/
theorem wp_raiseDispute {did : Id} {r : Text} (hc : Clean o v) :
    wp (payoutPolicy o).around (FulfillmentService.raiseDispute now did x u r)
      (fun _ v => (payoutPolicy o).Safe v) v := by
  unfold FulfillmentService.raiseDispute
  rw [wp_bind]
  refine wp_lockForActor robust_clean hc hc.1.1 fun y v hc hh _ => ?_
  refine robust_before.query_bind (before_of_clean hh hc) fun _ v hv _ _ => ?_
  refine wp_require_bind fun _ => wp_assertTransition_bind fun ht => ?_
  rw [wp_bind]
  refine wp_moveOrder hv.1 ht (.inl hv.2) fun v hv => ?_
  exact robust_safe.wp_bind writesTo_createDispute (by decide) hv fun _ _ h => h

/-- The outcome of a dispute pays out the order, and settles it. -/
theorem wp_applyDisputeOutcome {outcome : DisputeStatus} {q : Option Decimal}
    {Q : Order × OrderStatus → TxView → Prop} (hv : Before o x y v) (hpaid : PaidBy iid i x v)
    (hQ : ∀ a v', Ready o x y v' → Settling o x v' → a.2 = .completed ∨ a.2 = .refunded → Q a v') :
    wp (payoutPolicy o).around
      (FulfillmentService.applyDisputeOutcome refresh s c x y iid i outcome q) Q v := by
  unfold FulfillmentService.applyDisputeOutcome
  split
  · trivial
  refine wp_getByUser_bind hv.1.2 (fun v₁ hl => ?_) fun v₁ k _ t hprep _ hk => ?_
  · exact wp_getByUser_bind (robust_framed.later hv.1.2 hl) (fun _ _ => trivial)
      fun _ _ _ _ _ _ _ => trivial
  obtain ⟨hv, hpaid⟩ := (robust_payable iid i).later ⟨hv, hpaid⟩ hprep.later
  refine wp_getByUser_bind hv.1.2 (fun _ _ => trivial) fun v₂ u _ t' hprep' _ hu => ?_
  obtain ⟨hv, hpaid⟩ := (robust_payable iid i).later ⟨hv, hpaid⟩ hprep'.later
  replace hk := (robust_kind []).later hk hprep'.later
  dsimp only
  split
  · -- The customer gets all of it back.
    rw [wp_bind]
    exact wp_refund hv hpaid hu fun _ v' hv' hs => hQ _ v' hv' hs (.inr rfl)
  · -- The courier is paid as after a completion.
    refine wp_ofExcept_bind fun st hst => ?_
    rw [wp_bind]
    exact wp_release hv hpaid hk hst fun _ v' hv' hs => hQ _ v' hv' hs (.inl rfl)
  · split
    · trivial
    · -- The total is split between the two.
      refine wp_ofExcept_bind fun _ _ => wp_ofExcept_bind fun _ _ => wp_require_bind fun _ => ?_
      rw [wp_bind]
      exact wp_split hv hpaid hk hu fun _ v' hv' hs => hQ _ v' hv' hs (.inl rfl)
  · trivial

/-- `resolve_dispute` pays out the order by one of the three groups. -/
theorem wp_resolveDispute {did : Id} {outcome : DisputeStatus} {n : Option Text}
    {q : Option Decimal} (hc : Clean o v) :
    wp (payoutPolicy o).around (FulfillmentService.resolveDispute refresh s now c did u outcome n q)
      (fun _ v => (payoutPolicy o).Safe v) v := by
  unfold FulfillmentService.resolveDispute
  refine robust_clean.wp_bind writesTo_lockDispute (List.Subset.refl _) hc fun z v hc => ?_
  split
  · trivial
  refine wp_require_bind fun _ => ?_
  rw [wp_bind]
  refine wp_lockOrder_clean robust_clean hc hc.1.1 (fun _ _ => trivial) fun y v hc hh _ => ?_
  rw [wp_bind]
  refine wp_paidInvoice (before_of_clean hh hc) fun iid i v hv hpaid => ?_
  rw [wp_bind]
  refine wp_applyDisputeOutcome hv hpaid fun a v hv hs hfinal => ?_
  refine wp_assertTransition_bind fun ht => ?_
  rw [wp_bind]
  refine wp_moveOrder hv ht (.inr ⟨hs, hfinal⟩) fun v hv => ?_
  exact robust_safe.wp_last writesTo_resolveRow (by decide) hv fun _ _ h => h

end Requests

end PayoutProof

/-! ## Runs -/

/-- The requests that fulfil orders. -/
def Request.fulfils : Request → Prop
  | .submitDelivery .. | .approveOrder .. | .autoApprove .. | .raiseDispute ..
  | .resolveDispute .. => True
  | _ => False

/-- Every request that fulfils an order follows the policy. -/
theorem PayoutProof.follows {o : Id} {refresh : Bool} {s : Settings} {p : Tx Unit}
    (hp : Requested refresh s Request.fulfils p) : (payoutPolicy o).discipline.Follows .empty p := by
  obtain ⟨r, hr, rfl⟩ := hp
  have hsafe : ∀ d, wp (payoutPolicy o).around (r.tx refresh s)
      (fun _ v => (payoutPolicy o).Safe v) (.start .empty d) := by
    intro d
    cases r with
    | submitDelivery => exact wp_submitDelivery clean_start
    | approveOrder => exact wp_approveOrder clean_start
    | autoApprove => exact wp_void (wp_autoApprove clean_start)
    | raiseDispute => exact wp_raiseDispute clean_start
    | resolveDispute => exact wp_resolveDispute clean_start
    | _ => exact hr.elim
  have htables : r.tables ⊆ fulfilmentTables := by
    cases r with
    | submitDelivery | approveOrder | autoApprove | raiseDispute | resolveDispute =>
      simp [Request.tables, fulfilmentTables]
    | _ => exact hr.elim
  exact Policy.follows (r.writesTo refresh s) htables fun d _ => hsafe d

/-- In every run of deliveries, approvals, disputes and resolutions from a state in which an order
has not been paid out, at most one of its three payout groups is committed; when one is, the amount
that left the escrow is the total of the order's paid invoice and the sum of the other legs, and the
order is completed or refunded, and stays so. -/
theorem payout_at_most_once (refresh : Bool) (s : Settings) (o : Id) (d₀ : Db)
    (hfit : TotalsFit d₀) (hnot : NotPaidOut o d₀) (sys : System Db Row Err Memory Unit)
    (hrun : System.Run (Requested refresh s Request.fulfils) (System.always Db Row Memory) .empty d₀
      sys) :
    ((ledgerKeys sys.db.transactions).filter (· ∈ payoutKeys o)).length ≤ 1 ∧
    ((∃ key ∈ payoutKeys o, key ∈ ledgerKeys sys.db.transactions) → PaidOut o sys.db) ∧
    ∀ i sys', sys.step i = some sys' → SettledStays o sys.db sys'.db := by
  have hfollows := fun p (hp : Requested refresh s Request.fulfils p) =>
    PayoutProof.follows (o := o) hp
  have hinv : NotPaidOut o sys.db ∨ PaidOut o sys.db :=
    (Discipline.inv_of_run hfollows ⟨hfit, .inl hnot⟩ hrun).2
  refine ⟨?_, fun ⟨key, hkey, hmem⟩ => hinv.resolve_left fun h => ?_, fun i sys' hs => ?_⟩
  · -- Not paid out: none of the keys. Paid out: exactly one.
    rcases hinv with h | h
    · rw [h.keys]
      exact Nat.zero_le 1
    · obtain ⟨key, -, hkeys⟩ := h.keys
      rw [hkeys, List.length_singleton]
  · have : key ∈ (ledgerKeys sys.db.transactions).filter (· ∈ payoutKeys o) :=
      List.mem_filter.mpr ⟨hmem, by simpa using hkey⟩
    rw [h.keys] at this
    cases this
  · -- A final status is kept by every step.
    rcases Discipline.guar_of_run hfollows ⟨hfit, .inl hnot⟩ hrun (fun _ _ _ _ => trivial) hs with
      h | h
    · exact h ▸ (payoutPolicy o).guar_refl sys.db
    · exact h

/-- A delivered order whose invoice was paid. -/
def Sample.delivered : Db :=
  ordered (wallets 0 0 10000) (order .delivered) (invoice .paid 10000 0)

/-- The total of the one invoice fits its column. -/
theorem Sample.delivered_totalsFit : TotalsFit delivered := by
  refine Table.forall_get?.mpr fun r hr => ?_
  obtain rfl : r = (601, invoice .paid 10000 0) := by simpa [delivered, ordered] using hr
  decide

/-- The customer approves the order. -/
def Sample.approve : Tx Unit := Request.tx false settings (.approveOrder 0 102 401 1)

/-- The sweep approves the order. -/
def Sample.sweep : Tx Unit := Request.tx false settings (.autoApprove 0 103 401)

/-- An approval and a sweep race on a delivered order, and one of them pays it out. -/
theorem payout_at_most_once_delivered :
    ∃ sys : System Db Row Err Memory Unit,
      System.Run (Requested false Sample.settings Request.fulfils) (System.always Db Row Memory)
        .empty Sample.delivered sys ∧
      .release 401 ∈ ledgerKeys sys.db.transactions ∧ PaidOut 401 sys.db := by
  obtain ⟨sys, hrun, hq⟩ := System.Run.exists_of_play
    (Requested false Sample.settings Request.fulfils) (System.always Db Row Memory) .empty
    Sample.delivered
    ([.start Sample.approve, .start Sample.sweep, .step 0] ++ List.replicate 23 (.step 1) ++
      [.step 0, .step 0])
    (fun sys => .release 401 ∈ ledgerKeys sys.db.transactions)
    (by
      intro p hp
      simp only [List.mem_append, List.mem_cons, List.mem_replicate, System.Event.start.injEq,
        List.not_mem_nil, reduceCtorEq, and_false, or_false] at hp
      rcases hp with rfl | rfl
      · exact ⟨.approveOrder 0 102 401 1, trivial, rfl⟩
      · exact ⟨.autoApprove 0 103 401, trivial, rfl⟩)
    (by decide +kernel)
  -- The run pays the order out; the theorem says that it does so once.
  rw [decide_eq_true_eq] at hq
  have h := payout_at_most_once false Sample.settings 401 Sample.delivered
    Sample.delivered_totalsFit ⟨rfl, rfl⟩ sys hrun
  exact ⟨sys, hrun, hq, h.2.1 ⟨.release 401, by simp [payoutKeys], hq⟩⟩

end Giftly
