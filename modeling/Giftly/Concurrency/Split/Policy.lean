import Giftly.Concurrency.Operations
import Giftly.Concurrency.Settlement

/-!
# The two parts of a payment

A payment through the gateway stores the wallet's part on the invoice and the gateway's part on the
payment intent, and the webhook later adds the two up. The policy's invariant says that they add up
to the invoice, for the one `NEW` intent that it may have. A payment reads the invoice before it
locks the order, and the mapper writes a column only when its value changed: the parts add up when
the wallet's part is still the one that was read, and when no payment is settled from the wallet
while an intent is open (`splitCurrent`).
-/

namespace Giftly

open Store OrderState
open WalletRepository MoneyService

/-- A `NEW` payment intent of an invoice. -/
def OpenIntent (d : Db) (iid j : Id) (p : PaymentIntent) : Prop :=
  d.intents.get? j = some p ∧ p.referenceInvoiceId = some iid ∧ p.status = .new

/-- An invoice has at most one `NEW` intent, whose amount is what the wallet does not pay. -/
structure SplitAt (d : Db) (iid : Id) : Prop where
  sole : ∀ j p j' p', OpenIntent d iid j p → OpenIntent d iid j' p' → j = j'
  sum : ∀ j p i, OpenIntent d iid j p → d.invoices.get? iid = some i →
    i.amountFromWallet + p.amount = i.totalAmount
  url : ∀ j p, OpenIntent d iid j p → p.streampayPaymentUrl.isSome = true

/-- An invoice without an open intent has parts that add up. -/
theorem SplitAt.of_closed {d : Db} {iid : Id} (h : ∀ j p, ¬OpenIntent d iid j p) :
    SplitAt d iid where
  sole j p _ _ hp := absurd hp (h j p)
  sum j p _ hp := absurd hp (h j p)
  url j p hp := absurd hp (h j p)

/-- A ledger row is on the wallet of escrow. -/
def OnEscrow (d : Db) (t : Transaction) : Prop :=
  (d.wallets.get? t.walletId).map Wallet.frozen = some (none, .systemEscrow)

/-- Escrow was funded with the totals of invoices, whose orders went on. -/
def FundedByTotal (d : Db) : Prop :=
  ∀ t ∈ d.transactions, ∀ iid, t.idempotencyKey = some (.escrow iid) → OnEscrow d t ∧
    ∃ i, d.invoices.get? iid = some i ∧ t.amount = i.totalAmount ∧
      ∃ o, d.orders.get? i.orderId = some o ∧ o.status ≠ .waitingPayment

/-- The two parts of every open payment add up. -/
structure SplitOk (d : Db) : Prop where
  wallets : WalletIndex d
  split : ∀ iid, SplitAt d iid
  funded : FundedByTotal d

/-- The columns of an invoice that a payment adds up. -/
def Invoice.parts (i : Invoice) : Invoice × ℤ := (i.frozen, i.amountFromWallet)

/-- An invoice keeps its parts, and gets no open intent. -/
structure Shrinks (iid : Id) (d d' : Db) : Prop where
  invoice : (d'.invoices.get? iid).map Invoice.parts = (d.invoices.get? iid).map Invoice.parts
  opens : ∀ j p, OpenIntent d' iid j p → OpenIntent d iid j p

/-- Nothing happens to the invoice. -/
theorem Shrinks.refl (iid : Id) (d : Db) : Shrinks iid d d := ⟨rfl, fun _ _ h => h⟩

/-- Parts that are kept over two steps. -/
theorem Shrinks.trans {iid : Id} {d₁ d₂ d₃ : Db} (h₁ : Shrinks iid d₁ d₂)
    (h₂ : Shrinks iid d₂ d₃) : Shrinks iid d₁ d₃ :=
  ⟨h₂.invoice.trans h₁.invoice, fun j p h => h₁.opens j p (h₂.opens j p h)⟩

/-- The invoice is still there, with its parts. -/
theorem Shrinks.exists {iid : Id} {d d' : Db} {i : Invoice} (h : Shrinks iid d d')
    (hi : d.invoices.get? iid = some i) :
    ∃ i', d'.invoices.get? iid = some i' ∧ i'.parts = i.parts := by
  have := h.invoice
  rw [hi, Option.map_some] at this
  obtain ⟨i', hi', hp⟩ := Option.map_eq_some_iff.mp this
  exact ⟨i', hi', hp⟩

/-- Parts that add up do so while no intent is opened. -/
theorem Shrinks.splitAt {iid : Id} {d d' : Db} (h : Shrinks iid d d') (hs : SplitAt d iid) :
    SplitAt d' iid where
  sole j p j' p' hp hp' := hs.sole j p j' p' (h.opens j p hp) (h.opens j' p' hp')
  sum j p i hp hi := by
    have := h.invoice
    rw [hi, Option.map_some] at this
    obtain ⟨i', hi', hparts⟩ := Option.map_eq_some_iff.mp this.symm
    have hsum := hs.sum j p i' (h.opens j p hp) hi'
    simp only [Invoice.parts, Prod.mk.injEq] at hparts
    rw [← hparts.2, ← Invoice.totalAmount_of_frozen hparts.1]
    exact hsum
  url j p hp := hs.url j p (h.opens j p hp)

/-- The lock of an order protects the parts of its invoices, and their open intents. -/
def orderKeeps : Row → Db → Db → Prop
  | .order oid, d, d' => ∀ iid i, d.invoices.get? iid = some i → i.orderId = oid → Shrinks iid d d'
  | _, _, _ => True

/-- Nothing happens, which every lock allows. -/
theorem orderKeeps_refl (l : Row) (d : Db) : orderKeeps l d d := by
  cases l <;> simp [orderKeeps, Shrinks.refl]

/-- What the lock of an order protects is kept over two steps. -/
theorem orderKeeps_trans {l : Row} {d₁ d₂ d₃ : Db} (h₁ : orderKeeps l d₁ d₂)
    (h₂ : orderKeeps l d₂ d₃) : orderKeeps l d₁ d₃ := by
  cases l with
  | order oid =>
    intro iid i hi ho
    have hs := h₁ iid i hi ho
    obtain ⟨i', hi', hp⟩ := hs.exists hi
    refine hs.trans (h₂ iid i' hi' ?_)
    rw [← ho]
    exact Invoice.orderId_of_frozen (congrArg Prod.fst hp)
  | _ => trivial

/-- A payment gets the lock of its order while the wallet's part of the invoice is the one that it
read, and it locks a wallet that covers the invoice only while no intent is open. -/
def splitCurrent (m : Memory) (d : Db) : Row → Prop
  | .order oid => ∀ r ∈ d.invoices.rows, ∀ i ∈ m.invoices r.1, i.orderId = oid →
    r.2.amountFromWallet = i.amountFromWallet
  | .wallet id => ∀ w ∈ m.wallets id, ∀ r ∈ d.invoices.rows, ∀ i ∈ m.invoices r.1,
    i.totalAmount ≤ w.balance - w.heldBalance →
      ∀ q ∈ d.intents.rows, ¬(q.2.referenceInvoiceId = some r.1 ∧ q.2.status = .new)
  | _ => True

instance (m : Memory) (d : Db) : ∀ l : Row, Decidable (splitCurrent m d l)
  | .order oid => inferInstanceAs (Decidable
      (∀ r ∈ d.invoices.rows, ∀ i ∈ m.invoices r.1, i.orderId = oid →
        r.2.amountFromWallet = i.amountFromWallet))
  | .wallet id => inferInstanceAs (Decidable
      (∀ w ∈ m.wallets id, ∀ r ∈ d.invoices.rows, ∀ i ∈ m.invoices r.1,
        i.totalAmount ≤ w.balance - w.heldBalance →
          ∀ q ∈ d.intents.rows, ¬(q.2.referenceInvoiceId = some r.1 ∧ q.2.status = .new)))
  | .conversation _ | .invoice _ | .item _ | .intent _ | .topup _ | .dispute _ | .promo _
  | .redemption _ | .withdrawal _ | .idempotency _ | .activeInvoice _ | .paymentLink _
  | .disputeOf _ | .conversationOf _ | .withdrawalKey _ _ => .isTrue trivial

/-- The policy of payments that keeps their two parts together. -/
def splitPolicy : Policy where
  tables := .topups :: .withdrawals :: paymentTables
  inv := SplitOk
  keeps := orderKeeps
  keeps_refl := orderKeeps_refl
  keeps_trans := orderKeeps_trans
  cond := splitCurrent

namespace SplitProof

/-! ## Assertions -/

variable {v : TxView} {iid id c : Id} {i₀ l : Invoice} {refresh : Bool}

/-- The order of an invoice is locked, and the invoice has the parts that were read. -/
def Pinned (iid : Id) (i₀ : Invoice) (v : TxView) : Prop :=
  .order i₀.orderId ∈ v.held ∧ (v.last.invoices.get? iid).map Invoice.parts = some i₀.parts

/-- Besides, the invoice has no open intent. -/
def Closed (iid : Id) (i₀ : Invoice) (v : TxView) : Prop :=
  .order i₀.orderId ∈ v.held ∧ (v.last.invoices.get? iid).map Invoice.parts = some i₀.parts ∧
    ∀ j p, ¬OpenIntent v.last iid j p

/-- The invariant held at the last statement. -/
def Sound (v : TxView) : Prop := SplitOk v.last

/-- The lock of its order keeps the parts of an invoice. -/
theorem shrinks_of_keeps {d d' : Db} (h : splitPolicy.keeps (.order i₀.orderId) d d')
    (hi : (d.invoices.get? iid).map Invoice.parts = some i₀.parts) : Shrinks iid d d' := by
  obtain ⟨i, hi, hp⟩ := Option.map_eq_some_iff.mp hi
  exact h iid i hi (Invoice.orderId_of_frozen (congrArg Prod.fst hp))

/-- A locked order pins its invoice over any write of this transaction. -/
theorem robust_pinned (ts : List Tbl) : Robust splitPolicy ts (Pinned iid i₀) :=
  .pinned (A := fun d => (d.invoices.get? iid).map Invoice.parts = some i₀.parts)
    fun _ _ _ hk h => (shrinks_of_keeps hk h).invoice.trans h

/-- No intent of the invoice is opened by others while its order is locked. -/
theorem robust_closed (ts : List Tbl) : Robust splitPolicy ts (Closed iid i₀) :=
  .pinned (A := fun d => (d.invoices.get? iid).map Invoice.parts = some i₀.parts ∧
      ∀ j p, ¬OpenIntent d iid j p)
    fun _ _ _ hk h => by
      have hs := shrinks_of_keeps hk h.1
      exact ⟨hs.invoice.trans h.1, fun j p hp => h.2 j p (hs.opens j p hp)⟩

/-- The invariant holds at every later statement. -/
theorem robust_sound (ts : List Tbl) : Robust splitPolicy ts Sound :=
  .lasting (A := SplitOk) fun _ _ h _ _ _ => h

/-- Being framed does not depend on what the tables hold. -/
theorem robust_framed :
    Robust splitPolicy (.topups :: .withdrawals :: paymentTables) splitPolicy.Framed :=
  Policy.robust_framed

/-- The escrow is funded with totals after a commit. -/
def Funds (v : TxView) : Prop :=
  ∀ d, splitPolicy.around.rely v.held v.last d → FundedByTotal (v.pending d)

/-- After a commit, every invoice keeps its parts and gets no open intent, or they add up and its
order is locked. -/
def Splits (v : TxView) : Prop :=
  ∀ d, splitPolicy.around.rely v.held v.last d → ∀ iid, Shrinks iid d (v.pending d) ∨
    SplitAt (v.pending d) iid ∧ ∀ i, d.invoices.get? iid = some i → .order i.orderId ∈ v.held

/-- Funding and parts are all that a commit owes. -/
theorem safe_of_splits (hf : splitPolicy.Framed v) (hfund : Funds v) (hs : Splits v) :
    splitPolicy.Safe v := by
  intro d hd
  refine ⟨⟨hd.1.wallets.evolves (hf d).1, fun iid => ?_, hfund d hd⟩, trivial, trivial,
    fun l hl => ?_⟩
  · exact (hs d hd iid).elim (fun h => h.splitAt (hd.1.split iid)) And.left
  · cases l with
    | order oid =>
      intro iid i hi ho
      exact (hs d hd iid).resolve_right fun h => hl (ho ▸ h.2 i hi)
    | _ => trivial

/-! ## Funding -/

/-- The tables that decide neither the parts of a payment nor the funding. -/
def others : List Tbl := [.wallets, .promos, .redemptions, .topups, .withdrawals]

/-- New ledger rows for totals keep the escrow funded with totals. -/
theorem fundedByTotal_append {ts : List Tbl} {d x : Db} {rows : List Transaction}
    (hev : d.Evolves ts x) (hrows : x.transactions = d.transactions ++ rows)
    (horders : ∀ oid o, d.orders.get? oid = some o → o.status ≠ .waitingPayment →
      ∃ o', x.orders.get? oid = some o' ∧ o'.status ≠ .waitingPayment)
    (hnew : ∀ t ∈ rows, ∀ iid, t.idempotencyKey = some (.escrow iid) → OnEscrow d t ∧
      ∃ i, d.invoices.get? iid = some i ∧ t.amount = i.totalAmount ∧
        ∃ o, x.orders.get? i.orderId = some o ∧ o.status ≠ .waitingPayment)
    (h : FundedByTotal d) : FundedByTotal x := by
  intro t ht iid hkey
  -- Old rows by the invariant, new rows by hypothesis.
  have hall : OnEscrow d t ∧ ∃ i, d.invoices.get? iid = some i ∧ t.amount = i.totalAmount ∧
      ∃ o, x.orders.get? i.orderId = some o ∧ o.status ≠ .waitingPayment := by
    rw [hrows, List.mem_append] at ht
    rcases ht with ht | ht
    · obtain ⟨hw, i, hi, ha, o, ho, hs⟩ := h t ht iid hkey
      exact ⟨hw, i, hi, ha, horders _ o ho hs⟩
    · exact hnew t ht iid hkey
  obtain ⟨hw, i, hi, ha, ho⟩ := hall
  obtain ⟨i', hi', hf⟩ := hev.invoices iid i hi
  rw [← Invoice.totalAmount_of_frozen hf] at ha
  rw [← Invoice.orderId_of_frozen hf] at ho
  exact ⟨(hev.wallets t.walletId).trans hw, i', hi', ha, ho⟩

/-- The transaction has appended ledger rows of a kind. -/
def Appends (A : Transaction → TxView → Prop) (v : TxView) : Prop :=
  ∃ rows, (∀ d, (v.pending d).transactions = d.transactions ++ rows) ∧ ∀ t ∈ rows, A t v

/-- A row that funds no escrow but that of an invoice, and that by an amount. -/
def FundsOnly (iid : Id) (n : ℤ) (t : Transaction) (v : TxView) : Prop :=
  ∀ j, t.idempotencyKey = some (.escrow j) → (j = iid ∧ t.amount = n) ∧ OnEscrow v.last t

/-- A row that funds no escrow. -/
def FundsNothing (t : Transaction) (_ : TxView) : Prop :=
  ∀ j, t.idempotencyKey ≠ some (.escrow j)

/-- The types of wallets are frozen columns, so a row keeps its kind. -/
theorem robust_fundsOnly {n : ℤ} {t : Transaction} (ts : List Tbl) :
    Robust splitPolicy ts (FundsOnly iid n t) :=
  .all fun _ => .all fun _ => (Robust.const _).and (robust_kind ts)

/-- Rows of a kind that is robust stay of that kind. -/
theorem robust_appends {A : Transaction → TxView → Prop} {ts : List Tbl} (ht : .transactions ∉ ts)
    (hA : ∀ t, Robust splitPolicy ts (A t)) : Robust splitPolicy ts (Appends A) :=
  .any fun rows => .and (.ofPending (B := fun d x => x.transactions = d.transactions ++ rows)
    fun _ _ _ hxy hx => by rwa [hxy.transactions_eq ht]) (.all fun t => .all fun _ => hA t)

/-- A transaction that has not written the ledger has appended nothing. -/
theorem appends_of_clean {A : Transaction → TxView → Prop} (h : LedgerClean v) : Appends A v :=
  ⟨[], fun d => by rw [h d, List.append_nil], by simp⟩

/-- A posting appends the rows of its legs. -/
theorem appends_of_booked {A : Transaction → TxView → Prop} {legs : List Leg} {v₀ v' : TxView}
    (hb : BookedAfter splitPolicy refresh c legs v v₀ v') (hc : LedgerClean v)
    (hA : ∀ leg ∈ legs, ∀ t, RowOf c leg t → A t v') : Appends A v' := by
  obtain ⟨rows, hrows, hledger⟩ := hb.ledger hc
  refine ⟨rows, hledger, fun t ht => ?_⟩
  obtain ⟨leg, hleg, hrow⟩ := exists_leg_of_mem hrows ht
  exact hA leg hleg t hrow

/-- The group of a settled payment funds the escrow of its invoice. -/
theorem appends_of_funding {u g e o : Id} {x : Option Id} {a b : ℤ} {v₀ v' : TxView}
    (hb : BookedAfter splitPolicy refresh c (fundingLegs u g e iid o x (a + b) a b) v v₀ v')
    (hc : LedgerClean v) (he : Kind e (none, .systemEscrow) v₀) :
    Appends (FundsOnly iid (a + b)) v' := by
  refine appends_of_booked hb hc fun leg hleg t ht j hk => ?_
  rw [ht.idempotencyKey] at hk
  simp only [fundingLegs, List.mem_append, List.mem_ite_nil_right, List.mem_singleton] at hleg
  rcases hleg with (⟨-, rfl⟩ | ⟨-, rfl⟩) | rfl
  · cases hk
  · cases hk
  · obtain rfl : iid = j := by simpa [fundingLeg] using hk
    refine ⟨⟨rfl, by rw [ht.amount]; simp [fundingLeg, Dec.cents]⟩, ?_⟩
    rw [OnEscrow, ht.walletId]
    exact hb.kind he

/-- Nothing that matters was written. -/
def Clean (v : TxView) : Prop :=
  ((OrdersClean v ∧ InvoicesClean v) ∧ IntentsClean v ∧ LedgerClean v) ∧ splitPolicy.Framed v ∧
    Sound v

/-- Writes to other tables are nothing that matters. -/
theorem robust_clean : Robust splitPolicy others Clean :=
  (((robust_ordersClean (by decide)).and (robust_invoicesClean (by decide))).and
    ((robust_intentsClean (by decide)).and (robust_ledgerClean (by decide)))).and
    ((robust_framed.mono (by decide)).and (robust_sound _))

/-- A transaction begins with nothing written, in a state of the invariant. -/
theorem clean_start {m : Memory} {d : Db} (h : SplitOk d) : Clean (.start m d) :=
  ⟨⟨⟨fun _ => rfl, fun _ => rfl⟩, fun _ => rfl, fun _ => rfl⟩,
    fun d => ⟨.refl _ d, fun l _ => .refl l d⟩, h⟩

/-- Without a change of orders, and without a new funding, escrow stays funded with totals. -/
theorem funds_of_nothing (ho : OrdersClean v) (hf : splitPolicy.Framed v)
    (h : Appends FundsNothing v) : Funds v := by
  intro d hd
  obtain ⟨rows, hrows⟩ := h
  refine fundedByTotal_append (hf d).1 (hrows.1 d) (fun oid o hoid hs => ⟨o, ?_, hs⟩)
    (fun t ht iid hk => absurd hk (hrows.2 t ht iid)) hd.1.funded
  rw [ho d]
  exact hoid

/-- The order went on to `IN_PROGRESS`, and no other order was changed. -/
def Advanced (oid : Id) (v : TxView) : Prop :=
  ∀ d, splitPolicy.around.rely v.held v.last d → ∀ j o, d.orders.get? j = some o →
    ∃ o', (v.pending d).orders.get? j = some o' ∧ (j = oid → o'.status = .inProgress) ∧
      (j ≠ oid → o' = o)

/-- Writes to other tables leave the order where it went. -/
theorem robust_advanced {oid : Id} : Robust splitPolicy (.invoices :: .intents :: others)
    (Advanced oid) :=
  .ofReach (B := fun d x => ∀ j o, d.orders.get? j = some o →
      ∃ o', x.orders.get? j = some o' ∧ (j = oid → o'.status = .inProgress) ∧ (j ≠ oid → o' = o))
    fun _ _ _ hxy hx => by rwa [hxy.orders_eq (by decide)]

/-- The committed row of an invoice has the columns of `l` that never change. -/
def FrozenRow (iid : Id) (l : Invoice) (v : TxView) : Prop :=
  (v.last.invoices.get? iid).map Invoice.frozen = some l.frozen

/-- Frozen columns stay over any write. -/
theorem robust_frozenRow (ts : List Tbl) : Robust splitPolicy ts (FrozenRow iid l) :=
  .lasting (A := fun d => (d.invoices.get? iid).map Invoice.frozen = some l.frozen)
    fun _ _ _ hev _ h => by
      obtain ⟨i, hi, hf⟩ := Option.map_eq_some_iff.mp h
      obtain ⟨i', hi', hf'⟩ := hev.invoices iid i hi
      rw [hi', Option.map_some, hf', hf]

/-- A settled payment keeps escrow funded with totals. -/
theorem funds_of_advanced {o : Order} (hf : splitPolicy.Framed v) (hh : HeldOrder l.orderId o v)
    (hrow : FrozenRow iid l v) (ha : Advanced l.orderId v)
    (happ : Appends (FundsOnly iid l.totalAmount) v) : Funds v := by
  intro d hd
  obtain ⟨rows, hledger, hrows⟩ := happ
  refine fundedByTotal_append (hf d).1 (hledger d) (fun oid o' hoid hs => ?_)
    (fun t ht j hk => ?_) hd.1.funded
  · -- Other orders keep their status, and the order of the invoice is funded now.
    obtain ⟨o'', ho'', heq, hne⟩ := ha d hd oid o' hoid
    by_cases hj : oid = l.orderId
    · exact ⟨o'', ho'', by rw [heq hj]; decide⟩
    · exact ⟨o'', ho'', hne hj ▸ hs⟩
  · obtain ⟨⟨rfl, hamount⟩, hw⟩ := hrows t ht j hk
    obtain ⟨i, hi, hfrozen⟩ := Option.map_eq_some_iff.mp ((robust_frozenRow []).rely v d hrow hd)
    have horder : d.orders.get? l.orderId = some o := (Policy.rely_order hd hh.1).trans hh.2
    obtain ⟨o', ho', heq, -⟩ := ha d hd _ o horder
    refine ⟨((Policy.rely_evolves hd).wallets t.walletId).trans hw, i, hi,
      by rw [hamount, Invoice.totalAmount_of_frozen hfrozen], o', ?_, ?_⟩
    · rw [Invoice.orderId_of_frozen hfrozen]
      exact ho'
    · rw [heq rfl]
      decide

end SplitProof

end Giftly
