import Giftly.Concurrency.Policy

/-!
# Rules for the repositories

The precondition of each repository function that locks or writes a row, in the form in which the
proofs about requests use it: what is known of the row when the statement is executed, and the view
after it. The assertions that most proofs share follow: which tables a transaction has not written
yet, and which rows it has locked.
-/

namespace Giftly

open Store

variable {C : Surroundings Db Row Memory} {v : View Db Row Memory} {now : Time}

/-- An insert: the key was free, the constraints held, and the patch is written. -/
theorem wp_insertRow {V : Type} {names : List Row} {get : Db → Option V} {patch : Db → Db}
    {check : Db → Option Err} {Q : Unit → View Db Row Memory → Prop}
    (h : ∀ d, C.rely v.held v.last d → get (v.pending d) = none → check (v.pending d) = none →
      Q () { v with held := names ++ v.held, pending := patch ∘ v.pending, last := d }) :
    wp C (insertRow names get patch check) Q v := by
  unfold insertRow
  rw [wp_flush]
  intro d hd _ hc
  split_ifs at hc with hs
  exact h d hd (by simpa using hs) hc

/-- An update: the row was there, its lock was granted, the constraints held, and the patch is
written. -/
theorem wp_updateRow {V : Type} {names : List Row} {get : Db → Option V}
    {patch : (V → V) → Db → Db} {f : V → V} {check : Db → V → Option Err}
    {Q : Unit → View Db Row Memory → Prop}
    (h : ∀ d x, C.rely v.held v.last d →
      (∀ l ∈ names, l ∈ v.held ∨ C.cond v.mem (v.pending d) l) → get (v.pending d) = some x →
      check (v.pending d) (f x) = none →
      Q () { v with held := names ++ v.held, pending := patch f ∘ v.pending, last := d }) :
    wp C (updateRow names get patch f check) Q v := by
  unfold updateRow
  rw [wp_flush]
  intro d hd hl hc
  split at hc
  · cases hc
  · exact h d _ hd hl ‹_› hc

/-- A locking read of the row that `find` finds, under the lock `name`. -/
theorem wp_lockFind {V : Type} {find : Db → Option V} {name : V → Row}
    {Q : Option V → View Db Row Memory → Prop}
    (hnone : ∀ d, C.rely v.held v.last d → Q none { v with last := d })
    (hsome : ∀ d x, C.rely v.held v.last d →
      (name x ∈ v.held ∨ C.cond v.mem (v.pending d) (name x)) → find (v.pending d) = some x →
      Q (some x) { v with held := name x :: v.held, last := d }) :
    wp C (.lock (fun d => (find d).map name) fun d => .ret (find d) : Tx (Option V)) Q v := by
  intro d hd
  refine ⟨fun ht => ?_, fun l ht hl => ?_⟩
  · rw [wp_ret, Option.map_eq_none_iff.mp ht]
    exact hnone d hd
  · obtain ⟨x, hx, rfl⟩ := Option.map_eq_some_iff.mp ht
    rw [wp_ret, hx]
    exact hsome d x hd hl hx

/-! ## Orders -/

/-- No transition stays where it is. -/
theorem ne_of_canTransition {s s' : OrderStatus} (h : OrderState.canTransition s s' = true) :
    s' ≠ s := by
  revert h
  cases s <;> cases s' <;> decide

/-- After the check of a transition, it is known to be legal. -/
theorem wp_assertTransition_bind {α : Type} {a b : OrderStatus} {g : Unit → Tx α}
    {Q : α → View Db Row Memory → Prop}
    (h : OrderState.canTransition a b = true → wp C (g ()) Q v) :
    wp C (OrderState.assertTransition a b >>= g) Q v := wp_require_bind h

/-- An order is read without a lock: nothing is known to stay. -/
theorem wp_getOrderForActor {id u : Id} {Q : Option Order → View Db Row Memory → Prop}
    (hnone : ∀ d, C.rely v.held v.last d → Q none { v with last := d })
    (hsome : ∀ d o, C.rely v.held v.last d → (v.pending d).orders.get? id = some o →
      Q (some o) { v with last := d }) : wp C (OrderRepository.getForActor id u) Q v := by
  unfold OrderRepository.getForActor
  rw [wp_query]
  intro d hd
  cases hf : ((v.pending d).orders.get? id).filter fun o =>
      o.customerId = u || o.courierId = some u with
  | none => exact hnone d hd
  | some o => exact hsome d o hd (Option.filter_eq_some_iff.mp hf).1

/-- A locked order is the committed row. -/
theorem wp_lockOrder {id : Id} {Q : Option Order → View Db Row Memory → Prop}
    (hnone : ∀ d, C.rely v.held v.last d → Q none { v with last := d })
    (hsome : ∀ d o, C.rely v.held v.last d →
      (.order id ∈ v.held ∨ C.cond v.mem (v.pending d) (.order id)) →
      (v.pending d).orders.get? id = some o →
      Q (some o) { v with held := .order id :: v.held, last := d }) :
    wp C (OrderRepository.lock id) Q v := wp_lockFind hnone hsome

/-- The flush of an order whose columns changed locks the committed row and assigns the changed
columns. -/
theorem wp_flushOrder {id : Id} {l a : Order} {Q : Unit → View Db Row Memory → Prop}
    (hne : a ≠ l)
    (h : ∀ d o, C.rely v.held v.last d →
      (.order id ∈ v.held ∨ C.cond v.mem (v.pending d) (.order id)) →
      (v.pending d).orders.get? id = some o →
      Q () { v with
        held := .order id :: v.held, pending := Db.updateOrder id (l.assign a) ∘ v.pending
        last := d }) :
    wp C (OrderRepository.flush now id l a) Q v := by
  unfold OrderRepository.flush
  rw [if_neg hne]
  exact wp_updateRow fun d o hd hl ho _ => h d o hd (hl _ List.mem_cons_self) ho

/-! ## Invoices -/

/-- An invoice is read without a lock: nothing is known to stay. -/
theorem wp_getInvoiceForActor {id u : Id} {Q : Option Invoice → View Db Row Memory → Prop}
    (hnone : ∀ d, C.rely v.held v.last d → Q none { v with last := d })
    (hsome : ∀ d i, C.rely v.held v.last d → (v.pending d).invoices.get? id = some i →
      Q (some i) { v with last := d }) : wp C (InvoiceRepository.getForActor id u) Q v := by
  unfold InvoiceRepository.getForActor
  rw [wp_query]
  intro d hd
  cases hf : ((v.pending d).invoices.get? id).filter fun i =>
      ((v.pending d).orders.get? i.orderId).any fun o =>
        o.customerId = u || o.courierId = some u with
  | none => exact hnone d hd
  | some i => exact hsome d i hd (Option.filter_eq_some_iff.mp hf).1

/-- A locked invoice is the committed row. -/
theorem wp_lockInvoice {id : Id} {Q : Option Invoice → View Db Row Memory → Prop}
    (hnone : ∀ d, C.rely v.held v.last d → Q none { v with last := d })
    (hsome : ∀ d i, C.rely v.held v.last d → (v.pending d).invoices.get? id = some i →
      Q (some i) { v with held := .invoice id :: v.held, last := d }) :
    wp C (InvoiceRepository.lock id) Q v :=
  wp_lockFind hnone fun d i hd _ => hsome d i hd

/-- The courier's lock of an invoice returns the committed row or nothing. -/
theorem wp_lockForCourier {id k : Id} {Q : Option Invoice → View Db Row Memory → Prop}
    (hnone : ∀ d, C.rely v.held v.last d → Q none { v with last := d })
    (hsome : ∀ d i, C.rely v.held v.last d → (v.pending d).invoices.get? id = some i →
      Q (some i) { v with held := .invoice id :: v.held, last := d }) :
    wp C (InvoiceRepository.lockForCourier id k) Q v :=
  wp_lockFind hnone fun d i hd _ hi => hsome d i hd (Option.filter_eq_some_iff.mp hi).1

/-- The flush of an invoice writes nothing, or assigns the changed columns of the committed row. -/
theorem wp_flushInvoice {id : Id} {l a : Invoice} {Q : Unit → View Db Row Memory → Prop}
    (heq : a = l → Q () v)
    (h : ∀ d i, C.rely v.held v.last d → (v.pending d).invoices.get? id = some i →
      Q () { v with
        held := .invoice id :: v.held, pending := Db.updateInvoice id (l.assign a) ∘ v.pending
        last := d }) :
    wp C (InvoiceRepository.flush id l a) Q v := by
  unfold InvoiceRepository.flush
  split_ifs with hs
  · exact heq hs
  · exact wp_updateRow fun d i hd _ hi _ => h d i hd hi

/-! ## Payment intents -/

/-- The lock of the intent of a payment link returns the committed row. -/
theorem wp_lockByLink {id : Id} {Q : Option (Id × PaymentIntent) → View Db Row Memory → Prop}
    (hnone : ∀ d, C.rely v.held v.last d → Q none { v with last := d })
    (hsome : ∀ d j p, C.rely v.held v.last d → (v.pending d).intents.get? j = some p →
      p.streampayPaymentLinkId = some id →
      Q (some (j, p)) { v with held := .intent j :: v.held, last := d }) :
    wp C (PaymentRepository.lockIntentByPaymentLink id) Q v := by
  refine wp_lockFind hnone fun d x hd _ hx => ?_
  obtain ⟨hrow, hlink⟩ := Table.find?_eq_some hx
  exact hsome d x.1 x.2 hd hrow (by simpa using hlink)

/-- The flush of an intent writes nothing, or assigns the changed columns of the committed row. -/
theorem wp_flushIntent {names : List Row} {id : Id} {l a : PaymentIntent}
    {Q : Unit → View Db Row Memory → Prop} (heq : a = l → Q () v)
    (h : ∀ d p, C.rely v.held v.last d → (v.pending d).intents.get? id = some p →
      Q () { v with
        held := (.intent id :: names) ++ v.held
        pending := Db.updateIntent id (l.assign a) ∘ v.pending, last := d }) :
    wp C (PaymentRepository.flush names id l a) Q v := by
  unfold PaymentRepository.flush
  split_ifs with hs
  · exact heq hs
  · exact wp_updateRow fun d p hd _ hp _ => h d p hd hp

/-! ## Shared assertions -/

/-- The transaction has written no order. -/
def OrdersClean (v : TxView) : Prop := ∀ d, (v.pending d).orders = d.orders

/-- The transaction has written no invoice. -/
def InvoicesClean (v : TxView) : Prop := ∀ d, (v.pending d).invoices = d.invoices

/-- The transaction has written no payment intent. -/
def IntentsClean (v : TxView) : Prop := ∀ d, (v.pending d).intents = d.intents

/-- The transaction has written no wallet. -/
def WalletsClean (v : TxView) : Prop := ∀ d, (v.pending d).wallets = d.wallets

/-- The transaction has posted nothing. -/
def LedgerClean (v : TxView) : Prop := ∀ d, (v.pending d).transactions = d.transactions

/-- The transaction holds the lock of an order, whose committed row is `o`. -/
def HeldOrder (id : Id) (o : Order) (v : TxView) : Prop :=
  .order id ∈ v.held ∧ v.last.orders.get? id = some o

/-- The transaction holds the lock of an invoice, whose committed row is `i`. -/
def HeldInvoice (id : Id) (i : Invoice) (v : TxView) : Prop :=
  .invoice id ∈ v.held ∧ v.last.invoices.get? id = some i

/-- The transaction holds the lock of a payment intent, whose committed row is `p`. -/
def HeldIntent (id : Id) (p : PaymentIntent) (v : TxView) : Prop :=
  .intent id ∈ v.held ∧ v.last.intents.get? id = some p

section Shared

variable {P : Policy} {ts : List Tbl} {id : Id}

/-- Writes to other tables leave the orders unwritten. -/
theorem robust_ordersClean (ht : .orders ∉ ts) : Robust P ts OrdersClean :=
  .ofPending (B := fun d x => x.orders = d.orders) fun _ _ _ hxy hx => (hxy.orders_eq ht).trans hx

/-- Writes to other tables leave the invoices unwritten. -/
theorem robust_invoicesClean (ht : .invoices ∉ ts) : Robust P ts InvoicesClean :=
  .ofPending (B := fun d x => x.invoices = d.invoices)
    fun _ _ _ hxy hx => (hxy.invoices_eq ht).trans hx

/-- Writes to other tables leave the intents unwritten. -/
theorem robust_intentsClean (ht : .intents ∉ ts) : Robust P ts IntentsClean :=
  .ofPending (B := fun d x => x.intents = d.intents)
    fun _ _ _ hxy hx => (hxy.intents_eq ht).trans hx

/-- Writes to other tables leave the wallets unwritten. -/
theorem robust_walletsClean (ht : .wallets ∉ ts) : Robust P ts WalletsClean :=
  .ofPending (B := fun d x => x.wallets = d.wallets)
    fun _ _ _ hxy hx => (hxy.wallets_eq ht).trans hx

/-- Writes to other tables leave the ledger unwritten. -/
theorem robust_ledgerClean (ht : .transactions ∉ ts) : Robust P ts LedgerClean :=
  .ofPending (B := fun d x => x.transactions = d.transactions)
    fun _ _ _ hxy hx => (hxy.transactions_eq ht).trans hx

/-- What was read of a locked order stays true. -/
theorem robust_heldOrder (o : Order) : Robust P ts (HeldOrder id o) :=
  .pinned (A := fun d => d.orders.get? id = some o) fun _ _ hsame _ h => Eq.trans hsame h

/-- What was read of a locked invoice stays true. -/
theorem robust_heldInvoice (i : Invoice) : Robust P ts (HeldInvoice id i) :=
  .pinned (A := fun d => d.invoices.get? id = some i) fun _ _ hsame _ h => Eq.trans hsame h

/-- What was read of a locked intent stays true. -/
theorem robust_heldIntent (p : PaymentIntent) : Robust P ts (HeldIntent id p) :=
  .pinned (A := fun d => d.intents.get? id = some p) fun _ _ hsame _ h => Eq.trans hsame h

/-- The lock of an order by a transaction that has written no order. -/
theorem wp_lockOrder_clean {J : TxView → Prop} {Q : Option Order → TxView → Prop}
    (hJ : Robust P ts J) (hv : J v) (hc : OrdersClean v) (hnone : ∀ v', J v' → Q none v')
    (hsome : ∀ o v', J v' → HeldOrder id o v' → v'.pending = v.pending → Q (some o) v') :
    wp P.around (OrderRepository.lock id) Q v := by
  refine wp_lockOrder (fun d hd => hnone _ (hJ.rely v d hv hd)) fun d o hd _ ho => ?_
  refine hsome o _ (hJ.held _ [_] (hJ.rely v d hv hd)) ⟨List.mem_cons_self, ?_⟩ rfl
  rw [← hc d]
  exact ho

/-- The lock of an order by a participant. -/
theorem wp_lockForActor {J : TxView → Prop} {u : Id} {Q : Order → TxView → Prop}
    (hJ : Robust P ts J) (hv : J v) (hc : OrdersClean v)
    (hQ : ∀ o v', J v' → HeldOrder id o v' → v'.pending = v.pending → Q o v') :
    wp P.around (FulfillmentService.lockForActor id u) Q v := by
  unfold FulfillmentService.lockForActor
  refine hJ.query_bind hv fun d v' hv' hp _ => wp_require_bind fun _ => ?_
  have hc' : OrdersClean v' := fun d => by rw [hp]; exact hc d
  rw [wp_bind]
  exact wp_lockOrder_clean hJ hv' hc' (fun _ _ => trivial) fun o v'' hv'' hh hp' =>
    hQ o v'' hv'' hh (hp'.trans hp)

end Shared

end Giftly
