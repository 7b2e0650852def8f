import Giftly.Concurrency.Rules
import Giftly.Seed

/-!
# Order statuses under concurrency

Every service asserts the transition of an order against the status that it read. When the order
was locked before the read, that is the committed status and the commit is a legal transition.
`cancel_order` and `create_invoice` read the order without a lock: their commit is legal when the
status they read is still the committed one at the moment their `UPDATE` takes the lock, and
`statusPolicy` asks for that. The orders of paid invoices then never leave the funded statuses.
-/

namespace Giftly

open Store OrderState

/-- A status changes to itself or by a legal transition. -/
def OrderStatus.Moves (s s' : OrderStatus) : Prop := s' = s ∨ canTransition s s' = true

/-- No legal transition leaves the funded statuses. -/
theorem OrderStatus.Moves.funded {s s' : OrderStatus} (h : s.Moves s') (hs : s.funded = true) :
    s'.funded = true := by
  rcases h with rfl | h
  · exact hs
  · revert h hs
    cases s <;> cases s' <;> decide

/-- The order of every paid invoice is funded. -/
def PaidFunded (d : Db) : Prop :=
  ∀ id i, d.invoices.get? id = some i → i.status = .paid →
    ∃ o, d.orders.get? i.orderId = some o ∧ o.status.funded = true

/-- No order disappears, and every status changes by a legal transition. -/
def LegalMoves (d d' : Db) : Prop :=
  ∀ id o, d.orders.get? id = some o → ∃ o', d'.orders.get? id = some o' ∧ o.status.Moves o'.status

/-- Nothing changes, which is legal. -/
theorem LegalMoves.refl (d : Db) : LegalMoves d d := fun _ o ho => ⟨o, ho, .inl rfl⟩

/-- No lock on an order is granted to a session that read another status of it. -/
def statusCurrent (m : Memory) (d : Db) : Row → Prop
  | .order id => ∀ o ∈ m.orders id, ∀ o' ∈ d.orders.get? id, o'.status = o.status
  | _ => True

instance (m : Memory) (d : Db) : ∀ l : Row, Decidable (statusCurrent m d l)
  | .order id => inferInstanceAs (Decidable
      (∀ o ∈ m.orders id, ∀ o' ∈ d.orders.get? id, o'.status = o.status))
  | .wallet _ | .conversation _ | .invoice _ | .item _ | .intent _ | .topup _ | .dispute _
  | .promo _ | .redemption _ | .withdrawal _ | .idempotency _ | .activeInvoice _
  | .paymentLink _ | .disputeOf _ | .conversationOf _ | .withdrawalKey _ _ => .isTrue trivial

/-- The policy under which order statuses change by legal transitions only. -/
def statusPolicy : Policy where
  tables := [.wallets, .transactions, .orders, .conversations, .invoices, .items, .intents, .topups,
    .disputes, .promos, .redemptions, .withdrawals]
  inv := PaidFunded
  cond := statusCurrent
  guar := LegalMoves
  guar_refl := LegalMoves.refl

/-- The policy reads orders and invoices only. -/
theorem statusPolicy_reads : statusPolicy.Reads [.orders, .invoices] where
  inv d d' h hinv := by
    have ho : d'.orders = d.orders := h .orders (by simp)
    have hi : d'.invoices = d.invoices := h .invoices (by simp)
    change PaidFunded d at hinv
    change PaidFunded d'
    unfold PaidFunded at *
    rw [ho, hi]
    exact hinv
  grow _ _ _ _ _ := trivial
  guar d₀ d d' h hguar := by
    have ho : d'.orders = d.orders := h .orders (by simp)
    change LegalMoves d₀ d at hguar
    change LegalMoves d₀ d'
    unfold LegalMoves at *
    rw [ho]
    exact hguar
  keeps _ _ _ _ _ _ := trivial

namespace StatusProof

/-- The tables that the policy does not read. -/
def others : List Tbl :=
  [.wallets, .transactions, .conversations, .items, .intents, .topups, .disputes, .promos,
    .redemptions, .withdrawals]

/-- A transaction that may commit may still do so after writes to other tables. -/
theorem robust_safe : Robust statusPolicy others statusPolicy.Safe :=
  Policy.robust_safe statusPolicy_reads (by decide)

/-! ## Assertions -/

/-- The transaction has made no invoice a paid one. -/
def NoNewPaid (v : TxView) : Prop :=
  ∀ d id i', (v.pending d).invoices.get? id = some i' → i'.status = .paid →
    ∃ i, d.invoices.get? id = some i ∧ i.status = .paid ∧ i.orderId = i'.orderId

/-- The transaction changes order statuses by legal transitions only. -/
def Legal (v : TxView) : Prop :=
  ∀ d, statusPolicy.around.rely v.held v.last d → LegalMoves d (v.pending d)

/-- The transaction has set the status of an order. -/
def Moved (id : Id) (s : OrderStatus) (v : TxView) : Prop :=
  ∀ d, statusPolicy.around.rely v.held v.last d →
    ∃ o, (v.pending d).orders.get? id = some o ∧ o.status = s

variable {id iid : Id} {o : Order} {v : TxView} {α : Type}

/-- Writes to other tables, orders among them, make no invoice a paid one. -/
theorem robust_noNewPaid : Robust statusPolicy (.orders :: others) NoNewPaid :=
  .ofPending (B := fun d x => ∀ id i', x.invoices.get? id = some i' → i'.status = .paid →
      ∃ i, d.invoices.get? id = some i ∧ i.status = .paid ∧ i.orderId = i'.orderId)
    fun _ x y hxy hx => by
      have h : y.invoices = x.invoices := hxy.invoices_eq (by decide)
      rw [h]
      exact hx

/-- Writes to other tables, invoices among them, move no order. -/
theorem robust_legal : Robust statusPolicy (.invoices :: others) Legal :=
  .ofReach (B := LegalMoves) fun _ x y hxy hx => by
    have h : y.orders = x.orders := hxy.orders_eq (by decide)
    unfold LegalMoves at *
    rw [h]
    exact hx

/-- A transaction that has not written the invoices has made none a paid one. -/
theorem noNewPaid_of_clean (h : InvoicesClean v) : NoNewPaid v := by
  intro d id i' hi' hp
  rw [h d] at hi'
  exact ⟨i', hi', hp, rfl⟩

/-- A transaction that has not written the orders has moved none. -/
theorem legal_of_clean (h : OrdersClean v) : Legal v := by
  intro d _ id o ho
  exact ⟨o, by rw [h d]; exact ho, .inl rfl⟩

/-- Legal changes of orders keep the orders of paid invoices funded. -/
theorem safe_of_legal (hl : Legal v) (hn : NoNewPaid v) : statusPolicy.Safe v := by
  intro d hd
  refine ⟨?_, trivial, hl d hd, fun _ _ => trivial⟩
  intro id i' hi' hp
  obtain ⟨i, hi, hpaid, horder⟩ := hn d id i' hi' hp
  obtain ⟨o, ho, hf⟩ := hd.1 id i hi hpaid
  obtain ⟨o', ho', hm⟩ := hl d hd i.orderId o ho
  exact ⟨o', horder ▸ ho', hm.funded hf⟩

/-! ## Steps -/

/-- The flush of an order whose status moves on from the one in its row. -/
theorem wp_flushOrder_legal {now : Time} {l a : Order} {Q : Unit → TxView → Prop}
    (hc : OrdersClean v) (ht : canTransition l.status a.status = true)
    (hrow : ∀ d o, statusPolicy.around.rely v.held v.last d →
      (.order id ∈ v.held ∨ statusCurrent v.mem (v.pending d) (.order id)) →
      (v.pending d).orders.get? id = some o → o.status = l.status)
    (hQ : ∀ v', v'.pending = Db.updateOrder id (l.assign a) ∘ v.pending →
      statusPolicy.around.rely v.held v.last v'.last → v'.held = .order id :: v.held →
      Legal v' → Moved id a.status v' → Q () v') :
    wp statusPolicy.around (OrderRepository.flush now id l a) Q v := by
  have hstatus : a.status ≠ l.status := ne_of_canTransition ht
  refine wp_flushOrder (fun h => hstatus (h ▸ rfl)) fun d o hd hcond ho => ?_
  have hold : o.status = l.status := hrow d o hd hcond ho
  rw [hc d] at ho
  -- Whatever is committed meanwhile, the lock keeps the row that the flush was checked on.
  have hnew : ∀ d', statusPolicy.around.rely (.order id :: v.held) d d' →
      d'.orders.get? id = some o ∧
      (Db.updateOrder id (l.assign a) (v.pending d')).orders.get? id = some (l.assign a o) := by
    intro d' hd'
    have ho' : d'.orders.get? id = some o :=
      (Policy.rely_order hd' List.mem_cons_self).trans ho
    refine ⟨ho', ?_⟩
    simp only [Db.updateOrder, Table.get?_update_self, hc d', ho', Option.map_some]
  have hassign : (l.assign a o).status = a.status := by
    simp only [Order.assign, Giftly.assign, if_neg hstatus]
  refine hQ _ rfl hd rfl ?_ ?_
  · intro d' hd' j x hx
    by_cases hj : j = id
    · subst hj
      obtain ⟨ho', hx'⟩ := hnew d' hd'
      obtain rfl : o = x := Option.some.inj (ho'.symm.trans hx)
      exact ⟨_, hx', .inr (by rw [hold, hassign]; exact ht)⟩
    · refine ⟨x, ?_, .inl rfl⟩
      simp only [Function.comp, Db.updateOrder, Table.get?_update_ne _ _ hj, hc d', hx]
  · intro d' hd'
    exact ⟨_, (hnew d' hd').2, hassign⟩

/-- The flush of an order that is locked. -/
theorem wp_flushOrder_held {now : Time} {a : Order} {Q : Unit → TxView → Prop}
    (hh : HeldOrder id o v) (hc : OrdersClean v) (ht : canTransition o.status a.status = true)
    (hQ : ∀ v', v'.pending = Db.updateOrder id (o.assign a) ∘ v.pending →
      Legal v' → Moved id a.status v' → Q () v') :
    wp statusPolicy.around (OrderRepository.flush now id o a) Q v := by
  refine wp_flushOrder_legal hc ht (fun d x hd _ hx => ?_) fun v' hp _ _ hl hm => hQ v' hp hl hm
  rw [hc d, Policy.rely_order hd hh.1, hh.2] at hx
  rw [Option.some.inj hx]

/-- An update of an order makes no invoice a paid one. -/
theorem noNewPaid_of_pending {f : Order → Order} {v' : TxView} (h : NoNewPaid v)
    (hp : v'.pending = Db.updateOrder id f ∘ v.pending) : NoNewPaid v' := by
  intro d
  rw [hp]
  exact h d

/-- An update of an order leaves the invoices unwritten. -/
theorem invoicesClean_of_pending {f : Order → Order} {v' : TxView} (h : InvoicesClean v)
    (hp : v'.pending = Db.updateOrder id f ∘ v.pending) : InvoicesClean v' := by
  intro d
  rw [hp]
  exact h d

/-- A flush of an invoice that does not make it a paid one. -/
theorem noNewPaid_flushInvoice {l a : Invoice} (h : NoNewPaid v) {ls : List Row} {d : Db}
    (ha : a.status ≠ .paid ∨ a.status = l.status) :
    NoNewPaid { v with
      held := ls, pending := Db.updateInvoice iid (l.assign a) ∘ v.pending, last := d } := by
  intro d' j i' hi' hp
  simp only [Function.comp, Db.updateInvoice, Table.get?_update] at hi'
  split_ifs at hi' with hj
  · obtain ⟨i, hi, rfl⟩ := Option.map_eq_some_iff.mp hi'
    have hstatus : i.status = .paid := by
      by_contra hne
      simp only [Invoice.assign, Giftly.assign] at hp
      split_ifs at hp
      · exact hne hp
      · exact ha.elim (fun h => h hp) fun h => by contradiction
    obtain ⟨i₀, h₀, hp₀, ho₀⟩ := h d' j i hi hstatus
    exact ⟨i₀, h₀, hp₀, ho₀⟩
  · exact h d' j i' hi' hp

/-- The flush of an invoice moves no order. -/
theorem legal_flushInvoice (iid : Id) (h : Legal v) {f : Invoice → Invoice}
    (hf : ∀ i, (f i).frozen = i.frozen) :
    Legal { v with held := .invoice iid :: v.held, pending := Db.updateInvoice iid f ∘ v.pending } :=
  robust_legal.patch v [.invoice iid] _ (.mono (.updateInvoice List.mem_cons_self hf) (by simp)) h

/-- The flush of an invoice that is not made a paid one keeps what does not depend on invoices. -/
theorem wp_flushInvoice_unpaid {l a : Invoice} {J : TxView → Prop} {Q : Unit → TxView → Prop}
    (hJ : Robust statusPolicy (.invoices :: others) J) (hv : J v) (hn : NoNewPaid v)
    (ha : a.status ≠ .paid ∨ a.status = l.status)
    (hQ : ∀ v', J v' → NoNewPaid v' → Q () v') :
    wp statusPolicy.around (InvoiceRepository.flush iid l a) Q v := by
  refine wp_flushInvoice (fun _ => hQ v hv hn) fun d i hd _ => hQ _ ?_ ?_
  · exact hJ.patch _ [.invoice iid] _ (.mono (.updateInvoice (by simp) (l.assign_frozen a))
      (by simp)) (hJ.rely v d hv hd)
  · exact noNewPaid_flushInvoice hn ha

/-! ## Functions -/

/-- The transaction has written no order and no invoice. -/
def Clean (v : TxView) : Prop := OrdersClean v ∧ InvoicesClean v

/-- An invoice is there, and it belongs to an order. -/
def Of (iid id : Id) (v : TxView) : Prop :=
  ∃ i, v.last.invoices.get? iid = some i ∧ i.orderId = id

/-- A transaction begins with nothing written. -/
theorem clean_start {m : Memory} {d : Db} : Clean (.start m d) := ⟨fun _ => rfl, fun _ => rfl⟩

/-- A transaction that has written neither orders nor invoices may commit. -/
theorem safe_of_clean (h : Clean v) : statusPolicy.Safe v :=
  safe_of_legal (legal_of_clean h.1) (noNewPaid_of_clean h.2)

/-- Writes to other tables leave orders and invoices unwritten. -/
theorem robust_clean : Robust statusPolicy others Clean :=
  (robust_ordersClean (by decide)).and (robust_invoicesClean (by decide))

/-- The order of an invoice is a frozen column, so it stays known after any write. -/
theorem robust_of (ts : List Tbl) : Robust statusPolicy ts (Of iid id) :=
  .lasting (A := fun d => ∃ i, d.invoices.get? iid = some i ∧ i.orderId = id)
    fun d d' _ hev _ ⟨i, hi, ho⟩ => by
      obtain ⟨i', hi', hf⟩ := hev.invoices iid i hi
      refine ⟨i', hi', ?_⟩
      have := congrArg Invoice.orderId hf
      exact this.trans ho

/-- A locked order stays as it was read over writes to other tables. -/
theorem robust_heldClean : Robust statusPolicy others fun v => HeldOrder id o v ∧ Clean v :=
  (robust_heldOrder o).and robust_clean

/-- The same with the invoice that refers to the order. -/
theorem robust_heldOf : Robust statusPolicy others fun v => (HeldOrder id o v ∧ Clean v) ∧ Of iid id v :=
  robust_heldClean.and (robust_of others)

variable {now : Time} {refresh : Bool} {s : Settings}

/-- A new order has no status before, so every status of it is legal. -/
theorem wp_createOrder {confirm : Text → Except Err Unit} {u : Id}
    {x : OrderService.NewOrderInput} (hc : Clean v) :
    wp statusPolicy.around (OrderService.createOrder now confirm id u x)
      (fun _ v => statusPolicy.Safe v) v := by
  refine wp_require_bind fun _ => ?_
  refine wp_require_bind fun _ => ?_
  refine wp_require_bind fun _ => ?_
  refine robust_clean.query_bind hc fun _ v hc _ _ => ?_
  refine wp_require_bind fun _ => ?_
  refine wp_ofExcept_bind fun _ _ => ?_
  unfold OrderRepository.create
  rw [wp_bind]
  refine wp_insertRow fun d _ _ _ => ?_
  refine safe_of_legal ?_ (noNewPaid_of_clean fun d' => hc.2 d')
  intro d' _ j o ho
  rw [← hc.1 d'] at ho
  refine ⟨o, ?_, .inl rfl⟩
  simp only [Function.comp_apply, Db.insertOrder, Table.get?_insert, ho, Option.some_or]

/-- An assignment of a locked order moves it from `NEW`, which the lock keeps current. -/
theorem wp_assignLocked {conv k : Id} (hc : Clean v) :
    wp statusPolicy.around (OrderService.assignLocked now conv id k)
      (fun _ v => statusPolicy.Safe v) v := by
  unfold OrderService.assignLocked
  rw [wp_bind]
  refine wp_lockOrder_clean robust_clean hc hc.1 (fun _ _ => trivial) fun o v' hc' hh _ => ?_
  refine wp_require_bind fun _ => wp_assertTransition_bind fun ht => ?_
  rw [wp_bind]
  refine wp_flushOrder_held hh hc'.1 ht fun v' hp hl _ => ?_
  refine robust_safe.wp_bind writesTo_createConversation (by decide)
    (safe_of_legal hl (noNewPaid_of_pending (noNewPaid_of_clean hc'.2) hp)) fun _ v hv => hv

/-- `accept_order` commits legal moves only. -/
theorem wp_acceptOrder {b : Bool} {conv k : Id} (hc : Clean v) :
    wp statusPolicy.around (OrderService.acceptOrder now b conv id k)
      (fun _ v => statusPolicy.Safe v) v := by
  refine robust_clean.wp_bind writesTo_requireActiveVerifiedCourier (List.Subset.refl _) hc
    fun _ v hc => ?_
  refine robust_clean.query_bind hc fun _ v hc _ _ => ?_
  refine wp_require_bind fun _ => ?_
  refine wp_require_bind fun _ => ?_
  exact wp_assignLocked hc

/-- `cancel_order` commits legal moves only. -/
theorem wp_cancelOrder {u : Id} {r : Option Text} {m : Memory} {d : Db} :
    wp statusPolicy.around (OrderService.cancelOrder now id u r)
      (fun _ v => statusPolicy.Safe v) (.start m d) := by
  unfold OrderService.cancelOrder
  rw [wp_bind]
  refine wp_getOrderForActor (fun _ _ => trivial) fun d' o _ _ => ?_
  refine wp_assertTransition_bind fun ht => ?_
  rw [wp_bind]
  refine wp_flushOrder_legal (fun _ => rfl) ht (fun d o' _ hl ho' => ?_) fun v' hp _ _ hl _ => ?_
  · -- The order was not locked, so the lock of the `UPDATE` is a new one.
    refine hl.elim (fun h => absurd h List.not_mem_nil) fun hcond => ?_
    exact hcond o (by simp [Memory.setOrder]) o' ho'
  · exact safe_of_legal hl (noNewPaid_of_pending (noNewPaid_of_clean fun _ => rfl) hp)

/-- The session holds an instance of an order that it read without a lock. Once the order is locked,
the instance has the status of the row. -/
def Seen (id : Id) (o : Order) (v : TxView) : Prop :=
  v.mem.orders id = some o ∧ OrdersClean v ∧ NoNewPaid v ∧
    (.order id ∈ v.held → ∀ o', v.last.orders.get? id = some o' → o'.status = o.status)

/-- What `create_invoice` has seen of the order stays true while other requests run. -/
theorem stable_seen : Stable statusPolicy.around (Seen id o) where
  rely v d hv hd :=
    ⟨hv.1, hv.2.1, hv.2.2.1, fun hl o' ho' =>
      hv.2.2.2 hl o' (by rwa [Policy.rely_order hd hl] at ho')⟩
  held v ls hv hcond := by
    refine ⟨hv.1, hv.2.1, hv.2.2.1, fun hl o' ho' => ?_⟩
    rcases List.mem_append.mp hl with hl | hl
    · rcases hcond _ hl with hl | hc
      · exact hv.2.2.2 hl o' ho'
      · exact hc o hv.1 o' (by rw [hv.2.1]; exact ho')
    · exact hv.2.2.2 hl o' ho'

/-- A function that leaves the session, the orders and the invoices alone. -/
theorem keeps_seen {p : Tx α} {ts : List Tbl} (hp : WritesTo ts p fun _ => False)
    (hs : ts ⊆ others) : Keeps statusPolicy.around (Seen id o) p := by
  refine .of_writes stable_seen (fun v ls f hf hv hcond => ?_) (fun _ _ h => h.elim) hp
  obtain ⟨hm, ho, hn, hl⟩ := stable_seen.held v ls hv hcond
  have hf' := hf.mono hs
  exact ⟨hm, (robust_ordersClean (P := statusPolicy) (by decide)).patch v ls f hf' ho,
    (robust_noNewPaid.mono (by decide)).patch v ls f hf' hn, hl⟩

/-- The rows of a new invoice leave what was seen of the order. -/
theorem wp_writeInvoice {ids : InvoiceService.NewIds} {k u : Id} {promo : Option (Id × Promo)}
    {r : PricingResult} {Q : Unit → TxView → Prop} (hv : Seen id o v)
    (hQ : ∀ v', Seen id o v' → Q () v') :
    wp statusPolicy.around (InvoiceService.writeInvoice s now ids id k u promo r) Q v := by
  unfold InvoiceService.writeInvoice
  rw [wp_bind]
  refine wp_flush_intro fun d hd hcond _ => ?_
  -- The draft is not paid, so what was seen of paid invoices stays.
  have hdraft : ∀ v', Seen id o v' → Seen id o { v' with
      pending := Db.insertInvoice ids.invoiceId (InvoiceRepository.draft id k r (promo.map (·.1))
        (promo.map (·.2.code))) ∘ v'.pending } := by
    intro v' hv'
    refine ⟨hv'.1, fun d => hv'.2.1 d, fun d' j i' hi' hp => ?_, hv'.2.2.2⟩
    simp only [Function.comp_apply, Db.insertInvoice, Table.get?_insert,
      Option.or_eq_some_iff] at hi'
    rcases hi' with hi' | ⟨-, hi'⟩
    · exact hv'.2.2.1 d' j i' hi' hp
    · split_ifs at hi'
      obtain rfl := Option.some.inj hi'
      cases hp
  refine (keeps_seen writesTo_addItems (by decide)).wp_bind
    (hdraft _ (stable_seen.held _ _ (stable_seen.rely v d hv hd) hcond)) fun _ v hv => ?_
  refine (keeps_seen writesTo_reservePromo (by decide)).wp_bind hv fun _ v hv => ?_
  refine wp_flushInvoice (fun _ => hQ _ hv) fun d i hd _ => hQ _ ?_
  obtain ⟨hm, ho, hn, hl⟩ := stable_seen.rely v d hv hd
  refine ⟨hm, fun d => ho d, noNewPaid_flushInvoice hn (.inl (by simp)), fun hmem => ?_⟩
  exact hl (by simpa using hmem)

/-- `create_invoice` commits legal moves only. -/
theorem wp_createInvoice {ids : InvoiceService.NewIds} {k : Id}
    {x : InvoiceService.NewInvoiceInput} {m : Memory} {d : Db} :
    wp statusPolicy.around (InvoiceService.createInvoice s now ids id k x)
      (fun _ v => statusPolicy.Safe v) (.start m d) := by
  unfold InvoiceService.createInvoice
  rw [wp_bind]
  refine wp_getOrderForActor (fun _ _ => trivial) fun d' o _ _ => ?_
  have hseen : Seen id o (.start (m.setOrder id (some o)) d') :=
    ⟨by simp [Memory.setOrder], fun _ => rfl, noNewPaid_of_clean fun _ => rfl,
      fun h => absurd h List.not_mem_nil⟩
  refine wp_assertTransition_bind fun ht => ?_
  refine (keeps_seen (Prog.writes_query _) (List.Subset.refl _)).wp_bind hseen fun _ v hv => ?_
  refine wp_require_bind fun _ => wp_ofExcept_bind fun _ _ => ?_
  refine (keeps_seen writesTo_promoFor (List.Subset.refl _)).wp_bind hv fun _ v hv => ?_
  refine wp_ofExcept_bind fun r _ => wp_require_bind fun _ => ?_
  rw [wp_bind]
  refine wp_writeInvoice hv fun v' hv' => ?_
  refine wp_flushOrder_legal hv'.2.1 ht (fun d o' hd hl ho' => ?_) fun v'' hp _ _ hl _ => ?_
  · -- Either the order's row was locked before, or the condition speaks of the status read.
    rcases hl with hl | hcond
    · rw [hv'.2.1 d, Policy.rely_order hd hl] at ho'
      exact hv'.2.2.2 hl o' ho'
    · exact hcond o hv'.1 o' ho'
  · exact safe_of_legal hl (noNewPaid_of_pending hv'.2.2.1 hp)

/-- `cancel_invoice` commits legal moves only. -/
theorem wp_cancelInvoice {k : Id} (hc : Clean v) :
    wp statusPolicy.around (InvoiceService.cancelInvoice now iid k)
      (fun _ v => statusPolicy.Safe v) v := by
  unfold InvoiceService.cancelInvoice
  rw [wp_bind]
  refine wp_lockForCourier (fun _ _ => trivial) fun d i hd _ => ?_
  have hc' := robust_clean.held _ [.invoice iid] (robust_clean.rely v d hc hd)
  refine wp_require_bind fun _ => ?_
  rw [wp_bind]
  refine wp_lockOrder_clean robust_clean hc' hc'.1 (fun _ _ => trivial) fun o v' hc' hh _ => ?_
  refine robust_heldClean.wp_bind writesTo_release (by decide) ⟨hh, hc'⟩ fun _ v hv => ?_
  refine wp_assertTransition_bind fun ht => ?_
  rw [wp_bind]
  refine wp_flushOrder_held hv.1 hv.2.1 ht fun v' hp hl _ => ?_
  refine wp_flushInvoice_unpaid robust_legal hl
    (noNewPaid_of_pending (noNewPaid_of_clean hv.2.2) hp) (.inl (by simp)) ?_
  exact fun _ hl hn => safe_of_legal hl hn

/-- An invoice becomes a paid one together with the move of its order. -/
theorem wp_settleInvoiceRecord {i : Invoice} {m : PaymentMethod} {a b : ℤ}
    (hv : (HeldOrder id o v ∧ Clean v) ∧ Of iid id v) :
    wp statusPolicy.around (PaymentService.settleInvoiceRecord now iid i id o m a b)
      (fun _ v => statusPolicy.Safe v) v := by
  unfold PaymentService.settleInvoiceRecord
  refine wp_ofExcept_bind fun x _ => wp_ofExcept_bind fun y _ =>
    wp_assertTransition_bind fun ht => ?_
  obtain ⟨⟨hh, hc⟩, hof⟩ := hv
  rw [wp_bind]
  -- The order moves first: its row is the one that was loaded under the lock.
  refine wp_flushOrder_legal hc.1 ht (fun d o' hd _ ho' => ?_) fun v' hp hd' hheld hl hm => ?_
  · rw [hc.1 d, Policy.rely_order hd hh.1, hh.2] at ho'
    rw [Option.some.inj ho']
  -- The invoice is written next, while its order is already paid.
  have hic := invoicesClean_of_pending hc.2 hp
  have hof' : Of iid id v' := (robust_of others).rely v v'.last hof hd'
  have hn := noNewPaid_of_clean hic
  rw [wp_bind]
  refine wp_flushInvoice (fun heq => ?_) fun d j hd hj => ?_
  · exact robust_safe.wp_last writesTo_consume (by decide) (safe_of_legal hl hn) fun _ _ h => h
  have hl' := legal_flushInvoice iid (robust_legal.rely v' d hl hd) (i.assign_frozen
    { i with
      status := .paid, paidAt := some now, paymentMethod := some m, amountFromWallet := x
      amountFromGateway := y })
  -- Consuming the promo's slot writes no order and no invoice.
  refine robust_safe.wp_last writesTo_consume (by decide) ?_ fun _ _ h => h
  intro d' hd'
  have hrely : statusPolicy.around.rely v'.held v'.last d' :=
    Policy.rely_trans hd (Policy.rely_mono hd' (List.subset_cons_self _ _))
  refine ⟨?_, trivial, hl' d' hd', fun _ _ => trivial⟩
  intro n i' hi' hpaid
  by_cases hn' : n = iid
  · -- The invoice itself: its order has just moved.
    subst hn'
    simp only [Function.comp_apply, Db.updateInvoice, Table.get?_update_self,
      Option.map_eq_some_iff] at hi'
    obtain ⟨i₀, hi₀, rfl⟩ := hi'
    obtain ⟨i₁, hi₁, ho₁⟩ := (robust_of others).rely v' d' hof' hrely
    rw [hic d'] at hi₀
    obtain rfl : i₁ = i₀ := Option.some.inj (hi₁.symm.trans hi₀)
    obtain ⟨o', ho', hs⟩ := hm d' hrely
    refine ⟨o', ?_, by rw [hs]; rfl⟩
    rw [show (i.assign _ i₁).orderId = i₁.orderId from rfl, ho₁]
    exact ho'
  · -- Another invoice: its row and its order are as they were.
    simp only [Function.comp_apply, Db.updateInvoice, Table.get?_update_ne _ _ hn'] at hi'
    exact (safe_of_legal hl hn d' hrely).1 n i' hi' hpaid

/-- A checkout writes the split to the invoice, and no status. -/
theorem wp_startGateway {x : PaymentService.PayInput} {i : Invoice} {u w : Id} {a b : ℤ}
    (hc : Clean v) :
    wp statusPolicy.around (PaymentService.startGateway refresh s now x iid i u w a b)
      (fun _ v => statusPolicy.Safe v) v := by
  unfold PaymentService.startGateway
  refine robust_clean.wp_bind (Prog.writes_when _ writesTo_holdFunds) (by decide) hc
    fun _ v hc => ?_
  rw [wp_bind]
  refine wp_flushInvoice_unpaid (robust_ordersClean (by decide)) hc.1 (noNewPaid_of_clean hc.2) (.inr rfl)
    fun v ho hn => ?_
  have hsafe := safe_of_legal (legal_of_clean ho) hn
  refine robust_safe.wp_bind writesTo_createIntent (by decide) hsafe fun _ v hv => ?_
  refine robust_safe.query_bind hv fun _ v hv _ _ => ?_
  refine robust_safe.wp_bind writesTo_createCheckout (List.Subset.refl _) hv fun _ v hv => ?_
  exact robust_safe.wp_bind writesTo_flushIntent (by decide) hv fun _ _ hv => hv

/-- `pay_invoice` commits legal moves only, in both of its branches. -/
theorem wp_payInvoice {x : PaymentService.PayInput} {u : Id} (hc : Clean v) :
    wp statusPolicy.around (PaymentService.payInvoice refresh s now x iid u)
      (fun _ v => statusPolicy.Safe v) v := by
  unfold PaymentService.payInvoice
  rw [wp_bind]
  refine wp_getInvoiceForActor (fun _ _ => trivial) fun d i hd hi => ?_
  have hcof : Clean { v with mem := v.mem.setInvoice iid (some i), last := d } ∧
      Of iid i.orderId { v with mem := v.mem.setInvoice iid (some i), last := d } :=
    ⟨hc, i, by rw [← hc.2 d]; exact hi, rfl⟩
  refine wp_require_bind fun _ => wp_require_bind fun _ => ?_
  rw [wp_bind]
  -- The order's row is loaded under its lock, so the status is current.
  refine wp_lockOrder_clean (robust_clean.and (robust_of others)) hcof hcof.1.1
    (fun _ _ => trivial) fun o v' hcof' hh _ => ?_
  refine wp_require_bind fun _ => ?_
  refine robust_heldOf.wp_bind writesTo_getByUser (List.Subset.refl _) ⟨⟨hh, hcof'.1⟩, hcof'.2⟩
    fun y v hv => ?_
  split
  · trivial
  · refine wp_ofExcept_bind fun total _ => ?_
    refine robust_heldOf.wp_bind writesTo_availableBalance (List.Subset.refl _) hv
      fun available v hv => ?_
    refine wp_ofExcept_bind fun gatewayAmount _ => ?_
    rw [wp_ite]
    constructor
    · -- The wallet pays all of it, and the order is settled at once.
      intro _
      unfold PaymentService.payFromWallet
      refine robust_heldOf.wp_bind writesTo_fundEscrow (by decide) hv fun _ v hv => ?_
      rw [wp_bind]
      exact wp_mono (fun _ _ h => h) (wp_settleInvoiceRecord hv)
    · -- The gateway branch writes no order.
      intro _
      unfold PaymentService.payThroughGateway
      refine robust_clean.query_bind hv.1.2 fun d v hc _ _ => ?_
      split
      · exact safe_of_clean hc
      · exact wp_startGateway hc

/-- The settlement of an invoice moves its order to `PAID` with the invoice. -/
theorem wp_settleInvoice {c pid : Id} {p : PaymentIntent} (hc : Clean v) :
    wp statusPolicy.around (PaymentService.settleInvoice refresh now c pid p)
      (fun _ v => statusPolicy.Safe v) v := by
  unfold PaymentService.settleInvoice
  split
  · trivial
  rename_i iid _
  rw [wp_bind]
  refine wp_lockInvoice (fun _ _ => trivial) fun d i hd hi => ?_
  have hcof : Clean { v with held := .invoice iid :: v.held, last := d } ∧
      Of iid i.orderId { v with held := .invoice iid :: v.held, last := d } :=
    ⟨hc, i, by rw [← hc.2 d]; exact hi, rfl⟩
  dsimp only
  rw [wp_ite]
  -- An invoice that is paid already is left alone.
  refine ⟨fun _ => safe_of_clean hcof.1, fun _ => ?_⟩
  rw [wp_bind]
  refine wp_lockOrder_clean (robust_clean.and (robust_of others)) hcof hcof.1.1
    (fun _ _ => trivial) fun o v' hcof' hh _ => ?_
  refine robust_heldOf.wp_bind writesTo_getByUser (List.Subset.refl _) ⟨⟨hh, hcof'.1⟩, hcof'.2⟩
    fun y v hv => ?_
  split
  · trivial
  · refine robust_heldOf.wp_bind writesTo_fundEscrow (by decide) hv fun _ v hv => ?_
    exact wp_settleInvoiceRecord hv

/-- The settlement of an intent commits legal moves only. -/
theorem wp_settleIntent {c pid : Id} {p : PaymentIntent} (hc : Clean v) :
    wp statusPolicy.around (PaymentService.settleIntent refresh now c pid p)
      (fun _ v => statusPolicy.Safe v) v := by
  unfold PaymentService.settleIntent
  split
  · exact robust_clean.wp_last writesTo_settleTopup (by decide) hc fun _ _ hc => safe_of_clean hc
  · exact wp_settleInvoice hc

/-- `handle_webhook` commits legal moves only. -/
theorem wp_handleWebhook {a b : Bool} {c : Id} {e : Except Err PaymentService.WebhookEvent}
    (hc : Clean v) :
    wp statusPolicy.around (PaymentService.handleWebhook refresh now a b c e)
      (fun _ v => statusPolicy.Safe v) v := by
  refine wp_require_bind fun _ => wp_ofExcept_bind fun event _ => wp_require_bind fun _ => ?_
  unfold PaymentService.settleLocked
  refine robust_clean.wp_bind writesTo_lockByLink (List.Subset.refl _) hc fun x v hc => ?_
  split
  · trivial
  rw [wp_ite]
  refine ⟨fun _ => safe_of_clean hc, fun _ => ?_⟩
  rw [wp_ite]
  constructor
  · intro _
    exact robust_clean.wp_bind writesTo_flushIntent (by decide) hc fun _ v hc => safe_of_clean hc
  · intro _
    refine wp_ofExcept_bind fun _ _ => wp_ofExcept_bind fun _ _ => wp_require_bind fun _ => ?_
    rw [wp_bind]
    refine wp_mono (fun _ v hv => ?_) (wp_settleIntent hc)
    exact robust_safe.wp_bind writesTo_flushIntent (by decide) hv fun _ _ hv => hv

/-- `_expire_invoice` commits legal moves only. -/
theorem wp_expireInvoice (hc : Clean v) :
    wp statusPolicy.around (Expiry.expireInvoice refresh now iid)
      (fun _ v => statusPolicy.Safe v) v := by
  unfold Expiry.expireInvoice
  refine robust_clean.wp_bind writesTo_lockInvoice (List.Subset.refl _) hc fun x v hc => ?_
  split
  · exact safe_of_clean hc
  rw [wp_ite]
  refine ⟨fun _ => safe_of_clean hc, fun _ => ?_⟩
  refine robust_clean.query_bind hc fun _ v hc _ _ => ?_
  refine robust_clean.wp_bind writesTo_expireIntent (by decide) hc fun _ v hc => ?_
  refine robust_clean.wp_bind writesTo_release (by decide) hc fun _ v hc => ?_
  rw [wp_bind]
  -- Expiring the invoice pays for nothing.
  refine wp_flushInvoice_unpaid (robust_ordersClean (by decide)) hc.1 (noNewPaid_of_clean hc.2)
    (.inl (by simp)) fun v ho hn => ?_
  have hrobust : Robust statusPolicy others fun v => OrdersClean v ∧ NoNewPaid v :=
    (robust_ordersClean (by decide)).and (robust_noNewPaid.mono (by decide))
  rw [wp_bind]
  refine wp_lockOrder_clean hrobust ⟨ho, hn⟩ ho
    (fun v hv => safe_of_legal (legal_of_clean hv.1) hv.2) fun o v' hv hh _ => ?_
  rw [wp_bind, wp_when]
  -- Only an order that waits for the payment is reopened.
  refine ⟨fun _ => ?_, fun _ => safe_of_legal (legal_of_clean hv.1) hv.2⟩
  refine wp_assertTransition_bind fun ht => ?_
  refine wp_flushOrder_held hh hv.1 ht fun v'' hp hl _ => ?_
  exact safe_of_legal hl (noNewPaid_of_pending hv.2 hp)

/-- A transition of a locked order, as the last write that matters. -/
theorem wp_moveOrder {a : Order} {Q : Unit → TxView → Prop} (hh : HeldOrder id o v) (hc : Clean v)
    (ht : canTransition o.status a.status = true) (hQ : ∀ v', statusPolicy.Safe v' → Q () v') :
    wp statusPolicy.around (OrderRepository.flush now id o a) Q v :=
  wp_flushOrder_held hh hc.1 ht fun v' hp hl _ =>
    hQ v' (safe_of_legal hl (noNewPaid_of_pending (noNewPaid_of_clean hc.2) hp))

/-- `submit_delivery` commits legal moves only. -/
theorem wp_submitDelivery {confirm : Text → Except Err Unit} {q : Option ℚ} {k : Id}
    {keys : List Text} (hc : Clean v) :
    wp statusPolicy.around (FulfillmentService.submitDelivery s now confirm q id k keys)
      (fun _ v => statusPolicy.Safe v) v := by
  unfold FulfillmentService.submitDelivery
  rw [wp_bind]
  refine wp_lockForActor robust_clean hc hc.1 fun o v hc hh _ => wp_assertTransition_bind fun ht => ?_
  refine wp_require_bind fun _ => wp_require_bind fun _ => wp_require_bind fun _ =>
    wp_ofExcept_bind fun _ _ => ?_
  exact wp_moveOrder hh hc ht fun _ h => h

/-- A completion moves the locked order to `COMPLETED`. -/
theorem wp_completeAndRelease {c : Id} (hh : HeldOrder id o v) (hc : Clean v) :
    wp statusPolicy.around (FulfillmentService.completeAndRelease refresh s now c id o)
      (fun _ v => statusPolicy.Safe v) v := by
  unfold FulfillmentService.completeAndRelease
  refine wp_assertTransition_bind fun ht => ?_
  refine robust_heldClean.wp_bind writesTo_paidInvoice (List.Subset.refl _) ⟨hh, hc⟩
    fun x v hv => ?_
  split
  split
  · trivial
  refine robust_heldClean.wp_bind writesTo_getByUser (List.Subset.refl _) hv fun y v hv => ?_
  split
  · trivial
  refine wp_ofExcept_bind fun settlement _ => ?_
  refine robust_heldClean.wp_bind writesTo_releaseEscrow (by decide) hv fun _ v hv => ?_
  exact wp_moveOrder hv.1 hv.2 ht fun _ h => h

/-- `approve_order` commits legal moves only. -/
theorem wp_approveOrder {c u : Id} (hc : Clean v) :
    wp statusPolicy.around (FulfillmentService.approveOrder refresh s now c id u)
      (fun _ v => statusPolicy.Safe v) v := by
  unfold FulfillmentService.approveOrder
  rw [wp_bind]
  exact wp_lockForActor robust_clean hc hc.1 fun o v hc hh _ => wp_completeAndRelease hh hc

/-- The automatic approval commits legal moves only. -/
theorem wp_autoApprove {c : Id} (hc : Clean v) :
    wp statusPolicy.around (FulfillmentService.autoApprove refresh s now c id)
      (fun _ v => statusPolicy.Safe v) v := by
  unfold FulfillmentService.autoApprove
  rw [wp_bind]
  refine wp_lockOrder_clean robust_clean hc hc.1 (fun _ hc => safe_of_clean hc)
    fun o v' hc' hh _ => ?_
  dsimp only
  rw [wp_ite]
  refine ⟨fun _ => safe_of_clean hc', fun _ => ?_⟩
  rw [wp_bind]
  exact wp_completeAndRelease hh hc'

/-- `raise_dispute` commits legal moves only. -/
theorem wp_raiseDispute {x u : Id} {r : Text} (hc : Clean v) :
    wp statusPolicy.around (FulfillmentService.raiseDispute now x id u r)
      (fun _ v => statusPolicy.Safe v) v := by
  unfold FulfillmentService.raiseDispute
  rw [wp_bind]
  refine wp_lockForActor robust_clean hc hc.1 fun o v hc hh _ => ?_
  refine robust_heldClean.query_bind ⟨hh, hc⟩ fun _ v hv _ _ => ?_
  refine wp_require_bind fun _ => wp_assertTransition_bind fun ht => ?_
  rw [wp_bind]
  refine wp_moveOrder hv.1 hv.2 ht fun v hv => ?_
  exact robust_safe.wp_bind writesTo_createDispute (by decide) hv fun _ _ h => h

/-- `resolve_dispute` commits legal moves only, for each outcome. -/
theorem wp_resolveDispute {c x a : Id} {y : DisputeStatus} {n : Option Text}
    {q : Option Decimal} (hc : Clean v) :
    wp statusPolicy.around (FulfillmentService.resolveDispute refresh s now c x a y n q)
      (fun _ v => statusPolicy.Safe v) v := by
  unfold FulfillmentService.resolveDispute
  refine robust_clean.wp_bind writesTo_lockDispute (List.Subset.refl _) hc fun z v hc => ?_
  split
  · trivial
  refine wp_require_bind fun _ => ?_
  rw [wp_bind]
  refine wp_lockOrder_clean robust_clean hc hc.1 (fun _ _ => trivial) fun o v' hc' hh _ => ?_
  refine robust_heldClean.wp_bind writesTo_paidInvoice (List.Subset.refl _) ⟨hh, hc'⟩
    fun w v hv => ?_
  refine robust_heldClean.wp_bind writesTo_applyDisputeOutcome (by decide) hv fun t v hv => ?_
  refine wp_assertTransition_bind fun ht => ?_
  rw [wp_bind]
  refine wp_moveOrder hv.1 hv.2 ht fun v hv => ?_
  exact robust_safe.wp_last writesTo_resolveRow (by decide) hv fun _ _ h => h

/-- Every request is safe. -/
theorem wp_request (refresh : Bool) (s : Settings) (r : Request) (d : Db) :
    wp statusPolicy.around (r.tx refresh s) (fun _ v => statusPolicy.Safe v)
      (.start .empty d) := by
  have hother : r.tables ⊆ others → wp statusPolicy.around (r.tx refresh s)
      (fun _ v => statusPolicy.Safe v) (.start .empty d) := fun h =>
    Policy.wp_safe_of_writesTo statusPolicy_reads (by decide) ((r.writesTo refresh s).mono h)
  cases r with
  -- These requests touch no order.
  | createTopup | expireTopupIntent | requestWithdrawal | approveWithdrawal | rejectWithdrawal
  | markPaid => exact hother (by simp [Request.tables, others])
  | createOrder => exact wp_void (wp_createOrder clean_start)
  | acceptOrder => exact wp_void (wp_acceptOrder clean_start)
  | cancelOrder => exact wp_void wp_cancelOrder
  | createInvoice => exact wp_createInvoice
  | cancelInvoice => exact wp_cancelInvoice clean_start
  | payInvoice => exact wp_void (wp_payInvoice clean_start)
  | handleWebhook => exact wp_void (wp_handleWebhook clean_start)
  | expireInvoice => exact wp_void (wp_expireInvoice clean_start)
  | submitDelivery => exact wp_submitDelivery clean_start
  | approveOrder => exact wp_approveOrder clean_start
  | autoApprove => exact wp_void (wp_autoApprove clean_start)
  | raiseDispute => exact wp_raiseDispute clean_start
  | resolveDispute => exact wp_resolveDispute clean_start

/-- Every request follows the policy. -/
theorem follows {refresh : Bool} {s : Settings} {p : Tx Unit}
    (hp : Requested refresh s (fun _ => True) p) : statusPolicy.discipline.Follows .empty p := by
  obtain ⟨r, -, rfl⟩ := hp
  refine Policy.follows (r.writesTo refresh s) (fun t _ => ?_) fun d _ => wp_request refresh s r d
  cases t <;> decide

end StatusProof

/-! ## Runs -/

/-- The statuses that an order never leaves. -/
def OrderStatus.final : OrderStatus → Bool
  | .completed | .cancelled | .refunded => true
  | _ => false

/-- A final status does not change. -/
theorem OrderStatus.Moves.eq_of_final {s s' : OrderStatus} (h : s.Moves s')
    (hs : s.final = true) : s' = s := by
  rcases h with rfl | h
  · rfl
  · revert h hs
    cases s <;> cases s' <;> decide

/-- In every run of requests in which no lock of an order is granted to a session that has read
another status of it, every commit changes the statuses of orders by legal transitions, final
statuses are never left, and the orders of paid invoices are funded, so none of them is
cancelled. -/
theorem order_status_moves_legal (refresh : Bool) (s : Settings) (d₀ : Db) (h₀ : PaidFunded d₀)
    (sys : System Db Row Err Memory Unit)
    (hrun : System.Run (Requested refresh s fun _ => True) statusCurrent .empty d₀ sys) :
    PaidFunded sys.db ∧
    ∀ i sys', sys.Grants statusCurrent i → sys.step i = some sys' →
      (∀ id o, sys.db.orders.get? id = some o → ∃ o', sys'.db.orders.get? id = some o' ∧
        (o'.status = o.status ∨ canTransition o.status o'.status = true) ∧
        (o.status.final = true → o'.status = o.status)) ∧
      ∀ id i o, sys'.db.invoices.get? id = some i → i.status = .paid →
        sys'.db.orders.get? i.orderId = some o → o.status ≠ .cancelled := by
  -- Every request keeps to the policy of the statuses.
  have hfollows := fun p (hp : Requested refresh s (fun _ => True) p) => StatusProof.follows hp
  refine ⟨Discipline.inv_of_run hfollows h₀ hrun, fun i sys' hg hs => ⟨?_, ?_⟩⟩
  · intro id o ho
    rcases Discipline.guar_of_run hfollows h₀ hrun hg hs with h | h
    · exact ⟨o, h ▸ ho, .inl rfl, fun _ => rfl⟩
    · obtain ⟨o', ho', hm⟩ := h id o ho
      exact ⟨o', ho', hm, hm.eq_of_final⟩
  · -- A cancelled order is not funded, so its invoice is not paid.
    intro id i o hi hp ho hc
    obtain ⟨o', ho', hf⟩ := Discipline.inv_of_run hfollows h₀ (hrun.step _ hg hs) id i hi hp
    obtain rfl : o' = o := Option.some.inj (ho'.symm.trans ho)
    rw [hc] at hf
    exact absurd hf (by decide)

/-- The status of the order of the small database. -/
def Sample.statusOf (sys : System Db Row Err Memory Unit) : Option OrderStatus :=
  (sys.db.orders.get? 401).map (·.status)

/-- A customer whose wallet covers the invoice of an order that awaits its payment. -/
def Sample.payable : Db :=
  ordered (wallets 20000 0 0) (order .waitingPayment) (invoice .issued 0 0)

/-- The database that the run begins with meets the invariant. -/
theorem Sample.payable_paidFunded : PaidFunded payable := by
  refine Table.forall_get?.mpr fun r hr hp => ?_
  obtain rfl : r = (601, invoice .issued 0 0) := by simpa [payable, ordered] using hr
  cases hp

/-- The customer cancels the order. -/
def Sample.cancel : Tx Unit := Request.tx false settings (.cancelOrder 0 401 1 none)

/-- The customer pays the invoice. -/
def Sample.pay : Tx Unit := Request.tx false settings (.payInvoice 0 ⟨102, 302, gateway⟩ 601 1)

/-- The cancellation is one of the requests. -/
theorem Sample.requested_cancel : Requested false settings (fun _ => True) cancel :=
  ⟨_, trivial, rfl⟩

/-- The payment is one of the requests. -/
theorem Sample.requested_pay : Requested false settings (fun _ => True) pay := ⟨_, trivial, rfl⟩

/-- A cancellation commits while a payment of the order's invoice is in progress, which has read the
invoice and not yet locked the order: the order goes to `CANCELLED`, and no paid invoice is of it. -/
theorem order_status_moves_legal_cancel :
    ∃ sys sys' : System Db Row Err Memory Unit,
      System.Run (Requested false Sample.settings fun _ => True) statusCurrent .empty
        Sample.payable sys ∧
      sys.slots.length = 2 ∧ sys.step 0 = some sys' ∧
      Sample.statusOf sys = some .waitingPayment ∧ Sample.statusOf sys' = some .cancelled ∧
      PaidFunded sys.db ∧ ∀ id i, sys'.db.invoices.get? id = some i → i.orderId = 401 →
        i.status ≠ .paid := by
  obtain ⟨sys, hrun, hq⟩ := System.Run.exists_of_play (Requested false Sample.settings fun _ => True)
    statusCurrent .empty Sample.payable
    -- Both start before either commits; the cancellation commits last.
    ([.start Sample.cancel, .start Sample.pay] ++ List.replicate 2 (.step 1) ++
      List.replicate 3 (.step 0))
    (fun sys => sys.slots.length = 2 && Sample.statusOf sys = some .waitingPayment &&
      (sys.stepIf statusCurrent 0).any fun sys' => Sample.statusOf sys' = some .cancelled)
    (by
      intro p hp
      simp only [List.mem_append, List.mem_cons, List.mem_replicate, System.Event.start.injEq,
        List.not_mem_nil, reduceCtorEq, and_false, or_false] at hp
      rcases hp with rfl | rfl
      · exact Sample.requested_cancel
      · exact Sample.requested_pay)
    (by decide +kernel)
  simp only [Bool.and_eq_true, decide_eq_true_eq, Option.any_eq_true] at hq
  obtain ⟨⟨htwo, hw⟩, sys', hs, hc⟩ := hq
  obtain ⟨hg, hstep⟩ := System.step_of_stepIf hs
  have h := order_status_moves_legal false Sample.settings Sample.payable
    Sample.payable_paidFunded sys hrun
  obtain ⟨o, ho, hcancelled⟩ := Option.map_eq_some_iff.mp hc
  refine ⟨sys, sys', hrun, htwo, hstep, hw, hc, h.1, fun id i hi hio hp => ?_⟩
  exact (h.2 0 sys' hg hstep).2 id i o hi hp (hio ▸ ho) hcancelled

/-- A cancellation reads the order before a payment and writes it afterwards: it commits
`CANCELLED` over `IN_PROGRESS`, and the paid invoice of the cancelled order stays. -/
theorem cancel_overwrites_paid_order :
    PaidFunded Sample.payable ∧ canTransition .inProgress .cancelled = false ∧
    ∃ sys sys' : System Db Row Err Memory Unit,
      System.Run (Requested false Sample.settings fun _ => True) (System.always Db Row Memory)
        .empty Sample.payable sys ∧
      sys.step 0 = some sys' ∧ Sample.statusOf sys = some .inProgress ∧
      Sample.statusOf sys' = some .cancelled ∧
      (sys'.db.invoices.get? 601).map (·.status) = some .paid := by
  refine ⟨Sample.payable_paidFunded, rfl, ?_⟩
  obtain ⟨sys, hrun, hq⟩ := System.Run.exists_of_play (Requested false Sample.settings fun _ => True)
    (System.always Db Row Memory) .empty Sample.payable
    -- The cancellation reads the order, then the payment runs to its end.
    ([.start Sample.cancel, .start Sample.pay, .step 0] ++ List.replicate 22 (.step 1) ++
      List.replicate 2 (.step 0))
    (fun sys => Sample.statusOf sys = some .inProgress && (sys.step 0).any fun sys' =>
      Sample.statusOf sys' = some .cancelled &&
        (sys'.db.invoices.get? 601).map (·.status) = some .paid)
    (by
      intro p hp
      simp only [List.mem_append, List.mem_cons, List.mem_replicate, System.Event.start.injEq,
        List.not_mem_nil, reduceCtorEq, and_false, or_false] at hp
      rcases hp with rfl | rfl
      · exact Sample.requested_cancel
      · exact Sample.requested_pay)
    (by decide +kernel)
  simp only [Bool.and_eq_true, decide_eq_true_eq, Option.any_eq_true] at hq
  obtain ⟨hw, sys', hs, hc, hi⟩ := hq
  exact ⟨sys, sys', hrun, hs, hw, hc, hi⟩

end Giftly
