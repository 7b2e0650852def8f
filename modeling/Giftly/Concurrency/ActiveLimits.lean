import Giftly.Concurrency.OrderStatus

/-!
# Limits of active orders

`create_order` counts the active orders of the customer, and `accept_order` those of the courier;
the row that changes the count is written later, and nothing is locked in between that another
request of the same actor would wait for. The limit holds in the runs in which every such commit
still finds a count below the limit (`belowLimits`).

The other requests do not raise a count: they leave the parties of every order alone
(`keepsParties_request`), and when no order is written by a session that has read another status of
it, their commits move orders by legal transitions, none of which leads from an inactive status to
an active one.
-/

namespace Giftly

open Store OrderState OrderService OrderRepository

/-! ## Parties -/

/-- The customer and the courier of an order. -/
def Order.parties (o : Order) : Id × Option Id := (o.customerId, o.courierId)

/-- A write adds no order, and leaves the parties of every order. -/
def PartiesKept (f : Db → Db) : Prop :=
  ∀ d id, ((f d).orders.get? id).map Order.parties = (d.orders.get? id).map Order.parties

/-- All writes of a transaction are of this kind. -/
abbrev KeepsParties {α : Type} (p : Tx α) : Prop := p.Writes (fun _ f => PartiesKept f) fun _ => True

namespace LimitProof

variable {α β : Type} {now : Time} {s : Settings} {refresh : Bool}

/-- Writes to other tables leave the orders. -/
theorem keepsParties_of_writesTo {ts : List Tbl} {p : Tx α} (h : WritesTo ts p)
    (ht : .orders ∉ ts) : KeepsParties p := by
  refine Prog.Writes.mono h fun _ f hf d id => ?_
  rw [(hf d).1.orders_eq ht]

/-- The flush of an order whose courier is not assigned keeps the parties. -/
theorem keepsParties_flush {id : Id} {l a : Order} (h : a.courierId = l.courierId) :
    KeepsParties (OrderRepository.flush now id l a) := by
  unfold OrderRepository.flush
  split_ifs
  · trivial
  · refine Prog.writes_flush _ fun d j => ?_
    simp only [Db.updateOrder, Table.get?_update]
    split_ifs
    · cases d.orders.get? j with
      | none => rfl
      | some o => simp [Order.parties, Order.assign, assign, h]
    · rfl

/-- Writes to other tables in front of another program. -/
theorem keepsParties_bind {ts : List Tbl} {p : Tx α} {g : α → Tx β} (hp : WritesTo ts p)
    (ht : .orders ∉ ts) (hg : ∀ a, KeepsParties (g a)) : KeepsParties (p >>= g) :=
  Prog.Writes.bind (keepsParties_of_writesTo hp ht) hg

/-- A read in front of another program. -/
theorem keepsParties_read {p : Tx α} {g : α → Tx β} (hp : WritesTo [] p)
    (hg : ∀ a, KeepsParties (g a)) : KeepsParties (p >>= g) :=
  keepsParties_bind hp List.not_mem_nil hg

/-- The check of a transition writes nothing. -/
theorem keepsParties_assertTransition {a b : OrderStatus} : KeepsParties (assertTransition a b) :=
  Prog.writes_require _ _

/-- `cancel_order` changes the status and the reason of the order alone. -/
theorem keepsParties_cancelOrder {o u : Id} {reason : Option Text} :
    KeepsParties (cancelOrder now o u reason) := by
  refine Prog.Writes.bind (Prog.writes_query _) fun x => ?_
  split
  · trivial
  · refine keepsParties_read writesTo_keepOrder fun _ => ?_
    refine Prog.Writes.bind keepsParties_assertTransition fun _ => ?_
    exact Prog.Writes.bind (keepsParties_flush rfl) fun _ => trivial

/-- `create_invoice` changes the status and the total of the order alone. -/
theorem keepsParties_createInvoice {ids : InvoiceService.NewIds} {o k : Id}
    {x : InvoiceService.NewInvoiceInput} :
    KeepsParties (InvoiceService.createInvoice s now ids o k x) := by
  refine Prog.Writes.bind (Prog.writes_query _) fun y => ?_
  split
  · trivial
  · refine keepsParties_read writesTo_keepOrder fun _ => ?_
    refine Prog.Writes.bind keepsParties_assertTransition fun _ => ?_
    refine Prog.Writes.bind (Prog.writes_query _) fun _ => ?_
    refine Prog.Writes.bind (Prog.writes_require _ _) fun _ => ?_
    refine Prog.Writes.bind (Prog.writes_ofExcept _) fun _ => ?_
    refine keepsParties_read writesTo_promoFor fun _ => ?_
    refine Prog.Writes.bind (Prog.writes_ofExcept _) fun _ => ?_
    refine Prog.Writes.bind (Prog.writes_require _ _) fun _ => ?_
    refine keepsParties_bind writesTo_writeInvoice (by decide) fun _ => ?_
    exact keepsParties_flush rfl

/-- `cancel_invoice` reopens the order for the same courier. -/
theorem keepsParties_cancelInvoice {i k : Id} :
    KeepsParties (InvoiceService.cancelInvoice now i k) := by
  refine keepsParties_read writesTo_lockForCourier fun x => ?_
  split
  · trivial
  · refine Prog.Writes.bind (Prog.writes_require _ _) fun _ => ?_
    refine keepsParties_read writesTo_lockOrder fun y => ?_
    split
    · trivial
    · refine keepsParties_bind writesTo_release (by decide) fun _ => ?_
      refine Prog.Writes.bind keepsParties_assertTransition fun _ => ?_
      refine Prog.Writes.bind (keepsParties_flush rfl) fun _ => ?_
      exact keepsParties_of_writesTo writesTo_flushInvoice (by decide)

/-- The settlement of an invoice changes the status of its order alone. -/
theorem keepsParties_settleInvoiceRecord {i o : Id} {x : Invoice} {y : Order} {m : PaymentMethod}
    {a b : ℤ} : KeepsParties (PaymentService.settleInvoiceRecord now i x o y m a b) := by
  refine Prog.Writes.bind (Prog.writes_ofExcept _) fun _ => ?_
  refine Prog.Writes.bind (Prog.writes_ofExcept _) fun _ => ?_
  refine Prog.Writes.bind keepsParties_assertTransition fun _ => ?_
  refine Prog.Writes.bind (keepsParties_flush rfl) fun _ => ?_
  refine keepsParties_bind writesTo_flushInvoice (by decide) fun _ => ?_
  exact keepsParties_of_writesTo writesTo_consume (by decide)

/-- `pay_invoice` keeps the parties in both of its branches. -/
theorem keepsParties_payInvoice {x : PaymentService.PayInput} {i u : Id} :
    KeepsParties (PaymentService.payInvoice refresh s now x i u) := by
  refine Prog.Writes.bind (Prog.writes_query _) fun y => ?_
  split
  · trivial
  refine keepsParties_read writesTo_keepInvoice fun _ => ?_
  refine Prog.Writes.bind (Prog.writes_require _ _) fun _ => ?_
  refine Prog.Writes.bind (Prog.writes_require _ _) fun _ => ?_
  refine keepsParties_read writesTo_lockOrder fun z => ?_
  split
  · trivial
  refine Prog.Writes.bind (Prog.writes_require _ _) fun _ => ?_
  refine keepsParties_read writesTo_getByUser fun z' => ?_
  split
  · trivial
  refine Prog.Writes.bind (Prog.writes_ofExcept _) fun _ => ?_
  refine keepsParties_read writesTo_availableBalance fun _ => ?_
  refine Prog.Writes.bind (Prog.writes_ofExcept _) fun _ => ?_
  split_ifs
  · refine keepsParties_bind writesTo_fundEscrow (by decide) fun _ => ?_
    exact Prog.Writes.bind keepsParties_settleInvoiceRecord fun _ => trivial
  · exact keepsParties_of_writesTo writesTo_payThroughGateway (by decide)

/-- The settlement of an intent keeps the parties. -/
theorem keepsParties_settleIntent {c i : Id} {p : PaymentIntent} :
    KeepsParties (PaymentService.settleIntent refresh now c i p) := by
  unfold PaymentService.settleIntent
  split
  · exact keepsParties_of_writesTo writesTo_settleTopup (by decide)
  unfold PaymentService.settleInvoice
  split
  · trivial
  refine keepsParties_read writesTo_lockInvoice fun x => ?_
  split
  · trivial
  split_ifs
  · trivial
  refine keepsParties_read writesTo_lockOrder fun y => ?_
  split
  · trivial
  refine keepsParties_read writesTo_getByUser fun z => ?_
  split
  · trivial
  refine keepsParties_bind writesTo_fundEscrow (by decide) fun _ => ?_
  exact keepsParties_settleInvoiceRecord

/-- `handle_webhook` keeps the parties. -/
theorem keepsParties_handleWebhook {a b : Bool} {c : Id}
    {e : Except Err PaymentService.WebhookEvent} :
    KeepsParties (PaymentService.handleWebhook refresh now a b c e) := by
  refine Prog.Writes.bind (Prog.writes_require _ _) fun _ => ?_
  refine Prog.Writes.bind (Prog.writes_ofExcept _) fun _ => ?_
  refine Prog.Writes.bind (Prog.writes_require _ _) fun _ => ?_
  refine keepsParties_read writesTo_lockByLink fun x => ?_
  split
  · trivial
  split_ifs
  · trivial
  · exact keepsParties_bind writesTo_flushIntent (by decide) fun _ => trivial
  refine Prog.Writes.bind (Prog.writes_ofExcept _) fun _ => ?_
  refine Prog.Writes.bind (Prog.writes_ofExcept _) fun _ => ?_
  refine Prog.Writes.bind (Prog.writes_require _ _) fun _ => ?_
  refine Prog.Writes.bind keepsParties_settleIntent fun _ => ?_
  exact keepsParties_bind writesTo_flushIntent (by decide) fun _ => trivial

/-- `_expire_invoice` reopens the order for the same courier. -/
theorem keepsParties_expireInvoice {i : Id} :
    KeepsParties (Expiry.expireInvoice refresh now i) := by
  refine keepsParties_read writesTo_lockInvoice fun x => ?_
  split
  · trivial
  split_ifs
  · trivial
  refine Prog.Writes.bind (Prog.writes_query _) fun _ => ?_
  refine keepsParties_bind writesTo_expireIntent (by decide) fun _ => ?_
  refine keepsParties_bind writesTo_release (by decide) fun _ => ?_
  refine keepsParties_bind writesTo_flushInvoice (by decide) fun _ => ?_
  refine keepsParties_read writesTo_lockOrder fun y => ?_
  split
  · trivial
  · refine Prog.Writes.bind (Prog.writes_when _ ?_) fun _ => trivial
    exact Prog.Writes.bind keepsParties_assertTransition fun _ => keepsParties_flush rfl

/-- `submit_delivery` keeps the parties. -/
theorem keepsParties_submitDelivery {confirm : Text → Except Err Unit} {q : Option ℚ} {o k : Id}
    {keys : List Text} :
    KeepsParties (FulfillmentService.submitDelivery s now confirm q o k keys) := by
  refine keepsParties_read writesTo_lockForActor fun _ => ?_
  refine Prog.Writes.bind keepsParties_assertTransition fun _ => ?_
  refine Prog.Writes.bind (Prog.writes_require _ _) fun _ => ?_
  refine Prog.Writes.bind (Prog.writes_require _ _) fun _ => ?_
  refine Prog.Writes.bind (Prog.writes_require _ _) fun _ => ?_
  refine Prog.Writes.bind (Prog.writes_ofExcept _) fun _ => ?_
  exact keepsParties_flush rfl

/-- A completion keeps the parties. -/
theorem keepsParties_completeAndRelease {c o : Id} {x : Order} :
    KeepsParties (FulfillmentService.completeAndRelease refresh s now c o x) := by
  refine Prog.Writes.bind keepsParties_assertTransition fun _ => ?_
  refine keepsParties_read writesTo_paidInvoice fun y => ?_
  split
  split
  · trivial
  refine keepsParties_read writesTo_getByUser fun z => ?_
  split
  · trivial
  refine Prog.Writes.bind (Prog.writes_ofExcept _) fun _ => ?_
  refine keepsParties_bind writesTo_releaseEscrow (by decide) fun _ => ?_
  exact keepsParties_flush rfl

/-- The automatic approval keeps the parties. -/
theorem keepsParties_autoApprove {c o : Id} :
    KeepsParties (FulfillmentService.autoApprove refresh s now c o) := by
  refine keepsParties_read writesTo_lockOrder fun x => ?_
  split
  · trivial
  split_ifs
  · trivial
  exact Prog.Writes.bind keepsParties_completeAndRelease fun _ => trivial

/-- `raise_dispute` keeps the parties. -/
theorem keepsParties_raiseDispute {x o u : Id} {r : Text} :
    KeepsParties (FulfillmentService.raiseDispute now x o u r) := by
  refine keepsParties_read writesTo_lockForActor fun _ => ?_
  refine Prog.Writes.bind (Prog.writes_query _) fun _ => ?_
  refine Prog.Writes.bind (Prog.writes_require _ _) fun _ => ?_
  refine Prog.Writes.bind keepsParties_assertTransition fun _ => ?_
  refine Prog.Writes.bind (keepsParties_flush rfl) fun _ => ?_
  exact keepsParties_bind writesTo_createDispute (by decide) fun _ => trivial

/-- The outcome of a dispute returns the order with its courier. -/
theorem keepsParties_outcome_bind {c o i : Id} {x : Order} {l : Invoice} {y : DisputeStatus}
    {a : Option Decimal} {g : Order × OrderStatus → Tx β}
    (hg : ∀ z st, z.courierId = x.courierId → KeepsParties (g (z, st))) :
    KeepsParties (FulfillmentService.applyDisputeOutcome refresh s c o x i l y a >>= g) := by
  unfold FulfillmentService.applyDisputeOutcome
  split
  · trivial
  rename_i k hk
  rw [Prog.bind_assoc]
  refine keepsParties_read writesTo_getByUser fun z => ?_
  rw [Prog.bind_assoc]
  refine keepsParties_read writesTo_getByUser fun z' => ?_
  split
  · -- Both users have wallets, and one of the four outcomes is chosen.
    split
    · rw [Prog.bind_assoc]
      exact keepsParties_bind writesTo_refundEscrow (by decide) fun _ => hg x _ rfl
    · rw [Prog.bind_assoc]
      refine Prog.Writes.bind (Prog.writes_ofExcept _) fun _ => ?_
      rw [Prog.bind_assoc]
      exact keepsParties_bind writesTo_releaseEscrow (by decide) fun _ => hg _ _ rfl
    · split
      · trivial
      · simp only [Prog.bind_assoc]
        refine Prog.Writes.bind (Prog.writes_ofExcept _) fun _ => ?_
        refine Prog.Writes.bind (Prog.writes_ofExcept _) fun _ => ?_
        refine Prog.Writes.bind (Prog.writes_require _ _) fun _ => ?_
        exact keepsParties_bind writesTo_splitEscrow (by decide) fun _ => hg _ _ rfl
    · trivial
  · trivial

/-- `resolve_dispute` keeps the parties, whatever the outcome. -/
theorem keepsParties_resolveDispute {c x a : Id} {y : DisputeStatus} {n : Option Text}
    {q : Option Decimal} :
    KeepsParties (FulfillmentService.resolveDispute refresh s now c x a y n q) := by
  refine keepsParties_read writesTo_lockDispute fun z => ?_
  split
  · trivial
  refine Prog.Writes.bind (Prog.writes_require _ _) fun _ => ?_
  refine keepsParties_read writesTo_lockOrder fun z' => ?_
  split
  · trivial
  refine keepsParties_read writesTo_paidInvoice fun _ => ?_
  refine keepsParties_outcome_bind fun settled _ hsettled => ?_
  refine Prog.Writes.bind keepsParties_assertTransition fun _ => ?_
  refine Prog.Writes.bind (keepsParties_flush hsettled) fun _ => ?_
  exact keepsParties_of_writesTo writesTo_resolveRow (by decide)

/-- Only the creation and the acceptance of an order change its parties. -/
theorem keepsParties_request {r : Request}
    (hc : ∀ now confirm o u x, r ≠ .createOrder now confirm o u x)
    (ha : ∀ now b v o k, r ≠ .acceptOrder now b v o k) : KeepsParties (r.tx refresh s) := by
  have hother : .orders ∉ r.tables → KeepsParties (r.tx refresh s) :=
    keepsParties_of_writesTo (r.writesTo refresh s)
  have hvoid : ∀ {γ : Type} {p : Tx γ}, KeepsParties p → KeepsParties p.void :=
    fun h => Prog.Writes.bind h fun _ => trivial
  cases r with
  | createOrder => exact absurd rfl (hc _ _ _ _ _)
  | acceptOrder => exact absurd rfl (ha _ _ _ _ _)
  -- These write no order.
  | createTopup | expireTopupIntent | requestWithdrawal | approveWithdrawal | rejectWithdrawal
  | markPaid => exact hother (by simp [Request.tables])
  -- These write an order, but only its status and its amount.
  | cancelOrder => exact hvoid keepsParties_cancelOrder
  | createInvoice => exact keepsParties_createInvoice
  | cancelInvoice => exact keepsParties_cancelInvoice
  | payInvoice => exact hvoid keepsParties_payInvoice
  | handleWebhook => exact hvoid keepsParties_handleWebhook
  | expireInvoice => exact hvoid keepsParties_expireInvoice
  | submitDelivery => exact keepsParties_submitDelivery
  | approveOrder =>
    exact keepsParties_read writesTo_lockForActor fun _ => keepsParties_completeAndRelease
  | autoApprove => exact hvoid keepsParties_autoApprove
  | raiseDispute => exact keepsParties_raiseDispute
  | resolveDispute => exact keepsParties_resolveDispute

/-! ## What a commit does to the parties -/

/-- The new order of a request, with its customer. -/
def created : Request → Option (Id × Id)
  | .createOrder _ _ orderId customerId _ => some (orderId, customerId)
  | _ => none

/-- The order that a request accepts, with the courier. -/
def accepted : Request → Option (Id × Id)
  | .acceptOrder _ _ _ orderId courierId => some (orderId, courierId)
  | _ => none

/-- The parties of an order after a commit: they are the old ones, or the order is the new one of a
creation, or it was `NEW` and is the one of an acceptance. -/
def Places (r : Request) (d d' : Db) : Prop :=
  ∀ id o', d'.orders.get? id = some o' →
    (∃ o, d.orders.get? id = some o ∧ o.parties = o'.parties) ∨
    (created r = some (id, o'.customerId) ∧ o'.courierId = none) ∨
    ∃ o k, d.orders.get? id = some o ∧ accepted r = some (id, k) ∧
      o'.parties = (o.customerId, some k) ∧ o'.status ≠ .new

/-- A commit that keeps all parties places nothing. -/
theorem places_of_kept {r : Request} {d d' : Db}
    (h : ∀ id, (d'.orders.get? id).map Order.parties = (d.orders.get? id).map Order.parties) :
    Places r d d' := by
  intro id o' ho'
  have hid := h id
  rw [ho', Option.map_some] at hid
  obtain ⟨o, ho, hparties⟩ := Option.map_eq_some_iff.mp hid.symm
  exact .inl ⟨o, ho, hparties⟩

/-- A creation adds the new order of its customer, without a courier. -/
theorem wp_createOrder {confirm : Text → Except Err Unit} {oid u : Id} {x : NewOrderInput}
    {d₀ : Db} :
    wp statusPolicy.around (createOrder now confirm oid u x)
      (fun _ v => ∀ d, Places (.createOrder now confirm oid u x) d (v.pending d))
      (.start .empty d₀) := by
  unfold createOrder
  refine wp_require_bind fun _ => wp_require_bind fun _ => wp_require_bind fun _ => ?_
  refine wp_query_bind fun d₁ _ => wp_require_bind fun _ => wp_ofExcept_bind fun _ _ => ?_
  unfold OrderRepository.create
  rw [wp_bind]
  refine wp_insertRow fun d₂ _ _ _ d j o' ho' => ?_
  simp only [Function.comp_apply, id_eq, Db.insertOrder, Table.get?_insert] at ho'
  cases ho : d.orders.get? j with
  | some o =>
    rw [ho, Option.some_or, Option.some.injEq] at ho'
    exact .inl ⟨o, rfl, congrArg Order.parties ho'⟩
  | none =>
    rw [ho, Option.none_or] at ho'
    split_ifs at ho' with hj
    obtain rfl := Option.some.inj ho'
    exact .inr (.inl ⟨by rw [created, hj], rfl⟩)

/-- An acceptance gives the courier to an order that was `NEW` until the commit. -/
theorem wp_assignLocked {b : Bool} {cid oid k : Id} {v : TxView} (hv : v.pending = id) :
    wp statusPolicy.around (assignLocked now cid oid k)
      (fun _ v => ∀ d, statusPolicy.around.rely v.held v.last d →
        Places (.acceptOrder now b cid oid k) d (v.pending d)) v := by
  unfold assignLocked
  rw [wp_bind]
  refine wp_lockOrder (fun _ _ => trivial) fun d₁ o hd₁ _ ho => ?_
  rw [hv] at ho
  refine wp_require_bind fun hnew => wp_assertTransition_bind fun _ => ?_
  have hne : ({ o with courierId := some k, status := .assigned, assignedAt := some now } : Order) ≠
      o := by
    intro heq
    have := congrArg Order.status heq
    rw [hnew] at this
    cases this
  rw [wp_bind]
  refine wp_flushOrder hne fun d₂ row hd₂ _ _ => ?_
  rw [wp_bind]
  refine wp_insertRow fun d₃ hd₃ _ _ d hd j o' ho' => ?_
  -- The lock of the order has been held since its row was read.
  have h₂ : d₂.orders.get? oid = some o := (Policy.rely_order hd₂ List.mem_cons_self).trans ho
  have h₃ : d₃.orders.get? oid = some o := (Policy.rely_order hd₃ List.mem_cons_self).trans h₂
  have hrow : d.orders.get? oid = some o := (Policy.rely_order hd (by simp)).trans h₃
  simp only [Function.comp_apply, hv, id_eq, Db.insertConversation, Db.updateOrder] at ho'
  by_cases hj : j = oid
  · subst hj
    rw [Table.get?_update_self, hrow, Option.map_some, Option.some.injEq] at ho'
    refine .inr (.inr ⟨o, k, hrow, rfl, ?_, ?_⟩)
    · rw [← ho']
      simp [Order.parties, Order.assign]
    · rw [← ho']
      simp [Order.assign]
  · rw [Table.get?_update_ne _ _ hj] at ho'
    exact .inl ⟨o', ho', rfl⟩

/-- Every request changes the parties of orders only as it says. -/
theorem wp_places (r : Request) (d₀ : Db) :
    wp statusPolicy.around (r.tx refresh s)
      (fun _ v => ∀ d, statusPolicy.around.rely v.held v.last d → Places r d (v.pending d))
      (.start .empty d₀) := by
  -- A request that keeps the parties says nothing about them.
  have hkept : KeepsParties (r.tx refresh s) → wp statusPolicy.around (r.tx refresh s)
      (fun _ v => ∀ d, statusPolicy.around.rely v.held v.last d → Places r d (v.pending d))
      (.start .empty d₀) := by
    intro hk
    have hkeeps : Keeps statusPolicy.around (fun v : TxView => PartiesKept v.pending)
        (r.tx refresh s) :=
      .of_writes ⟨fun _ _ h _ => h, fun _ _ h _ => h⟩
        (fun v ls f hf hv _ d id => (hf (v.pending d) id).trans (hv d id)) (fun _ _ _ h => h) hk
    exact wp_mono (fun _ v hv d _ => places_of_kept (hv d)) (hkeeps _ fun _ _ => rfl)
  cases r with
  | createOrder => exact wp_mono (fun _ v hv d _ => hv d) (wp_void wp_createOrder)
  -- The courier is set on the locked row.
  | acceptOrder now b cid oid k =>
    refine wp_void ?_
    unfold acceptOrder requireActiveVerifiedCourier
    rw [wp_bind]
    refine wp_query_bind fun _ _ => wp_require_bind fun _ => ?_
    refine wp_query_bind fun _ _ => ?_
    rw [wp_require]
    intro _
    refine wp_query_bind fun _ _ => wp_require_bind fun _ => wp_require_bind fun _ => ?_
    exact wp_assignLocked rfl
  | _ => exact hkept (keepsParties_request (by simp) (by simp))

/-- Every request follows the policy of the statuses, and says what it does to the parties. -/
theorem ensures {p : Tx Request} (hp : Logged refresh s (fun _ => True) p) :
    statusPolicy.discipline.Ensures Places .empty p := by
  obtain ⟨r, -, rfl⟩ := hp
  have htables : r.tables ⊆ statusPolicy.tables := by
    intro t _
    cases t <;> decide
  exact Policy.ensures (r.writesTo refresh s) htables fun d _ =>
    wp_and (StatusProof.wp_request refresh s r d) (wp_places r d)

end LimitProof

/-! ## Counts -/

/-- `count_customer_active`, in a committed state. -/
def Db.customerActive (d : Db) (u : Id) : ℕ :=
  d.orders.count fun _ o => o.customerId = u && OrderRepository.customerActive o.status

/-- `count_courier_active`, in a committed state. -/
def Db.courierActive (d : Db) (k : Id) : ℕ :=
  d.orders.count fun _ o => o.courierId = some k && OrderRepository.courierActive o.status

/-- The limits hold, and a `NEW` order has no courier. -/
structure Limits (d : Db) : Prop where
  unassigned : ∀ o row, d.orders.get? o = some row → row.status = .new → row.courierId = none
  customers : ∀ u, d.customerActive u ≤ maxCustomerActive
  couriers : ∀ k, d.courierActive k ≤ maxCourierActive

/-- The count that a request has checked is still below the limit. -/
def belowLimits : Request → Db → Prop
  | .createOrder _ _ _ customerId _, d => d.customerActive customerId < maxCustomerActive
  | .acceptOrder _ _ _ _ courierId, d => d.courierActive courierId < maxCourierActive
  | _, _ => True

instance : ∀ (r : Request) (d : Db), Decidable (belowLimits r d)
  | .createOrder _ _ _ customerId _, d =>
    inferInstanceAs (Decidable (d.customerActive customerId < maxCustomerActive))
  | .acceptOrder _ _ _ _ courierId, d =>
    inferInstanceAs (Decidable (d.courierActive courierId < maxCourierActive))
  | .cancelOrder .., _ | .createInvoice .., _ | .cancelInvoice .., _ | .createTopup .., _
  | .payInvoice .., _ | .handleWebhook .., _ | .expireInvoice .., _ | .expireTopupIntent .., _
  | .submitDelivery .., _ | .approveOrder .., _ | .autoApprove .., _ | .raiseDispute .., _
  | .resolveDispute .., _ | .requestWithdrawal .., _ | .approveWithdrawal .., _
  | .rejectWithdrawal .., _ | .markPaid .., _ => .isTrue trivial

namespace LimitProof

/-- No legal transition leads from a status that does not count for the customer to one that
does. -/
theorem customerActive_of_moves {a b : OrderStatus} (h : a.Moves b)
    (hb : customerActive b = true) : customerActive a = true := by
  rcases h with rfl | h
  · exact hb
  · revert h hb
    cases a <;> cases b <;> decide

/-- Nor for the courier, but for the acceptance. -/
theorem courierActive_of_moves {a b : OrderStatus} (h : a.Moves b)
    (hb : courierActive b = true) : courierActive a = true ∨ a = .new := by
  rcases h with rfl | h
  · exact .inl hb
  · revert h hb
    cases a <;> cases b <;> decide

/-- No legal transition leads to `NEW`. -/
theorem eq_new_of_moves {a : OrderStatus} (h : a.Moves .new) : a = .new := by
  rcases h with h | h
  · exact h.symm
  · revert h
    cases a <;> decide

variable {r : Request} {d d' : Db}

/-- An order that the commit found, with its status. -/
theorem moves_of_get {id : Id} {o o' : Order} (hm : LegalMoves d d')
    (ho : d.orders.get? id = some o) (ho' : d'.orders.get? id = some o') :
    o.status.Moves o'.status := by
  obtain ⟨o₁, ho₁, hmove⟩ := hm id o ho
  obtain rfl : o₁ = o' := Option.some.inj (ho₁.symm.trans ho')
  exact hmove

/-- The customer's count rises by at most the new order of a creation. -/
theorem customers_of_commit (hm : LegalMoves d d') (hp : Places r d d') (u : Id) :
    d'.customerActive u ≤ d.customerActive u +
      (((created r).toList.filter fun x => x.2 = u).map Prod.fst).length := by
  refine Table.count_le fun id o' ho' hactive => ?_
  simp only [Bool.and_eq_true, decide_eq_true_eq] at hactive ⊢
  obtain ⟨rfl, hactive⟩ := hactive
  rcases hp id o' ho' with ⟨o, ho, hparties⟩ | ⟨hcreated, -⟩ | ⟨o, k, ho, -, hparties, -⟩
  · have hcustomer : o.customerId = o'.customerId := congrArg Prod.fst hparties
    exact .inr ⟨o, ho, hcustomer, customerActive_of_moves (moves_of_get hm ho ho') hactive⟩
  · exact .inl (by simp [hcreated])
  · have hcustomer : o'.customerId = o.customerId := congrArg Prod.fst hparties
    exact .inr ⟨o, ho, hcustomer.symm, customerActive_of_moves (moves_of_get hm ho ho') hactive⟩

/-- The courier's count rises by at most the order of an acceptance. -/
theorem couriers_of_commit (h : Limits d) (hm : LegalMoves d d') (hp : Places r d d') (k : Id) :
    d'.courierActive k ≤ d.courierActive k +
      (((accepted r).toList.filter fun x => x.2 = k).map Prod.fst).length := by
  refine Table.count_le fun id o' ho' hactive => ?_
  simp only [Bool.and_eq_true, decide_eq_true_eq] at hactive ⊢
  obtain ⟨hk, hactive⟩ := hactive
  rcases hp id o' ho' with ⟨o, ho, hparties⟩ | ⟨-, hnone⟩ | ⟨o, k', -, haccepted, hparties, -⟩
  · have hcourier : o.courierId = some k := (congrArg Prod.snd hparties).trans hk
    rcases courierActive_of_moves (moves_of_get hm ho ho') hactive with hold | hnew
    · exact .inr ⟨o, ho, hcourier, hold⟩
    · -- A `NEW` order has no courier.
      rw [h.unassigned id o ho hnew] at hcourier
      cases hcourier
  · rw [hnone] at hk
    cases hk
  · have hcourier : o'.courierId = some k' := congrArg Prod.snd hparties
    obtain rfl : k' = k := Option.some.inj (hcourier.symm.trans hk)
    exact .inl (by simp [haccepted])

/-- A commit that still finds its count below the limit keeps the limits. -/
theorem limits_of_commit (h : Limits d) (hm : LegalMoves d d') (hp : Places r d d')
    (hfit : belowLimits r d) : Limits d' where
  -- An order that is still new kept its row's courier, or was just created without one.
  unassigned id o' ho' hnew := by
    rcases hp id o' ho' with ⟨o, ho, hparties⟩ | ⟨-, hnone⟩ | ⟨-, -, -, -, -, hne⟩
    · have hmoves := moves_of_get hm ho ho'
      rw [hnew] at hmoves
      have hcourier : o.courierId = o'.courierId := congrArg Prod.snd hparties
      rw [← hcourier]
      exact h.unassigned id o ho (eq_new_of_moves hmoves)
    · exact hnone
    · exact absurd hnew hne
  -- Only `create_order` adds to a customer's active orders, and it has counted them.
  customers u := by
    have hle := customers_of_commit hm hp u
    have hbound := h.customers u
    cases r with
    | createOrder now confirm oid u' x =>
      by_cases hu : u' = u
      · subst hu
        have hlt : d.customerActive u' < maxCustomerActive := hfit
        simp only [created, Option.toList_some, List.filter_cons, decide_true, if_true,
          List.filter_nil, List.map_cons, List.map_nil, List.length_cons, List.length_nil] at hle
        omega
      · simp only [created, Option.toList_some, List.filter_cons, hu, decide_false,
          Bool.false_eq_true, if_false, List.filter_nil, List.map_nil, List.length_nil] at hle
        omega
    | _ =>
      simp only [created, Option.toList_none, List.filter_nil, List.map_nil, List.length_nil] at hle
      omega
  -- Only `accept_order` adds to a courier's, and it has counted them too.
  couriers k := by
    have hle := couriers_of_commit h hm hp k
    have hbound := h.couriers k
    cases r with
    | acceptOrder now b cid oid k' =>
      by_cases hk : k' = k
      · subst hk
        have hlt : d.courierActive k' < maxCourierActive := hfit
        simp only [accepted, Option.toList_some, List.filter_cons, decide_true, if_true,
          List.filter_nil, List.map_cons, List.map_nil, List.length_cons, List.length_nil] at hle
        omega
      · simp only [accepted, Option.toList_some, List.filter_cons, hk, decide_false,
          Bool.false_eq_true, if_false, List.filter_nil, List.map_nil, List.length_nil] at hle
        omega
    | _ =>
      simp only [accepted, Option.toList_none, List.filter_nil, List.map_nil, List.length_nil]
        at hle
      omega

end LimitProof

/-! ## Runs -/

/-- In every run of requests in which every creation and every acceptance commits while the count of
the actor is still below the limit, and no order is written by a session that has read another
status of it, no customer and no courier has more active orders than the limit. -/
theorem active_orders_limited (refresh : Bool) (s : Settings) (d₀ : Db) (h₀ : PaidFunded d₀)
    (hl₀ : Limits d₀) (sys : System Db Row Err Memory Request)
    (hrun : System.RunUnder (Logged refresh s fun _ => True) statusCurrent belowLimits .empty d₀
      sys) :
    (∀ u, sys.db.customerActive u ≤ maxCustomerActive) ∧
      ∀ k, sys.db.courierActive k ≤ maxCourierActive := by
  have hlimits : Limits sys.db := by
    induction hrun with
    | init => exact hl₀
    | begin _ _ ih => exact ih
    | abort _ _ _ ih => exact ih
    | step i hrun hg hfit hs ih =>
      have hgood := Discipline.good_of_run (S := statusPolicy.discipline)
        (fun p hp => LimitProof.ensures hp) h₀ hrun.run
      obtain ⟨t, x, ht, -, ⟨hdb, -⟩ | ⟨r, hret, -, hm, hp⟩⟩ := (hgood.step hg hs).2
      · rw [hdb]
        exact ih
      · exact LimitProof.limits_of_commit ih hm hp (hfit t r ht hret)
  exact ⟨hlimits.customers, hlimits.couriers⟩

/-- An order that nobody has accepted. -/
def Sample.offer : Order :=
  { order .new with courierId := none, totalAmount := 0, assignedAt := none }

/-- A customer with three orders that nobody has accepted. -/
def Sample.threeOrders : Db :=
  { accounts (wallets 0 0 0) with
    orders := ⟨[(401, offer), (402, offer), (403, offer)], by simp⟩ }

/-- A customer with four orders that nobody has accepted. -/
def Sample.fourOrders : Db :=
  { accounts (wallets 0 0 0) with
    orders := ⟨[(401, offer), (402, offer), (403, offer), (404, offer)], by simp⟩ }

/-- A small database of open offers is within the limits. -/
theorem Sample.limits_of_offers {d : Db} (hoffers : ∀ r ∈ d.orders.rows, r.2.courierId = none)
    (hlength : d.orders.rows.length ≤ maxCustomerActive) : Limits d where
  unassigned o row hrow _ := hoffers (o, row) (Table.get?_eq_some.mp hrow)
  customers u := List.countP_le_length.trans hlength
  couriers k := by
    have hzero : d.courierActive k = 0 := by
      rw [Db.courierActive, Table.count, List.countP_eq_zero]
      intro r hr
      simp [hoffers r hr]
    omega

/-- There is no invoice, so none is paid. -/
theorem Sample.threeOrders_paidFunded : PaidFunded threeOrders := by
  intro id i hi
  simp [threeOrders, accounts] at hi

/-- There is no invoice, so none is paid. -/
theorem Sample.fourOrders_paidFunded : PaidFunded fourOrders := by
  intro id i hi
  simp [fourOrders, accounts] at hi

/-- Three orders are within the limits. -/
theorem Sample.threeOrders_limits : Limits threeOrders :=
  limits_of_offers (by decide) (by decide)

/-- Four orders are within the limits. -/
theorem Sample.fourOrders_limits : Limits fourOrders :=
  limits_of_offers (by decide) (by decide)

/-- The customer asks for one more order. -/
def Sample.order5 (orderId : Id) : Request :=
  .createOrder 0 (fun _ => .ok ()) orderId 1 ⟨24, 46, 10, []⟩

/-- A fourth and a fifth order at once: both are counted before either commits, and the second one
commits while the count is still below the limit. -/
theorem active_orders_limited_fifth :
    ∃ sys : System Db Row Err Memory Request,
      System.RunUnder (Logged true Sample.settings fun _ => True) statusCurrent belowLimits .empty
        Sample.threeOrders sys ∧
      sys.db.customerActive 1 = 5 ∧ ∀ u, sys.db.customerActive u ≤ 5 := by
  obtain ⟨sys, hrun, hq⟩ := System.RunUnder.exists_of_play
    (Logged true Sample.settings fun _ => True) statusCurrent belowLimits .empty Sample.threeOrders
    ([.start ((Sample.order5 405).logged true Sample.settings),
      .start ((Sample.order5 406).logged true Sample.settings), .step 0, .step 1] ++
      List.replicate 2 (.step 0) ++ List.replicate 2 (.step 1))
    (fun sys => sys.db.customerActive 1 = 5)
    (by
      intro p hp
      simp only [List.mem_append, List.mem_cons, List.mem_replicate, System.Event.start.injEq,
        List.not_mem_nil, reduceCtorEq, and_false, or_false] at hp
      rcases hp with rfl | rfl
      · exact ⟨Sample.order5 405, trivial, rfl⟩
      · exact ⟨Sample.order5 406, trivial, rfl⟩)
    (by decide +kernel)
  have h := active_orders_limited true Sample.settings Sample.threeOrders
    Sample.threeOrders_paidFunded Sample.threeOrders_limits sys hrun
  exact ⟨sys, hrun, of_decide_eq_true hq, h.1⟩

/-- Two orders are created at once. Both counts find four orders, and both rows are inserted. -/
theorem concurrent_creations_exceed_limit :
    PaidFunded Sample.fourOrders ∧ Limits Sample.fourOrders ∧
    ∃ sys : System Db Row Err Memory Request,
      System.Run (Logged true Sample.settings fun _ => True) (System.always Db Row Memory) .empty
        Sample.fourOrders sys ∧
      ¬sys.db.customerActive 1 ≤ maxCustomerActive := by
  refine ⟨Sample.fourOrders_paidFunded, Sample.fourOrders_limits, ?_⟩
  obtain ⟨sys, hrun, hq⟩ := System.Run.exists_of_play
    (Logged true Sample.settings fun _ => True) (System.always Db Row Memory) .empty
    Sample.fourOrders
    ([.start ((Sample.order5 405).logged true Sample.settings),
      .start ((Sample.order5 406).logged true Sample.settings), .step 0, .step 1] ++
      List.replicate 2 (.step 0) ++ List.replicate 2 (.step 1))
    (fun sys => sys.db.customerActive 1 = 6)
    (by
      intro p hp
      simp only [List.mem_append, List.mem_cons, List.mem_replicate, System.Event.start.injEq,
        List.not_mem_nil, reduceCtorEq, and_false, or_false] at hp
      rcases hp with rfl | rfl
      · exact ⟨Sample.order5 405, trivial, rfl⟩
      · exact ⟨Sample.order5 406, trivial, rfl⟩)
    (by decide +kernel)
  refine ⟨sys, hrun, ?_⟩
  rw [of_decide_eq_true hq]
  decide

end Giftly
