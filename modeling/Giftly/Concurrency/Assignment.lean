import Giftly.Concurrency.Rules
import Giftly.Seed

/-!
# Acceptance of an order

An order goes to one courier. `accept_order` reads the order under its row lock and asks for the
status `NEW`, so of two acceptances the second one sees the row that the first has committed; the
Redis lock around it is not needed, and here it may be granted to anyone. A cancellation reads the
order without a lock, but its `UPDATE` writes no other column than the status and the reason.

The conversation of an order is created in the transaction that assigns the order, and
`AssignOk.conversation` ties it to the courier of the order.
-/

namespace Giftly

open Store

/-- The courier of an order, when it is assigned. -/
def Db.courierOf (d : Db) (o : Id) : Option Id := (d.orders.get? o).bind (·.courierId)

/-- Orders and conversations agree on the courier. -/
structure AssignOk (d : Db) : Prop where
  /-- An order that is still `NEW` has no courier. -/
  unassigned : ∀ o row, d.orders.get? o = some row → row.status = .new → row.courierId = none
  /-- A conversation is between the parties of its order. -/
  conversation : ∀ id c, d.conversations.get? id = some c → d.courierOf c.orderId = some c.courierId
  /-- An order with a courier has a conversation. -/
  assigned : ∀ o k, d.courierOf o = some k → ∃ id c, d.conversations.get? id = some c ∧ c.orderId = o
  /-- `uq_conversations_order`. -/
  sole : ∀ id id' c c', d.conversations.get? id = some c → d.conversations.get? id' = some c' →
    c.orderId = c'.orderId → id = id'

/-- A courier, once set, stays. -/
def CourierStays (d d' : Db) : Prop := ∀ o k, d.courierOf o = some k → d'.courierOf o = some k

/-- The policy under which an order keeps its courier. -/
def assignPolicy : Policy where
  tables := [.orders, .conversations]
  inv := AssignOk
  grow := CourierStays
  grow_refl _ _ _ h := h
  grow_trans h₁ h₂ o k h := h₂ o k (h₁ o k h)
  guar := CourierStays
  guar_refl _ _ _ h := h

namespace AssignProof

variable {now : Time} {v : TxView}

/-- A commit whose writes keep `AssignOk` and every courier is safe. -/
theorem safe_of_commit
    (h : ∀ d, assignPolicy.around.rely v.held v.last d → AssignOk d →
      AssignOk (v.pending d) ∧ CourierStays d (v.pending d)) : assignPolicy.Safe v := by
  intro d hd
  obtain ⟨hok, hstays⟩ := h d hd hd.1
  exact ⟨hok, hstays, hstays, fun _ _ => trivial⟩

/-! ## Writes -/

/-- An `UPDATE` that leaves the courier and does not make an order `NEW`. -/
theorem ok_of_updateOrder {d : Db} {id : Id} {f : Order → Order} (h : AssignOk d)
    (hcourier : ∀ o, (f o).courierId = o.courierId) (hstatus : ∀ o, (f o).status ≠ .new) :
    AssignOk (d.updateOrder id f) ∧ CourierStays d (d.updateOrder id f) := by
  -- Every order has the courier that it had.
  have hsame : ∀ o, (d.updateOrder id f).courierOf o = d.courierOf o := by
    intro o
    unfold Db.courierOf Db.updateOrder
    simp only [Table.get?_update]
    split_ifs
    · cases d.orders.get? o with
      | none => rfl
      | some row => exact hcourier row
    · rfl
  refine ⟨⟨?_, ?_, ?_, h.sole⟩, fun o k hk => (hsame o).trans hk⟩
  · intro o row hrow hnew
    simp only [Db.updateOrder, Table.get?_update] at hrow
    split_ifs at hrow with ho
    · obtain ⟨row', -, rfl⟩ := Option.map_eq_some_iff.mp hrow
      exact absurd hnew (hstatus row')
    · exact h.unassigned o row hrow hnew
  · intro i c hc
    rw [hsame]
    exact h.conversation i c hc
  · intro o k hk
    rw [hsame] at hk
    exact h.assigned o k hk

/-- A new order has neither a courier nor a conversation. -/
theorem ok_of_insertOrder {d : Db} {id : Id} {row : Order} (h : AssignOk d)
    (hnone : d.orders.get? id = none) (hcourier : row.courierId = none) :
    AssignOk (d.insertOrder id row) ∧ CourierStays d (d.insertOrder id row) := by
  have hself : d.courierOf id = none := by rw [Db.courierOf, hnone, Option.bind_none]
  -- The new order has no courier, nor had its id one before.
  have hsame : ∀ o, (d.insertOrder id row).courierOf o = d.courierOf o := by
    intro o
    by_cases ho : o = id
    · subst ho
      rw [hself, Db.courierOf, Db.insertOrder, Table.get?_insert_self _ _ hnone, Option.bind_some,
        hcourier]
    · rw [Db.courierOf, Db.insertOrder, Table.get?_insert_ne _ _ ho, Db.courierOf]
  refine ⟨⟨?_, ?_, ?_, h.sole⟩, fun o k hk => (hsame o).trans hk⟩
  · intro o row' hrow hnew
    by_cases ho : o = id
    · subst ho
      rw [Db.insertOrder, Table.get?_insert_self _ _ hnone, Option.some.injEq] at hrow
      rw [← hrow, hcourier]
    · rw [Db.insertOrder, Table.get?_insert_ne _ _ ho] at hrow
      exact h.unassigned o row' hrow hnew
  · intro i c hc
    rw [hsame]
    exact h.conversation i c hc
  · intro o k hk
    rw [hsame] at hk
    exact h.assigned o k hk

/-- The assignment of an order without a courier, and its new conversation. -/
theorem ok_of_assign {d : Db} {oid cid k : Id} {row : Order} {f : Order → Order} {c : Conversation}
    (h : AssignOk d) (hrow : d.orders.get? oid = some row) (hnone : row.courierId = none)
    (hfree : d.conversations.get? cid = none) (hcourier : (f row).courierId = some k)
    (hstatus : (f row).status ≠ .new) (hc : c.orderId = oid ∧ c.courierId = k) :
    AssignOk ((d.updateOrder oid f).insertConversation cid c) ∧
      CourierStays d ((d.updateOrder oid f).insertConversation cid c) ∧
      ((d.updateOrder oid f).insertConversation cid c).courierOf oid = some k := by
  have hbefore : d.courierOf oid = none := by rw [Db.courierOf, hrow, Option.bind_some, hnone]
  have hself : ((d.updateOrder oid f).insertConversation cid c).courierOf oid = some k := by
    simp only [Db.courierOf, Db.insertConversation, Db.updateOrder, Table.get?_update_self, hrow,
      Option.map_some, Option.bind_some, hcourier]
  have hother : ∀ o, o ≠ oid →
      ((d.updateOrder oid f).insertConversation cid c).courierOf o = d.courierOf o := by
    intro o ho
    simp only [Db.courierOf, Db.insertConversation, Db.updateOrder, Table.get?_update_ne _ _ ho]
  -- No conversation was there for the order, since it had no courier.
  have hfresh : ∀ i c', d.conversations.get? i = some c' → c'.orderId ≠ oid := by
    intro i c' hc' heq
    have := h.conversation i c' hc'
    rw [heq, hbefore] at this
    cases this
  have hinsert : ((d.updateOrder oid f).insertConversation cid c).conversations.get? cid = some c :=
    Table.get?_insert_self _ _ hfree
  have hconv : ∀ i c', ((d.updateOrder oid f).insertConversation cid c).conversations.get? i =
      some c' → (i = cid ∧ c' = c) ∨ (i ≠ cid ∧ d.conversations.get? i = some c') := by
    intro i c' hc'
    by_cases hi : i = cid
    · subst hi
      rw [hinsert, Option.some.injEq] at hc'
      exact .inl ⟨rfl, hc'.symm⟩
    · rw [Db.insertConversation, Table.get?_insert_ne _ _ hi] at hc'
      exact .inr ⟨hi, hc'⟩
  refine ⟨⟨?_, ?_, ?_, ?_⟩, ?_, hself⟩
  · intro o row' hrow' hnew
    simp only [Db.insertConversation, Db.updateOrder] at hrow'
    by_cases ho : o = oid
    · subst ho
      rw [Table.get?_update_self, hrow, Option.map_some, Option.some.injEq] at hrow'
      rw [← hrow'] at hnew
      exact absurd hnew hstatus
    · rw [Table.get?_update_ne _ _ ho] at hrow'
      exact h.unassigned o row' hrow' hnew
  · intro i c' hc'
    rcases hconv i c' hc' with ⟨-, rfl⟩ | ⟨-, hc'⟩
    · rw [hc.1, hc.2]
      exact hself
    · rw [hother _ (hfresh i c' hc')]
      exact h.conversation i c' hc'
  · intro o k' hk'
    by_cases ho : o = oid
    · subst ho
      exact ⟨cid, c, hinsert, hc.1⟩
    · rw [hother o ho] at hk'
      obtain ⟨i, c', hc', heq⟩ := h.assigned o k' hk'
      have hi : i ≠ cid := by
        rintro rfl
        rw [hfree] at hc'
        cases hc'
      exact ⟨i, c', by rw [Db.insertConversation, Table.get?_insert_ne _ _ hi]; exact hc', heq⟩
  · intro i i' c₁ c₂ h₁ h₂ heq
    rcases hconv i c₁ h₁ with ⟨hi, rfl⟩ | ⟨-, hold₁⟩
    · rcases hconv i' c₂ h₂ with ⟨hi', -⟩ | ⟨-, hold₂⟩
      · rw [hi, hi']
      · exact absurd (heq.symm.trans hc.1) (hfresh i' c₂ hold₂)
    · rcases hconv i' c₂ h₂ with ⟨-, rfl⟩ | ⟨-, hold₂⟩
      · exact absurd (heq.trans hc.1) (hfresh i c₁ hold₁)
      · exact h.sole i i' c₁ c₂ hold₁ hold₂ heq
  · intro o k' hk'
    by_cases ho : o = oid
    · rw [ho, hbefore] at hk'
      cases hk'
    · rw [hother o ho]
      exact hk'

/-! ## Requests -/

/-- What a request owes at its commit: a safe state, and for an acceptance an order that had no
courier and has one now. -/
def Owed (r : Option Id) (v : TxView) : Prop :=
  assignPolicy.Safe v ∧ ∀ d, assignPolicy.around.rely v.held v.last d →
    ∀ o ∈ r, d.courierOf o = none ∧ ((v.pending d).courierOf o).isSome = true

/-- A new order has no courier, and no conversation refers to it. -/
theorem wp_createOrder {confirm : Text → Except Err Unit} {oid u : Id}
    {x : OrderService.NewOrderInput} {d₀ : Db} :
    wp assignPolicy.around (OrderService.createOrder now confirm oid u x) (fun _ v => Owed none v)
      (.start .empty d₀) := by
  unfold OrderService.createOrder
  refine wp_require_bind fun _ => wp_require_bind fun _ => wp_require_bind fun _ => ?_
  refine wp_query_bind fun d₁ _ => wp_require_bind fun _ => wp_ofExcept_bind fun _ _ => ?_
  unfold OrderRepository.create
  rw [wp_bind]
  refine wp_insertRow fun d₂ _ hfree _ => ?_
  refine ⟨safe_of_commit fun d hd hok => ?_, fun _ _ _ ho => absurd ho (Option.not_mem_none _)⟩
  -- The new key is locked, so it is free at the commit too.
  have hnone : d.orders.get? oid = none :=
    (Policy.rely_order hd List.mem_cons_self).trans hfree
  exact ok_of_insertOrder hok hnone rfl

/-- A cancellation assigns no courier. -/
theorem wp_cancelOrder {oid u : Id} {reason : Option Text} {d₀ : Db} :
    wp assignPolicy.around (OrderService.cancelOrder now oid u reason) (fun _ v => Owed none v)
      (.start .empty d₀) := by
  unfold OrderService.cancelOrder
  rw [wp_bind]
  refine wp_getOrderForActor (fun _ _ => trivial) fun d₁ o _ _ => ?_
  refine wp_assertTransition_bind fun hmove => ?_
  have hne : ({ o with status := .cancelled, cancelledReason := reason } : Order) ≠ o := by
    intro heq
    exact ne_of_canTransition hmove (congrArg Order.status heq)
  rw [wp_bind]
  refine wp_flushOrder hne fun d₂ row _ _ _ => ?_
  refine ⟨safe_of_commit fun d hd hok => ?_, fun _ _ _ ho => absurd ho (Option.not_mem_none _)⟩
  have hstatus : o.status ≠ .cancelled := (ne_of_canTransition hmove).symm
  refine ok_of_updateOrder hok (fun row => ?_) fun row => ?_
  · -- The column was not changed by the session, so the `UPDATE` leaves it out.
    simp [Order.assign, assign]
  · simp [Order.assign, assign, Ne.symm hstatus]

/-- The assignment of a locked order sets its courier and opens the conversation of the two. -/
theorem wp_assignLocked {cid oid k : Id} (hv : v.pending = id) :
    wp assignPolicy.around (OrderService.assignLocked now cid oid k) (fun _ v => Owed (some oid) v)
      v := by
  unfold OrderService.assignLocked
  rw [wp_bind]
  refine wp_lockOrder (fun _ _ => trivial) fun d₁ o hd₁ _ ho => ?_
  rw [hv] at ho
  refine wp_require_bind fun hnew => wp_assertTransition_bind fun _ => ?_
  have hcourier : o.courierId = none := hd₁.1.unassigned oid o ho hnew
  have hne : ({ o with courierId := some k, status := .assigned, assignedAt := some now } : Order) ≠
      o := by
    intro heq
    have := congrArg Order.courierId heq
    rw [hcourier] at this
    cases this
  rw [wp_bind]
  refine wp_flushOrder hne fun d₂ row hd₂ _ _ => ?_
  rw [wp_bind]
  refine wp_insertRow fun d₃ hd₃ hfree _ => ?_
  -- The lock of the order has been held since its row was read.
  have hrow : ∀ d, assignPolicy.around.rely ([.conversation cid, .conversationOf oid] ++
      (.order oid :: .order oid :: v.held)) d₃ d → d.orders.get? oid = some o := by
    intro d hd
    have h₂ : d₂.orders.get? oid = some o := (Policy.rely_order hd₂ List.mem_cons_self).trans ho
    have h₃ : d₃.orders.get? oid = some o := (Policy.rely_order hd₃ List.mem_cons_self).trans h₂
    exact (Policy.rely_order hd (by simp)).trans h₃
  have hconversation : ∀ d, assignPolicy.around.rely ([.conversation cid, .conversationOf oid] ++
      (.order oid :: .order oid :: v.held)) d₃ d → d.conversations.get? cid = none := by
    intro d hd
    have hsame : d.conversations.get? cid = d₃.conversations.get? cid :=
      Policy.rely_same hd List.mem_cons_self
    rw [hv] at hfree
    exact hsame.trans hfree
  have hcommit := fun d hd (hok : AssignOk d) => ok_of_assign (k := k)
    (f := o.assign { o with courierId := some k, status := .assigned, assignedAt := some now })
    (c := ⟨oid, o.customerId, k⟩) hok (hrow d hd) hcourier (hconversation d hd)
    (by simp [Order.assign, assign, hcourier]) (by simp [Order.assign, assign, hnew]) ⟨rfl, rfl⟩
  refine ⟨safe_of_commit fun d hd hok => ?_, fun d hd j hj => ?_⟩
  · obtain ⟨hok', hstays, -⟩ := hcommit d hd hok
    simp only [hv]
    exact ⟨hok', hstays⟩
  · obtain ⟨-, -, hself⟩ := hcommit d hd hd.1
    obtain rfl : oid = j := Option.some.inj hj
    refine ⟨by rw [Db.courierOf, hrow d hd, Option.bind_some, hcourier], ?_⟩
    simp only [hv]
    exact Option.isSome_iff_exists.mpr ⟨k, hself⟩

/-- `accept_order` owes the assignment of the order to its courier. -/
theorem wp_acceptOrder {granted : Bool} {cid oid k : Id} {d₀ : Db} :
    wp assignPolicy.around (OrderService.acceptOrder now granted cid oid k)
      (fun _ v => Owed (some oid) v) (.start .empty d₀) := by
  unfold OrderService.acceptOrder OrderService.requireActiveVerifiedCourier
  rw [wp_bind]
  refine wp_query_bind fun _ _ => wp_require_bind fun _ => ?_
  refine wp_query_bind fun _ _ => ?_
  rw [wp_require]
  intro _
  refine wp_query_bind fun _ _ => wp_require_bind fun _ => wp_require_bind fun _ => ?_
  exact wp_assignLocked rfl

end AssignProof

/-! ## Runs -/

/-- The requests that create, accept or cancel an order. -/
def Request.assigns : Request → Prop
  | .createOrder .. | .acceptOrder .. | .cancelOrder .. => True
  | _ => False

/-- The order that a request accepts. -/
def Request.accepts : Request → Option Id
  | .acceptOrder _ _ _ orderId _ => some orderId
  | _ => none

/-- Whether an order has a courier, as a number. -/
def Db.couriers01 (o : Id) (d : Db) : ℕ := if (d.courierOf o).isSome then 1 else 0

/-- Whether a request accepts an order, as a number. -/
def Request.accepts01 (o : Id) (r : Request) : ℕ := if r.accepts = some o then 1 else 0

/-- Every such request follows the policy, and an acceptance is a first one. -/
theorem AssignProof.ensures {refresh : Bool} {s : Settings} {p : Tx Request} (o : Id)
    (hp : Logged refresh s Request.assigns p) :
    assignPolicy.discipline.Ensures
      (fun r d d' => d.couriers01 o + r.accepts01 o ≤ d'.couriers01 o) .empty p := by
  obtain ⟨r, hr, rfl⟩ := hp
  -- What each request owes: an acceptance a first courier, the others none.
  have howed : ∀ d, wp assignPolicy.around (r.tx refresh s) (fun _ v => Owed r.accepts v)
      (.start .empty d) := by
    intro d
    cases r with
    | createOrder => exact wp_void wp_createOrder
    | acceptOrder => exact wp_void wp_acceptOrder
    | cancelOrder => exact wp_void wp_cancelOrder
    | _ => exact hr.elim
  have htables : r.tables ⊆ assignPolicy.tables := by
    cases r <;> first
      | exact hr.elim
      | simp [Request.tables, assignPolicy]
  refine Policy.ensures (r.writesTo refresh s) htables fun d _ => ?_
  refine wp_mono (fun _ v hv => ⟨hv.1, fun d' hd' => ?_⟩) (howed d)
  unfold Db.couriers01 Request.accepts01
  by_cases ho : r.accepts = some o
  · obtain ⟨hnone, hsome⟩ := hv.2 d' hd' o ho
    simp [hnone, hsome, ho]
  · -- Any other commit leaves the courier.
    have hstays := (hv.1 d' hd').2.1 o
    cases hk : d'.courierOf o with
    | none => simp [ho]
    | some k => simp [ho, hstays k hk]

/-- In every run of creations, acceptances and cancellations of orders, with the Redis lock granted
to anyone at any time: no step changes the courier of an order that has one, at most one acceptance
of an order succeeds, and an order with a courier has exactly one conversation, with this courier. -/
theorem order_assigned_once (refresh : Bool) (s : Settings) (d₀ : Db) (h₀ : AssignOk d₀)
    (sys : System Db Row Err Memory Request)
    (hrun : System.Run (Logged refresh s Request.assigns) (System.always Db Row Memory) .empty d₀
      sys) (o : Id) :
    (∀ i sys' k, sys.step i = some sys' → sys.db.courierOf o = some k →
      sys'.db.courierOf o = some k) ∧
    (∀ (i j : ℕ) (r r' : Request), sys.slots[i]? = some (.committed r) →
      sys.slots[j]? = some (.committed r') → r.accepts = some o → r'.accepts = some o → i = j) ∧
    ∀ k, sys.db.courierOf o = some k →
      ∃ id c, sys.db.conversations.get? id = some c ∧ c.orderId = o ∧ c.courierId = k ∧
        ∀ id' c', sys.db.conversations.get? id' = some c' → c'.orderId = o → id' = id := by
  have hgood := Discipline.good_of_run (S := assignPolicy.discipline)
    (fun p hp => AssignProof.ensures o hp) h₀ hrun
  have hok : AssignOk sys.db := hgood.inv
  refine ⟨fun i sys' k hstep hk => ?_, fun i j r r' hi hj hr hr' => ?_, fun k hk => ?_⟩
  · -- An assignment stays: a step that commits nothing leaves the tables, a commit keeps the
    -- courier.
    obtain ⟨t, x, -, -, ⟨hdb, -⟩ | ⟨r, -, -, hstays, -⟩⟩ :=
      (hgood.step (fun _ _ _ _ => trivial) hstep).2
    · rw [hdb]
      exact hk
    · exact hstays o k hk
  · -- Each committed acceptance has weight one, and together they weigh at most the order's
    -- courier.
    have hweight := Discipline.weight_of_run (S := assignPolicy.discipline)
      (fun p hp => AssignProof.ensures o hp) h₀ hrun
    have hbound : sys.db.couriers01 o ≤ 1 := by
      unfold Db.couriers01
      split_ifs <;> omega
    have hone : sys.weight (Request.accepts01 o) ≤ 1 := by omega
    refine Discipline.eq_of_weight_le_one hone hi hj ?_ ?_
    · simp [Request.accepts01, hr]
    · simp [Request.accepts01, hr']
  · -- The conversation of the assignment.
    obtain ⟨id, c, hc, ho⟩ := hok.assigned o k hk
    have hcourier := hok.conversation id c hc
    rw [ho, hk, Option.some.injEq] at hcourier
    exact ⟨id, c, hc, ho, hcourier.symm, fun id' c' hc' ho' =>
      hok.sole id' id c' c hc' hc (ho'.trans ho.symm)⟩

/-- A `NEW` order of the customer, and two couriers who may accept it. -/
def Sample.offered : Db :=
  { accounts (wallets 0 0 0) with
    users := ⟨[(1, ⟨.customer, .active⟩), (2, ⟨.courier, .active⟩), (4, ⟨.courier, .active⟩)],
      by decide⟩
    couriers := ⟨[(2, ⟨true⟩), (4, ⟨true⟩)], by decide⟩
    orders := ⟨[(401, { order .new with courierId := none, totalAmount := 0, assignedAt := none })],
      by simp⟩ }

/-- The offered order has neither a courier nor a conversation. -/
theorem Sample.offered_assignOk : AssignOk offered where
  unassigned o row hrow hnew := by
    have hrows : ∀ r ∈ offered.orders.rows, r.2.courierId = none := by decide
    exact hrows (o, row) (Table.get?_eq_some.mp hrow)
  conversation id c hc := by simp [offered, accounts] at hc
  assigned o k hk := by
    have hrows : ∀ r ∈ offered.orders.rows, r.2.courierId = none := by decide
    obtain ⟨row, hrow, hcourier⟩ := Option.bind_eq_some_iff.mp hk
    rw [hrows (o, row) (Table.get?_eq_some.mp hrow)] at hcourier
    cases hcourier
  sole id id' c c' hc := by simp [offered, accounts] at hc

/-- The acceptance of the order by a courier, with the Redis lock granted. -/
def Sample.accept (conversationId courierId : Id) : Tx Request :=
  Request.logged true settings (.acceptOrder 0 true conversationId 401 courierId)

/-- Two couriers accept the order at once, and the first to lock it gets it. -/
theorem order_assigned_once_race :
    ∃ sys : System Db Row Err Memory Request,
      System.Run (Logged true Sample.settings Request.assigns) (System.always Db Row Memory) .empty
        Sample.offered sys ∧
      sys.db.courierOf 401 = some 4 ∧
      ∃ id c, sys.db.conversations.get? id = some c ∧ c.orderId = 401 ∧ c.courierId = 4 := by
  obtain ⟨sys, hrun, hq⟩ := System.Run.exists_of_play
    (Logged true Sample.settings Request.assigns) (System.always Db Row Memory) .empty
    Sample.offered
    -- The first courier reads, the second locks and commits, and the first is refused.
    ([.start (Sample.accept 501 2), .start (Sample.accept 502 4)] ++ List.replicate 3 (.step 0) ++
      List.replicate 7 (.step 1) ++ List.replicate 2 (.step 0))
    (fun sys => sys.db.courierOf 401 = some 4)
    (by
      intro p hp
      simp only [List.mem_append, List.mem_cons, List.mem_replicate, System.Event.start.injEq,
        List.not_mem_nil, reduceCtorEq, and_false, or_false] at hp
      rcases hp with rfl | rfl
      · exact ⟨.acceptOrder 0 true 501 401 2, trivial, rfl⟩
      · exact ⟨.acceptOrder 0 true 502 401 4, trivial, rfl⟩)
    (by decide +kernel)
  have hcourier : sys.db.courierOf 401 = some 4 := of_decide_eq_true hq
  have h := order_assigned_once true Sample.settings Sample.offered Sample.offered_assignOk sys hrun
    401
  obtain ⟨id, c, hc, ho, hk, -⟩ := h.2.2 4 hcourier
  exact ⟨sys, hrun, hcourier, id, c, hc, ho, hk⟩

end Giftly
