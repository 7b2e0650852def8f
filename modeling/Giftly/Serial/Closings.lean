import Giftly.Serial.Escrow

/-!
# How orders are closed

`Closing b r b'` says everything that `raise_dispute`, `approve_order`, `auto_approve` and
`resolve_dispute` can do to the books when they run alone and commit. The group that pays out the
escrow is given by the rows that the request leaves: the customer and the courier of the order, its
`courier_payout_amount`, and the tax and the total of its paid invoice. An approval pays out as a
dispute that is resolved for the courier does.
-/

namespace Giftly

open Store OrderState
open WalletRepository MoneyService

namespace Books

/-- A wallet is a user's. -/
def Owns (b : Books) (walletId userId : Id) : Prop :=
  ∃ w, b.wallets.get? walletId = some w ∧ w.userId = some userId

/-- The wallet that is found for a user is the user's. -/
theorem owns_of_walletOf {b : Books} {u wid : Id} {w : Wallet} (h : b.walletOf u = some (wid, w)) :
    b.Owns wid u := by
  obtain ⟨hw, howner⟩ := Table.find?_eq_some h
  exact ⟨w, hw, by simpa using howner⟩

/-- The group that pays out the escrow of an order, which is closed as `o`, for an outcome. -/
inductive PayoutLegs (b : Books) (oid iid : Id) (o : Order) (i : Invoice) :
    DisputeStatus → List Leg → Prop
  | released {e k wid t r} (hst : o.status = .completed) (hk : o.courierId = some k)
      (hw : b.Owns wid k) (he : b.IsSystem .systemEscrow e) (ht : b.IsSystem .systemTaxPayable t)
      (hr : b.IsSystem .systemRevenue r) (hn : 0 ≤ o.courierPayoutAmount) :
      PayoutLegs b oid iid o i .resolvedCourier
        (releaseLegs oid iid e wid t r i.totalAmount o.courierPayoutAmount i.taxAmount
          (i.totalAmount - o.courierPayoutAmount - i.taxAmount))
  | refunded {e wid} (hst : o.status = .refunded) (hw : b.Owns wid o.customerId)
      (he : b.IsSystem .systemEscrow e) :
      PayoutLegs b oid iid o i .resolvedCustomer (refundLegs oid iid e wid i.totalAmount)
  | split {e k kid uid} (hst : o.status = .completed) (hk : o.courierId = some k)
      (hkw : b.Owns kid k) (huw : b.Owns uid o.customerId) (he : b.IsSystem .systemEscrow e)
      (hn : 0 ≤ o.courierPayoutAmount ∧ o.courierPayoutAmount ≤ i.totalAmount) :
      PayoutLegs b oid iid o i .resolvedSplit
        (splitLegs oid iid e kid uid i.totalAmount o.courierPayoutAmount
          (i.totalAmount - o.courierPayoutAmount))

/-- The escrow of an order was paid out, or has been before. -/
def Closes (c oid iid : Id) (o : Order) (i : Invoice) (outcome : DisputeStatus) (b b' : Books) :
    Prop :=
  ((∃ key ∈ payoutKeys oid, key ∈ ledgerKeys b.transactions) ∧ b' = b) ∨
  ∃ legs, b.PayoutLegs oid iid o i outcome legs ∧ Posts c legs b b'

/-- A payout changes none of the deals. -/
theorem Closes.same {b b' : Books} {c oid iid : Id} {o : Order} {i : Invoice}
    {outcome : DisputeStatus} (h : b.Closes c oid iid o i outcome b') : b.SameDeals b' := by
  rcases h with ⟨-, rfl⟩ | ⟨legs, -, hp⟩
  · exact .refl b'
  · exact hp.same

/-- The key of a payout. -/
theorem PayoutLegs.keys {b : Books} {oid iid : Id} {o : Order} {i : Invoice}
    {outcome : DisputeStatus} {legs : List Leg} (h : b.PayoutLegs oid iid o i outcome legs) :
    ∃ key ∈ payoutKeys oid, legKeys legs = [key] := by
  cases h with
  | released => exact ⟨_, by simp [payoutKeys], legKeys_releaseLegs⟩
  | refunded => exact ⟨_, by simp [payoutKeys], legKeys_refundLegs⟩
  | split => exact ⟨_, by simp [payoutKeys], legKeys_splitLegs⟩

end Books

/-- A request that opens or closes the case of an order. -/
def Request.closes : Request → Bool
  | .raiseDispute .. | .approveOrder .. | .autoApprove .. | .resolveDispute .. => true
  | _ => false

/-- A request that completes an order as its customer or the worker does. -/
inductive Request.Completes (oid : Id) : Request → Prop
  | approve {now c u} : Completes oid (.approveOrder now c oid u)
  | auto {now c} : Completes oid (.autoApprove now c oid)

/-- What a request that closes an order and commits alone has done to the books `b`. -/
inductive Closing (b : Books) : Request → Books → Prop
  | idle {r} : Closing b r b
  | raised {now xid oid u why o x} (ho : b.orders.get? oid = some o)
      (ht : canTransition o.status .disputed = true) (hfree : b.disputes.get? xid = none)
      (hsole : ∀ k y, b.disputes.get? k = some y → y.orderId ≠ oid)
      (hx : x.orderId = oid ∧ x.status = .open) :
      Closing b (.raiseDispute now xid oid u why)
        ((b.setOrder oid { o with status := .disputed }).setDispute xid x)
  | completed {r now c oid iid o o' i b₁} (hr : r.Completes oid) (ho : b.orders.get? oid = some o)
      (ht : canTransition o.status .completed = true) (hi : b.invoices.get? iid = some i)
      (hio : i.orderId = oid) (hst : i.status = .paid)
      (hpay : b.Closes c oid iid o' i .resolvedCourier b₁)
      (ho' : o'.status = .completed ∧ o'.frozen = o.frozen ∧ o'.courierId = o.courierId)
      (hcheck : o'.check now = none) : Closing b r (b₁.setOrder oid o')
  | resolved {now c xid x x' a outcome note n iid o o' i b₁} (hx : b.disputes.get? xid = some x)
      (hopen : x.status = .open) (ho : b.orders.get? x.orderId = some o)
      (ht : canTransition o.status o'.status = true) (hi : b.invoices.get? iid = some i)
      (hio : i.orderId = x.orderId) (hst : i.status = .paid)
      (hpay : b.Closes c x.orderId iid o' i outcome b₁)
      (hfinal : o'.status = if outcome = .resolvedCustomer then .refunded else .completed)
      (ho' : o'.frozen = o.frozen ∧ o'.courierId = o.courierId) (hcheck : o'.check now = none)
      (hx' : x'.orderId = x.orderId ∧ x'.status = outcome) :
      Closing b (.resolveDispute now c xid a outcome note n)
        ((b₁.setOrder x.orderId o').setDispute xid x')

/-! ## The services alone -/

section Services

variable {m : Memory} {d : Db} {now : Time} {s : Settings} {refresh : Bool}

/-- The tax of a settlement is the tax of the invoice. -/
theorem tax_of_computeSettlement {net fee total rate : Dec} {tax : ℤ} {x : Settlement}
    (h : computeSettlement net fee (.cents tax) total rate = .ok x) : x.taxAmount = tax := by
  unfold computeSettlement at h
  obtain ⟨base, -, h⟩ := Store.exists_of_bind_eq_ok h
  obtain ⟨commission, -, h⟩ := Store.exists_of_bind_eq_ok h
  obtain ⟨payout, -, h⟩ := Store.exists_of_bind_eq_ok h
  obtain ⟨y, hy, h⟩ := Store.exists_of_bind_eq_ok h
  obtain ⟨z, -, h⟩ := Store.exists_of_bind_eq_ok h
  obtain ⟨revenue, -, h⟩ := Store.exists_of_bind_eq_ok h
  obtain rfl := Except.ok.inj h
  exact (eq_of_quantizeMoney_money hy).1

/-- A payout that meets the constraints of its order is not negative. -/
theorem Order.payout_nonneg {o : Order} (h : o.check now = none) : 0 ≤ o.courierPayoutAmount := by
  have hall := violated_eq_none.mp h
  have hamounts := hall (decide (0 ≤ o.totalAmount) && decide (0 ≤ o.commissionAmount) &&
    decide (0 ≤ o.courierPayoutAmount), .integrity .chkAmountsNonNegative) (by simp)
  simp only [Bool.and_eq_true, decide_eq_true_eq] at hamounts
  exact hamounts.2

/-- No transition leads from a status to itself. -/
theorem OrderState.ne_of_canTransition {a b : OrderStatus} (h : canTransition a b = true) : b ≠ a := by
  rintro rfl
  revert h
  cases b <;> decide

/-- The flush of an order whose status changed. -/
theorem flushMoved_ends {oid : Id} {o o' : Order} {Q : Unit → Memory → Db → Prop}
    (ho : d.orders.get? oid = some o) (hf : o'.frozen = o.frozen)
    (ht : canTransition o.status o'.status = true)
    (h : o'.check now = none → ∀ d', d'.books = d.books.setOrder oid o' → Q () m d') :
    Ends (OrderRepository.flush now oid o o') Q m d := by
  apply flushOrder_ends ho (Order.assign_of_frozen hf)
  intro hflush d' hd'
  -- The status changes, so the row is written and its constraints are checked.
  rcases hflush with hsame | hcheck
  · exact absurd (congrArg Order.status hsame) (OrderState.ne_of_canTransition ht)
  · exact h hcheck d' hd'

/-- `release_escrow_on_completion` alone, for the settlement of a paid invoice. -/
theorem releaseFor_closes {oid iid k wid c : Id} {o : Order} {i : Invoice} {w : Wallet}
    {x : Settlement} {Q : Bool → Memory → Db → Prop} (hc : Coherent m d) (hrow : i.check = none)
    (hx : FulfillmentService.settlementOf s i = .ok x) (hw : d.books.walletOf k = some (wid, w))
    (ho : o.status = .completed ∧ o.courierId = some k ∧
      o.courierPayoutAmount = x.courierPayoutAmount)
    (h : ∀ p m' d', d'.orders = d.orders → d'.disputes = d.disputes →
      (0 ≤ o.courierPayoutAmount → d.books.Closes c oid iid o i .resolvedCourier d'.books) →
      Q p m' d') :
    Ends (FulfillmentService.releaseFor refresh oid iid wid x c) Q m d := by
  unfold FulfillmentService.releaseFor
  apply releaseEscrowOnCompletion_ends hc
  -- The group is there already.
  · intro m' _ hkey
    exact h _ m' d rfl rfl fun _ => .inl ⟨⟨_, by simp [Books.payoutKeys], hkey⟩, rfl⟩
  · intro m' e t r p y z d' hp hy hz he ht hr _ hpost
    obtain ⟨rfl, -⟩ := eq_of_quantizeMoney_money hp
    obtain ⟨rfl, -⟩ := eq_of_quantizeMoney_money hy
    obtain ⟨rfl, -⟩ := eq_of_quantizeMoney_money hz
    obtain ⟨horders, hdisputes⟩ := hpost.tables
    apply h _ m' d' horders hdisputes
    intro hn
    -- The settlement is the invoice's: its tax, and what is left of its total.
    obtain ⟨htotal, htax⟩ := Books.fitsMoney_of_check hrow
    have hsum := total_of_computeSettlement htax htotal hx
    have htaxes : x.taxAmount = i.taxAmount := tax_of_computeSettlement hx
    have hrevenue : x.platformRevenueAmount =
        i.totalAmount - o.courierPayoutAmount - i.taxAmount := by omega
    have hbooks := hpost.books
    rw [hsum, hrevenue, htaxes, ← ho.2.2] at hbooks
    exact .inr ⟨_, .released ho.1 ho.2.1 (Books.owns_of_walletOf hw) he ht hr hn, hbooks⟩

/-- `_complete_and_release` alone. -/
theorem completeAndRelease_closing {r : Request} {c oid : Id} {o : Order} (hc : Coherent m d)
    (hd : DealsOk d.books) (hr : r.Completes oid) (ho : d.orders.get? oid = some o) :
    Ends (FulfillmentService.completeAndRelease refresh s now c oid o)
      (fun _ _ d' => Closing d.books r d'.books) m d := by
  unfold FulfillmentService.completeAndRelease
  simp only [ends_bind]
  apply assertTransition_ends
  intro ht
  apply paidInvoice_ends
  intro iid i hi hio hst
  dsimp only
  -- An order without a courier, or a courier without a wallet, is refused.
  split
  · trivial
  rename_i k hk
  rw [ends_bind]
  apply getByUser_ends hc
  intro m₁ hc₁
  split
  · trivial
  rename_i wid w hw
  simp only [ends_bind, ends_ofExcept]
  intro x hx
  have hrow := (hd.row iid i hi).1
  apply releaseFor_closes (o := { o with
    status := .completed, completedAt := some now, commissionAmount := x.commissionAmount
    courierPayoutAmount := x.courierPayoutAmount }) hc₁ hrow hx hw ⟨rfl, hk, rfl⟩
  intro _ m₂ d₁ horders _ hpay
  refine flushMoved_ends (by rw [horders]; exact ho) rfl ht fun hcheck d₂ hd₂ => ?_
  rw [hd₂]
  exact .completed hr ho ht hi hio hst (hpay (Order.payout_nonneg hcheck)) ⟨rfl, rfl, rfl⟩ hcheck

/-- `_apply_dispute_outcome` alone, for the order as it will be closed. -/
theorem applyDisputeOutcome_closes {c oid iid : Id} {o : Order} {i : Invoice}
    {outcome : DisputeStatus} {n : Option Decimal} {Q : Order × OrderStatus → Memory → Db → Prop}
    (hc : Coherent m d) (hrow : i.check = none)
    (h : ∀ o₁ st m' d', d'.orders = d.orders → d'.disputes = d.disputes →
      o₁.frozen = o.frozen ∧ o₁.courierId = o.courierId →
      st = (if outcome = .resolvedCustomer then .refunded else .completed) →
      (∀ t, 0 ≤ o₁.courierPayoutAmount →
        d.books.Closes c oid iid { o₁ with status := st, completedAt := t } i outcome d'.books) →
      Q (o₁, st) m' d') :
    Ends (FulfillmentService.applyDisputeOutcome refresh s c oid o iid i outcome n) Q m d := by
  unfold FulfillmentService.applyDisputeOutcome
  split
  · trivial
  rename_i k hcourier
  simp only [ends_bind]
  apply getByUser_ends hc
  intro m₁ hc₁
  apply getByUser_ends hc₁
  intro m₂ hc₂
  split
  · rename_i kid kw uid uw hk hu
    have hkw : d.books.Owns kid k := Books.owns_of_walletOf hk
    have huw : d.books.Owns uid o.customerId := Books.owns_of_walletOf hu
    cases outcome with
    | «open» => trivial
    | resolvedCustomer =>
      -- The customer gets the total back.
      simp only [ends_bind, Prog.pure_eq, ends_ret]
      apply refundEscrow_ends hc₂
      · intro m₃ _ hkey
        have hdone : ∃ key ∈ Books.payoutKeys oid, key ∈ ledgerKeys d.books.transactions :=
          ⟨_, by simp [Books.payoutKeys], hkey⟩
        exact h o .refunded m₃ d rfl rfl ⟨rfl, rfl⟩ rfl fun _ _ => .inl ⟨hdone, rfl⟩
      · intro m₃ e a d₁ ha he _ hpost
        obtain ⟨rfl, -⟩ := eq_of_quantizeMoney_money ha
        obtain ⟨horders, hdisputes⟩ := hpost.tables
        exact h o .refunded m₃ d₁ horders hdisputes ⟨rfl, rfl⟩ rfl
          fun _ _ => .inr ⟨_, .refunded rfl huw he, hpost.books⟩
    | resolvedCourier =>
      -- The courier is paid as on completion, at whatever time.
      simp only [ends_bind, ends_ofExcept, Prog.pure_eq, ends_ret]
      intro x hx
      apply releaseFor_closes (o := { o with
        status := .completed, commissionAmount := x.commissionAmount
        courierPayoutAmount := x.courierPayoutAmount }) hc₂ hrow hx hk ⟨rfl, hcourier, rfl⟩
      intro _ m₃ d₁ horders hdisputes hpay
      refine h _ .completed m₃ d₁ horders hdisputes ⟨rfl, rfl⟩ rfl fun t hn => ?_
      rcases hpay hn with hdone | ⟨legs, hlegs, hp⟩
      · exact .inl hdone
      · cases hlegs with
        | released hst hk' hw he ht hr hn' =>
          exact .inr ⟨_, .released rfl hk' hw he ht hr hn', hp⟩
    | resolvedSplit =>
      -- The courier gets the share that the admin names, which is in range, and the customer the rest.
      dsimp only
      split
      · trivial
      simp only [ends_bind, ends_ofExcept, ends_require, Prog.pure_eq, ends_ret]
      intro a _ total htotal hshare
      obtain ⟨rfl, -⟩ := eq_of_quantizeMoney_money htotal
      apply splitEscrow_ends hc₂
      · intro m₃ _ hkey
        have hdone : ∃ key ∈ Books.payoutKeys oid, key ∈ ledgerKeys d.books.transactions :=
          ⟨_, by simp [Books.payoutKeys], hkey⟩
        exact h _ .completed m₃ d rfl rfl ⟨rfl, rfl⟩ rfl fun _ _ => .inl ⟨hdone, rfl⟩
      · intro m₃ e a' b' d₁ ha' hb' he _ hpost
        obtain ⟨rfl, -⟩ := eq_of_quantizeMoney_money ha'
        rw [Dec.sub_cents] at hb'
        obtain ⟨rfl, -⟩ := eq_of_quantizeMoney_fix hb'
        obtain ⟨horders, hdisputes⟩ := hpost.tables
        rw [add_sub_cancel] at hpost
        exact h _ .completed m₃ d₁ horders hdisputes ⟨rfl, rfl⟩ rfl
          fun _ _ => .inr ⟨_, .split rfl hcourier hkw huw he hshare, hpost.books⟩
  · trivial

/-- `resolve_dispute` closes the order by one of the three outcomes. -/
theorem resolveDispute_closing {c xid a : Id} {outcome : DisputeStatus} {note : Option Text}
    {n : Option Decimal} (hc : Coherent m d) (hd : DealsOk d.books) :
    Ends (FulfillmentService.resolveDispute refresh s now c xid a outcome note n)
      (fun _ _ d' => Closing d.books (.resolveDispute now c xid a outcome note n) d'.books) m d := by
  unfold FulfillmentService.resolveDispute DisputeRepository.lock OrderRepository.lock
  simp only [ends_bind, ends_lock, ends_ret]
  cases hx : d.disputes.get? xid with
  | none => trivial
  | some x =>
    simp only [ends_bind, ends_require, ends_lock, ends_ret]
    intro hopen
    cases ho : d.orders.get? x.orderId with
    | none => trivial
    | some o =>
      simp only [ends_bind]
      apply paidInvoice_ends
      intro iid i hi hio hst
      apply applyDisputeOutcome_closes hc (hd.row iid i hi).1
      intro o₁ st m₁ d₁ horders hdisputes ho₁ hfinal hpay
      apply assertTransition_ends
      intro ht
      refine flushMoved_ends (by rw [horders]; exact ho) ho₁.1 ht fun hcheck d₂ hd₂ => ?_
      -- Neither the payout nor the order's flush writes the dispute.
      have hx₂ : d₂.disputes.get? xid = some x := by
        change d₂.books.disputes.get? xid = _
        rw [hd₂]
        change d₁.disputes.get? xid = _
        rw [hdisputes]
        exact hx
      unfold DisputeRepository.resolve
      apply updateRow_ends hx₂
      intro _
      have hbooks : ∀ f y, f x = y →
          (d₂.updateDispute xid f).books = d₂.books.setDispute xid y := by
        intro f y hf
        simp only [Db.updateDispute, Db.books, Books.setDispute, Table.update_eq_set hx₂ hf]
      rw [hbooks _ { x with
        status := outcome, resolvedByAdminId := some a, resolutionNote := note
        resolvedAt := some now } (by simp only [Dispute.assign, assign_self]), hd₂]
      have hn := Order.payout_nonneg hcheck
      exact .resolved hx hopen ho ht hi hio hst (hpay _ hn) hfinal ho₁ hcheck ⟨rfl, rfl⟩

/-- `raise_dispute` opens the case of the order. -/
theorem raiseDispute_closing {xid oid u : Id} {why : Text} :
    Ends (FulfillmentService.raiseDispute now xid oid u why)
      (fun _ _ d' => Closing d.books (.raiseDispute now xid oid u why) d'.books) m d := by
  unfold FulfillmentService.raiseDispute DisputeRepository.getForOrder DisputeRepository.create
  simp only [ends_bind, Prog.pure_eq, ends_ret]
  apply lockForActor_ends
  intro o ho
  simp only [ends_query, ends_require]
  intro hnone
  -- The order had no dispute.
  have hsole : ∀ k y, d.disputes.get? k = some y → y.orderId ≠ oid := by
    intro k y hy heq
    have hfound := Table.find?_eq_none.mp (Option.isNone_iff_eq_none.mp hnone) k y hy
    simp [heq] at hfound
  apply assertTransition_ends
  intro ht
  refine flushOrder_ends ho (Order.assign_of_frozen rfl) fun _ d₁ hd₁ => ?_
  apply insertRow_ends
  intro hfree _
  have hdisputes : d₁.disputes = d.disputes := congrArg Books.disputes hd₁
  have hbooks : ∀ x, (d₁.insertDispute xid x).books = d₁.books.setDispute xid x := fun x => by
    simp only [Db.insertDispute, Db.books, Books.setDispute, Table.insert_eq_set x hfree]
  rw [hbooks, hd₁]
  exact .raised ho ht (by rw [← hfree, hdisputes]; rfl) hsole ⟨rfl, rfl⟩

/-- What a request that closes an order and commits alone does to the books. -/
theorem Request.closing (r : Request) (hr : r.closes = true) (hd : DealsOk d.books) :
    Ends (r.tx refresh s) (fun _ _ d' => Closing d.books r d'.books) .empty d := by
  have hc := Coherent.empty d
  cases r <;> simp only [Request.tx, Prog.void, ends_bind, ends_ret]
  case raiseDispute => exact raiseDispute_closing
  case approveOrder =>
    unfold FulfillmentService.approveOrder
    rw [ends_bind]
    exact lockForActor_ends fun o ho => completeAndRelease_closing hc hd .approve ho
  case autoApprove now c oid =>
    unfold FulfillmentService.autoApprove OrderRepository.lock
    simp only [ends_bind, ends_lock, ends_ret]
    cases ho : d.orders.get? oid with
    | none => exact .idle
    | some o =>
      -- An order that is not delivered is left as it is.
      simp only [ends_ite, ends_bind, Prog.pure_eq, ends_ret]
      exact ⟨fun _ => .idle, fun _ => completeAndRelease_closing hc hd .auto ho⟩
  case resolveDispute => exact resolveDispute_closing hc hd
  all_goals cases hr

end Services

/-- A request that closes an order, executed alone: nothing, or its effect. -/
theorem Request.exec_closing {refresh : Bool} {s : Settings} {d : Db} {r : Request}
    (hr : r.closes = true) (hd : DealsOk d.books) :
    Closing d.books r (r.exec refresh s d).books :=
  commit_of_ends (I := fun d' : Db => Closing d.books r d'.books) .idle (r.closing hr hd)

end Giftly
