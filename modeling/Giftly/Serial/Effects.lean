import Giftly.Serial.Books

/-!
# What requests do to the books

`Effect s b r b'` says everything that a request can do to the books when it runs alone and commits:
one constructor for each outcome of a service function, with what the function has checked of the
rows it read. `Request.effect` proves it of the transactions, and every invariant of serial runs is
derived from it.
-/

namespace Giftly

open Store
open WalletRepository MoneyService OrderState

namespace Books

/-- `fund_escrow_for_invoice` alone: a replay, or the group and the return of the hold. -/
def Funded (c wid iid oid : Id) (x : Option Id) (n k : ℤ) (held : Bool) (b b' : Books) : Prop :=
  (.escrow iid ∈ ledgerKeys b.transactions ∧ b' = b) ∨
  ∃ g e b₁, 0 ≤ n ∧ 0 ≤ k ∧ b.IsSystem .systemEscrow e ∧ b.IsSystem .systemGateway g ∧
    Posts c (fundingLegs wid g e iid oid x (n + k) n k) b b₁ ∧
    ((¬(held = true ∧ 0 < n) ∧ b' = b₁) ∨
      (held = true ∧ 0 < n ∧ ∃ v, b₁.wallets.get? wid = some v ∧
        b' = b₁.setHeld wid (max 0 (v.heldBalance - n))))

/-- `credit_topup` alone: a replay, or the group. -/
def Credited (c wid jid : Id) (n : ℤ) (b b' : Books) : Prop :=
  (.topup jid ∈ ledgerKeys b.transactions ∧ b' = b) ∨
  ∃ g, b.IsSystem .systemGateway g ∧ Posts c (topupLegs wid g jid n (-n)) b b'

/-- A payment intent that meets its constraints and has a payment link of its own. -/
def OwnLink (b : Books) (p : PaymentIntent) : Prop :=
  p.check = none ∧ ∀ k q, b.intents.get? k = some q →
    q.streampayPaymentLinkId ≠ p.streampayPaymentLinkId

/-- No other invoice of the order blocks this one. -/
def Sole (b : Books) (iid oid : Id) : Prop :=
  ∀ j k, b.invoices.get? j = some k → j ≠ iid → k.orderId = oid → k.status.active = false

/-- An invoice as a settlement leaves it. -/
def paidInvoice (now : Time) (i : Invoice) (method : PaymentMethod) (n k : ℤ) : Invoice :=
  { i with
    status := .paid, paidAt := some now, paymentMethod := some method, amountFromWallet := n
    amountFromGateway := k }

/-- `_settle_invoice_record` alone. -/
def settled (now : Time) (iid : Id) (i : Invoice) (o : Order) (method : PaymentMethod) (n k : ℤ)
    (b : Books) : Books :=
  ((b.setOrder i.orderId { o with status := .inProgress }).setInvoice iid
    (paidInvoice now i method n k)).consumed now iid

/-- The open intent of a lapsed invoice expires, and its hold is returned. -/
def expiredIntent (iid : Id) (i : Invoice) (b : Books) : Books :=
  match b.openIntent iid with
  | none => b
  | some (jid, p) =>
    let b₁ :=
      match b.walletOf p.userId with
      | none => b
      | some (wid, w) =>
        if 0 < i.amountFromWallet then
          b.setHeld wid (max 0 (w.heldBalance - i.amountFromWallet))
        else b
    b₁.setIntent jid { p with status := .expired }

/-- An order that awaits its payment is open for a new invoice. -/
def reopened (oid : Id) (b : Books) : Books :=
  match b.orders.get? oid with
  | none => b
  | some o =>
    if o.status = .waitingPayment then
      b.setOrder oid { o with status := .assigned, totalAmount := 0 }
    else b

/-- The groups that pay out the escrow of a paid invoice, with the status that the order gets. -/
inductive Payout (s : Settings) (b : Books) (oid iid : Id) (i : Invoice) :
    OrderStatus → List Leg → Prop
  | release {e k t r wid : Id} {w : Wallet} {x : Settlement}
      (hx : FulfillmentService.settlementOf s i = .ok x) (hw : b.walletOf k = some (wid, w))
      (he : b.IsSystem .systemEscrow e) (ht : b.IsSystem .systemTaxPayable t)
      (hr : b.IsSystem .systemRevenue r) :
      Payout s b oid iid i .completed
        (releaseLegs oid iid e wid t r
          (x.courierPayoutAmount + x.taxAmount + x.platformRevenueAmount) x.courierPayoutAmount
          x.taxAmount x.platformRevenueAmount)
  | refund {e u wid : Id} {w : Wallet} (hw : b.walletOf u = some (wid, w))
      (he : b.IsSystem .systemEscrow e) :
      Payout s b oid iid i .refunded (refundLegs oid iid e wid i.totalAmount)
  | split {e k u kid uid : Id} {kw uw : Wallet} {n : ℤ} (hk : b.walletOf k = some (kid, kw))
      (hu : b.walletOf u = some (uid, uw)) (he : b.IsSystem .systemEscrow e) :
      Payout s b oid iid i .completed
        (splitLegs oid iid e kid uid i.totalAmount n (i.totalAmount - n))

/-- The keys of the payouts of an order. -/
def payoutKeys (oid : Id) : List IdempotencyKey := [.release oid, .refund oid, .split oid]

/-- The escrow of a paid invoice was paid out, or has been before. -/
def PaidOut (s : Settings) (c oid iid : Id) (i : Invoice) (st : OrderStatus) (b b' : Books) :
    Prop :=
  ((∃ key ∈ payoutKeys oid, key ∈ ledgerKeys b.transactions) ∧ b' = b) ∨
  ∃ legs, b.Payout s oid iid i st legs ∧ Posts c legs b b'

/-- The slot that a new invoice takes, when it has a promo. -/
inductive Reserved (b : Books) (iid oid u rid : Id) : Option (Id × Promo) → Books → Prop
  | none : Reserved b iid oid u rid none b
  | some {pid : Id} {p p₀ : Promo} {r : PromoRedemption} (hp : b.promos.get? pid = some p)
      (hfree : b.redemptions.get? rid = none)
      (hr : r.promoId = pid ∧ r.userId = u ∧ r.invoiceId = iid ∧ r.orderId = oid ∧
        r.status = .reserved) (hcheck : r.check = none) :
      Reserved b iid oid u rid (some (pid, p₀)) ((b.setPromo pid (p.counted 1)).setRedemption rid r)

end Books

/-- A request that the results about the deals are about: any but those of withdrawals. -/
def Request.trades : Request → Bool
  | .requestWithdrawal .. | .approveWithdrawal .. | .rejectWithdrawal .. | .markPaid .. => false
  | _ => true

/-- A request that completes an order or resolves its dispute, with the order and its new status. -/
inductive Request.Settles (b : Books) : Request → Id → OrderStatus → Prop
  | approve {now c oid u} : Settles b (.approveOrder now c oid u) oid .completed
  | auto {now c oid} : Settles b (.autoApprove now c oid) oid .completed
  | resolve {now c xid a x outcome note n} (hx : b.disputes.get? xid = some x)
      (hopen : x.status = .open) {st : OrderStatus}
      (hst : st = .refunded ↔ outcome = .resolvedCustomer) :
      Settles b (.resolveDispute now c xid a outcome note n) x.orderId st

/-- What a request that commits alone has done to the books `b`. -/
inductive Effect (s : Settings) (b : Books) : Request → Books → Prop
  | idle {r} : Effect s b r b
  | createOrder {now confirm oid u x o} (hfree : b.orders.get? oid = none)
      (hst : o.status = .new) (hu : o.customerId = u) (hk : o.courierId = none)
      (hcheck : o.check now = none) :
      Effect s b (.createOrder now confirm oid u x) (b.setOrder oid o)
  | acceptOrder {now g cid oid k o o' u} (ho : b.orders.get? oid = some o) (hst : o.status = .new)
      (hu : b.users.get? k = some u) (hrole : u.role = .courier)
      (ho' : o' = { o with courierId := some k, status := .assigned, assignedAt := some now })
      (hcheck : o'.check now = none) :
      Effect s b (.acceptOrder now g cid oid k) (b.setOrder oid o')
  | cancelOrder {now oid u why o o'} (ho : b.orders.get? oid = some o)
      (ht : canTransition o.status .cancelled = true)
      (ho' : o' = { o with status := .cancelled, cancelledReason := why })
      (hu : o.customerId = u ∨ o.courierId = some u) :
      Effect s b (.cancelOrder now oid u why) (b.setOrder oid o')
  | createInvoice {now ids oid k x o o' i promo b₁} (ho : b.orders.get? oid = some o)
      (ht : canTransition o.status .waitingPayment = true)
      (hfree : b.invoices.get? ids.invoiceId = none) (hsole : b.Sole ids.invoiceId oid)
      (hi : i.orderId = oid ∧ i.status = .issued ∧ i.promoId = promo.map Prod.fst)
      (hcheck : i.check = none)
      (hpromo : b.Reserved ids.invoiceId oid o.customerId ids.redemptionId promo b₁)
      (ho' : o' = { o with status := .waitingPayment, totalAmount := i.totalAmount }) :
      Effect s b (.createInvoice now ids oid k x)
        ((b₁.setInvoice ids.invoiceId i).setOrder oid o')
  | cancelInvoice {now iid k i o} (hi : b.invoices.get? iid = some i) (hst : i.status = .issued)
      (ho : b.orders.get? i.orderId = some o) (ht : canTransition o.status .assigned = true)
      (hk : i.issuedByCourierId = k) :
      Effect s b (.cancelInvoice now iid k)
        (((b.released now iid).setOrder i.orderId
          { o with status := .assigned, totalAmount := 0 }).setInvoice iid
          { i with status := .cancelled })
  | expireInvoice {now iid i} (hi : b.invoices.get? iid = some i) (hst : i.status = .issued) :
      Effect s b (.expireInvoice now iid)
        ((((b.expiredIntent iid i).released now iid).setInvoice iid
          { i with status := .expired }).reopened i.orderId)
  | createTopup {now gw jid tid u n p} (hfree : b.intents.get? jid = none)
      (hp : p.status = .new ∧ p.purpose = .walletTopup ∧ p.referenceInvoiceId = none)
      (hamount : 0 < p.amount) (hrow : b.OwnLink p)
      (hu : p.userId = u ∧ (b.walletOf u).isSome = true) :
      Effect s b (.createTopup now gw jid tid u n) (b.setIntent jid p)
  | payWallet {now x iid u i o wid w b₁} (hi : b.invoices.get? iid = some i)
      (hst : i.status = .issued) (ho : b.orders.get? i.orderId = some o)
      (hwait : o.status = .waitingPayment) (hu : o.customerId = u ∨ o.courierId = some u)
      (hw : b.walletOf u = some (wid, w)) (hle : i.totalAmount ≤ w.balance - w.heldBalance)
      (hf : b.Funded x.correlationId wid iid i.orderId none i.totalAmount 0 false b₁)
      (hsole : b.Sole iid i.orderId)
      (hcheck : (Books.paidInvoice now i .walletOnly i.totalAmount 0).check = none)
      (hexp : i.expiresAt.all (fun t => now ≤ t) = true) :
      Effect s b (.payInvoice now x iid u) (b₁.settled now iid i o .walletOnly i.totalAmount 0)
  | payGateway {now x iid u i i' o wid w p n b₁} (hi : b.invoices.get? iid = some i)
      (hst : i.status = .issued) (ho : b.orders.get? i.orderId = some o)
      (hwait : o.status = .waitingPayment) (hu : o.customerId = u ∨ o.courierId = some u)
      (hw : b.walletOf u = some (wid, w)) (hn : n = min (w.balance - w.heldBalance) i.totalAmount)
      (hlt : n < i.totalAmount)
      (hopen : ((b.openIntent iid).bind fun y => y.2.streampayPaymentUrl) = none)
      (hfree : b.intents.get? x.intentId = none)
      (hp : p.status = .new ∧ p.purpose = .orderInvoice ∧ p.referenceInvoiceId = some iid ∧
        p.amount = i.totalAmount - n ∧ p.userId = u ∧ p.streampayPaymentUrl.isSome)
      (hb₁ : b₁ = if 0 < n then b.setHeld wid (w.heldBalance + n) else b)
      (hi' : ∃ method, i' = { i with
        amountFromWallet := n, amountFromGateway := i.totalAmount - n
        paymentMethod := some method }) (hcheck : i' = i ∨ i'.check = none)
      (hrow : b.OwnLink p) :
      Effect s b (.payInvoice now x iid u) ((b₁.setInvoice iid i').setIntent x.intentId p)
  | webhookFailed {now v g c e jid p why} (hp : b.intents.get? jid = some p) (hnew : p.status = .new)
      (hlink : p.streampayPaymentLinkId = some e.paymentLinkId)
      (hev : PaymentService.isPaid e.status = false) (hv : v = true ∧ g = true) :
      Effect s b (.handleWebhook now v g c (.ok e))
        (b.setIntent jid { p with status := .failed, failureReason := why })
  | webhookTopup {now v g c e jid p wid w b₁} (hp : b.intents.get? jid = some p)
      (hnew : p.status = .new) (hlink : p.streampayPaymentLinkId = some e.paymentLinkId)
      (hev : PaymentService.isPaid e.status = true) (hpurpose : p.purpose = .walletTopup)
      (hw : b.walletOf p.userId = some (wid, w)) (hb : b.Credited c wid jid p.amount b₁) :
      Effect s b (.handleWebhook now v g c (.ok e))
        (b₁.setIntent jid { p with status := .paid, paidAt := some now })
  | webhookPaid {now v g c e jid p iid i} (hp : b.intents.get? jid = some p)
      (hnew : p.status = .new) (hlink : p.streampayPaymentLinkId = some e.paymentLinkId)
      (hev : PaymentService.isPaid e.status = true) (hpurpose : p.purpose = .orderInvoice)
      (href : p.referenceInvoiceId = some iid) (hi : b.invoices.get? iid = some i)
      (hst : i.status = .paid) (hamount : e.amount = some p.amount) (hv : v = true ∧ g = true) :
      Effect s b (.handleWebhook now v g c (.ok e))
        (b.setIntent jid { p with status := .paid, paidAt := some now })
  | webhookSettle {now v g c e jid p iid i o wid w b₁} (hp : b.intents.get? jid = some p)
      (hnew : p.status = .new) (hlink : p.streampayPaymentLinkId = some e.paymentLinkId)
      (hev : PaymentService.isPaid e.status = true) (hpurpose : p.purpose = .orderInvoice)
      (href : p.referenceInvoiceId = some iid) (hi : b.invoices.get? iid = some i)
      (hst : i.status ≠ .paid) (ho : b.orders.get? i.orderId = some o)
      (ht : canTransition o.status .inProgress = true)
      (hw : b.walletOf p.userId = some (wid, w))
      (hf : b.Funded c wid iid i.orderId (some jid) i.amountFromWallet p.amount
        (decide (0 < i.amountFromWallet)) b₁)
      (hsole : b.Sole iid i.orderId) {method : PaymentMethod}
      (hcheck : (Books.paidInvoice now i method i.amountFromWallet p.amount).check = none) :
      Effect s b (.handleWebhook now v g c (.ok e))
        ((b₁.settled now iid i o method i.amountFromWallet p.amount).setIntent jid
          { p with status := .paid, paidAt := some now })
  | expireTopup {jid p} (hp : b.intents.get? jid = some p) (hpurpose : p.purpose = .walletTopup) :
      Effect s b (.expireTopupIntent jid) (b.setIntent jid { p with status := .expired })
  | submitDelivery {now confirm q oid k keys o o'} (ho : b.orders.get? oid = some o)
      (ht : canTransition o.status .delivered = true)
      (ho' : o' = { o with status := .delivered, deliveredAt := some now }) :
      Effect s b (.submitDelivery now confirm q oid k keys) (b.setOrder oid o')
  | raiseDispute {now xid oid u why o o' x} (ho : b.orders.get? oid = some o)
      (ht : canTransition o.status .disputed = true) (ho' : o' = { o with status := .disputed }) :
      Effect s b (.raiseDispute now xid oid u why) ((b.setOrder oid o').setDispute xid x)
  | settle {r oid st c o o' iid i b₁ xs} (hr : r.Settles b oid st)
      (ho : b.orders.get? oid = some o) (ht : canTransition o.status st = true)
      (hi : b.invoices.get? iid = some i) (hio : i.orderId = oid) (hst : i.status = .paid)
      (hpay : b.PaidOut s c oid iid i st b₁)
      (ho' : o'.status = st ∧ o'.frozen = o.frozen ∧ o'.courierId = o.courierId ∧
        o'.totalAmount = o.totalAmount) :
      Effect s b r { b₁.setOrder oid o' with disputes := xs }

/-! ## The services alone -/

section Services

variable {m : Memory} {d : Db} {now : Time} {s : Settings} {refresh : Bool}

/-- A session stays coherent while the wallets stay. -/
theorem Coherent.of_wallets {d' : Db} (h : Coherent m d) (hw : d'.wallets = d.wallets) :
    Coherent m d' := by
  intro id w hm
  rw [hw]
  exact h id w hm

/-- The index over the active invoices, for one row. -/
theorem sole_of_checkRow {iid : Id} {i : Invoice} (ha : i.status.active = true)
    (h : InvoiceRepository.checkRow iid d i = none) :
    d.books.Sole iid i.orderId ∧ i.check = none := by
  unfold InvoiceRepository.checkRow at h
  rw [Option.or_eq_none_iff] at h
  refine ⟨fun j k hk hj ho => ?_, h.1⟩
  have hsole : i.soleActive d iid = true := by
    by_contra hne
    simp [hne] at h
  simp only [Invoice.soleActive, ha, Bool.not_true, Bool.false_or, Option.isNone_iff_eq_none] at hsole
  have hj' := Table.find?_eq_none.mp hsole j k hk
  simpa [hj, ho] using hj'

/-- `_settle_invoice_record` alone. -/
theorem settleInvoiceRecord_ends {iid : Id} {i : Invoice} {o : Order} {method : PaymentMethod}
    {n k : ℤ} {Q : Unit → Memory → Db → Prop} (hi : d.invoices.get? iid = some i)
    (ho : d.orders.get? i.orderId = some o) (hne : i.status ≠ .paid)
    (h : canTransition o.status .inProgress = true → d.books.Sole iid i.orderId →
      (Books.paidInvoice now i method n k).check = none →
      ∀ d', d'.books = d.books.settled now iid i o method n k → Q () m d') :
    Ends (PaymentService.settleInvoiceRecord now iid i i.orderId o method n k) Q m d := by
  unfold PaymentService.settleInvoiceRecord
  simp only [ends_bind, ends_ofExcept]
  intro n' hn' k' hk'
  obtain ⟨rfl, -⟩ := eq_of_quantizeMoney_money hn'
  obtain ⟨rfl, -⟩ := eq_of_quantizeMoney_money hk'
  refine assertTransition_ends fun ht => ?_
  -- The order, the invoice and the redemption are written in this order.
  refine flushOrder_ends ho (Order.assign_of_frozen rfl) fun _ d₁ hd₁ => ?_
  have hi₁ : d₁.invoices.get? iid = some i := (congrArg (·.invoices.get? iid) hd₁).trans hi
  refine flushInvoice_ends hi₁ (by simp [Invoice.assign]) fun hc d₂ hd₂ => ?_
  have hcheck : InvoiceRepository.checkRow iid d₁ (Books.paidInvoice now i method n' k') = none := by
    refine hc.resolve_left fun heq => hne ?_
    rw [← heq]
  obtain ⟨hsole, hrow⟩ := sole_of_checkRow rfl hcheck
  rw [hd₁] at hsole
  refine consume_ends fun d₃ hd₃ => h ht hsole hrow d₃ ?_
  rw [hd₃, hd₂, hd₁]
  rfl

/-- `fund_escrow_for_invoice` alone, in terms of the books. -/
theorem fundEscrow_ends {wid iid oid c : Id} {x : Option Id} {n k : ℤ} {held : Bool}
    {Q : Bool → Memory → Db → Prop} (hc : Coherent m d)
    (h : ∀ p m' d', Coherent m' d' → d.books.Funded c wid iid oid x n k held d'.books →
      d'.invoices = d.invoices → d'.orders = d.orders → d'.intents = d.intents → Q p m' d') :
    Ends (fundEscrowForInvoice refresh wid (money n) (money k) iid oid x held c) Q m d := by
  refine fundEscrowForInvoice_ends hc ?_ ?_ ?_
  · -- A replay.
    exact fun m' hc' hkey => h _ m' d hc' (.inl ⟨hkey, rfl⟩) rfl rfl rfl
  · -- Without a hold.
    intro m' g e a b d' ha hb ha₀ hb₀ he hg hp hnot hc'
    obtain ⟨rfl, -⟩ := eq_of_quantizeMoney_money ha
    obtain ⟨rfl, -⟩ := eq_of_quantizeMoney_money hb
    have hbooks := hp.books
    obtain ⟨ts, hposted⟩ := hp
    refine h _ m' d' hc' (.inr ⟨g, e, _, ha₀, hb₀, he, hg, hbooks, .inl ⟨hnot, rfl⟩⟩) ?_ ?_ ?_ <;>
      rw [hposted.eq] <;> rfl
  · -- With a hold, which is returned.
    intro m' g e a b d' v ha hb ha₀ hb₀ he hg hp hheld hpos hv _ hc'
    obtain ⟨rfl, -⟩ := eq_of_quantizeMoney_money ha
    obtain ⟨rfl, -⟩ := eq_of_quantizeMoney_money hb
    have hbooks := hp.books
    obtain ⟨ts, hposted⟩ := hp
    refine h _ m' _ hc'
      (.inr ⟨g, e, _, ha₀, hb₀, he, hg, hbooks, .inr ⟨hheld, hpos, v, hv, rfl⟩⟩) ?_ ?_ ?_ <;>
      simp only [Db.setHeld, Db.updateWallet, hposted.eq] <;> rfl

/-- `create_order` alone. -/
theorem createOrder_effect {confirm : Text → Except Err Unit} {oid u : Id}
    {x : OrderService.NewOrderInput} :
    Ends (OrderService.createOrder now confirm oid u x)
      (fun _ _ d' => Effect s d.books (.createOrder now confirm oid u x) d'.books) m d := by
  unfold OrderService.createOrder OrderRepository.countCustomerActive OrderRepository.create
  simp only [ends_bind, ends_require, ends_query, ends_ofExcept, Prog.pure_eq, ends_ret]
  intro _ _ _ _ _ _
  refine insertRow_ends fun hnone hc => ?_
  split_ifs at hc
  have hbooks : ∀ o, (d.insertOrder oid o).books = d.books.setOrder oid o := fun o => by
    simp only [Db.insertOrder, Db.books, Books.setOrder, Table.insert_eq_set o hnone]
  rw [hbooks]
  exact .createOrder hnone rfl rfl rfl hc

/-- `accept_order` alone. -/
theorem acceptOrder_effect {g : Bool} {cid oid k : Id} :
    Ends (OrderService.acceptOrder now g cid oid k)
      (fun _ _ d' => Effect s d.books (.acceptOrder now g cid oid k) d'.books) m d := by
  unfold OrderService.acceptOrder OrderService.requireActiveVerifiedCourier
    OrderRepository.countCourierActive OrderService.assignLocked OrderRepository.lock
  simp only [ends_bind, ends_require, ends_query, ends_lock, ends_ret]
  intro huser _ _ _
  simp only [Option.any_eq_true, Bool.and_eq_true, decide_eq_true_eq] at huser
  obtain ⟨u, hu, hrole⟩ := huser
  cases ho : d.orders.get? oid with
  | none => trivial
  | some o =>
    simp only [ends_bind, ends_require, Prog.pure_eq, ends_ret]
    intro hnew
    refine assertTransition_ends fun _ => ?_
    refine flushOrder_ends ho (Order.assign_of_frozen rfl) fun hc d₁ hd₁ => ?_
    refine insertRow_ends fun _ _ => ?_
    change Effect s d.books _ d₁.books
    rw [hd₁]
    refine .acceptOrder ho hnew hu hrole.1 rfl (hc.resolve_left fun heq => ?_)
    -- The flush had something to write, since the status was `NEW`.
    have hst := congrArg Order.status heq
    rw [hnew] at hst
    cases hst

/-- `cancel_order` alone. -/
theorem cancelOrder_effect {oid u : Id} {why : Option Text} :
    Ends (OrderService.cancelOrder now oid u why)
      (fun _ _ d' => Effect s d.books (.cancelOrder now oid u why) d'.books) m d := by
  unfold OrderService.cancelOrder OrderRepository.getForActor OrderRepository.keep
  rw [ends_bind, ends_query]
  cases hf : (d.orders.get? oid).filter fun o => o.customerId = u || o.courierId = some u with
  | none => trivial
  | some o =>
    obtain ⟨ho, hu⟩ := Option.filter_eq_some_iff.mp hf
    simp only [ends_bind, ends_orm, Prog.pure_eq, ends_ret]
    refine assertTransition_ends fun ht => ?_
    refine flushOrder_ends ho (Order.assign_of_frozen rfl) fun _ d₁ hd₁ => ?_
    rw [hd₁]
    exact .cancelOrder ho ht rfl (by simpa using hu)

/-- `reserve` alone, for a new invoice. -/
theorem reservePromo_ends {ids : InvoiceService.NewIds} {oid u : Id} {n : ℤ}
    {promo : Option (Id × Promo)} {Q : Unit → Memory → Db → Prop}
    (h : ∀ d', d.books.Reserved ids.invoiceId oid u ids.redemptionId promo d'.books →
      Q () m d') :
    Ends (InvoiceService.reservePromo now ids oid u n promo) Q m d := by
  unfold InvoiceService.reservePromo
  split
  · -- An invoice without a code.
    exact h d .none
  rename_i pid p₀
  unfold PromoService.reserve PromoRepository.atomicReserve
  rw [ends_bind]
  -- The counter is raised first; without room for it the request fails.
  refine updateCounter_ends (fun _ => by simp) fun p d₁ hp hd₁ => ?_
  simp only [PromoRepository.countUserRedemptions, ends_bind, ends_require, ends_query]
  intro _ _
  refine insertRow_ends fun hfree hcheck => h _ ?_
  have hredemptions : d₁.redemptions = d.redemptions := congrArg Books.redemptions hd₁
  have hbooks : ∀ r, (d₁.insertRedemption ids.redemptionId r).books =
      (d.books.setPromo pid (p.counted 1)).setRedemption ids.redemptionId r := fun r => by
    rw [← hd₁]
    simp only [Db.insertRedemption, Db.books, Books.setRedemption, Table.insert_eq_set r hfree]
  rw [hbooks]
  have hfree' : d.redemptions.get? ids.redemptionId = none := by
    rw [← hredemptions]
    exact hfree
  split_ifs at hcheck
  exact .some (Option.filter_eq_some_iff.mp hp).1 hfree' ⟨rfl, rfl, rfl, rfl, rfl⟩ hcheck

/-- The choice of a promo writes nothing. -/
theorem promoFor_ends {u : Id} {x : InvoiceService.NewInvoiceInput}
    {Q : Option (Id × Promo) → Memory → Db → Prop} (h : ∀ promo, Q promo m d) :
    Ends (InvoiceService.promoFor now u x) Q m d := by
  unfold InvoiceService.promoFor
  split
  · exact h none
  unfold PromoService.validate PromoRepository.getByCode PromoRepository.countUserRedemptions
  simp only [ends_bind, ends_ofExcept, ends_query]
  intro _ _
  split
  · trivial
  simp only [ends_bind, ends_require, ends_query, ends_ofExcept, Prog.pure_eq, ends_ret]
  exact fun _ _ _ _ _ _ _ _ => h _

/-- The slot is taken after the `DRAFT` was written, and does not depend on it. -/
theorem Books.Reserved.of_setInvoice {b b₃ : Books} {iid oid u rid : Id} {i : Invoice}
    {promo : Option (Id × Promo)} (h : (b.setInvoice iid i).Reserved iid oid u rid promo b₃) :
    ∃ b₁, b.Reserved iid oid u rid promo b₁ ∧ b₃ = b₁.setInvoice iid i := by
  cases h with
  | none => exact ⟨b, .none, rfl⟩
  | some hp hfree hr hcheck => exact ⟨_, .some hp hfree hr hcheck, rfl⟩

/-- A reservation leaves the orders. -/
theorem Books.Reserved.orders {b b₁ : Books} {iid oid u rid : Id} {promo : Option (Id × Promo)}
    (h : b.Reserved iid oid u rid promo b₁) : b₁.orders = b.orders := by
  cases h <;> rfl

/-- `create_invoice` alone. -/
theorem createInvoice_effect {ids : InvoiceService.NewIds} {oid k : Id}
    {x : InvoiceService.NewInvoiceInput} :
    Ends (InvoiceService.createInvoice s now ids oid k x)
      (fun _ _ d' => Effect s d.books (.createInvoice now ids oid k x) d'.books) m d := by
  unfold InvoiceService.createInvoice OrderRepository.getForActor OrderRepository.keep
    InvoiceRepository.getActiveForOrder
  rw [ends_bind, ends_query]
  cases hf : (d.orders.get? oid).filter fun o => o.customerId = k || o.courierId = some k with
  | none => trivial
  | some o =>
    have ho := (Option.filter_eq_some_iff.mp hf).1
    simp only [ends_bind, ends_orm, ends_ret]
    refine assertTransition_ends fun ht => ?_
    simp only [ends_query, ends_require, ends_ofExcept]
    intro hactive _ _
    refine promoFor_ends fun promo => ?_
    intro result _ _
    unfold InvoiceService.writeInvoice InvoiceRepository.issue
    simp only [ends_bind]
    -- The draft, its items and the promo's slot come before the issuing.
    refine createDraft_ends fun hfree hdraft d₁ hd₁ => ?_
    refine addItems_ends fun d₂ hd₂ => ?_
    refine reservePromo_ends fun d₃ hd₃ => ?_
    obtain ⟨hsole, -⟩ := sole_of_checkRow rfl hdraft
    rw [hd₂, hd₁] at hd₃
    obtain ⟨b₁, hreserved, hb₁⟩ := hd₃.of_setInvoice
    -- The draft is as it was inserted when it is issued.
    have hi₃ : d₃.invoices.get? ids.invoiceId = some (InvoiceRepository.draft oid k result
        (promo.map (·.1)) (promo.map (·.2.code))) := by
      change d₃.books.invoices.get? ids.invoiceId = _
      rw [hb₁]
      simp [Books.setInvoice]
    refine flushInvoice_ends hi₃ (by simp [Invoice.assign]) fun hc d₄ hd₄ => ?_
    have ho₄ : d₄.orders.get? oid = some o := by
      change d₄.books.orders.get? oid = _
      rw [hd₄, hb₁]
      change b₁.orders.get? oid = _
      rw [hreserved.orders]
      exact ho
    refine flushOrder_ends ho₄ (Order.assign_of_frozen rfl) fun _ d₅ hd₅ => ?_
    rw [hd₅, hd₄, hb₁, Books.setInvoice_setInvoice]
    have hcheck := hc.resolve_left fun heq => by
      have hst := congrArg Invoice.status heq
      cases hst
    exact .createInvoice ho ht hfree hsole ⟨rfl, rfl, rfl⟩ (sole_of_checkRow rfl hcheck).2
      hreserved rfl

/-- `cancel_invoice` alone. -/
theorem cancelInvoice_effect {iid k : Id} :
    Ends (InvoiceService.cancelInvoice now iid k)
      (fun _ _ d' => Effect s d.books (.cancelInvoice now iid k) d'.books) m d := by
  unfold InvoiceService.cancelInvoice InvoiceRepository.lockForCourier OrderRepository.lock
  simp only [ends_bind, ends_lock, ends_ret]
  cases hf : (d.invoices.get? iid).filter fun i => i.issuedByCourierId = k with
  | none => trivial
  | some i =>
    obtain ⟨hi, hk⟩ := Option.filter_eq_some_iff.mp hf
    simp only [ends_bind, ends_require, ends_lock, ends_ret]
    intro hst
    cases ho : d.orders.get? i.orderId with
    | none => trivial
    | some o =>
      simp only [ends_bind]
      -- The redemption first, then the order, and the invoice last.
      refine release_ends fun d₁ hd₁ => assertTransition_ends fun ht => ?_
      have ho₁ : d₁.orders.get? i.orderId = some o := (congrArg (·.orders.get? i.orderId) hd₁).trans ho
      refine flushOrder_ends ho₁ (Order.assign_of_frozen rfl) fun _ d₂ hd₂ => ?_
      rw [hd₁] at hd₂
      have hi₂ : d₂.invoices.get? iid = some i := (congrArg (·.invoices.get? iid) hd₂).trans hi
      refine flushInvoice_ends hi₂ (by simp [Invoice.assign]) fun _ d₃ hd₃ => ?_
      rw [hd₃, hd₂]
      exact .cancelInvoice hi hst ho ht (by simpa using hk)

/-- The hold of an intent that expires is returned to the wallet of its user. -/
theorem expireIntent_ends {iid : Id} {i : Invoice} {Q : Unit → Memory → Db → Prop}
    (hc : Coherent m d)
    (h : ∀ m' d', Coherent m' d' → d'.books = d.books.expiredIntent iid i → Q () m' d') :
    Ends (Expiry.expireIntent refresh i (d.books.openIntent iid)) Q m d := by
  unfold Expiry.expireIntent
  cases hf : d.books.openIntent iid with
  | none =>
    refine h m d hc ?_
    simp only [Books.expiredIntent, hf]
  | some x =>
    obtain ⟨jid, p⟩ := x
    have hp : d.intents.get? jid = some p := (Table.find?_eq_some hf).1
    -- Marking the intent is the last write, whatever came before.
    have hlast : ∀ m₁ d₁, Coherent m₁ d₁ → d₁.intents = d.intents →
        d.books.expiredIntent iid i = d₁.books.setIntent jid { p with status := .expired } →
        Ends (PaymentRepository.markExpired jid p) Q m₁ d₁ := by
      intro m₁ d₁ hc₁ hd₁ heq
      refine flushIntent_ends (by rw [hd₁]; exact hp) (by simp [PaymentIntent.assign])
        fun _ d₂ hd₂ => h m₁ d₂ ?_ (hd₂.trans heq.symm)
      exact hc₁.of_wallets (congrArg Books.wallets hd₂)
    simp only [ends_bind, ends_when]
    constructor
    · intro hpos
      refine getByUser_ends hc fun m₁ hc₁ => ?_
      split
      · rename_i hnone
        -- The user has no wallet, so there is no hold to release.
        refine hlast m₁ d hc₁ rfl ?_
        have hnone : d.books.walletOf p.userId = none := hnone
        simp only [Books.expiredIntent, hf, hnone]
      · rename_i wid w hsome
        have hw : d.wallets.get? wid = some w := (Table.find?_eq_some hsome).1
        -- The hold on the wallet's part is released.
        refine releaseHold_ends hc₁ fun m₂ n w' hn hw' _ hc₂ => ?_
        obtain ⟨rfl, -⟩ := eq_of_quantizeMoney_money hn
        obtain rfl : w = w' := Option.some.inj (hw.symm.trans hw')
        refine hlast m₂ _ hc₂ rfl ?_
        have hsome : d.books.walletOf p.userId = some (wid, w) := hsome
        simp only [Books.expiredIntent, hf, hsome, hpos, if_true]
        rfl
    · intro hpos
      refine hlast m d hc rfl ?_
      simp only [Books.expiredIntent, hf, hpos, if_false]
      cases d.books.walletOf p.userId <;> rfl

/-- `_expire_invoice` alone. -/
theorem expireInvoice_effect {iid : Id} (hc : Coherent m d) :
    Ends (Expiry.expireInvoice refresh now iid)
      (fun _ _ d' => Effect s d.books (.expireInvoice now iid) d'.books) m d := by
  unfold Expiry.expireInvoice InvoiceRepository.lock PaymentRepository.getOpenIntentForInvoice
    OrderRepository.lock
  simp only [ends_bind, ends_lock, ends_ret]
  cases hi : d.invoices.get? iid with
  | none => exact .idle
  | some i =>
    simp only [ends_ite, ends_bind, ends_query, Prog.pure_eq, ends_ret]
    refine ⟨fun _ => .idle, fun hst => ?_⟩
    rw [not_not] at hst
    refine expireIntent_ends hc fun m₁ d₁ _ (hd₁ : d₁.books = d.books.expiredIntent iid i) => ?_
    refine release_ends fun d₂ hd₂ => ?_
    rw [hd₁] at hd₂
    -- Expiring the intent touches neither invoices nor orders.
    have htables : (d.books.expiredIntent iid i).invoices = d.books.invoices ∧
        (d.books.expiredIntent iid i).orders = d.books.orders := by
      unfold Books.expiredIntent
      split
      · exact ⟨rfl, rfl⟩
      dsimp only
      split
      · exact ⟨rfl, rfl⟩
      split_ifs <;> exact ⟨rfl, rfl⟩
    have hi₂ : d₂.invoices.get? iid = some i := by
      change d₂.books.invoices.get? iid = _
      rw [hd₂]
      change (d.books.expiredIntent iid i).invoices.get? iid = _
      rw [htables.1]
      exact hi
    refine flushInvoice_ends hi₂ (by simp [Invoice.assign]) fun _ d₃ hd₃ => ?_
    rw [hd₂] at hd₃
    have horders : d₃.orders = d.orders := by
      change d₃.books.orders = _
      rw [hd₃]
      exact htables.2
    -- What is left is the order, which is reopened if it waits for this payment.
    have heffect : Effect s d.books (.expireInvoice now iid) (d₃.books.reopened i.orderId) := by
      rw [hd₃]
      exact .expireInvoice hi hst
    rw [ends_lock, ends_ret]
    cases ho : d₃.orders.get? i.orderId with
    | none =>
      have ho' : d₃.books.orders.get? i.orderId = none := ho
      simp only [Books.reopened, ho'] at heffect
      exact heffect
    | some o =>
      have ho' : d₃.books.orders.get? i.orderId = some o := ho
      simp only [Books.reopened, ho'] at heffect
      simp only [ends_bind, ends_when, ends_ret]
      constructor
      · intro hwait
        rw [if_pos hwait] at heffect
        refine assertTransition_ends fun _ => ?_
        refine flushOrder_ends ho (Order.assign_of_frozen rfl) fun _ d₄ hd₄ => ?_
        rw [hd₄]
        exact heffect
      · intro hwait
        rw [if_neg hwait] at heffect
        exact heffect

/-- A call of the gateway alone may have any answer. -/
theorem createCheckout_ends {gw : PaymentService.Gateway} {jid u : Id}
    {items : List PaymentService.StreamPayItem} {Q : PaymentService.Checkout → Memory → Db → Prop}
    (h : ∀ x, Q x m d) : Ends (PaymentService.createCheckout gw jid u items) Q m d := by
  unfold PaymentService.createCheckout
  simp only [ends_bind, ends_query, ends_require, ends_ofExcept]
  exact fun _ x _ => h x

/-- A new intent, after its payment link was attached. -/
theorem ownLink_of_attached {d₁ : Db} {jid lid : Id} {url : Text} {p₀ : PaymentIntent}
    (hfree : d.intents.get? jid = none) (hd₁ : d₁.books = d.books.setIntent jid p₀)
    (hlink : p₀.streampayPaymentLinkId = none)
    (h : { p₀ with streampayPaymentLinkId := some lid, streampayPaymentUrl := some url } = p₀ ∨
      (({ p₀ with streampayPaymentLinkId := some lid, streampayPaymentUrl := some url } :
        PaymentIntent).check = none ∧ ({ p₀ with
          streampayPaymentLinkId := some lid, streampayPaymentUrl := some url } :
        PaymentIntent).soleLink d₁ jid = true)) :
    d.books.OwnLink { p₀ with
      streampayPaymentLinkId := some lid, streampayPaymentUrl := some url } := by
  rcases h with heq | ⟨hcheck, hsole⟩
  · have heq := congrArg PaymentIntent.streampayPaymentLinkId heq
    rw [hlink] at heq
    cases heq
  · refine ⟨hcheck, fun k q hq heq => ?_⟩
    simp only [PaymentIntent.soleLink, Option.isNone_some, Bool.false_or,
      Option.isNone_iff_eq_none] at hsole
    -- Any other intent was there before the new one.
    have hk : k ≠ jid := by
      rintro rfl
      rw [show d.books.intents.get? k = d.intents.get? k from rfl, hfree] at hq
      cases hq
    have hq₁ : d₁.intents.get? k = some q := by
      change d₁.books.intents.get? k = some q
      rw [hd₁]
      simp [Books.setIntent, hk, hq]
    simpa [hk, heq] using Table.find?_eq_none.mp hsole k q hq₁

/-- `create_topup` alone. -/
theorem createTopup_effect {gw : PaymentService.Gateway} {jid tid u : Id} {n : Decimal}
    (hc : Coherent m d) :
    Ends (PaymentService.createTopup s now gw jid tid u n)
      (fun _ _ d' => Effect s d.books (.createTopup now gw jid tid u n) d'.books) m d := by
  unfold PaymentService.createTopup
  simp only [ends_bind, ends_ofExcept, ends_require]
  intro a _ _
  refine getByUser_ends hc fun m₁ hc₁ => ?_
  split
  · trivial
  rename_i wid w hw
  have hw : d.books.walletOf u = some (wid, w) := hw
  simp only [ends_bind]
  refine createIntent_ends fun hfree hcheck d₁ hd₁ => ?_
  refine insertRow_ends fun _ _ => ?_
  refine createCheckout_ends fun checkout => ?_
  unfold PaymentRepository.attachStreampay
  -- The row of `topups` is no part of the books.
  have hbooks : ∀ t, (d₁.insertTopup tid t).books = d₁.books := fun _ => rfl
  have hp : ∀ t, (d₁.insertTopup tid t).intents.get? jid = some (PaymentRepository.newIntent u
      .walletTopup a none (PaymentService.expiry s now)) := fun t => by
    change d₁.books.intents.get? jid = _
    rw [hd₁]
    simp [Books.setIntent]
  refine flushIntent_ends (hp _) (by simp [PaymentIntent.assign]) fun hrow d₂ hd₂ => ?_
  change Effect s d.books _ d₂.books
  rw [hd₂, hbooks, hd₁, Books.setIntent_setIntent]
  have hamount := PaymentIntent.amount_pos hcheck
  have hown := ownLink_of_attached hfree hd₁ rfl hrow
  exact .createTopup hfree ⟨rfl, rfl, rfl⟩ hamount hown ⟨rfl, by rw [hw]; rfl⟩

/-- The wallet covers the invoice. -/
theorem payFromWallet_effect {x : PaymentService.PayInput} {iid u wid : Id} {i : Invoice}
    {o : Order} {w : Wallet} (hc : Coherent m d) (hi : d.invoices.get? iid = some i)
    (hst : i.status = .issued) (ho : d.orders.get? i.orderId = some o)
    (hwait : o.status = .waitingPayment) (hu : o.customerId = u ∨ o.courierId = some u)
    (hw : d.books.walletOf u = some (wid, w)) (hle : i.totalAmount ≤ w.balance - w.heldBalance)
    (hexp : i.expiresAt.all (fun t => now ≤ t) = true) :
    Ends (PaymentService.payFromWallet refresh now x iid i o wid i.totalAmount)
      (fun _ _ d' => Effect s d.books (.payInvoice now x iid u) d'.books) m d := by
  unfold PaymentService.payFromWallet
  simp only [ends_bind]
  refine fundEscrow_ends hc fun _ m₁ d₁ _ hf hinvoices horders _ => ?_
  rw [← hinvoices] at hi
  rw [← horders] at ho
  refine settleInvoiceRecord_ends hi ho (by rw [hst]; decide) fun _ hsole hcheck d₂ hd₂ => ?_
  change Effect s d.books _ d₂.books
  rw [hd₂]
  -- The settlement wrote no invoice before its own.
  have hsole' : d.books.Sole iid i.orderId := by
    intro j k hk
    refine hsole j k ?_
    change d₁.invoices.get? j = some k
    rw [hinvoices]
    exact hk
  rw [hinvoices] at hi
  rw [horders] at ho
  exact .payWallet hi hst ho hwait hu hw hle hf hsole' hcheck hexp

/-- The hold of the wallet's part, when there is one. -/
theorem holdWhen_ends {wid : Id} {w : Wallet} {n : ℤ} {Q : Unit → Memory → Db → Prop}
    (hc : Coherent m d) (hw : d.wallets.get? wid = some w)
    (h : ∀ m' d', Coherent m' d' → d'.books =
      (if 0 < n then d.books.setHeld wid (w.heldBalance + n) else d.books) → Q () m' d') :
    Ends ((holdFunds refresh wid (money n)).when (0 < n)) Q m d := by
  rw [ends_when]
  constructor
  · intro hpos
    refine holdFunds_ends hc fun m' k w' hk hw' _ _ hc' => ?_
    obtain ⟨rfl, -⟩ := eq_of_quantizeMoney_money hk
    obtain rfl : w = w' := Option.some.inj (hw.symm.trans hw')
    exact h m' _ hc' (by rw [if_pos hpos]; rfl)
  · exact fun hpos => h m d hc (by rw [if_neg hpos])

/-- A remainder is due from the gateway. -/
theorem startGateway_effect {x : PaymentService.PayInput} {iid u wid : Id} {i : Invoice}
    {o : Order} {w : Wallet} {n : ℤ} (hc : Coherent m d) (hi : d.invoices.get? iid = some i)
    (hst : i.status = .issued) (ho : d.orders.get? i.orderId = some o)
    (hwait : o.status = .waitingPayment) (hu : o.customerId = u ∨ o.courierId = some u)
    (hw : d.books.walletOf u = some (wid, w))
    (hn : n = min (w.balance - w.heldBalance) i.totalAmount) (hlt : n < i.totalAmount)
    (hopen : ((d.books.openIntent iid).bind fun y => y.2.streampayPaymentUrl) = none) :
    Ends (PaymentService.startGateway refresh s now x iid i u wid n (i.totalAmount - n))
      (fun _ _ d' => Effect s d.books (.payInvoice now x iid u) d'.books) m d := by
  unfold PaymentService.startGateway
  simp only [ends_bind]
  refine holdWhen_ends hc (Table.find?_eq_some hw).1 fun m₁ d₁ _ hd₁ => ?_
  -- The hold, if there is one, touches wallets alone.
  have hinvoices : d₁.invoices = d.invoices := by
    change d₁.books.invoices = _
    rw [hd₁]
    split_ifs <;> rfl
  have hintents : d₁.intents = d.intents := by
    change d₁.books.intents = _
    rw [hd₁]
    split_ifs <;> rfl
  refine flushInvoice_ends (by rw [hinvoices]; exact hi) (by simp [Invoice.assign])
    fun hcheck d₂ hd₂ => ?_
  refine createIntent_ends fun hfree _ d₃ hd₃ => ?_
  rw [InvoiceRepository.listItems, ends_query]
  refine createCheckout_ends fun checkout => ?_
  unfold PaymentRepository.attachStreampay
  have hp : d₃.intents.get? x.intentId = some (PaymentRepository.newIntent u .orderInvoice
      (i.totalAmount - n) (some iid) (PaymentService.expiry s now)) := by
    change d₃.books.intents.get? x.intentId = _
    rw [hd₃]
    simp [Books.setIntent]
  refine flushIntent_ends hp (by simp [PaymentIntent.assign]) fun hrow d₄ hd₄ => ?_
  have hintents₂ : d₂.intents = d.intents := (congrArg Books.intents hd₂).trans hintents
  have hfree' : d.intents.get? x.intentId = none := hintents₂ ▸ hfree
  -- The link is new, since no row had it.
  have hown := ownLink_of_attached hfree hd₃ rfl hrow
  have hown' : d.books.OwnLink { PaymentRepository.newIntent u .orderInvoice (i.totalAmount - n)
      (some iid) (PaymentService.expiry s now) with
      streampayPaymentLinkId := some checkout.paymentLinkId
      streampayPaymentUrl := some checkout.paymentUrl } := by
    refine ⟨hown.1, fun k q hq => hown.2 k q ?_⟩
    change d₂.intents.get? k = some q
    rw [hintents₂]
    exact hq
  change Effect s d.books _ d₄.books
  rw [hd₄, hd₃, Books.setIntent_setIntent, hd₂]
  refine .payGateway hi hst ho hwait hu hw hn hlt hopen hfree' ⟨rfl, rfl, rfl, rfl, rfl, rfl⟩ hd₁
    ⟨_, rfl⟩ (hcheck.imp_right fun hrow => ?_) hown'
  unfold InvoiceRepository.checkRow at hrow
  exact (Option.or_eq_none_iff.mp hrow).1

/-- `pay_invoice` alone, in either of its branches. -/
theorem payInvoice_effect {x : PaymentService.PayInput} {iid u : Id} (hc : Coherent m d) :
    Ends (PaymentService.payInvoice refresh s now x iid u)
      (fun _ _ d' => Effect s d.books (.payInvoice now x iid u) d'.books) m d := by
  unfold PaymentService.payInvoice InvoiceRepository.getForActor InvoiceRepository.keep
    OrderRepository.lock
  rw [ends_bind, ends_query]
  cases hf : (d.invoices.get? iid).filter fun i =>
      (d.orders.get? i.orderId).any fun o => o.customerId = u || o.courierId = some u with
  | none => trivial
  | some i =>
    obtain ⟨hi, hactor⟩ := Option.filter_eq_some_iff.mp hf
    simp only [ends_bind, ends_orm, ends_ret, ends_require, ends_lock]
    -- The invoice is issued and in time, and its order waits for it.
    intro hst hexp
    cases ho : d.orders.get? i.orderId with
    | none => trivial
    | some o =>
      have hu : o.customerId = u ∨ o.courierId = some u := by simpa [ho] using hactor
      simp only [ends_bind, ends_require]
      intro hwait
      refine getByUser_ends (fun id w h => hc id w h) fun m₁ hc₁ => ?_
      cases hw : d.wallets.find? fun _ w => w.userId = some u with
      | none => trivial
      | some y =>
        obtain ⟨wid, w⟩ := y
        simp only [ends_bind, ends_ofExcept]
        intro total htotal
        obtain ⟨rfl, -⟩ := eq_of_quantizeMoney_money htotal
        unfold availableBalance
        rw [ends_bind]
        refine getByUser_ends hc₁ fun m₂ hc₂ => ?_
        simp only [hw, ends_ofExcept]
        intro a ha k hk
        rw [available, Dec.sub_cents] at ha
        obtain ⟨rfl, -⟩ := eq_of_quantizeMoney_fix ha
        rw [Dec.sub_cents] at hk
        obtain ⟨rfl, -⟩ := eq_of_quantizeMoney_fix hk
        rw [ends_ite]
        constructor
        · intro hle
          -- The wallet covers the total.
          exact payFromWallet_effect hc₂ hi hst ho hwait hu hw (by omega) hexp
        · intro hlt
          unfold PaymentService.payThroughGateway PaymentRepository.getOpenIntentForInvoice
          rw [ends_bind, ends_query]
          split
          · -- An open intent is answered with its link, and nothing is written.
            exact .idle
          rename_i hopen
          refine startGateway_effect hc₂ hi hst ho hwait hu hw rfl (by omega) ?_
          cases hopen' : d.books.openIntent iid with
          | none => rfl
          | some z =>
            have hz : (d.intents.find? fun _ p =>
                p.referenceInvoiceId = some iid && p.status = .new) = some z := hopen'
            rw [hz] at hopen
            cases hurl : z.2.streampayPaymentUrl with
            | none => exact hurl
            | some url => simp [hurl] at hopen

/-- The amount of an event that was compared with the amount due. -/
theorem eq_of_mapM_quantizeMoney {x : Option ℤ} {n : ℤ}
    (h : (x.mapM fun k => quantizeMoney (money k)) = .ok (some n)) : x = some n := by
  cases x with
  | none => cases h
  | some k =>
    obtain ⟨k', hk, heq⟩ := exists_of_bind_eq_ok h
    obtain ⟨rfl, -⟩ := eq_of_quantizeMoney_money hk
    exact Except.ok.inj heq

/-- `handle_webhook` alone. -/
theorem handleWebhook_effect {v g : Bool} {c : Id} {e : Except Err PaymentService.WebhookEvent}
    (hc : Coherent m d) :
    Ends (PaymentService.handleWebhook refresh now v g c e)
      (fun _ _ d' => Effect s d.books (.handleWebhook now v g c e) d'.books) m d := by
  unfold PaymentService.handleWebhook
  simp only [ends_bind, ends_require, ends_ofExcept]
  rintro hv e rfl hg
  unfold PaymentService.settleLocked PaymentRepository.lockIntentByPaymentLink
  simp only [ends_bind, ends_lock, ends_ret]
  cases hf : d.intents.find? fun _ p => p.streampayPaymentLinkId = some e.paymentLinkId with
  | none => trivial
  | some y =>
    obtain ⟨jid, p⟩ := y
    obtain ⟨hp, hlink⟩ := Table.find?_eq_some hf
    have hlink : p.streampayPaymentLinkId = some e.paymentLinkId := by simpa using hlink
    simp only [ends_ite, ends_bind, ends_ofExcept, ends_require, Prog.pure_eq, ends_ret]
    refine ⟨fun _ => .idle, fun hnew => ⟨fun hev => ?_, fun hev => ?_⟩⟩
    · rw [not_not] at hnew
      unfold PaymentRepository.markFailed
      refine flushIntent_ends hp (by simp [PaymentIntent.assign]) fun _ d₁ hd₁ => ?_
      rw [hd₁]
      exact .webhookFailed hp hnew hlink hev ⟨hv, hg⟩
    · rw [not_not] at hnew
      rw [Bool.not_eq_false] at hev
      intro _ hquantized due hdue hsame
      obtain ⟨rfl, -⟩ := eq_of_quantizeMoney_money hdue
      have hamount : e.amount = some p.amount := by
        rw [hsame] at hquantized
        exact eq_of_mapM_quantizeMoney hquantized
      unfold PaymentRepository.markPaid
      -- The intent itself is written last, over whatever the settlement did to the other tables.
      have hlast : ∀ {m₁ d₁} {b₁ : Books}, d₁.books = b₁ → d₁.intents = d.intents →
          Effect s d.books (.handleWebhook now v g c (.ok e))
            (b₁.setIntent jid { p with status := .paid, paidAt := some now }) →
          Ends (PaymentRepository.flush [] jid p { p with status := .paid, paidAt := some now })
            (fun _ _ d' => Effect s d.books (.handleWebhook now v g c (.ok e)) d'.books) m₁ d₁ := by
        intro m₁ d₁ b₁ hd₁ hintents heffect
        refine flushIntent_ends (by rw [hintents]; exact hp) (by simp [PaymentIntent.assign])
          fun _ d₂ hd₂ => ?_
        rw [hd₂, hd₁]
        exact heffect
      unfold PaymentService.settleIntent
      split
      · rename_i hpurpose
        unfold PaymentService.settleTopup
        rw [ends_bind]
        refine getByUser_ends hc fun m₁ hc₁ => ?_
        split
        · trivial
        rename_i wid w hw
        have hw : d.books.walletOf p.userId = some (wid, w) := hw
        simp only [ends_bind, Prog.pure_eq, ends_ret]
        refine creditTopup_ends hc₁ (fun m₂ _ hkey => ?_) fun m₂ sys n d₁ hn hsys _ hpost => ?_
        · exact hlast rfl rfl (.webhookTopup hp hnew hlink hev hpurpose hw (.inl ⟨hkey, rfl⟩))
        · obtain ⟨rfl, -⟩ := eq_of_quantizeMoney_money hn
          have hbooks := hpost.books
          obtain ⟨ts, hposted⟩ := hpost
          refine hlast rfl (by rw [hposted.eq]; rfl) ?_
          exact .webhookTopup hp hnew hlink hev hpurpose hw (.inr ⟨sys, hsys, hbooks⟩)
      · rename_i hpurpose
        unfold PaymentService.settleInvoice InvoiceRepository.lock OrderRepository.lock
        split
        · trivial
        rename_i iid href
        simp only [ends_bind, ends_lock, ends_ret]
        cases hi : d.invoices.get? iid with
        | none => trivial
        | some i =>
          simp only [ends_ite, ends_bind, ends_lock, ends_ret, Prog.pure_eq]
          refine ⟨fun hst => ?_, fun hst => ?_⟩
          · exact hlast rfl rfl (.webhookPaid hp hnew hlink hev hpurpose href hi hst hamount
              ⟨hv, hg⟩)
          cases ho : d.orders.get? i.orderId with
          | none => trivial
          | some o =>
            rw [ends_bind]
            refine getByUser_ends hc fun m₁ hc₁ => ?_
            split
            · trivial
            rename_i wid w hw
            have hw : d.books.walletOf p.userId = some (wid, w) := hw
            simp only [ends_bind]
            refine fundEscrow_ends hc₁ fun _ m₂ d₁ _ hfund hinvoices horders hintents => ?_
            refine settleInvoiceRecord_ends (by rw [hinvoices]; exact hi)
              (by rw [horders]; exact ho) hst fun ht hsole hcheck d₂ hd₂ => ?_
            have hsole' : d.books.Sole iid i.orderId := by
              intro j k hk
              refine hsole j k ?_
              change d₁.invoices.get? j = some k
              rw [hinvoices]
              exact hk
            refine hlast hd₂ ((congrArg Books.intents hd₂).trans hintents) ?_
            exact .webhookSettle hp hnew hlink hev hpurpose href hi hst ho ht hw hfund hsole' hcheck

/-- `_expire_topup_intent` alone. -/
theorem expireTopupIntent_effect {jid : Id} :
    Ends (Expiry.expireTopupIntent jid)
      (fun _ _ d' => Effect s d.books (.expireTopupIntent jid) d'.books) m d := by
  unfold Expiry.expireTopupIntent PaymentRepository.lockIntent
  simp only [ends_bind, ends_lock, ends_ret]
  cases hp : d.intents.get? jid with
  | none => exact .idle
  | some p =>
    simp only [ends_ite, ends_bind, Prog.pure_eq, ends_ret]
    refine ⟨fun _ => .idle, fun hpurpose => ?_⟩
    rw [not_not] at hpurpose
    unfold PaymentRepository.markExpired
    refine flushIntent_ends hp (by simp [PaymentIntent.assign]) fun _ d₁ hd₁ => ?_
    rw [hd₁]
    exact .expireTopup hp hpurpose

/-- The order of a participant, locked. -/
theorem lockForActor_ends {oid u : Id} {Q : Order → Memory → Db → Prop}
    (h : ∀ o, d.orders.get? oid = some o → Q o m d) :
    Ends (FulfillmentService.lockForActor oid u) Q m d := by
  unfold FulfillmentService.lockForActor OrderRepository.getForActor OrderRepository.lock
  simp only [ends_bind, ends_query, ends_require, ends_lock, ends_ret]
  intro _
  cases ho : d.orders.get? oid with
  | none => trivial
  | some o => exact h o ho

/-- `submit_delivery` alone. -/
theorem submitDelivery_effect {confirm : Text → Except Err Unit} {q : Option ℚ} {oid k : Id}
    {keys : List Text} :
    Ends (FulfillmentService.submitDelivery s now confirm q oid k keys)
      (fun _ _ d' => Effect s d.books (.submitDelivery now confirm q oid k keys) d'.books) m d := by
  unfold FulfillmentService.submitDelivery
  simp only [ends_bind]
  refine lockForActor_ends fun o ho => assertTransition_ends fun ht => ?_
  simp only [ends_require, ends_ofExcept]
  intro _ _ _ _ _
  refine flushOrder_ends ho (Order.assign_of_frozen rfl) fun _ d₁ hd₁ => ?_
  rw [hd₁]
  exact .submitDelivery ho ht rfl

/-- `raise_dispute` alone. -/
theorem raiseDispute_effect {xid oid u : Id} {why : Text} :
    Ends (FulfillmentService.raiseDispute now xid oid u why)
      (fun _ _ d' => Effect s d.books (.raiseDispute now xid oid u why) d'.books) m d := by
  unfold FulfillmentService.raiseDispute DisputeRepository.getForOrder DisputeRepository.create
  simp only [ends_bind, Prog.pure_eq, ends_ret]
  refine lockForActor_ends fun o ho => ?_
  simp only [ends_query, ends_require]
  intro _
  refine assertTransition_ends fun ht => ?_
  refine flushOrder_ends ho (Order.assign_of_frozen rfl) fun _ d₁ hd₁ => ?_
  refine insertRow_ends fun hfree _ => ?_
  have hbooks : ∀ x, (d₁.insertDispute xid x).books = d₁.books.setDispute xid x := fun x => by
    simp only [Db.insertDispute, Db.books, Books.setDispute, Table.insert_eq_set x hfree]
  rw [hbooks, hd₁]
  exact .raiseDispute ho ht rfl

/-- The paid invoice of an order. -/
theorem paidInvoice_ends {oid : Id} {Q : Id × Invoice → Memory → Db → Prop}
    (h : ∀ iid i, d.invoices.get? iid = some i → i.orderId = oid → i.status = .paid →
      Q (iid, i) m d) :
    Ends (FulfillmentService.paidInvoice oid) Q m d := by
  unfold FulfillmentService.paidInvoice InvoiceRepository.getActiveForOrder
  rw [ends_bind, ends_query]
  split
  · trivial
  rename_i y hy
  obtain ⟨hf, hst⟩ := Option.filter_eq_some_iff.mp hy
  obtain ⟨hi, hio⟩ := Table.find?_eq_some hf
  simp only [Bool.and_eq_true, decide_eq_true_eq] at hio
  exact h y.1 y.2 hi hio.1 (by simpa using hst)

/-- The tables that a payout leaves alone. -/
theorem PostedGroup.tables {c : Id} {legs : List Leg} {d' : Db} (h : PostedGroup c legs d d') :
    d'.orders = d.orders ∧ d'.disputes = d.disputes := by
  obtain ⟨ts, hp⟩ := h
  rw [hp.eq]
  exact ⟨rfl, rfl⟩

/-- `release_escrow_on_completion` alone, for the settlement of an invoice. -/
theorem releaseFor_ends {oid iid k wid c : Id} {i : Invoice} {w : Wallet} {x : Settlement}
    {Q : Bool → Memory → Db → Prop} (hc : Coherent m d)
    (hx : FulfillmentService.settlementOf s i = .ok x) (hw : d.books.walletOf k = some (wid, w))
    (h : ∀ p m' d', d'.orders = d.orders → d'.disputes = d.disputes →
      d.books.PaidOut s c oid iid i .completed d'.books → Q p m' d') :
    Ends (FulfillmentService.releaseFor refresh oid iid wid x c) Q m d := by
  unfold FulfillmentService.releaseFor
  refine releaseEscrowOnCompletion_ends hc ?_ ?_
  · exact fun m' _ hkey => h _ m' d rfl rfl (.inl ⟨⟨_, by simp [Books.payoutKeys], hkey⟩, rfl⟩)
  · intro m' e t r p y z d' hp hy hz he ht hr _ hpost
    obtain ⟨rfl, -⟩ := eq_of_quantizeMoney_money hp
    obtain ⟨rfl, -⟩ := eq_of_quantizeMoney_money hy
    obtain ⟨rfl, -⟩ := eq_of_quantizeMoney_money hz
    obtain ⟨horders, hdisputes⟩ := hpost.tables
    exact h _ m' d' horders hdisputes (.inr ⟨_, .release hx hw he ht hr, hpost.books⟩)

/-- `_complete_and_release` alone. -/
theorem completeAndRelease_effect {r : Request} {c oid : Id} {o : Order} (hc : Coherent m d)
    (hr : r.Settles d.books oid .completed) (ho : d.orders.get? oid = some o) :
    Ends (FulfillmentService.completeAndRelease refresh s now c oid o)
      (fun _ _ d' => Effect s d.books r d'.books ∧
        ∃ o', d'.orders.get? oid = some o' ∧ o'.status = .completed) m d := by
  unfold FulfillmentService.completeAndRelease
  simp only [ends_bind]
  refine assertTransition_ends fun ht => paidInvoice_ends fun iid i hi hio hst => ?_
  dsimp only
  split
  · trivial
  rw [ends_bind]
  refine getByUser_ends hc fun m₁ hc₁ => ?_
  split
  · trivial
  rename_i wid w hw
  simp only [ends_bind, ends_ofExcept]
  intro x hx
  -- The money moves, and then the order is closed.
  refine releaseFor_ends hc₁ hx hw fun _ m₂ d₁ horders hdisputes hpay => ?_
  refine flushOrder_ends (by rw [horders]; exact ho) (Order.assign_of_frozen rfl) fun _ d₂ hd₂ => ?_
  constructor
  · rw [hd₂]
    exact .settle hr ho ht hi hio hst hpay ⟨rfl, rfl, rfl, rfl⟩
  · change ∃ o', d₂.books.orders.get? oid = some o' ∧ _
    rw [hd₂, Books.setOrder, Table.get?_set, if_pos rfl]
    exact ⟨_, rfl, rfl⟩

/-- `approve_order` alone. -/
theorem approveOrder_effect {c oid u : Id} (hc : Coherent m d) :
    Ends (FulfillmentService.approveOrder refresh s now c oid u)
      (fun _ _ d' => Effect s d.books (.approveOrder now c oid u) d'.books) m d := by
  unfold FulfillmentService.approveOrder
  rw [ends_bind]
  exact lockForActor_ends fun o ho =>
    (completeAndRelease_effect hc .approve ho).mono fun _ _ _ h => h.1

/-- The automatic approval alone. -/
theorem autoApprove_effect {c oid : Id} (hc : Coherent m d) :
    Ends (FulfillmentService.autoApprove refresh s now c oid)
      (fun _ _ d' => Effect s d.books (.autoApprove now c oid) d'.books) m d := by
  unfold FulfillmentService.autoApprove OrderRepository.lock
  simp only [ends_bind, ends_lock, ends_ret]
  cases ho : d.orders.get? oid with
  | none => exact .idle
  | some o =>
    simp only [ends_ite, ends_bind, Prog.pure_eq, ends_ret]
    exact ⟨fun _ => .idle,
      fun _ => (completeAndRelease_effect hc .auto ho).mono fun _ _ _ h => h.1⟩

/-- `_apply_dispute_outcome` alone: the escrow is paid out, and the order keeps its columns but for
the amounts. -/
theorem applyDisputeOutcome_ends {c oid iid : Id} {o : Order} {i : Invoice}
    {outcome : DisputeStatus} {n : Option Decimal} {Q : Order × OrderStatus → Memory → Db → Prop}
    (hc : Coherent m d)
    (h : ∀ o' st m' d', d'.orders = d.orders → d'.disputes = d.disputes →
      d.books.PaidOut s c oid iid i st d'.books → (st = .refunded ↔ outcome = .resolvedCustomer) →
      o'.frozen = o.frozen ∧ o'.courierId = o.courierId ∧ o'.totalAmount = o.totalAmount →
      Q (o', st) m' d') :
    Ends (FulfillmentService.applyDisputeOutcome refresh s c oid o iid i outcome n) Q m d := by
  unfold FulfillmentService.applyDisputeOutcome
  split
  · trivial
  simp only [ends_bind]
  refine getByUser_ends hc fun m₁ hc₁ => getByUser_ends hc₁ fun m₂ hc₂ => ?_
  split
  · rename_i kid kw uid uw hk hu
    cases outcome with
    | «open» => trivial
    | resolvedCustomer =>
      simp only [ends_bind, Prog.pure_eq, ends_ret]
      -- A key that is there already means that the order was paid out; otherwise the refund is
      -- posted.
      refine refundEscrow_ends hc₂ (fun m₃ _ hkey => ?_) fun m₃ e a d₁ ha he _ hpost => ?_
      · exact h o .refunded m₃ d rfl rfl (.inl ⟨⟨_, by simp [Books.payoutKeys], hkey⟩, rfl⟩)
          (by simp) ⟨rfl, rfl, rfl⟩
      · obtain ⟨rfl, -⟩ := eq_of_quantizeMoney_money ha
        obtain ⟨horders, hdisputes⟩ := hpost.tables
        exact h o .refunded m₃ d₁ horders hdisputes (.inr ⟨_, .refund hu he, hpost.books⟩)
          (by simp) ⟨rfl, rfl, rfl⟩
    | resolvedCourier =>
      simp only [ends_bind, ends_ofExcept, Prog.pure_eq, ends_ret]
      intro x hx
      -- The courier gets what a completion gives.
      refine releaseFor_ends hc₂ hx hk fun _ m₃ d₁ horders hdisputes hpay => ?_
      exact h _ .completed m₃ d₁ horders hdisputes hpay (by simp) ⟨rfl, rfl, rfl⟩
    | resolvedSplit =>
      dsimp only
      split
      · trivial
      simp only [ends_bind, ends_ofExcept, ends_require, Prog.pure_eq, ends_ret]
      intro a _ total _ _
      -- The customer's part is the given amount, the courier's the rest of the total.
      refine splitEscrow_ends hc₂ (fun m₃ _ hkey => ?_) fun m₃ e a' b' d₁ ha' hb' he _ hpost => ?_
      · exact h _ .completed m₃ d rfl rfl (.inl ⟨⟨_, by simp [Books.payoutKeys], hkey⟩, rfl⟩)
          (by simp) ⟨rfl, rfl, rfl⟩
      · obtain ⟨rfl, -⟩ := eq_of_quantizeMoney_money ha'
        rw [Dec.sub_cents] at hb'
        obtain ⟨rfl, -⟩ := eq_of_quantizeMoney_fix hb'
        obtain ⟨horders, hdisputes⟩ := hpost.tables
        rw [add_sub_cancel] at hpost
        exact h _ .completed m₃ d₁ horders hdisputes (.inr ⟨_, .split hk hu he, hpost.books⟩)
          (by simp) ⟨rfl, rfl, rfl⟩
  · trivial

/-- `resolve_dispute` alone, with each of its outcomes. -/
theorem resolveDispute_effect {c xid a : Id} {outcome : DisputeStatus} {note : Option Text}
    {n : Option Decimal} (hc : Coherent m d) :
    Ends (FulfillmentService.resolveDispute refresh s now c xid a outcome note n)
      (fun _ _ d' => Effect s d.books (.resolveDispute now c xid a outcome note n) d'.books) m d := by
  unfold FulfillmentService.resolveDispute DisputeRepository.lock OrderRepository.lock
  simp only [ends_bind, ends_lock, ends_ret]
  cases hx : d.disputes.get? xid with
  | none => trivial
  | some x =>
    simp only [ends_bind, ends_require, ends_lock, ends_ret]
    intro hopen
    cases ho : d.orders.get? x.orderId with
    | none => trivial
    | some o =>
      simp only [ends_bind]
      refine paidInvoice_ends fun iid i hi hio hst => ?_
      -- The money moves first, and neither the order nor the dispute is written by it.
      refine applyDisputeOutcome_ends hc fun o' st m₁ d₁ horders hdisputes hpay hrefund ho' => ?_
      refine assertTransition_ends fun ht => ?_
      refine flushOrder_ends (by rw [horders]; exact ho) (Order.assign_of_frozen ho'.1)
        fun _ d₂ hd₂ => ?_
      have hx₂ : d₂.disputes.get? xid = some x := by
        change d₂.books.disputes.get? xid = _
        rw [hd₂]
        change d₁.disputes.get? xid = _
        rw [hdisputes]
        exact hx
      refine updateRow_ends hx₂ fun _ => ?_
      have hbooks : ∀ f, (d₂.updateDispute xid f).books =
          { d₂.books with disputes := d₂.disputes.update xid f } := fun _ => rfl
      rw [hbooks, hd₂]
      exact .settle (.resolve hx hopen hrefund) ho ht hi hio hst hpay
        ⟨rfl, ho'.1, ho'.2.1, ho'.2.2⟩

/-- What a request that commits alone does to the books. -/
theorem Request.effect (r : Request) (hr : r.trades = true) :
    Ends (r.tx refresh s) (fun _ _ d' => Effect s d.books r d'.books) .empty d := by
  have hc := Coherent.empty d
  cases r <;> simp only [Request.tx, Prog.void, ends_bind, ends_ret]
  case createOrder => exact createOrder_effect
  case acceptOrder => exact acceptOrder_effect
  case cancelOrder => exact cancelOrder_effect
  case createInvoice => exact createInvoice_effect
  case cancelInvoice => exact cancelInvoice_effect
  case createTopup => exact createTopup_effect hc
  case payInvoice => exact payInvoice_effect hc
  case handleWebhook => exact handleWebhook_effect hc
  case expireInvoice => exact expireInvoice_effect hc
  case expireTopupIntent => exact expireTopupIntent_effect
  case submitDelivery => exact submitDelivery_effect
  case approveOrder => exact approveOrder_effect hc
  case autoApprove => exact autoApprove_effect hc
  case raiseDispute => exact raiseDispute_effect
  case resolveDispute => exact resolveDispute_effect hc
  all_goals cases hr

end Services

end Giftly
