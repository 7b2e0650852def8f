import Giftly.Serial.Deals

/-!
# The agreement of orders, invoices and payment intents

An order awaits payment exactly when it has an issued invoice, and an invoice has an open payment
intent only while it is issued. `DealsOk` gives one half for every run. The other half needs that
three requests are not made where they forget a side: `cancel_order` leaves the invoice of an order
that awaits payment issued, `cancel_invoice` leaves the open intent of its invoice open, and so does a
`pay_invoice` that the wallet covers.
-/

namespace Giftly

open Store OrderState

/-- An open payment intent of an invoice. -/
def Books.HasOpenIntent (b : Books) (iid : Id) : Prop :=
  ∃ jid p, b.intents.get? jid = some p ∧ p.referenceInvoiceId = some iid ∧ p.status = .new

/-- The half of the agreement that three requests can break. -/
structure AgreeOk (b : Books) : Prop where
  /-- The order of an issued invoice awaits its payment. -/
  issued : ∀ iid i, b.invoices.get? iid = some i → i.status = .issued →
    ∃ o, b.orders.get? i.orderId = some o ∧ o.status = .waitingPayment
  /-- The invoice of an open payment intent is issued. -/
  open_ : ∀ iid, b.HasOpenIntent iid → ∃ i, b.invoices.get? iid = some i ∧ i.status = .issued

namespace AgreeOk

variable {b b' : Books} {oid iid jid : Id} {o o' : Order} {i i' : Invoice} {p p' : PaymentIntent}

/-- The agreement reads three tables. -/
theorem congr (h : AgreeOk b) (ho : b'.orders = b.orders) (hi : b'.invoices = b.invoices)
    (hp : b'.intents = b.intents) : AgreeOk b' := by
  obtain ⟨users, wallets, transactions, orders, invoices, intents, disputes, promos,
    redemptions⟩ := b'
  dsimp only at ho hi hp
  subst ho hi hp
  exact ⟨h.issued, h.open_⟩

/-- A write of an order. -/
theorem setOrder (h : AgreeOk b) (ho' : o'.status = .waitingPayment ∨
      ∀ iid i, b.invoices.get? iid = some i → i.orderId = oid → i.status ≠ .issued) :
    AgreeOk (b.setOrder oid o') where
  issued iid i hi hst := by
    obtain ⟨o, ho, hwait⟩ := h.issued iid i hi hst
    simp only [Books.setOrder, Table.get?_set]
    split_ifs with hk
    · exact ⟨o', rfl, ho'.resolve_right fun hno => hno iid i hi hk hst⟩
    · exact ⟨o, ho, hwait⟩
  open_ := h.open_

/-- An order that does not await payment moves on. -/
theorem moveOrder (h : AgreeOk b) (ho : b.orders.get? oid = some o)
    (hne : o.status ≠ .waitingPayment) : AgreeOk (b.setOrder oid o') := by
  refine h.setOrder (.inr fun iid i hi hio hst => ?_)
  obtain ⟨o₁, ho₁, hwait⟩ := h.issued iid i hi hst
  obtain rfl : o = o₁ := Option.some.inj (ho.symm.trans (hio ▸ ho₁))
  exact hne hwait

/-- An invoice that is issued for an order that awaits its payment. -/
theorem setIssued (h : AgreeOk b) (hi' : i'.status = .issued)
    (ho : b.orders.get? i'.orderId = some o) (hwait : o.status = .waitingPayment) :
    AgreeOk (b.setInvoice iid i') where
  issued j x hx hst := by
    simp only [Books.setInvoice, Table.get?_set] at hx
    split_ifs at hx
    · obtain rfl := Option.some.inj hx
      exact ⟨o, ho, hwait⟩
    · exact h.issued j x hx hst
  open_ j hj := by
    obtain ⟨x, hx, hst⟩ := h.open_ j hj
    simp only [Books.setInvoice, Table.get?_set]
    split_ifs
    · exact ⟨i', rfl, hi'⟩
    · exact ⟨x, hx, hst⟩

/-- An invoice without an open intent is no longer issued. -/
theorem closeInvoice (h : AgreeOk b) (hi' : i'.status ≠ .issued) (hno : ¬b.HasOpenIntent iid) :
    AgreeOk (b.setInvoice iid i') where
  issued j x hx hst := by
    simp only [Books.setInvoice, Table.get?_set] at hx
    split_ifs at hx
    · obtain rfl := Option.some.inj hx
      exact absurd hst hi'
    · exact h.issued j x hx hst
  open_ j hj := by
    have hne : j ≠ iid := by
      rintro rfl
      exact hno hj
    obtain ⟨x, hx, hst⟩ := h.open_ j hj
    exact ⟨x, by simp [Books.setInvoice, hne, hx], hst⟩

/-- A write of a payment intent. -/
theorem setIntent (h : AgreeOk b)
    (hp' : ∀ iid, p'.referenceInvoiceId = some iid → p'.status = .new →
      ∃ i, b.invoices.get? iid = some i ∧ i.status = .issued) : AgreeOk (b.setIntent jid p') where
  issued := h.issued
  open_ j hj := by
    obtain ⟨k, q, hq, hqj, hnew⟩ := hj
    simp only [Books.setIntent, Table.get?_set] at hq
    split_ifs at hq
    · obtain rfl := Option.some.inj hq
      exact hp' j hqj hnew
    · exact h.open_ j ⟨k, q, hq, hqj, hnew⟩

/-- The agreement stays when an intent is closed. -/
theorem closeIntent (h : AgreeOk b) (hne : p'.status ≠ .new) : AgreeOk (b.setIntent jid p') :=
  h.setIntent fun _ _ hnew => absurd hnew hne

/-- The settlement of an invoice without an open intent. -/
theorem settle (h : AgreeOk b) (hsole : b.Sole iid oid) (hno : ¬b.HasOpenIntent iid)
    (hi' : i'.status = .paid) : AgreeOk ((b.setOrder oid o').setInvoice iid i') := by
  have h₁ : AgreeOk (b.setInvoice iid i') := h.closeInvoice (by rw [hi']; decide) hno
  have h₂ : AgreeOk ((b.setInvoice iid i').setOrder oid o') := by
    refine h₁.setOrder (.inr fun j x hx hxo hissued => ?_)
    simp only [Books.setInvoice, Table.get?_set] at hx
    split_ifs at hx with hj
    · obtain rfl := Option.some.inj hx
      rw [hi'] at hissued
      cases hissued
    · have hinactive := hsole j x hx hj hxo
      rw [hissued] at hinactive
      cases hinactive
  exact h₂.congr rfl rfl rfl

end AgreeOk

/-- When the open intent of an invoice is closed, it has none. -/
theorem DealsOk.not_hasOpenIntent {b : Books} {iid jid : Id} {p p' : PaymentIntent} (h : DealsOk b)
    (hp : b.intents.get? jid = some p) (href : p.referenceInvoiceId = some iid)
    (hnew : p.status = .new) (hne : p'.status ≠ .new) :
    ¬(b.setIntent jid p').HasOpenIntent iid := by
  rintro ⟨k, q, hq, hqi, hqnew⟩
  simp only [Books.setIntent, Table.get?_set] at hq
  split_ifs at hq with hk
  · obtain rfl := Option.some.inj hq
    exact hne hqnew
  · exact hk (h.open_ k jid q p iid hq hp hqi href hqnew hnew)

namespace AgreeOk

variable {b : Books} {iid oid : Id} {i : Invoice}

/-- The open intent of a lapsed invoice is closed. -/
theorem expiredIntent (h : AgreeOk b) (hd : DealsOk b) :
    AgreeOk (b.expiredIntent iid i) ∧ ¬(b.expiredIntent iid i).HasOpenIntent iid := by
  rcases b.expiredIntent_cases iid i with ⟨heq, hnone⟩ | ⟨jid, p, b₁, hp, href, hnew, heq, hb₁⟩ <;>
    rw [heq]
  · refine ⟨h, ?_⟩
    rintro ⟨j, p, hp, href, hnew⟩
    simpa [href, hnew] using Table.find?_eq_none.mp hnone j p hp
  · have hclosed : AgreeOk (b.setIntent jid { p with status := .expired }) := h.closeIntent (by simp)
    have hno : ¬(b.setIntent jid { p with status := .expired }).HasOpenIntent iid :=
      hd.not_hasOpenIntent hp href hnew (by simp)
    rcases hb₁ with ⟨rfl, -⟩ | ⟨wid, w, -, -, rfl⟩
    · exact ⟨hclosed, hno⟩
    · exact ⟨hclosed.congr rfl rfl rfl, hno⟩

/-- The order of a lapsed invoice, when it has no other issued invoice. -/
theorem reopened (h : AgreeOk b)
    (hno : ∀ iid i, b.invoices.get? iid = some i → i.orderId = oid → i.status ≠ .issued) :
    AgreeOk (b.reopened oid) := by
  rcases b.reopened_cases oid with ⟨heq, -⟩ | ⟨o, ho, hst, heq⟩ <;> rw [heq]
  · exact h
  · exact h.setOrder (.inr hno)

end AgreeOk

/-- A participant of the order of an invoice that has not lapsed can pay it from the wallet. -/
def Books.WalletCovers (b : Books) (now : Time) (iid u : Id) : Prop :=
  ∃ i o wid w, b.invoices.get? iid = some i ∧ i.expiresAt.all (fun t => now ≤ t) = true ∧
    b.orders.get? i.orderId = some o ∧ (o.customerId = u ∨ o.courierId = some u) ∧
    b.walletOf u = some (wid, w) ∧ i.totalAmount ≤ w.balance - w.heldBalance

/-- Where a request moves the order, the invoice and the intent together: an order is not cancelled
while it awaits payment, and an invoice with an open payment intent is neither cancelled nor paid
from the wallet. -/
def Request.keepsAgreement : Request → Db → Prop
  | .cancelOrder _ orderId actorId _, d => ∀ o, d.orders.get? orderId = some o →
      (o.customerId = actorId ∨ o.courierId = some actorId) → o.status ≠ .waitingPayment
  | .cancelInvoice _ invoiceId courierId, d => ∀ i, d.invoices.get? invoiceId = some i →
      i.issuedByCourierId = courierId → ¬d.books.HasOpenIntent invoiceId
  | .payInvoice now _ invoiceId customerId, d =>
      d.books.WalletCovers now invoiceId customerId → ¬d.books.HasOpenIntent invoiceId
  | r, _ => r.trades = true

/-- A request that keeps the agreement is not one of withdrawals. -/
theorem Request.trades_of_keepsAgreement {r : Request} {d : Db} (h : r.keepsAgreement d) :
    r.trades = true := by
  cases r <;> first | rfl | exact h

/-- The agreement after every effect of a request that meets the condition. -/
theorem AgreeOk.step {s : Settings} {r : Request} {d : Db} {b' : Books} (h : AgreeOk d.books)
    (hd : DealsOk d.books) (hr : r.keepsAgreement d) (heff : Effect s d.books r b') :
    AgreeOk b' := by
  cases heff with
  | idle => exact h
  | @createOrder now confirm oid u x o hfree hst =>
    -- No stored invoice is of the new order.
    refine h.setOrder (.inr fun iid i hi hio _ => ?_)
    obtain ⟨o₁, ho₁⟩ := hd.order iid i hi
    rw [hio, hfree] at ho₁
    cases ho₁
  | acceptOrder ho hst => exact h.moveOrder ho (by rw [hst]; decide)
  | cancelOrder ho ht ho' hu => exact h.moveOrder ho (hr _ ho hu)
  | @createInvoice now ids oid k x o o' i promo b₁ ho ht hfree hsole hi hcheck hpromo ho' =>
    have hsame : b₁.orders = d.books.orders ∧ b₁.invoices = d.books.invoices ∧
        b₁.intents = d.books.intents := by
      cases hpromo <;> exact ⟨rfl, rfl, rfl⟩
    have h₁ : AgreeOk b₁ := h.congr hsame.1 hsame.2.1 hsame.2.2
    have hwait : o'.status = .waitingPayment := by rw [ho']
    have h₂ : AgreeOk (b₁.setOrder oid o') := h₁.setOrder (.inl hwait)
    have h₃ : AgreeOk ((b₁.setOrder oid o').setInvoice ids.invoiceId i) :=
      h₂.setIssued hi.2.1 (by simp [Books.setOrder, hi.1]) hwait
    exact h₃.congr rfl rfl rfl
  | @cancelInvoice now iid k i o hi hst ho ht hk =>
    have h₁ : AgreeOk (d.books.released now iid) := h.congr rfl rfl rfl
    have h₂ : AgreeOk ((d.books.released now iid).setInvoice iid { i with status := .cancelled }) :=
      h₁.closeInvoice (by simp) (hr i hi hk)
    have h₃ : AgreeOk (((d.books.released now iid).setInvoice iid
        { i with status := .cancelled }).setOrder i.orderId
        { o with status := .assigned, totalAmount := 0 }) := by
      refine h₂.setOrder (.inr fun j x hx hxo hissued => ?_)
      simp only [Books.setInvoice, Table.get?_set] at hx
      split_ifs at hx with hj
      · obtain rfl := Option.some.inj hx
        cases hissued
      · -- The order has no other issued invoice.
        exact hj (hd.sole j iid x i hx hi hxo (by rw [hissued]; rfl) (by rw [hst]; rfl))
    exact h₃.congr rfl rfl rfl
  | @expireInvoice now iid i hi hst =>
    have h₁ : AgreeOk ((d.books.expiredIntent iid i).released now iid) :=
      (h.expiredIntent hd).1.congr rfl rfl rfl
    have h₂ : AgreeOk (((d.books.expiredIntent iid i).released now iid).setInvoice iid
        { i with status := .expired }) := h₁.closeInvoice (by simp) (h.expiredIntent hd).2
    refine h₂.reopened fun j x hx hxo hissued => ?_
    simp only [Books.setInvoice, Table.get?_set] at hx
    split_ifs at hx with hj
    · obtain rfl := Option.some.inj hx
      cases hissued
    · have hx₀ : d.books.invoices.get? j = some x := by
        rw [← (d.books.tables_expiredIntent iid i).2.1]
        exact hx
      exact hj (hd.sole j iid x i hx₀ hi hxo (by rw [hissued]; rfl) (by rw [hst]; rfl))
  | createTopup hfree hp =>
    refine h.setIntent fun iid href _ => ?_
    rw [hp.2.2] at href
    cases href
  | @payWallet now x iid u i o wid w b₁ hi hst ho hwait hu hw hle hf hsole hcheck hexp =>
    -- The condition: no payment through the gateway is open for the invoice.
    have hno := hr ⟨i, o, wid, w, hi, hexp, ho, hu, hw, hle⟩
    have hsame := hf.same
    have h₁ : AgreeOk b₁ := h.congr hsame.orders hsame.invoices hsame.intents
    have hsole₁ : b₁.Sole iid i.orderId := by
      unfold Books.Sole
      rw [hsame.invoices]
      exact hsole
    have hno₁ : ¬b₁.HasOpenIntent iid := by
      unfold Books.HasOpenIntent
      rw [hsame.intents]
      exact hno
    have h₂ : AgreeOk ((b₁.setOrder i.orderId { o with status := .inProgress }).setInvoice iid
        (Books.paidInvoice now i .walletOnly i.totalAmount 0)) := h₁.settle hsole₁ hno₁ rfl
    exact h₂.congr rfl rfl rfl
  | @payGateway now x iid u i i' o wid w p n b₁ hi hst ho hwait hu hw hn hlt hopen hfree hp hb₁ hi' =>
    have hsame : b₁.orders = d.books.orders ∧ b₁.invoices = d.books.invoices ∧
        b₁.intents = d.books.intents := by
      rw [hb₁]
      split_ifs <;> exact ⟨rfl, rfl, rfl⟩
    have h₁ : AgreeOk b₁ := h.congr hsame.1 hsame.2.1 hsame.2.2
    obtain ⟨method, hi'⟩ := hi'
    have hissued : i'.status = .issued := by
      rw [hi']
      exact hst
    have ho₁ : b₁.orders.get? i'.orderId = some o := by
      rw [hi', hsame.1]
      exact ho
    have h₂ : AgreeOk (b₁.setInvoice iid i') := h₁.setIssued hissued ho₁ hwait
    -- The new intent is for this invoice, which is still issued.
    refine h₂.setIntent fun j hj _ => ?_
    obtain rfl : iid = j := Option.some.inj (hp.2.2.1.symm.trans hj)
    exact ⟨i', by simp [Books.setInvoice], hissued⟩
  | webhookFailed hp hnew => exact h.closeIntent (by simp)
  | webhookTopup hp hnew hlink hev hpurpose hw hb =>
    have hsame := hb.same
    exact (h.congr hsame.orders hsame.invoices hsame.intents).closeIntent (by simp)
  | webhookPaid hp => exact h.closeIntent (by simp)
  | @webhookSettle now v g c e jid p iid i o wid w b₁ hp hnew hlink hev hpurpose href hi hst ho ht hw
      hf hsole method hcheck =>
    have hsame := hf.same
    have h₁ : AgreeOk (b₁.setIntent jid { p with status := .paid, paidAt := some now }) :=
      (h.congr hsame.orders hsame.invoices hsame.intents).closeIntent (by simp)
    have hd₁ : DealsOk b₁ := hd.congr hsame.orders hsame.invoices hsame.intents
    have hp₁ : b₁.intents.get? jid = some p := hsame.intents ▸ hp
    -- The intent that is paid was the only open one of the invoice.
    have hno : ¬(b₁.setIntent jid { p with status := .paid, paidAt := some now }).HasOpenIntent iid :=
      hd₁.not_hasOpenIntent hp₁ href hnew (by simp)
    have hsole₁ : b₁.Sole iid i.orderId := by
      unfold Books.Sole
      rw [hsame.invoices]
      exact hsole
    have h₂ : AgreeOk (((b₁.setIntent jid { p with status := .paid, paidAt := some now }).setOrder
        i.orderId { o with status := .inProgress }).setInvoice iid
        (Books.paidInvoice now i method i.amountFromWallet p.amount)) := h₁.settle hsole₁ hno rfl
    exact h₂.congr rfl rfl rfl
  | expireTopup hp => exact h.closeIntent (by simp)
  | @submitDelivery now confirm q oid k keys o o' ho ht =>
    refine h.moveOrder ho fun hwait => ?_
    rw [hwait] at ht
    cases ht
  | @raiseDispute now xid oid u why o o' x ho ht =>
    have h₁ : AgreeOk (d.books.setOrder oid o') := by
      refine h.moveOrder ho fun hwait => ?_
      rw [hwait] at ht
      cases ht
    exact h₁.congr rfl rfl rfl
  | @settle r oid st c o o' iid i b₁ xs hr' ho ht hi hio hst hpay ho' =>
    have hsame := hpay.same
    have h₁ : AgreeOk b₁ := h.congr hsame.orders hsame.invoices hsame.intents
    obtain ⟨-, o₁, ho₁, hf⟩ := hd.paid iid i hi hst
    obtain rfl : o = o₁ := Option.some.inj (ho.symm.trans (hio ▸ ho₁))
    have h₂ : AgreeOk (b₁.setOrder oid o') := by
      refine h₁.moveOrder (hsame.orders ▸ ho) fun hwait => ?_
      rw [hwait] at hf
      cases hf
    exact h₂.congr rfl rfl rfl

/-! ## Runs -/

/-- An invoice of an order with a status. -/
def Db.InvoiceIs (d : Db) (iid oid : Id) (st : InvoiceStatus) : Prop :=
  ∃ i, d.invoices.get? iid = some i ∧ i.orderId = oid ∧ i.status = st

/-- The orders, the invoices and the payment intents agree. -/
structure Db.Agrees (d : Db) : Prop where
  /-- An order awaits payment exactly when it has one issued invoice. -/
  waiting : ∀ oid o, d.orders.get? oid = some o →
    (o.status = .waitingPayment ↔ ∃! iid, d.InvoiceIs iid oid .issued)
  /-- Its total is then that of the invoice. -/
  total : ∀ oid o iid i, d.orders.get? oid = some o → o.status = .waitingPayment →
    d.invoices.get? iid = some i → i.orderId = oid → i.status = .issued →
    o.totalAmount = i.totalAmount
  /-- An order that was paid has one paid invoice. -/
  funded : ∀ oid o, d.orders.get? oid = some o → o.status.funded = true →
    ∃! iid, d.InvoiceIs iid oid .paid
  /-- An order that is new, assigned or cancelled has no active invoice. -/
  idle : ∀ oid o iid i, d.orders.get? oid = some o →
    o.status = .new ∨ o.status = .assigned ∨ o.status = .cancelled →
    d.invoices.get? iid = some i → i.orderId = oid → i.status.active = false
  /-- A payment intent for an invoice is open only while the invoice is issued. -/
  intent : ∀ jid p iid, d.intents.get? jid = some p → p.referenceInvoiceId = some iid →
    p.status = .new → ∃ i, d.invoices.get? iid = some i ∧ i.status = .issued

/-- An order has one invoice of an active status at most. -/
theorem DealsOk.existsUnique {d : Db} {iid oid : Id} {st : InvoiceStatus} (h : DealsOk d.books)
    (hi : d.InvoiceIs iid oid st) (ha : st.active = true) : ∃! iid, d.InvoiceIs iid oid st := by
  refine ⟨iid, hi, fun j hj => ?_⟩
  obtain ⟨i, hi, hio, hst⟩ := hi
  obtain ⟨x, hx, hxo, hxs⟩ := hj
  exact h.sole j iid x i hx hi (hxo.trans hio.symm) (hxs ▸ ha) (hst ▸ ha)

/-- The two halves make up the agreement. -/
theorem AgreeOk.agrees {d : Db} (h : AgreeOk d.books) (hd : DealsOk d.books) : d.Agrees where
  -- The order waits as long as its invoice is issued, and no other is active.
  waiting oid o ho := by
    constructor
    · intro hwait
      obtain ⟨iid, i, hi, hio, hst, -⟩ := hd.waiting oid o ho hwait
      exact hd.existsUnique ⟨i, hi, hio, hst⟩ rfl
    · rintro ⟨iid, ⟨i, hi, hio, hst⟩, -⟩
      obtain ⟨o₁, ho₁, hwait⟩ := h.issued iid i hi hst
      obtain rfl : o = o₁ := Option.some.inj (ho.symm.trans (hio ▸ ho₁))
      exact hwait
  total oid o iid i ho hwait hi hio hst := by
    obtain ⟨j, x, hx, hxo, hxs, hxt⟩ := hd.waiting oid o ho hwait
    have hj : j = iid :=
      hd.sole j iid x i hx hi (hxo.trans hio.symm) (by rw [hxs]; rfl) (by rw [hst]; rfl)
    subst hj
    obtain rfl : x = i := Option.some.inj (hx.symm.trans hi)
    exact hxt.symm
  funded oid o ho hst := by
    obtain ⟨iid, i, hi, hio, hpaid⟩ := hd.funded oid o ho hst
    exact hd.existsUnique ⟨i, hi, hio, hpaid⟩ rfl
  -- An issued or a paid invoice has moved its order on.
  idle oid o iid i ho hst hi hio := by
    have hdraft := (hd.row iid i hi).2
    have hissued : i.status ≠ .issued := by
      intro hissued
      obtain ⟨o₁, ho₁, hwait⟩ := h.issued iid i hi hissued
      obtain rfl : o = o₁ := Option.some.inj (ho.symm.trans (hio ▸ ho₁))
      rw [hwait] at hst
      rcases hst with hst | hst | hst <;> cases hst
    have hpaid : i.status ≠ .paid := by
      intro hpaid
      obtain ⟨-, o₁, ho₁, hf⟩ := hd.paid iid i hi hpaid
      obtain rfl : o = o₁ := Option.some.inj (ho.symm.trans (hio ▸ ho₁))
      rcases hst with hst | hst | hst <;> (rw [hst] at hf; cases hf)
    revert hdraft hissued hpaid
    cases i.status <;> simp [InvoiceStatus.active]
  intent jid p iid hp href hnew := h.open_ iid ⟨jid, p, hp, href, hnew⟩

/-- When no request forgets a side, the orders, the invoices and the payment intents agree in every
state of a run. -/
theorem deals_agree (refresh : Bool) (s : Settings) {d₀ d : Db} (h₀ : Opening d₀)
    (hrun : SerialRun refresh s Request.keepsAgreement d₀ d) : d.Agrees := by
  have hok : DealsOk d.books ∧ AgreeOk d.books := by
    refine hrun.inv (I := fun d => DealsOk d.books ∧ AgreeOk d.books) ⟨h₀.dealsOk, ?_⟩ ?_
    · have hi : ∀ id, d₀.books.invoices.get? id = none := fun id => by
        change d₀.invoices.get? id = none
        rw [h₀.invoices, Table.get?_empty]
      have hp : ∀ id, d₀.books.intents.get? id = none := fun id => by
        change d₀.intents.get? id = none
        rw [h₀.intents, Table.get?_empty]
      exact ⟨by simp [hi], by simp [Books.HasOpenIntent, hp]⟩
    · rintro r d hr ⟨hd, h⟩
      have heff : Effect s d.books r (r.exec refresh s d).books :=
        Request.exec_effect (Request.trades_of_keepsAgreement hr)
      exact ⟨hd.step heff, h.step hd hr heff⟩
  exact hok.2.agrees hok.1

/-- An order that is paid through the gateway. -/
theorem deals_agree_gateway : ∃ d,
    SerialRun false Sample.settings Request.keepsAgreement Sample.opening d ∧
    (d.orders.get? 401).map (·.status) = some .inProgress ∧ d.Agrees := by
  have hbilled : SerialRun false Sample.settings Request.keepsAgreement Sample.opening
      ([Sample.place, Sample.take, Sample.bill 601 none].foldl
        (Request.exec false Sample.settings) Sample.opening) :=
    SerialRun.start.foldl fun r hr d => by
      simp only [List.mem_cons, List.not_mem_nil, or_false] at hr
      rcases hr with rfl | rfl | rfl <;> rfl
  have hintents : ([Sample.place, Sample.take, Sample.bill 601 none].foldl
      (Request.exec false Sample.settings) Sample.opening).intents.rows = [] := by decide +kernel
  have hopened := hbilled.step (Sample.checkOut 601 101) fun _ => by
    rintro ⟨j, p, hp, -⟩
    have hp : ([Sample.place, Sample.take, Sample.bill 601 none].foldl
      (Request.exec false Sample.settings) Sample.opening).intents.get? j = some p := hp
    rw [Table.get?_eq_some, hintents] at hp
    cases hp
  have hpaid := hopened.step (Sample.report 101 Sample.paid 12679) rfl
  exact ⟨_, hpaid, by decide +kernel, deals_agree false Sample.settings Sample.opening_ok hpaid⟩

/-- The customer cancels the order while its payment is awaited: the order is `CANCELLED` and its
invoice still `ISSUED`. -/
theorem deals_disagree : ∃ d,
    SerialRun false Sample.settings (fun r _ => r.trades = true) Sample.opening d ∧ ¬d.Agrees := by
  have hrun : SerialRun false Sample.settings (fun r _ => r.trades = true) Sample.opening
      ([Sample.place, Sample.take, Sample.bill 601 none, .cancelOrder 0 401 1 none].foldl
        (Request.exec false Sample.settings) Sample.opening) :=
    SerialRun.start.foldl fun r hr _ => by
      simp only [List.mem_cons, List.not_mem_nil, or_false] at hr
      rcases hr with rfl | rfl | rfl | rfl <;> rfl
  have horder : (([Sample.place, Sample.take, Sample.bill 601 none, .cancelOrder 0 401 1 none].foldl
      (Request.exec false Sample.settings) Sample.opening).orders.get? 401).any
        (fun o => o.status = .cancelled) = true := by decide +kernel
  have hinvoice : (([Sample.place, Sample.take, Sample.bill 601 none,
      .cancelOrder 0 401 1 none].foldl
      (Request.exec false Sample.settings) Sample.opening).invoices.get? 601).any
        (fun i => i.orderId = 401 && i.status = .issued) = true := by decide +kernel
  obtain ⟨o, ho, hcancelled⟩ := (Option.any_eq_true _ _).mp horder
  obtain ⟨i, hi, hp⟩ := (Option.any_eq_true _ _).mp hinvoice
  simp only [Bool.and_eq_true, decide_eq_true_eq] at hcancelled hp
  refine ⟨_, hrun, fun h => ?_⟩
  -- A cancelled order is idle, and an idle order has no issued invoice.
  have hidle := h.idle 401 o 601 i ho (.inr (.inr hcancelled)) hi hp.1
  rw [hp.2] at hidle
  cases hidle

end Giftly
