import Giftly.Serial.Journal

/-!
# What a request adds to the journal

Every request that commits alone is a turn: it records one event with its group, or none, and leaves
the rows of all earlier events alone (`Books.Turn`). The case analysis over the effects is made here,
once, from the rules for a write of an order, an invoice or an intent (`Books.Advances`). A payment is
from the wallet of the customer of the order, for which `BuyersOk` says who the payer of an intent is.
-/

namespace Giftly

open Store OrderState
open WalletRepository MoneyService

/-! ## Who buys -/

/-- The courier of an order is a courier, and an intent for an invoice is of the order's customer. -/
structure BuyersOk (b : Books) : Prop where
  courier : ∀ oid o k, b.orders.get? oid = some o → o.courierId = some k →
    ∃ v, b.users.get? k = some v ∧ v.role = .courier
  payer : ∀ jid p iid, b.intents.get? jid = some p → p.referenceInvoiceId = some iid →
    ∃ i o, b.invoices.get? iid = some i ∧ b.orders.get? i.orderId = some o ∧
      p.userId = o.customerId

namespace BuyersOk

variable {b b' : Books} {oid iid jid : Id} {o o' : Order} {i i' : Invoice} {p p' : PaymentIntent}

/-- Who buys depends on users, orders, invoices and intents alone. -/
theorem congr (h : BuyersOk b) (hu : b'.users = b.users) (ho : b'.orders = b.orders)
    (hi : b'.invoices = b.invoices) (hp : b'.intents = b.intents) : BuyersOk b' := by
  obtain ⟨users, wallets, transactions, orders, invoices, intents, disputes, promos,
    redemptions⟩ := b'
  dsimp only at hu ho hi hp
  subst hu ho hi hp
  exact ⟨h.courier, h.payer⟩

/-- Who buys does not depend on the money. -/
theorem same (h : BuyersOk b) (hs : b.SameDeals b') : BuyersOk b' :=
  h.congr hs.users hs.orders hs.invoices hs.intents

/-- A write of an order that keeps its customer. -/
theorem setOrder (h : BuyersOk b)
    (hcustomer : ∀ o, b.orders.get? oid = some o → o'.customerId = o.customerId)
    (hcourier : ∀ k, o'.courierId = some k → ∃ v, b.users.get? k = some v ∧ v.role = .courier) :
    BuyersOk (b.setOrder oid o') where
  courier l x k hx hk := by
    simp only [Books.setOrder, Table.get?_set] at hx
    split_ifs at hx
    · obtain rfl := Option.some.inj hx
      exact hcourier k hk
    · exact h.courier l x k hx hk
  payer j q l hq href := by
    obtain ⟨y, x, hy, hx, heq⟩ := h.payer j q l hq href
    by_cases hl : y.orderId = oid
    · have hsame := hcustomer x (hl ▸ hx)
      exact ⟨y, o', hy, by simp [Books.setOrder, hl], heq.trans hsame.symm⟩
    · exact ⟨y, x, hy, by simp [Books.setOrder, hl, hx], heq⟩

/-- A write of an order that keeps its parties. -/
theorem moveOrder (h : BuyersOk b) (ho : b.orders.get? oid = some o)
    (hparties : o'.customerId = o.customerId ∧ o'.courierId = o.courierId) :
    BuyersOk (b.setOrder oid o') := by
  apply h.setOrder
  · intro x hx
    obtain rfl : o = x := Option.some.inj (ho.symm.trans hx)
    exact hparties.1
  · intro k hk
    exact h.courier oid o k ho (hparties.2 ▸ hk)

/-- A write of an invoice that keeps its order. -/
theorem setInvoice (h : BuyersOk b)
    (horder : ∀ i, b.invoices.get? iid = some i → i'.orderId = i.orderId) :
    BuyersOk (b.setInvoice iid i') where
  courier := h.courier
  payer j q l hq href := by
    obtain ⟨y, x, hy, hx, heq⟩ := h.payer j q l hq href
    by_cases hl : l = iid
    · have hsame := horder y (hl ▸ hy)
      exact ⟨i', x, by simp [Books.setInvoice, hl], hsame ▸ hx, heq⟩
    · exact ⟨y, x, by simp [Books.setInvoice, hl, hy], hx, heq⟩

/-- An invoice that stays with its order has the same buyer. -/
theorem moveInvoice (h : BuyersOk b) (hi : b.invoices.get? iid = some i)
    (horder : i'.orderId = i.orderId) : BuyersOk (b.setInvoice iid i') := by
  apply h.setInvoice
  intro y hy
  obtain rfl : i = y := Option.some.inj (hi.symm.trans hy)
  exact horder

/-- A write of an intent whose payer is the customer of the invoice's order. -/
theorem setIntent (h : BuyersOk b) (hpayer : ∀ iid, p'.referenceInvoiceId = some iid →
    ∃ i o, b.invoices.get? iid = some i ∧ b.orders.get? i.orderId = some o ∧
      p'.userId = o.customerId) : BuyersOk (b.setIntent jid p') where
  courier := h.courier
  payer j q l hq href := by
    simp only [Books.setIntent, Table.get?_set] at hq
    split_ifs at hq
    · obtain rfl := Option.some.inj hq
      exact hpayer l href
    · exact h.payer j q l hq href

/-- A write of an intent that keeps its user and its invoice. -/
theorem moveIntent (h : BuyersOk b) (hp : b.intents.get? jid = some p)
    (hp' : p'.userId = p.userId ∧ p'.referenceInvoiceId = p.referenceInvoiceId) :
    BuyersOk (b.setIntent jid p') := by
  apply h.setIntent
  intro iid href
  rw [hp'.1]
  exact h.payer jid p iid hp (hp'.2 ▸ href)

/-- The payer of an invoice is the customer of its order. -/
theorem customer_of_payer {u : Id} {v : User} (h : BuyersOk b) (ho : b.orders.get? oid = some o)
    (hv : b.users.get? u = some v) (hrole : v.role = .customer)
    (hu : o.customerId = u ∨ o.courierId = some u) : u = o.customerId := by
  rcases hu with hu | hu
  · exact hu.symm
  · obtain ⟨v', hv', hrole'⟩ := h.courier oid o u ho hu
    obtain rfl : v = v' := Option.some.inj (hv.symm.trans hv')
    rw [hrole] at hrole'
    cases hrole'

/-- The payment of an invoice. -/
theorem settle {b₁ : Books} (h : BuyersOk b) (hs : b.SameDeals b₁)
    (hi : b.invoices.get? iid = some i) (ho : b.orders.get? i.orderId = some o)
    (hi' : i'.orderId = i.orderId)
    (hparties : o'.customerId = o.customerId ∧ o'.courierId = o.courierId) :
    BuyersOk ((b₁.setOrder i.orderId o').setInvoice iid i') := by
  have ho₁ : b₁.orders.get? i.orderId = some o := hs.orders ▸ ho
  have hi₁ : b₁.invoices.get? iid = some i := hs.invoices ▸ hi
  have hmoved : BuyersOk (b₁.setOrder i.orderId o') := (h.same hs).moveOrder ho₁ hparties
  exact hmoved.moveInvoice hi₁ hi'

/-- The buyers after every effect. -/
theorem step {s : Settings} {r : Request} {d : Db} {b' : Books} (h : BuyersOk d.books)
    (hr : r.asRouted d) (heff : Effect s d.books r b') : BuyersOk b' := by
  cases heff with
  | idle => exact h
  | createOrder hfree _ _ hk =>
    apply h.setOrder
    · intro x hx
      rw [hfree] at hx
      cases hx
    · intro k hk'
      rw [hk] at hk'
      cases hk'
  -- The courier's account has the role, and the customer stays.
  | @acceptOrder now g cid oid k o o' u ho hst hu hrole ho' =>
    subst ho'
    apply h.setOrder
    · intro x hx
      obtain rfl : o = x := Option.some.inj (ho.symm.trans hx)
      rfl
    · intro k hk
      obtain rfl := Option.some.inj hk
      exact ⟨_, hu, hrole⟩
  | cancelOrder ho _ ho' | submitDelivery ho _ ho' =>
    subst ho'
    exact h.moveOrder ho ⟨rfl, rfl⟩
  | @raiseDispute now xid oid u why o o' x ho ht ho' =>
    have hparties : o'.customerId = o.customerId ∧ o'.courierId = o.courierId := by
      rw [ho']
      exact ⟨rfl, rfl⟩
    exact (h.moveOrder ho hparties).congr rfl rfl rfl rfl
  | @createInvoice now ids oid k x o o' i promo b₁ ho ht hfree hsole hi hcheck hpromo ho' =>
    subst ho'
    have hsame : b₁.users = d.books.users ∧ b₁.orders = d.books.orders ∧
        b₁.invoices = d.books.invoices ∧ b₁.intents = d.books.intents := by
      cases hpromo <;> exact ⟨rfl, rfl, rfl, rfl⟩
    have h₁ : BuyersOk (b₁.setInvoice ids.invoiceId i) := by
      apply (h.congr hsame.1 hsame.2.1 hsame.2.2.1 hsame.2.2.2).setInvoice
      intro y hy
      rw [hsame.2.2.1, hfree] at hy
      cases hy
    have ho₁ : (b₁.setInvoice ids.invoiceId i).orders.get? oid = some o := hsame.2.1 ▸ ho
    exact h₁.moveOrder ho₁ ⟨rfl, rfl⟩
  | @cancelInvoice now iid k i o hi hst ho ht =>
    have h₁ : BuyersOk ((d.books.released now iid).setOrder i.orderId
        { o with status := .assigned, totalAmount := 0 }) :=
      moveOrder (h.congr rfl rfl rfl rfl) ho ⟨rfl, rfl⟩
    exact h₁.moveInvoice hi rfl
  | @expireInvoice now iid i hi hst =>
    have h₁ : BuyersOk ((d.books.expiredIntent iid i).released now iid) := by
      rcases d.books.expiredIntent_cases iid i with
        ⟨heq, -⟩ | ⟨jid, p, b₁, hp, -, -, heq, hb₁⟩ <;> rw [heq]
      · exact h.congr rfl rfl rfl rfl
      · have hmoved : BuyersOk (b₁.setIntent jid { p with status := .expired }) := by
          rcases hb₁ with ⟨rfl, -⟩ | ⟨wid, w, -, -, rfl⟩
          · exact h.moveIntent hp ⟨rfl, rfl⟩
          · exact moveIntent (h.congr rfl rfl rfl rfl) hp ⟨rfl, rfl⟩
        exact hmoved.congr rfl rfl rfl rfl
    have hi₁ : ((d.books.expiredIntent iid i).released now iid).invoices.get? iid = some i := by
      change (d.books.expiredIntent iid i).invoices.get? iid = some i
      rw [(d.books.tables_expiredIntent iid i).2.1]
      exact hi
    have h₂ : BuyersOk (((d.books.expiredIntent iid i).released now iid).setInvoice iid
        { i with status := .expired }) := h₁.moveInvoice hi₁ rfl
    rcases Books.reopened_cases (((d.books.expiredIntent iid i).released now iid).setInvoice iid
      { i with status := .expired }) i.orderId with ⟨heq, -⟩ | ⟨o, ho, -, heq⟩ <;> rw [heq]
    · exact h₂
    · exact h₂.moveOrder ho ⟨rfl, rfl⟩
  | createTopup _ hp =>
    apply h.setIntent
    intro iid href
    rw [hp.2.2] at href
    cases href
  | @payWallet now x iid u i o wid w b₁ hi hst ho hwait hu hw hle hf =>
    have h₁ : BuyersOk ((b₁.setOrder i.orderId { o with status := .inProgress }).setInvoice iid
        (Books.paidInvoice now i .walletOnly i.totalAmount 0)) :=
      h.settle hf.same hi ho rfl ⟨rfl, rfl⟩
    exact h₁.congr rfl rfl rfl rfl
  -- The payer is a customer, so the intent is of the order's customer.
  | @payGateway now x iid u i i' o wid w p n b₁ hi hst ho hwait hu hw hn hlt hopen hfree hp hb₁ hi' =>
    obtain ⟨v, hv, hrole⟩ := hr
    have hpart : BuyersOk b₁ ∧ b₁.invoices = d.books.invoices ∧ b₁.orders = d.books.orders := by
      rw [hb₁]
      split_ifs <;> exact ⟨h.congr rfl rfl rfl rfl, rfl, rfl⟩
    obtain ⟨h₁, hinvoices, horders⟩ := hpart
    have hsame : i'.orderId = i.orderId := by
      obtain ⟨method, rfl⟩ := hi'
      rfl
    have h₂ : BuyersOk (b₁.setInvoice iid i') := by
      apply h₁.setInvoice
      intro y hy
      rw [hinvoices] at hy
      obtain rfl : i = y := Option.some.inj (hi.symm.trans hy)
      exact hsame
    apply h₂.setIntent
    intro j href
    obtain rfl : iid = j := Option.some.inj (hp.2.2.1.symm.trans href)
    refine ⟨i', o, by simp [Books.setInvoice], ?_, ?_⟩
    · change b₁.orders.get? i'.orderId = some o
      rw [horders, hsame]
      exact ho
    · rw [hp.2.2.2.2.1]
      exact h.customer_of_payer ho hv hrole hu
  | webhookFailed hp | webhookPaid hp | expireTopup hp => exact h.moveIntent hp ⟨rfl, rfl⟩
  | webhookTopup hp _ _ _ _ _ hb =>
    have hp₁ := hp
    rw [← hb.same.intents] at hp₁
    exact (h.same hb.same).moveIntent hp₁ ⟨rfl, rfl⟩
  | @webhookSettle now v g c e jid p iid i o wid w b₁ hp hnew hlink hev hpurpose href hi hst ho ht hw
      hf hsole method =>
    have h₀ : BuyersOk ((b₁.setOrder i.orderId { o with status := .inProgress }).setInvoice iid
        (Books.paidInvoice now i method i.amountFromWallet p.amount)) :=
      h.settle hf.same hi ho rfl ⟨rfl, rfl⟩
    have h₁ : BuyersOk (b₁.settled now iid i o method i.amountFromWallet p.amount) :=
      h₀.congr rfl rfl rfl rfl
    have hp₁ : (b₁.settled now iid i o method i.amountFromWallet p.amount).intents.get? jid =
        some p := by
      change b₁.intents.get? jid = some p
      rw [hf.same.intents]
      exact hp
    exact h₁.moveIntent hp₁ ⟨rfl, rfl⟩
  | @settle r oid st c o o' iid i b₁ xs hset ho ht hi hio hst hpay ho' =>
    have hcustomer : o'.customerId = o.customerId := congrArg Prod.fst ho'.2.1
    have ho₁ : b₁.orders.get? oid = some o := hpay.same.orders ▸ ho
    have h₁ : BuyersOk (b₁.setOrder oid o') :=
      (h.same hpay.same).moveOrder ho₁ ⟨hcustomer, ho'.2.2.1⟩
    exact h₁.congr rfl rfl rfl rfl

end BuyersOk

/-! ## What stays, and what comes about -/

namespace Books

/-- The invoice of an intent, if it has one, is paid. -/
def PaidFor (b : Books) (jid : Id) : Prop :=
  ∀ p iid, b.intents.get? jid = some p → p.referenceInvoiceId = some iid →
    ∃ i, b.invoices.get? iid = some i ∧ i.status = .paid

/-- The rows that record events stay, and at most the event `new` comes to be recorded. -/
structure Advances (b b' : Books) (new : Option Event) : Prop where
  topups : Table.Gains PaymentIntent.toppedUp (new.bind Event.intent?) b.intents b'.intents
  settled : ∃ jid, Table.Gains (fun p => p.status = .paid) jid b.intents b'.intents ∧
    ∀ k, jid = some k → b'.PaidFor k
  invoices : Table.Gains (fun i => i.status = .paid) (new.bind Event.invoice?) b.invoices
    b'.invoices
  orders : Table.Gains (fun o => o.status.closed) (new.bind Event.order?) b.orders b'.orders
  splits : ∀ oid o, b.orders.get? oid = some o → o.status.closed = true →
    (b'.SplitFor oid ↔ b.SplitFor oid)

/-- One event at most is recorded, with its group, and the earlier events stay. -/
inductive Turn (b b' : Books) : Prop
  | quiet (h : b.Advances b' none) (ht : b'.transactions = b.transactions)
  | recorded {e c legs ts} (h : b.Advances b' (some e)) (hnew : e ∉ b.events)
      (hlegs : b'.LegsOf e legs) (ht : b'.transactions = b.transactions ++ ts)
      (hrows : List.Forall₂ (RowOf c) legs ts)

namespace Advances

variable {b b' b₁ : Books} {new : Option Event} {oid iid jid : Id} {o' : Order} {i' : Invoice}
  {p' : PaymentIntent} {e : Event}

/-- The events stay where their tables do. -/
theorem of_eq (ho : b'.orders = b.orders) (hi : b'.invoices = b.invoices)
    (hp : b'.intents = b.intents) (hx : b'.disputes = b.disputes) : b.Advances b' new where
  topups := by
    rw [hp]
    exact .refl _
  settled := by
    rw [hp]
    exact ⟨none, .refl _, by simp⟩
  invoices := by
    rw [hi]
    exact .refl _
  orders := by
    rw [ho]
    exact .refl _
  splits _ _ _ _ := by
    unfold SplitFor
    rw [hx]

/-- No event is recorded where the deals stay. -/
theorem of_same (h : b.SameDeals b') : b.Advances b' new :=
  of_eq h.orders h.invoices h.intents h.disputes

/-- Tables that record no events. -/
theorem congr (h : b.Advances b₁ new) (ho : b'.orders = b₁.orders) (hi : b'.invoices = b₁.invoices)
    (hp : b'.intents = b₁.intents) (hx : b'.disputes = b₁.disputes) : b.Advances b' new where
  topups := by
    rw [hp]
    exact h.topups
  settled := by
    obtain ⟨jid, hgains, hpaid⟩ := h.settled
    unfold PaidFor at hpaid ⊢
    rw [hp, hi]
    exact ⟨jid, hgains, hpaid⟩
  invoices := by
    rw [hi]
    exact h.invoices
  orders := by
    rw [ho]
    exact h.orders
  splits oid o ho hst := by
    have hsplit := h.splits oid o ho hst
    unfold SplitFor at hsplit ⊢
    rw [hx]
    exact hsplit

/-- A write of an order that was not closed. -/
theorem setOrder (h : b.Advances b₁ new) (ho : b₁.orders = b.orders)
    (hold : ∀ o, b.orders.get? oid = some o → o.status.closed = false)
    (hnew : o'.status.closed = true → new = some (.payout oid)) :
    b.Advances (b₁.setOrder oid o') new where
  topups := h.topups
  settled := h.settled
  invoices := h.invoices
  orders := by
    unfold Books.setOrder
    rw [ho]
    apply Table.Gains.set hold
    intro hclosed
    rw [hnew hclosed]
    rfl
  splits := h.splits

/-- A write of an invoice that was not paid. -/
theorem setInvoice (h : b.Advances b₁ new) (hi : b₁.invoices = b.invoices)
    (hold : ∀ i, b.invoices.get? iid = some i → i.status ≠ .paid)
    (hnew : i'.status = .paid → new = some (.payment iid)) :
    b.Advances (b₁.setInvoice iid i') new where
  topups := h.topups
  settled := by
    obtain ⟨jid, hgains, hpaid⟩ := h.settled
    refine ⟨jid, hgains, fun k hk p j hp href => ?_⟩
    obtain ⟨i, hget, hst⟩ := hpaid k hk p j hp href
    -- A paid invoice is not the one that is written.
    have hj : j ≠ iid := by
      rintro rfl
      exact hold i (hi ▸ hget) hst
    exact ⟨i, by simp [Books.setInvoice, hj, hget], hst⟩
  invoices := by
    unfold Books.setInvoice
    rw [hi]
    apply Table.Gains.set
    · intro i hget
      simpa using hold i hget
    · intro hpaid
      rw [hnew (by simpa using hpaid)]
      rfl
  orders := h.orders
  splits := h.splits

/-- A write of an intent that was not paid. -/
theorem setIntent (h : b.Advances b₁ new) (hp : b₁.intents = b.intents)
    (hold : ∀ p, b.intents.get? jid = some p → p.status ≠ .paid)
    (hnew : p'.toppedUp = true → new = some (.topup jid))
    (hpaid : p'.status = .paid → ∀ iid, p'.referenceInvoiceId = some iid →
      ∃ i, b₁.invoices.get? iid = some i ∧ i.status = .paid) :
    b.Advances (b₁.setIntent jid p') new where
  topups := by
    unfold Books.setIntent
    rw [hp]
    apply Table.Gains.set
    · intro p hget
      have hne := hold p hget
      simp [PaymentIntent.toppedUp, hne]
    · intro hpaid
      rw [hnew hpaid]
      rfl
  settled := by
    -- At most this intent becomes paid, since it was not before.
    have hgains : ∀ {k}, (p'.status = .paid → k = some jid) →
        Table.Gains (fun p => p.status = .paid) k b.intents (b₁.setIntent jid p').intents := by
      intro k hk
      unfold Books.setIntent
      rw [hp]
      exact Table.Gains.set (fun p hget => by simpa using hold p hget) fun h => hk (by simpa using h)
    by_cases hst : p'.status = .paid
    · refine ⟨some jid, hgains fun _ => rfl, fun k hk p iid hget href => ?_⟩
      obtain rfl := Option.some.inj hk
      simp only [Books.setIntent, Table.get?_set, if_true, Option.some.injEq] at hget
      subst hget
      exact hpaid hst iid href
    · exact ⟨none, hgains fun h => absurd h hst, by simp⟩
  invoices := h.invoices
  orders := h.orders
  splits := h.splits

/-- The events that are recorded afterwards. -/
theorem mem_events (h : b.Advances b' new) (hnew : ∀ f, new = some f → f ∈ b'.events) :
    e ∈ b'.events ↔ e ∈ b.events ∨ new = some e := by
  constructor
  -- What is recorded afterwards was recorded before, or is new.
  · intro he
    cases e with
    | topup jid =>
      obtain ⟨p, hp, hst⟩ := mem_events_topup.mp he
      rcases h.topups.gains jid p hp hst with hp₀ | hk
      · exact .inl (mem_events_topup.mpr ⟨p, hp₀, hst⟩)
      · exact .inr (Event.bind_intent?.mp hk)
    | payment iid =>
      obtain ⟨i, hi, hst⟩ := mem_events_payment.mp he
      rcases h.invoices.gains iid i hi (by simpa using hst) with hi₀ | hk
      · exact .inl (mem_events_payment.mpr ⟨i, hi₀, hst⟩)
      · exact .inr (Event.bind_invoice?.mp hk)
    | payout oid =>
      obtain ⟨o, ho, hst⟩ := mem_events_payout.mp he
      rcases h.orders.gains oid o ho hst with ho₀ | hk
      · exact .inl (mem_events_payout.mpr ⟨o, ho₀, hst⟩)
      · exact .inr (Event.bind_order?.mp hk)
    | withdrawal id => exact absurd he mem_events_withdrawal
  -- What was recorded stays.
  · rintro (he | rfl)
    · cases e with
      | topup jid =>
        obtain ⟨p, hp, hst⟩ := mem_events_topup.mp he
        exact mem_events_topup.mpr ⟨p, h.topups.keeps jid p hp hst, hst⟩
      | payment iid =>
        obtain ⟨i, hi, hst⟩ := mem_events_payment.mp he
        exact mem_events_payment.mpr ⟨i, h.invoices.keeps iid i hi (by simpa using hst), hst⟩
      | payout oid =>
        obtain ⟨o, ho, hst⟩ := mem_events_payout.mp he
        exact mem_events_payout.mpr ⟨o, h.orders.keeps oid o ho hst, hst⟩
      | withdrawal id => exact absurd he mem_events_withdrawal
    · exact hnew e rfl

end Advances

/-- The invoice of an intent that was paid is paid. -/
def IntentsPaid (b : Books) : Prop :=
  ∀ jid p, b.intents.get? jid = some p → p.status = .paid → b.PaidFor jid

/-- A paid intent's invoice is still paid when events only come to be recorded. -/
theorem IntentsPaid.keep {b b' : Books} {new : Option Event} (h : b.IntentsPaid)
    (hadv : b.Advances b' new) : b'.IntentsPaid := by
  intro jid p hp hst
  obtain ⟨k, hgains, hk⟩ := hadv.settled
  rcases hgains.gains jid p hp (by simpa using hst) with hold | hnew
  · intro q iid hq href
    obtain rfl : p = q := Option.some.inj (hp.symm.trans hq)
    obtain ⟨i, hi, hpaid⟩ := h jid p hold hst p iid hold href
    exact ⟨i, hadv.invoices.keeps iid i hi (by simpa using hpaid), hpaid⟩
  · exact hk jid hnew

/-- A turn records one event at most. -/
theorem Turn.advances {b b' : Books} (h : b.Turn b') : ∃ new, b.Advances b' new := by
  cases h with
  | quiet hadv => exact ⟨none, hadv⟩
  | recorded hadv => exact ⟨_, hadv⟩

end Books

/-! ## Rows that may be written over -/

/-- An order that still moves is not closed. -/
theorem Books.open_of_moves {b : Books} {oid : Id} {o : Order} {st : OrderStatus}
    (ho : b.orders.get? oid = some o) (ht : canTransition o.status st = true) (x : Order)
    (hx : b.orders.get? oid = some x) : x.status.closed = false := by
  obtain rfl : o = x := Option.some.inj (ho.symm.trans hx)
  exact open_of_canTransition ht

/-- An invoice that is not paid records no payment. -/
theorem Books.unpaid_invoice {b : Books} {iid : Id} {i : Invoice}
    (hi : b.invoices.get? iid = some i) (hst : i.status ≠ .paid) (y : Invoice)
    (hy : b.invoices.get? iid = some y) : y.status ≠ .paid := by
  obtain rfl : i = y := Option.some.inj (hi.symm.trans hy)
  exact hst

/-- An intent that is `NEW` records no top-up. -/
theorem Books.unpaid_intent {b : Books} {jid : Id} {p : PaymentIntent}
    (hp : b.intents.get? jid = some p) (hst : p.status = .new) (q : PaymentIntent)
    (hq : b.intents.get? jid = some q) : q.status ≠ .paid := by
  obtain rfl : p = q := Option.some.inj (hp.symm.trans hq)
  rw [hst]
  decide

/-! ## Requests that close no order -/

/-- The roles that the routes demand, and the sweep expires a top-up that it lists, which is open. -/
def Request.asSwept : Request → Db → Prop
  | .expireTopupIntent intentId, d => ∀ p, d.intents.get? intentId = some p → p.status = .new
  | r, d => r.asRouted d

/-- The condition with the sweep contains that of the routes. -/
theorem Request.asRouted_of_asSwept {r : Request} {d : Db} (h : r.asSwept d) : r.asRouted d := by
  cases r <;> first | exact h | exact trivial

section Effects

open Books

variable {s : Settings} {r : Request} {d : Db} {b' : Books}

/-- What `_settle_invoice_record` writes. -/
theorem paidInvoice_fields (now : Time) (i : Invoice) (method : PaymentMethod) (n k : ℤ) :
    (paidInvoice now i method n k).orderId = i.orderId ∧
      (paidInvoice now i method n k).status = .paid ∧
      (paidInvoice now i method n k).totalAmount = i.totalAmount ∧
      (paidInvoice now i method n k).amountFromWallet = n ∧
      (paidInvoice now i method n k).amountFromGateway = k :=
  ⟨rfl, rfl, rfl, rfl, rfl⟩

/-- The group that funds an escrow. -/
theorem Books.Funded.rows {b b₁ : Books} {c wid iid oid : Id} {x : Option Id} {n k : ℤ} {held : Bool}
    (h : b.Funded c wid iid oid x n k held b₁) (hnot : .escrow iid ∉ ledgerKeys b.transactions) :
    0 ≤ n ∧ 0 ≤ k ∧ ∃ g e ts, b.IsSystem .systemGateway g ∧ b.IsSystem .systemEscrow e ∧
      b₁.transactions = b.transactions ++ ts ∧
      List.Forall₂ (RowOf c) (fundingLegs wid g e iid oid x (n + k) n k) ts := by
  rcases h with ⟨hkey, -⟩ | ⟨g, e, b₂, hn, hk, he, hg, hp, hheld⟩
  · exact absurd hkey hnot
  obtain ⟨ts, hrows, rfl, -⟩ := hp
  refine ⟨hn, hk, g, e, ts, hg, he, ?_, hrows⟩
  rcases hheld with ⟨-, rfl⟩ | ⟨-, -, v, -, rfl⟩ <;> rfl

/-- The turn of a payment: the invoice is paid by its parts, and the order goes on. -/
theorem Books.turn_settle {b b₁ b₂ : Books} {c wid iid : Id} {x : Option Id} {n k : ℤ} {held : Bool}
    {i i' : Invoice} {o o' : Order} (hkeys : KeysOk b)
    (hsys : ∀ t g, b.IsSystem t g → b₂.IsSystem t g)
    (hi : b.invoices.get? iid = some i) (hst : i.status ≠ .paid)
    (hf : b.Funded c wid iid i.orderId x n k held b₁) (hsum : n + k = i.totalAmount)
    (hi' : i'.orderId = i.orderId ∧ i'.status = .paid ∧ i'.totalAmount = i.totalAmount ∧
      i'.amountFromWallet = n ∧ i'.amountFromGateway = k)
    (ho' : o'.customerId = o.customerId) (hw : b₂.Owns wid o.customerId)
    (hx : (x = none ∧ k = 0) ∨ ∃ jid p, x = some jid ∧ b₂.intents.get? jid = some p ∧
      p.status = .paid ∧ p.referenceInvoiceId = some iid ∧ p.amount = k)
    (hadv : b.Advances b₂ (some (.payment iid)))
    (htables : b₂.invoices.get? iid = some i' ∧ b₂.orders.get? i.orderId = some o')
    (ht : b₂.transactions = b₁.transactions) : b.Turn b₂ := by
  -- The invoice was not paid, so the group is no replay.
  obtain ⟨hn, hk, g, e, ts, hg, he, hrows, hgroup⟩ := hf.rows (hkeys.not_funded hi hst)
  have hnew : .payment iid ∉ b.events := by
    intro hmem
    obtain ⟨y, hy, hpaid⟩ := mem_events_payment.mp hmem
    obtain rfl : i = y := Option.some.inj (hi.symm.trans hy)
    exact hst hpaid
  -- The legs are those that the paid invoice says.
  have hlegs : b₂.LegsOf (.payment iid) (fundingLegs wid g e iid i'.orderId x i'.totalAmount
      i'.amountFromWallet i'.amountFromGateway) := by
    refine .payment htables.1 hi'.2.1 (by rw [hi'.1]; exact htables.2) (ho' ▸ hw) (hsys _ _ hg)
      (hsys _ _ he) ⟨?_, ?_⟩ ?_
    · rw [hi'.2.2.2.1]
      exact hn
    · rw [hi'.2.2.2.2]
      exact hk
    · rw [hi'.2.2.2.2]
      exact hx
  rw [hi'.1, hi'.2.2.1, hi'.2.2.2.1, hi'.2.2.2.2, ← hsum] at hlegs
  exact .recorded hadv hnew hlegs (ht.trans hrows) hgroup

/-- An invoice is paid, and its order goes on. -/
theorem Books.advances_settled {b b₁ : Books} {now : Time} {iid : Id} {i : Invoice} {o : Order}
    {method : PaymentMethod} {n k : ℤ} (hsame : b.SameDeals b₁)
    (hi : b.invoices.get? iid = some i) (hst : i.status ≠ .paid)
    (ho : b.orders.get? i.orderId = some o) (ht : canTransition o.status .inProgress = true) :
    b.Advances (b₁.settled now iid i o method n k) (some (.payment iid)) := by
  have horder : b.Advances (b₁.setOrder i.orderId { o with status := .inProgress })
      (some (.payment iid)) :=
    (Advances.of_same hsame).setOrder hsame.orders (open_of_moves ho ht) fun h =>
      absurd h Bool.false_ne_true
  exact (horder.setInvoice hsame.invoices (unpaid_invoice hi hst) fun _ => rfl).congr rfl rfl rfl rfl

/-- The turn of an expiry: its open intent lapses, and its order waits for no payment. -/
theorem Books.turn_expireInvoice {b : Books} {now : Time} {iid : Id} {i : Invoice}
    (hi : b.invoices.get? iid = some i) (hst : i.status = .issued) :
    b.Turn ((((b.expiredIntent iid i).released now iid).setInvoice iid
      { i with status := .expired }).reopened i.orderId) := by
  -- The open intent, if there is one, was new and so not paid.
  have hexpired : b.Advances (b.expiredIntent iid i) none := by
    rcases b.expiredIntent_cases iid i with
      ⟨heq, -⟩ | ⟨jid, p, b₁, hp, -, hnew, heq, hb₁⟩ <;> rw [heq]
    · exact Advances.of_eq rfl rfl rfl rfl
    · have h₁ : b.Advances b₁ none ∧ b₁.intents = b.intents := by
        rcases hb₁ with ⟨rfl, -⟩ | ⟨wid, w, -, -, rfl⟩ <;> exact ⟨.of_eq rfl rfl rfl rfl, rfl⟩
      exact h₁.1.setIntent h₁.2 (unpaid_intent hp hnew) (by simp [PaymentIntent.toppedUp]) (by simp)
  obtain ⟨horders, hinvoices, htransactions, -⟩ := b.tables_expiredIntent iid i
  have h₁ : b.Advances ((b.expiredIntent iid i).released now iid) none :=
    hexpired.congr rfl rfl rfl rfl
  have h₂ : b.Advances (((b.expiredIntent iid i).released now iid).setInvoice iid
      { i with status := .expired }) none :=
    h₁.setInvoice hinvoices (unpaid_invoice hi (by rw [hst]; decide)) (by simp)
  rcases Books.reopened_cases (((b.expiredIntent iid i).released now iid).setInvoice iid
    { i with status := .expired }) i.orderId with ⟨heq, -⟩ | ⟨o, ho, hwait, heq⟩ <;> rw [heq]
  · exact .quiet h₂ htransactions
  · have ht : canTransition o.status .assigned = true := by
      rw [hwait]
      rfl
    have ho₀ : b.orders.get? i.orderId = some o := horders ▸ ho
    refine .quiet (h₂.setOrder horders (open_of_moves ho₀ ht) ?_) htransactions
    exact fun h => absurd h Bool.false_ne_true

/-- The turn of a top-up: its intent is paid, and the wallet is credited. -/
theorem Books.turn_topup {b b₁ : Books} {now : Time} {c wid jid : Id} {p : PaymentIntent}
    (hd : DealsOk b) (htopup : .topup jid ∈ ledgerKeys b.transactions → .topup jid ∈ b.events)
    (hp : b.intents.get? jid = some p) (hnew : p.status = .new) (hpurpose : p.purpose = .walletTopup)
    (hb : b.Credited c wid jid p.amount b₁)
    (hown : (b₁.setIntent jid { p with status := .paid, paidAt := some now }).Owns wid p.userId)
    (hsys : ∀ t g, b.IsSystem t g →
      (b₁.setIntent jid { p with status := .paid, paidAt := some now }).IsSystem t g) :
    b.Turn (b₁.setIntent jid { p with status := .paid, paidAt := some now }) := by
  have hnot : .topup jid ∉ b.events := by
    intro hmem
    obtain ⟨q, hq, hpaid⟩ := mem_events_topup.mp hmem
    have hne := unpaid_intent hp hnew q hq
    simp [PaymentIntent.toppedUp, hne] at hpaid
  have hsame := hb.same
  have hadv : b.Advances (b₁.setIntent jid { p with status := .paid, paidAt := some now })
      (some (.topup jid)) := by
    apply (Advances.of_same hsame).setIntent hsame.intents (unpaid_intent hp hnew) fun _ => rfl
    intro _ iid href
    -- A top-up is for no invoice.
    have hpurpose' := (hd.intent jid p iid hp href).1
    rw [hpurpose] at hpurpose'
    cases hpurpose'
  rcases hb with ⟨hkey, -⟩ | ⟨y, hy, hp₁⟩
  · exact absurd (htopup hkey) hnot
  · obtain ⟨ts, hrows, rfl, -⟩ := hp₁
    refine .recorded hadv hnot (.topup (p := { p with status := .paid, paidAt := some now }) ?_ ?_
      hown (hsys _ _ hy)) rfl hrows
    · simp [setIntent]
    · simp [PaymentIntent.toppedUp, hpurpose]

/-- The turn of every effect that closes no order. -/
theorem Effect.turn (hd : DealsOk d.books) (hkeys : KeysOk d.books) (hbuyers : BuyersOk d.books)
    (htopups : ∀ jid, .topup jid ∈ ledgerKeys d.books.transactions → .topup jid ∈ d.books.events)
    (hown : ∀ wid u, d.books.Owns wid u → b'.Owns wid u)
    (hsys : ∀ t g, d.books.IsSystem t g → b'.IsSystem t g)
    (hr : r.asSwept d) (hno : r.closes = false) (heff : Effect s d.books r b') :
    d.books.Turn b' := by
  have hquiet : ∀ {new}, d.books.Advances d.books new := .of_eq rfl rfl rfl rfl
  -- Only a paid top-up and a paid invoice record an event; the other effects are quiet.
  cases heff with
  | idle => exact .quiet hquiet rfl
  | createOrder hfree hst =>
    refine .quiet (hquiet.setOrder rfl (fun x hx => ?_) ?_) rfl
    · rw [hfree] at hx
      cases hx
    · rw [hst]
      exact fun h => absurd h (by decide)
  | @acceptOrder now g cid oid k o o' u ho hst hu hrole ho' =>
    have ht : canTransition o.status .assigned = true := by
      rw [hst]
      rfl
    refine .quiet (hquiet.setOrder rfl (open_of_moves ho ht) ?_) rfl
    rw [ho']
    exact fun h => absurd h Bool.false_ne_true
  | cancelOrder ho ht ho' | submitDelivery ho ht ho' =>
    refine .quiet (hquiet.setOrder rfl (open_of_moves ho ht) ?_) rfl
    rw [ho']
    exact fun h => absurd h Bool.false_ne_true
  | raiseDispute => cases hno
  | @createInvoice now ids oid k x o o' i promo b₁ ho ht hfree hsole hi hcheck hpromo ho' =>
    have hsame : b₁.orders = d.books.orders ∧ b₁.invoices = d.books.invoices ∧
        b₁.intents = d.books.intents ∧ b₁.disputes = d.books.disputes ∧
        b₁.transactions = d.books.transactions := by
      cases hpromo <;> exact ⟨rfl, rfl, rfl, rfl, rfl⟩
    have h₁ : d.books.Advances b₁ none :=
      .of_eq hsame.1 hsame.2.1 hsame.2.2.1 hsame.2.2.2.1
    have h₂ : d.books.Advances (b₁.setInvoice ids.invoiceId i) none := by
      refine h₁.setInvoice hsame.2.1 (fun y hy => ?_) ?_
      · rw [hfree] at hy
        cases hy
      · rw [hi.2.1]
        exact fun h => absurd h (by decide)
    refine .quiet (h₂.setOrder hsame.1 (open_of_moves ho ht) ?_) hsame.2.2.2.2
    rw [ho']
    exact fun h => absurd h Bool.false_ne_true
  | @cancelInvoice now iid k i o hi hst ho ht =>
    have h₁ : d.books.Advances (d.books.released now iid) none := .of_eq rfl rfl rfl rfl
    have h₂ : d.books.Advances ((d.books.released now iid).setOrder i.orderId
        { o with status := .assigned, totalAmount := 0 }) none :=
      h₁.setOrder rfl (open_of_moves ho ht) fun h => absurd h Bool.false_ne_true
    exact .quiet (h₂.setInvoice rfl (unpaid_invoice hi (by rw [hst]; decide)) (by simp)) rfl
  | expireInvoice hi hst => exact turn_expireInvoice hi hst
  | createTopup hfree hp =>
    refine .quiet (hquiet.setIntent rfl (fun q hq => ?_) ?_ (by simp [hp.1])) rfl
    · rw [hfree] at hq
      cases hq
    · simp [PaymentIntent.toppedUp, hp.1]
  | @payWallet now x iid u i o wid w b₁ hi hst ho hwait hu hw hle hf =>
    obtain ⟨v, hv, hrole⟩ := hr
    have hne : i.status ≠ .paid := by
      rw [hst]
      decide
    have ht : canTransition o.status .inProgress = true := by
      rw [hwait]
      rfl
    have hadv : d.books.Advances (b₁.settled now iid i o .walletOnly i.totalAmount 0)
        (some (.payment iid)) := advances_settled hf.same hi hne ho ht
    -- The payer is a customer, hence the customer of the order.
    have hpayer := hbuyers.customer_of_payer ho hv hrole hu
    have hcustomer : ({ o with status := .inProgress } : Order).customerId = o.customerId := rfl
    exact turn_settle hkeys hsys hi hne hf (add_zero _)
      (paidInvoice_fields now i .walletOnly i.totalAmount 0) hcustomer
      (hpayer ▸ hown wid u (owns_of_walletOf hw)) (.inl ⟨rfl, rfl⟩) hadv
      ⟨by simp [settled, consumed, setInvoice], by simp [settled, consumed, setInvoice, setOrder]⟩ rfl
  | @payGateway now x iid u i i' o wid w p n b₁ hi hst ho hwait hu hw hn hlt hopen hfree hp hb₁ hi' =>
    have hpart : d.books.Advances b₁ none ∧ b₁.invoices = d.books.invoices ∧
        b₁.intents = d.books.intents ∧ b₁.transactions = d.books.transactions := by
      rw [hb₁]
      split_ifs <;> exact ⟨.of_eq rfl rfl rfl rfl, rfl, rfl, rfl⟩
    obtain ⟨h₁, hinvoices, hintents, ht⟩ := hpart
    have hstatus : i'.status = .issued := by
      obtain ⟨method, rfl⟩ := hi'
      exact hst
    have h₂ : d.books.Advances (b₁.setInvoice iid i') none := by
      refine h₁.setInvoice hinvoices (unpaid_invoice hi (by rw [hst]; decide)) ?_
      rw [hstatus]
      exact fun h => absurd h (by decide)
    refine .quiet (h₂.setIntent hintents (fun q hq => ?_) ?_ (by simp [hp.1])) ht
    · rw [hfree] at hq
      cases hq
    · simp [PaymentIntent.toppedUp, hp.1]
  | webhookFailed hp hnew =>
    exact .quiet (hquiet.setIntent rfl (unpaid_intent hp hnew) (by simp [PaymentIntent.toppedUp])
      (by simp)) rfl
  | webhookTopup hp hnew _ _ hpurpose hw hb =>
    exact turn_topup hd (htopups _) hp hnew hpurpose hb (hown _ _ (owns_of_walletOf hw)) hsys
  | @webhookPaid now v g c e jid p iid i hp hnew hlink hev hpurpose href hi hst =>
    refine .quiet (hquiet.setIntent rfl (unpaid_intent hp hnew) ?_ ?_) rfl
    · simp [PaymentIntent.toppedUp, hpurpose]
    · intro _ k hk
      obtain rfl := Option.some.inj (href.symm.trans hk)
      exact ⟨i, hi, hst⟩
  | @webhookSettle now v g c e jid p iid i o wid w b₁ hp hnew hlink hev hpurpose href hi hst ho ht hw
      hf hsole method =>
    have hsum := hd.sum_of_open hp href hnew hi hst
    have hadv : d.books.Advances ((b₁.settled now iid i o method i.amountFromWallet p.amount).setIntent
        jid { p with status := .paid, paidAt := some now }) (some (.payment iid)) := by
      have hsettled : d.books.Advances (b₁.settled now iid i o method i.amountFromWallet p.amount)
          (some (.payment iid)) := advances_settled hf.same hi hst ho ht
      refine hsettled.setIntent hf.same.intents (unpaid_intent hp hnew) ?_ ?_
      · simp [PaymentIntent.toppedUp, hpurpose]
      · intro _ k hk
        obtain rfl := Option.some.inj (href.symm.trans hk)
        exact ⟨paidInvoice now i method i.amountFromWallet p.amount,
          by simp [settled, consumed, setInvoice], rfl⟩
    -- The intent is of the order's customer.
    obtain ⟨y, z, hy, hz, hpayer⟩ := hbuyers.payer jid p iid hp href
    obtain rfl : i = y := Option.some.inj (hi.symm.trans hy)
    obtain rfl : o = z := Option.some.inj (ho.symm.trans hz)
    have hcustomer : ({ o with status := .inProgress } : Order).customerId = o.customerId := rfl
    refine turn_settle hkeys hsys hi hst hf hsum
      (paidInvoice_fields now i method i.amountFromWallet p.amount) hcustomer
      (hpayer ▸ hown wid _ (owns_of_walletOf hw))
      (.inr ⟨jid, { p with status := .paid, paidAt := some now }, rfl, by simp [setIntent], rfl, href,
        rfl⟩) hadv ⟨?_, ?_⟩ rfl
    · simp [settled, consumed, setInvoice, setIntent]
    · simp [settled, consumed, setInvoice, setOrder, setIntent]
  | expireTopup hp hpurpose =>
    refine .quiet (hquiet.setIntent rfl (unpaid_intent hp (hr _ hp)) ?_ (by simp)) rfl
    simp [PaymentIntent.toppedUp]
  | settle hset => cases hset <;> cases hno

end Effects

/-! ## Requests that close orders -/

/-- A resolved dispute is of a closed order. -/
def Books.ResolvedOk (b : Books) : Prop :=
  ∀ xid x, b.disputes.get? xid = some x → x.status ≠ .open →
    ∃ o, b.orders.get? x.orderId = some o ∧ o.status.closed = true

section Closings

open Books

variable {b b' b₁ : Books} {new : Option Event} {oid iid xid c : Id} {o o' : Order} {i : Invoice}
  {x' : Dispute} {outcome : DisputeStatus} {legs : List Leg}

/-- Closed orders stay closed, and with them the disputes that were resolved. -/
theorem Books.ResolvedOk.keep (h : b.ResolvedOk) (hadv : b.Advances b' new)
    (hx : b'.disputes = b.disputes) : b'.ResolvedOk := by
  intro xid x hget hst
  rw [hx] at hget
  obtain ⟨o, ho, hclosed⟩ := h xid x hget hst
  exact ⟨o, hadv.orders.keeps x.orderId o ho hclosed, hclosed⟩

/-- A write of a dispute that is open, or of a closed order. -/
theorem Books.ResolvedOk.setDispute (h : b.ResolvedOk) (hx : x'.status ≠ .open →
    ∃ o, b.orders.get? x'.orderId = some o ∧ o.status.closed = true) :
    (b.setDispute xid x').ResolvedOk := by
  intro j y hy hst
  simp only [Books.setDispute, Table.get?_set] at hy
  split_ifs at hy
  · obtain rfl := Option.some.inj hy
    exact hx hst
  · exact h j y hy hst

/-- An order that is not closed has no resolved dispute. -/
theorem Books.ResolvedOk.not_splitFor (h : b.ResolvedOk) (ho : b.orders.get? oid = some o)
    (hopen : o.status.closed = false) : ¬b.SplitFor oid := by
  rintro ⟨xid, x, hx, rfl, hst⟩
  obtain ⟨y, hy, hclosed⟩ := h xid x hx (by rw [hst]; decide)
  obtain rfl : o = y := Option.some.inj (ho.symm.trans hy)
  rw [hopen] at hclosed
  cases hclosed

/-- A write of a dispute whose order is not closed, or that is still open. -/
theorem Books.Advances.setDispute (h : b.Advances b₁ new) (hx : b₁.disputes = b.disputes)
    (hother : ∀ k o, b.orders.get? k = some o → o.status.closed = true →
      (x'.orderId ≠ k ∨ x'.status ≠ .resolvedSplit) ∧
        ∀ y, b.disputes.get? xid = some y → y.orderId ≠ k) :
    b.Advances (b₁.setDispute xid x') new where
  topups := h.topups
  settled := h.settled
  invoices := h.invoices
  orders := h.orders
  splits k o ho hst := by
    obtain ⟨hnew, hold⟩ := hother k o ho hst
    constructor
    · rintro ⟨j, y, hy, hyk, hys⟩
      simp only [Books.setDispute, Table.get?_set] at hy
      split_ifs at hy with hj
      · obtain rfl := Option.some.inj hy
        rcases hnew with hne | hne
        · exact absurd hyk hne
        · exact absurd hys hne
      · exact ⟨j, y, hx ▸ hy, hyk, hys⟩
    · rintro ⟨j, y, hy, hyk, hys⟩
      -- A dispute that was split already is another one.
      have hj : j ≠ xid := by
        rintro rfl
        exact hold y hy hyk
      exact ⟨j, y, by simp [Books.setDispute, hj, hx, hy], hyk, hys⟩

/-- The legs of a payout do not depend on the balances. -/
theorem Books.PayoutLegs.mono (h : b.PayoutLegs oid iid o i outcome legs)
    (hown : ∀ wid u, b.Owns wid u → b'.Owns wid u)
    (hsys : ∀ t g, b.IsSystem t g → b'.IsSystem t g) : b'.PayoutLegs oid iid o i outcome legs := by
  cases h with
  | released hst hk hw he ht hr hn =>
    exact .released hst hk (hown _ _ hw) (hsys _ _ he) (hsys _ _ ht) (hsys _ _ hr) hn
  | refunded hst hw he => exact .refunded hst (hown _ _ hw) (hsys _ _ he)
  | split hst hk hkw huw he hn =>
    exact .split hst hk (hown _ _ hkw) (hown _ _ huw) (hsys _ _ he) hn

/-- The turn of a payout: the order is closed. -/
theorem Books.turn_close (hkeys : KeysOk b) (hown : ∀ wid u, b.Owns wid u → b'.Owns wid u)
    (hsys : ∀ t g, b.IsSystem t g → b'.IsSystem t g) (ho : b.orders.get? oid = some o)
    (ht : canTransition o.status o'.status = true) (hi : b.invoices.get? iid = some i)
    (hio : i.orderId = oid) (hst : i.status = .paid)
    (hpay : b.Closes c oid iid o' i outcome b₁) (hadv : b.Advances b' (some (.payout oid)))
    (hsplit : outcome = .resolvedSplit ↔ b'.SplitFor oid)
    (htables : b'.orders.get? oid = some o' ∧ b'.transactions = b₁.transactions) : b.Turn b' := by
  -- A payout that is a replay would be of a closed order.
  rcases hpay with ⟨⟨key, hkey, hmem⟩, -⟩ | ⟨legs, hlegs, hp⟩
  · exact absurd hmem (hkeys.not_settled ho ht hkey)
  have hnew : .payout oid ∉ b.events := by
    intro hmem
    obtain ⟨y, hy, hclosed⟩ := mem_events_payout.mp hmem
    obtain rfl : o = y := Option.some.inj (ho.symm.trans hy)
    rw [open_of_canTransition ht] at hclosed
    cases hclosed
  have hi' : b'.invoices.get? iid = some i := hadv.invoices.keeps iid i hi (by simpa using hst)
  obtain ⟨ts, hrows, hb₁, -⟩ := hp
  have htransactions : b'.transactions = b.transactions ++ ts := by rw [htables.2, hb₁]
  exact .recorded hadv hnew (.payout htables.1 hi' hio hst (hlegs.mono hown hsys) hsplit)
    htransactions hrows

/-- The turn of every request that closes an order. -/
theorem Closing.turn {r : Request} (hkeys : KeysOk b) (hresolved : b.ResolvedOk)
    (hown : ∀ wid u, b.Owns wid u → b'.Owns wid u)
    (hsys : ∀ t g, b.IsSystem t g → b'.IsSystem t g) (h : Closing b r b') :
    b.Turn b' ∧ b'.ResolvedOk := by
  have hquiet : ∀ {new}, b.Advances b new := .of_eq rfl rfl rfl rfl
  cases h with
  | idle => exact ⟨.quiet hquiet rfl, hresolved⟩
  | @raised now xid oid u why o x ho ht hfree hsole hx =>
    have hmoved : b.Advances (b.setOrder oid { o with status := .disputed }) none :=
      hquiet.setOrder rfl (open_of_moves ho ht) fun h => absurd h Bool.false_ne_true
    have hadv : b.Advances ((b.setOrder oid { o with status := .disputed }).setDispute xid x)
        none := by
      apply hmoved.setDispute rfl
      intro k y _ _
      constructor
      · rw [hx.2]
        exact .inr (by decide)
      · intro z hz
        rw [hfree] at hz
        cases hz
    exact ⟨.quiet hadv rfl, (hresolved.keep hmoved rfl).setDispute fun hst => absurd hx.2 hst⟩
  | @completed r now c oid iid o o' i b₁ hr ho ht hi hio hst hpay ho' =>
    have hsame := hpay.same
    have hadv : b.Advances (b₁.setOrder oid o') (some (.payout oid)) :=
      (Advances.of_same hsame).setOrder hsame.orders (open_of_moves ho ht) fun _ => rfl
    -- No dispute of this order was resolved.
    have hnone : ¬(b₁.setOrder oid o').SplitFor oid := by
      rintro ⟨xid, x, hx, hxo, hxs⟩
      have hx : b₁.disputes.get? xid = some x := hx
      rw [hsame.disputes] at hx
      exact hresolved.not_splitFor ho (open_of_canTransition ht) ⟨xid, x, hx, hxo, hxs⟩
    have hturn : b.Turn (b₁.setOrder oid o') :=
      turn_close hkeys hown hsys ho (ho'.1 ▸ ht) hi hio hst hpay hadv
        ⟨fun h => DisputeStatus.noConfusion h, fun h => absurd h hnone⟩ ⟨by simp [setOrder], rfl⟩
    exact ⟨hturn, hresolved.keep hadv hsame.disputes⟩
  | @resolved now c xid x x' a outcome note n iid o o' i b₁ hx hopen ho ht hi hio hst hpay hfinal ho'
      hcheck hx' =>
    have hsame := hpay.same
    have hclosed : o'.status.closed = true := by
      rw [hfinal]
      split_ifs <;> rfl
    have hmoved : b.Advances (b₁.setOrder x.orderId o') (some (.payout x.orderId)) :=
      (Advances.of_same hsame).setOrder hsame.orders (open_of_moves ho ht) fun _ => rfl
    have hadv : b.Advances ((b₁.setOrder x.orderId o').setDispute xid x')
        (some (.payout x.orderId)) := by
      apply hmoved.setDispute hsame.disputes
      intro k y hy hdone
      -- The order of this dispute was open.
      have hk : x.orderId ≠ k := by
        rintro rfl
        rw [open_of_moves ho ht y hy] at hdone
        cases hdone
      refine ⟨.inl (hx'.1 ▸ hk), fun z hz => ?_⟩
      obtain rfl : x = z := Option.some.inj (hx.symm.trans hz)
      exact hk
    -- This dispute is the only resolved one of its order.
    have hsplit : outcome = .resolvedSplit ↔
        ((b₁.setOrder x.orderId o').setDispute xid x').SplitFor x.orderId := by
      constructor
      · intro hout
        exact ⟨xid, x', by simp [Books.setDispute], hx'.1, hx'.2.trans hout⟩
      · rintro ⟨j, y, hy, hyo, hys⟩
        simp only [Books.setDispute, Table.get?_set] at hy
        split_ifs at hy with hj
        · obtain rfl := Option.some.inj hy
          exact hx'.2.symm.trans hys
        · have hy : b₁.disputes.get? j = some y := hy
          rw [hsame.disputes] at hy
          exact absurd ⟨j, y, hy, hyo, hys⟩
            (hresolved.not_splitFor ho (open_of_canTransition ht))
    have hturn : b.Turn ((b₁.setOrder x.orderId o').setDispute xid x') :=
      turn_close hkeys hown hsys ho ht hi hio hst hpay hadv hsplit
        ⟨by simp [setOrder, Books.setDispute], rfl⟩
    refine ⟨hturn, (hresolved.keep hmoved hsame.disputes).setDispute fun _ => ?_⟩
    exact ⟨o', by simp [setOrder, hx'.1], hclosed⟩

end Closings

end Giftly
