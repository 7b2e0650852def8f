import Giftly.Frames
import Giftly.Ledger.Invariant
import Giftly.Serial.Effects

/-!
# Orders, invoices and payment intents over serial runs

`SerialRun` is the closure of a state under requests that run one after the other, each committed or
rolled back. `DealsOk` is the invariant that the orders, the invoices and the payment intents keep in
every such run, whatever is requested: it is proved for the writes that effects are made of, and then
for every effect.
-/

namespace Giftly

open Store OrderState MoneyService

/-! ## Runs -/

/-- A request executed alone, as one transaction. -/
def Request.exec (refresh : Bool) (s : Settings) (d : Db) (r : Request) : Db :=
  (r.tx refresh s).commit .empty d

/-- The states that requests reach one after the other, when each meets a condition on the state it
finds. -/
inductive SerialRun (refresh : Bool) (s : Settings) (cond : Request → Db → Prop) (d₀ : Db) : Db → Prop
  | start : SerialRun refresh s cond d₀ d₀
  | step {d : Db} (r : Request) : SerialRun refresh s cond d₀ d → cond r d →
      SerialRun refresh s cond d₀ (r.exec refresh s d)

/-- What a request that is executed alone does to the books: nothing, or its effect. -/
theorem Request.exec_effect {refresh : Bool} {s : Settings} {d : Db} {r : Request}
    (hr : r.trades = true) : Effect s d.books r (r.exec refresh s d).books :=
  commit_of_ends (I := fun d' : Db => Effect s d.books r d'.books) .idle (r.effect hr)

/-- A request that is executed alone writes its tables only. -/
theorem Request.exec_evolves (refresh : Bool) (s : Settings) (d : Db) (r : Request) :
    d.Evolves r.tables (r.exec refresh s d) := by
  refine commit_of_ends (I := fun d' => d.Evolves r.tables d') (.refl _ d) ?_
  exact (r.writesTo refresh s).ends (Db.Evolves.refl _) (fun _ _ _ => .trans) fun _ _ hf d => (hf d).1

/-- What every request keeps holds in every state of a serial run. -/
theorem SerialRun.inv {refresh : Bool} {s : Settings} {cond : Request → Db → Prop} {d₀ d : Db}
    {I : Db → Prop} (hrun : SerialRun refresh s cond d₀ d) (h₀ : I d₀)
    (hstep : ∀ r d, cond r d → I d → I (r.exec refresh s d)) : I d := by
  induction hrun with
  | start => exact h₀
  | step r _ hr ih => exact hstep r _ hr ih

/-! ## What the parts of an effect leave alone -/

/-- Two books that agree in everything but the wallets and the ledger. -/
structure Books.SameDeals (b b' : Books) : Prop where
  users : b'.users = b.users
  orders : b'.orders = b.orders
  invoices : b'.invoices = b.invoices
  intents : b'.intents = b.intents
  disputes : b'.disputes = b.disputes
  promos : b'.promos = b.promos
  redemptions : b'.redemptions = b.redemptions

namespace Books

variable {b b' : Books} {c wid iid jid oid : Id} {n k : ℤ}

/-- Nothing happens to the deals. -/
theorem SameDeals.refl (b : Books) : b.SameDeals b := ⟨rfl, rfl, rfl, rfl, rfl, rfl, rfl⟩

/-- A posting leaves the deals. -/
theorem Posts.same {legs : List Leg} (h : Posts c legs b b') : b.SameDeals b' := by
  obtain ⟨ts, -, rfl, -⟩ := h
  exact ⟨rfl, rfl, rfl, rfl, rfl, rfl, rfl⟩

/-- The payment of escrow leaves the deals. -/
theorem Funded.same {x : Option Id} {held : Bool} (h : b.Funded c wid iid oid x n k held b') :
    b.SameDeals b' := by
  rcases h with ⟨-, rfl⟩ | ⟨g, e, b₁, -, -, -, -, hp, ⟨-, rfl⟩ | ⟨-, -, v, -, rfl⟩⟩
  · exact .refl b'
  · exact hp.same
  · have h₁ := hp.same
    exact ⟨h₁.users, h₁.orders, h₁.invoices, h₁.intents, h₁.disputes, h₁.promos, h₁.redemptions⟩

/-- A credit leaves the deals. -/
theorem Credited.same (h : b.Credited c wid jid n b') : b.SameDeals b' := by
  rcases h with ⟨-, rfl⟩ | ⟨g, -, hp⟩
  · exact .refl b'
  · exact hp.same

/-- A payout leaves the deals. -/
theorem PaidOut.same {s : Settings} {i : Invoice} {st : OrderStatus}
    (h : b.PaidOut s c oid iid i st b') : b.SameDeals b' := by
  rcases h with ⟨-, rfl⟩ | ⟨legs, -, hp⟩
  · exact .refl b'
  · exact hp.same

/-- An order is reopened, or left alone. -/
theorem reopened_cases (b : Books) (oid : Id) :
    (b.reopened oid = b ∧ ∀ o, b.orders.get? oid = some o → o.status ≠ .waitingPayment) ∨
    ∃ o, b.orders.get? oid = some o ∧ o.status = .waitingPayment ∧
      b.reopened oid = b.setOrder oid { o with status := .assigned, totalAmount := 0 } := by
  unfold reopened
  split
  · rename_i hnone
    refine .inl ⟨rfl, fun o ho => ?_⟩
    rw [hnone] at ho
    cases ho
  · rename_i o ho
    split_ifs with hst
    · exact .inr ⟨o, ho, hst, rfl⟩
    · refine .inl ⟨rfl, fun o₁ ho₁ => ?_⟩
      obtain rfl : o = o₁ := Option.some.inj (ho.symm.trans ho₁)
      exact hst

/-- The order of a lapsed invoice is reopened whatever became of the invoice. -/
theorem reopened_setInvoice (i : Invoice) :
    (b.setInvoice iid i).reopened oid = (b.reopened oid).setInvoice iid i := by
  have horders : (b.setInvoice iid i).orders = b.orders := rfl
  unfold reopened
  rw [horders]
  split
  · rfl
  · split_ifs <;> rfl

/-- An order that is reopened leaves the invoices. -/
theorem invoices_reopened : (b.reopened oid).invoices = b.invoices := by
  rcases b.reopened_cases oid with ⟨heq, -⟩ | ⟨o, -, -, heq⟩ <;> rw [heq]
  rfl

/-- The open intent of a lapsed invoice expires, if there is one, and its hold is returned, if there
is one. -/
theorem expiredIntent_cases (b : Books) (iid : Id) (i : Invoice) :
    (b.expiredIntent iid i = b ∧ b.openIntent iid = none) ∨
    ∃ jid p b₁, b.intents.get? jid = some p ∧ p.referenceInvoiceId = some iid ∧ p.status = .new ∧
      b.expiredIntent iid i = b₁.setIntent jid { p with status := .expired } ∧
      ((b₁ = b ∧ (b.walletOf p.userId = none ∨ ¬0 < i.amountFromWallet)) ∨
        ∃ wid w, b.walletOf p.userId = some (wid, w) ∧ 0 < i.amountFromWallet ∧
          b₁ = b.setHeld wid (max 0 (w.heldBalance - i.amountFromWallet))) := by
  unfold expiredIntent
  split
  · -- No intent of the invoice is open.
    rename_i hnone
    exact .inl ⟨rfl, hnone⟩
  · rename_i jid p hf
    obtain ⟨hp, hpp⟩ := Table.find?_eq_some hf
    simp only [Bool.and_eq_true, decide_eq_true_eq] at hpp
    refine .inr ⟨jid, p, _, hp, hpp.1, hpp.2, rfl, ?_⟩
    split
    · rename_i hnone
      exact .inl ⟨rfl, .inl hnone⟩
    · rename_i wid w hw
      -- Only a positive hold is returned.
      split_ifs with hpos
      · exact .inr ⟨wid, w, hw, hpos, rfl⟩
      · exact .inl ⟨rfl, .inr hpos⟩

/-- The expiry of an intent writes the wallet of its user and the intent. -/
theorem tables_expiredIntent (b : Books) (iid : Id) (i : Invoice) :
    (b.expiredIntent iid i).orders = b.orders ∧ (b.expiredIntent iid i).invoices = b.invoices ∧
      (b.expiredIntent iid i).transactions = b.transactions ∧
      (b.expiredIntent iid i).promos = b.promos ∧
      (b.expiredIntent iid i).redemptions = b.redemptions := by
  rcases b.expiredIntent_cases iid i with ⟨heq, -⟩ | ⟨jid, p, b₁, -, -, -, heq, hb₁⟩
  · rw [heq]
    exact ⟨rfl, rfl, rfl, rfl, rfl⟩
  · rw [heq]
    rcases hb₁ with ⟨rfl, -⟩ | ⟨wid, w, -, -, rfl⟩ <;> exact ⟨rfl, rfl, rfl, rfl, rfl⟩

end Books

/-! ## The invariant -/

/-- A transition other than the one that a payment makes leaves an order on its side. -/
theorem OrderState.funded_of_canTransition {a b : OrderStatus} (h : canTransition a b = true)
    (hb : b ≠ .inProgress) : b.funded = a.funded := by
  cases a <;> cases b <;> first | rfl | (exfalso; revert h hb; decide)

/-- What holds of the orders, the invoices and the payment intents, whatever was requested. -/
structure DealsOk (b : Books) : Prop where
  /-- An order has one active invoice at most. -/
  sole : ∀ iid jid i j, b.invoices.get? iid = some i → b.invoices.get? jid = some j →
    i.orderId = j.orderId → i.status.active = true → j.status.active = true → iid = jid
  /-- An invoice is of an order. -/
  order : ∀ iid i, b.invoices.get? iid = some i → ∃ o, b.orders.get? i.orderId = some o
  /-- An order awaits the payment of an invoice of its total. -/
  waiting : ∀ oid o, b.orders.get? oid = some o → o.status = .waitingPayment →
    ∃ iid i, b.invoices.get? iid = some i ∧ i.orderId = oid ∧ i.status = .issued ∧
      i.totalAmount = o.totalAmount
  /-- An order that goes on has a paid invoice. -/
  funded : ∀ oid o, b.orders.get? oid = some o → o.status.funded = true →
    ∃ iid i, b.invoices.get? iid = some i ∧ i.orderId = oid ∧ i.status = .paid
  /-- The parts of a paid invoice make up its total, and its order goes on. -/
  paid : ∀ iid i, b.invoices.get? iid = some i → i.status = .paid →
    i.amountFromWallet + i.amountFromGateway = i.totalAmount ∧
      ∃ o, b.orders.get? i.orderId = some o ∧ o.status.funded = true
  /-- An invoice meets its constraints and is no draft. -/
  row : ∀ iid i, b.invoices.get? iid = some i → i.check = none ∧ i.status ≠ .draft
  /-- An open intent of an unpaid invoice is for the part that the wallet does not pay. -/
  intent : ∀ jid p iid, b.intents.get? jid = some p → p.referenceInvoiceId = some iid →
    p.purpose = .orderInvoice ∧ (p.status = .new → p.streampayPaymentUrl.isSome = true ∧
      ∃ i, b.invoices.get? iid = some i ∧
        (i.status ≠ .paid → i.amountFromWallet + p.amount = i.totalAmount))
  /-- An invoice has one open intent at most. -/
  open_ : ∀ jid kid p q iid, b.intents.get? jid = some p → b.intents.get? kid = some q →
    p.referenceInvoiceId = some iid → q.referenceInvoiceId = some iid → p.status = .new →
    q.status = .new → jid = kid

namespace DealsOk

variable {b b' : Books} {oid iid jid : Id} {o o' : Order} {i i' : Invoice} {p p' : PaymentIntent}

/-- The invariant reads three tables. -/
theorem congr (h : DealsOk b) (ho : b'.orders = b.orders) (hi : b'.invoices = b.invoices)
    (hp : b'.intents = b.intents) : DealsOk b' := by
  obtain ⟨users, wallets, transactions, orders, invoices, intents, disputes, promos,
    redemptions⟩ := b'
  dsimp only at ho hi hp
  subst ho hi hp
  exact ⟨h.sole, h.order, h.waiting, h.funded, h.paid, h.row, h.intent, h.open_⟩

/-- A write of an order. -/
theorem setOrder (h : DealsOk b)
    (hwait : o'.status = .waitingPayment → ∃ iid i, b.invoices.get? iid = some i ∧
      i.orderId = oid ∧ i.status = .issued ∧ i.totalAmount = o'.totalAmount)
    (hfund : o'.status.funded = true ↔ ∃ o, b.orders.get? oid = some o ∧ o.status.funded = true) :
    DealsOk (b.setOrder oid o') where
  sole := h.sole
  order iid i hi := by
    obtain ⟨o, ho⟩ := h.order iid i hi
    simp only [Books.setOrder, Table.get?_set]
    split_ifs
    · exact ⟨o', rfl⟩
    · exact ⟨o, ho⟩
  -- The order itself is answered by the hypotheses, any other by the invariant.
  waiting k o ho hst := by
    simp only [Books.setOrder, Table.get?_set] at ho
    split_ifs at ho with hk
    · obtain rfl := Option.some.inj ho
      rw [hk]
      exact hwait hst
    · exact h.waiting k o ho hst
  funded k o ho hst := by
    simp only [Books.setOrder, Table.get?_set] at ho
    split_ifs at ho with hk
    · obtain rfl := Option.some.inj ho
      obtain ⟨o₀, ho₀, hst₀⟩ := hfund.mp hst
      rw [hk]
      exact h.funded oid o₀ ho₀ hst₀
    · exact h.funded k o ho hst
  paid iid i hi hst := by
    obtain ⟨hsum, o, ho, hf⟩ := h.paid iid i hi hst
    refine ⟨hsum, ?_⟩
    simp only [Books.setOrder, Table.get?_set]
    split_ifs with hk
    · exact ⟨o', rfl, hfund.mpr ⟨o, hk ▸ ho, hf⟩⟩
    · exact ⟨o, ho, hf⟩
  row := h.row
  intent := h.intent
  open_ := h.open_

/-- An invoice that is written and is neither the one that an order awaits nor a paid one. -/
theorem setInvoice (h : DealsOk b) (horder : ∃ o, b.orders.get? i'.orderId = some o)
    (hrow : i'.check = none ∧ i'.status ≠ .draft) (hne : i'.status ≠ .paid)
    (hsole : i'.status.active = true → b.Sole iid i'.orderId)
    (hold : ∀ i, b.invoices.get? iid = some i → i.status ≠ .paid ∧ i.orderId = i'.orderId ∧
      (i.status = .issued → (i'.status = .issued ∧ i'.totalAmount = i.totalAmount) ∨
        ∀ o, b.orders.get? i.orderId = some o → o.status ≠ .waitingPayment))
    (hintent : ∀ jid p, b.intents.get? jid = some p → p.referenceInvoiceId = some iid →
      p.status = .new → i'.amountFromWallet + p.amount = i'.totalAmount) :
    DealsOk (b.setInvoice iid i') where
  -- The new row is the only active one of its order.
  sole j k x y hx hy hxy hax hay := by
    simp only [Books.setInvoice, Table.get?_set] at hx hy
    split_ifs at hx hy with hj hk hk
    · rw [hj, hk]
    · obtain rfl := Option.some.inj hx
      rw [hsole hax k y hy hk hxy.symm] at hay
      cases hay
    · obtain rfl := Option.some.inj hy
      rw [hsole hay j x hx hj hxy] at hax
      cases hax
    · exact h.sole j k x y hx hy hxy hax hay
  order j x hx := by
    simp only [Books.setInvoice, Table.get?_set] at hx
    split_ifs at hx
    · obtain rfl := Option.some.inj hx
      exact horder
    · exact h.order j x hx
  waiting k o ho hst := by
    obtain ⟨j, x, hx, hxo, hxs, hxt⟩ := h.waiting k o ho hst
    by_cases hj : j = iid
    · -- The awaited invoice itself is still issued.
      subst hj
      obtain ⟨-, horder', hstay⟩ := hold x hx
      rcases hstay hxs with ⟨hissued, htotal⟩ | hno
      · refine ⟨j, i', ?_, ?_, hissued, ?_⟩
        · simp [Books.setInvoice]
        · rw [← horder', hxo]
        · rw [htotal, hxt]
      · exact absurd hst (hno o (by rw [hxo]; exact ho))
    · exact ⟨j, x, by simp [Books.setInvoice, hj, hx], hxo, hxs, hxt⟩
  funded k o ho hst := by
    obtain ⟨j, x, hx, hxo, hxs⟩ := h.funded k o ho hst
    -- The paid invoice of a funded order is another one.
    have hj : j ≠ iid := by
      rintro rfl
      exact (hold x hx).1 hxs
    exact ⟨j, x, by simp [Books.setInvoice, hj, hx], hxo, hxs⟩
  paid j x hx hst := by
    simp only [Books.setInvoice, Table.get?_set] at hx
    split_ifs at hx
    · obtain rfl := Option.some.inj hx
      exact absurd hst hne
    · exact h.paid j x hx hst
  row j x hx := by
    simp only [Books.setInvoice, Table.get?_set] at hx
    split_ifs at hx
    · obtain rfl := Option.some.inj hx
      exact hrow
    · exact h.row j x hx
  intent k q j hq hj := by
    obtain ⟨hpurpose, hnew⟩ := h.intent k q j hq hj
    refine ⟨hpurpose, fun hst => ⟨(hnew hst).1, ?_⟩⟩
    obtain ⟨-, x, hx, hsum⟩ := hnew hst
    simp only [Books.setInvoice, Table.get?_set]
    split_ifs with hji
    · subst hji
      exact ⟨i', rfl, fun _ => hintent k q hq hj hst⟩
    · exact ⟨x, hx, hsum⟩
  open_ := h.open_

/-- A write of a payment intent. -/
theorem setIntent (h : DealsOk b)
    (hp : ∀ iid, p'.referenceInvoiceId = some iid → p'.purpose = .orderInvoice ∧
      (p'.status = .new → p'.streampayPaymentUrl.isSome = true ∧
        (∃ i, b.invoices.get? iid = some i ∧
          (i.status ≠ .paid → i.amountFromWallet + p'.amount = i.totalAmount)) ∧
        ∀ k q, b.intents.get? k = some q → k ≠ jid → q.referenceInvoiceId = some iid →
          q.status ≠ .new)) :
    DealsOk (b.setIntent jid p') where
  sole := h.sole
  order := h.order
  waiting := h.waiting
  funded := h.funded
  paid := h.paid
  row := h.row
  intent k q j hq hj := by
    simp only [Books.setIntent, Table.get?_set] at hq
    split_ifs at hq
    · obtain rfl := Option.some.inj hq
      obtain ⟨hpurpose, hnew⟩ := hp j hj
      exact ⟨hpurpose, fun hst => ⟨(hnew hst).1, (hnew hst).2.1⟩⟩
    · exact h.intent k q j hq hj
  -- An open intent is the only one of its invoice.
  open_ k l q r j hq hr hqj hrj hqs hrs := by
    simp only [Books.setIntent, Table.get?_set] at hq hr
    split_ifs at hq hr with hk hl hl
    · rw [hk, hl]
    · obtain rfl := Option.some.inj hq
      exact absurd hrs (((hp j hqj).2 hqs).2.2 l r hr hl hrj)
    · obtain rfl := Option.some.inj hr
      exact absurd hqs (((hp j hrj).2 hrs).2.2 k q hq hk hqj)
    · exact h.open_ k l q r j hq hr hqj hrj hqs hrs

/-- An intent that is no longer open. -/
theorem closeIntent (h : DealsOk b) (hp : b.intents.get? jid = some p)
    (href : p'.referenceInvoiceId = p.referenceInvoiceId) (hpurpose : p'.purpose = p.purpose)
    (hne : p'.status ≠ .new) : DealsOk (b.setIntent jid p') := by
  refine h.setIntent fun iid hiid => ⟨?_, fun hst => absurd hst hne⟩
  rw [hpurpose]
  exact (h.intent jid p iid hp (href ▸ hiid)).1

/-- The invoice that an order awaits is the one that no other blocks. -/
theorem issued_of_sole (h : DealsOk b) (hi : b.invoices.get? iid = some i)
    (ho : b.orders.get? i.orderId = some o) (hst : o.status = .waitingPayment)
    (hsole : b.Sole iid i.orderId) : i.status = .issued ∧ i.totalAmount = o.totalAmount := by
  obtain ⟨j, x, hx, hxo, hxs, hxt⟩ := h.waiting i.orderId o ho hst
  by_cases hj : j = iid
  · subst hj
    obtain rfl : x = i := Option.some.inj (hx.symm.trans hi)
    exact ⟨hxs, hxt⟩
  · have hinactive := hsole j x hx hj hxo
    rw [hxs] at hinactive
    cases hinactive

/-- The other invoices of an order do not block the active one. -/
theorem sole_of_active (h : DealsOk b)
    (hi : b.invoices.get? iid = some i) (ha : i.status.active = true) : b.Sole iid i.orderId := by
  intro j x hx hj hxo
  by_contra hactive
  exact hj (h.sole j iid x i hx hi hxo (by simpa using hactive) ha)

/-- The parts of an unpaid invoice with an open intent. -/
theorem sum_of_open (h : DealsOk b) (hp : b.intents.get? jid = some p)
    (href : p.referenceInvoiceId = some iid) (hnew : p.status = .new)
    (hi : b.invoices.get? iid = some i) (hne : i.status ≠ .paid) :
    i.amountFromWallet + p.amount = i.totalAmount := by
  obtain ⟨-, x, hx, hsum⟩ := (h.intent jid p iid hp href).2 hnew
  obtain rfl : i = x := Option.some.inj (hi.symm.trans hx)
  exact hsum hne

/-- The settlement of an invoice. -/
theorem settle (h : DealsOk b) (hi : b.invoices.get? iid = some i) (hne : i.status ≠ .paid)
    (ho : b.orders.get? i.orderId = some o) (hsole : b.Sole iid i.orderId)
    (hi' : i'.orderId = i.orderId ∧ i'.status = .paid ∧ i'.check = none)
    (hsum : i'.amountFromWallet + i'.amountFromGateway = i'.totalAmount)
    (ho' : o'.status = .inProgress) :
    DealsOk ((b.setOrder i.orderId o').setInvoice iid i') where
  -- The paid invoice was the only active one of its order.
  sole j k x y hx hy hxy hax hay := by
    simp only [Books.setInvoice, Books.setOrder, Table.get?_set] at hx hy
    split_ifs at hx hy with hj hk hk
    · rw [hj, hk]
    · obtain rfl := Option.some.inj hx
      rw [hsole k y hy hk (hxy.symm.trans hi'.1)] at hay
      cases hay
    · obtain rfl := Option.some.inj hy
      rw [hsole j x hx hj (hxy.trans hi'.1)] at hax
      cases hax
    · exact h.sole j k x y hx hy hxy hax hay
  order j x hx := by
    simp only [Books.setInvoice, Books.setOrder, Table.get?_set] at hx ⊢
    split_ifs at hx with hj
    · obtain rfl := Option.some.inj hx
      rw [if_pos hi'.1]
      exact ⟨o', rfl⟩
    · obtain ⟨y, hy⟩ := h.order j x hx
      split_ifs
      · exact ⟨o', rfl⟩
      · exact ⟨y, hy⟩
  -- The order is in progress now, and waits no more.
  waiting k y hy hst := by
    simp only [Books.setInvoice, Books.setOrder, Table.get?_set] at hy
    split_ifs at hy with hk
    · obtain rfl := Option.some.inj hy
      rw [ho'] at hst
      cases hst
    · obtain ⟨j, x, hx, hxo, hxs, hxt⟩ := h.waiting k y hy hst
      have hj : j ≠ iid := by
        rintro rfl
        obtain rfl : x = i := Option.some.inj (hx.symm.trans hi)
        exact hk hxo.symm
      exact ⟨j, x, by simp [Books.setInvoice, Books.setOrder, hj, hx], hxo, hxs, hxt⟩
  -- The order is funded by this invoice, the others by what funded them before.
  funded k y hy hst := by
    simp only [Books.setInvoice, Books.setOrder, Table.get?_set] at hy
    split_ifs at hy with hk
    · exact ⟨iid, i', by simp [Books.setInvoice], hi'.1.trans hk.symm, hi'.2.1⟩
    · obtain ⟨j, x, hx, hxo, hxs⟩ := h.funded k y hy hst
      have hj : j ≠ iid := by
        rintro rfl
        obtain rfl : x = i := Option.some.inj (hx.symm.trans hi)
        exact hne hxs
      exact ⟨j, x, by simp [Books.setInvoice, Books.setOrder, hj, hx], hxo, hxs⟩
  paid j x hx hst := by
    simp only [Books.setInvoice, Books.setOrder, Table.get?_set] at hx ⊢
    split_ifs at hx with hj
    · obtain rfl := Option.some.inj hx
      refine ⟨hsum, ?_⟩
      rw [if_pos hi'.1]
      exact ⟨o', rfl, by rw [ho']; rfl⟩
    · obtain ⟨hs, y, hy, hf⟩ := h.paid j x hx hst
      refine ⟨hs, ?_⟩
      split_ifs
      · exact ⟨o', rfl, by rw [ho']; rfl⟩
      · exact ⟨y, hy, hf⟩
  row j x hx := by
    simp only [Books.setInvoice, Books.setOrder, Table.get?_set] at hx
    split_ifs at hx
    · obtain rfl := Option.some.inj hx
      exact ⟨hi'.2.2, by rw [hi'.2.1]; decide⟩
    · exact h.row j x hx
  intent k q j hq hj := by
    obtain ⟨hpurpose, hnew⟩ := h.intent k q j hq hj
    refine ⟨hpurpose, fun hst => ⟨(hnew hst).1, ?_⟩⟩
    obtain ⟨-, x, hx, hs⟩ := hnew hst
    simp only [Books.setInvoice, Books.setOrder, Table.get?_set]
    split_ifs
    · exact ⟨i', rfl, fun hne' => absurd hi'.2.1 hne'⟩
    · exact ⟨x, hx, hs⟩
  open_ := h.open_

/-- The open intent of an invoice, when it has a payment page. -/
theorem not_new_of_openIntent (h : DealsOk b)
    (hopen : ((b.openIntent iid).bind fun y => y.2.streampayPaymentUrl) = none)
    (hp : b.intents.get? jid = some p) (href : p.referenceInvoiceId = some iid) :
    p.status ≠ .new := by
  intro hnew
  cases hf : b.openIntent iid with
  | none => simpa [href, hnew] using Table.find?_eq_none.mp hf jid p hp
  | some y =>
    obtain ⟨hy, hyp⟩ := Table.find?_eq_some hf
    simp only [Bool.and_eq_true, decide_eq_true_eq] at hyp
    have hurl := ((h.intent y.1 y.2 iid hy hyp.1).2 hyp.2).1
    rw [hf, Option.bind_some] at hopen
    rw [hopen] at hurl
    cases hurl

/-- The expiry of the open intent of an invoice. -/
theorem expiredIntent (h : DealsOk b) : DealsOk (b.expiredIntent iid i) := by
  rcases b.expiredIntent_cases iid i with ⟨heq, -⟩ | ⟨jid, p, b₁, hp, -, -, heq, hb₁⟩ <;> rw [heq]
  · exact h
  · have hclosed : DealsOk (b.setIntent jid { p with status := .expired }) :=
      h.closeIntent hp rfl rfl (by simp)
    rcases hb₁ with ⟨rfl, -⟩ | ⟨wid, w, -, -, rfl⟩
    · exact hclosed
    · exact hclosed.congr rfl rfl rfl

/-- A transition of an order on one side of its payment. -/
theorem moveOrder (h : DealsOk b) {st : OrderStatus} (ho : b.orders.get? oid = some o)
    (ht : canTransition o.status st = true) (hst : st ≠ .waitingPayment ∧ st ≠ .inProgress)
    (ho' : o'.status = st) : DealsOk (b.setOrder oid o') := by
  have hfund : o'.status.funded = o.status.funded := by
    rw [ho']
    exact funded_of_canTransition ht hst.2
  refine h.setOrder (fun hw => absurd (ho'.symm.trans hw) hst.1) ⟨fun hf => ⟨o, ho, hfund ▸ hf⟩, ?_⟩
  rintro ⟨o₁, ho₁, hf⟩
  obtain rfl : o = o₁ := Option.some.inj (ho.symm.trans ho₁)
  rw [hfund]
  exact hf

/-- The reopening of an order. -/
theorem reopened (h : DealsOk b) : DealsOk (b.reopened oid) := by
  rcases b.reopened_cases oid with ⟨heq, -⟩ | ⟨o, ho, hst, heq⟩ <;> rw [heq]
  · exact h
  · have ht : canTransition o.status .assigned = true := by
      rw [hst]
      rfl
    exact h.moveOrder ho ht (by decide) rfl

/-- An order whose invoice lapsed no longer awaits a payment. -/
theorem status_reopened (ho : (b.reopened oid).orders.get? oid = some o) :
    o.status ≠ .waitingPayment := by
  rcases b.reopened_cases oid with ⟨heq, hne⟩ | ⟨o₁, -, -, heq⟩ <;> rw [heq] at ho
  · exact hne o ho
  · simp only [Books.setOrder, Table.get?_set, if_true, Option.some.injEq] at ho
    rw [← ho]
    simp

end DealsOk

/-- The orders, the invoices and the payment intents agree after every effect. -/
theorem DealsOk.step {s : Settings} {r : Request} {b b' : Books} (h : DealsOk b)
    (he : Effect s b r b') : DealsOk b' := by
  cases he with
  | idle => exact h
  | createOrder hfree hst =>
    refine h.setOrder (fun hw => ?_) ⟨fun hf => ?_, fun hf => ?_⟩
    · rw [hst] at hw
      cases hw
    · rw [hst] at hf
      cases hf
    · obtain ⟨o₁, ho₁, -⟩ := hf
      rw [hfree] at ho₁
      cases ho₁
  | @acceptOrder now g cid oid k o o' u ho hst hu hrole ho' =>
    have ht : canTransition o.status .assigned = true := by
      rw [hst]
      rfl
    exact h.moveOrder ho ht (by decide) (by rw [ho'])
  | cancelOrder ho ht ho' => exact h.moveOrder ho ht (by decide) (by rw [ho'])
  | @createInvoice now ids oid k x o o' i promo b₁ ho ht hfree hsole hi hcheck hpromo ho' =>
    have hsame : b₁.orders = b.orders ∧ b₁.invoices = b.invoices ∧ b₁.intents = b.intents := by
      cases hpromo <;> exact ⟨rfl, rfl, rfl⟩
    have h₁ : DealsOk b₁ := h.congr hsame.1 hsame.2.1 hsame.2.2
    have h₂ : DealsOk (b₁.setInvoice ids.invoiceId i) := by
      refine h₁.setInvoice ⟨o, by rw [hsame.1, hi.1]; exact ho⟩ ⟨hcheck, by rw [hi.2.1]; decide⟩
        (by rw [hi.2.1]; decide) (fun _ => ?_) (fun y hy => ?_) fun jid p hp href hnew => ?_
      · unfold Books.Sole
        rw [hsame.2.1, hi.1]
        exact hsole
      · rw [hsame.2.1, hfree] at hy
        cases hy
      · obtain ⟨-, y, hy, -⟩ := (h₁.intent jid p _ hp href).2 hnew
        rw [hsame.2.1, hfree] at hy
        cases hy
    subst ho'
    refine h₂.setOrder (fun _ => ⟨ids.invoiceId, i, ?_, hi.1, hi.2.1, rfl⟩) ⟨fun hf => ?_, ?_⟩
    · simp [Books.setInvoice]
    · cases hf
    · rintro ⟨o₁, ho₁, hf⟩
      obtain rfl : o = o₁ := Option.some.inj ((hsame.1 ▸ ho).symm.trans ho₁)
      rw [← funded_of_canTransition ht (by decide)] at hf
      exact hf
  | @cancelInvoice now iid k i o hi hst ho ht =>
    have h₁ : DealsOk ((b.released now iid).setOrder i.orderId
        { o with status := .assigned, totalAmount := 0 }) :=
      have hreleased : DealsOk (b.released now iid) := h.congr rfl rfl rfl
      hreleased.moveOrder ho ht (by decide) rfl
    obtain ⟨hcheck, hdraft⟩ := h.row iid i hi
    refine h₁.setInvoice ⟨{ o with status := .assigned, totalAmount := 0 }, by simp [Books.setOrder]⟩
      ⟨Invoice.check_of_status hcheck hdraft, by simp⟩ (by simp)
      (fun ha => by cases ha) (fun y hy => ?_) fun jid p hp href hnew => ?_
    · obtain rfl : i = y := Option.some.inj (hi.symm.trans hy)
      refine ⟨by rw [hst]; decide, rfl, fun _ => .inr fun o₁ ho₁ => ?_⟩
      simp only [Books.setOrder, Table.get?_set, if_true, Option.some.injEq] at ho₁
      rw [← ho₁]
      simp
    · have hsum := h.sum_of_open hp href hnew hi (by rw [hst]; decide)
      exact hsum
  | @expireInvoice now iid i hi hst =>
    rw [Books.reopened_setInvoice]
    have h₁ : DealsOk (((b.expiredIntent iid i).released now iid).reopened i.orderId) :=
      DealsOk.reopened (h.expiredIntent.congr rfl rfl rfl)
    have hinvoices : (((b.expiredIntent iid i).released now iid).reopened i.orderId).invoices =
        b.invoices := by
      rw [Books.invoices_reopened]
      exact (b.tables_expiredIntent iid i).2.1
    have hi₁ := hinvoices ▸ hi
    obtain ⟨hcheck, hdraft⟩ := h.row iid i hi
    refine h₁.setInvoice (h₁.order iid i hi₁)
      ⟨Invoice.check_of_status hcheck hdraft, by simp⟩ (by simp)
      (fun ha => by cases ha) (fun y hy => ?_) fun jid p hp href hnew => ?_
    · obtain rfl : i = y := Option.some.inj (hi₁.symm.trans hy)
      exact ⟨by rw [hst]; decide, rfl, fun _ => .inr fun o ho => DealsOk.status_reopened ho⟩
    · have hsum := h₁.sum_of_open hp href hnew hi₁ (by rw [hst]; decide)
      exact hsum
  | createTopup hfree hp =>
    refine h.setIntent fun iid href => ?_
    rw [hp.2.2] at href
    cases href
  | @payWallet now x iid u i o wid w b₁ hi hst ho hwait hu hw hle hf hsole hcheck =>
    have hsame := hf.same
    have h₁ : DealsOk b₁ := h.congr hsame.orders hsame.invoices hsame.intents
    have hsole₁ : b₁.Sole iid i.orderId := by
      unfold Books.Sole
      rw [hsame.invoices]
      exact hsole
    have h₂ : DealsOk ((b₁.setOrder i.orderId { o with status := .inProgress }).setInvoice iid
        (Books.paidInvoice now i .walletOnly i.totalAmount 0)) :=
      h₁.settle (by rw [hsame.invoices]; exact hi) (by rw [hst]; decide)
        (by rw [hsame.orders]; exact ho) hsole₁ ⟨rfl, rfl, hcheck⟩ (add_zero _) rfl
    exact h₂.congr rfl rfl rfl
  | @payGateway now x iid u i i' o wid w p n b₁ hi hst ho hwait hu hw hn hlt hopen hfree hp hb₁ hi'
      hcheck =>
    have hsame : b₁.orders = b.orders ∧ b₁.invoices = b.invoices ∧ b₁.intents = b.intents := by
      rw [hb₁]
      split_ifs <;> exact ⟨rfl, rfl, rfl⟩
    have h₁ : DealsOk b₁ := h.congr hsame.1 hsame.2.1 hsame.2.2
    obtain ⟨method, hi'⟩ := hi'
    have hcheck' : i'.check = none := by
      rcases hcheck with heq | hc
      · rw [heq]
        exact (h.row iid i hi).1
      · exact hc
    have hkept : i'.orderId = i.orderId ∧ i'.status = .issued ∧ i'.totalAmount = i.totalAmount ∧
        i'.amountFromWallet = n := by
      rw [hi']
      exact ⟨rfl, hst, rfl, rfl⟩
    have hclosed : ∀ k q, b.intents.get? k = some q → q.referenceInvoiceId = some iid →
        q.status ≠ .new := fun k q hq href => h.not_new_of_openIntent hopen hq href
    -- No intent of the invoice is open, so the new split contradicts none.
    have h₂ : DealsOk (b₁.setInvoice iid i') := by
      refine h₁.setInvoice ⟨o, by rw [hkept.1, hsame.1]; exact ho⟩
        ⟨hcheck', by rw [hkept.2.1]; decide⟩ (by rw [hkept.2.1]; decide) (fun _ => ?_)
        (fun y hy => ?_) fun k q hq href hnew => ?_
      · unfold Books.Sole
        rw [hsame.2.1, hkept.1]
        exact h.sole_of_active hi (by rw [hst]; rfl)
      · obtain rfl : i = y := Option.some.inj (hi.symm.trans (hsame.2.1 ▸ hy))
        exact ⟨by rw [hst]; decide, hkept.1.symm, fun _ => .inl ⟨hkept.2.1, hkept.2.2.1⟩⟩
      · exact absurd hnew (hclosed k q (hsame.2.2 ▸ hq) href)
    refine h₂.setIntent fun j hj => ⟨hp.2.1, fun _ => ⟨hp.2.2.2.2.2, ?_, fun k q hq _ href => ?_⟩⟩
    · obtain rfl : iid = j := Option.some.inj (hp.2.2.1.symm.trans hj)
      refine ⟨i', by simp [Books.setInvoice], fun _ => ?_⟩
      rw [hkept.2.2.2, hkept.2.2.1, hp.2.2.2.1]
      omega
    · obtain rfl : iid = j := Option.some.inj (hp.2.2.1.symm.trans hj)
      exact hclosed k q (hsame.2.2 ▸ hq) href
  | webhookFailed hp hnew => exact h.closeIntent hp rfl rfl (by simp)
  | @webhookTopup now v g c e jid p wid w b₁ hp hnew hlink hev hpurpose hw hb =>
    have hsame := hb.same
    have h₁ := h.congr hsame.orders hsame.invoices hsame.intents
    have hp₁ : b₁.intents.get? jid = some p := hsame.intents ▸ hp
    exact h₁.closeIntent hp₁ rfl rfl (by simp)
  | webhookPaid hp => exact h.closeIntent hp rfl rfl (by simp)
  | @webhookSettle now v g c e jid p iid i o wid w b₁ hp hnew hlink hev hpurpose href hi hst ho ht hw
      hf hsole method hcheck =>
    have hsame := hf.same
    have h₁ : DealsOk b₁ := h.congr hsame.orders hsame.invoices hsame.intents
    have hsole₁ : b₁.Sole iid i.orderId := by
      unfold Books.Sole
      rw [hsame.invoices]
      exact hsole
    have hsum := h.sum_of_open hp href hnew hi hst
    have h₂ : DealsOk ((b₁.setOrder i.orderId { o with status := .inProgress }).setInvoice iid
        (Books.paidInvoice now i method i.amountFromWallet p.amount)) :=
      h₁.settle (by rw [hsame.invoices]; exact hi) hst (by rw [hsame.orders]; exact ho) hsole₁
        ⟨rfl, rfl, hcheck⟩ hsum rfl
    have h₃ : DealsOk (b₁.settled now iid i o method i.amountFromWallet p.amount) :=
      h₂.congr rfl rfl rfl
    have hp₁ : b₁.intents.get? jid = some p := hsame.intents ▸ hp
    exact h₃.closeIntent hp₁ rfl rfl (by simp)
  | expireTopup hp => exact h.closeIntent hp rfl rfl (by simp)
  | submitDelivery ho ht ho' => exact h.moveOrder ho ht (by decide) (by rw [ho'])
  | raiseDispute ho ht ho' =>
    exact (h.moveOrder ho ht (by decide) (by rw [ho'])).congr rfl rfl rfl
  | @settle r oid st c o o' iid i b₁ xs hr ho ht hi hio hst hpay ho' =>
    have hsame := hpay.same
    have h₁ : DealsOk b₁ := h.congr hsame.orders hsame.invoices hsame.intents
    obtain ⟨-, o₁, ho₁, hf⟩ := h.paid iid i hi hst
    obtain rfl : o = o₁ := Option.some.inj (ho.symm.trans (hio ▸ ho₁))
    have hside : st ≠ .waitingPayment ∧ st ≠ .inProgress := by
      constructor <;> (rintro rfl; revert ht hf; cases o.status <;> decide)
    have h₂ : DealsOk (b₁.setOrder oid o') :=
      h₁.moveOrder (by rw [hsame.orders]; exact ho) ht hside ho'.1
    exact h₂.congr rfl rfl rfl

/-! ## The start -/

/-- A database with accounts and promos, before the first order. -/
structure Opening (d : Db) : Prop extends Seeded d where
  index : WalletIndex d
  orders : d.orders = .empty
  invoices : d.invoices = .empty
  intents : d.intents = .empty
  disputes : d.disputes = .empty
  redemptions : d.redemptions = .empty
  withdrawals : d.withdrawals = .empty

/-- An opening database has no orders. -/
theorem Opening.dealsOk {d : Db} (h : Opening d) : DealsOk d.books := by
  have ho : ∀ id, d.books.orders.get? id = none := fun id => by
    change d.orders.get? id = none
    rw [h.orders, Table.get?_empty]
  have hi : ∀ id, d.books.invoices.get? id = none := fun id => by
    change d.invoices.get? id = none
    rw [h.invoices, Table.get?_empty]
  have hp : ∀ id, d.books.intents.get? id = none := fun id => by
    change d.intents.get? id = none
    rw [h.intents, Table.get?_empty]
  constructor <;> simp [ho, hi, hp]

/-- The deals agree in every state of a run. -/
theorem SerialRun.dealsOk {refresh : Bool} {s : Settings} {cond : Request → Db → Prop} {d₀ d : Db}
    (hrun : SerialRun refresh s cond d₀ d) (hcond : ∀ r d, cond r d → r.trades = true)
    (h₀ : Opening d₀) : DealsOk d.books :=
  hrun.inv (I := fun d => DealsOk d.books) h₀.dealsOk fun r _ hr h =>
    h.step (Request.exec_effect (hcond r _ hr))

/-- The wallets keep their owners and their types. -/
theorem SerialRun.index {refresh : Bool} {s : Settings} {cond : Request → Db → Prop} {d₀ d : Db}
    (hrun : SerialRun refresh s cond d₀ d) (h₀ : Opening d₀) : WalletIndex d :=
  hrun.inv h₀.index fun r d _ h => h.evolves (r.exec_evolves refresh s d)

/-- Requests whose condition holds in every state can follow any run. -/
theorem SerialRun.foldl {refresh : Bool} {s : Settings} {cond : Request → Db → Prop} {d₀ d : Db}
    (hrun : SerialRun refresh s cond d₀ d) {rs : List Request} (h : ∀ r ∈ rs, ∀ d, cond r d) :
    SerialRun refresh s cond d₀ (rs.foldl (Request.exec refresh s) d) := by
  induction rs generalizing d with
  | nil => exact hrun
  | cons r rs ih =>
    have hstep := hrun.step r (h r List.mem_cons_self d)
    exact ih hstep fun r' hr' => h r' (List.mem_cons_of_mem _ hr')

/-! ## An order, step by step -/

namespace Sample

/-- The accounts, at zero. -/
def opening : Db := accounts (wallets 0 0 0)

/-- The sample's wallets meet the constraints on their owners and types. -/
theorem index_wallets (balance held escrow : ℤ) : WalletIndex (accounts (wallets balance held escrow)) :=
  .of_rows (by simp [accounts, wallets])

/-- The sample's database is an opening. -/
theorem opening_ok : Opening opening where
  wallets := Table.forall_get?.mpr (by simp [opening, accounts, Sample.wallets])
  transactions := rfl
  index := index_wallets 0 0 0
  orders := rfl
  invoices := rfl
  intents := rfl
  disputes := rfl
  redemptions := rfl
  withdrawals := rfl

/-- The customer places order 401. -/
def place : Request := .createOrder 0 (fun _ => .ok ()) 401 1 ⟨24, 46, 10, []⟩

/-- The courier accepts it. -/
def take : Request := .acceptOrder 0 true 501 401 2

/-- The courier issues an invoice for it, of 126.79 when there is no promo. -/
def bill (invoiceId : Id) (promo : Option Text) : Request :=
  .createInvoice 0 ⟨invoiceId, invoiceId + 100, fun n => invoiceId + 200 + n⟩ 401 2
    ⟨[⟨['g'], ⟨10000, -2⟩, 1, ⟨15, -2⟩, none⟩], ⟨500, -2⟩, promo⟩

/-- The customer pays an invoice. -/
def checkOut (invoiceId intentId : Id) : Request :=
  .payInvoice 0 ⟨intentId, intentId + 200, gateway⟩ invoiceId 1

/-- The gateway reports a payment of an intent. -/
def report (intentId : Id) (status : Text) (amount : ℤ) : Request :=
  .handleWebhook 0 true true (intentId + 300) (.ok ⟨intentId + 1000, status, some amount⟩)

/-- The success of a payment. -/
def paid : Text := ['P', 'A', 'I', 'D']

/-- The customer tops up the wallet. -/
def topUp (intentId : Id) (amount : ℤ) : List Request :=
  [.createTopup 0 gateway intentId (intentId + 100) 1 (.finite ⟨amount, -2⟩),
    report intentId paid amount]

end Sample

end Giftly
