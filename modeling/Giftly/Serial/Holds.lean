import Giftly.Serial.Agreement
import Giftly.Serial.Keys

/-!
# Holds over serial runs

The held balance of a user's wallet is the sum of the wallet's parts of the user's issued invoices
that have an open payment intent. The part is held when the intent is opened, and `release_hold`
returns it when the intent is settled or lapses. Three requests end a pending payment and leave the
hold: a webhook that reports a failure, `cancel_invoice`, and a `pay_invoice` that the wallet covers
by then. A user's wallet is here any wallet of a user; couriers hold nothing as long as they make no
withdrawals.
-/

namespace Giftly

open Store OrderState MoneyService WalletRepository

namespace Books

/-- An invoice has an open payment intent. -/
def pending (b : Books) (iid : Id) : Bool := (b.openIntent iid).isSome

/-- What the wallet of a user holds for an invoice. -/
def holdOf (b : Books) (u iid : Id) (i : Invoice) : ℤ :=
  if i.status = .issued ∧ b.pending iid = true ∧
      (b.orders.get? i.orderId).any (·.customerId = u) = true then i.amountFromWallet else 0

/-- What the wallet of a user holds for all its invoices. -/
def holdsOf (b : Books) (u : Id) : ℤ := b.invoices.sum fun iid i => b.holdOf u iid i

section Pending

variable {b b' : Books} {u iid jid : Id} {i i' : Invoice} {p p' : PaymentIntent}

/-- An invoice has an open intent if one is found for it. -/
theorem pending_iff : b.pending iid = true ↔ b.HasOpenIntent iid := by
  constructor
  · intro h
    obtain ⟨⟨jid, p⟩, hf⟩ := Option.isSome_iff_exists.mp h
    obtain ⟨hp, hpp⟩ := Table.find?_eq_some hf
    simp only [Bool.and_eq_true, decide_eq_true_eq] at hpp
    exact ⟨jid, p, hp, hpp.1, hpp.2⟩
  · rintro ⟨jid, p, hp, href, hnew⟩
    have hfound : ∃ y, b.openIntent iid = some y := Table.find?_isSome hp (by simp [href, hnew])
    exact Option.isSome_iff_exists.mpr hfound

/-- A write of an intent matters to the invoice that it is for. -/
theorem hasOpenIntent_setIntent {j : Id} (hj : p'.referenceInvoiceId ≠ some j ∨ p'.status ≠ .new)
    (hold : ∀ p, b.intents.get? jid = some p → p.referenceInvoiceId ≠ some j ∨ p.status ≠ .new) :
    (b.setIntent jid p').HasOpenIntent j ↔ b.HasOpenIntent j := by
  constructor
  · rintro ⟨k, q, hq, href, hnew⟩
    simp only [setIntent, Table.get?_set] at hq
    split_ifs at hq
    · obtain rfl := Option.some.inj hq
      exact (hj.elim (· href) (· hnew)).elim
    · exact ⟨k, q, hq, href, hnew⟩
  · rintro ⟨k, q, hq, href, hnew⟩
    have hk : k ≠ jid := by
      rintro rfl
      rcases hold q hq with h | h
      · exact h href
      · exact h hnew
    exact ⟨k, q, by simp [setIntent, hk, hq], href, hnew⟩

/-- Nothing is held for an invoice that is not awaiting payment, or has no part from the wallet. -/
theorem holdOf_eq_zero (h : i.status = .issued → b.HasOpenIntent iid → i.amountFromWallet = 0) :
    b.holdOf u iid i = 0 := by
  unfold holdOf
  split_ifs with hcond
  · exact h hcond.1 (pending_iff.mp hcond.2.1)
  · rfl

/-- A hold depends on whether the intent is open and who the customer is. -/
theorem holdOf_congr (hp : b'.HasOpenIntent iid ↔ b.HasOpenIntent iid)
    (ho : (b'.orders.get? i.orderId).map (·.customerId) = (b.orders.get? i.orderId).map (·.customerId)) :
    b'.holdOf u iid i = b.holdOf u iid i := by
  have hpending : b'.pending iid = b.pending iid := by
    rw [Bool.eq_iff_iff, pending_iff, pending_iff]
    exact hp
  have hcustomer : (b'.orders.get? i.orderId).any (·.customerId = u) =
      (b.orders.get? i.orderId).any (·.customerId = u) := by
    have hmap : ∀ x : Option Order,
        x.any (·.customerId = u) = (x.map (·.customerId)).any (· = u) := by
      intro x
      cases x <;> rfl
    rw [hmap, hmap, ho]
  unfold holdOf
  rw [hpending, hcustomer]

/-- The hold of a pending payment is the wallet's part, and the customer's wallet has it. -/
theorem holdOf_pending {o : Order} (hst : i.status = .issued) (hp : b.HasOpenIntent iid)
    (ho : b.orders.get? i.orderId = some o) :
    b.holdOf u iid i = if u = o.customerId then i.amountFromWallet else 0 := by
  unfold holdOf
  rw [ho, Option.any_some]
  by_cases hu : u = o.customerId
  · rw [if_pos hu, if_pos ⟨hst, pending_iff.mpr hp, by simp [hu]⟩]
  · rw [if_neg hu, if_neg fun hc => hu (by simpa [eq_comm] using hc.2.2)]

/-- The holds after a change at one invoice. -/
theorem holdsOf_change (hi : b.invoices.get? iid = some i)
    (hinv : b'.invoices = b.invoices.set iid i')
    (hother : ∀ j x, b.invoices.get? j = some x → j ≠ iid → b.holdOf u j x = b'.holdOf u j x) :
    b'.holdsOf u = b.holdsOf u - b.holdOf u iid i + b'.holdOf u iid i' := by
  have hsum := Table.sum_set_change b.invoices (fun j x => b.holdOf u j x)
    (fun j x => b'.holdOf u j x) iid i' hother
  rw [hi] at hsum
  unfold holdsOf
  rw [hinv]
  simpa using hsum

/-- The holds of a user, invoice by invoice. -/
theorem holdsOf_congr (hinv : b'.invoices = b.invoices)
    (h : ∀ j x, b.invoices.get? j = some x → b.holdOf u j x = b'.holdOf u j x) :
    b'.holdsOf u = b.holdsOf u := by
  unfold holdsOf
  rw [hinv]
  exact (Table.sum_congr h).symm

/-- A write of an invoice that has no hold afterwards. -/
theorem holdsOf_setInvoice (hnew : b.holdOf u iid i' = 0) : (b.setInvoice iid i').holdsOf u =
    b.holdsOf u - ((b.invoices.get? iid).map fun x => b.holdOf u iid x).getD 0 := by
  have hsum := Table.sum_set b.invoices (fun j x => b.holdOf u j x) iid i'
  rw [hnew, add_zero] at hsum
  exact hsum

/-- The hold for an invoice when an intent is closed. -/
theorem holdOf_closeIntent (hp : b.intents.get? jid = some p) (hne : p'.status ≠ .new)
    (hpart : 0 ≤ b.holdOf u iid i) :
    (b.setIntent jid p').holdOf u iid i ≤ b.holdOf u iid i ∧
      ((p.referenceInvoiceId = some iid → p.status = .new → i.status = .issued →
        i.amountFromWallet = 0) → (b.setIntent jid p').holdOf u iid i = b.holdOf u iid i) := by
  -- Only an open intent of this very invoice has something to do with its hold.
  by_cases hj : p.referenceInvoiceId = some iid ∧ p.status = .new
  · refine ⟨?_, fun hzero => ?_⟩
    · unfold holdOf at hpart ⊢
      have hold : b.pending iid = true := pending_iff.mpr ⟨jid, p, hp, hj.1, hj.2⟩
      rw [hold] at hpart ⊢
      split_ifs with hnew hbefore hbefore
      · exact le_refl _
      · exact absurd ⟨hnew.1, rfl, hnew.2.2⟩ hbefore
      · rwa [if_pos hbefore] at hpart
      · exact le_refl _
    · have hpart := hzero hj.1 hj.2
      rw [holdOf_eq_zero fun hst _ => hpart hst, holdOf_eq_zero fun hst _ => hpart hst]
  · have heq : (b.setIntent jid p').holdOf u iid i = b.holdOf u iid i := by
      refine holdOf_congr (hasOpenIntent_setIntent (.inr hne) fun q hq => ?_) rfl
      obtain rfl : p = q := Option.some.inj (hp.symm.trans hq)
      by_contra hc
      rw [not_or, not_not, not_not] at hc
      exact hj hc
    exact ⟨heq.le, fun _ => heq⟩

/-- The end of a pending payment. -/
theorem holdsOf_returned {o : Order} (hi : b.invoices.get? iid = some i) (hst : i.status = .issued)
    (ho : b.orders.get? i.orderId = some o) (hopen : b.HasOpenIntent iid)
    (hinv : b'.invoices = b.invoices.set iid i') (hi' : i'.status ≠ .issued)
    (hint : ∀ j, j ≠ iid → (b'.HasOpenIntent j ↔ b.HasOpenIntent j))
    (hcustomers : ∀ k, (b'.orders.get? k).map (·.customerId) =
      (b.orders.get? k).map (·.customerId)) :
    b'.holdsOf u = b.holdsOf u - if u = o.customerId then i.amountFromWallet else 0 := by
  have hnew : b'.holdOf u iid i' = 0 := holdOf_eq_zero fun hst' _ => absurd hst' hi'
  rw [holdsOf_change hi hinv fun j x _ hj => (holdOf_congr (hint j hj) (hcustomers _)).symm, hnew,
    holdOf_pending hst hopen ho, add_zero]

/-- The start of a pending payment. -/
theorem holdsOf_opened {o : Order} (hi : b.invoices.get? iid = some i)
    (ho : b.orders.get? i.orderId = some o) (hno : ¬b.HasOpenIntent iid)
    (hinv : b'.invoices = b.invoices.set iid i') (hi' : i'.status = .issued ∧ i'.orderId = i.orderId)
    (hopen : b'.HasOpenIntent iid) (hint : ∀ j, j ≠ iid → (b'.HasOpenIntent j ↔ b.HasOpenIntent j))
    (horders : b'.orders = b.orders) :
    b'.holdsOf u = b.holdsOf u + if u = o.customerId then i'.amountFromWallet else 0 := by
  have hold : b.holdOf u iid i = 0 := holdOf_eq_zero fun _ hyes => absurd hyes hno
  have ho' : b'.orders.get? i'.orderId = some o := by
    rw [horders, hi'.2]
    exact ho
  rw [holdsOf_change hi hinv fun j x _ hj => (holdOf_congr (hint j hj) (by rw [horders])).symm, hold,
    holdOf_pending hi'.1 hopen ho', sub_zero]

/-- The customers of the orders stay. -/
theorem customers_setOrder {oid k : Id} {o o' : Order} (ho : b.orders.get? oid = some o)
    (ho' : o'.customerId = o.customerId) :
    ((b.setOrder oid o').orders.get? k).map (·.customerId) = (b.orders.get? k).map (·.customerId) := by
  simp only [setOrder, Table.get?_set]
  split_ifs with hk
  · rw [hk, ho, Option.map_some, Option.map_some, ho']
  · rfl

end Pending

/-! ## Wallets of users -/

section Wallets

variable {b b' b₁ : Books} {c wid iid oid : Id} {n k : ℤ}

/-- The legs of a wallet after a group. -/
theorem Posts.wallet {legs : List Leg} {id : Id} {w' : Wallet} (h : Posts c legs b b')
    (hw : b'.wallets.get? id = some w') :
    ∃ w, b.wallets.get? id = some w ∧ w'.userId = w.userId ∧ w'.heldBalance = w.heldBalance ∧
      w'.balance = w.balance + (legs.map fun l => if l.walletId = id then l.amount.coeff else 0).sum := by
  obtain ⟨ts, hrows, rfl, -⟩ := h
  rw [Table.get?_mapRows, Option.map_eq_some_iff] at hw
  obtain ⟨w, hw, rfl⟩ := hw
  refine ⟨w, hw, rfl, rfl, ?_⟩
  rw [← ledgerSum_rows hrows]
  rfl

/-- A wallet of a user is not a system wallet. -/
theorem IsSystem.ne_user {t : WalletType} {g id u : Id} {w : Wallet} (h : b.IsSystem t g)
    (hw : b.wallets.get? id = some w) (hu : w.userId = some u) : g ≠ id := by
  rintro rfl
  obtain ⟨w', hw', -, hnone⟩ := h
  obtain rfl : w = w' := Option.some.inj (hw.symm.trans hw')
  rw [hnone] at hu
  cases hu

/-- The legs of a payment on a wallet that is no system wallet. -/
theorem sum_fundingLegs {g e id : Id} {x : Option Id} {total : ℤ} (hg : g ≠ id) (he : e ≠ id)
    (hn : 0 ≤ n) (hfits : fitsMoney n = true) :
    ((fundingLegs wid g e iid oid x total n k).map fun l =>
      if l.walletId = id then l.amount.coeff else 0).sum = -if id = wid then n else 0 := by
  have hneg : (Dec.cents n).neg.coeff = -n := by
    rw [neg_cents_of_lt]
    · rfl
    · simp only [fitsMoney, decide_eq_true_eq] at hfits
      exact hfits.trans (by decide)
  by_cases hpos : 0 < n <;> by_cases hk : 0 < k <;> by_cases hid : wid = id
  all_goals simp [fundingLegs, fundingLeg, hpos, hk, hg, he, hid, hneg, eq_comm]
  all_goals omega

/-- A user's wallet after a payment: the payer's wallet pays its part, from the hold when there is
one. -/
theorem Funded.wallet {x : Option Id} {held : Bool} {id u : Id} {w' : Wallet}
    (h : b.Funded c wid iid oid x n k held b₁) (hnot : .escrow iid ∉ ledgerKeys b.transactions)
    (hfits : fitsMoney n = true) (hw' : b₁.wallets.get? id = some w') (hu : w'.userId = some u) :
    ∃ w, b.wallets.get? id = some w ∧ w.userId = some u ∧ 0 ≤ n ∧
      w'.balance = w.balance - (if id = wid then n else 0) ∧
      w'.heldBalance = if id = wid ∧ held = true ∧ 0 < n then max 0 (w.heldBalance - n)
        else w.heldBalance := by
  rcases h with ⟨hkey, -⟩ | ⟨g, e, b₂, hn, hk, he, hg, hp, hheld⟩
  · exact absurd hkey hnot
  -- What the group alone does to the wallet.
  have hposted : ∀ v, b₂.wallets.get? id = some v → v.userId = some u →
      ∃ w, b.wallets.get? id = some w ∧ w.userId = some u ∧ v.heldBalance = w.heldBalance ∧
        v.balance = w.balance - if id = wid then n else 0 := by
    intro v hv hvu
    obtain ⟨w, hw, huser, hheld', hbal⟩ := hp.wallet hv
    have hwu : w.userId = some u := huser.symm.trans hvu
    have hge := hg.ne_user hw hwu
    have hee := he.ne_user hw hwu
    refine ⟨w, hw, hwu, hheld', ?_⟩
    rw [hbal, sum_fundingLegs hge hee hn hfits, sub_eq_add_neg]
  rcases hheld with ⟨hno, rfl⟩ | ⟨hyes, hpos, v, hv, rfl⟩
  · obtain ⟨w, hw, hwu, hh, hbal⟩ := hposted w' hw' hu
    refine ⟨w, hw, hwu, hn, hbal, ?_⟩
    rw [if_neg fun hc => hno hc.2, hh]
  · simp only [setHeld, Table.get?_update] at hw'
    split_ifs at hw' with hid
    · subst hid
      rw [hv, Option.map_some, Option.some.injEq] at hw'
      subst hw'
      obtain ⟨w, hw, hwu, hh, hbal⟩ := hposted v hv hu
      refine ⟨w, hw, hwu, hn, hbal, ?_⟩
      rw [if_pos ⟨rfl, hyes, hpos⟩, ← hh]
      rfl
    · obtain ⟨w, hw, hwu, hh, hbal⟩ := hposted w' hw' hu
      refine ⟨w, hw, hwu, hn, hbal, ?_⟩
      rw [if_neg fun hc => hid hc.1, hh]

/-- A user's wallet after a top-up. -/
theorem Credited.wallet {jid id u : Id} {w' : Wallet} (h : b.Credited c wid jid n b')
    (hn : 0 < n) (hw' : b'.wallets.get? id = some w') (hu : w'.userId = some u) :
    ∃ w, b.wallets.get? id = some w ∧ w.userId = some u ∧ w'.heldBalance = w.heldBalance ∧
      w.balance ≤ w'.balance := by
  rcases h with ⟨-, rfl⟩ | ⟨g, hg, hp⟩
  · exact ⟨w', hw', hu, rfl, le_refl _⟩
  obtain ⟨w, hw, huser, hheld, hbal⟩ := hp.wallet hw'
  have hwu : w.userId = some u := huser.symm.trans hu
  have hge := hg.ne_user hw hwu
  refine ⟨w, hw, hwu, hheld, ?_⟩
  rw [hbal]
  by_cases hid : wid = id
  · simp [topupLegs, hge, hid, Dec.cents]
    omega
  · simp [topupLegs, hge, hid]

/-- A wallet after its held balance was set. -/
theorem get?_wallets_setHeld {id : Id} {w w' : Wallet} (hw : b.wallets.get? wid = some w)
    (hw' : (b.setHeld wid n).wallets.get? id = some w') :
    (id = wid ∧ w' = w.setHeld n) ∨ (id ≠ wid ∧ b.wallets.get? id = some w') := by
  simp only [setHeld, Table.get?_update] at hw'
  split_ifs at hw' with hid
  · subst hid
    rw [hw, Option.map_some, Option.some.injEq] at hw'
    exact .inl ⟨rfl, hw'.symm⟩
  · exact .inr ⟨hid, hw'⟩

end Wallets

end Books

/-! ## Who pays, and how much -/

/-- What holds of the parties and the amounts of pending payments. -/
structure PartiesOk (b : Books) : Prop where
  /-- The courier of an order is a courier. -/
  courier : ∀ oid o k, b.orders.get? oid = some o → o.courierId = some k →
    ∃ v, b.users.get? k = some v ∧ v.role = .courier
  /-- An open intent is of the customer of the order. -/
  payer : ∀ jid p iid i o, b.intents.get? jid = some p → p.referenceInvoiceId = some iid →
    p.status = .new → b.invoices.get? iid = some i → b.orders.get? i.orderId = some o →
    p.userId = o.customerId
  /-- The wallet's part of a pending payment is not negative. -/
  part : ∀ iid i, b.invoices.get? iid = some i → i.status = .issued → b.HasOpenIntent iid →
    0 ≤ i.amountFromWallet
  /-- Intents are of positive amounts. -/
  amount : ∀ jid p, b.intents.get? jid = some p → 0 < p.amount

/-- The wallet holds a part of an invoice. -/
def Books.HoldsFor (b : Books) (iid : Id) : Prop :=
  ∃ i, b.invoices.get? iid = some i ∧ i.status = .issued ∧ b.HasOpenIntent iid ∧
    i.amountFromWallet ≠ 0

/-- The requests up to the payment of an order: the payer of an invoice is a customer, as the route
demands. -/
def Request.upToPayment : Request → Db → Prop
  | .payInvoice _ _ _ customerId, d => ∃ v, d.users.get? customerId = some v ∧ v.role = .customer
  | .approveOrder .., _ | .autoApprove .., _ | .resolveDispute .., _ => False
  | r, _ => r.trades = true

/-- A request up to the payment is one of the deals. -/
theorem Request.upToPayment.trades {r : Request} {d : Db} (h : r.upToPayment d) : r.trades = true := by
  cases r <;> first | rfl | exact h

/-- No request that settles an order is among them. -/
theorem Request.upToPayment.not_settles {r : Request} {d : Db} {b : Books} {oid : Id} {st : OrderStatus}
    (h : r.upToPayment d) (hr : r.Settles b oid st) : False := by
  cases hr <;> exact h

/-- Where a request returns the hold of a pending payment that it ends: an invoice for which the
wallet holds a part is neither cancelled, nor paid from the wallet, nor is its intent reported as
failed. The payer of an invoice is a customer, as the route demands. -/
def Request.keepsHolds : Request → Db → Prop
  | .payInvoice now _ invoiceId customerId, d =>
      (∃ v, d.users.get? customerId = some v ∧ v.role = .customer) ∧
        (d.books.WalletCovers now invoiceId customerId → ¬d.books.HoldsFor invoiceId)
  | .cancelInvoice _ invoiceId courierId, d => ∀ i, d.invoices.get? invoiceId = some i →
      i.issuedByCourierId = courierId → ¬d.books.HoldsFor invoiceId
  | .handleWebhook _ verified lockGranted _ (.ok e), d => verified = true → lockGranted = true →
      PaymentService.isPaid e.status = false → ∀ jid p iid, d.intents.get? jid = some p →
      p.streampayPaymentLinkId = some e.paymentLinkId → p.referenceInvoiceId = some iid →
      p.status = .new → ¬d.books.HoldsFor iid
  | .approveOrder .., _ | .autoApprove .., _ | .resolveDispute .., _ => False
  | r, _ => r.trades = true

/-- A request that returns its hold is one up to the payment. -/
theorem Request.upToPayment_of_keepsHolds {r : Request} {d : Db} (h : r.keepsHolds d) : r.upToPayment d := by
  cases r <;> first | exact h | exact h.1 | rfl

namespace PartiesOk

variable {b b' : Books} {oid iid jid : Id} {o o' : Order} {i i' : Invoice} {p p' : PaymentIntent}

/-- The parties depend on users, orders, invoices and intents alone. -/
theorem congr (h : PartiesOk b) (hu : b'.users = b.users) (ho : b'.orders = b.orders)
    (hi : b'.invoices = b.invoices) (hp : b'.intents = b.intents) : PartiesOk b' := by
  obtain ⟨users, wallets, transactions, orders, invoices, intents, disputes, promos,
    redemptions⟩ := b'
  dsimp only at hu ho hi hp
  subst hu ho hi hp
  exact ⟨h.courier, h.payer, h.part, h.amount⟩

/-- A write of an order that keeps its customer. -/
theorem setOrder (h : PartiesOk b)
    (hcustomer : ∀ iid i, b.invoices.get? iid = some i → i.orderId = oid →
      ∃ o, b.orders.get? oid = some o ∧ o'.customerId = o.customerId)
    (hcourier : ∀ k, o'.courierId = some k → ∃ v, b.users.get? k = some v ∧ v.role = .courier) :
    PartiesOk (b.setOrder oid o') where
  -- The written row by the hypotheses, any other by the invariant.
  courier k x l hx hl := by
    simp only [Books.setOrder, Table.get?_set] at hx
    split_ifs at hx
    · obtain rfl := Option.some.inj hx
      exact hcourier l hl
    · exact h.courier k x l hx hl
  payer k q j y x hq href hnew hy hx := by
    simp only [Books.setOrder, Table.get?_set] at hx
    split_ifs at hx with hk
    · obtain rfl := Option.some.inj hx
      obtain ⟨o, ho, heq⟩ := hcustomer j y hy hk
      rw [heq]
      exact h.payer k q j y o hq href hnew hy (hk ▸ ho)
    · exact h.payer k q j y x hq href hnew hy hx
  part := h.part
  amount := h.amount

/-- An order that moves keeps its parties. -/
theorem moveOrder (h : PartiesOk b) (ho : b.orders.get? oid = some o)
    (hparties : o'.customerId = o.customerId ∧ o'.courierId = o.courierId) :
    PartiesOk (b.setOrder oid o') := by
  refine h.setOrder (fun _ _ _ _ => ⟨o, ho, hparties.1⟩) fun k hk => ?_
  exact h.courier oid o k ho (hparties.2 ▸ hk)

/-- A write of an invoice that keeps its order. -/
theorem setInvoice (h : PartiesOk b)
    (horder : b.HasOpenIntent iid → ∃ i, b.invoices.get? iid = some i ∧ i'.orderId = i.orderId)
    (hpart : i'.status = .issued → b.HasOpenIntent iid → 0 ≤ i'.amountFromWallet) :
    PartiesOk (b.setInvoice iid i') where
  courier := h.courier
  payer k q j y x hq href hnew hy hx := by
    simp only [Books.setInvoice, Table.get?_set] at hy
    split_ifs at hy with hj
    · obtain rfl := Option.some.inj hy
      subst hj
      obtain ⟨z, hz, hzo⟩ := horder ⟨k, q, hq, href, hnew⟩
      exact h.payer k q j z x hq href hnew hz (hzo ▸ hx)
    · exact h.payer k q j y x hq href hnew hy hx
  part j y hy hst hopen := by
    simp only [Books.setInvoice, Table.get?_set] at hy
    split_ifs at hy with hj
    · obtain rfl := Option.some.inj hy
      subst hj
      exact hpart hst hopen
    · exact h.part j y hy hst hopen
  amount := h.amount

/-- A write of a payment intent. -/
theorem setIntent (h : PartiesOk b) (hamount : 0 < p'.amount)
    (hp : ∀ iid, p'.referenceInvoiceId = some iid → p'.status = .new →
      ∀ i, b.invoices.get? iid = some i → (i.status = .issued → 0 ≤ i.amountFromWallet) ∧
        ∀ o, b.orders.get? i.orderId = some o → p'.userId = o.customerId) :
    PartiesOk (b.setIntent jid p') where
  courier := h.courier
  -- The new row is answered by the hypotheses, any other by the invariant.
  payer k q j y x hq href hnew hy hx := by
    simp only [Books.setIntent, Table.get?_set] at hq
    split_ifs at hq
    · obtain rfl := Option.some.inj hq
      exact (hp j href hnew y hy).2 x hx
    · exact h.payer k q j y x hq href hnew hy hx
  part j y hy hst hopen := by
    obtain ⟨k, q, hq, href, hnew⟩ := hopen
    simp only [Books.setIntent, Table.get?_set] at hq
    split_ifs at hq
    · obtain rfl := Option.some.inj hq
      exact (hp j href hnew y hy).1 hst
    · exact h.part j y hy hst ⟨k, q, hq, href, hnew⟩
  amount k q hq := by
    simp only [Books.setIntent, Table.get?_set] at hq
    split_ifs at hq
    · obtain rfl := Option.some.inj hq
      exact hamount
    · exact h.amount k q hq

/-- The parties stay when an intent is closed. -/
theorem closeIntent (h : PartiesOk b) (hp : b.intents.get? jid = some p)
    (hamount : p'.amount = p.amount) (hne : p'.status ≠ .new) : PartiesOk (b.setIntent jid p') :=
  h.setIntent (hamount ▸ h.amount jid p hp) fun _ _ hnew => absurd hnew hne

end PartiesOk

/-! ## The invariant -/

/-- What holds of the held balances, when no hold is forgotten (`tight`) and in any case. -/
structure HoldsOk (tight : Prop) (b : Books) : Prop where
  parties : PartiesOk b
  /-- A user's wallet holds the parts of the user's pending payments, and has that much. -/
  wallets : ∀ id w u, b.wallets.get? id = some w → w.userId = some u →
    b.holdsOf u ≤ w.heldBalance ∧ w.heldBalance ≤ w.balance ∧
      (tight → w.heldBalance = b.holdsOf u)

namespace HoldsOk

variable {tight : Prop} {b b' : Books} {iid jid oid : Id} {o o' : Order} {i i' : Invoice}
  {p p' : PaymentIntent}

/-- Wallets that stay, and pending payments that are not more. -/
theorem of_less (h : HoldsOk tight b) (hparties : PartiesOk b') (hw : b'.wallets = b.wallets)
    (hholds : ∀ u, b'.holdsOf u ≤ b.holdsOf u ∧ (tight → b'.holdsOf u = b.holdsOf u)) :
    HoldsOk tight b' := by
  refine ⟨hparties, fun id w u hget hu => ?_⟩
  rw [hw] at hget
  obtain ⟨hholds, hsame⟩ := hholds u
  obtain ⟨hge, hle, heq⟩ := h.wallets id w u hget hu
  exact ⟨hholds.trans hge, hle, fun ht => (heq ht).trans (hsame ht).symm⟩

/-- Wallets that stay, and holds that stay. -/
theorem of_same (h : HoldsOk tight b) (hparties : PartiesOk b') (hw : b'.wallets = b.wallets)
    (hholds : ∀ u, b'.holdsOf u = b.holdsOf u) : HoldsOk tight b' :=
  h.of_less hparties hw fun u => ⟨(hholds u).le, fun _ => hholds u⟩

/-- Wallets that keep what they hold, and still have that much. -/
theorem of_wallets (h : HoldsOk tight b) (hu : b'.users = b.users) (ho : b'.orders = b.orders)
    (hi : b'.invoices = b.invoices) (hp : b'.intents = b.intents)
    (hw : ∀ id w' u, b'.wallets.get? id = some w' → w'.userId = some u →
      ∃ w, b.wallets.get? id = some w ∧ w.userId = some u ∧ w'.heldBalance = w.heldBalance ∧
        w'.heldBalance ≤ w'.balance) : HoldsOk tight b' := by
  refine ⟨h.parties.congr hu ho hi hp, fun id w' u hget hwu => ?_⟩
  obtain ⟨w, hw, hwu, heq, hle⟩ := hw id w' u hget hwu
  have hholds : b'.holdsOf u = b.holdsOf u := by
    unfold Books.holdsOf Books.holdOf Books.pending Books.openIntent
    rw [ho, hi, hp]
  obtain ⟨hge, -, hsame⟩ := h.wallets id w u hw hwu
  rw [hholds, heq]
  exact ⟨hge, heq ▸ hle, hsame⟩

/-- The holds depend on users, wallets, orders, invoices and intents alone. -/
theorem congr (h : HoldsOk tight b) (hu : b'.users = b.users) (hw : b'.wallets = b.wallets)
    (ho : b'.orders = b.orders) (hi : b'.invoices = b.invoices) (hp : b'.intents = b.intents) :
    HoldsOk tight b' := by
  refine h.of_wallets hu ho hi hp fun id w u hget hwu => ?_
  rw [hw] at hget
  exact ⟨w, hget, hwu, rfl, (h.wallets id w u hget hwu).2.1⟩

/-- A write of an order that keeps its customer. -/
theorem setOrder (h : HoldsOk tight b) (ho : b.orders.get? oid = some o)
    (hcustomer : o'.customerId = o.customerId)
    (hcourier : ∀ k, o'.courierId = some k → ∃ v, b.users.get? k = some v ∧ v.role = .courier) :
    HoldsOk tight (b.setOrder oid o') := by
  refine h.of_same (h.parties.setOrder (fun _ _ _ _ => ⟨o, ho, hcustomer⟩) hcourier) rfl fun u => ?_
  refine Books.holdsOf_congr rfl fun j x _ => ?_
  have hhold : (b.setOrder oid o').holdOf u j x = b.holdOf u j x :=
    Books.holdOf_congr Iff.rfl (Books.customers_setOrder ho hcustomer)
  exact hhold.symm

/-- A transition of an order. -/
theorem moveOrder (h : HoldsOk tight b) (ho : b.orders.get? oid = some o)
    (hparties : o'.customerId = o.customerId ∧ o'.courierId = o.courierId) :
    HoldsOk tight (b.setOrder oid o') :=
  h.setOrder ho hparties.1 fun k hk => h.parties.courier oid o k ho (hparties.2 ▸ hk)

/-- Nothing negative is held for an invoice. -/
theorem holdOf_nonneg (h : HoldsOk tight b) (u j : Id) (x : Invoice)
    (hx : b.invoices.get? j = some x) : 0 ≤ b.holdOf u j x := by
  unfold Books.holdOf
  split_ifs with hc
  · exact h.parties.part j x hx hc.1 (Books.pending_iff.mp hc.2.1)
  · exact le_refl 0

/-- What is held for one invoice is part of what is held for all. -/
theorem part_le (h : HoldsOk tight b) (hi : b.invoices.get? iid = some i) (hst : i.status = .issued)
    (hopen : b.HasOpenIntent iid) (ho : b.orders.get? i.orderId = some o) :
    i.amountFromWallet ≤ b.holdsOf o.customerId := by
  have hle : b.holdOf o.customerId iid i ≤ b.holdsOf o.customerId :=
    Table.le_sum (h.holdOf_nonneg o.customerId) hi
  rwa [Books.holdOf_pending hst hopen ho, if_pos rfl] at hle

/-- Nothing negative is held in a wallet, as it holds at least what its invoices do. -/
theorem held_nonneg {id u : Id} {w : Wallet} (h : HoldsOk tight b) (hw : b.wallets.get? id = some w)
    (hu : w.userId = some u) : 0 ≤ w.heldBalance :=
  (Table.sum_nonneg (h.holdOf_nonneg u)).trans (h.wallets id w u hw hu).1

/-- An intent is closed. -/
theorem closeIntent (h : HoldsOk tight b) (hp : b.intents.get? jid = some p)
    (hamount : p'.amount = p.amount) (hne : p'.status ≠ .new)
    (hzero : tight → ∀ iid i, p.referenceInvoiceId = some iid → p.status = .new →
      b.invoices.get? iid = some i → i.status = .issued → i.amountFromWallet = 0) :
    HoldsOk tight (b.setIntent jid p') := by
  refine h.of_less (h.parties.closeIntent hp hamount hne) rfl fun u => ⟨?_, fun ht => ?_⟩
  · refine Table.sum_le_sum fun j x hx => ?_
    exact (Books.holdOf_closeIntent hp hne (h.holdOf_nonneg u j x hx)).1
  · refine Table.sum_congr fun j x hx => ?_
    refine (Books.holdOf_closeIntent hp hne (h.holdOf_nonneg u j x hx)).2 fun href hnew => ?_
    exact hzero ht j x href hnew hx

/-- An order that is placed has no invoices. -/
theorem placeOrder (h : HoldsOk tight b) (hd : DealsOk b) (hfree : b.orders.get? oid = none)
    (hcourier : o'.courierId = none) : HoldsOk tight (b.setOrder oid o') := by
  have hnone : ∀ j x, b.invoices.get? j = some x → x.orderId ≠ oid := by
    rintro j x hx rfl
    obtain ⟨o, ho⟩ := hd.order j x hx
    rw [hfree] at ho
    cases ho
  refine h.of_same (h.parties.setOrder ?_ ?_) rfl fun u => ?_
  · exact fun j x hx hxo => absurd hxo (hnone j x hx)
  · intro k hk
    rw [hcourier] at hk
    cases hk
  · refine Books.holdsOf_congr rfl fun j x hx => ?_
    have hhold : (b.setOrder oid o').holdOf u j x = b.holdOf u j x :=
      Books.holdOf_congr Iff.rfl (by simp [Books.setOrder, hnone j x hx])
    exact hhold.symm

/-- An invoice is written, and nothing is held for it afterwards. -/
theorem setInvoice (h : HoldsOk tight b)
    (horder : b.HasOpenIntent iid → ∃ i, b.invoices.get? iid = some i ∧ i'.orderId = i.orderId)
    (hold : tight → ∀ i, b.invoices.get? iid = some i → i.status = .issued → b.HasOpenIntent iid →
      i.amountFromWallet = 0)
    (hnew : i'.status = .issued → ¬b.HasOpenIntent iid) : HoldsOk tight (b.setInvoice iid i') := by
  refine h.of_less (h.parties.setInvoice horder fun hst hopen => absurd hopen (hnew hst)) rfl ?_
  intro u
  have hzero : b.holdOf u iid i' = 0 :=
    Books.holdOf_eq_zero fun hst hopen => absurd hopen (hnew hst)
  rw [Books.holdsOf_setInvoice hzero]
  cases hi : b.invoices.get? iid with
  | none => exact ⟨le_of_eq (sub_zero _), fun _ => sub_zero _⟩
  | some i =>
    rw [Option.map_some, Option.getD_some]
    have hnonneg := h.holdOf_nonneg u iid i hi
    refine ⟨by omega, fun ht => ?_⟩
    rw [Books.holdOf_eq_zero fun hst hopen => hold ht i hi hst hopen, sub_zero]

section Payments

variable {wid u : Id} {w : Wallet} {n : ℤ} {b₁ : Books}

/-- The start of a pending payment holds the wallet's part. -/
theorem openPayment (h : HoldsOk tight b) (hd : DealsOk b)
    (huniq : ∀ id id' w w' u, b.wallets.get? id = some w → b.wallets.get? id' = some w' →
      w.userId = some u → w'.userId = some u → id = id')
    (hi : b.invoices.get? iid = some i) (ho : b.orders.get? i.orderId = some o)
    (hu : u = o.customerId) (hw : b.walletOf u = some (wid, w))
    (hn : n = min (w.balance - w.heldBalance) i.totalAmount) (hlt : n < i.totalAmount)
    (hno : ¬b.HasOpenIntent iid) (hfree : b.intents.get? jid = none)
    (hp : p.status = .new ∧ p.referenceInvoiceId = some iid ∧ p.amount = i.totalAmount - n ∧
      p.userId = u) (hb₁ : b₁ = if 0 < n then b.setHeld wid (w.heldBalance + n) else b)
    (hi' : i'.status = .issued ∧ i'.orderId = i.orderId ∧ i'.amountFromWallet = n) :
    HoldsOk tight ((b₁.setInvoice iid i').setIntent jid p) := by
  obtain ⟨hget, hwu⟩ := Table.find?_eq_some hw
  have hwu : w.userId = some u := by simpa using hwu
  obtain ⟨hge, hle, hsame'⟩ := h.wallets wid w u hget hwu
  have htotal : 0 ≤ i.totalAmount := (Invoice.total_nonneg (hd.row iid i hi).1).1
  have hn₀ : 0 ≤ n := by omega
  have hsame : b₁.users = b.users ∧ b₁.orders = b.orders ∧ b₁.invoices = b.invoices ∧
      b₁.intents = b.intents := by
    rw [hb₁]
    split_ifs <;> exact ⟨rfl, rfl, rfl, rfl⟩
  -- The new intent is of the order's customer, who is the payer.
  have hparties : PartiesOk ((b.setInvoice iid i').setIntent jid p) := by
    have h₁ : PartiesOk (b.setInvoice iid i') :=
      h.parties.setInvoice (fun hopen => absurd hopen hno) fun _ hopen => absurd hopen hno
    refine h₁.setIntent (by rw [hp.2.2.1]; omega) fun j hj _ x hx => ?_
    obtain rfl : iid = j := Option.some.inj (hp.2.1.symm.trans hj)
    simp only [Books.setInvoice, Table.get?_set, if_true, Option.some.injEq] at hx
    subst hx
    refine ⟨fun _ => hi'.2.2 ▸ hn₀, fun o₁ ho₁ => ?_⟩
    obtain rfl : o = o₁ := Option.some.inj (ho.symm.trans (hi'.2.1 ▸ ho₁))
    rw [hp.2.2.2, hu]
  -- It holds the wallet's part of the invoice, and nobody else's holds change.
  have hholds : ∀ v, ((b₁.setInvoice iid i').setIntent jid p).holdsOf v =
      b.holdsOf v + if v = o.customerId then n else 0 := by
    intro v
    rw [← hi'.2.2]
    refine Books.holdsOf_opened hi ho hno ?_ ⟨hi'.1, hi'.2.1⟩ ?_ (fun j hj => ?_) hsame.2.1
    · simp only [Books.setIntent, Books.setInvoice, hsame.2.2.1]
    · exact ⟨jid, p, by simp [Books.setIntent], hp.2.1, hp.1⟩
    · have hset : (b.setIntent jid p).HasOpenIntent j ↔ b.HasOpenIntent j := by
        refine Books.hasOpenIntent_setIntent (.inl ?_) fun q hq => ?_
        · rw [hp.2.1]
          exact fun heq => hj (Option.some.inj heq).symm
        · rw [hfree] at hq
          cases hq
      rw [← hset]
      simp only [Books.HasOpenIntent, Books.setIntent, Books.setInvoice, hsame.2.2.2]
  refine ⟨hparties.congr ?_ ?_ ?_ ?_, fun id w' v hw' hv => ?_⟩
  · exact hsame.1
  · exact hsame.2.1
  · simp only [Books.setIntent, Books.setInvoice, hsame.2.2.1]
  · simp only [Books.setIntent, Books.setInvoice, hsame.2.2.2]
  rw [hholds v]
  have hw' : b₁.wallets.get? id = some w' := hw'
  rw [hb₁] at hw'
  split_ifs at hw' with hpos
  · rcases Books.get?_wallets_setHeld hget hw' with ⟨rfl, rfl⟩ | ⟨hid, hw'⟩
    · -- The payer's wallet.
      obtain rfl : u = v := Option.some.inj (hwu.symm.trans hv)
      rw [if_pos hu]
      have hbal : (w.setHeld (w.heldBalance + n)).balance = w.balance := rfl
      have hset : (w.setHeld (w.heldBalance + n)).heldBalance = w.heldBalance + n := rfl
      rw [hbal, hset]
      exact ⟨by omega, by omega, fun ht => by rw [hsame' ht]⟩
    · -- Another user's wallet: one user has one wallet.
      have hv' : v ≠ o.customerId := by
        rintro rfl
        exact hid (huniq id wid w' w _ hw' hget hv (hu ▸ hwu))
      rw [if_neg hv', add_zero]
      exact h.wallets id w' v hw' hv
  · -- Nothing is held when the gateway pays all of it.
    obtain rfl : n = 0 := by omega
    rw [ite_self, add_zero]
    exact h.wallets id w' v hw' hv

/-- The end of a pending payment returns the wallet's part. -/
theorem endPayment (h : HoldsOk tight b) (hparties : PartiesOk b')
    (hi : b.invoices.get? iid = some i) (hst : i.status = .issued)
    (ho : b.orders.get? i.orderId = some o) (hopen : b.HasOpenIntent iid)
    (hinv : b'.invoices = b.invoices.set iid i') (hi' : i'.status ≠ .issued)
    (hint : ∀ j, j ≠ iid → (b'.HasOpenIntent j ↔ b.HasOpenIntent j))
    (hcustomers : ∀ k, (b'.orders.get? k).map (·.customerId) =
      (b.orders.get? k).map (·.customerId))
    (hwallets : ∀ id w' v, b'.wallets.get? id = some w' → w'.userId = some v →
      ∃ w, b.wallets.get? id = some w ∧ w.userId = some v ∧
        (v = o.customerId → w'.heldBalance = max 0 (w.heldBalance - i.amountFromWallet) ∧
          w.balance - i.amountFromWallet ≤ w'.balance) ∧
        (v ≠ o.customerId → w'.heldBalance = w.heldBalance ∧ w.balance ≤ w'.balance)) :
    HoldsOk tight b' := by
  refine ⟨hparties, fun id w' v hw' hv => ?_⟩
  obtain ⟨w, hw, hwv, hpayer, hother⟩ := hwallets id w' v hw' hv
  obtain ⟨hge, hle, hsame⟩ := h.wallets id w v hw hwv
  rw [Books.holdsOf_returned hi hst ho hopen hinv hi' hint hcustomers]
  by_cases hvo : v = o.customerId
  · obtain ⟨hset, hbal⟩ := hpayer hvo
    -- The wallet holds at least this part, so nothing is clamped.
    have hpart := h.part_le hi hst hopen ho
    rw [← hvo] at hpart
    rw [if_pos hvo, hset, max_eq_right (by omega)]
    exact ⟨by omega, by omega, fun ht => by rw [hsame ht]⟩
  · obtain ⟨hset, hbal⟩ := hother hvo
    rw [if_neg hvo, sub_zero, hset]
    exact ⟨hge, by omega, hsame⟩

/-- A success of the gateway: the payer's wallet pays its part from the hold. -/
theorem settle {c : Id} {now : Time} {method : PaymentMethod} (h : HoldsOk tight b) (hd : DealsOk b)
    (hkeys : KeysOk b)
    (huniq : ∀ id id' w w' u, b.wallets.get? id = some w → b.wallets.get? id' = some w' →
      w.userId = some u → w'.userId = some u → id = id')
    (hp : b.intents.get? jid = some p) (hnew : p.status = .new)
    (href : p.referenceInvoiceId = some iid) (hi : b.invoices.get? iid = some i)
    (hst : i.status = .issued) (ho : b.orders.get? i.orderId = some o)
    (hw : b.walletOf p.userId = some (wid, w))
    (hf : b.Funded c wid iid i.orderId (some jid) i.amountFromWallet p.amount
      (decide (0 < i.amountFromWallet)) b₁) :
    HoldsOk tight ((b₁.settled now iid i o method i.amountFromWallet p.amount).setIntent jid
      { p with status := .paid, paidAt := some now }) := by
  obtain ⟨hget, hwu⟩ := Table.find?_eq_some hw
  have hwu : w.userId = some p.userId := by simpa using hwu
  have hpayer : p.userId = o.customerId := h.parties.payer jid p iid i o hp href hnew hi ho
  have hsame := hf.same
  have hparties : PartiesOk (((b.setOrder i.orderId { o with status := .inProgress }).setInvoice iid
      (Books.paidInvoice now i method i.amountFromWallet p.amount)).setIntent jid
      { p with status := .paid, paidAt := some now }) := by
    have h₁ : PartiesOk (b.setOrder i.orderId { o with status := .inProgress }) :=
      h.parties.moveOrder ho ⟨rfl, rfl⟩
    have h₂ : PartiesOk ((b.setOrder i.orderId { o with status := .inProgress }).setInvoice iid
        (Books.paidInvoice now i method i.amountFromWallet p.amount)) :=
      h₁.setInvoice (fun _ => ⟨i, hi, rfl⟩) fun hst' => by cases hst'
    exact h₂.closeIntent hp rfl (by simp)
  have hpaid : (Books.paidInvoice now i method i.amountFromWallet p.amount).status ≠ .issued := by
    simp [Books.paidInvoice]
  refine h.endPayment (hparties.congr hsame.users ?_ ?_ ?_) hi hst ho ⟨jid, p, hp, href, hnew⟩ ?_
    hpaid (fun j hj => ?_) (fun k => ?_) fun id w' v hw' hv => ?_
  · simp only [Books.settled, Books.consumed, Books.setIntent, Books.setInvoice, Books.setOrder,
      hsame.orders]
  · simp only [Books.settled, Books.consumed, Books.setIntent, Books.setInvoice, Books.setOrder,
      hsame.invoices]
  · simp only [Books.settled, Books.consumed, Books.setIntent, Books.setInvoice, Books.setOrder,
      hsame.intents]
  · simp only [Books.settled, Books.consumed, Books.setIntent, Books.setInvoice, Books.setOrder,
      hsame.invoices]
  · have hset : (b.setIntent jid { p with status := .paid, paidAt := some now }).HasOpenIntent j ↔
        b.HasOpenIntent j := by
      refine Books.hasOpenIntent_setIntent (.inr (by simp)) fun q hq => .inl ?_
      obtain rfl : p = q := Option.some.inj (hp.symm.trans hq)
      rw [href]
      exact fun heq => hj (Option.some.inj heq).symm
    rw [← hset]
    simp only [Books.HasOpenIntent, Books.settled, Books.consumed, Books.setIntent,
      Books.setInvoice, Books.setOrder, hsame.intents]
  · have hset : ((b.setOrder i.orderId { o with status := .inProgress }).orders.get? k).map
        (·.customerId) = (b.orders.get? k).map (·.customerId) := Books.customers_setOrder ho rfl
    rw [← hset]
    simp only [Books.settled, Books.consumed, Books.setIntent, Books.setInvoice, Books.setOrder,
      hsame.orders]
  · have hfits := (Invoice.total_nonneg (hd.row iid i hi).1).2
    have hnot := hkeys.not_funded hi (by rw [hst]; decide)
    have hw' : b₁.wallets.get? id = some w' := hw'
    obtain ⟨w₀, hw₀, hw₀v, hn, hbal, hheld⟩ := hf.wallet hnot hfits hw' hv
    -- The customer has one wallet, from which the payment is made.
    have hid : id = wid ↔ v = o.customerId := by
      constructor
      · rintro rfl
        obtain rfl : w = w₀ := Option.some.inj (hget.symm.trans hw₀)
        exact (Option.some.inj (hw₀v.symm.trans hwu)).trans hpayer
      · intro hvo
        exact huniq id wid w₀ w v hw₀ hget hw₀v (by rw [hwu, hpayer, hvo])
    refine ⟨w₀, hw₀, hw₀v, fun hvo => ?_, fun hvo => ?_⟩
    · rw [if_pos (hid.mpr hvo)] at hbal
      refine ⟨?_, hbal.ge⟩
      rw [hheld]
      split_ifs with hpos
      · rfl
      · -- Nothing was released, so nothing was held for the invoice.
        have hzero : i.amountFromWallet = 0 := by
          by_contra hne
          exact hpos ⟨hid.mpr hvo, by simp; omega, by omega⟩
        have hnonneg : 0 ≤ w₀.heldBalance := h.held_nonneg hw₀ hw₀v
        rw [hzero, sub_zero, max_eq_right hnonneg]
    · rw [if_neg fun heq => hvo (hid.mp heq), sub_zero] at hbal
      exact ⟨by rw [hheld, if_neg fun hc => hvo (hid.mp hc.1)], hbal.ge⟩

/-- The expiry of an invoice and of its open intent. -/
theorem expire {now : Time} (h : HoldsOk tight b) (hd : DealsOk b)
    (huniq : ∀ id id' w w' u, b.wallets.get? id = some w → b.wallets.get? id' = some w' →
      w.userId = some u → w'.userId = some u → id = id')
    (hi : b.invoices.get? iid = some i) (hst : i.status = .issued) :
    HoldsOk tight (((b.expiredIntent iid i).released now iid).setInvoice iid
      { i with status := .expired }) := by
  rcases b.expiredIntent_cases iid i with ⟨heq, hnone⟩ | ⟨jid, p, b₁, hp, href, hnew, heq, hb₁⟩ <;>
    rw [heq]
  · -- Without an open intent nothing was held for the invoice.
    have hno : ¬b.HasOpenIntent iid := by
      rw [← Books.pending_iff, Books.pending, hnone]
      decide
    have hreleased : HoldsOk tight (b.released now iid) := h.congr rfl rfl rfl rfl rfl
    exact hreleased.setInvoice (fun hopen => absurd hopen hno)
      (fun _ _ _ _ hopen => absurd hopen hno) fun _ => hno
  · obtain ⟨o, ho⟩ := hd.order iid i hi
    have hpayer : p.userId = o.customerId := h.parties.payer jid p iid i o hp href hnew hi ho
    have hsame : b₁.users = b.users ∧ b₁.orders = b.orders ∧ b₁.invoices = b.invoices ∧
        b₁.intents = b.intents := by
      rcases hb₁ with ⟨rfl, -⟩ | ⟨wid, w, -, -, rfl⟩ <;> exact ⟨rfl, rfl, rfl, rfl⟩
    have hparties : PartiesOk ((b.setInvoice iid { i with status := .expired }).setIntent jid
        { p with status := .expired }) := by
      have h₁ : PartiesOk (b.setInvoice iid { i with status := .expired }) :=
        h.parties.setInvoice (fun _ => ⟨i, hi, rfl⟩) fun hst' => by cases hst'
      exact h₁.closeIntent hp rfl (by simp)
    have hpart := h.parties.part iid i hi hst ⟨jid, p, hp, href, hnew⟩
    have hexpired : ({ i with status := .expired } : Invoice).status ≠ .issued := by simp
    refine h.endPayment (hparties.congr hsame.1 hsame.2.1 ?_ ?_) hi hst ho
      ⟨jid, p, hp, href, hnew⟩ ?_ hexpired (fun j hj => ?_) (fun k => ?_) fun id w' v hw' hv => ?_
    · simp only [Books.released, Books.setIntent, Books.setInvoice, hsame.2.2.1]
    · simp only [Books.released, Books.setIntent, Books.setInvoice, hsame.2.2.2]
    · simp only [Books.released, Books.setIntent, Books.setInvoice, hsame.2.2.1]
    · have hset : (b.setIntent jid { p with status := .expired }).HasOpenIntent j ↔
          b.HasOpenIntent j := by
        refine Books.hasOpenIntent_setIntent (.inr (by simp)) fun q hq => .inl ?_
        obtain rfl : p = q := Option.some.inj (hp.symm.trans hq)
        rw [href]
        exact fun heq => hj (Option.some.inj heq).symm
      rw [← hset]
      simp only [Books.HasOpenIntent, Books.released, Books.setIntent, Books.setInvoice,
        hsame.2.2.2]
    · simp only [Books.released, Books.setIntent, Books.setInvoice, hsame.2.1]
    · have hw' : b₁.wallets.get? id = some w' := hw'
      -- The hold is released, unless the payer has no wallet or nothing was held.
      rcases hb₁ with ⟨rfl, hnot⟩ | ⟨wid, w, hw, hpos, rfl⟩
      · refine ⟨w', hw', hv, fun hvo => ?_, fun _ => ⟨rfl, le_refl _⟩⟩
        rcases hnot with hnone | hzero
        · have hno := Table.find?_eq_none.mp hnone id w' hw'
          simp [hv, hvo, hpayer] at hno
        · have hzero : i.amountFromWallet = 0 := by omega
          rw [hzero, sub_zero, sub_zero, max_eq_right (h.held_nonneg hw' hv)]
          exact ⟨rfl, le_refl _⟩
      · obtain ⟨hget, hwu⟩ := Table.find?_eq_some hw
        have hwu : w.userId = some p.userId := by simpa using hwu
        rcases Books.get?_wallets_setHeld hget hw' with ⟨rfl, rfl⟩ | ⟨hid, hw'⟩
        · refine ⟨w, hget, hv, fun _ => ⟨rfl, ?_⟩, fun hvo => ?_⟩
          · have hbal : (w.setHeld (max 0 (w.heldBalance - i.amountFromWallet))).balance =
                w.balance := rfl
            rw [hbal]
            omega
          · exact absurd ((Option.some.inj (hv.symm.trans hwu)).trans hpayer) hvo
        · refine ⟨w', hw', hv, fun hvo => ?_, fun _ => ⟨rfl, le_refl _⟩⟩
          exact absurd (huniq id wid w' w v hw' hget hv (by rw [hwu, hpayer, hvo])) hid

end Payments

end HoldsOk

/-- Nothing is held for a top-up. -/
theorem DealsOk.no_invoice {b : Books} {jid iid : Id} {p : PaymentIntent} (h : DealsOk b)
    (hp : b.intents.get? jid = some p) (hpurpose : p.purpose = .walletTopup) :
    p.referenceInvoiceId ≠ some iid := by
  intro href
  have horder := (h.intent jid p iid hp href).1
  rw [hpurpose] at horder
  cases horder

/-- What the wallets hold after every effect of a payment, and when no hold is forgotten. -/
theorem HoldsOk.step {tight : Prop} {s : Settings} {r : Request} {d : Db} {b' : Books}
    (h : HoldsOk tight d.books) (hd : DealsOk d.books) (hkeys : KeysOk d.books)
    (hidx : WalletIndex d) (hpays : r.upToPayment d) (hr : tight → r.keepsHolds d)
    (heff : Effect s d.books r b') : HoldsOk tight b' := by
  cases heff with
  | idle => exact h
  | createOrder hfree hst hu hk => exact h.placeOrder hd hfree hk
  | @acceptOrder now g cid oid k o o' u ho hst hu hrole ho' =>
    refine h.setOrder ho (by rw [ho']) fun l hl => ?_
    rw [ho', Option.some.injEq] at hl
    exact ⟨u, hl ▸ hu, hrole⟩
  | cancelOrder ho ht ho' => exact h.moveOrder ho (by rw [ho']; exact ⟨rfl, rfl⟩)
  | @createInvoice now ids oid k x o o' i promo b₁ ho ht hfree hsole hi hcheck hpromo ho' =>
    have h₁ : HoldsOk tight b₁ ∧ b₁.orders = d.books.orders ∧ b₁.invoices = d.books.invoices ∧
        b₁.intents = d.books.intents := by
      cases hpromo <;> exact ⟨h.congr rfl rfl rfl rfl rfl, rfl, rfl, rfl⟩
    obtain ⟨h₁, horders, hinvoices, hintents⟩ := h₁
    have hno : ¬b₁.HasOpenIntent ids.invoiceId := by
      rintro ⟨j, p, hp, href, hnew⟩
      obtain ⟨-, y, hy, -⟩ := (hd.intent j p _ (hintents ▸ hp) href).2 hnew
      rw [hfree] at hy
      cases hy
    have h₂ : HoldsOk tight (b₁.setInvoice ids.invoiceId i) :=
      h₁.setInvoice (fun hopen => absurd hopen hno) (fun _ _ _ _ hopen => absurd hopen hno)
        fun _ => hno
    have ho₁ : b₁.orders.get? oid = some o := horders ▸ ho
    exact h₂.moveOrder ho₁ (by rw [ho']; exact ⟨rfl, rfl⟩)
  | @cancelInvoice now iid k i o hi hst ho ht hk =>
    have h₁ : HoldsOk tight (d.books.released now iid) := h.congr rfl rfl rfl rfl rfl
    have h₂ : HoldsOk tight ((d.books.released now iid).setOrder i.orderId
        { o with status := .assigned, totalAmount := 0 }) := h₁.moveOrder ho ⟨rfl, rfl⟩
    refine h₂.setInvoice (fun _ => ⟨i, hi, rfl⟩) (fun ht y hy hyst hopen => ?_)
      fun hst' => by cases hst'
    obtain rfl : i = y := Option.some.inj (hi.symm.trans hy)
    by_contra hne
    exact hr ht i hi hk ⟨i, hi, hst, hopen, hne⟩
  | @expireInvoice now iid i hi hst =>
    have h₁ : HoldsOk tight (((d.books.expiredIntent iid i).released now iid).setInvoice iid
        { i with status := .expired }) := h.expire hd hidx.user hi hst
    rcases Books.reopened_cases (((d.books.expiredIntent iid i).released now iid).setInvoice iid
      { i with status := .expired }) i.orderId with ⟨heq, -⟩ | ⟨o, ho, -, heq⟩ <;> rw [heq]
    · exact h₁
    · exact h₁.moveOrder ho ⟨rfl, rfl⟩
  | @createTopup now gw jid tid u n p hfree hp hamount =>
    refine h.of_same (h.parties.setIntent hamount fun iid href => ?_) rfl fun u => ?_
    · rw [hp.2.2] at href
      cases href
    · refine Books.holdsOf_congr rfl fun j x _ => ?_
      have hhold : (d.books.setIntent jid p).holdOf u j x = d.books.holdOf u j x := by
        refine Books.holdOf_congr (Books.hasOpenIntent_setIntent (.inl ?_) fun q hq => ?_) rfl
        · rw [hp.2.2]
          simp
        · rw [hfree] at hq
          cases hq
      exact hhold.symm
  | @payWallet now x iid u i o wid w b₁ hi hst ho hwait hu hw hle hf hsole hcheck hexp =>
    have hcovers : d.books.WalletCovers now iid u := ⟨i, o, wid, w, hi, hexp, ho, hu, hw, hle⟩
    have hsame := hf.same
    have h₁ : HoldsOk tight (d.books.setOrder i.orderId { o with status := .inProgress }) :=
      h.moveOrder ho ⟨rfl, rfl⟩
    have h₂ : HoldsOk tight ((d.books.setOrder i.orderId
        { o with status := .inProgress }).setInvoice iid
        (Books.paidInvoice now i .walletOnly i.totalAmount 0)) := by
      refine h₁.setInvoice (fun _ => ⟨i, hi, rfl⟩) (fun ht y hy hyst hopen => ?_)
        fun hst' => by cases hst'
      obtain rfl : i = y := Option.some.inj (hi.symm.trans hy)
      by_contra hne
      exact (hr ht).2 hcovers ⟨i, hi, hst, hopen, hne⟩
    refine h₂.of_wallets hsame.users ?_ ?_ hsame.intents fun id w' v hw' hv => ?_
    · simp only [Books.settled, Books.consumed, Books.setInvoice, Books.setOrder, hsame.orders]
    · simp only [Books.settled, Books.consumed, Books.setInvoice, Books.setOrder, hsame.invoices]
    · have hw' : b₁.wallets.get? id = some w' := hw'
      obtain ⟨w₀, hw₀, hw₀v, hn, hbal, hheld⟩ := hf.wallet (hkeys.not_funded hi (by rw [hst]; decide))
        (Invoice.total_nonneg hcheck).2 hw' hv
      rw [if_neg (by simp)] at hheld
      refine ⟨w₀, hw₀, hw₀v, hheld, ?_⟩
      have hle₀ := (h.wallets id w₀ v hw₀ hw₀v).2.1
      rw [hheld, hbal]
      split_ifs with hid
      · subst hid
        obtain rfl : w = w₀ := Option.some.inj ((Table.find?_eq_some hw).1.symm.trans hw₀)
        omega
      · omega
  | @payGateway now x iid u i i' o wid w p n b₁ hi hst ho hwait hu hw hn hlt hopen hfree hp hb₁ hi' =>
    obtain ⟨method, hi'⟩ := hi'
    obtain ⟨v, hv, hrole⟩ := hpays
    -- The payer is a customer, so not the courier of the order.
    have hcustomer : u = o.customerId := by
      refine (hu.resolve_right fun hcourier => ?_).symm
      obtain ⟨v', hv', hrole'⟩ := h.parties.courier i.orderId o u ho hcourier
      obtain rfl : v = v' := Option.some.inj (hv.symm.trans hv')
      rw [hrole] at hrole'
      cases hrole'
    have hno : ¬d.books.HasOpenIntent iid := by
      rintro ⟨j, q, hq, href, hnew⟩
      exact hd.not_new_of_openIntent hopen hq href hnew
    exact h.openPayment hd hidx.user hi ho hcustomer hw hn hlt hno hfree
      ⟨hp.1, hp.2.2.1, hp.2.2.2.1, hp.2.2.2.2.1⟩ hb₁ (by rw [hi']; exact ⟨hst, rfl, rfl⟩)
  | @webhookFailed now v g c e jid p why hp hnew hlink hev hv =>
    refine h.closeIntent hp rfl (by simp) fun ht iid i href _ hi hst => ?_
    by_contra hne
    exact hr ht hv.1 hv.2 hev jid p iid hp hlink href hnew
      ⟨i, hi, hst, ⟨jid, p, hp, href, hnew⟩, hne⟩
  | @webhookTopup now v g c e jid p wid w b₁ hp hnew hlink hev hpurpose hw hb =>
    have hsame := hb.same
    have h₁ : HoldsOk tight b₁ := by
      refine h.of_wallets hsame.users hsame.orders hsame.invoices hsame.intents ?_
      intro id w' u hw' hu
      obtain ⟨w₀, hw₀, hw₀u, hheld, hbal⟩ :=
        hb.wallet (h.parties.amount jid p hp) hw' hu
      have hle := (h.wallets id w₀ u hw₀ hw₀u).2.1
      exact ⟨w₀, hw₀, hw₀u, hheld, by omega⟩
    have hp₁ : b₁.intents.get? jid = some p := hsame.intents ▸ hp
    exact h₁.closeIntent hp₁ rfl (by simp) fun _ iid i href =>
      absurd href (hd.no_invoice hp hpurpose)
  | @webhookPaid now v g c e jid p iid i hp hnew hlink hev hpurpose href hi hst =>
    refine h.closeIntent hp rfl (by simp) fun _ j x hj _ hx hxs => ?_
    obtain rfl : iid = j := Option.some.inj (href.symm.trans hj)
    obtain rfl : i = x := Option.some.inj (hi.symm.trans hx)
    rw [hst] at hxs
    cases hxs
  | @webhookSettle now v g c e jid p iid i o wid w b₁ hp hnew hlink hev hpurpose href hi hst ho ht hw
      hf hsole method hcheck =>
    have hwait : o.status = .waitingPayment := by
      revert ht
      cases o.status <;> decide
    have hissued := (hd.issued_of_sole hi ho hwait hsole).1
    exact h.settle hd hkeys hidx.user hp hnew href hi hissued ho hw hf
  | @expireTopup jid p hp hpurpose =>
    exact h.closeIntent hp rfl (by simp) fun _ iid i href =>
      absurd href (hd.no_invoice hp hpurpose)
  | submitDelivery ho ht ho' => exact h.moveOrder ho (by rw [ho']; exact ⟨rfl, rfl⟩)
  | @raiseDispute now xid oid u why o o' x ho ht ho' =>
    have h₁ : HoldsOk tight (d.books.setOrder oid o') :=
      h.moveOrder ho (by rw [ho']; exact ⟨rfl, rfl⟩)
    exact h₁.congr rfl rfl rfl rfl rfl
  | settle hr' => exact (hpays.not_settles hr').elim

/-! ## Runs -/

/-- An invoice has a `NEW` payment intent for it. -/
def Db.awaitsGateway (d : Db) (iid : Id) : Bool :=
  (d.intents.find? fun _ p =>
    p.referenceInvoiceId = some iid && p.purpose = .orderInvoice && p.status = .new).isSome

/-- What the held balance of a customer's wallet should be: the wallet's parts of the customer's
issued invoices with a `NEW` payment intent. -/
def Db.reservedFor (d : Db) (u : Id) : ℤ :=
  d.invoices.sum fun iid i =>
    if i.status = .issued ∧ d.awaitsGateway iid = true ∧
      (d.orders.get? i.orderId).any (·.customerId = u) = true then i.amountFromWallet else 0

/-- The accounts of the held balances are right. -/
structure Db.HoldsRight (d : Db) : Prop where
  /-- A wallet holds the parts of the pending payments of its user. -/
  held : ∀ id w u, d.wallets.get? id = some w → w.userId = some u → w.heldBalance = d.reservedFor u
  /-- The wallet has what it holds. -/
  balance : ∀ id w u, d.wallets.get? id = some w → w.userId = some u → w.heldBalance ≤ w.balance
  /-- The hold of a pending payment can be returned in full. -/
  returned : ∀ iid i o id w, d.invoices.get? iid = some i → i.status = .issued →
    d.awaitsGateway iid = true → d.orders.get? i.orderId = some o → d.wallets.get? id = some w →
    w.userId = some o.customerId → 0 ≤ i.amountFromWallet ∧ i.amountFromWallet ≤ w.heldBalance

/-- The intents of invoices have no other purpose. -/
theorem DealsOk.awaitsGateway {d : Db} (h : DealsOk d.books) (iid : Id) :
    d.awaitsGateway iid = d.books.pending iid := by
  rw [Bool.eq_iff_iff, Books.pending_iff]
  constructor
  · intro hsome
    obtain ⟨⟨jid, p⟩, hf⟩ := Option.isSome_iff_exists.mp hsome
    obtain ⟨hp, hpp⟩ := Table.find?_eq_some hf
    simp only [Bool.and_eq_true, decide_eq_true_eq] at hpp
    exact ⟨jid, p, hp, hpp.1.1, hpp.2⟩
  · rintro ⟨jid, p, hp, href, hnew⟩
    have hpurpose := (h.intent jid p iid hp href).1
    have hfound : ∃ y, (d.intents.find? fun _ p => p.referenceInvoiceId = some iid &&
        p.purpose = .orderInvoice && p.status = .new) = some y :=
      Table.find?_isSome hp (by simp [href, hnew, hpurpose])
    exact Option.isSome_iff_exists.mpr hfound

/-- The invariant in the terms of the database. -/
theorem HoldsOk.holdsRight {d : Db} (h : HoldsOk True d.books) (hd : DealsOk d.books) :
    d.HoldsRight where
  held id w u hw hu := by
    rw [(h.wallets id w u hw hu).2.2 trivial]
    refine Table.sum_congr fun iid i _ => ?_
    unfold Books.holdOf
    rw [← hd.awaitsGateway iid]
    rfl
  balance id w u hw hu := (h.wallets id w u hw hu).2.1
  returned iid i o id w hi hst hopen ho hw hu := by
    rw [hd.awaitsGateway iid, Books.pending_iff] at hopen
    refine ⟨h.parties.part iid i hi hst hopen, ?_⟩
    exact (h.part_le hi hst hopen ho).trans (h.wallets id w o.customerId hw hu).1

/-- An opening database holds nothing. -/
theorem Opening.holdsOk {tight : Prop} {d : Db} (h : Opening d) : HoldsOk tight d.books where
  parties := by
    have ho : ∀ id, d.books.orders.get? id = none := fun id => by
      change d.orders.get? id = none
      rw [h.orders, Table.get?_empty]
    have hi : ∀ id, d.books.invoices.get? id = none := fun id => by
      change d.invoices.get? id = none
      rw [h.invoices, Table.get?_empty]
    have hp : ∀ id, d.books.intents.get? id = none := fun id => by
      change d.intents.get? id = none
      rw [h.intents, Table.get?_empty]
    constructor <;> simp [ho, hi, hp]
  wallets id w u hw hu := by
    have hzero := h.wallets id w hw
    have hholds : d.books.holdsOf u = 0 := by
      refine Table.sum_eq_zero fun iid i hi => ?_
      change d.invoices.get? iid = some i at hi
      rw [h.invoices, Table.get?_empty] at hi
      cases hi
    rw [hholds, hzero.1, hzero.2]
    exact ⟨le_refl 0, le_refl 0, fun _ => rfl⟩

/-- When no request ends a pending payment without returning its hold, the held balances are right in
every state of a run. -/
theorem holds_right (refresh : Bool) (s : Settings) {d₀ d : Db} (h₀ : Opening d₀)
    (hrun : SerialRun refresh s Request.keepsHolds d₀ d) : d.HoldsRight := by
  have hok : WalletIndex d ∧ DealsOk d.books ∧ KeysOk d.books ∧ HoldsOk True d.books := by
    refine hrun.inv (I := fun d => WalletIndex d ∧ DealsOk d.books ∧ KeysOk d.books ∧
      HoldsOk True d.books) ⟨h₀.index, h₀.dealsOk, h₀.keysOk, h₀.holdsOk⟩ ?_
    rintro r d hr ⟨hidx, hd, hkeys, h⟩
    have hpays := Request.upToPayment_of_keepsHolds hr
    have heff : Effect s d.books r (r.exec refresh s d).books := Request.exec_effect hpays.trades
    exact ⟨hidx.evolves (r.exec_evolves refresh s d), hd.step heff, hkeys.step heff,
      h.step hd hkeys hidx hpays (fun _ => hr) heff⟩
  exact hok.2.2.2.holdsRight hok.2.1

/-- A payment that the wallet covers in part: 100.00 of 126.79 are held. -/
theorem holds_right_pending : ∃ d,
    SerialRun false Sample.settings Request.keepsHolds Sample.opening d ∧
    (d.wallets.get? 11).map (·.heldBalance) = some 10000 ∧ d.HoldsRight := by
  have hbilled : SerialRun false Sample.settings Request.keepsHolds Sample.opening
      ((Sample.topUp 102 10000 ++ [Sample.place, Sample.take, Sample.bill 601 none]).foldl
        (Request.exec false Sample.settings) Sample.opening) :=
    SerialRun.start.foldl fun r hr d => by
      simp only [Sample.topUp, List.cons_append, List.nil_append, List.mem_cons, List.not_mem_nil,
        or_false] at hr
      rcases hr with rfl | rfl | rfl | rfl | rfl
      · rfl
      · exact fun _ _ hfailed => by cases hfailed
      · rfl
      · rfl
      · rfl
  have huser : (((Sample.topUp 102 10000 ++ [Sample.place, Sample.take, Sample.bill 601 none]).foldl
      (Request.exec false Sample.settings) Sample.opening).users.get? 1).any
        (fun v => v.role = .customer) = true := by decide +kernel
  -- No intent is open before the payment starts.
  have hnone : (((Sample.topUp 102 10000 ++ [Sample.place, Sample.take, Sample.bill 601 none]).foldl
      (Request.exec false Sample.settings) Sample.opening).books.pending 601) = false := by
    decide +kernel
  obtain ⟨v, hv, hrole⟩ := (Option.any_eq_true _ _).mp huser
  have hopened := hbilled.step (Sample.checkOut 601 101) ⟨⟨v, hv, by simpa using hrole⟩, by
    rintro - ⟨i, -, -, hopen, -⟩
    rw [← Books.pending_iff, hnone] at hopen
    cases hopen⟩
  exact ⟨_, hopened, by decide +kernel, holds_right false Sample.settings Sample.opening_ok hopened⟩

/-- The gateway reports that the payment failed: the intent is closed, and the wallet still holds
100.00. -/
theorem holds_wrong : ∃ d,
    SerialRun false Sample.settings (fun r _ => r.trades = true) Sample.opening d ∧
    ¬d.HoldsRight := by
  have hrun : SerialRun false Sample.settings (fun r _ => r.trades = true) Sample.opening
      ((Sample.topUp 102 10000 ++ [Sample.place, Sample.take, Sample.bill 601 none,
        Sample.checkOut 601 101, Sample.report 101 ['F'] 2679]).foldl
        (Request.exec false Sample.settings) Sample.opening) :=
    SerialRun.start.foldl fun r hr _ => by
      simp only [Sample.topUp, List.cons_append, List.nil_append, List.mem_cons, List.not_mem_nil,
        or_false] at hr
      rcases hr with rfl | rfl | rfl | rfl | rfl | rfl | rfl <;> rfl
  -- The intent is closed, and the wallet still holds its part.
  have hheld : (((Sample.topUp 102 10000 ++ [Sample.place, Sample.take, Sample.bill 601 none,
      Sample.checkOut 601 101, Sample.report 101 ['F'] 2679]).foldl
      (Request.exec false Sample.settings) Sample.opening).wallets.get? 11).any
        (fun w => w.userId = some 1 && w.heldBalance = 10000) = true := by decide +kernel
  have hreserved : ((Sample.topUp 102 10000 ++ [Sample.place, Sample.take, Sample.bill 601 none,
      Sample.checkOut 601 101, Sample.report 101 ['F'] 2679]).foldl
      (Request.exec false Sample.settings) Sample.opening).reservedFor 1 = 0 := by decide +kernel
  obtain ⟨w, hw, hp⟩ := (Option.any_eq_true _ _).mp hheld
  simp only [Bool.and_eq_true, decide_eq_true_eq] at hp
  refine ⟨_, hrun, fun h => ?_⟩
  have heq := h.held 11 w 1 hw hp.1
  rw [hp.2, hreserved] at heq
  cases heq

end Giftly
