import Giftly.Serial.Keys

/-!
# Escrow over serial runs

The balance of the escrow wallet is the sum of the totals of the paid invoices whose orders are still
under way, and the rows of the escrow wallet that are for an order sum to what the order has there.
A group that funds or pays out an order moves the escrow wallet by the total of its invoice
(`MovesBy`), and the order moves in or out of escrow in the same transaction.
-/

namespace Giftly

open Store OrderState MoneyService WalletRepository

/-- The statuses of an order whose money is in escrow. -/
def OrderStatus.escrowed : OrderStatus → Bool
  | .inProgress | .delivered | .disputed => true
  | _ => false

/-- A transition other than a payment or a payout keeps an order in escrow, or out of it. -/
theorem OrderState.escrowed_of_canTransition {a b : OrderStatus} (h : canTransition a b = true)
    (hb : b ≠ .inProgress ∧ b ≠ .completed ∧ b ≠ .refunded) : b.escrowed = a.escrowed := by
  cases a <;> cases b <;> first | rfl | (exfalso; revert h hb; decide)

namespace Books

/-- The invoice was paid, and its money is still in escrow. -/
def inEscrow (b : Books) (i : Invoice) : Bool :=
  i.status = .paid && (b.orders.get? i.orderId).any (·.status.escrowed)

/-- What an invoice has in escrow, if its order is one of `q`. -/
def share (b : Books) (q : Id → Bool) (i : Invoice) : ℤ :=
  if b.inEscrow i && q i.orderId then i.totalAmount else 0

/-- The totals of the invoices in escrow whose orders are in `q`. -/
def held (b : Books) (q : Id → Bool) : ℤ := b.invoices.sum fun _ i => b.share q i

/-- What the rows of a wallet that are for orders in `q` sum to. -/
def movedFor (b : Books) (e : Id) (q : Id → Bool) : ℤ :=
  (b.transactions.map fun t =>
    if t.walletId = e ∧ t.referenceOrderId.any q = true then t.amount else 0).sum

/-- The one escrow wallet. -/
structure IsEscrow (b : Books) (e : Id) : Prop where
  system : b.IsSystem .systemEscrow e
  sole : ∀ e', b.IsSystem .systemEscrow e' → e' = e

/-- A user's wallet is not the escrow wallet. -/
theorem IsEscrow.ne_user {b : Books} {e u wid : Id} {w : Wallet} (h : b.IsEscrow e)
    (hw : b.walletOf u = some (wid, w)) : wid ≠ e := by
  rintro rfl
  obtain ⟨hget, hu⟩ := Table.find?_eq_some hw
  obtain ⟨w', hw', -, hnone⟩ := h.system
  obtain rfl : w = w' := Option.some.inj (hget.symm.trans hw')
  simp [hnone] at hu

/-- A system wallet of another type is not the escrow wallet. -/
theorem IsEscrow.ne_system {b : Books} {e g : Id} {t : WalletType} (h : b.IsEscrow e)
    (hg : b.IsSystem t g) (ht : t ≠ .systemEscrow) : g ≠ e := by
  rintro rfl
  obtain ⟨w, hw, hwt, -⟩ := hg
  obtain ⟨w', hw', htype, -⟩ := h.system
  obtain rfl : w = w' := Option.some.inj (hw.symm.trans hw')
  exact ht (hwt.symm.trans htype)

/-! ## Groups -/

/-- The legs of a group move the wallet `e` by `n`, for the order. -/
def MovesBy (e oid : Id) (n : ℤ) (legs : List Leg) : Prop :=
  ∀ q : Option Id → Bool, (legs.map fun l =>
    if l.walletId = e ∧ q l.referenceOrderId = true then l.amount.coeff else 0).sum =
      if q (some oid) = true then n else 0

section Groups

variable {b b' : Books} {c e oid : Id} {n : ℤ} {legs : List Leg} {q : Id → Bool}

/-- The rows of a group, by their wallet and their orders. -/
theorem sum_rows_for {q : Option Id → Bool} {ts : List Transaction}
    (h : List.Forall₂ (RowOf c) legs ts) :
    (ts.map fun t => if t.walletId = e ∧ q t.referenceOrderId = true then t.amount else 0).sum =
      (legs.map fun l =>
        if l.walletId = e ∧ q l.referenceOrderId = true then l.amount.coeff else 0).sum := by
  induction h with
  | nil => rfl
  | cons hr _ ih =>
    rw [List.map_cons, List.sum_cons, ih, List.map_cons, List.sum_cons, hr.walletId, hr.amount,
      hr.referenceOrderId]

/-- A group that moves the escrow by `n` changes its balance by `n`. -/
theorem Posts.balance {w' : Wallet} (h : Posts c legs b b') (hlegs : MovesBy e oid n legs)
    (hw : b'.wallets.get? e = some w') :
    ∃ w, b.wallets.get? e = some w ∧ w'.balance = w.balance + n := by
  obtain ⟨ts, hrows, rfl, -⟩ := h
  rw [Table.get?_mapRows, Option.map_eq_some_iff] at hw
  obtain ⟨w, hw, rfl⟩ := hw
  refine ⟨w, hw, ?_⟩
  have hsum : ledgerSum e ts = n := by
    rw [ledgerSum_rows hrows]
    simpa using hlegs fun _ => true
  simp only [creditRows, Wallet.credit, hsum]

/-- A group that moves the escrow for an order changes what its rows sum to for that order. -/
theorem Posts.movedFor (h : Posts c legs b b') (hlegs : MovesBy e oid n legs) :
    b'.movedFor e q = b.movedFor e q + if q oid = true then n else 0 := by
  obtain ⟨ts, hrows, rfl, -⟩ := h
  simp only [Books.movedFor, List.map_append, List.sum_append]
  rw [sum_rows_for hrows, hlegs]
  rfl

/-- The money of an invoice comes into escrow. -/
theorem movesBy_fundingLegs {wid g iid : Id} {x : Option Id} {k : ℤ} (hw : wid ≠ e) (hg : g ≠ e) :
    MovesBy e oid (n + k) (fundingLegs wid g e iid oid x (n + k) n k) := by
  intro q
  unfold fundingLegs
  split_ifs <;> simp_all [fundingLeg, Dec.cents]

/-- The money of a top-up does not. -/
theorem movesBy_topupLegs {wid g jid : Id} {a k : ℤ} (hw : wid ≠ e) (hg : g ≠ e) :
    MovesBy e oid 0 (topupLegs wid g jid a k) := by
  intro q
  simp [topupLegs, hw, hg]

/-- The constraints of an invoice say that its total and its tax fit their columns. -/
theorem fitsMoney_of_check {i : Invoice} (h : i.check = none) :
    fitsMoney i.totalAmount = true ∧ fitsMoney i.taxAmount = true := by
  simp only [Invoice.check, violated_eq_none, List.forall_mem_cons, Bool.and_eq_true,
    List.all_eq_true] at h
  obtain ⟨⟨⟨-, -, -, -, -, htax, htotal, -⟩, -⟩, -⟩ := h
  exact ⟨htotal, htax⟩

/-- The total of an invoice that meets its constraints is negated exactly. -/
theorem coeff_neg_cents {i : Invoice} (h : i.check = none) :
    (Dec.cents i.totalAmount).neg.coeff = -i.totalAmount := by
  have hfits := (fitsMoney_of_check h).1
  rw [neg_cents_of_lt]
  · rfl
  · simp only [fitsMoney, decide_eq_true_eq] at hfits
    exact hfits.trans (by decide)

/-- The legs of a payout take the total of the invoice out of escrow. -/
theorem Payout.movesBy {s : Settings} {iid : Id} {i : Invoice} {st : OrderStatus}
    (h : b.Payout s oid iid i st legs) (he : b.IsEscrow e) (hrow : i.check = none) :
    MovesBy e oid (-i.totalAmount) legs := by
  have hneg := coeff_neg_cents hrow
  obtain ⟨htotal, htax⟩ := fitsMoney_of_check hrow
  cases h with
  | release hx hw hsys ht hr =>
    -- The account that pays is the escrow, and nobody else's wallet is it.
    obtain rfl := he.sole _ hsys
    have hwe := he.ne_user hw
    have hte := he.ne_system ht (by decide)
    have hre := he.ne_system hr (by decide)
    rw [total_of_computeSettlement htax htotal hx]
    intro q
    unfold releaseLegs
    split_ifs <;> simp_all [payoutLeg]
  | refund hw hsys =>
    obtain rfl := he.sole _ hsys
    have hwe := he.ne_user hw
    intro q
    simp [refundLegs, payoutLeg, hwe, hneg]
  | split hk hu hsys =>
    obtain rfl := he.sole _ hsys
    have hke := he.ne_user hk
    have hue := he.ne_user hu
    intro q
    unfold splitLegs
    split_ifs <;> simp_all [payoutLeg]

end Groups

/-! ## The totals in escrow -/

section Held

variable {b : Books} {oid iid : Id} {o' : Order} {i i' : Invoice} {q : Id → Bool}

/-- The share of an invoice depends on the status of its order only. -/
theorem share_setOrder (hst : o'.status.escrowed = (b.orders.get? oid).any (·.status.escrowed)) :
    (b.setOrder oid o').share q i = b.share q i := by
  have horder : ((b.setOrder oid o').orders.get? i.orderId).any (·.status.escrowed) =
      (b.orders.get? i.orderId).any (·.status.escrowed) := by
    simp only [setOrder, Table.get?_set]
    split_ifs with hk
    · rw [hk, Option.any_some, hst]
    · rfl
  unfold share inEscrow
  rw [horder]

/-- What is in escrow stays when an order stays among those with money in escrow, or out of them. -/
theorem held_setOrder (hst : o'.status.escrowed = (b.orders.get? oid).any (·.status.escrowed)) :
    (b.setOrder oid o').held q = b.held q :=
  Table.sum_congr fun _ _ _ => share_setOrder hst

/-- What is in escrow depends on the orders and the invoices alone. -/
theorem held_congr {b' : Books} (ho : b'.orders = b.orders) (hi : b'.invoices = b.invoices) :
    b'.held q = b.held q := by
  unfold held share inEscrow
  rw [ho, hi]

/-- An invoice that is not paid has nothing in escrow. -/
theorem share_of_ne_paid (h : i.status ≠ .paid) : b.share q i = 0 := by
  simp [share, inEscrow, h]

/-- A write of an invoice that is not paid, over one that is not. -/
theorem held_setInvoice (hold : ∀ i, b.invoices.get? iid = some i → i.status ≠ .paid)
    (hnew : i'.status ≠ .paid) : (b.setInvoice iid i').held q = b.held q := by
  have hsum := Table.sum_set b.invoices (fun _ i => b.share q i) iid i'
  have hzero : ((b.invoices.get? iid).map fun i => b.share q i).getD 0 = 0 := by
    cases hi : b.invoices.get? iid with
    | none => rfl
    | some i => exact share_of_ne_paid (hold i hi)
  rw [hzero, share_of_ne_paid hnew, sub_zero, add_zero] at hsum
  exact hsum

/-- An invoice is paid and its order starts. -/
theorem held_settle (hi : b.invoices.get? iid = some i) (hne : i.status ≠ .paid)
    (hsole : b.Sole iid i.orderId) (ho' : o'.status = .inProgress)
    (hi' : i'.orderId = i.orderId ∧ i'.status = .paid ∧ i'.totalAmount = i.totalAmount) :
    ((b.setOrder i.orderId o').setInvoice iid i').held q =
      b.held q + if q i.orderId = true then i.totalAmount else 0 := by
  -- Every other invoice has the share that it had.
  have hother : ∀ j x, b.invoices.get? j = some x → j ≠ iid →
      b.share q x = ((b.setOrder i.orderId o').setInvoice iid i').share q x := by
    intro j x hx hj
    by_cases hxo : x.orderId = i.orderId
    · -- Another invoice of the order is not paid.
      have hx' : x.status ≠ .paid := by
        intro hpaid
        have hinactive := hsole j x hx hj hxo
        rw [hpaid] at hinactive
        cases hinactive
      rw [share_of_ne_paid hx', share_of_ne_paid hx']
    · simp [share, inEscrow, setOrder, setInvoice, hxo]
  have hsum := Table.sum_set_change b.invoices (fun _ x => b.share q x)
    (fun _ x => ((b.setOrder i.orderId o').setInvoice iid i').share q x) iid i' hother
  have hnew : ((b.setOrder i.orderId o').setInvoice iid i').share q i' =
      if q i.orderId = true then i.totalAmount else 0 := by
    simp [share, inEscrow, setOrder, setInvoice, hi'.1, hi'.2.1, hi'.2.2, ho',
      OrderStatus.escrowed]
  rw [hi, Option.map_some, Option.getD_some, share_of_ne_paid hne, hnew, sub_zero] at hsum
  exact hsum

/-- The order of a paid invoice is settled. -/
theorem held_payOut (hd : DealsOk b) (hi : b.invoices.get? iid = some i) (hst : i.status = .paid)
    (hin : (b.orders.get? i.orderId).any (·.status.escrowed) = true)
    (ho' : o'.status.escrowed = false) :
    (b.setOrder i.orderId o').held q =
      b.held q + if q i.orderId = true then -i.totalAmount else 0 := by
  -- Every other invoice keeps its share, since the order has no other that is paid.
  have hother : ∀ j x, b.invoices.get? j = some x → j ≠ iid →
      b.share q x = (b.setOrder i.orderId o').share q x := by
    intro j x hx hj
    by_cases hxo : x.orderId = i.orderId
    · have hx' : x.status ≠ .paid := by
        intro hpaid
        exact hj (hd.sole j iid x i hx hi hxo (by rw [hpaid]; rfl) (by rw [hst]; rfl))
      rw [share_of_ne_paid hx', share_of_ne_paid hx']
    · simp [share, inEscrow, setOrder, hxo]
  have hsum := Table.sum_change b.invoices (fun _ x => b.share q x)
    (fun _ x => (b.setOrder i.orderId o').share q x) hi hother
  have hold : b.share q i = if q i.orderId = true then i.totalAmount else 0 := by
    simp [share, inEscrow, hst, hin]
  have hnew : (b.setOrder i.orderId o').share q i = 0 := by
    simp [share, inEscrow, setOrder, ho']
  simp only [hold, hnew] at hsum
  change b.invoices.sum _ = b.invoices.sum _ + _
  split_ifs at hsum ⊢ <;> omega

end Held

end Books

/-! ## The invariant -/

/-- What holds of the escrow wallet `e`. -/
structure EscrowOk (e : Id) (b : Books) : Prop where
  /-- The balance is what the paid invoices of orders under way total. -/
  balance : ∀ w, b.wallets.get? e = some w → w.balance = b.held fun _ => true
  /-- So are the rows for each set of orders. -/
  rows : ∀ q, b.movedFor e q = b.held q

namespace EscrowOk

variable {e : Id} {b b' : Books} {oid iid : Id} {o o' : Order} {i i' : Invoice}

/-- Tables that the invariant does not read. -/
theorem congr (h : EscrowOk e b) (hw : b'.wallets = b.wallets)
    (ht : b'.transactions = b.transactions) (ho : b'.orders = b.orders)
    (hi : b'.invoices = b.invoices) : EscrowOk e b' := by
  obtain ⟨users, wallets, transactions, orders, invoices, intents, disputes, promos,
    redemptions⟩ := b'
  dsimp only at hw ht ho hi
  subst hw ht ho hi
  exact ⟨h.balance, h.rows⟩

/-- A new hold leaves the escrow. -/
theorem setHeld (h : EscrowOk e b) (id : Id) (n : ℤ) : EscrowOk e (b.setHeld id n) where
  balance w' hw := by
    simp only [Books.setHeld, Table.get?_update] at hw
    split_ifs at hw
    · obtain ⟨w, hw₀, rfl⟩ := Option.map_eq_some_iff.mp hw
      exact h.balance w hw₀
    · exact h.balance w' hw
  rows := h.rows

/-- A write of an order that leaves it in escrow or out of it. -/
theorem setOrder (h : EscrowOk e b)
    (hst : o'.status.escrowed = (b.orders.get? oid).any (·.status.escrowed)) :
    EscrowOk e (b.setOrder oid o') where
  balance w hw := by
    rw [Books.held_setOrder hst]
    exact h.balance w hw
  rows q := by
    rw [Books.held_setOrder hst]
    exact h.rows q

/-- A write of an invoice that is not paid, over one that is not. -/
theorem setInvoice (h : EscrowOk e b)
    (hold : ∀ i, b.invoices.get? iid = some i → i.status ≠ .paid) (hnew : i'.status ≠ .paid) :
    EscrowOk e (b.setInvoice iid i') where
  balance w hw := by
    rw [Books.held_setInvoice hold hnew]
    exact h.balance w hw
  rows q := by
    rw [Books.held_setInvoice hold hnew]
    exact h.rows q

/-- The books after a group, when the totals in escrow moved with the escrow wallet. -/
theorem post {c : Id} {n : ℤ} {legs : List Leg} {b₁ : Books} (h : EscrowOk e b)
    (hp : Books.Posts c legs b b₁) (hlegs : Books.MovesBy e oid n legs)
    (hw : b'.wallets = b₁.wallets) (ht : b'.transactions = b₁.transactions)
    (hheld : ∀ q, b'.held q = b.held q + if q oid = true then n else 0) : EscrowOk e b' where
  balance w hget := by
    obtain ⟨w₀, hw₀, hbal⟩ := hp.balance hlegs (hw ▸ hget)
    rw [hbal, h.balance w₀ hw₀, hheld]
    simp
  rows q := by
    have hmoved : b'.movedFor e q = b₁.movedFor e q := by
      unfold Books.movedFor
      rw [ht]
    rw [hmoved, hp.movedFor hlegs, h.rows q, hheld]

/-- A transition of an order that is neither a payment nor a payout. -/
theorem moveOrder (h : EscrowOk e b) {st : OrderStatus} (ho : b.orders.get? oid = some o)
    (ht : canTransition o.status st = true)
    (hst : st ≠ .inProgress ∧ st ≠ .completed ∧ st ≠ .refunded) (ho' : o'.status = st) :
    EscrowOk e (b.setOrder oid o') := by
  refine h.setOrder ?_
  rw [ho', escrowed_of_canTransition ht hst, ho, Option.any_some]

/-- An order that is reopened had nothing in escrow. -/
theorem reopened (h : EscrowOk e b) : EscrowOk e (b.reopened oid) := by
  rcases b.reopened_cases oid with ⟨heq, -⟩ | ⟨o, ho, hst, heq⟩ <;> rw [heq]
  · exact h
  · have ht : canTransition o.status .assigned = true := by
      rw [hst]
      rfl
    exact h.moveOrder ho ht (by decide) rfl

/-- The expiry of an open intent leaves the escrow. -/
theorem expiredIntent (h : EscrowOk e b) : EscrowOk e (b.expiredIntent iid i) := by
  rcases b.expiredIntent_cases iid i with ⟨heq, -⟩ | ⟨jid, p, b₁, -, -, -, heq, hb₁⟩ <;> rw [heq]
  · exact h
  · rcases hb₁ with ⟨rfl, -⟩ | ⟨wid, w, -, -, rfl⟩
    · exact h.congr rfl rfl rfl rfl
    · have hheld := h.setHeld wid (max 0 (w.heldBalance - i.amountFromWallet))
      exact hheld.congr rfl rfl rfl rfl

/-- A payment funds the escrow with the total of its invoice. -/
theorem settle {c wid : Id} {x : Option Id} {n k : ℤ} {held : Bool} {b₁ : Books}
    (h : EscrowOk e b) (hkeys : KeysOk b) (he : b.IsEscrow e)
    (hf : b.Funded c wid iid i.orderId x n k held b₁) (hw : wid ≠ e)
    (hi : b.invoices.get? iid = some i) (hne : i.status ≠ .paid)
    (hsole : b.Sole iid i.orderId) (hsum : n + k = i.totalAmount)
    (hi' : i'.orderId = i.orderId ∧ i'.status = .paid ∧ i'.totalAmount = i.totalAmount)
    (ho' : o'.status = .inProgress) :
    EscrowOk e ((b₁.setOrder i.orderId o').setInvoice iid i') := by
  rcases hf with ⟨hkey, -⟩ | ⟨g, e', b₂, -, -, hsys, hg, hp, hheld⟩
  · -- A replay is excluded, since the invoice is not paid.
    exact absurd hkey (hkeys.not_funded hi hne)
  obtain rfl := he.sole _ hsys
  have hsame := hp.same
  -- The legs bring the total into escrow.
  have hlegs : Books.MovesBy e' i.orderId i.totalAmount
      (fundingLegs wid g e' iid i.orderId x (n + k) n k) := by
    rw [← hsum]
    exact Books.movesBy_fundingLegs hw (he.ne_system hg (by decide))
  have hi₂ : b₂.invoices.get? iid = some i := hsame.invoices ▸ hi
  have hsole₂ : b₂.Sole iid i.orderId := by
    unfold Books.Sole
    rw [hsame.invoices]
    exact hsole
  have hposted : EscrowOk e' ((b₂.setOrder i.orderId o').setInvoice iid i') := by
    refine h.post hp hlegs rfl rfl fun q => ?_
    rw [Books.held_settle hi₂ hne hsole₂ ho' hi', Books.held_congr hsame.orders hsame.invoices]
  rcases hheld with ⟨-, rfl⟩ | ⟨-, -, v, -, rfl⟩
  · exact hposted
  · exact hposted.setHeld wid (max 0 (v.heldBalance - n))

/-- A payout takes the total of the paid invoice out of escrow. -/
theorem payOut {s : Settings} {c : Id} {st : OrderStatus} {b₁ : Books} (h : EscrowOk e b)
    (hkeys : KeysOk b) (hd : DealsOk b) (he : b.IsEscrow e) (ho : b.orders.get? oid = some o)
    (ht : canTransition o.status st = true) (hi : b.invoices.get? iid = some i)
    (hio : i.orderId = oid) (hst : i.status = .paid) (hpay : b.PaidOut s c oid iid i st b₁)
    (ho' : o'.status = st) : EscrowOk e (b₁.setOrder oid o') := by
  subst hio
  rcases hpay with ⟨⟨key, hkey, hmem⟩, -⟩ | ⟨legs, hpay, hp⟩
  · -- A replay is excluded, since the order is not settled.
    exact absurd hmem (hkeys.not_settled ho ht hkey)
  have hlegs := hpay.movesBy he (hd.row iid i hi).1
  have hfinal := hpay.key.2
  have hsame := hp.same
  have hin : (b₁.orders.get? i.orderId).any (·.status.escrowed) = true := by
    rw [hsame.orders, ho, Option.any_some]
    rcases hfinal with rfl | rfl <;> (revert ht; cases o.status <;> decide)
  -- A settled order has left escrow.
  have hout : o'.status.escrowed = false := by
    rw [ho']
    rcases hfinal with rfl | rfl <;> rfl
  refine h.post hp hlegs rfl rfl fun q => ?_
  have hd₁ : DealsOk b₁ := hd.congr hsame.orders hsame.invoices hsame.intents
  rw [Books.held_payOut hd₁ (hsame.invoices ▸ hi) hst hin hout,
    Books.held_congr hsame.orders hsame.invoices]

/-- A top-up does not touch the escrow. -/
theorem credit {c wid jid : Id} {n : ℤ} (h : EscrowOk e b) (he : b.IsEscrow e) (hw : wid ≠ e)
    (hb : b.Credited c wid jid n b') : EscrowOk e b' := by
  rcases hb with ⟨-, rfl⟩ | ⟨g, hg, hp⟩
  · exact h
  have hsame := hp.same
  have hlegs : Books.MovesBy e 0 0 (topupLegs wid g jid n (-n)) :=
    Books.movesBy_topupLegs hw (he.ne_system hg (by decide))
  refine h.post hp hlegs rfl rfl fun q => ?_
  rw [Books.held_congr hsame.orders hsame.invoices]
  simp

/-- The escrow after every effect. -/
theorem step {s : Settings} {r : Request} (h : EscrowOk e b) (hkeys : KeysOk b) (hd : DealsOk b)
    (he : b.IsEscrow e) (heff : Effect s b r b') : EscrowOk e b' := by
  cases heff with
  | idle => exact h
  | @createOrder now confirm oid u x o hfree hst =>
    refine h.setOrder ?_
    rw [hst, hfree]
    rfl
  | @acceptOrder now g cid oid k o o' u ho hst hu hrole ho' =>
    have ht : canTransition o.status .assigned = true := by
      rw [hst]
      rfl
    exact h.moveOrder ho ht (by decide) (by rw [ho'])
  | cancelOrder ho ht ho' => exact h.moveOrder ho ht (by decide) (by rw [ho'])
  | @createInvoice now ids oid k x o o' i promo b₁ ho ht hfree hsole hi hcheck hpromo ho' =>
    have h₁ : EscrowOk e b₁ ∧ b₁.orders = b.orders ∧ b₁.invoices = b.invoices := by
      cases hpromo <;> exact ⟨h.congr rfl rfl rfl rfl, rfl, rfl⟩
    -- The new invoice has a free id and is not paid.
    have h₂ : EscrowOk e (b₁.setInvoice ids.invoiceId i) := by
      refine h₁.1.setInvoice (fun y hy => ?_) (by rw [hi.2.1]; decide)
      rw [h₁.2.2, hfree] at hy
      cases hy
    have ho₁ : b₁.orders.get? oid = some o := h₁.2.1 ▸ ho
    exact h₂.moveOrder ho₁ ht (by decide) (by rw [ho'])
  | @cancelInvoice now iid k i o hi hst ho ht =>
    have h₁ : EscrowOk e (b.released now iid) := h.congr rfl rfl rfl rfl
    have h₂ : EscrowOk e ((b.released now iid).setOrder i.orderId
        { o with status := .assigned, totalAmount := 0 }) :=
      h₁.moveOrder ho ht (by decide) rfl
    refine h₂.setInvoice (fun y hy => ?_) (by simp)
    obtain rfl : i = y := Option.some.inj (hi.symm.trans hy)
    rw [hst]
    decide
  | @expireInvoice now iid i hi hst =>
    have h₁ : EscrowOk e ((b.expiredIntent iid i).released now iid) :=
      h.expiredIntent.congr rfl rfl rfl rfl
    refine reopened (h₁.setInvoice (fun y hy => ?_) (by simp))
    have hy₁ : b.invoices.get? iid = some y := by
      rw [← (b.tables_expiredIntent iid i).2.1]
      exact hy
    obtain rfl : i = y := Option.some.inj (hi.symm.trans hy₁)
    rw [hst]
    decide
  | createTopup => exact h.congr rfl rfl rfl rfl
  | @payWallet now x iid u i o wid w b₁ hi hst ho hwait hu hw hle hf hsole hcheck =>
    have h₁ : EscrowOk e ((b₁.setOrder i.orderId { o with status := .inProgress }).setInvoice iid
        (Books.paidInvoice now i .walletOnly i.totalAmount 0)) :=
      h.settle hkeys he hf (he.ne_user hw) hi (by rw [hst]; decide) hsole (add_zero _)
        ⟨rfl, rfl, rfl⟩ rfl
    exact h₁.congr rfl rfl rfl rfl
  | @payGateway now x iid u i i' o wid w p n b₁ hi hst ho hwait hu hw hn hlt hopen hfree hp hb₁ hi' =>
    -- A hold moves no balance.
    have h₁ : EscrowOk e b₁ ∧ b₁.invoices = b.invoices := by
      rw [hb₁]
      split_ifs
      · exact ⟨h.setHeld wid _, rfl⟩
      · exact ⟨h, rfl⟩
    have h₂ : EscrowOk e (b₁.setInvoice iid i') := by
      refine h₁.1.setInvoice (fun y hy => ?_) ?_
      · obtain rfl : i = y := Option.some.inj (hi.symm.trans (h₁.2 ▸ hy))
        rw [hst]
        decide
      · obtain ⟨method, rfl⟩ := hi'
        rw [hst]
        decide
    exact h₂.congr rfl rfl rfl rfl
  | webhookFailed => exact h.congr rfl rfl rfl rfl
  | webhookTopup hp hnew hlink hev hpurpose hw hb =>
    exact (h.credit he (he.ne_user hw) hb).congr rfl rfl rfl rfl
  | webhookPaid => exact h.congr rfl rfl rfl rfl
  | @webhookSettle now v g c e' jid p iid i o wid w b₁ hp hnew hlink hev hpurpose href hi hst ho ht hw
      hf hsole method hcheck =>
    -- The part from the wallet and the amount of the intent make up the total.
    have hsum := hd.sum_of_open hp href hnew hi hst
    have h₁ : EscrowOk e ((b₁.setOrder i.orderId { o with status := .inProgress }).setInvoice iid
        (Books.paidInvoice now i method i.amountFromWallet p.amount)) :=
      h.settle hkeys he hf (he.ne_user hw) hi hst hsole hsum ⟨rfl, rfl, rfl⟩ rfl
    exact h₁.congr rfl rfl rfl rfl
  | expireTopup => exact h.congr rfl rfl rfl rfl
  | submitDelivery ho ht ho' => exact h.moveOrder ho ht (by decide) (by rw [ho'])
  | raiseDispute ho ht ho' =>
    exact (h.moveOrder ho ht (by decide) (by rw [ho'])).congr rfl rfl rfl rfl
  | settle hr ho ht hi hio hst hpay ho' =>
    exact (h.payOut hkeys hd he ho ht hi hio hst hpay ho'.1).congr rfl rfl rfl rfl

end EscrowOk

/-! ## Runs -/

/-- The escrow wallet is the only one of its type. -/
theorem isEscrow_of_index {d : Db} {e : Id} {w : Wallet} (h : WalletIndex d)
    (hw : d.wallets.get? e = some w) (ht : w.type = .systemEscrow) : d.books.IsEscrow e := by
  have hnone : ∀ id v, d.wallets.get? id = some v → v.type = .systemEscrow → v.userId = none := by
    intro id v hv hvt
    by_contra hsome
    have htype := (h.pairing id v hv).mp (Option.isSome_iff_ne_none.mpr hsome)
    rw [hvt] at htype
    rcases htype with htype | htype <;> cases htype
  refine ⟨⟨w, hw, ht, hnone e w hw ht⟩, ?_⟩
  rintro e' ⟨w', hw', ht', hu'⟩
  exact h.system e' e w' w hw' hw hu' (hnone e w hw ht) (ht'.trans ht.symm)

/-- An opening database has nothing in escrow. -/
theorem Opening.escrowOk {d : Db} (h : Opening d) (e : Id) : EscrowOk e d.books := by
  have ht : d.books.transactions = [] := h.transactions
  have hheld : ∀ q, d.books.held q = 0 := fun q => by
    have hi : d.books.invoices = .empty := h.invoices
    unfold Books.held
    rw [hi]
    rfl
  refine ⟨fun w hw => ?_, fun q => ?_⟩
  · rw [hheld]
    exact (h.wallets e w hw).1
  · simp [Books.movedFor, ht, hheld]

/-- No statement makes a wallet the escrow wallet. -/
theorem isEscrow_of_evolves {d d' : Db} {ts : List Tbl} {e : Id} (hev : d.Evolves ts d')
    (hindex : WalletIndex d) (he : d'.books.IsEscrow e) : d.books.IsEscrow e := by
  obtain ⟨w', hw', ht, -⟩ := he.system
  have hw' : d'.wallets.get? e = some w' := hw'
  have hk := hev.wallets e
  rw [hw', Option.map_some] at hk
  obtain ⟨w, hw, hf⟩ := Option.map_eq_some_iff.mp hk.symm
  simp only [Wallet.frozen, Prod.mk.injEq] at hf
  exact isEscrow_of_index hindex hw (hf.2.trans ht)

/-- The escrow is in order in every state of a run. -/
theorem SerialRun.escrowOk {refresh : Bool} {s : Settings} {cond : Request → Db → Prop} {d₀ d : Db}
    (hrun : SerialRun refresh s cond d₀ d) (hcond : ∀ r d, cond r d → r.trades = true)
    (h₀ : Opening d₀) :
    WalletIndex d ∧ DealsOk d.books ∧ ∀ e, d.books.IsEscrow e → EscrowOk e d.books := by
  suffices h : WalletIndex d ∧ DealsOk d.books ∧ KeysOk d.books ∧
      ∀ e, d.books.IsEscrow e → EscrowOk e d.books from ⟨h.1, h.2.1, h.2.2.2⟩
  refine hrun.inv (I := fun d => WalletIndex d ∧ DealsOk d.books ∧ KeysOk d.books ∧
    ∀ e, d.books.IsEscrow e → EscrowOk e d.books)
    ⟨h₀.index, h₀.dealsOk, h₀.keysOk, fun e _ => h₀.escrowOk e⟩ ?_
  rintro r d hr ⟨hindex, hdeals, hkeys, hescrow⟩
  have hev := r.exec_evolves refresh s d
  have heff : Effect s d.books r (r.exec refresh s d).books := Request.exec_effect (hcond r d hr)
  refine ⟨hindex.evolves hev, hdeals.step heff, hkeys.step heff, fun e he => ?_⟩
  have he₀ := isEscrow_of_evolves hev hindex he
  exact (hescrow e he₀).step hkeys hdeals he₀ heff

/-- In every state that requests reach one after the other, the balance of the escrow wallet is the
sum of the totals of the paid invoices whose orders are in progress, delivered or disputed. The parts
of a paid invoice make up its total, and the rows of the escrow wallet for an order in another status
sum to zero. -/
theorem escrow_conserved (refresh : Bool) (s : Settings) {d₀ d : Db} {e : Id} {w : Wallet}
    (h₀ : Opening d₀) (hrun : SerialRun refresh s (fun r _ => r.trades = true) d₀ d)
    (hw : d.wallets.get? e = some w) (ht : w.type = .systemEscrow) :
    (w.balance = d.invoices.sum fun _ i =>
      if i.status = .paid ∧ (d.orders.get? i.orderId).any (·.status.escrowed) = true then
        i.totalAmount else 0) ∧
    (∀ iid i, d.invoices.get? iid = some i → i.status = .paid →
      i.amountFromWallet + i.amountFromGateway = i.totalAmount) ∧
    ∀ oid o, d.orders.get? oid = some o → o.status.escrowed = false →
      d.books.movedFor e (fun k => k = oid) = 0 := by
  obtain ⟨hindex, hdeals, hescrow⟩ := hrun.escrowOk (fun _ _ h => h) h₀
  have h := hescrow e (isEscrow_of_index hindex hw ht)
  refine ⟨?_, fun iid i hi hst => (hdeals.paid iid i hi hst).1, fun oid o ho hst => ?_⟩
  · rw [h.balance w hw]
    refine Table.sum_congr fun _ i _ => ?_
    simp [Books.share, Books.inEscrow, Db.books]
  · -- The rows of an order outside escrow add up to nothing.
    rw [h.rows]
    refine Table.sum_eq_zero fun _ i _ => ?_
    have ho : d.books.orders.get? oid = some o := ho
    by_cases hio : i.orderId = oid
    · simp [Books.share, Books.inEscrow, hio, ho, hst]
    · simp [Books.share, hio]

/-- An order whose payment the gateway has confirmed. -/
def Sample.underWay : List Request :=
  [place, take, bill 601 none, checkOut 601 101, report 101 paid 12679]

/-- The escrow of one order whose payment the gateway has confirmed. -/
theorem escrow_conserved_underWay : ∃ d w,
    SerialRun false Sample.settings (fun r _ => r.trades = true) Sample.opening d ∧
    d.wallets.get? 21 = some w ∧ w.type = .systemEscrow ∧ w.balance = 12679 ∧
    w.balance = d.invoices.sum fun _ i =>
      if i.status = .paid ∧ (d.orders.get? i.orderId).any (·.status.escrowed) = true then
        i.totalAmount else 0 := by
  have hrun : SerialRun false Sample.settings (fun r _ => r.trades = true) Sample.opening
      (Sample.underWay.foldl (Request.exec false Sample.settings) Sample.opening) :=
    SerialRun.start.foldl fun r hr _ => by
      have htrades : ∀ r ∈ Sample.underWay, r.trades = true := by decide
      exact htrades r hr
  have hescrow : ((Sample.underWay.foldl (Request.exec false Sample.settings)
      Sample.opening).wallets.get? 21).any
        (fun w => w.type = .systemEscrow && w.balance = 12679) = true := by decide +kernel
  obtain ⟨w, hw, hp⟩ := (Option.any_eq_true _ _).mp hescrow
  simp only [Bool.and_eq_true, decide_eq_true_eq] at hp
  exact ⟨_, w, hrun, hw, hp.1, hp.2,
    (escrow_conserved false Sample.settings Sample.opening_ok hrun hw hp.1).1⟩

end Giftly
