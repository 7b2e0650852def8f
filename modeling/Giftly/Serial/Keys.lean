import Giftly.Serial.Deals

/-!
# The keys of the ledger over serial runs

A group that funds the escrow of an invoice carries the key of the invoice, and a group that pays it
out one of the keys of the order. Where a key is in the ledger, the invoice is paid or the order is
settled, so a request that is allowed to pay or to settle is never a replay.
-/

namespace Giftly

open Store OrderState MoneyService

/-- What the keys in the ledger say of invoices and orders. -/
structure KeysOk (b : Books) : Prop where
  /-- An invoice that funded the escrow is paid. -/
  funded : ∀ iid, .escrow iid ∈ ledgerKeys b.transactions →
    ∃ i, b.invoices.get? iid = some i ∧ i.status = .paid
  /-- An order that was paid out is settled. -/
  settled : ∀ oid, ∀ key ∈ Books.payoutKeys oid, key ∈ ledgerKeys b.transactions →
    ∃ o, b.orders.get? oid = some o ∧ (o.status = .completed ∨ o.status = .refunded)

/-- The keys in the ledger after a group. -/
theorem Books.Posts.keys {b b' : Books} {c : Id} {legs : List Leg} (h : Posts c legs b b')
    (key : IdempotencyKey) : key ∈ ledgerKeys b'.transactions ↔
      key ∈ ledgerKeys b.transactions ∨ key ∈ legKeys legs := by
  obtain ⟨ts, hrows, rfl, -⟩ := h
  rw [ledgerKeys_append, List.mem_append, rows_keys hrows]

/-- The key of a payout. -/
theorem Books.Payout.key {s : Settings} {b : Books} {oid iid : Id} {i : Invoice} {st : OrderStatus}
    {legs : List Leg} (h : b.Payout s oid iid i st legs) :
    (∃ key ∈ payoutKeys oid, legKeys legs = [key]) ∧ (st = .completed ∨ st = .refunded) := by
  cases h with
  | release => exact ⟨⟨_, by simp [payoutKeys], legKeys_releaseLegs⟩, .inl rfl⟩
  | refund => exact ⟨⟨_, by simp [payoutKeys], legKeys_refundLegs⟩, .inr rfl⟩
  | split => exact ⟨⟨_, by simp [payoutKeys], legKeys_splitLegs⟩, .inl rfl⟩

namespace KeysOk

variable {b b' b₁ : Books} {oid iid : Id} {o o' : Order} {i i' : Invoice}

/-- Tables that the keys do not speak of. -/
theorem congr (h : KeysOk b) (ht : b'.transactions = b.transactions) (ho : b'.orders = b.orders)
    (hi : b'.invoices = b.invoices) : KeysOk b' := by
  obtain ⟨users, wallets, transactions, orders, invoices, intents, disputes, promos,
    redemptions⟩ := b'
  dsimp only at ht ho hi
  subst ht ho hi
  exact ⟨h.funded, h.settled⟩

/-- A settled order does not move. -/
theorem not_settled (h : KeysOk b) {st : OrderStatus} (ho : b.orders.get? oid = some o)
    (ht : canTransition o.status st = true) {key : IdempotencyKey}
    (hkey : key ∈ Books.payoutKeys oid) : key ∉ ledgerKeys b.transactions := by
  intro hmem
  obtain ⟨y, hy, hdone⟩ := h.settled oid key hkey hmem
  obtain rfl : o = y := Option.some.inj (ho.symm.trans hy)
  rcases hdone with hdone | hdone <;> (rw [hdone] at ht; cases ht)

/-- An invoice that is not paid has not funded the escrow. -/
theorem not_funded (h : KeysOk b) (hi : b.invoices.get? iid = some i) (hne : i.status ≠ .paid) :
    .escrow iid ∉ ledgerKeys b.transactions := by
  intro hmem
  obtain ⟨j, hj, hpaid⟩ := h.funded iid hmem
  obtain rfl : i = j := Option.some.inj (hi.symm.trans hj)
  exact hne hpaid

/-- A write of an order that is not settled, or settles it. -/
theorem setOrder (h : KeysOk b)
    (hnot : ∀ key ∈ Books.payoutKeys oid, key ∉ ledgerKeys b.transactions) :
    KeysOk (b.setOrder oid o') where
  funded := h.funded
  settled k key hkey hmem := by
    obtain ⟨o, ho, hdone⟩ := h.settled k key hkey hmem
    have hk : k ≠ oid := by
      rintro rfl
      exact hnot key hkey hmem
    exact ⟨o, by simp [Books.setOrder, hk, ho], hdone⟩

/-- An order that moves legally keeps what the keys say of it. -/
theorem moveOrder (h : KeysOk b) {st : OrderStatus} (ho : b.orders.get? oid = some o)
    (ht : canTransition o.status st = true) : KeysOk (b.setOrder oid o') :=
  h.setOrder fun _ hkey => h.not_settled ho ht hkey

/-- A write of an invoice that is not paid, or pays it. -/
theorem setInvoice (h : KeysOk b) (hnot : .escrow iid ∉ ledgerKeys b.transactions) :
    KeysOk (b.setInvoice iid i') where
  funded j hj := by
    obtain ⟨x, hx, hpaid⟩ := h.funded j hj
    have hne : j ≠ iid := by
      rintro rfl
      exact hnot hj
    exact ⟨x, by simp [Books.setInvoice, hne, hx], hpaid⟩
  settled := h.settled

/-- A payment funds the escrow, and the invoice is paid. -/
theorem settle {c wid : Id} {x : Option Id} {n k : ℤ} {held : Bool} (h : KeysOk b)
    (hf : b.Funded c wid iid i.orderId x n k held b₁) (hi : b.invoices.get? iid = some i)
    (hne : i.status ≠ .paid) (ho : b.orders.get? i.orderId = some o)
    (ht : canTransition o.status .inProgress = true) (hi' : i'.status = .paid) :
    KeysOk ((b₁.setOrder i.orderId o').setInvoice iid i') := by
  rcases hf with ⟨hkey, -⟩ | ⟨g, e, b₂, -, -, -, -, hp, hheld⟩
  · -- A replay is excluded: the invoice is not paid, so its key is not there.
    exact absurd hkey (h.not_funded hi hne)
  have hsame := hp.same
  have hposted : KeysOk ((b₂.setOrder i.orderId o').setInvoice iid i') := by
    refine ⟨fun j hj => ?_, fun l key hkey hmem => ?_⟩
    · by_cases hji : j = iid
      · exact ⟨i', by simp [Books.setInvoice, hji], hi'⟩
      · have hj := (hp.keys _).mp hj
        rw [legKeys_fundingLegs, List.mem_singleton, IdempotencyKey.escrow.injEq] at hj
        obtain ⟨y, hy, hpaid⟩ := h.funded j (hj.resolve_right hji)
        refine ⟨y, ?_, hpaid⟩
        simp [Books.setInvoice, Books.setOrder, hji, hsame.invoices, hy]
    · have hnot : key ∉ legKeys (fundingLegs wid g e iid i.orderId x (n + k) n k) := by
        rw [legKeys_fundingLegs]
        revert hkey
        simp only [Books.payoutKeys, List.mem_cons, List.not_mem_nil, or_false]
        rintro (rfl | rfl | rfl) <;> simp
      have hmem := ((hp.keys key).mp hmem).resolve_right hnot
      obtain ⟨y, hy, hdone⟩ := h.settled l key hkey hmem
      have hl : l ≠ i.orderId := by
        rintro rfl
        exact h.not_settled ho ht hkey hmem
      refine ⟨y, ?_, hdone⟩
      simp [Books.setInvoice, Books.setOrder, hl, hsame.orders, hy]
  -- Releasing a hold, if there was one, books nothing.
  rcases hheld with ⟨-, rfl⟩ | ⟨-, -, v, -, rfl⟩
  · exact hposted
  · exact hposted.congr rfl rfl rfl

/-- A payout settles the order. -/
theorem payOut {s : Settings} {c : Id} {st : OrderStatus} (h : KeysOk b)
    (ho : b.orders.get? oid = some o) (ht : canTransition o.status st = true)
    (hpay : b.PaidOut s c oid iid i st b₁) (ho' : o'.status = st) : KeysOk (b₁.setOrder oid o') := by
  rcases hpay with ⟨⟨key, hkey, hmem⟩, -⟩ | ⟨legs, hpay, hp⟩
  · -- A replay is excluded, since the order was open.
    exact absurd hmem (h.not_settled ho ht hkey)
  obtain ⟨⟨key, hkey, hkeys⟩, hfinal⟩ := hpay.key
  have hsame := hp.same
  refine ⟨fun j hj => ?_, fun k key' hkey' hmem => ?_⟩
  · have hnot : .escrow j ∉ legKeys legs := by
      rw [hkeys, List.mem_singleton]
      rintro rfl
      simp [Books.payoutKeys] at hkey
    obtain ⟨y, hy, hpaid⟩ := h.funded j (((hp.keys _).mp hj).resolve_right hnot)
    exact ⟨y, by simp [Books.setOrder, hsame.invoices, hy], hpaid⟩
  · -- The new key is this order's, which is closed now.
    by_cases hk : k = oid
    · exact ⟨o', by simp [Books.setOrder, hk], ho' ▸ hfinal⟩
    · have hnot : key' ∉ legKeys legs := by
        rw [hkeys, List.mem_singleton]
        rintro rfl
        revert hkey hkey'
        simp only [Books.payoutKeys, List.mem_cons, List.not_mem_nil, or_false]
        rintro (rfl | rfl | rfl) <;> simp [hk]
      obtain ⟨y, hy, hdone⟩ := h.settled k key' hkey' (((hp.keys _).mp hmem).resolve_right hnot)
      exact ⟨y, by simp [Books.setOrder, hk, hsame.orders, hy], hdone⟩

/-- A top-up has a key of its own. -/
theorem credit {c wid jid : Id} {n : ℤ} (h : KeysOk b) (hb : b.Credited c wid jid n b') :
    KeysOk b' := by
  rcases hb with ⟨-, rfl⟩ | ⟨g, -, hp⟩
  · exact h
  have hsame := hp.same
  refine ⟨fun j hj => ?_, fun k key hkey hmem => ?_⟩
  · obtain ⟨y, hy, hpaid⟩ := h.funded j (((hp.keys _).mp hj).resolve_right (by simp))
    exact ⟨y, hsame.invoices ▸ hy, hpaid⟩
  · have hnot : key ∉ legKeys (topupLegs wid g jid n (-n)) := by
      revert hkey
      simp only [Books.payoutKeys, List.mem_cons, List.not_mem_nil, or_false, legKeys_topupLegs]
      rintro (rfl | rfl | rfl) <;> simp
    obtain ⟨y, hy, hdone⟩ := h.settled k key hkey (((hp.keys _).mp hmem).resolve_right hnot)
    exact ⟨y, hsame.orders ▸ hy, hdone⟩

/-- The keys after every effect. -/
theorem step {s : Settings} {r : Request} (h : KeysOk b) (heff : Effect s b r b') : KeysOk b' := by
  cases heff with
  | idle => exact h
  -- A new order has no payout: its id was free.
  | @createOrder now confirm oid u x o hfree =>
    refine h.setOrder fun key hkey hmem => ?_
    obtain ⟨o₁, ho₁, -⟩ := h.settled oid key hkey hmem
    rw [hfree] at ho₁
    cases ho₁
  | @acceptOrder now g cid oid k o o' u ho hst =>
    have ht : canTransition o.status .assigned = true := by
      rw [hst]
      rfl
    exact h.moveOrder ho ht
  | cancelOrder ho ht => exact h.moveOrder ho ht
  | @createInvoice now ids oid k x o o' i promo b₁ ho ht hfree hsole hi hcheck hpromo =>
    have h₁ : KeysOk b₁ ∧ b₁.orders = b.orders ∧ b₁.transactions = b.transactions := by
      cases hpromo <;> exact ⟨h.congr rfl rfl rfl, rfl, rfl⟩
    have h₂ : KeysOk (b₁.setInvoice ids.invoiceId i) := by
      refine h₁.1.setInvoice fun hmem => ?_
      obtain ⟨y, hy, -⟩ := h.funded ids.invoiceId (h₁.2.2 ▸ hmem)
      rw [hfree] at hy
      cases hy
    have ho₁ : b₁.orders.get? oid = some o := h₁.2.1 ▸ ho
    exact h₂.moveOrder ho₁ ht
  -- An issued invoice is not funded, so its status may change.
  | @cancelInvoice now iid k i o hi hst ho ht =>
    have h₁ : KeysOk (b.released now iid) := h.congr rfl rfl rfl
    exact (h₁.moveOrder ho ht).setInvoice (h.not_funded hi (by rw [hst]; decide))
  | @expireInvoice now iid i hi hst =>
    obtain ⟨horders, hinvoices, htransactions, -⟩ := b.tables_expiredIntent iid i
    have h₁ : KeysOk ((b.expiredIntent iid i).released now iid) :=
      h.congr htransactions horders hinvoices
    have h₂ : KeysOk (((b.expiredIntent iid i).released now iid).setInvoice iid
        { i with status := .expired }) := by
      refine h₁.setInvoice fun hmem => h.not_funded hi (by rw [hst]; decide) ?_
      rwa [← htransactions]
    rcases Books.reopened_cases (((b.expiredIntent iid i).released now iid).setInvoice iid
      { i with status := .expired }) i.orderId with ⟨heq, -⟩ | ⟨o, ho, hwait, heq⟩ <;> rw [heq]
    · exact h₂
    · have ht : canTransition o.status .assigned = true := by
        rw [hwait]
        rfl
      exact h₂.moveOrder ho ht
  | createTopup => exact h.congr rfl rfl rfl
  | @payWallet now x iid u i o wid w b₁ hi hst ho hwait hu hw hle hf =>
    have ht : canTransition o.status .inProgress = true := by
      rw [hwait]
      rfl
    have h₁ : KeysOk ((b₁.setOrder i.orderId { o with status := .inProgress }).setInvoice iid
        (Books.paidInvoice now i .walletOnly i.totalAmount 0)) :=
      h.settle hf hi (by rw [hst]; decide) ho ht rfl
    exact h₁.congr rfl rfl rfl
  | @payGateway now x iid u i i' o wid w p n b₁ hi hst ho hwait hu hw hn hlt hopen hfree hp hb₁ =>
    have h₁ : KeysOk b₁ ∧ b₁.transactions = b.transactions := by
      rw [hb₁]
      split_ifs <;> exact ⟨h.congr rfl rfl rfl, rfl⟩
    have h₂ : KeysOk (b₁.setInvoice iid i') := by
      refine h₁.1.setInvoice fun hmem => ?_
      exact h.not_funded hi (by rw [hst]; decide) (h₁.2 ▸ hmem)
    exact h₂.congr rfl rfl rfl
  | webhookFailed => exact h.congr rfl rfl rfl
  | webhookTopup hp hnew hlink hev hpurpose hw hb => exact (h.credit hb).congr rfl rfl rfl
  | webhookPaid => exact h.congr rfl rfl rfl
  | @webhookSettle now v g c e jid p iid i o wid w b₁ hp hnew hlink hev hpurpose href hi hst ho ht hw
      hf hsole method =>
    have h₁ : KeysOk ((b₁.setOrder i.orderId { o with status := .inProgress }).setInvoice iid
        (Books.paidInvoice now i method i.amountFromWallet p.amount)) :=
      h.settle hf hi hst ho ht rfl
    exact h₁.congr rfl rfl rfl
  | expireTopup => exact h.congr rfl rfl rfl
  | submitDelivery ho ht => exact h.moveOrder ho ht
  | raiseDispute ho ht => exact (h.moveOrder ho ht).congr rfl rfl rfl
  -- The payout adds the key of the order that it closes.
  | settle hr ho ht hi hio hst hpay ho' =>
    exact (h.payOut ho ht hpay ho'.1).congr rfl rfl rfl

end KeysOk

/-- An opening database has no keys. -/
theorem Opening.keysOk {d : Db} (h : Opening d) : KeysOk d.books := by
  have ht : d.books.transactions = [] := h.transactions
  exact ⟨by simp [ht, ledgerKeys], by simp [ht, ledgerKeys]⟩

end Giftly
