import Giftly.Serial.Deals

/-!
# Promo slots over serial runs

A redemption is `RESERVED` while its invoice is issued and its order awaits the payment, `CONSUMED`
once the invoice is paid, and `RELEASED` when the invoice was cancelled or lapsed; the counter of a
promo is the number of its redemptions that are not `RELEASED`. Two requests end the deal of an
invoice and do not look at its redemption: `cancel_order` before the payment, and the resolution of a
dispute for the customer.
-/

namespace Giftly

open Store OrderState

namespace Books

/-- Where a redemption is in the life of its invoice and its order. -/
def Follows (b : Books) (r : PromoRedemption) : Prop :=
  ∃ i o, b.invoices.get? r.invoiceId = some i ∧ i.orderId = r.orderId ∧
    b.orders.get? r.orderId = some o ∧
    match r.status with
    | .reserved => i.status = .issued ∧ o.status = .waitingPayment
    | .consumed => i.status = .paid ∧ o.status ≠ .refunded
    | .released => i.status = .cancelled ∨ i.status = .expired

/-- An order has a redemption with a status. -/
def HasRedemption (b : Books) (oid : Id) (st : PromoRedemptionStatus) : Prop :=
  ∃ rid r, b.redemptions.get? rid = some r ∧ r.orderId = oid ∧ r.status = st

end Books

/-- What holds of the redemptions and the counters of the promos. -/
structure SlotsOk (b : Books) : Prop where
  /-- Redemptions follow their invoices. -/
  follows : ∀ rid r, b.redemptions.get? rid = some r → b.Follows r
  /-- An invoice has one redemption at most. -/
  sole : ∀ rid rid' r r', b.redemptions.get? rid = some r → b.redemptions.get? rid' = some r' →
    r.invoiceId = r'.invoiceId → rid = rid'
  /-- A redemption is of a promo. -/
  promo : ∀ rid r, b.redemptions.get? rid = some r → ∃ p, b.promos.get? r.promoId = some p
  /-- The counter of a promo is the number of slots taken. -/
  used : ∀ pid p, b.promos.get? pid = some p →
    p.usedCount = (b.redemptions.count fun _ r => r.takes pid : ℕ)

namespace SlotsOk

variable {b b' : Books} {oid iid rid : Id} {o o' : Order} {i i' : Invoice}
  {r : PromoRedemption} {st : PromoRedemptionStatus} {now : Time}

/-- Tables that the invariant does not read. -/
theorem congr (h : SlotsOk b) (ho : b'.orders = b.orders) (hi : b'.invoices = b.invoices)
    (hp : b'.promos = b.promos) (hr : b'.redemptions = b.redemptions) : SlotsOk b' := by
  obtain ⟨users, wallets, transactions, orders, invoices, intents, disputes, promos,
    redemptions⟩ := b'
  dsimp only at ho hi hp hr
  subst ho hi hp hr
  exact ⟨h.follows, h.sole, h.promo, h.used⟩

/-- A write of an order, when its reservations and its refund allow it. -/
theorem setOrder (h : SlotsOk b)
    (hres : b.HasRedemption oid .reserved → o'.status = .waitingPayment)
    (hcons : b.HasRedemption oid .consumed → o'.status ≠ .refunded) :
    SlotsOk (b.setOrder oid o') where
  follows rid r hr := by
    obtain ⟨i, o, hi, hio, ho, hst⟩ := h.follows rid r hr
    by_cases hk : r.orderId = oid
    · refine ⟨i, o', hi, hio, by simp [Books.setOrder, hk], ?_⟩
      revert hst
      cases hs : r.status with
      | reserved => exact fun hst => ⟨hst.1, hres ⟨rid, r, hr, hk, hs⟩⟩
      | consumed => exact fun hst => ⟨hst.1, hcons ⟨rid, r, hr, hk, hs⟩⟩
      | released => exact fun hst => hst
    · exact ⟨i, o, hi, hio, by simp [Books.setOrder, hk, ho], hst⟩
  sole := h.sole
  promo := h.promo
  used := h.used

/-- A redemption that is `RESERVED` is of an order that awaits payment. -/
theorem not_reserved (h : SlotsOk b) (ho : b.orders.get? oid = some o)
    (hne : o.status ≠ .waitingPayment) : ¬b.HasRedemption oid .reserved := by
  rintro ⟨rid, r, hr, hro, hst⟩
  obtain ⟨i, o₁, -, -, ho₁, hf⟩ := h.follows rid r hr
  rw [hst] at hf
  obtain rfl : o = o₁ := Option.some.inj (ho.symm.trans (hro ▸ ho₁))
  exact hne hf.2

/-- An order that does not await payment moves on, and is not refunded. -/
theorem moveOrder (h : SlotsOk b) (ho : b.orders.get? oid = some o)
    (hne : o.status ≠ .waitingPayment) (ho' : o'.status ≠ .refunded) :
    SlotsOk (b.setOrder oid o') :=
  h.setOrder (fun hr => absurd hr (h.not_reserved ho hne)) fun _ => ho'

/-- A write of an invoice that keeps its order and its status, or is the first. -/
theorem setInvoice (h : SlotsOk b)
    (hkeep : ∀ i, b.invoices.get? iid = some i → i'.orderId = i.orderId ∧ i'.status = i.status) :
    SlotsOk (b.setInvoice iid i') where
  follows rid r hr := by
    obtain ⟨i, o, hi, hio, ho, hst⟩ := h.follows rid r hr
    by_cases hk : r.invoiceId = iid
    · obtain ⟨horder, hstatus⟩ := hkeep i (hk ▸ hi)
      refine ⟨i', o, by simp [Books.setInvoice, hk], horder.trans hio, ho, ?_⟩
      rw [hstatus]
      exact hst
    · exact ⟨i, o, by simp [Books.setInvoice, hk, hi], hio, ho, hst⟩
  sole := h.sole
  promo := h.promo
  used := h.used

/-- A new reservation, for an invoice that has none. -/
theorem reserve {pid : Id} {p : Promo} (h : SlotsOk b) (hp : b.promos.get? pid = some p)
    (hfree : b.redemptions.get? rid = none) (hr : r.promoId = pid ∧ r.status = .reserved)
    (hnone : ∀ k x, b.redemptions.get? k = some x → x.invoiceId ≠ r.invoiceId)
    (hf : b.Follows r) : SlotsOk ((b.setPromo pid (p.counted 1)).setRedemption rid r) where
  follows k x hx := by
    simp only [Books.setRedemption, Books.setPromo, Table.get?_set] at hx
    split_ifs at hx
    · obtain rfl := Option.some.inj hx
      exact hf
    · exact h.follows k x hx
  sole k l x y hx hy hxy := by
    simp only [Books.setRedemption, Books.setPromo, Table.get?_set] at hx hy
    split_ifs at hx hy with hk hl hl
    · rw [hk, hl]
    · obtain rfl := Option.some.inj hx
      exact absurd hxy.symm (hnone l y hy)
    · obtain rfl := Option.some.inj hy
      exact absurd hxy (hnone k x hx)
    · exact h.sole k l x y hx hy hxy
  promo k x hx := by
    simp only [Books.setRedemption, Books.setPromo, Table.get?_set] at hx ⊢
    split_ifs at hx
    · obtain rfl := Option.some.inj hx
      rw [if_pos hr.1]
      exact ⟨_, rfl⟩
    · obtain ⟨q, hq⟩ := h.promo k x hx
      split_ifs
      · exact ⟨_, rfl⟩
      · exact ⟨q, hq⟩
  -- The counter and the number of redemptions grow together, for this promo only.
  used k q hq := by
    have hcount := Table.count_set b.redemptions (fun _ x => x.takes k) rid r
    rw [hfree] at hcount
    simp only [Books.setRedemption, Books.setPromo, Table.get?_set] at hq ⊢
    rw [hcount]
    split_ifs at hq with hk
    · subst hk
      obtain rfl := Option.some.inj hq
      have htakes : r.takes k = true := by simp [PromoRedemption.takes, hr.1, hr.2]
      simp [Promo.counted, htakes, h.used k p hp]
    · have htakes : r.takes k = false := by
        simp [PromoRedemption.takes, hr.1, Ne.symm hk]
      simp [htakes, h.used k q hq]

/-! ## The end of an issued invoice -/

/-- The redemption of an issued invoice is `RESERVED`. -/
theorem reserved_of_issued (h : SlotsOk b) (hi : b.invoices.get? iid = some i)
    (hst : i.status = .issued) (hr : b.redemptions.get? rid = some r) (hri : r.invoiceId = iid) :
    r.status = .reserved := by
  obtain ⟨j, o, hj, -, -, hf⟩ := h.follows rid r hr
  obtain rfl : i = j := Option.some.inj (hi.symm.trans (hri ▸ hj))
  revert hf
  rw [hst]
  cases r.status <;> simp

/-- It is what `consume` and `release` find. -/
theorem reservationOf_of_issued (h : SlotsOk b) (hi : b.invoices.get? iid = some i)
    (hst : i.status = .issued) (hr : b.redemptions.get? rid = some r) (hri : r.invoiceId = iid) :
    b.reservationOf iid = some (rid, r) := by
  have hfound : ∃ y, (b.redemptions.find? fun _ r => r.invoiceId = iid) = some y :=
    Table.find?_isSome hr (by simpa using hri)
  obtain ⟨⟨k, x⟩, hf⟩ := hfound
  obtain ⟨hx, hxi⟩ := Table.find?_eq_some hf
  rw [decide_eq_true_eq] at hxi
  have hk : k = rid := h.sole k rid x r hx hr (hxi.trans hri.symm)
  subst hk
  obtain rfl : x = r := Option.some.inj (hx.symm.trans hr)
  unfold Books.reservationOf
  rw [hf]
  simp [h.reserved_of_issued hi hst hx hri]

/-- The redemptions after that of an issued invoice got a status: it, or one of another invoice. -/
theorem get?_marked (h : SlotsOk b) (hi : b.invoices.get? iid = some i) (hst : i.status = .issued)
    (hr : (b.marked iid st now).get? rid = some r) :
    (r.invoiceId ≠ iid ∧ b.redemptions.get? rid = some r) ∨
    ∃ r₀, b.redemptions.get? rid = some r₀ ∧ r₀.invoiceId = iid ∧ r = r₀.marked st now := by
  unfold Books.marked at hr
  split at hr
  · rename_i hnone
    refine .inl ⟨fun hri => ?_, hr⟩
    rw [h.reservationOf_of_issued hi hst hr hri] at hnone
    cases hnone
  · rename_i k r₀ hsome
    obtain ⟨hr₀, hri₀, -⟩ := Books.of_reservationOf hsome
    rw [Table.get?_set] at hr
    split_ifs at hr with hk
    · obtain rfl := Option.some.inj hr
      exact .inr ⟨r₀, hk ▸ hr₀, hri₀, rfl⟩
    · refine .inl ⟨fun hri => hk ?_, hr⟩
      exact h.sole rid k r r₀ hr hr₀ (hri.trans hri₀.symm)

/-- What the end of an issued invoice does to the redemptions. -/
structure Ended (iid : Id) (i i' : Invoice) (o' : Order) (st : PromoRedemptionStatus) (now : Time)
    (b b' : Books) : Prop where
  invoices : b'.invoices = b.invoices.set iid i'
  orderId : i'.orderId = i.orderId
  other : ∀ k, k ≠ i.orderId → b'.orders.get? k = b.orders.get? k
  order : b'.orders.get? i.orderId = some o'
  redemptions : b'.redemptions = b.marked iid st now
  status : (st = .consumed ∧ i'.status = .paid ∧ o'.status ≠ .refunded) ∨
    (st = .released ∧ (i'.status = .cancelled ∨ i'.status = .expired))

/-- A settlement ends the invoice. -/
theorem ended_settled {method : PaymentMethod} {n k : ℤ} :
    Ended iid i (Books.paidInvoice now i method n k) { o with status := .inProgress } .consumed now b
      (b.settled now iid i o method n k) := by
  refine ⟨rfl, rfl, fun k hk => ?_, ?_, rfl, .inl ⟨rfl, rfl, by simp⟩⟩
  · simp [Books.settled, Books.consumed, Books.setInvoice, Books.setOrder, hk]
  · simp [Books.settled, Books.consumed, Books.setInvoice, Books.setOrder]

/-- The redemptions follow their invoices over the end of one. -/
theorem Ended.follows (he : Ended iid i i' o' st now b b') (h : SlotsOk b) (hd : DealsOk b)
    (hi : b.invoices.get? iid = some i) (hst : i.status = .issued)
    (hr : b'.redemptions.get? rid = some r) : b'.Follows r := by
  rw [he.redemptions] at hr
  rcases h.get?_marked hi hst hr with ⟨hri, hr₀⟩ | ⟨r₀, hr₀, hri, rfl⟩
  · obtain ⟨j, o, hj, hjo, ho, hf⟩ := h.follows rid r hr₀
    have hj' : b'.invoices.get? r.invoiceId = some j := by
      rw [he.invoices, Table.get?_set, if_neg hri]
      exact hj
    by_cases hk : r.orderId = i.orderId
    · -- Another invoice of the order is over.
      refine ⟨j, o', hj', hjo, hk ▸ he.order, ?_⟩
      have hover : j.status.active = false :=
        hd.sole_of_active hi (by rw [hst]; rfl) r.invoiceId j hj hri (hjo.trans hk)
      revert hf
      cases r.status with
      | reserved =>
        intro hf
        rw [hf.1] at hover
        cases hover
      | consumed =>
        intro hf
        rw [hf.1] at hover
        cases hover
      | released => exact fun hf => hf
    · exact ⟨j, o, hj', hjo, by rw [he.other _ hk]; exact ho, hf⟩
  · obtain ⟨j, o, hj, hjo, ho, -⟩ := h.follows rid r₀ hr₀
    obtain rfl : i = j := Option.some.inj (hi.symm.trans (hri ▸ hj))
    refine ⟨i', o', ?_, he.orderId.trans hjo, ?_, ?_⟩
    · rw [he.invoices, Table.get?_set]
      exact if_pos hri
    · rw [← he.order, hjo]
      rfl
    · rcases he.status with ⟨rfl, hpaid⟩ | ⟨rfl, hover⟩
      · exact hpaid
      · exact hover

/-- The redemptions have the invoices and the promos that they had. -/
theorem exists_of_marked (h : SlotsOk b) (hi : b.invoices.get? iid = some i)
    (hst : i.status = .issued) (hr : (b.marked iid st now).get? rid = some r) :
    ∃ r₀, b.redemptions.get? rid = some r₀ ∧ r₀.invoiceId = r.invoiceId ∧
      r₀.promoId = r.promoId := by
  rcases h.get?_marked hi hst hr with ⟨-, hr₀⟩ | ⟨r₀, hr₀, -, rfl⟩
  · exact ⟨r, hr₀, rfl, rfl⟩
  · exact ⟨r₀, hr₀, rfl, rfl⟩

/-- No invoice has two redemptions after the end of one. -/
theorem Ended.sole (he : Ended iid i i' o' st now b b') (h : SlotsOk b)
    (hi : b.invoices.get? iid = some i) (hst : i.status = .issued) {k l : Id}
    {x y : PromoRedemption} (hx : b'.redemptions.get? k = some x)
    (hy : b'.redemptions.get? l = some y) (hxy : x.invoiceId = y.invoiceId) : k = l := by
  rw [he.redemptions] at hx hy
  obtain ⟨x₀, hx₀, hxi, -⟩ := h.exists_of_marked hi hst hx
  obtain ⟨y₀, hy₀, hyi, -⟩ := h.exists_of_marked hi hst hy
  exact h.sole k l x₀ y₀ hx₀ hy₀ (hxi.trans (hxy.trans hyi.symm))

omit b' o o' i i' rid r in
/-- The number of slots taken, after the reservation of an invoice got a status. -/
theorem count_marked (pid : Id) :
    ((b.marked iid st now).count (fun _ r => r.takes pid) : ℤ) =
      (b.redemptions.count fun _ r => r.takes pid : ℕ) -
        if st = .released ∧ (b.reservationOf iid).any (fun x => x.2.promoId = pid) = true then 1
        else 0 := by
  unfold Books.marked
  split
  · rename_i hnone
    simp [hnone]
  · rename_i k r hsome
    obtain ⟨hr, -, hreserved⟩ := Books.of_reservationOf hsome
    rw [Table.count_set, hr, hsome]
    simp only [PromoRedemption.takes, PromoRedemption.marked, Option.any_some, hreserved]
    by_cases hpid : r.promoId = pid <;> by_cases hst : st = .released <;> simp [hpid, hst]

/-- The slot of a reservation returns to its promo. -/
theorem returned_of_some (h : SlotsOk b) (hres : b.reservationOf iid = some (rid, r)) :
    ∃ p, b.promos.get? r.promoId = some p ∧
      b.returned iid = b.promos.set r.promoId (p.counted (-1)) := by
  obtain ⟨hr, -, hreserved⟩ := Books.of_reservationOf hres
  obtain ⟨p, hp⟩ := h.promo rid r hr
  have hpos : 0 < p.usedCount := by
    have htakes : r.takes r.promoId = true := by simp [PromoRedemption.takes, hreserved]
    have hcount : 0 < b.redemptions.count fun _ x => x.takes r.promoId := Table.count_pos hr htakes
    rw [h.used r.promoId p hp]
    exact_mod_cast hcount
  refine ⟨p, hp, ?_⟩
  simp [Books.returned, hres, hp, Option.filter, hpos]

/-- An issued invoice is paid. -/
theorem consume (h : SlotsOk b) (hd : DealsOk b) (hi : b.invoices.get? iid = some i)
    (hst : i.status = .issued) (he : Ended iid i i' o' .consumed now b b')
    (hp : b'.promos = b.promos) : SlotsOk b' where
  follows _ _ hr := he.follows h hd hi hst hr
  sole _ _ _ _ hx hy hxy := he.sole h hi hst hx hy hxy
  promo k x hx := by
    rw [he.redemptions] at hx
    obtain ⟨x₀, hx₀, -, hpid⟩ := h.exists_of_marked hi hst hx
    rw [hp, ← hpid]
    exact h.promo k x₀ hx₀
  used pid p hget := by
    rw [hp] at hget
    rw [he.redemptions, count_marked, h.used pid p hget]
    simp

/-- An issued invoice is cancelled or lapses. -/
theorem release (h : SlotsOk b) (hd : DealsOk b) (hi : b.invoices.get? iid = some i)
    (hst : i.status = .issued) (he : Ended iid i i' o' .released now b b')
    (hp : b'.promos = b.returned iid) : SlotsOk b' where
  follows _ _ hr := he.follows h hd hi hst hr
  sole _ _ _ _ hx hy hxy := he.sole h hi hst hx hy hxy
  promo k x hx := by
    rw [he.redemptions] at hx
    obtain ⟨x₀, hx₀, -, hpid⟩ := h.exists_of_marked hi hst hx
    obtain ⟨q, hq⟩ := h.promo k x₀ hx₀
    rw [hp, ← hpid]
    cases hres : b.reservationOf iid with
    | none =>
      simp only [Books.returned, hres]
      exact ⟨q, hq⟩
    | some y =>
      obtain ⟨p, -, hreturned⟩ := h.returned_of_some hres
      rw [hreturned, Table.get?_set]
      split_ifs
      · exact ⟨_, rfl⟩
      · exact ⟨q, hq⟩
  used pid p hget := by
    rw [hp] at hget
    rw [he.redemptions, count_marked]
    cases hres : b.reservationOf iid with
    | none =>
      simp only [Books.returned, hres] at hget
      simp [h.used pid p hget]
    | some y =>
      obtain ⟨q, hq, hreturned⟩ := h.returned_of_some hres
      rw [hreturned, Table.get?_set] at hget
      split_ifs at hget with hpid
      · obtain rfl := Option.some.inj hget
        subst hpid
        simp [Promo.counted, h.used _ q hq]
        rfl
      · simp [h.used pid p hget, Ne.symm hpid]

end SlotsOk

/-! ## Effects -/

/-- Where a request does not end the deal of an invoice whose redemption it forgets: an order with a
reservation is not cancelled, and a dispute over an order with a used redemption is not resolved for
the customer. -/
def Request.keepsSlots : Request → Db → Prop
  | .cancelOrder _ orderId actorId _, d => ∀ o, d.orders.get? orderId = some o →
      (o.customerId = actorId ∨ o.courierId = some actorId) →
      ¬d.books.HasRedemption orderId .reserved
  | .resolveDispute _ _ disputeId _ outcome _ _, d => outcome = .resolvedCustomer →
      ∀ x, d.disputes.get? disputeId = some x → x.status = .open →
      ¬d.books.HasRedemption x.orderId .consumed
  | r, _ => r.trades = true

/-- A request that keeps the slots is one of the deals. -/
theorem Request.trades_of_keepsSlots {r : Request} {d : Db} (h : r.keepsSlots d) :
    r.trades = true := by
  cases r <;> first | rfl | exact h

/-- A settlement refunds an order only by a resolution for the customer. -/
theorem Request.keepsSlots.not_consumed {r : Request} {d : Db} {oid : Id} {st : OrderStatus}
    (h : r.keepsSlots d) (hr : r.Settles d.books oid st) (hst : st = .refunded) :
    ¬d.books.HasRedemption oid .consumed := by
  cases hr with
  | approve => cases hst
  | auto => cases hst
  | resolve hx hopen hiff => exact h (hiff.mp hst) _ hx hopen

namespace SlotsOk

variable {d : Db} {b' : Books} {s : Settings} {r : Request}

/-- The redemptions follow their invoices after every effect of a request that meets the
condition. -/
theorem step (h : SlotsOk d.books) (hd : DealsOk d.books) (hr : r.keepsSlots d)
    (heff : Effect s d.books r b') : SlotsOk b' := by
  cases heff with
  | idle => exact h
  | @createOrder now confirm oid u x o hfree hst =>
    -- The order of a redemption is stored, so the new order has none.
    have hnone : ∀ st, ¬d.books.HasRedemption oid st := by
      rintro st ⟨rid, r, hr, hro, -⟩
      obtain ⟨i, o₁, -, -, ho₁, -⟩ := h.follows rid r hr
      rw [hro, hfree] at ho₁
      cases ho₁
    exact h.setOrder (fun hres => absurd hres (hnone _)) fun hcons => absurd hcons (hnone _)
  | acceptOrder ho hst hu hrole ho' =>
    exact h.moveOrder ho (by rw [hst]; decide) (by rw [ho']; simp)
  | cancelOrder ho ht ho' hu =>
    exact h.setOrder (fun hres => absurd hres (hr _ ho hu)) fun _ => by rw [ho']; simp
  | @createInvoice now ids oid k x o o' i promo b₁ ho ht hfree hsole hi hcheck hpromo ho' =>
    -- An order does not move from waiting to waiting.
    have hassigned : o.status ≠ .waitingPayment := by
      intro hwait
      rw [hwait] at ht
      cases ht
    have h₁ : SlotsOk (d.books.setOrder oid o') := h.moveOrder ho hassigned (by rw [ho']; simp)
    have h₂ : SlotsOk ((d.books.setOrder oid o').setInvoice ids.invoiceId i) :=
      h₁.setInvoice fun y hy => by
        have hy : d.books.invoices.get? ids.invoiceId = some y := hy
        rw [hfree] at hy
        cases hy
    cases hpromo with
    | none => exact h₂.congr rfl rfl rfl rfl
    | @some pid p p₀ rr hp hfreer hrr =>
      -- The invoice of a redemption is stored, so the new invoice has none.
      have hnone : ∀ k x, d.books.redemptions.get? k = some x → x.invoiceId ≠ rr.invoiceId := by
        intro k x hx hxi
        obtain ⟨y, -, hy, -⟩ := h.follows k x hx
        rw [hxi, hrr.2.2.1, hfree] at hy
        cases hy
      have hf : ((d.books.setOrder oid o').setInvoice ids.invoiceId i).Follows rr := by
        refine ⟨i, o', by simp [Books.setInvoice, hrr.2.2.1], hi.1.trans hrr.2.2.2.1.symm,
          by simp [Books.setInvoice, Books.setOrder, hrr.2.2.2.1], ?_⟩
        rw [hrr.2.2.2.2]
        exact ⟨hi.2.1, by rw [ho']⟩
      have h₃ := h₂.reserve hp hfreer ⟨hrr.1, hrr.2.2.2.2⟩ hnone hf
      exact h₃.congr rfl rfl rfl rfl
  | @cancelInvoice now iid k i o hi hst ho ht =>
    have hended : Ended iid i { i with status := .cancelled }
        { o with status := .assigned, totalAmount := 0 } .released now d.books
        (((d.books.released now iid).setOrder i.orderId
          { o with status := .assigned, totalAmount := 0 }).setInvoice iid
          { i with status := .cancelled }) := by
      refine ⟨rfl, rfl, fun k hk => ?_, ?_, rfl, .inr ⟨rfl, .inl rfl⟩⟩
      · simp [Books.setInvoice, Books.setOrder, Books.released, hk]
      · simp [Books.setInvoice, Books.setOrder]
    exact h.release hd hi hst hended rfl
  | @expireInvoice now iid i hi hst =>
    obtain ⟨horders, hinvoices, -, hpromos, hredemptions⟩ := d.books.tables_expiredIntent iid i
    have h₁ : SlotsOk (d.books.expiredIntent iid i) := h.congr horders hinvoices hpromos hredemptions
    have hd₁ : DealsOk (d.books.expiredIntent iid i) := hd.expiredIntent
    have hi₁ : (d.books.expiredIntent iid i).invoices.get? iid = some i := hinvoices ▸ hi
    obtain ⟨o, ho⟩ := hd₁.order iid i hi₁
    -- The order stays as it is, or goes back to assigned.
    rcases Books.reopened_cases ((((d.books.expiredIntent iid i).released now iid).setInvoice iid
      { i with status := .expired })) i.orderId with ⟨heq, -⟩ | ⟨o₁, -, -, heq⟩ <;> rw [heq]
    · have hended : Ended iid i { i with status := .expired } o .released now
          (d.books.expiredIntent iid i) (((d.books.expiredIntent iid i).released now iid).setInvoice
            iid { i with status := .expired }) :=
        ⟨rfl, rfl, fun _ _ => rfl, ho, rfl, .inr ⟨rfl, .inr rfl⟩⟩
      exact h₁.release hd₁ hi₁ hst hended rfl
    · have hended : Ended iid i { i with status := .expired }
          { o₁ with status := .assigned, totalAmount := 0 } .released now
          (d.books.expiredIntent iid i) ((((d.books.expiredIntent iid i).released now iid).setInvoice
            iid { i with status := .expired }).setOrder i.orderId
            { o₁ with status := .assigned, totalAmount := 0 }) := by
        refine ⟨rfl, rfl, fun k hk => ?_, ?_, rfl, .inr ⟨rfl, .inr rfl⟩⟩
        · simp [Books.setInvoice, Books.setOrder, Books.released, hk]
        · simp [Books.setOrder]
      exact h₁.release hd₁ hi₁ hst hended rfl
  | createTopup => exact h.congr rfl rfl rfl rfl
  | @payWallet now x iid u i o wid w b₁ hi hst ho hwait hu hw hle hf hsole hcheck =>
    have hsame := hf.same
    have h₁ : SlotsOk b₁ := h.congr hsame.orders hsame.invoices hsame.promos hsame.redemptions
    have hd₁ : DealsOk b₁ := hd.congr hsame.orders hsame.invoices hsame.intents
    exact h₁.consume hd₁ (hsame.invoices ▸ hi) hst ended_settled rfl
  | @payGateway now x iid u i i' o wid w p n b₁ hi hst ho hwait hu hw hn hlt hopen hfree hp hb₁ hi' =>
    have h₁ : SlotsOk b₁ ∧ b₁.invoices = d.books.invoices := by
      rw [hb₁]
      split_ifs
      · exact ⟨h.congr rfl rfl rfl rfl, rfl⟩
      · exact ⟨h, rfl⟩
    obtain ⟨method, hi'⟩ := hi'
    have h₂ : SlotsOk (b₁.setInvoice iid i') := by
      refine h₁.1.setInvoice fun y hy => ?_
      obtain rfl : i = y := Option.some.inj (hi.symm.trans (h₁.2 ▸ hy))
      rw [hi']
      exact ⟨rfl, rfl⟩
    exact h₂.congr rfl rfl rfl rfl
  | webhookFailed => exact h.congr rfl rfl rfl rfl
  | webhookTopup hp hnew hlink hev hpurpose hw hb =>
    have hsame := hb.same
    have h₁ := h.congr hsame.orders hsame.invoices hsame.promos hsame.redemptions
    exact h₁.congr rfl rfl rfl rfl
  | webhookPaid => exact h.congr rfl rfl rfl rfl
  | @webhookSettle now v g c e jid p iid i o wid w b₁ hp hnew hlink hev hpurpose href hi hst ho ht hw
      hf hsole method hcheck =>
    have hsame := hf.same
    have h₁ : SlotsOk b₁ := h.congr hsame.orders hsame.invoices hsame.promos hsame.redemptions
    have hd₁ : DealsOk b₁ := hd.congr hsame.orders hsame.invoices hsame.intents
    -- Only an order that waits for its payment moves to in progress.
    have hwait : o.status = .waitingPayment := by
      revert ht
      cases o.status <;> decide
    have hissued := (hd.issued_of_sole hi ho hwait hsole).1
    have h₂ : SlotsOk (b₁.settled now iid i o method i.amountFromWallet p.amount) :=
      h₁.consume hd₁ (hsame.invoices ▸ hi) hissued ended_settled rfl
    exact h₂.congr rfl rfl rfl rfl
  | expireTopup => exact h.congr rfl rfl rfl rfl
  | @submitDelivery now confirm q oid k keys o o' ho ht ho' =>
    refine h.moveOrder ho (fun hwait => ?_) (by rw [ho']; simp)
    rw [hwait] at ht
    cases ht
  | @raiseDispute now xid oid u why o o' x ho ht ho' =>
    have h₁ : SlotsOk (d.books.setOrder oid o') := by
      refine h.moveOrder ho (fun hwait => ?_) (by rw [ho']; simp)
      rw [hwait] at ht
      cases ht
    exact h₁.congr rfl rfl rfl rfl
  | @settle r oid st c o o' iid i b₁ xs hset ho ht hi hio hst hpay ho' =>
    have hsame := hpay.same
    have h₁ : SlotsOk b₁ := h.congr hsame.orders hsame.invoices hsame.promos hsame.redemptions
    obtain ⟨-, o₁, ho₁, hf⟩ := hd.paid iid i hi hst
    obtain rfl : o = o₁ := Option.some.inj (ho.symm.trans (hio ▸ ho₁))
    -- The order of a paid invoice has left waiting, so nothing is reserved for it.
    have hne : o.status ≠ .waitingPayment := by
      intro hwait
      rw [hwait] at hf
      cases hf
    have h₂ : SlotsOk (b₁.setOrder oid o') := by
      refine h₁.setOrder (fun hres => ?_) fun hcons hrefunded => ?_
      · exact absurd hres (h₁.not_reserved (hsame.orders ▸ ho) hne)
      · refine hr.not_consumed hset (ho'.1.symm.trans hrefunded) ?_
        unfold Books.HasRedemption at hcons ⊢
        rwa [hsame.redemptions] at hcons
    exact h₂.congr rfl rfl rfl rfl

end SlotsOk

/-! ## Runs -/

/-- The redemptions follow their invoices and orders, and the counters of the promos follow the
redemptions. -/
structure Db.SlotsFollow (d : Db) : Prop where
  redemption : ∀ rid r, d.redemptions.get? rid = some r →
    ∃ i o, d.invoices.get? r.invoiceId = some i ∧ d.orders.get? i.orderId = some o ∧
      (r.status = .reserved ↔ i.status = .issued ∧ o.status = .waitingPayment) ∧
      (r.status = .consumed ↔ i.status = .paid ∧ o.status ≠ .refunded) ∧
      (r.status = .released ↔ i.status = .cancelled ∨ i.status = .expired ∨
        o.status = .cancelled ∨ o.status = .refunded)
  used : ∀ pid p, d.promos.get? pid = some p → p.usedCount = d.taken pid

/-- What the property says of the redemptions and the counters follows from the invariant. -/
theorem SlotsOk.slotsFollow {d : Db} (h : SlotsOk d.books) (hd : DealsOk d.books) :
    d.SlotsFollow where
  redemption rid r hr := by
    obtain ⟨i, o, hi, hio, ho, hf⟩ := h.follows rid r hr
    refine ⟨i, o, hi, hio ▸ ho, ?_⟩
    revert hf
    cases r.status with
    | reserved =>
      rintro ⟨hissued, hwait⟩
      simp [hissued, hwait]
    | consumed =>
      rintro ⟨hpaid, hne⟩
      obtain ⟨-, o₁, ho₁, hfunded⟩ := hd.paid r.invoiceId i hi hpaid
      obtain rfl : o = o₁ := Option.some.inj (ho.symm.trans (hio ▸ ho₁))
      -- The order of a paid invoice is funded.
      have hcancelled : o.status ≠ .cancelled := by
        intro hcancelled
        rw [hcancelled] at hfunded
        cases hfunded
      simp [hpaid, hne, hcancelled]
    | released =>
      rintro (hover | hover) <;> simp [hover]
  used := h.used

/-- When no request ends the deal of an invoice and forgets its redemption, promo slots follow the
lives of the invoices in every state of a run. -/
theorem slots_follow (refresh : Bool) (s : Settings) {d₀ d : Db} (h₀ : Opening d₀)
    (hzero : ∀ pid p, d₀.promos.get? pid = some p → p.usedCount = 0)
    (hrun : SerialRun refresh s Request.keepsSlots d₀ d) : d.SlotsFollow := by
  have hok : DealsOk d.books ∧ SlotsOk d.books := by
    refine hrun.inv (I := fun d => DealsOk d.books ∧ SlotsOk d.books) ⟨h₀.dealsOk, ?_⟩ ?_
    · have hr : d₀.books.redemptions = .empty := h₀.redemptions
      constructor
      · simp [hr]
      · simp [hr]
      · simp [hr]
      · intro pid p hp
        rw [hzero pid p hp, hr]
        rfl
    · rintro r d hr ⟨hd, h⟩
      have heff : Effect s d.books r (r.exec refresh s d).books :=
        Request.exec_effect (Request.trades_of_keepsSlots hr)
      exact ⟨hd.step heff, h.step hd hr heff⟩
  exact hok.2.slotsFollow hok.1

/-- The accounts, and a promo of 10.00. -/
def Sample.promoted : Db :=
  { opening with
    promos := onePromo }

/-- The sample's database is an opening. -/
theorem Sample.promoted_ok : Opening promoted :=
  { opening_ok with
    index := ⟨opening_ok.index.pairing, opening_ok.index.user, opening_ok.index.system⟩ }

/-- No slot of the promo is taken yet. -/
theorem Sample.promoted_zero : ∀ pid p, promoted.promos.get? pid = some p → p.usedCount = 0 :=
  Table.forall_get?.mpr (by decide)

/-- A discounted invoice is paid: its reservation is used up. -/
theorem slots_follow_paid : ∃ d,
    SerialRun false Sample.settings Request.keepsSlots Sample.promoted d ∧
    (d.redemptions.get? 701).map (·.status) = some .consumed ∧ d.SlotsFollow := by
  have hrun : SerialRun false Sample.settings Request.keepsSlots Sample.promoted
      ([Sample.place, Sample.take, Sample.bill 601 (some ['P']), Sample.checkOut 601 101,
        Sample.report 101 Sample.paid 11529].foldl
        (Request.exec false Sample.settings) Sample.promoted) :=
    SerialRun.start.foldl fun r hr _ => by
      simp only [List.mem_cons, List.not_mem_nil, or_false] at hr
      rcases hr with rfl | rfl | rfl | rfl | rfl <;> rfl
  exact ⟨_, hrun, by decide +kernel,
    slots_follow false Sample.settings Sample.promoted_ok Sample.promoted_zero hrun⟩

/-- The customer cancels an order whose discounted invoice is not paid: the redemption stays
`RESERVED`, and the only slot of the promo is taken for good. -/
theorem slots_do_not_follow : ∃ d,
    SerialRun false Sample.settings (fun r _ => r.trades = true) Sample.promoted d ∧
    ¬d.SlotsFollow := by
  have hrun : SerialRun false Sample.settings (fun r _ => r.trades = true) Sample.promoted
      -- The order is cancelled while its invoice waits for the payment.
      ([Sample.place, Sample.take, Sample.bill 601 (some ['P']), .cancelOrder 0 401 1 none].foldl
        (Request.exec false Sample.settings) Sample.promoted) :=
    SerialRun.start.foldl fun r hr _ => by
      simp only [List.mem_cons, List.not_mem_nil, or_false] at hr
      rcases hr with rfl | rfl | rfl | rfl <;> rfl
  have hstate : ∃ d : Db, d = [Sample.place, Sample.take, Sample.bill 601 (some ['P']),
      .cancelOrder 0 401 1 none].foldl (Request.exec false Sample.settings) Sample.promoted ∧
      (d.redemptions.get? 701).any (fun r => r.status = .reserved && r.invoiceId = 601) = true ∧
      (d.invoices.get? 601).any (fun i => i.orderId = 401) = true ∧
      (d.orders.get? 401).any (fun o => o.status = .cancelled) = true :=
    ⟨_, rfl, by decide +kernel⟩
  obtain ⟨d, hd, hr, hi, ho⟩ := hstate
  rw [← hd] at hrun
  obtain ⟨r, hr, hrp⟩ := (Option.any_eq_true _ _).mp hr
  obtain ⟨i, hi, hip⟩ := (Option.any_eq_true _ _).mp hi
  obtain ⟨o, ho, hop⟩ := (Option.any_eq_true _ _).mp ho
  simp only [Bool.and_eq_true, decide_eq_true_eq] at hrp hip hop
  refine ⟨d, hrun, fun h => ?_⟩
  obtain ⟨i₁, o₁, hi₁, ho₁, hreserved, -⟩ := h.redemption 701 r hr
  rw [hrp.2] at hi₁
  obtain rfl : i = i₁ := Option.some.inj (hi.symm.trans hi₁)
  rw [hip] at ho₁
  obtain rfl : o = o₁ := Option.some.inj (ho.symm.trans ho₁)
  have hwait := (hreserved.mp hrp.1).2
  rw [hop] at hwait
  cases hwait

end Giftly
