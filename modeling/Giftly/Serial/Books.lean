import Giftly.Ledger.Operations
import Giftly.Requests

/-!
# The books

The part of the database that the results about serial runs read, and what the repository functions
do to it when nothing else runs. Alone, every row that a request writes is as the request read it,
so a flush writes exactly the row that the request computed (`Table.set`), and a rule for each
function says so.
-/

namespace Giftly

open Store
open WalletRepository MoneyService

/-- The accounts, the ledger, and the tables of the deals. -/
structure Books where
  users : Table Id User
  wallets : Table Id Wallet
  transactions : List Transaction
  orders : Table Id Order
  invoices : Table Id Invoice
  intents : Table Id PaymentIntent
  disputes : Table Id Dispute
  promos : Table Id Promo
  redemptions : Table Id PromoRedemption

/-- The books of a database. -/
def Db.books (d : Db) : Books where
  users := d.users
  wallets := d.wallets
  transactions := d.transactions
  orders := d.orders
  invoices := d.invoices
  intents := d.intents
  disputes := d.disputes
  promos := d.promos
  redemptions := d.redemptions

/-! ## Rows -/

namespace Books

def setOrder (id : Id) (o : Order) (b : Books) : Books := { b with orders := b.orders.set id o }

def setInvoice (id : Id) (i : Invoice) (b : Books) : Books :=
  { b with invoices := b.invoices.set id i }

def setIntent (id : Id) (p : PaymentIntent) (b : Books) : Books :=
  { b with intents := b.intents.set id p }

def setDispute (id : Id) (x : Dispute) (b : Books) : Books :=
  { b with disputes := b.disputes.set id x }

def setPromo (id : Id) (p : Promo) (b : Books) : Books := { b with promos := b.promos.set id p }

def setRedemption (id : Id) (r : PromoRedemption) (b : Books) : Books :=
  { b with redemptions := b.redemptions.set id r }

/-- The later write of an invoice counts. -/
theorem setInvoice_setInvoice (id : Id) (i j : Invoice) (b : Books) :
    (b.setInvoice id i).setInvoice id j = b.setInvoice id j := by
  simp only [setInvoice, Table.set_set]

/-- The later write of an intent counts. -/
theorem setIntent_setIntent (id : Id) (p q : PaymentIntent) (b : Books) :
    (b.setIntent id p).setIntent id q = b.setIntent id q := by
  simp only [setIntent, Table.set_set]

/-- The held balance of a wallet was set. -/
def setHeld (id : Id) (n : ℤ) (b : Books) : Books :=
  { b with wallets := b.wallets.update id fun w => w.setHeld n }

/-- The reservation of an invoice: its redemption, when that is still `RESERVED`. -/
def reservationOf (b : Books) (invoiceId : Id) : Option (Id × PromoRedemption) :=
  (b.redemptions.find? fun _ r => r.invoiceId = invoiceId).filter fun x => x.2.status = .reserved

/-- The redemptions after the reservation of an invoice, if it has one, got a status. -/
def marked (b : Books) (invoiceId : Id) (status : PromoRedemptionStatus) (now : Time) :
    Table Id PromoRedemption :=
  match b.reservationOf invoiceId with
  | none => b.redemptions
  | some (id, r) => b.redemptions.set id (r.marked status now)

/-- The promos after the slot of an invoice, if it has one, was returned. -/
def returned (b : Books) (invoiceId : Id) : Table Id Promo :=
  match b.reservationOf invoiceId with
  | none => b.promos
  | some (_, r) =>
    match (b.promos.get? r.promoId).filter fun p => 0 < p.usedCount with
    | none => b.promos
    | some p => b.promos.set r.promoId (p.counted (-1))

/-- `PromoService.consume` alone. -/
def consumed (now : Time) (invoiceId : Id) (b : Books) : Books :=
  { b with redemptions := b.marked invoiceId .consumed now }

/-- `PromoService.release` alone. -/
def released (now : Time) (invoiceId : Id) (b : Books) : Books :=
  { b with redemptions := b.marked invoiceId .released now, promos := b.returned invoiceId }

section Reservations

variable {b : Books} {now : Time} {iid rid : Id} {r : PromoRedemption}

/-- Without a reservation nothing is consumed. -/
theorem consumed_of_none (h : b.reservationOf iid = none) : b.consumed now iid = b := by
  simp only [consumed, marked, h]

/-- The reservation of an invoice is consumed. -/
theorem consumed_of_some (h : b.reservationOf iid = some (rid, r)) :
    b.consumed now iid = b.setRedemption rid (r.marked .consumed now) := by
  simp only [consumed, marked, h, setRedemption]

/-- Without a reservation nothing is released. -/
theorem released_of_none (h : b.reservationOf iid = none) : b.released now iid = b := by
  simp only [released, marked, returned, h]

/-- The reservation of an invoice is released, and its slot given back if one is counted. -/
theorem released_of_some (h : b.reservationOf iid = some (rid, r)) :
    b.released now iid = match (b.promos.get? r.promoId).filter fun p => 0 < p.usedCount with
      | none => b.setRedemption rid (r.marked .released now)
      | some p =>
        (b.setRedemption rid (r.marked .released now)).setPromo r.promoId (p.counted (-1)) := by
  simp only [released, marked, returned, h, setRedemption, setPromo]
  cases (b.promos.get? r.promoId).filter fun p => 0 < p.usedCount <;> rfl

/-- A reservation is a redemption of the invoice that is `RESERVED`. -/
theorem of_reservationOf (h : b.reservationOf iid = some (rid, r)) :
    b.redemptions.get? rid = some r ∧ r.invoiceId = iid ∧ r.status = .reserved := by
  obtain ⟨hf, hs⟩ := Option.filter_eq_some_iff.mp h
  obtain ⟨hr, hi⟩ := Table.find?_eq_some hf
  exact ⟨hr, by simpa using hi, by simpa using hs⟩

end Reservations

/-- The open payment intent of an invoice. -/
def openIntent (b : Books) (invoiceId : Id) : Option (Id × PaymentIntent) :=
  b.intents.find? fun _ p => p.referenceInvoiceId = some invoiceId && p.status = .new

/-- The wallet of a user. -/
def walletOf (b : Books) (userId : Id) : Option (Id × Wallet) :=
  b.wallets.find? fun _ w => w.userId = some userId

/-- A wallet is a system wallet of a type. -/
def IsSystem (b : Books) (walletType : WalletType) (id : Id) : Prop :=
  ∃ w, b.wallets.get? id = some w ∧ w.type = walletType ∧ w.userId = none

/-- The group of `legs` was posted. -/
def Posts (c : Id) (legs : List Leg) (b b' : Books) : Prop :=
  ∃ ts, List.Forall₂ (RowOf c) legs ts ∧
    b' = { b with
      wallets := b.wallets.mapRows (creditRows ts), transactions := b.transactions ++ ts } ∧
    (∀ leg ∈ legs, (b.wallets.get? leg.walletId).isSome) ∧
    (∀ k ∈ legKeys legs, k ∉ ledgerKeys b.transactions) ∧
    ∀ id ∈ walletIds legs, ∀ w, b'.wallets.get? id = some w → w.check = none

end Books

/-! ## Repository functions alone -/

/-- A row that the session changes from its own value takes the changed value. -/
theorem Order.assign_of_frozen {l a : Order} (h : a.frozen = l.frozen) : l.assign a l = a := by
  simp only [Order.frozen, Prod.mk.injEq] at h
  simp only [Order.assign, assign_self, ← h.1, ← h.2]

section Rows

variable {m : Memory} {d : Db} {now : Time}

/-- An insert alone ends with the row, if the key was free and the constraints hold. -/
theorem insertRow_ends {V : Type} {names : List Row} {get : Db → Option V} {patch : Db → Db}
    {check : Db → Option Err} {Q : Unit → Memory → Db → Prop}
    (h : get d = none → check d = none → Q () m (patch d)) :
    Ends (insertRow names get patch check) Q m d := by
  unfold insertRow
  rw [ends_flush]
  intro hc
  split_ifs at hc with hs
  exact h (by simpa using hs) hc

/-- An update alone ends with the changed row, if the constraints hold. -/
theorem updateRow_ends {V : Type} {names : List Row} {get : Db → Option V}
    {patch : (V → V) → Db → Db} {f : V → V} {check : Db → V → Option Err} {x : V}
    {Q : Unit → Memory → Db → Prop} (hx : get d = some x)
    (h : check d (f x) = none → Q () m (patch f d)) :
    Ends (updateRow names get patch f check) Q m d := by
  unfold updateRow
  rw [ends_flush, hx]
  exact h

/-- A transition that was asserted is a legal one. -/
theorem assertTransition_ends {a b : OrderStatus} {Q : Unit → Memory → Db → Prop}
    (h : OrderState.canTransition a b = true → Q () m d) :
    Ends (OrderState.assertTransition a b) Q m d := by
  unfold OrderState.assertTransition
  rw [ends_require]
  exact h

/-- The flush of an order that is as it was read. -/
theorem flushOrder_ends {id : Id} {l a : Order} {Q : Unit → Memory → Db → Prop}
    (ho : d.orders.get? id = some l) (ha : l.assign a l = a)
    (h : a = l ∨ a.check now = none → ∀ d', d'.books = d.books.setOrder id a → Q () m d') :
    Ends (OrderRepository.flush now id l a) Q m d := by
  unfold OrderRepository.flush
  split_ifs with heq
  · refine h (.inl heq) d ?_
    subst heq
    simp only [Books.setOrder, Db.books, Table.set_self ho]
  · refine updateRow_ends ho fun hc => h (.inr ?_) _ ?_
    · rw [ha] at hc
      split_ifs at hc
      exact hc
    · simp only [Books.setOrder, Db.books, Db.updateOrder, Table.update_eq_set ho ha]

/-- The flush of an invoice that is as it was read. -/
theorem flushInvoice_ends {id : Id} {l a : Invoice} {Q : Unit → Memory → Db → Prop}
    (hi : d.invoices.get? id = some l) (ha : l.assign a l = a)
    (h : a = l ∨ InvoiceRepository.checkRow id d a = none →
      ∀ d', d'.books = d.books.setInvoice id a → Q () m d') :
    Ends (InvoiceRepository.flush id l a) Q m d := by
  unfold InvoiceRepository.flush
  split_ifs with heq
  · refine h (.inl heq) d ?_
    subst heq
    simp only [Books.setInvoice, Db.books, Table.set_self hi]
  · refine updateRow_ends hi fun hc => h (.inr (ha ▸ hc)) _ ?_
    simp only [Books.setInvoice, Db.books, Db.updateInvoice, Table.update_eq_set hi ha]

/-- The flush of a payment intent that is as it was read. -/
theorem flushIntent_ends {names : List Row} {id : Id} {l a : PaymentIntent}
    {Q : Unit → Memory → Db → Prop} (hp : d.intents.get? id = some l) (ha : l.assign a l = a)
    (h : a = l ∨ (a.check = none ∧ a.soleLink d id = true) →
      ∀ d', d'.books = d.books.setIntent id a → Q () m d') :
    Ends (PaymentRepository.flush names id l a) Q m d := by
  unfold PaymentRepository.flush
  split_ifs with heq
  · refine h (.inl heq) d ?_
    subst heq
    simp only [Books.setIntent, Db.books, Table.set_self hp]
  · refine updateRow_ends hp fun hc => h (.inr ?_) _ ?_
    · rw [ha, Option.or_eq_none_iff] at hc
      refine ⟨hc.1, ?_⟩
      by_contra hne
      simp [hne] at hc
    · simp only [Books.setIntent, Db.books, Db.updateIntent, Table.update_eq_set hp ha]

/-- `create_intent` and `attach_streampay`: a new payment intent with its link. -/
theorem createIntent_ends {id : Id} {p : PaymentIntent} {Q : Unit → Memory → Db → Prop}
    (h : d.intents.get? id = none → p.check = none →
      ∀ d', d'.books = d.books.setIntent id p → Q () m d') :
    Ends (PaymentRepository.createIntent id p) Q m d := by
  refine insertRow_ends fun hnone hc => h hnone ?_ _ ?_
  · split_ifs at hc
    exact hc
  · simp only [Books.setIntent, Db.books, Db.insertIntent, Table.insert_eq_set p hnone]

/-- `create_draft`. -/
theorem createDraft_ends {id : Id} {i : Invoice} {Q : Unit → Memory → Db → Prop}
    (h : d.invoices.get? id = none → InvoiceRepository.checkRow id d i = none →
      ∀ d', d'.books = d.books.setInvoice id i → Q () m d') :
    Ends (InvoiceRepository.createDraft id i) Q m d := by
  refine insertRow_ends fun hnone hc => h hnone ?_ _ ?_
  · split_ifs at hc
    exact hc
  · simp only [Books.setInvoice, Db.books, Db.insertInvoice, Table.insert_eq_set i hnone]

/-- The lines of an invoice are not part of the books. -/
theorem addItems_ends {iid : Id} {f : ℕ → Id} : ∀ {ls : List (PricingLine × ℕ)} {d : Db}
    {Q : Unit → Memory → Db → Prop}, (∀ d', d'.books = d.books → Q () m d') →
    Ends (ls.forM fun x => InvoiceRepository.addItem (f x.2) iid x.1) Q m d
  | [], d, Q, h => h d rfl
  | x :: ls, d, Q, h => by
    change Ends (InvoiceRepository.addItem (f x.2) iid x.1 >>= fun _ =>
      ls.forM fun x => InvoiceRepository.addItem (f x.2) iid x.1) Q m d
    rw [ends_bind]
    refine insertRow_ends fun _ _ => addItems_ends fun d' hd' => h d' ?_
    rw [hd']
    rfl

/-! ## Promos -/

/-- `_update_counter` alone. -/
theorem updateCounter_ends {pid : Id} {cond : Promo → Bool} {n : ℤ}
    {Q : Option ℤ → Memory → Db → Prop}
    (hnone : (d.promos.get? pid).filter cond = none → Q none m d)
    (hsome : ∀ p d', (d.promos.get? pid).filter cond = some p →
      d'.books = d.books.setPromo pid (p.counted n) → Q (some (p.usedCount + n)) m d') :
    Ends (PromoRepository.updateCounter pid cond n) Q m d := by
  unfold PromoRepository.updateCounter
  rw [ends_lock]
  cases hf : (d.promos.get? pid).filter cond with
  | none =>
    simp only [hf]
    exact hnone hf
  | some p =>
    have hp := (Option.filter_eq_some_iff.mp hf).1
    simp only [hf]
    rw [ends_bind]
    refine updateRow_ends hp fun _ => hsome p _ hf ?_
    -- The update under the condition is a write of the row that was found.
    have hset : d.promos.update pid (Promo.counted n) = d.promos.set pid (p.counted n) :=
      Table.update_eq_set hp rfl
    simp only [Books.setPromo, Db.books, Db.updatePromo, ← hset]
    rfl

/-- The status of a redemption is set alone. -/
theorem setRedemptionStatus_ends {rid : Id} {r : PromoRedemption} {st : PromoRedemptionStatus}
    {Q : Unit → Memory → Db → Prop} (hr : d.redemptions.get? rid = some r)
    (h : ∀ d', d'.books = d.books.setRedemption rid (r.marked st now) → Q () m d') :
    Ends (PromoRepository.setRedemptionStatus rid r st now) Q m d := by
  refine updateRow_ends hr fun _ => h _ ?_
  simp only [Books.setRedemption, Db.books, Db.updateRedemption]
  rw [Table.update_eq_set hr (w := r.marked st now)]
  simp [PromoRedemption.assign, PromoRedemption.marked]

/-- What `get_redemption_by_invoice` finds, and whether it is a reservation. -/
theorem reservationOf_books {iid rid : Id} {r : PromoRedemption}
    (hf : (d.redemptions.find? fun _ r => r.invoiceId = iid) = some (rid, r)) :
    d.books.reservationOf iid = if r.status = .reserved then some (rid, r) else none := by
  change (d.redemptions.find? fun _ r => r.invoiceId = iid).filter _ = _
  rw [hf]
  by_cases hr : r.status = .reserved <;> simp [hr]

/-- `consume` alone does to the books what `consumed` says. -/
theorem consume_ends {iid : Id} {Q : Unit → Memory → Db → Prop}
    (h : ∀ d', d'.books = d.books.consumed now iid → Q () m d') :
    Ends (PromoService.consume now iid) Q m d := by
  unfold PromoService.consume PromoRepository.getRedemptionByInvoice
  rw [ends_bind, ends_query]
  cases hf : d.redemptions.find? fun _ r => r.invoiceId = iid with
  -- No promo on the invoice.
  | none =>
    have hnone : d.books.reservationOf iid = none := by
      change (d.redemptions.find? fun _ r => r.invoiceId = iid).filter _ = none
      rw [hf]
      rfl
    exact h d (Books.consumed_of_none hnone).symm
  | some x =>
    obtain ⟨rid, r⟩ := x
    have hr := (Table.find?_eq_some hf).1
    have hres := reservationOf_books hf
    dsimp only
    rw [ends_when]
    constructor
    · intro hreserved
      rw [if_pos hreserved] at hres
      exact setRedemptionStatus_ends hr fun d' hd' =>
        h d' (hd'.trans (Books.consumed_of_some hres).symm)
    · -- A redemption that is not reserved any more is left alone.
      intro hne
      rw [if_neg hne] at hres
      exact h d (Books.consumed_of_none hres).symm

/-- `release` alone does to the books what `released` says. -/
theorem release_ends {iid : Id} {Q : Unit → Memory → Db → Prop}
    (h : ∀ d', d'.books = d.books.released now iid → Q () m d') :
    Ends (PromoService.release now iid) Q m d := by
  unfold PromoService.release PromoRepository.getRedemptionByInvoice
  rw [ends_bind, ends_query]
  cases hf : d.redemptions.find? fun _ r => r.invoiceId = iid with
  -- No promo on the invoice.
  | none =>
    have hnone : d.books.reservationOf iid = none := by
      change (d.redemptions.find? fun _ r => r.invoiceId = iid).filter _ = none
      rw [hf]
      rfl
    exact h d (Books.released_of_none hnone).symm
  | some x =>
    obtain ⟨rid, r⟩ := x
    have hr := (Table.find?_eq_some hf).1
    have hres := reservationOf_books hf
    dsimp only
    rw [ends_when]
    constructor
    · -- A reserved redemption: the row, then the counter of its promo.
      intro hreserved
      rw [if_pos hreserved] at hres
      have hreleased := @Books.released_of_some d.books now iid rid r hres
      rw [ends_bind]
      refine setRedemptionStatus_ends hr fun d₁ hd₁ => ?_
      have hpromos : d₁.promos = d.promos := congrArg Books.promos hd₁
      unfold PromoRepository.atomicRelease
      rw [ends_bind]
      refine updateCounter_ends (fun hnone => h d₁ ?_) fun p d₂ hp hd₂ => h d₂ ?_
      · rw [hpromos] at hnone
        rw [hreleased, hd₁]
        simp only [Db.books, hnone]
      · rw [hpromos] at hp
        rw [hreleased, hd₂, hd₁]
        simp only [Db.books, hp]
    · -- A redemption that is not reserved any more is left alone.
      intro hne
      rw [if_neg hne] at hres
      exact h d (Books.released_of_none hres).symm

end Rows

/-! ## Groups -/

/-- A group that was posted in the database was posted in its books. -/
theorem PostedGroup.books {c : Id} {legs : List Leg} {d d' : Db} (h : PostedGroup c legs d d') :
    Books.Posts c legs d.books d'.books := by
  obtain ⟨ts, hp⟩ := h
  exact ⟨ts, hp.rows, by rw [hp.eq]; rfl, hp.found, hp.fresh, hp.wallets⟩

end Giftly
