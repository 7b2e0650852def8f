import Giftly.Store.Records
import Giftly.Serial.Withdrawals

/-!
# The journal

Above the rows of the ledger stands what they are for. The tables record four kinds of events: a
top-up that was paid for, the payment of an invoice, the payout of an order, and a paid withdrawal
(`Db.events`). Each has its legs, read off the rows that record it (`Db.LegsOf`). A journal says that
the ledger is made of one group for each of these events, and of nothing else (`Db.Journal`).
-/

namespace Giftly

open Store OrderState
open WalletRepository MoneyService

/-- What moves money. -/
inductive Event
  | topup (intentId : Id)
  | payment (invoiceId : Id)
  | payout (orderId : Id)
  | withdrawal (withdrawalId : Id)
  deriving DecidableEq

namespace Event

/-- The keys that the group of an event may carry. -/
def keys : Event → List IdempotencyKey
  | .topup jid => [.topup jid]
  | .payment iid => [.escrow iid]
  | .payout oid => Books.payoutKeys oid
  | .withdrawal id => [.paid id]

def intent? : Event → Option Id
  | .topup jid => some jid
  | _ => none

def invoice? : Event → Option Id
  | .payment iid => some iid
  | _ => none

def order? : Event → Option Id
  | .payout oid => some oid
  | _ => none

/-- Only a top-up is the event of an intent. -/
theorem bind_intent? {new : Option Event} {id : Id} :
    new.bind intent? = some id ↔ new = some (.topup id) := by
  rcases new with _ | _ | _ | _ | _ <;> simp [intent?]

/-- Only a payment is the event of an invoice. -/
theorem bind_invoice? {new : Option Event} {id : Id} :
    new.bind invoice? = some id ↔ new = some (.payment id) := by
  rcases new with _ | _ | _ | _ | _ <;> simp [invoice?]

/-- Only a payout is the event of an order. -/
theorem bind_order? {new : Option Event} {id : Id} :
    new.bind order? = some id ↔ new = some (.payout id) := by
  rcases new with _ | _ | _ | _ | _ <;> simp [order?]

/-- A key says what it is for. -/
theorem eq_of_mem_keys {e f : Event} {key : IdempotencyKey} (he : key ∈ e.keys) (hf : key ∈ f.keys) :
    e = f := by
  cases e <;> cases f <;> simp [keys, Books.payoutKeys] at he hf ⊢ <;> aesop

end Event

/-- The order was paid out. -/
def OrderStatus.closed : OrderStatus → Bool
  | .completed | .refunded => true
  | _ => false

/-- A closed order does not move. -/
theorem OrderState.open_of_canTransition {a b : OrderStatus} (h : canTransition a b = true) :
    a.closed = false := by
  revert h
  cases a <;> cases b <;> decide

/-- The intent of a top-up was paid. -/
def PaymentIntent.toppedUp (p : PaymentIntent) : Bool := p.purpose = .walletTopup && p.status = .paid

namespace Books

/-- The top-ups, the payments and the payouts that the tables record. -/
def events (b : Books) : List Event :=
  (b.intents.keysWhere fun _ p => p.toppedUp).map .topup ++
    (b.invoices.keysWhere fun _ i => i.status = .paid).map .payment ++
      (b.orders.keysWhere fun _ o => o.status.closed).map .payout

/-- The dispute of an order was resolved by a split. -/
def SplitFor (b : Books) (oid : Id) : Prop :=
  ∃ xid x, b.disputes.get? xid = some x ∧ x.orderId = oid ∧ x.status = .resolvedSplit

/-- The legs of an event, by the rows that record it. -/
inductive LegsOf (b : Books) : Event → List Leg → Prop
  | topup {jid p wid g} (hp : b.intents.get? jid = some p) (hst : p.toppedUp = true)
      (hw : b.Owns wid p.userId) (hg : b.IsSystem .systemGateway g) :
      LegsOf b (.topup jid) (topupLegs wid g jid p.amount (-p.amount))
  | payment {iid i o wid g e x} (hi : b.invoices.get? iid = some i) (hst : i.status = .paid)
      (ho : b.orders.get? i.orderId = some o) (hw : b.Owns wid o.customerId)
      (hg : b.IsSystem .systemGateway g) (he : b.IsSystem .systemEscrow e)
      (hparts : 0 ≤ i.amountFromWallet ∧ 0 ≤ i.amountFromGateway)
      (hx : (x = none ∧ i.amountFromGateway = 0) ∨
        ∃ jid p, x = some jid ∧ b.intents.get? jid = some p ∧ p.status = .paid ∧
          p.referenceInvoiceId = some iid ∧ p.amount = i.amountFromGateway) :
      LegsOf b (.payment iid) (fundingLegs wid g e iid i.orderId x i.totalAmount i.amountFromWallet
        i.amountFromGateway)
  | payout {oid o iid i outcome legs} (ho : b.orders.get? oid = some o)
      (hi : b.invoices.get? iid = some i) (hio : i.orderId = oid) (hst : i.status = .paid)
      (hlegs : b.PayoutLegs oid iid o i outcome legs)
      (hsplit : outcome = .resolvedSplit ↔ b.SplitFor oid) : LegsOf b (.payout oid) legs

end Books

/-- The events that the tables record. -/
def Db.events (d : Db) : List Event :=
  d.books.events ++ (d.withdrawals.keysWhere fun _ x => x.status = .paid).map .withdrawal

/-- The legs of an event, by the rows that record it. -/
inductive Db.LegsOf (d : Db) : Event → List Leg → Prop
  | deal {e legs} (h : d.books.LegsOf e legs) : LegsOf d e legs
  | withdrawal {id x g} (hx : d.withdrawals.get? id = some x) (hst : x.status = .paid)
      (hg : IsSystem d .systemGateway g) :
      LegsOf d (.withdrawal id) (withdrawalLegs x.walletId g id x.amount)

/-- A group of the ledger is that of an event. -/
def Db.Records (d : Db) (e : Event) (ts : List Transaction) : Prop :=
  ∃ c legs, d.LegsOf e legs ∧ List.Forall₂ (RowOf c) legs ts

/-- The ledger has one group for each event that the tables record, and nothing else. -/
structure Db.Journal (d : Db) (js : List (Event × List Transaction)) : Prop where
  rows : d.transactions = js.flatMap Prod.snd
  events : (js.map Prod.fst).Perm d.events
  records : ∀ j ∈ js, d.Records j.1 j.2

/-! ## Events and keys -/

section Events

variable {b : Books} {d : Db} {e : Event} {legs : List Leg} {id : Id}

/-- A top-up is recorded by its paid intent. -/
@[simp]
theorem Books.mem_events_topup : .topup id ∈ b.events ↔
    ∃ p, b.intents.get? id = some p ∧ p.toppedUp = true := by
  simp [Books.events]

/-- A payment is recorded by its paid invoice. -/
@[simp]
theorem Books.mem_events_payment : .payment id ∈ b.events ↔
    ∃ i, b.invoices.get? id = some i ∧ i.status = .paid := by
  simp [Books.events]

/-- A payout is recorded by its closed order. -/
@[simp]
theorem Books.mem_events_payout : .payout id ∈ b.events ↔
    ∃ o, b.orders.get? id = some o ∧ o.status.closed = true := by
  simp [Books.events]

/-- The books of the deals record no withdrawal. -/
@[simp]
theorem Books.mem_events_withdrawal : .withdrawal id ∉ b.events := by
  simp [Books.events]

/-- A paid withdrawal is recorded by its row. -/
theorem Db.mem_events_withdrawal : .withdrawal id ∈ d.events ↔
    ∃ x, d.withdrawals.get? id = some x ∧ x.status = .paid := by
  simp [Db.events]

/-- The events of the deals among all events. -/
theorem Db.mem_events : e ∈ d.events ↔ e ∈ d.books.events ∨
    ∃ id x, e = .withdrawal id ∧ d.withdrawals.get? id = some x ∧ x.status = .paid := by
  unfold Db.events
  rw [List.mem_append]
  apply or_congr Iff.rfl
  simp only [List.mem_map, Table.mem_keysWhere, decide_eq_true_eq]
  constructor
  · rintro ⟨id, ⟨x, hx, hst⟩, rfl⟩
    exact ⟨id, x, rfl, hx, hst⟩
  · rintro ⟨id, x, rfl, hx, hst⟩
    exact ⟨id, ⟨x, hx, hst⟩, rfl⟩

/-- No event is recorded twice. -/
theorem Db.nodup_events (d : Db) : d.events.Nodup := by
  have htopups := (Table.nodup_keysWhere d.books.intents fun _ p => p.toppedUp).map
    (f := Event.topup) fun _ _ h => Event.topup.inj h
  have hpayments := (Table.nodup_keysWhere d.books.invoices fun _ i => i.status = .paid).map
    (f := Event.payment) fun _ _ h => Event.payment.inj h
  have hpayouts := (Table.nodup_keysWhere d.books.orders fun _ o => o.status.closed).map
    (f := Event.payout) fun _ _ h => Event.payout.inj h
  have hwithdrawals := (Table.nodup_keysWhere d.withdrawals fun _ x => x.status = .paid).map
    (f := Event.withdrawal) fun _ _ h => Event.withdrawal.inj h
  unfold Db.events Books.events
  -- Events of different kinds differ.
  refine List.Nodup.append (List.Nodup.append (List.Nodup.append htopups hpayments ?_) hpayouts ?_)
    hwithdrawals ?_
  all_goals
    intro e he he'
    simp only [List.mem_append, List.mem_map] at he he'
    aesop

/-- The legs of an event are of an event that the tables record. -/
theorem Books.LegsOf.mem_events (h : b.LegsOf e legs) : e ∈ b.events := by
  cases h with
  | topup hp hst => exact Books.mem_events_topup.mpr ⟨_, hp, hst⟩
  | payment hi hst => exact Books.mem_events_payment.mpr ⟨_, hi, hst⟩
  | payout ho _ _ _ hlegs =>
    apply Books.mem_events_payout.mpr
    refine ⟨_, ho, ?_⟩
    cases hlegs with
    | released hst | refunded hst | split hst => rw [hst]; rfl

/-- The legs of an event carry its key. -/
theorem Db.LegsOf.keys (h : d.LegsOf e legs) : ∃ key ∈ e.keys, legKeys legs = [key] := by
  cases h with
  | withdrawal => exact ⟨_, List.mem_singleton_self _, legKeys_withdrawalLegs⟩
  | deal h =>
    cases h with
    | topup => exact ⟨_, List.mem_singleton_self _, legKeys_topupLegs⟩
    | payment => exact ⟨_, List.mem_singleton_self _, legKeys_fundingLegs⟩
    | payout _ _ _ _ hlegs => exact hlegs.keys

end Events

/-! ## Steps -/

namespace Db.Journal

variable {d d' : Db} {js : List (Event × List Transaction)} {e : Event} {ts : List Transaction}

/-- The events of a journal are the recorded ones. -/
theorem mem_iff (h : d.Journal js) : e ∈ js.map Prod.fst ↔ e ∈ d.events := h.events.mem_iff

/-- A key of the ledger is of an event that the tables record. -/
theorem mem_of_key {key : IdempotencyKey} (h : d.Journal js) (he : key ∈ e.keys)
    (hkey : key ∈ ledgerKeys d.transactions) : e ∈ d.events := by
  rw [h.rows] at hkey
  have hgroup : ∃ j ∈ js, key ∈ ledgerKeys j.2 := by
    unfold ledgerKeys at hkey ⊢
    rw [List.mem_filterMap] at hkey
    obtain ⟨t, ht, heq⟩ := hkey
    obtain ⟨j, hj, htj⟩ := List.mem_flatMap.mp ht
    exact ⟨j, hj, List.mem_filterMap.mpr ⟨t, htj, heq⟩⟩
  obtain ⟨j, hj, hkey⟩ := hgroup
  obtain ⟨c, legs, hlegs, hrows⟩ := h.records j hj
  obtain ⟨key', hkey', hkeys⟩ := hlegs.keys
  rw [rows_keys hrows, hkeys, List.mem_singleton] at hkey
  obtain rfl : e = j.1 := Event.eq_of_mem_keys he (hkey ▸ hkey')
  exact h.mem_iff.mp (List.mem_map_of_mem hj)

/-- A step that records nothing. -/
theorem quiet (h : d.Journal js) (ht : d'.transactions = d.transactions)
    (hev : ∀ f, f ∈ d'.events ↔ f ∈ d.events)
    (hkeep : ∀ f legs, d.LegsOf f legs → d'.LegsOf f legs) : d'.Journal js where
  rows := by rw [ht, h.rows]
  events := by
    apply h.events.trans
    rw [List.perm_ext_iff_of_nodup d.nodup_events d'.nodup_events]
    exact fun f => (hev f).symm
  records j hj := by
    obtain ⟨c, legs, hlegs, hrows⟩ := h.records j hj
    exact ⟨c, legs, hkeep j.1 legs hlegs, hrows⟩

/-- A step that records an event with its group. -/
theorem record (h : d.Journal js) (ht : d'.transactions = d.transactions ++ ts)
    (hev : ∀ f, f ∈ d'.events ↔ f ∈ d.events ∨ f = e) (hnew : e ∉ d.events)
    (hkeep : ∀ f legs, d.LegsOf f legs → d'.LegsOf f legs) (hrec : d'.Records e ts) :
    d'.Journal (js ++ [(e, ts)]) where
  rows := by simp [ht, h.rows]
  events := by
    rw [List.map_append, List.map_cons, List.map_nil]
    -- The event is new, so no event is listed twice.
    have hnodup : (js.map Prod.fst ++ [e]).Nodup := by
      rw [List.nodup_append]
      refine ⟨h.events.nodup_iff.mpr d.nodup_events, List.nodup_singleton e, ?_⟩
      intro f hf g hg
      rw [List.mem_singleton] at hg
      rintro rfl
      exact hnew (hg ▸ h.mem_iff.mp hf)
    rw [List.perm_ext_iff_of_nodup hnodup d'.nodup_events]
    intro f
    rw [List.mem_append, List.mem_singleton, h.mem_iff, hev]
  records j hj := by
    rw [List.mem_append, List.mem_singleton] at hj
    rcases hj with hj | rfl
    · obtain ⟨c, legs, hlegs, hrows⟩ := h.records j hj
      exact ⟨c, legs, hkeep j.1 legs hlegs, hrows⟩
    · exact hrec

end Db.Journal

end Giftly
