import Giftly.Serial.BalanceSheet

/-!
# Cash

What the gateway has reported as paid against what the ledger has of it. The groups of the journal
that bring money in name the intent that they are for, each intent is named by one group at most, and
the amounts agree; so the gateway account is the paid withdrawals less the paid intents that the ledger
names. A paid intent that it does not name is for an invoice, which is paid. What the gateway took
for an intent that had expired is in no row at all, and nothing is said of it.
-/

namespace Giftly

open Store OrderState
open WalletRepository MoneyService

/-! ## What an intent is for -/

/-- An intent for an invoice says which. -/
def Books.Billed (b : Books) : Prop :=
  ∀ jid p, b.intents.get? jid = some p → p.purpose = .orderInvoice →
    ∃ iid, p.referenceInvoiceId = some iid

namespace Books.Billed

variable {b b' : Books} {jid : Id} {p p' : PaymentIntent}

/-- Which intent is for which invoice depends on the intents alone. -/
theorem congr (h : b.Billed) (hp : b'.intents = b.intents) : b'.Billed := by
  unfold Billed
  rw [hp]
  exact h

/-- A write of an intent that says its invoice. -/
theorem setIntent (h : b.Billed)
    (hp : p'.purpose = .orderInvoice → ∃ iid, p'.referenceInvoiceId = some iid) :
    (b.setIntent jid p').Billed := by
  intro k q hq
  simp only [Books.setIntent, Table.get?_set] at hq
  split_ifs at hq
  · obtain rfl := Option.some.inj hq
    exact hp
  · exact h k q hq

/-- A write of an intent that keeps what it is for. -/
theorem moveIntent (h : b.Billed) (hp : b.intents.get? jid = some p)
    (hsame : p'.purpose = p.purpose ∧ p'.referenceInvoiceId = p.referenceInvoiceId) :
    (b.setIntent jid p').Billed := by
  apply h.setIntent
  rw [hsame.1, hsame.2]
  exact h jid p hp

/-- Every request leaves the intents for invoices saying which. -/
theorem step {s : Settings} {r : Request} (h : b.Billed) (heff : Effect s b r b') : b'.Billed := by
  cases heff with
  | idle => exact h
  | createOrder | acceptOrder | cancelOrder | submitDelivery | raiseDispute | cancelInvoice =>
    exact h.congr rfl
  | createInvoice _ _ _ _ _ _ hpromo => cases hpromo <;> exact h.congr rfl
  | @expireInvoice now iid i =>
    have hexpired : (b.expiredIntent iid i).Billed := by
      rcases b.expiredIntent_cases iid i with ⟨heq, -⟩ | ⟨jid, p, b₁, hp, -, -, heq, hb₁⟩ <;> rw [heq]
      · exact h
      · rcases hb₁ with ⟨rfl, -⟩ | ⟨wid, w, -, -, rfl⟩
        · exact h.moveIntent hp ⟨rfl, rfl⟩
        · exact (h.congr rfl).moveIntent hp ⟨rfl, rfl⟩
    rcases Books.reopened_cases (((b.expiredIntent iid i).released now iid).setInvoice iid
      { i with status := .expired }) i.orderId with ⟨heq, -⟩ | ⟨o, -, -, heq⟩ <;>
      (rw [heq]; exact hexpired.congr rfl)
  | createTopup _ hp =>
    apply h.setIntent
    rw [hp.2.1]
    exact fun h => PaymentPurpose.noConfusion h
  | payWallet _ _ _ _ _ _ _ hf => exact h.congr hf.same.intents
  | payGateway _ _ _ _ _ _ _ _ _ _ hp hb₁ =>
    rw [hb₁]
    split_ifs <;> exact (h.congr rfl).setIntent fun _ => ⟨_, hp.2.2.1⟩
  | webhookFailed hp | webhookPaid hp | expireTopup hp => exact h.moveIntent hp ⟨rfl, rfl⟩
  | webhookTopup hp _ _ _ _ _ hb =>
    -- The group is posted first, which leaves the intents alone.
    have hp₁ := hp
    rw [← hb.same.intents] at hp₁
    exact (h.congr hb.same.intents).moveIntent hp₁ ⟨rfl, rfl⟩
  | @webhookSettle now v g c e jid p iid i o wid w b₁ hp hnew hlink hev hpurpose href hi hst ho ht hw
      hf hsole method =>
    have hintents : (b₁.settled now iid i o method i.amountFromWallet p.amount).intents =
        b.intents := hf.same.intents
    have hp₁ := hp
    rw [← hintents] at hp₁
    exact (h.congr hintents).moveIntent hp₁ ⟨rfl, rfl⟩
  | settle _ _ _ _ _ _ hpay => exact h.congr hpay.same.intents

end Books.Billed

namespace Db

/-- A row of the ledger names an intent. -/
def booked (d : Db) (intentId : Id) : Bool :=
  d.transactions.any fun t => t.referenceIntentId = some intentId

/-- The amount of an intent. -/
def amountOf (d : Db) (intentId : Id) : ℤ := ((d.intents.get? intentId).map (·.amount)).getD 0

/-- What an event brings in through the gateway. -/
def cash (d : Db) : Event → ℤ
  | .topup jid => d.amountOf jid
  | .payment iid => ((d.invoices.get? iid).map (·.amountFromGateway)).getD 0
  | _ => 0

/-- A paid intent is what an event was paid by. -/
inductive PaidBy (d : Db) (jid : Id) : Event → Prop
  | topup {p} (hp : d.intents.get? jid = some p) (hst : p.toppedUp = true) : PaidBy d jid (.topup jid)
  | payment {p iid} (hp : d.intents.get? jid = some p) (hst : p.status = .paid)
      (href : p.referenceInvoiceId = some iid) : PaidBy d jid (.payment iid)

end Db

/-- The intent that a group names. -/
def named (ts : List Transaction) : Option Id := ts.head?.bind (·.referenceIntentId)

section Groups

variable {d : Db} {jid : Id} {e f : Event} {legs : List Leg} {ts : List Transaction}

/-- An intent pays for one event. -/
theorem Db.PaidBy.unique (hd : DealsOk d.books) (he : d.PaidBy jid e) (hf : d.PaidBy jid f) :
    e = f := by
  -- An intent for an invoice is no top-up.
  have hpurpose : ∀ p iid, d.intents.get? jid = some p → p.referenceInvoiceId = some iid →
      p.toppedUp = false := by
    intro p iid hp href
    have horder := (hd.intent jid p iid hp href).1
    simp [PaymentIntent.toppedUp, horder]
  cases he with
  | @topup p hp hst =>
    cases hf with
    | topup => rfl
    | @payment q iid hq hst' href =>
      obtain rfl : p = q := Option.some.inj (hp.symm.trans hq)
      rw [hpurpose p iid hp href] at hst
      cases hst
  | @payment p iid hp hst href =>
    cases hf with
    | @topup q hq hst' =>
      obtain rfl : p = q := Option.some.inj (hp.symm.trans hq)
      rw [hpurpose p iid hp href] at hst'
      cases hst'
    | @payment q k hq hst' href' =>
      obtain rfl : p = q := Option.some.inj (hp.symm.trans hq)
      rw [Option.some.inj (href.symm.trans href')]

/-- The intent that an event was paid by is `PAID`. -/
theorem Db.PaidBy.intent (h : d.PaidBy jid e) :
    ∃ p, d.intents.get? jid = some p ∧ p.status = .paid := by
  cases h with
  | @topup p hp hst =>
    simp only [PaymentIntent.toppedUp, Bool.and_eq_true, decide_eq_true_eq] at hst
    exact ⟨p, hp, hst.2⟩
  | payment hp hst => exact ⟨_, hp, hst⟩

/-- All legs of an event name the intent that paid for it, if one did. -/
theorem Db.LegsOf.reference (h : d.LegsOf e legs) : ∃ x, legs ≠ [] ∧
    (∀ leg ∈ legs, leg.referenceIntentId = x) ∧ d.cash e = (x.map d.amountOf).getD 0 ∧
    ∀ jid, x = some jid → d.PaidBy jid e := by
  cases h with
  -- Only a top-up and a payment through the gateway name an intent.
  | withdrawal => exact ⟨none, by simp [withdrawalLegs], by simp [withdrawalLegs], rfl, by simp⟩
  | deal h =>
    cases h with
    | @topup jid p wid g hp hst =>
      have hp : d.intents.get? jid = some p := hp
      refine ⟨some jid, by simp [topupLegs], by simp [topupLegs], rfl, ?_⟩
      rintro k ⟨⟩
      exact .topup hp hst
    | @payment iid i o wid g y x hi hst ho hw hg he hparts hx =>
      have hi : d.invoices.get? iid = some i := hi
      have hlegs : ∀ leg ∈ fundingLegs wid g y iid i.orderId x i.totalAmount i.amountFromWallet
          i.amountFromGateway, leg.referenceIntentId = x := by
        intro leg hleg
        unfold fundingLegs at hleg
        simp only [List.mem_append, List.mem_ite_nil_right, List.mem_singleton] at hleg
        rcases hleg with (⟨-, rfl⟩ | ⟨-, rfl⟩) | rfl <;> rfl
      refine ⟨x, by simp [fundingLegs], hlegs, ?_, ?_⟩
      · -- Either the wallet paid all of it, or an intent of the invoice is paid.
        rcases hx with ⟨rfl, hzero⟩ | ⟨k, p, rfl, hp, -, -, hamount⟩
        · simp [Db.cash, hi, hzero]
        · have hp : d.intents.get? k = some p := hp
          simp [Db.cash, Db.amountOf, hi, hp, hamount]
      · intro k hk
        rcases hx with ⟨rfl, -⟩ | ⟨l, p, rfl, hp, hpaid, href, -⟩
        · cases hk
        · obtain rfl := Option.some.inj hk
          exact .payment hp hpaid href
    | payout _ _ _ _ hlegs =>
      refine ⟨none, ?_, ?_, rfl, by simp⟩
      · cases hlegs <;> simp [releaseLegs, refundLegs, splitLegs]
      · intro leg hleg
        cases hlegs with
        | released =>
          unfold releaseLegs at hleg
          simp only [List.mem_append, List.mem_ite_nil_right, List.mem_cons, List.not_mem_nil,
            or_false] at hleg
          rcases hleg with ((rfl | rfl) | ⟨-, rfl⟩) | ⟨-, rfl⟩ <;> rfl
        | refunded =>
          simp only [refundLegs, List.mem_cons, List.not_mem_nil, or_false] at hleg
          rcases hleg with rfl | rfl <;> rfl
        | split =>
          unfold splitLegs at hleg
          simp only [List.mem_append, List.mem_ite_nil_right, List.mem_singleton] at hleg
          rcases hleg with (rfl | ⟨-, rfl⟩) | ⟨-, rfl⟩ <;> rfl

/-- What a group of an event names. -/
theorem Db.Records.named (h : d.Records e ts) : ts ≠ [] ∧
    (∀ t ∈ ts, t.referenceIntentId = Giftly.named ts) ∧
    d.cash e = ((Giftly.named ts).map d.amountOf).getD 0 ∧
    ∀ jid, Giftly.named ts = some jid → d.PaidBy jid e := by
  obtain ⟨c, legs, hlegs, hrows⟩ := h
  obtain ⟨x, hne, hx, hcash, hpaid⟩ := hlegs.reference
  have hts : ∀ t ∈ ts, t.referenceIntentId = x := by
    intro t ht
    obtain ⟨leg, hleg, hrow⟩ := exists_leg_of_mem hrows ht
    exact hrow.referenceIntentId.trans (hx leg hleg)
  have hne' : ts ≠ [] := by
    rintro rfl
    exact hne (List.forall₂_nil_right_iff.mp hrows)
  have hnamed : Giftly.named ts = x := by
    obtain ⟨t, us, rfl⟩ := List.exists_cons_of_ne_nil hne'
    exact hts t List.mem_cons_self
  rw [hnamed]
  exact ⟨hne', hts, hcash, hpaid⟩

end Groups

/-! ## The intents that the ledger names -/

section Journal

variable {d : Db} {js : List (Event × List Transaction)} {jid : Id}

/-- The intents that the groups of a journal name. -/
def namedIn (js : List (Event × List Transaction)) : List Id := js.filterMap fun j => named j.2

/-- The sum over the intents that a journal names, event by event. -/
theorem sum_namedIn (g : Id → ℤ) (js : List (Event × List Transaction)) :
    ((namedIn js).map g).sum = (js.map fun j => ((named j.2).map g).getD 0).sum := by
  unfold namedIn
  induction js with
  | nil => rfl
  | cons j js ih =>
    cases hn : named j.2 with
    | none => simp [hn, ih]
    | some jid => simp [hn, ih]

/-- A journal names the paid intents that the ledger names. -/
theorem Db.Journal.mem_namedIn (h : d.Journal js) : jid ∈ namedIn js ↔
    ∃ p, d.intents.get? jid = some p ∧ (p.status = .paid ∧ d.booked jid = true) := by
  unfold namedIn
  rw [List.mem_filterMap]
  constructor
  · -- A group has a row, and all its rows name the intent of the group.
    rintro ⟨j, hj, hn⟩
    obtain ⟨hne, hts, -, hpaid⟩ := (h.records j hj).named
    obtain ⟨p, hp, hst⟩ := (hpaid jid hn).intent
    refine ⟨p, hp, hst, ?_⟩
    obtain ⟨t, us, heq⟩ := List.exists_cons_of_ne_nil hne
    have ht : t ∈ j.2 := heq ▸ List.mem_cons_self
    unfold Db.booked
    rw [List.any_eq_true]
    refine ⟨t, ?_, ?_⟩
    · rw [h.rows]
      exact List.mem_flatMap.mpr ⟨j, hj, ht⟩
    · rw [hts t ht, hn]
      simp
  · -- A row of the ledger is in the group of one event.
    rintro ⟨p, -, -, hbooked⟩
    unfold Db.booked at hbooked
    rw [List.any_eq_true] at hbooked
    obtain ⟨t, ht, href⟩ := hbooked
    rw [h.rows] at ht
    obtain ⟨j, hj, htj⟩ := List.mem_flatMap.mp ht
    obtain ⟨-, hts, -⟩ := (h.records j hj).named
    exact ⟨j, hj, (hts t htj).symm.trans (by simpa using href)⟩

/-- No two groups name one intent. -/
theorem Db.Journal.nodup_namedIn (h : d.Journal js) (hd : DealsOk d.books) : (namedIn js).Nodup := by
  -- The groups are of different events, and an intent pays for one of them.
  have hnodup : (js.map Prod.fst).Nodup := h.events.nodup_iff.mpr d.nodup_events
  have hpairwise : js.Pairwise fun j j' => j ∈ js ∧ j' ∈ js ∧ j.1 ≠ j'.1 :=
    List.Pairwise.and_mem.mp (List.pairwise_map.mp hnodup)
  unfold namedIn
  apply List.Pairwise.filterMap _ _ hpairwise
  rintro j j' ⟨hj, hj', hne⟩ k hk k' hk'
  rintro rfl
  obtain ⟨-, -, -, hpaid⟩ := (h.records j hj).named
  obtain ⟨-, -, -, hpaid'⟩ := (h.records j' hj').named
  exact hne ((hpaid k hk).unique hd (hpaid' k hk'))

/-- The money that the events bring in is the money of the paid intents that the ledger names. -/
theorem Db.Journal.sum_cash (h : d.Journal js) (hd : DealsOk d.books) :
    (d.events.map d.cash).sum =
      d.intents.sum fun jid p => if p.status = .paid ∧ d.booked jid = true then p.amount else 0 := by
  -- The named intents are the paid ones that the ledger names, each once.
  have hperm : (namedIn js).Perm
      (d.intents.keysWhere fun jid p => p.status = .paid && d.booked jid) := by
    rw [List.perm_ext_iff_of_nodup (h.nodup_namedIn hd) (Table.nodup_keysWhere _ _)]
    intro jid
    rw [h.mem_namedIn, Table.mem_keysWhere]
    simp
  calc (d.events.map d.cash).sum = ((js.map Prod.fst).map d.cash).sum :=
        ((h.events.map _).sum_eq).symm
    _ = (js.map fun j => ((named j.2).map d.amountOf).getD 0).sum := by
        rw [List.map_map]
        apply congrArg List.sum
        apply List.map_congr_left
        intro j hj
        exact (h.records j hj).named.2.2.1
    _ = ((namedIn js).map d.amountOf).sum := (sum_namedIn _ _).symm
    _ = ((d.intents.keysWhere fun jid p => p.status = .paid && d.booked jid).map d.amountOf).sum :=
        (hperm.map _).sum_eq
    _ = d.intents.sum fun jid p => if p.status = .paid ∧ d.booked jid = true then p.amount else 0 := by
        apply Table.sum_keysWhere
        · intro jid p hp hcond
          simp only [Bool.and_eq_true, decide_eq_true_eq] at hcond
          simp [Db.amountOf, hp, hcond]
        · intro jid p _ hcond
          exact if_neg (by simpa using hcond)

end Journal

/-! ## The gateway account -/

section Gateway

variable {refresh : Bool} {s : Settings} {d₀ d : Db} {id oid jid : Id} {w : Wallet} {e : Event}

/-- A payout does not move the gateway account. -/
theorem payoutEntry_gateway (hu : w.userId = none) (ht : w.type = .systemGateway) (o : Order) :
    d.payoutEntry w oid o = 0 := by
  unfold Db.payoutEntry
  have hshare : ∀ u n, w.share u n = 0 := by
    intro u n
    simp [Wallet.share, hu]
  have haccount : ∀ t n, t ≠ .systemGateway → w.account t n = 0 := by
    intro t n hne
    unfold Wallet.account
    rw [ht]
    exact if_neg fun h => hne h.2.symm
  have hescrow := fun n => haccount .systemEscrow n (by decide)
  have htax := fun n => haccount .systemTaxPayable n (by decide)
  have hrevenue := fun n => haccount .systemRevenue n (by decide)
  cases o.status <;> cases o.courierId <;> simp [hshare, hescrow, htax, hrevenue]

/-- A deal moves on the gateway account what it brings in. -/
theorem moved_gateway (hu : w.userId = none) (ht : w.type = .systemGateway)
    (he : e ∈ d.books.events) : d.moved w e = -d.cash e := by
  cases e with
  -- A top-up brings in its amount.
  | topup jid =>
    obtain ⟨p, hp, hst⟩ := Books.mem_events_topup.mp he
    have hp : d.intents.get? jid = some p := hp
    simp [Db.moved, Db.cash, Db.amountOf, hp, PaymentIntent.entry, hst, Wallet.share, Wallet.account,
      hu, ht]
  -- A payment brings in what the wallet did not pay.
  | payment iid =>
    obtain ⟨i, hi, hst⟩ := Books.mem_events_payment.mp he
    have hi : d.invoices.get? iid = some i := hi
    have hnone : ((d.orders.get? i.orderId).map fun o => w.share o.customerId i.amountFromWallet).getD
        0 = 0 := by
      cases d.orders.get? i.orderId <;> simp [Wallet.share, hu]
    simp [Db.moved, Db.cash, hi, Db.paymentEntry, hst, hnone, Wallet.account, hu, ht]
  -- A payout moves nothing on the gateway account.
  | payout oid =>
    obtain ⟨o, ho, -⟩ := Books.mem_events_payout.mp he
    have ho : d.orders.get? oid = some o := ho
    simp [Db.moved, Db.cash, ho, payoutEntry_gateway hu ht]
  | withdrawal id => exact absurd he Books.mem_events_withdrawal

/-- What the events move on the gateway account: the withdrawals go out, the deals bring in. -/
theorem sum_moved_gateway (hu : w.userId = none) (ht : w.type = .systemGateway) :
    (d.events.map (d.moved w)).sum =
      d.withdrawals.sum (fun _ x => if x.status = .paid then x.amount else 0) -
        (d.events.map d.cash).sum := by
  -- A deal moves on the gateway account what it says in cash, with the other sign.
  have hdeals : (d.books.events.map (d.moved w)).sum = -(d.books.events.map d.cash).sum := by
    rw [List.sum_neg, List.map_map]
    apply congrArg List.sum
    exact List.map_congr_left fun e he => moved_gateway hu ht he
  -- A withdrawal is no cash from the gateway's events.
  have hout : ((d.withdrawals.keysWhere fun _ x => x.status = .paid).map
      (d.moved w ∘ Event.withdrawal)).sum =
        d.withdrawals.sum fun _ x => if x.status = .paid then x.amount else 0 := by
    apply Table.sum_keysWhere
    · intro id x hx hst
      have hst : x.status = .paid := by simpa using hst
      simp [Db.moved, hx, Withdrawal.entry, hst, Wallet.share, Wallet.account, hu, ht]
    · intro id x _ hno
      exact if_neg (by simpa using hno)
  have hnone : ((d.withdrawals.keysWhere fun _ x => x.status = .paid).map
      (d.cash ∘ Event.withdrawal)).sum = 0 := by
    apply List.sum_eq_zero
    intro n hn
    obtain ⟨id, -, rfl⟩ := List.mem_map.mp hn
    rfl
  unfold Db.events
  simp only [List.map_append, List.map_map, List.sum_append]
  rw [hdeals, hout, hnone]
  ring

/-- A paid intent that the ledger does not name is for an invoice that was paid otherwise. -/
theorem JournalOk.unbooked (h : JournalOk d) (hb : d.books.Billed) {p : PaymentIntent}
    (hp : d.intents.get? jid = some p) (hst : p.status = .paid) (hno : d.booked jid = false) :
    ∃ iid i, p.referenceInvoiceId = some iid ∧ d.invoices.get? iid = some i ∧ i.status = .paid := by
  -- A paid top-up has its group, which names it.
  have hpurpose : p.purpose = .orderInvoice := by
    by_contra hne
    have htop : p.toppedUp = true := by
      unfold PaymentIntent.toppedUp
      rw [hst]
      revert hne
      cases p.purpose <;> simp
    obtain ⟨js, hj⟩ := h.journal
    have hevent : .topup jid ∈ d.events :=
      Db.mem_events.mpr (.inl (Books.mem_events_topup.mpr ⟨p, hp, htop⟩))
    obtain ⟨j, hmem, hfst⟩ := List.mem_map.mp (hj.mem_iff.mpr hevent)
    obtain ⟨c, legs, hlegs, hrows⟩ := hj.records j hmem
    rw [hfst] at hlegs
    cases hlegs with
    | deal hlegs =>
      cases hlegs with
      | topup =>
        have hbooked : d.booked jid = true := by
          unfold topupLegs at hrows
          obtain ⟨t, us, hrow, -, hts⟩ := List.forall₂_cons_left_iff.mp hrows
          unfold Db.booked
          rw [List.any_eq_true]
          refine ⟨t, ?_, ?_⟩
          · rw [hj.rows]
            exact List.mem_flatMap.mpr ⟨j, hmem, hts ▸ List.mem_cons_self⟩
          · rw [hrow.referenceIntentId]
            simp
        rw [hno] at hbooked
        cases hbooked
  obtain ⟨iid, href⟩ := hb jid p hp hpurpose
  obtain ⟨i, hi, hpaid⟩ := h.intents jid p hp hst p iid hp href
  exact ⟨iid, i, href, hi, hpaid⟩

/-- Every intent for an invoice says which in every run. -/
theorem SerialRun.intents_billed {cond : Request → Db → Prop} (hrun : SerialRun refresh s cond d₀ d)
    (h₀ : Opening d₀) : d.books.Billed := by
  apply hrun.inv (I := fun d => d.books.Billed)
  · intro jid p hp
    have hp : d₀.intents.get? jid = some p := hp
    rw [h₀.intents, Table.get?_empty] at hp
    cases hp
  · intro r d _ h
    cases ht : r.trades with
    | true => exact h.step (Request.exec_effect (s := s) ht)
    | false => exact h.congr (Request.deals_exec ht).2.2

/-- In every state of every run, the gateway account is what the paid withdrawals took out less what
the paid intents that the ledger names brought in, and a paid intent that it does not name is for an
invoice, which is paid. -/
theorem gateway_reconciles (refresh : Bool) (s : Settings) (h₀ : Opening d₀)
    (hrun : SerialRun refresh s Request.asSwept d₀ d) :
    (∀ id w, d.wallets.get? id = some w → w.userId = none → w.type = .systemGateway →
      w.balance = d.withdrawals.sum (fun _ x => if x.status = .paid then x.amount else 0) -
        d.intents.sum fun jid p => if p.status = .paid ∧ d.booked jid = true then p.amount else 0) ∧
    ∀ jid p, d.intents.get? jid = some p → p.status = .paid → d.booked jid = false →
      ∃ iid i, p.referenceInvoiceId = some iid ∧ d.invoices.get? iid = some i ∧ i.status = .paid := by
  have h := hrun.journalOk h₀
  have hbilled := hrun.intents_billed h₀
  refine ⟨fun id w hw hu ht => ?_, fun jid p hp hst hno => h.unbooked hbilled hp hst hno⟩
  obtain ⟨js, hj⟩ := h.journal
  calc w.balance = d.statement w := h.balance (hrun.balanced h₀) hw
    _ = (d.events.map (d.moved w)).sum := (d.sum_moved w).symm
    _ = d.withdrawals.sum (fun _ x => if x.status = .paid then x.amount else 0) -
        (d.events.map d.cash).sum := sum_moved_gateway hu ht
    _ = d.withdrawals.sum (fun _ x => if x.status = .paid then x.amount else 0) -
        d.intents.sum fun jid p => if p.status = .paid ∧ d.booked jid = true then p.amount else 0 := by
      rw [hj.sum_cash h.deals]

end Gateway

/-! ## An invoice that is paid twice -/

namespace Sample

/-- The customer starts a payment through the gateway, tops up and pays from the wallet; then the
gateway reports the first payment. -/
def twicePaid : List Request :=
  [place, take, bill 601 none, checkOut 601 101] ++ topUp 102 20000 ++
    [checkOut 601 103, report 101 paid 12679]

/-- The database after it. -/
def twicePaidDb : Db := twicePaid.foldl (Request.exec false settings) opening

/-- The requests of the sample are a run. -/
theorem twicePaid_run : SerialRun false settings Request.asSwept opening twicePaidDb := by
  have hcustomer : ∃ v, opening.users.get? 1 = some v ∧ v.role = .customer := ⟨_, rfl, rfl⟩
  apply SerialRun.start.foldl_users
  intro r hr d hd
  simp only [twicePaid, topUp, List.cons_append, List.nil_append, List.mem_cons, List.not_mem_nil,
    or_false] at hr
  rw [← hd] at hcustomer
  rcases hr with rfl | rfl | rfl | rfl | rfl | rfl | rfl | rfl
  case inr.inr.inr.inl | inr.inr.inr.inr.inr.inr.inl => exact hcustomer
  all_goals exact trivial

end Sample

/-- The ledger of the sample has the top-up of 200.00 alone; the second payment of the invoice is in
none of its rows. -/
theorem gateway_reconciles_sample : ∃ g p iid i, Sample.twicePaidDb.wallets.get? 23 = some g ∧
    g.balance = -20000 ∧ Sample.twicePaidDb.intents.get? 101 = some p ∧ p.status = .paid ∧
    p.amount = 12679 ∧ p.referenceInvoiceId = some iid ∧
    Sample.twicePaidDb.invoices.get? iid = some i ∧ i.status = .paid := by
  have hgateway : (Sample.twicePaidDb.wallets.get? 23).any
      (fun w => w.userId = none && w.type = .systemGateway) = true := by decide +kernel
  have hintent : (Sample.twicePaidDb.intents.get? 101).any
      (fun p => p.status = .paid && p.amount = 12679) = true := by decide +kernel
  -- No group of the ledger names the second payment.
  have hunbooked : Sample.twicePaidDb.booked 101 = false := by decide +kernel
  have hsum : Sample.twicePaidDb.withdrawals.sum
        (fun _ x => if x.status = .paid then x.amount else 0) -
      Sample.twicePaidDb.intents.sum (fun jid p =>
        if p.status = .paid ∧ Sample.twicePaidDb.booked jid = true then p.amount else 0) =
      -20000 := by decide +kernel
  obtain ⟨g, hg, hmatch⟩ := (Option.any_eq_true _ _).mp hgateway
  obtain ⟨p, hp, hmatch'⟩ := (Option.any_eq_true _ _).mp hintent
  simp only [Bool.and_eq_true, decide_eq_true_eq] at hmatch hmatch'
  obtain ⟨hledger, hother⟩ :=
    gateway_reconciles false Sample.settings Sample.opening_ok Sample.twicePaid_run
  obtain ⟨iid, i, href, hi, hst⟩ := hother 101 p hp hmatch'.1 hunbooked
  have hbalance := hledger 23 g hg hmatch.1 hmatch.2
  rw [hsum] at hbalance
  exact ⟨g, p, iid, i, hg, hbalance, hp, hmatch'.1, hmatch'.2, href, hi, hst⟩

end Giftly
