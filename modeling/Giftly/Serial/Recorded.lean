import Giftly.Serial.Turns

/-!
# The journal over serial runs

The ledger refines the events: from any opening database, in every state that requests reach one
after the other, the ledger is made of exactly one group for each top-up, payment, payout and
withdrawal that the tables record, with the legs that the tables say. `JournalOk` is the invariant;
that a request never finds its key taken follows from the journal itself, since a key of the ledger is
of a recorded event.
-/

namespace Giftly

open Store OrderState
open WalletRepository MoneyService

/-- What holds in every state of a run: the ledger has a journal. -/
structure JournalOk (d : Db) : Prop extends WithdrawalsOk d where
  journal : ∃ js, d.Journal js
  buyers : BuyersOk d.books
  resolved : d.books.ResolvedOk
  intents : d.books.IntentsPaid

section Steps

variable {refresh : Bool} {s : Settings} {d d' : Db} {ts : List Tbl} {e : Event} {legs : List Leg}

/-- The owner of a wallet is a frozen column. -/
theorem Db.Evolves.owns {wid u : Id} (h : d.Evolves ts d') (ho : d.books.Owns wid u) :
    d'.books.Owns wid u := by
  obtain ⟨w, hw, hu⟩ := ho
  obtain ⟨w', hw', howner, -⟩ := h.owners.1 w hw
  exact ⟨w', hw', howner.trans hu⟩

/-- The type of a wallet is a frozen column. -/
theorem Db.Evolves.isSystem {t : WalletType} {g : Id} (h : d.Evolves ts d')
    (hg : d.books.IsSystem t g) : d'.books.IsSystem t g := IsSystem.evolves (d := d) hg h

/-- The rows that an event was read off stay. -/
theorem Db.LegsOf.keep {new : Option Event} (h : d.LegsOf e legs) (hev : d.Evolves ts d')
    (hadv : d.books.Advances d'.books new)
    (hpaid : ∀ id x, d.withdrawals.get? id = some x → x.status = .paid →
      d'.withdrawals.get? id = some x) : d'.LegsOf e legs := by
  cases h with
  | withdrawal hx hst hg => exact .withdrawal (hpaid _ _ hx hst) hst (hg.evolves hev)
  | deal h =>
    apply Db.LegsOf.deal
    cases h with
    | topup hp hst hw hg =>
      exact .topup (hadv.topups.keeps _ _ hp hst) hst (hev.owns hw) (hev.isSystem hg)
    | @payment iid i o wid g y x hi hst ho hw hg he hparts hx =>
      obtain ⟨o', ho', hf⟩ := hev.orders i.orderId o ho
      have hcustomer : o'.customerId = o.customerId := congrArg Prod.fst hf
      have hi' := hadv.invoices.keeps iid i hi (by simpa using hst)
      refine .payment hi' hst ho' (hcustomer ▸ hev.owns hw) (hev.isSystem hg) (hev.isSystem he)
        hparts ?_
      rcases hx with hx | ⟨jid, p, rfl, hp, hpst, hrest⟩
      · exact .inl hx
      · obtain ⟨k, hgains, -⟩ := hadv.settled
        exact .inr ⟨jid, p, rfl, hgains.keeps jid p hp (by simpa using hpst), hpst, hrest⟩
    | @payout oid o iid i outcome legs ho hi hio hst hlegs hsplit =>
      -- A paid out order is closed, so it and its resolved disputes stay.
      have hclosed : o.status.closed = true := by
        cases hlegs with
        | released hst | refunded hst | split hst => rw [hst]; rfl
      have ho' := hadv.orders.keeps oid o ho hclosed
      have hi' := hadv.invoices.keeps iid i hi (by simpa using hst)
      have hsplits := hadv.splits oid o ho hclosed
      exact .payout ho' hi' hio hst (hlegs.mono (fun _ _ => hev.owns) fun _ _ => hev.isSystem)
        (hsplit.trans hsplits.symm)

/-- The keys of payments and payouts, from the journal. -/
theorem Db.Journal.keysOk {js : List (Event × List Transaction)} (h : d.Journal js) :
    KeysOk d.books := by
  have hdeals : ∀ {f key}, key ∈ f.keys → key ∈ ledgerKeys d.books.transactions →
      (∀ id, f ≠ .withdrawal id) → f ∈ d.books.events := by
    intro f key hf hkey hne
    rcases Db.mem_events.mp (h.mem_of_key hf hkey) with hmem | ⟨id, x, rfl, -⟩
    · exact hmem
    · exact absurd rfl (hne id)
  constructor
  · intro iid hkey
    have hmem : .payment iid ∈ d.books.events :=
      hdeals (List.mem_singleton_self _) hkey fun _ => Event.noConfusion
    exact Books.mem_events_payment.mp hmem
  · intro oid key hpayout hkey
    have hmem : .payout oid ∈ d.books.events := hdeals hpayout hkey fun _ => Event.noConfusion
    obtain ⟨o, ho, hclosed⟩ := Books.mem_events_payout.mp hmem
    refine ⟨o, ho, ?_⟩
    revert hclosed
    cases o.status <;> simp [OrderStatus.closed]

/-- A turn of the deals. -/
theorem Db.Journal.turn {js : List (Event × List Transaction)} (h : d.Journal js)
    (hev : d.Evolves ts d') (hw : d'.withdrawals = d.withdrawals)
    (hturn : d.books.Turn d'.books) : ∃ js', d'.Journal js' := by
  have hpaid : ∀ id x, d.withdrawals.get? id = some x → x.status = .paid →
      d'.withdrawals.get? id = some x := by
    rw [hw]
    exact fun _ _ hx _ => hx
  -- The events of the withdrawals are the same.
  have hmem : ∀ f, f ∈ d'.events ↔ f ∈ d'.books.events ∨
      ∃ id x, f = .withdrawal id ∧ d.withdrawals.get? id = some x ∧ x.status = .paid := by
    intro f
    rw [Db.mem_events, hw]
  cases hturn with
  | quiet hadv ht =>
    refine ⟨js, h.quiet ht (fun f => ?_) fun f legs hlegs => hlegs.keep hev hadv hpaid⟩
    rw [hmem, hadv.mem_events (by simp), Db.mem_events]
    simp
  | @recorded e c legs us hadv hnew hlegs ht hrows =>
    have hadded : ∀ g, some e = some g → g ∈ d'.books.events := by
      rintro g ⟨⟩
      exact hlegs.mem_events
    refine ⟨js ++ [(e, us)], h.record ht (fun f => ?_) ?_ (fun f legs hf => hf.keep hev hadv hpaid)
      ⟨c, legs, .deal hlegs, hrows⟩⟩
    · rw [hmem, hadv.mem_events hadded, Db.mem_events]
      constructor
      · rintro ((hf | hf) | hf)
        · exact .inl (.inl hf)
        · exact .inr (Option.some.inj hf).symm
        · exact .inl (.inr hf)
      · rintro ((hf | hf) | rfl)
        · exact .inl (.inl hf)
        · exact .inr hf
        · exact .inl (.inr rfl)
    · intro he
      rcases Db.mem_events.mp he with he | ⟨id, x, rfl, -⟩
      · exact hnew he
      · exact Books.mem_events_withdrawal hlegs.mem_events

/-- A withdrawal was paid. -/
def Withdrawal.settled (x : Withdrawal) : Bool := x.status = .paid

/-- The events are the same but for the withdrawals that came to be paid. -/
theorem Db.mem_events_of_gains {new : Option Id} (hbooks : d.books.Advances d'.books none)
    (hg : Table.Gains Withdrawal.settled new d.withdrawals d'.withdrawals)
    (hnew : ∀ id, new = some id → ∃ x, d'.withdrawals.get? id = some x ∧ x.settled = true) :
    e ∈ d'.events ↔ e ∈ d.events ∨ ∃ id, new = some id ∧ e = .withdrawal id := by
  have hdeals : e ∈ d'.books.events ↔ e ∈ d.books.events := by
    rw [hbooks.mem_events (by simp)]
    simp
  cases e with
  | withdrawal id =>
    have hmem := hg.mem_keysWhere (k := id) hnew
    simp only [Table.mem_keysWhere, Withdrawal.settled, decide_eq_true_eq] at hmem
    rw [Db.mem_events_withdrawal, Db.mem_events_withdrawal, hmem]
    simp
  | topup | payment | payout => simp [Db.mem_events, hdeals]

/-- A request about withdrawals: nothing, or the payout of one. -/
theorem Db.Journal.draw {js : List (Event × List Transaction)} {r : Request} (h : d.Journal js)
    (hev : d.Evolves ts d') (hbooks : d.books.Advances d'.books none)
    (hdraw : Drawing d r d') : ∃ js', d'.Journal js' := by
  have hkeep : ∀ {new}, Table.Gains Withdrawal.settled new d.withdrawals d'.withdrawals →
      ∀ f legs, d.LegsOf f legs → d'.LegsOf f legs := fun hg f legs hlegs =>
    hlegs.keep hev hbooks fun id x hx hst => hg.keeps id x hx (by simpa [Withdrawal.settled] using hst)
  -- A step that writes no paid withdrawal and no row of the ledger.
  have hquiet : d'.transactions = d.transactions →
      Table.Gains Withdrawal.settled none d.withdrawals d'.withdrawals → ∃ js', d'.Journal js' := by
    intro ht hg
    refine ⟨js, h.quiet ht (fun f => ?_) (hkeep hg)⟩
    rw [Db.mem_events_of_gains hbooks hg (by simp)]
    simp
  have hunpaid : ∀ {id x}, d.withdrawals.get? id = some x → x.status ≠ .paid →
      ∀ y, d.withdrawals.get? id = some y → y.settled = false := by
    intro id x hx hst y hy
    obtain rfl : x = y := Option.some.inj (hx.symm.trans hy)
    simpa [Withdrawal.settled] using hst
  cases hdraw with
  | idle => exact ⟨js, h⟩
  | requested hfree hx =>
    apply hquiet rfl
    apply Table.Gains.set
    · intro y hy
      have hy : d.withdrawals.get? _ = some y := hy
      rw [hfree] at hy
      cases hy
    · simp [Withdrawal.settled, hx.2.1]
  | approved hx hst =>
    apply hquiet rfl
    apply Table.Gains.set (hunpaid hx (by rw [hst]; decide))
    simp [Withdrawal.settled, Withdrawal.moved]
  | rejected hx hst =>
    apply hquiet rfl
    apply Table.Gains.set (hunpaid hx ?_)
    · simp [Withdrawal.settled, Withdrawal.moved]
    · rcases hst with hst | hst <;> (rw [hst]; decide)
  | @paid c id a x g w d₁ hx hst hrow hg hp hw hcheck hadmin =>
    have hne : x.status ≠ .paid := by
      rw [hst]
      decide
    obtain ⟨us, hposted⟩ := hp
    have hd₁ : d₁.withdrawals = d.withdrawals ∧ d₁.transactions = d.transactions ++ us := by
      rw [hposted.eq]
      exact ⟨rfl, rfl⟩
    have hgains : Table.Gains Withdrawal.settled (some id) d.withdrawals
        (d₁.withdrawals.set id (x.moved .paid a none)) := by
      rw [hd₁.1]
      exact Table.Gains.set (hunpaid hx hne) fun _ => rfl
    have hrow' : (d₁.withdrawals.set id (x.moved .paid a none)).get? id =
        some (x.moved .paid a none) := by simp
    -- The withdrawal was approved and not paid yet.
    have hnew : .withdrawal id ∉ d.events := by
      rw [Db.mem_events_withdrawal]
      rintro ⟨y, hy, hpaid⟩
      obtain rfl : x = y := Option.some.inj (hx.symm.trans hy)
      exact hne hpaid
    refine ⟨js ++ [(.withdrawal id, us)], h.record hd₁.2 (fun f => ?_) hnew (hkeep hgains)
      ⟨c, _, .withdrawal hrow' rfl (hg.evolves hev), hposted.rows⟩⟩
    rw [Db.mem_events_of_gains hbooks hgains fun k hk => ?_]
    · simp
    · obtain rfl := Option.some.inj hk
      exact ⟨_, hrow', rfl⟩

/-- Every request keeps the invariant. -/
theorem JournalOk.exec {r : Request} (h : JournalOk d) (hr : r.asSwept d) :
    JournalOk (r.exec refresh s d) := by
  obtain ⟨js, hj⟩ := h.journal
  have hev := r.exec_evolves refresh s d
  have hrouted := Request.asRouted_of_asSwept hr
  have hwithdrawals : WithdrawalsOk (r.exec refresh s d) := h.toWithdrawalsOk.exec hrouted
  have hown : ∀ wid u, d.books.Owns wid u → (r.exec refresh s d).books.Owns wid u := fun _ _ =>
    hev.owns
  have hsys : ∀ t g, d.books.IsSystem t g → (r.exec refresh s d).books.IsSystem t g := fun _ _ =>
    hev.isSystem
  cases ht : r.trades with
  -- The requests about withdrawals.
  | false =>
    have hdraw : Drawing d r (r.exec refresh s d) := Request.exec_drawing ht
    obtain ⟨horders, hinvoices, hintents⟩ := Request.deals_exec (s := s) (d := d) ht
    have hdisputes : (r.exec refresh s d).disputes = d.disputes := by
      apply hev.same .disputes
      revert ht
      cases r <;> simp [Request.trades, Request.tables]
    have hbooks : d.books.Advances (r.exec refresh s d).books none :=
      .of_eq horders hinvoices hintents hdisputes
    exact { hwithdrawals with
      journal := hj.draw hev hbooks hdraw
      buyers := h.buyers.congr hev.users horders hinvoices hintents
      resolved := h.resolved.keep hbooks hdisputes
      intents := h.intents.keep hbooks }
  | true =>
    have heff : Effect s d.books r (r.exec refresh s d).books := Request.exec_effect ht
    have hbuyers := h.buyers.step hrouted heff
    have hw : (r.exec refresh s d).withdrawals = d.withdrawals := Request.withdrawals_exec ht
    have hkeys := hj.keysOk
    cases hc : r.closes with
    -- The requests that close orders.
    | true =>
      obtain ⟨hturn, hresolved⟩ :=
        (Request.exec_closing hc h.deals).turn hkeys h.resolved hown hsys
      obtain ⟨new, hadv⟩ := hturn.advances
      exact { hwithdrawals with
        journal := hj.turn hev hw hturn
        buyers := hbuyers
        resolved := hresolved
        intents := h.intents.keep hadv }
    -- All others: a key of a top-up in the ledger is of a top-up that the tables record.
    | false =>
      have htopups : ∀ jid, .topup jid ∈ ledgerKeys d.books.transactions →
          .topup jid ∈ d.books.events := by
        intro jid hkey
        have hmem := hj.mem_of_key (e := .topup jid) (List.mem_singleton_self _) hkey
        rcases Db.mem_events.mp hmem with hmem | ⟨id, x, heq, -⟩
        · exact hmem
        · cases heq
      have hturn := heff.turn h.deals hkeys h.buyers htopups hown hsys hr hc
      have hdisputes : (r.exec refresh s d).disputes = d.disputes := by
        apply hev.same .disputes
        revert hc
        cases r <;> simp [Request.closes, Request.tables]
      obtain ⟨new, hadv⟩ := hturn.advances
      exact { hwithdrawals with
        journal := hj.turn hev hw hturn
        buyers := hbuyers
        resolved := h.resolved.keep hadv hdisputes
        intents := h.intents.keep hadv }

end Steps

/-! ## Runs -/

section Runs

variable {refresh : Bool} {s : Settings} {d₀ d : Db}

/-- An opening database records nothing. -/
theorem Opening.journalOk (h : Opening d) : JournalOk d where
  toWithdrawalsOk := h.withdrawalsOk
  -- Every table is empty, so no event happened and no row was written.
  journal := by
    have hevents : d.events = [] := by
      unfold Db.events Books.events Db.books
      rw [h.orders, h.invoices, h.intents, h.withdrawals]
      rfl
    exact ⟨[], h.transactions, by rw [hevents]; exact .nil, by simp⟩
  buyers := by
    have ho : ∀ id, d.books.orders.get? id = none := fun id => by
      change d.orders.get? id = none
      rw [h.orders, Table.get?_empty]
    have hp : ∀ id, d.books.intents.get? id = none := fun id => by
      change d.intents.get? id = none
      rw [h.intents, Table.get?_empty]
    constructor <;> simp [ho, hp]
  resolved xid x hx := by
    have hx : d.disputes.get? xid = some x := hx
    rw [h.disputes, Table.get?_empty] at hx
    cases hx
  intents jid p hp := by
    have hp : d.intents.get? jid = some p := hp
    rw [h.intents, Table.get?_empty] at hp
    cases hp

/-- The ledger has a journal in every state of a run. -/
theorem SerialRun.journalOk (hrun : SerialRun refresh s Request.asSwept d₀ d) (h₀ : Opening d₀) :
    JournalOk d :=
  hrun.inv h₀.journalOk fun _ _ hr h => h.exec hr

/-- In every state of every run, the ledger is made of one group for each top-up that was paid for,
each paid invoice, each order that was completed or refunded, and each paid withdrawal, with the legs
that the tables say, and of nothing else. -/
theorem ledger_records_events (refresh : Bool) (s : Settings) (h₀ : Opening d₀)
    (hrun : SerialRun refresh s Request.asSwept d₀ d) : ∃ js, d.Journal js :=
  (hrun.journalOk h₀).journal

/-- No request changes the accounts. -/
theorem SerialRun.users {cond : Request → Db → Prop} (hrun : SerialRun refresh s cond d₀ d) :
    d.users = d₀.users :=
  hrun.inv (I := fun d => d.users = d₀.users) rfl fun r d _ h =>
    (r.exec_evolves refresh s d).users.trans h

/-- Requests that go on with a run, while they leave the users. -/
theorem SerialRun.foldl_users {cond : Request → Db → Prop} (hrun : SerialRun refresh s cond d₀ d)
    {rs : List Request} (h : ∀ r ∈ rs, ∀ d, d.users = d₀.users → cond r d) :
    SerialRun refresh s cond d₀ (rs.foldl (Request.exec refresh s) d) := by
  induction rs generalizing d with
  | nil => exact hrun
  | cons r rs ih =>
    have hstep := hrun.step r (h r List.mem_cons_self d hrun.users)
    exact ih hstep fun r' hr' => h r' (List.mem_cons_of_mem r hr')

end Runs

/-! ## An order from its top-up to the withdrawal -/

namespace Sample

/-- The customer tops up and pays an order, whose dispute is resolved by a split; the courier withdraws
the part. -/
def lifetime : List Request :=
  topUp 102 10000 ++ [place, take, bill 601 none, checkOut 601 101, report 101 paid 2679,
    .raiseDispute 0 801 401 1 ['x'],
    .resolveDispute 0 902 801 3 .resolvedSplit none (some (.finite ⟨6000, -2⟩)), askFor,
    .approveWithdrawal 701 3, .markPaid 900 701 3]

/-- The database after it. -/
def closedDb : Db := lifetime.foldl (Request.exec false settings) opening

/-- The requests of the sample are a run. -/
theorem lifetime_run : SerialRun false settings Request.asSwept opening closedDb := by
  have hcustomer : ∃ v, opening.users.get? 1 = some v ∧ v.role = .customer := ⟨_, rfl, rfl⟩
  have hcourier : ∃ v, opening.users.get? 2 = some v ∧ v.role = .courier := ⟨_, rfl, rfl⟩
  apply SerialRun.start.foldl_users
  intro r hr d hd
  simp only [lifetime, topUp, List.cons_append, List.nil_append, List.mem_cons, List.not_mem_nil,
    or_false] at hr
  rcases hr with rfl | rfl | rfl | rfl | rfl | rfl | rfl | rfl | rfl | rfl | rfl | rfl
  case inr.inr.inr.inr.inr.inl =>
    rw [← hd] at hcustomer
    exact hcustomer
  case inr.inr.inr.inr.inr.inr.inr.inr.inr.inl =>
    rw [← hd] at hcourier
    exact hcourier
  all_goals exact trivial

/-- The events of the sample, one of each kind. -/
theorem closed_events : closedDb.events =
    [.topup 102, .payment 601, .payout 401, .withdrawal 701] := by decide +kernel

end Sample

/-- The journal of the sample has its four events. -/
theorem ledger_records_sample : ∃ js, Sample.closedDb.Journal js ∧ js.length = 4 := by
  obtain ⟨js, hj⟩ :=
    ledger_records_events false Sample.settings Sample.opening_ok Sample.lifetime_run
  have hlength := hj.events.length_eq
  rw [Sample.closed_events, List.length_map] at hlength
  exact ⟨js, hj, hlength⟩

end Giftly
