import Giftly.Concurrency.Operations
import Giftly.Seed

/-!
# Settlement of payments

Webhooks, payments from the wallet, cancellations and sweeps race on an invoice and on its payment
intents. A settlement posts a group under the key of the intent or of the invoice, and a payment
that finds the key in the ledger goes on without posting. The policy's invariant says that no key
is in the ledger twice, that a top-up credits the amount of its intent, and that the paid invoices
are those whose escrow key is in the ledger.
-/

namespace Giftly

open Store OrderState
open WalletRepository MoneyService

/-- An invoice has a status. -/
def InvoiceIs (x : InvoiceStatus) (d : Db) (iid : Id) : Prop :=
  ∃ i, d.invoices.get? iid = some i ∧ i.status = x

/-- Every key was posted once, a top-up credited the amount of its intent, and the paid invoices are
those whose escrow was funded. -/
structure SettledOnce (d : Db) : Prop where
  nodup : (ledgerKeys d.transactions).Nodup
  topup : ∀ t ∈ d.transactions, ∀ id, t.idempotencyKey = some (.topup id) →
    ∃ p, d.intents.get? id = some p ∧ t.amount = p.amount
  paid : ∀ iid, .escrow iid ∈ ledgerKeys d.transactions ↔ InvoiceIs .paid d iid

/-- What one commit does: it posts under a new key, or it appends no ledger row. In the second case
it changes a wallet only when it starts a payment through the gateway or expires an invoice. -/
def PostsOrKeeps (d d' : Db) : Prop :=
  (∃ key, key ∉ ledgerKeys d.transactions ∧ key ∈ ledgerKeys d'.transactions) ∨
    d'.transactions = d.transactions ∧
      (d'.wallets = d.wallets ∨ (∃ id, d.intents.get? id = none ∧ (d'.intents.get? id).isSome) ∨
        ∃ iid, ¬InvoiceIs .expired d iid ∧ InvoiceIs .expired d' iid)

/-- The tables that payments and their sweeps write. -/
def paymentTables : List Tbl :=
  [.wallets, .transactions, .orders, .invoices, .promos, .redemptions, .intents]

/-- The policy of payments and their sweeps. -/
def settlementPolicy : Policy where
  tables := paymentTables
  inv := SettledOnce
  guar := PostsOrKeeps
  guar_refl _ := .inr ⟨rfl, .inl rfl⟩

namespace SettlementProof

/-! ## Assertions -/

variable {v : TxView} {iid id c : Id} {refresh : Bool} {key : IdempotencyKey}

/-- The invoice that the group of a key pays. -/
def claimOf : IdempotencyKey → Option Id
  | .escrow iid => some iid
  | _ => none

/-- The paid invoices after a commit: those before it, and perhaps one more. -/
def Pays (claim : Option Id) (v : TxView) : Prop :=
  ∀ d, settlementPolicy.around.rely v.held v.last d →
    ∀ j, InvoiceIs .paid (v.pending d) j ↔ claim = some j ∨ InvoiceIs .paid d j

/-- The transaction has posted a group under a key that is not in the ledger. -/
def Posts (key : IdempotencyKey) (v : TxView) : Prop :=
  ∀ d, settlementPolicy.around.rely v.held v.last d →
    ∃ rows, (v.pending d).transactions = d.transactions ++ rows ∧ ledgerKeys rows = [key] ∧
      key ∉ ledgerKeys d.transactions ∧
      ∀ id, key = .topup id → ∃ p, d.intents.get? id = some p ∧
        ∀ t ∈ rows, t.idempotencyKey = some key → t.amount = p.amount

/-- A key is in the ledger. -/
def Known (key : IdempotencyKey) (v : TxView) : Prop := key ∈ ledgerKeys v.last.transactions

/-- The transaction has opened a payment intent. -/
def Started (id : Id) (v : TxView) : Prop :=
  ∀ d, settlementPolicy.around.rely v.held v.last d →
    d.intents.get? id = none ∧ ((v.pending d).intents.get? id).isSome = true

/-- The transaction has expired an invoice. -/
def Expires (iid : Id) (v : TxView) : Prop :=
  ∀ d, settlementPolicy.around.rely v.held v.last d →
    ¬InvoiceIs .expired d iid ∧ InvoiceIs .expired (v.pending d) iid

/-- The transaction has changed no wallet, or it has a reason to. -/
def Still (v : TxView) : Prop := WalletsClean v ∨ (∃ id, Started id v) ∨ ∃ iid, Expires iid v

/-- The transaction has posted nothing, and pays at most an invoice whose escrow was funded. -/
def Quiet (v : TxView) : Prop :=
  (LedgerClean v ∧ Still v) ∧ ∃ claim, Pays claim v ∧ ∀ iid, claim = some iid → Known (.escrow iid) v

/-- The transaction can be committed. -/
def Done (v : TxView) : Prop :=
  settlementPolicy.Framed v ∧ ((∃ key, Posts key v ∧ Pays (claimOf key) v) ∨ Quiet v)

/-- Being framed does not depend on what the tables hold. -/
theorem robust_framed : Robust settlementPolicy paymentTables settlementPolicy.Framed :=
  Policy.robust_framed

/-- The tables that do not decide which invoices are paid, and that nothing is posted to. -/
def others : List Tbl := [.orders, .promos, .redemptions, .intents]

/-- Writes to other tables pay no invoice. -/
theorem robust_pays (claim : Option Id) :
    Robust settlementPolicy (.wallets :: .transactions :: others) (Pays claim) :=
  .ofReach (B := fun d x => ∀ j, InvoiceIs .paid x j ↔ claim = some j ∨ InvoiceIs .paid d j)
    fun _ _ _ hxy hx j => by
      rw [InvoiceIs, hxy.invoices_eq (by decide)]
      exact hx j

/-- Writes to other tables post nothing. -/
theorem robust_posts : Robust settlementPolicy (.wallets :: .invoices :: others) (Posts key) :=
  .ofReach (B := fun d x => ∃ rows, x.transactions = d.transactions ++ rows ∧
      ledgerKeys rows = [key] ∧ key ∉ ledgerKeys d.transactions ∧
      ∀ id, key = .topup id → ∃ p, d.intents.get? id = some p ∧
        ∀ t ∈ rows, t.idempotencyKey = some key → t.amount = p.amount)
    fun _ _ _ hxy hx => by
      rw [hxy.transactions_eq (by decide)]
      exact hx

/-- A key of the ledger stays in it. -/
theorem robust_known (ts : List Tbl) : Robust settlementPolicy ts (Known key) :=
  .lasting (A := fun d => key ∈ ledgerKeys d.transactions) fun _ _ _ hev _ h =>
    (hev.transactions.filterMap _).subset h

/-- An intent that is opened stays opened over the writes of a payment. -/
theorem robust_started : Robust settlementPolicy paymentTables (Started id) :=
  .ofReach (B := fun d x => d.intents.get? id = none ∧ (x.intents.get? id).isSome = true)
    fun _ _ _ hxy hx => by
      obtain ⟨p, hp⟩ := Option.isSome_iff_exists.mp hx.2
      obtain ⟨p', hp', -⟩ := hxy.intents id p hp
      exact ⟨hx.1, by simp [hp']⟩

/-- Writes to other tables leave an invoice expired. -/
theorem robust_expires : Robust settlementPolicy (.wallets :: .transactions :: others) (Expires iid) :=
  .ofReach (B := fun d x => ¬InvoiceIs .expired d iid ∧ InvoiceIs .expired x iid)
    fun _ _ _ hxy hx => by
      rw [InvoiceIs, InvoiceIs, hxy.invoices_eq (by decide)]
      exact hx

/-- Writes to other tables change no wallet. -/
theorem robust_still : Robust settlementPolicy others Still :=
  (robust_walletsClean (by decide)).or
    ((Robust.any fun _ => robust_started.mono (by decide)).or
      (.any fun _ => robust_expires.mono (by decide)))

/-- Writes to other tables neither post nor pay. -/
theorem robust_quiet : Robust settlementPolicy others Quiet :=
  ((robust_ledgerClean (by decide)).and robust_still).and
    (.any fun claim => ((robust_pays claim).mono (by decide)).and
      (.lasting (A := fun d => ∀ iid, claim = some iid → .escrow iid ∈ ledgerKeys d.transactions)
        fun _ _ _ hev _ h iid hi => (hev.transactions.filterMap _).subset (h iid hi)))

/-- A transaction that may commit may still do so after writes to other tables. -/
theorem robust_done : Robust settlementPolicy others Done :=
  (robust_framed.mono (by decide)).and
    ((Robust.any fun key => (robust_posts.mono (by decide)).and
      ((robust_pays (claimOf key)).mono (by decide))).or robust_quiet)

/-! ## Commits -/

/-- The amount of an intent never changes. -/
theorem amount_of_evolves {ts : List Tbl} {d d' : Db} {n : ℤ} (hev : d.Evolves ts d')
    (h : ∃ p, d.intents.get? id = some p ∧ n = p.amount) :
    ∃ p, d'.intents.get? id = some p ∧ n = p.amount := by
  obtain ⟨p, hp, rfl⟩ := h
  obtain ⟨p', hp', hf⟩ := hev.intents id p hp
  exact ⟨p', hp', (congrArg PaymentIntent.amount hf).symm⟩

/-- A posting under a new key. -/
theorem settledOnce_of_posts {d d' : Db} {rows : List Transaction}
    (hev : d.Evolves paymentTables d') (hrows : d'.transactions = d.transactions ++ rows)
    (hkeys : ledgerKeys rows = [key]) (hfresh : key ∉ ledgerKeys d.transactions)
    (hamount : ∀ id, key = .topup id → ∃ p, d.intents.get? id = some p ∧
      ∀ t ∈ rows, t.idempotencyKey = some key → t.amount = p.amount)
    (hpaid : ∀ j, InvoiceIs .paid d' j ↔ claimOf key = some j ∨ InvoiceIs .paid d j)
    (h : SettledOnce d) : SettledOnce d' := by
  have hkeys' : ledgerKeys d'.transactions = ledgerKeys d.transactions ++ [key] := by
    rw [hrows, ledgerKeys_append, hkeys]
  refine ⟨?_, fun t ht id hid => ?_, fun iid => ?_⟩
  · -- The key is new, so no key is there twice.
    rw [hkeys', List.nodup_append]
    refine ⟨h.nodup, List.nodup_singleton key, fun a ha b hb => ?_⟩
    rw [List.mem_singleton.mp hb]
    exact fun h => hfresh (h ▸ ha)
  · -- A row of a top-up is an old one, or shows the amount of its intent.
    rw [hrows, List.mem_append] at ht
    rcases ht with ht | ht
    · exact amount_of_evolves hev (h.topup t ht id hid)
    · have hmem : .topup id ∈ ledgerKeys rows := List.mem_filterMap.mpr ⟨t, ht, hid⟩
      rw [hkeys, List.mem_singleton] at hmem
      obtain ⟨p, hp, hall⟩ := hamount id hmem.symm
      exact amount_of_evolves hev ⟨p, hp, hall t ht (hmem ▸ hid)⟩
  · have hclaim : .escrow iid ∈ [key] ↔ claimOf key = some iid := by
      cases key <;> simp [claimOf, eq_comm]
    rw [hkeys', List.mem_append, h.paid iid, hpaid iid, hclaim, or_comm]

/-- What can be committed meets the policy. -/
theorem safe_of_done (h : Done v) : settlementPolicy.Safe v := by
  intro d hd
  obtain ⟨hf, ⟨key, hposts, hpays⟩ | ⟨⟨hclean, hstill⟩, claim, hpays, hknown⟩⟩ := h
  · -- Something was posted, under a key of its own.
    obtain ⟨rows, hrows, hkeys, hfresh, hamount⟩ := hposts d hd
    refine ⟨settledOnce_of_posts (hf d).1 hrows hkeys hfresh hamount (hpays d hd) hd.1, trivial,
      .inl ⟨key, hfresh, ?_⟩, fun _ _ => trivial⟩
    rw [hrows, ledgerKeys_append, hkeys]
    exact List.mem_append_right _ (List.mem_singleton_self key)
  · -- Nothing was posted.
    refine ⟨⟨?_, fun t ht id hid => ?_, fun iid => ?_⟩, trivial, .inr ⟨hclean d, ?_⟩,
      fun _ _ => trivial⟩
    · rw [hclean d]
      exact hd.1.nodup
    · rw [hclean d] at ht
      exact amount_of_evolves (hf d).1 (hd.1.topup t ht id hid)
    · -- The escrow of an invoice that is claimed without a posting was funded before.
      rw [hclean d, hpays d hd iid, hd.1.paid iid]
      refine ⟨.inr, fun h => h.elim (fun hc => ?_) id⟩
      have hlast : .escrow iid ∈ ledgerKeys d.transactions :=
        ((Policy.rely_evolves hd).transactions.filterMap _).subset (hknown iid hc)
      exact (hd.1.paid iid).mp hlast
    · rcases hstill with h | ⟨id, h⟩ | ⟨iid, h⟩
      · exact .inl (h d)
      · exact .inr (.inl ⟨id, h d hd⟩)
      · exact .inr (.inr ⟨iid, h d hd⟩)

/-! ## Postings -/

/-- The transaction has posted nothing, and written no wallet and no invoice. -/
def Idle (v : TxView) : Prop :=
  ((LedgerClean v ∧ WalletsClean v) ∧ InvoicesClean v) ∧ settlementPolicy.Framed v

/-- Writes to other tables leave a transaction idle. -/
theorem robust_idle : Robust settlementPolicy others Idle :=
  (((robust_ledgerClean (by decide)).and (robust_walletsClean (by decide))).and
    (robust_invoicesClean (by decide))).and (robust_framed.mono (by decide))

/-- A transaction begins idle. -/
theorem idle_start {m : Memory} {d : Db} : Idle (.start m d) :=
  ⟨⟨⟨fun _ => rfl, fun _ => rfl⟩, fun _ => rfl⟩, fun d => ⟨.refl _ d, fun l _ => .refl l d⟩⟩

/-- A transaction that has not written the invoices pays none. -/
theorem pays_of_clean (h : InvoicesClean v) : Pays none v := by
  intro d _ j
  rw [InvoiceIs, h d]
  exact ⟨.inr, fun h => h.resolve_left (by simp)⟩

/-- What pays no invoice and posts nothing is quiet. -/
theorem quiet_of_pays (h : Pays none v) (hc : LedgerClean v) (hs : Still v) : Quiet v :=
  ⟨⟨hc, hs⟩, none, h, by simp⟩

/-- An idle transaction may commit. -/
theorem done_of_idle (h : Idle v) : Done v :=
  ⟨h.2, .inr (quiet_of_pays (pays_of_clean h.1.2) h.1.1.1 (.inl h.1.1.2))⟩

/-- A booked group with a single key. -/
theorem posts_of_booked {legs : List Leg} {v₀ v' : TxView}
    (hb : BookedAfter settlementPolicy refresh c legs v v₀ v') (hkeys : legKeys legs = [key])
    (hc : LedgerClean v)
    (hamount : ∀ id, key = .topup id → ∃ p, HeldIntent id p v ∧
      ∀ leg ∈ legs, leg.idempotencyKey = some key → leg.amount.coeff = p.amount) :
    Posts key v' := by
  obtain ⟨hprep, v₁, loaded, assigned, rows, d, hb, rfl⟩ := hb
  intro d' hd'
  have hkey : key ∈ legKeys legs := hkeys ▸ List.mem_singleton_self key
  refine ⟨rows, ?_, ?_, ?_, fun id hid => ?_⟩
  · simp only [booked, Function.comp_apply, Db.post, hprep.later.pending, hc d']
  · rw [rows_keys hb.applied.rows, hkeys]
  · -- The key was not in the ledger when the group was posted.
    have hfresh := hb.fresh hkey
    rw [hprep.later.pending, hc d] at hfresh
    exact fun h => hfresh ((Policy.rely_key hd' (Booking.key_mem_held hkey)).mp h)
  · -- The amount is that of the intent, whose lock the session holds.
    obtain ⟨p, hheld, hall⟩ := hamount id hid
    have hrobust : Robust settlementPolicy [] (HeldIntent id p) := robust_heldIntent p
    obtain ⟨hl, hp⟩ := hrobust.later hheld hprep.later
    refine ⟨p, (Policy.rely_intent (hb.reach_start hd') hl).trans hp, fun t ht htk => ?_⟩
    obtain ⟨leg, hleg, hrow⟩ := exists_leg_of_mem hb.applied.rows ht
    rw [hrow.amount]
    exact hall leg hleg (hrow.idempotencyKey ▸ htk)

/-- The transaction has written no invoice. -/
def Loose (v : TxView) : Prop := InvoicesClean v ∧ settlementPolicy.Framed v

/-- Writes to other tables leave the invoices unwritten. -/
theorem robust_loose : Robust settlementPolicy (.wallets :: .transactions :: others) Loose :=
  (robust_invoicesClean (by decide)).and (robust_framed.mono (by decide))

/-- `credit_topup` posts the amount of the locked intent under the key of the intent, or its key is
known. -/
theorem wp_credit {u : Id} {p : PaymentIntent} (hv : Idle v) (hp : HeldIntent id p v) :
    wp settlementPolicy.around (creditTopup refresh u (money p.amount) id c)
      (fun _ v' => Done v') v := by
  -- What the posting does, and beside it what it leaves alone.
  have hmain : wp settlementPolicy.around (creditTopup refresh u (money p.amount) id c)
      (fun _ v' => Posts (.topup id) v' ∨ (LedgerClean v' ∧ WalletsClean v')) v := by
    refine wp_creditTopup hv.2 (fun v₁ hl _ => .inr (robust_idle.later hv hl).1.1)
      fun v₀ v' g n hn _ hb => .inl (posts_of_booked hb legKeys_topupLegs hv.1.1.1 ?_)
    intro j hj
    obtain rfl : id = j := by simpa using hj
    obtain ⟨rfl, -⟩ := eq_of_quantizeMoney_money hn
    refine ⟨p, hp, fun leg hleg hk => ?_⟩
    simp only [topupLegs, List.mem_cons, List.not_mem_nil, or_false] at hleg
    rcases hleg with rfl | rfl
    · rfl
    · cases hk
  refine wp_mono (fun _ v' h => ?_) (wp_and hmain
    (robust_loose.keeps writesTo_creditTopup (by decide) v ⟨hv.1.2, hv.2⟩))
  obtain ⟨hposts | hclean, hinv, hf⟩ := h
  · exact ⟨hf, .inl ⟨_, hposts, pays_of_clean hinv⟩⟩
  · exact ⟨hf, .inr (quiet_of_pays (pays_of_clean hinv) hclean.1 (.inl hclean.2))⟩

/-- The escrow of an invoice was funded, by this transaction or before. -/
def Funding (iid : Id) (v : TxView) : Prop :=
  Posts (.escrow iid) v ∨ (LedgerClean v ∧ WalletsClean v) ∧ Known (.escrow iid) v

/-- Writes to other tables leave the escrow funded. -/
theorem robust_funding : Robust settlementPolicy (.invoices :: others) (Funding iid) :=
  (robust_posts.mono (by decide)).or
    (((robust_ledgerClean (by decide)).and (robust_walletsClean (by decide))).and (robust_known _))

/-- `fund_escrow_for_invoice` funds the escrow of the invoice, now or by a group of before. -/
theorem wp_fund {u o : Id} {a b : Decimal} {x : Option Id} {held : Bool}
    {Q : Bool → TxView → Prop} (hv : Idle v)
    (hQ : ∀ r v', Funding iid v' ∧ Loose v' → Q r v') :
    wp settlementPolicy.around (fundEscrowForInvoice refresh u a b iid o x held c) Q v := by
  have hmain : wp settlementPolicy.around (fundEscrowForInvoice refresh u a b iid o x held c)
      (fun _ v' => Funding iid v') v := by
    refine wp_fundEscrow hv.2 (fun v₁ hl hk => ?_) fun v₀ v' g e n k _ _ _ _ _ _ hb => ?_
    · have hidle := robust_idle.later hv hl
      refine .inr ⟨hidle.1.1, ?_⟩
      rw [View.seen, hidle.1.1.1] at hk
      exact hk
    · have hposts : Posts (.escrow iid) v' :=
        posts_of_booked hb legKeys_fundingLegs hv.1.1.1 (by simp)
      exact ⟨fun _ => .inl hposts, fun _ _ =>
        robust_posts.wp_last writesTo_releaseHold (by decide) hposts fun _ _ h => .inl h⟩
  refine wp_mono (fun r v' h => hQ r v' h) (wp_and hmain
    (robust_loose.keeps writesTo_fundEscrow (by decide) v ⟨hv.1.2, hv.2⟩))

/-! ## Writes of invoices -/

/-- The status of an invoice after one row was updated. -/
theorem invoiceIs_update {d x : Db} {st : InvoiceStatus} {f : Invoice → Invoice} {j : Id}
    (hx : x.invoices = d.invoices) : InvoiceIs st (x.updateInvoice iid f) j ↔
      if j = iid then ∃ i, d.invoices.get? j = some i ∧ (f i).status = st else InvoiceIs st d j := by
  simp only [InvoiceIs, Db.updateInvoice, hx, Table.get?_update]
  split_ifs
  · constructor
    · rintro ⟨i, hi, hs⟩
      obtain ⟨k, hk, rfl⟩ := Option.map_eq_some_iff.mp hi
      exact ⟨k, hk, hs⟩
    · rintro ⟨k, hk, hs⟩
      exact ⟨f k, by rw [hk, Option.map_some], hs⟩
  · rfl

/-- A status that is assigned is written. -/
theorem status_assign {l a : Invoice} (h : a.status ≠ l.status) (i : Invoice) :
    (l.assign a i).status = a.status := if_neg h

/-- A status that is not assigned stays. -/
theorem status_assign_same {l a : Invoice} (h : a.status = l.status) (i : Invoice) :
    (l.assign a i).status = i.status := if_pos h

/-- The flush of an invoice that becomes a paid one. -/
theorem wp_flushInvoice_paid {l a : Invoice} {Q : Unit → TxView → Prop}
    (hv : Funding iid v ∧ Loose v) (hl : l.status ≠ .paid) (ha : a.status = .paid)
    (hQ : ∀ v', Done v' → Q () v') :
    wp settlementPolicy.around (InvoiceRepository.flush iid l a) Q v := by
  have hne : a.status ≠ l.status := fun h => hl (h ▸ ha)
  refine wp_flushInvoice (fun h => absurd (h ▸ rfl) hne) fun d i hd hi => hQ _ ?_
  have hpatch : Framed [.invoices] [.invoice iid] (Db.updateInvoice iid (l.assign a)) :=
    .updateInvoice List.mem_cons_self (l.assign_frozen a)
  have hfund := robust_funding.patch _ _ _ (hpatch.mono (by decide))
    (robust_funding.rely v d hv.1 hd)
  have hframed := robust_framed.patch _ _ _ (hpatch.mono (by decide))
    (robust_framed.rely v d hv.2.2 hd)
  rw [hv.2.1 d] at hi
  -- This invoice is paid from now on, and no other becomes so.
  have hpays : Pays (some iid) { v with
      held := .invoice iid :: v.held, pending := Db.updateInvoice iid (l.assign a) ∘ v.pending
      last := d } := by
    intro d' hd' j
    dsimp only [Function.comp_apply]
    rw [invoiceIs_update (hv.2.1 d')]
    split_ifs with hj
    · subst hj
      have hrow : d'.invoices.get? j = some i :=
        (Policy.rely_invoice hd' List.mem_cons_self).trans hi
      exact ⟨fun _ => .inl rfl, fun _ => ⟨i, hrow, (status_assign hne i).trans ha⟩⟩
    · exact ⟨.inr, fun h => h.resolve_left fun h => hj (Option.some.inj h).symm⟩
  refine ⟨hframed, hfund.imp (fun h => ⟨.escrow iid, h, hpays⟩) fun h => ⟨⟨h.1.1, .inl h.1.2⟩, _, hpays, ?_⟩⟩
  intro j hj
  obtain rfl := Option.some.inj hj
  exact h.2

/-- The flush of a locked invoice that leaves the payment. -/
theorem pays_of_abandoned {l a : Invoice} {d : Db} (hc : InvoicesClean v)
    (hh : HeldInvoice iid l v) (hd : settlementPolicy.around.rely v.held v.last d)
    (hl : l.status ≠ .paid) (ha : a.status ≠ .paid) :
    Pays none { v with
      held := .invoice iid :: v.held, pending := Db.updateInvoice iid (l.assign a) ∘ v.pending
      last := d } := by
  intro d' hd' j
  have hreach := Policy.rely_after [.invoice iid] hd hd'
  dsimp only [Function.comp_apply]
  rw [invoiceIs_update (hc d')]
  split_ifs with hj
  · subst hj
    have hrow : d'.invoices.get? j = some l := (Policy.rely_invoice hreach hh.1).trans hh.2
    simp only [false_or, InvoiceIs, hrow, Option.some.injEq, exists_eq_left']
    rw [show (l.assign a l).status = a.status from assign_self _ _]
    exact ⟨fun h => absurd h ha, fun h => absurd h hl⟩
  · exact ⟨.inr, fun h => h.resolve_left (by simp)⟩

/-- The flush of an invoice whose status stays. -/
theorem pays_of_kept {l a : Invoice} {d : Db} {ls : List Row} (hc : InvoicesClean v)
    (ha : a.status = l.status) :
    Pays none { v with
      held := ls, pending := Db.updateInvoice iid (l.assign a) ∘ v.pending, last := d } := by
  intro d' _ j
  dsimp only [Function.comp_apply]
  rw [invoiceIs_update (hc d')]
  split_ifs with hj
  · simp only [false_or, InvoiceIs, status_assign_same ha]
  · exact ⟨.inr, fun h => h.resolve_left (by simp)⟩

/-- The flush of a locked invoice that expires. -/
theorem expires_of_flush {l a : Invoice} {d : Db} (hc : InvoicesClean v)
    (hh : HeldInvoice iid l v) (hd : settlementPolicy.around.rely v.held v.last d)
    (hl : l.status ≠ .expired) (ha : a.status = .expired) :
    Expires iid { v with
      held := .invoice iid :: v.held, pending := Db.updateInvoice iid (l.assign a) ∘ v.pending
      last := d } := by
  intro d' hd'
  have hreach := Policy.rely_after [.invoice iid] hd hd'
  have hrow : d'.invoices.get? iid = some l := (Policy.rely_invoice hreach hh.1).trans hh.2
  dsimp only [Function.comp_apply]
  rw [invoiceIs_update (hc d'), if_pos rfl]
  refine ⟨fun ⟨i, hi, hs⟩ => hl ?_, l, hrow, (assign_self _ _).trans ha⟩
  obtain rfl : l = i := Option.some.inj (hrow.symm.trans hi)
  exact hs

/-! ## Requests -/

section Requests

variable {now : Time} {s : Settings}

/-- An invoice is paid once its escrow is funded, so the record may be committed. -/
theorem wp_settleInvoiceRecord {l : Invoice} {o : Id} {y : Order} {m : PaymentMethod} {a b : ℤ}
    (hv : Funding iid v ∧ Loose v) (hl : l.status ≠ .paid) :
    wp settlementPolicy.around (PaymentService.settleInvoiceRecord now iid l o y m a b)
      (fun _ v => Done v) v := by
  have hrobust : Robust settlementPolicy others fun v => Funding iid v ∧ Loose v :=
    (robust_funding.mono (by decide)).and (robust_loose.mono (by decide))
  refine wp_ofExcept_bind fun a _ => wp_ofExcept_bind fun b _ => wp_assertTransition_bind
    fun _ => ?_
  refine hrobust.wp_bind writesTo_flushOrder (by decide) hv fun _ v hv => ?_
  rw [wp_bind]
  refine wp_flushInvoice_paid hv hl rfl fun v hv => ?_
  exact robust_done.wp_last writesTo_consume (by decide) hv fun _ _ h => h

/-- The wallet-only branch funds the escrow and pays the invoice. -/
theorem wp_payFromWallet {x : PaymentService.PayInput} {l : Invoice} {y : Order} {w : Id} {n : ℤ}
    (hv : Idle v) (hl : l.status ≠ .paid) :
    wp settlementPolicy.around (PaymentService.payFromWallet refresh now x iid l y w n)
      (fun _ v => Done v) v := by
  unfold PaymentService.payFromWallet
  rw [wp_bind]
  refine wp_fund hv fun _ v hv => ?_
  rw [wp_bind]
  exact wp_settleInvoiceRecord hv hl

/-- The insertion of a payment intent. -/
theorem wp_createIntent {p : PaymentIntent} {J : TxView → Prop} {Q : Unit → TxView → Prop}
    (hJ : Robust settlementPolicy others J) (hv : J v) (hc : IntentsClean v)
    (hQ : ∀ v', J v' → Started id v' → Q () v') :
    wp settlementPolicy.around (PaymentRepository.createIntent id p) Q v := by
  unfold PaymentRepository.createIntent
  refine wp_insertRow fun d hd hnone _ => hQ _ ?_ fun d' hd' => ?_
  · exact hJ.patch _ _ _ ((Framed.insertIntent List.mem_cons_self p).mono (by decide))
      (hJ.rely v d hv hd)
  · have hrow : d'.intents.get? id = none := by
      rw [Policy.rely_intent hd' List.mem_cons_self, ← hc d]
      exact hnone
    refine ⟨hrow, ?_⟩
    simp only [Function.comp_apply, Db.insertIntent]
    rw [Table.get?_insert_self _ _ (by rw [hc d', hrow])]
    rfl

/-- What is known while a payment through the gateway is started. -/
def Starting (v : TxView) : Prop := (LedgerClean v ∧ settlementPolicy.Framed v) ∧ Pays none v

/-- Writes to other tables leave the start of a payment. -/
theorem robust_starting : Robust settlementPolicy others Starting :=
  ((robust_ledgerClean (by decide)).and (robust_framed.mono (by decide))).and
    ((robust_pays none).mono (by decide))

/-- The flush of an invoice whose status stays. -/
theorem wp_flushInvoice_kept {l a : Invoice} {Q : Unit → TxView → Prop}
    (hv : (LedgerClean v ∧ IntentsClean v) ∧ Loose v) (ha : a.status = l.status)
    (hQ : ∀ v', Starting v' → IntentsClean v' → Q () v') :
    wp settlementPolicy.around (InvoiceRepository.flush iid l a) Q v := by
  refine wp_flushInvoice (fun _ => hQ v ⟨⟨hv.1.1, hv.2.2⟩, pays_of_clean hv.2.1⟩ hv.1.2)
    fun d i hd _ => hQ _ ⟨⟨hv.1.1, ?_⟩, pays_of_kept hv.2.1 ha⟩ hv.1.2
  exact robust_framed.patch _ [.invoice iid] _
    ((Framed.updateInvoice List.mem_cons_self (l.assign_frozen a)).mono (by decide))
    (robust_framed.rely v d hv.2.2 hd)

/-- The gateway branch opens an intent, which is the reason for its hold. -/
theorem wp_startGateway {x : PaymentService.PayInput} {l : Invoice} {u w : Id} {a b : ℤ}
    (hv : Idle v) (hc : IntentsClean v) :
    wp settlementPolicy.around (PaymentService.startGateway refresh s now x iid l u w a b)
      (fun _ v => Done v) v := by
  unfold PaymentService.startGateway
  have hrobust : Robust settlementPolicy [.wallets] fun v =>
      ((LedgerClean v ∧ IntentsClean v) ∧ Loose v) :=
    ((robust_ledgerClean (by decide)).and (robust_intentsClean (by decide))).and
      (robust_loose.mono (by decide))
  refine hrobust.wp_bind (Prog.writes_when _ writesTo_holdFunds) (by decide)
    ⟨⟨hv.1.1.1, hc⟩, hv.1.2, hv.2⟩ fun _ v hv => ?_
  rw [wp_bind]
  refine wp_flushInvoice_kept hv rfl fun v hv hc => ?_
  rw [wp_bind]
  refine wp_createIntent robust_starting hv hc fun v hv hs => ?_
  have hdone : Done v := ⟨hv.1.2, .inr (quiet_of_pays hv.2 hv.1.1 (.inr (.inl ⟨_, hs⟩)))⟩
  refine robust_done.query_bind hdone fun _ v hv _ _ => ?_
  refine robust_done.wp_bind writesTo_createCheckout (List.Subset.refl _) hv fun _ v hv => ?_
  exact robust_done.wp_bind writesTo_flushIntent (by decide) hv fun _ _ h => h

/-- An idle transaction that has opened no intent. -/
theorem robust_idleIntents : Robust settlementPolicy [] fun v => Idle v ∧ IntentsClean v :=
  (robust_idle.mono (by decide)).and (robust_intentsClean (by decide))

/-- `pay_invoice` posts and pays, or starts a payment. -/
theorem wp_payInvoice {x : PaymentService.PayInput} {u : Id} (hv : Idle v) (hc : IntentsClean v) :
    wp settlementPolicy.around (PaymentService.payInvoice refresh s now x iid u)
      (fun _ v => Done v) v := by
  unfold PaymentService.payInvoice
  refine robust_idleIntents.wp_bind (Prog.writes_query _) (List.Subset.refl _) ⟨hv, hc⟩
    fun y v hv => ?_
  split
  · trivial
  rename_i l _
  refine robust_idleIntents.wp_bind writesTo_keepInvoice (List.Subset.refl _) hv fun _ v hv => ?_
  refine wp_require_bind fun hissued => wp_require_bind fun _ => ?_
  refine robust_idleIntents.wp_bind writesTo_lockOrder (List.Subset.refl _) hv fun z v hv => ?_
  split
  · trivial
  refine wp_require_bind fun _ => ?_
  refine robust_idleIntents.wp_bind writesTo_getByUser (List.Subset.refl _) hv fun _ v hv => ?_
  split
  · trivial
  refine wp_ofExcept_bind fun total _ => ?_
  refine robust_idleIntents.wp_bind writesTo_availableBalance (List.Subset.refl _) hv
    fun _ v hv => ?_
  refine wp_ofExcept_bind fun gatewayAmount _ => ?_
  rw [wp_ite]
  constructor
  · -- The wallet pays all of it; an issued invoice was not paid before.
    exact fun _ => wp_payFromWallet hv.1 (by rw [hissued]; decide)
  · intro _
    unfold PaymentService.payThroughGateway
    refine robust_idleIntents.query_bind hv fun _ v hv _ _ => ?_
    split
    · exact done_of_idle hv.1
    · exact wp_startGateway hv.1 hv.2

/-- The settlement of a top-up posts its credit. -/
theorem wp_settleTopup {p : PaymentIntent} (hv : Idle v) (hp : HeldIntent id p v) :
    wp settlementPolicy.around (PaymentService.settleTopup refresh c id p) (fun _ v => Done v) v := by
  have hrobust : Robust settlementPolicy others fun v => Idle v ∧ HeldIntent id p v :=
    robust_idle.and (robust_heldIntent p)
  unfold PaymentService.settleTopup
  refine hrobust.wp_bind writesTo_getByUser (List.Subset.refl _) ⟨hv, hp⟩ fun _ v hv => ?_
  split
  · trivial
  · rw [wp_bind]
    exact wp_credit hv.1 hv.2

/-- The settlement of an invoice funds its escrow and pays it. -/
theorem wp_settleInvoice {p : PaymentIntent} (hv : Idle v) :
    wp settlementPolicy.around (PaymentService.settleInvoice refresh now c id p)
      (fun _ v => Done v) v := by
  unfold PaymentService.settleInvoice
  split
  · trivial
  refine robust_idle.wp_bind writesTo_lockInvoice (List.Subset.refl _) hv fun y v hv => ?_
  split
  · trivial
  rename_i l _
  rw [wp_ite]
  -- An invoice that is paid already is left alone.
  refine ⟨fun _ => done_of_idle hv, fun hne => ?_⟩
  refine robust_idle.wp_bind writesTo_lockOrder (List.Subset.refl _) hv fun z v hv => ?_
  split
  · trivial
  refine robust_idle.wp_bind writesTo_getByUser (List.Subset.refl _) hv fun _ v hv => ?_
  split
  · trivial
  · rw [wp_bind]
    exact wp_fund hv fun _ v hv => wp_settleInvoiceRecord hv hne

/-- `handle_webhook` settles the intent, or does nothing that counts. -/
theorem wp_handleWebhook {a b : Bool} {e : Except Err PaymentService.WebhookEvent} (hv : Idle v)
    (hc : IntentsClean v) :
    wp settlementPolicy.around (PaymentService.handleWebhook refresh now a b c e)
      (fun _ v => Done v) v := by
  refine wp_require_bind fun _ => wp_ofExcept_bind fun event _ => wp_require_bind fun _ => ?_
  unfold PaymentService.settleLocked
  rw [wp_bind]
  refine wp_lockByLink (fun _ _ => trivial) fun d id p hd hp _ => ?_
  have hidle := robust_idle.held _ [.intent id] (robust_idle.rely v d hv hd)
  have hheld : HeldIntent id p { v with held := .intent id :: v.held, last := d } :=
    ⟨List.mem_cons_self, by rw [← hc d]; exact hp⟩
  dsimp only
  rw [wp_ite]
  -- An intent that is not new is answered without a write.
  refine ⟨fun _ => done_of_idle hidle, fun _ => ?_⟩
  rw [wp_ite]
  constructor
  · -- A failure closes the intent.
    intro _
    exact robust_idle.wp_bind writesTo_flushIntent (by decide) hidle fun _ v hv => done_of_idle hv
  · intro _
    refine wp_ofExcept_bind fun _ _ => wp_ofExcept_bind fun _ _ => wp_require_bind fun _ => ?_
    rw [wp_bind]
    refine wp_mono (fun _ v hv => ?_) (show wp settlementPolicy.around
      (PaymentService.settleIntent refresh now c id p) (fun _ v => Done v) _ from ?_)
    · exact robust_done.wp_bind writesTo_flushIntent (by decide) hv fun _ _ h => h
    · unfold PaymentService.settleIntent
      split
      · exact wp_settleTopup hidle hheld
      · exact wp_settleInvoice hidle

/-- The flush of a locked invoice that is cancelled or expires, at the end of its request. -/
theorem wp_flushInvoice_abandoned {l a : Invoice} {Q : Unit → TxView → Prop}
    (hh : HeldInvoice iid l v) (hv : LedgerClean v ∧ Loose v) (hl : l.status = .issued)
    (ha : a.status = .expired ∨ a.status = .cancelled ∧ WalletsClean v)
    (hQ : ∀ v', Done v' → Q () v') :
    wp settlementPolicy.around (InvoiceRepository.flush iid l a) Q v := by
  have hne : a ≠ l := by
    rintro rfl
    rcases ha with h | h <;> simp_all
  refine wp_flushInvoice (fun h => absurd h hne) fun d i hd _ => hQ _ ⟨?_, .inr ?_⟩
  · exact robust_framed.patch _ [.invoice iid] _
      ((Framed.updateInvoice List.mem_cons_self (l.assign_frozen a)).mono (by decide))
      (robust_framed.rely v d hv.2.2 hd)
  · have hpays := pays_of_abandoned hv.2.1 hh hd (by rw [hl]; decide)
      (show a.status ≠ .paid by rcases ha with h | h <;> simp [h])
    refine quiet_of_pays hpays hv.1 ?_
    rcases ha with ha | ⟨-, hw⟩
    · exact .inr (.inr ⟨iid, expires_of_flush hv.2.1 hh hd (by rw [hl]; decide) ha⟩)
    · exact .inl hw

/-- `cancel_invoice` pays nothing. -/
theorem wp_cancelInvoice {k : Id} (hv : Idle v) :
    wp settlementPolicy.around (InvoiceService.cancelInvoice now iid k) (fun _ v => Done v) v := by
  unfold InvoiceService.cancelInvoice
  rw [wp_bind]
  refine wp_lockForCourier (fun _ _ => trivial) fun d l hd hl => ?_
  -- The invoice is locked, so that it keeps the status that was read.
  have hrobust : Robust settlementPolicy others fun v => Idle v ∧ HeldInvoice iid l v :=
    robust_idle.and (robust_heldInvoice l)
  have hheld : Idle { v with held := .invoice iid :: v.held, last := d } ∧
      HeldInvoice iid l { v with held := .invoice iid :: v.held, last := d } :=
    ⟨robust_idle.held _ [.invoice iid] (robust_idle.rely v d hv hd), List.mem_cons_self,
      by rw [← hv.1.2 d]; exact hl⟩
  refine wp_require_bind fun hissued => ?_
  refine hrobust.wp_bind writesTo_lockOrder (List.Subset.refl _) hheld fun y v hv => ?_
  split
  · trivial
  refine hrobust.wp_bind writesTo_release (by decide) hv fun _ v hv => ?_
  refine wp_assertTransition_bind fun _ => ?_
  refine hrobust.wp_bind writesTo_flushOrder (by decide) hv fun _ v hv => ?_
  exact wp_flushInvoice_abandoned hv.2 ⟨hv.1.1.1.1, hv.1.1.2, hv.1.2⟩ hissued
    (.inr ⟨rfl, hv.1.1.1.2⟩) fun _ h => h

/-- `_expire_invoice` expires an invoice, which is the reason for the hold it returns. -/
theorem wp_expireInvoice (hv : Idle v) :
    wp settlementPolicy.around (Expiry.expireInvoice refresh now iid) (fun _ v => Done v) v := by
  unfold Expiry.expireInvoice
  rw [wp_bind]
  refine wp_lockInvoice (fun d hd => done_of_idle (robust_idle.rely v d hv hd))
    fun d l hd hl => ?_
  have hidle := robust_idle.held _ [.invoice iid] (robust_idle.rely v d hv hd)
  -- The invoice is locked, so it stays issued until its own update.
  have hrobust : Robust settlementPolicy (.wallets :: others) fun v =>
      HeldInvoice iid l v ∧ LedgerClean v ∧ Loose v :=
    (robust_heldInvoice l).and ((robust_ledgerClean (by decide)).and
      (robust_loose.mono (by decide)))
  dsimp only
  rw [wp_ite]
  refine ⟨fun _ => done_of_idle hidle, fun hissued => ?_⟩
  refine hrobust.query_bind ⟨⟨List.mem_cons_self, by rw [← hv.1.2 d]; exact hl⟩, hv.1.1.1, hv.1.2,
    hidle.2⟩ fun _ v hv _ _ => ?_
  refine hrobust.wp_bind writesTo_expireIntent (by decide) hv fun _ v hv => ?_
  refine hrobust.wp_bind writesTo_release (by decide) hv fun _ v hv => ?_
  rw [wp_bind]
  refine wp_flushInvoice_abandoned hv.1 hv.2 (not_not.mp hissued) (.inl rfl) fun v hv => ?_
  refine robust_done.wp_bind writesTo_lockOrder (List.Subset.refl _) hv fun y v hv => ?_
  split
  · exact hv
  · exact robust_done.wp_bind (Prog.writes_when _ (.bind writesTo_assertTransition fun _ =>
      writesTo_flushOrder)) (by decide) hv fun _ _ h => h

/-- `_expire_topup_intent` pays nothing. -/
theorem wp_expireTopupIntent (hv : Idle v) :
    wp settlementPolicy.around (Expiry.expireTopupIntent id) (fun _ v => Done v) v :=
  robust_idle.wp_last writesTo_expireTopupIntent (by decide) hv fun _ _ h => done_of_idle h

end Requests

/-! ## Replays -/

/-- `credit_topup` under a key that is in the ledger returns `false`, and a call that returns
`false` writes nothing. -/
theorem wp_creditTopup_replay {u : Id} {a : Decimal} (hf : settlementPolicy.Framed v) :
    wp settlementPolicy.around (creditTopup refresh u a id c) (fun posted v' =>
      (posted = false → v'.pending = v.pending) ∧
        (.topup id ∈ ledgerKeys v.last.transactions → posted = false)) v := by
  refine wp_creditTopup hf (fun v₁ hl _ => ⟨fun _ => hl.pending, fun _ => rfl⟩)
    fun v₀ v' g n _ _ hb => ⟨by simp, fun h => absurd h (hb.unknown hf ?_)⟩
  simp [legKeys_topupLegs]

/-- `fund_escrow_for_invoice` under a key that is in the ledger returns `false`, and a call that
returns `false` writes nothing. -/
theorem wp_fundEscrow_replay {u o : Id} {a b : Decimal} {x : Option Id} {held : Bool}
    (hf : settlementPolicy.Framed v) :
    wp settlementPolicy.around (fundEscrowForInvoice refresh u a b iid o x held c) (fun posted v' =>
      (posted = false → v'.pending = v.pending) ∧
        (.escrow iid ∈ ledgerKeys v.last.transactions → posted = false)) v := by
  refine wp_fundEscrow hf (fun v₁ hl _ => ⟨fun _ => hl.pending, fun _ => rfl⟩)
    fun v₀ v' g e n k _ _ _ _ _ _ hb => ?_
  have hnew : .escrow iid ∉ ledgerKeys v.last.transactions :=
    hb.unknown hf (by simp [legKeys_fundingLegs])
  exact ⟨fun _ => ⟨by simp, fun h => absurd h hnew⟩, fun _ _ => wp_of_forall fun _ _ =>
    ⟨by simp, fun h => absurd h hnew⟩⟩

end SettlementProof

/-! ## Runs -/

/-- The requests that pay, cancel or expire. -/
def Request.settles : Request → Prop
  | .handleWebhook .. | .payInvoice .. | .cancelInvoice .. | .expireInvoice ..
  | .expireTopupIntent .. => True
  | _ => False

/-- Every request that settles a payment follows the policy. -/
theorem SettlementProof.follows {refresh : Bool} {s : Settings} {p : Tx Unit}
    (hp : Requested refresh s Request.settles p) : settlementPolicy.discipline.Follows .empty p := by
  obtain ⟨r, hr, rfl⟩ := hp
  -- Every such request ends settled; the policy then follows from its tables.
  have hdone : ∀ d, wp settlementPolicy.around (r.tx refresh s) (fun _ v => Done v)
      (.start .empty d) := by
    intro d
    cases r with
    | handleWebhook => exact wp_void (wp_handleWebhook idle_start fun _ => rfl)
    | payInvoice => exact wp_void (wp_payInvoice idle_start fun _ => rfl)
    | cancelInvoice => exact wp_cancelInvoice idle_start
    | expireInvoice => exact wp_void (wp_expireInvoice idle_start)
    | expireTopupIntent => exact wp_void (wp_expireTopupIntent idle_start)
    | _ => exact hr.elim
  have htables : r.tables ⊆ paymentTables := by
    cases r with
    | handleWebhook | payInvoice | cancelInvoice | expireInvoice | expireTopupIntent =>
      simp [Request.tables, paymentTables]
    | _ => exact hr.elim
  exact Policy.follows (r.writesTo refresh s) htables fun d _ =>
    wp_mono (fun _ _ h => safe_of_done h) (hdone d)

/-- In every run of webhooks, payments, cancellations and sweeps, whatever the Redis lock grants: no
key is in the ledger twice, a top-up credits the amount of its intent, and an invoice is paid exactly
when its escrow was funded. A commit posts under a new key or appends no ledger row, and then it
changes a wallet only to start a payment or to expire an invoice. A call that loses returns `false`
and writes nothing. -/
theorem settlement_at_most_once (refresh : Bool) (s : Settings) (d₀ : Db) (h₀ : SettledOnce d₀)
    (sys : System Db Row Err Memory Unit)
    (hrun : System.Run (Requested refresh s Request.settles) (System.always Db Row Memory) .empty d₀
      sys) :
    (∀ key, (ledgerKeys sys.db.transactions).count key ≤ 1) ∧
    (∀ id, ∀ t ∈ sys.db.transactions, t.idempotencyKey = some (.topup id) →
      ∃ p, sys.db.intents.get? id = some p ∧ t.amount = p.amount) ∧
    (∀ iid, (∃ i, sys.db.invoices.get? iid = some i ∧ i.status = .paid) ↔
      .escrow iid ∈ ledgerKeys sys.db.transactions) ∧
    (∀ i sys', sys.step i = some sys' → PostsOrKeeps sys.db sys'.db) ∧
    (∀ v u amount id c, settlementPolicy.Framed v →
      wp settlementPolicy.around (creditTopup refresh u amount id c) (fun posted v' =>
        (posted = false → v'.pending = v.pending) ∧
          (.topup id ∈ ledgerKeys v.last.transactions → posted = false)) v) ∧
    ∀ v u a b iid o x held c, settlementPolicy.Framed v →
      wp settlementPolicy.around (fundEscrowForInvoice refresh u a b iid o x held c)
        (fun posted v' => (posted = false → v'.pending = v.pending) ∧
          (.escrow iid ∈ ledgerKeys v.last.transactions → posted = false)) v := by
  have hfollows := fun p (hp : Requested refresh s Request.settles p) => SettlementProof.follows hp
  have hinv : SettledOnce sys.db := Discipline.inv_of_run hfollows h₀ hrun
  refine ⟨fun key => List.nodup_iff_count_le_one.mp hinv.nodup key, fun id t ht => hinv.topup t ht id,
    fun iid => (hinv.paid iid).symm, fun i sys' hs => ?_,
    fun v u amount id c hf => SettlementProof.wp_creditTopup_replay hf,
    fun v u a b iid o x held c hf => SettlementProof.wp_fundEscrow_replay hf⟩
  rcases Discipline.guar_of_run hfollows h₀ hrun (fun _ _ _ _ => trivial) hs with h | h
  · exact h ▸ settlementPolicy.guar_refl sys.db
  · exact h

/-- The invoice of an order that awaits its payment, with an open intent for all of it. -/
def Sample.checkout : Db :=
  { ordered (wallets 0 0 0) (order .waitingPayment) (invoice .issued 0 10000) with
    intents := invoiceIntent }

/-- Nothing was posted in the sample. -/
theorem Sample.checkout_settledOnce : SettledOnce checkout where
  nodup := List.nodup_nil
  topup t ht := by cases ht
  paid iid := by
    refine ⟨fun h => absurd h List.not_mem_nil, fun ⟨i, hi, hs⟩ => ?_⟩
    have hrow : (iid, i) ∈ checkout.invoices.rows := Table.get?_eq_some.mp hi
    obtain ⟨rfl, rfl⟩ : iid = 601 ∧ i = invoice .issued 0 10000 := by
      simpa [checkout, ordered] using hrow
    cases hs

/-- A delivery of the gateway's event that the intent was paid. -/
def Sample.webhook (correlationId : Id) : Tx Unit :=
  Request.tx false settings (.handleWebhook 0 true true correlationId
    (.ok ⟨802, ['P', 'A', 'I', 'D'], some 10000⟩))

/-- The event is delivered twice at once, and the escrow is funded once. -/
theorem settlement_at_most_once_twice :
    ∃ sys : System Db Row Err Memory Unit,
      System.Run (Requested false Sample.settings Request.settles) (System.always Db Row Memory)
        .empty Sample.checkout sys ∧
      (∃ i, sys.db.invoices.get? 601 = some i ∧ i.status = .paid) ∧
      (ledgerKeys sys.db.transactions).count (.escrow 601) = 1 := by
  obtain ⟨sys, hrun, hq⟩ := System.Run.exists_of_play
    (Requested false Sample.settings Request.settles) (System.always Db Row Memory) .empty
    Sample.checkout
    -- Both deliveries start; the second one finds the intent settled.
    ([.start (Sample.webhook 102), .start (Sample.webhook 103)] ++ List.replicate 21 (.step 0) ++
      List.replicate 2 (.step 1))
    (fun sys => .escrow 601 ∈ ledgerKeys sys.db.transactions)
    (by
      intro p hp
      simp only [List.mem_append, List.mem_cons, List.mem_replicate, System.Event.start.injEq,
        List.not_mem_nil, reduceCtorEq, and_false, or_false] at hp
      rcases hp with rfl | rfl
      · exact ⟨.handleWebhook 0 true true 102 _, trivial, rfl⟩
      · exact ⟨.handleWebhook 0 true true 103 _, trivial, rfl⟩)
    (by decide +kernel)
  rw [decide_eq_true_eq] at hq
  have h := settlement_at_most_once false Sample.settings Sample.checkout
    Sample.checkout_settledOnce sys hrun
  refine ⟨sys, hrun, (h.2.2.1 601).mpr hq, le_antisymm (h.1 (.escrow 601)) ?_⟩
  exact List.one_le_count_iff.mpr hq

end Giftly
