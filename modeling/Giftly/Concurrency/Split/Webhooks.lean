import Giftly.Concurrency.Split.Payments

/-!
# Webhooks, top-ups and runs

A webhook closes the one intent that was open, and its group funds the escrow with both parts. A
top-up opens an intent of no invoice. In every run whose locks are granted under `splitCurrent` the
parts of every payment add up; a counterexample shows a run that loses the wallet's part.
-/

namespace Giftly

open Store OrderState
open WalletRepository MoneyService

namespace SplitProof

variable {v : TxView} {iid id c : Id} {i₀ l : Invoice} {refresh : Bool} {now : Time} {s : Settings}
  {o : Order}

/-! ## Webhooks and top-ups -/

/-- An intent is no longer `NEW`, and no other intent was changed. -/
def Closes (j : Id) (v : TxView) : Prop :=
  ∀ d, (∀ k, k ≠ j → (v.pending d).intents.get? k = d.intents.get? k) ∧
    ∀ q, (v.pending d).intents.get? j = some q → q.status ≠ .new

/-- An intent that is open after another was closed was open before. -/
theorem opens_of_closes {j k m : Id} {q : PaymentIntent} {d : Db} (h : Closes j v)
    (hq : OpenIntent (v.pending d) k m q) : m ≠ j ∧ OpenIntent d k m q := by
  have hm : m ≠ j := by
    rintro rfl
    exact (h d).2 q hq.1 hq.2.2
  exact ⟨hm, (h d).1 m hm ▸ hq.1, hq.2⟩

/-- The flush of an intent that is closed, at the end of its request. -/
theorem wp_closeIntent {j : Id} {p a : PaymentIntent} {K : TxView → Prop}
    {Q : Unit → TxView → Prop} (hK : Robust splitPolicy [.intents] K) (hv : K v)
    (hc : IntentsClean v) (hp : p.status = .new) (ha : a.status ≠ .new)
    (hQ : ∀ v', K v' → Closes j v' → Q () v') :
    wp splitPolicy.around (PaymentRepository.flush [] j p a) Q v := by
  have hne : a.status ≠ p.status := hp ▸ ha
  refine wp_flushIntent (fun h => absurd (h ▸ rfl) hne) fun d _ hd _ => hQ _ ?_ fun d' => ?_
  · exact hK.patch _ _ _ ((Framed.updateIntent List.mem_cons_self (p.assign_frozen a)).mono
      (List.Subset.refl _)) (hK.rely v d hv hd)
  · simp only [Function.comp_apply, Db.updateIntent, hc d']
    refine ⟨fun k hk => Table.get?_update_ne _ _ hk, fun q hq => ?_⟩
    rw [Table.get?_update_self] at hq
    obtain ⟨q', -, rfl⟩ := Option.map_eq_some_iff.mp hq
    rw [show (p.assign a q').status = a.status from if_neg hne]
    exact ha

/-- To close an intent keeps the parts of every other open payment. -/
theorem splits_of_closes {j : Id} (hc : InvoicesClean v) (h : Closes j v) : Splits v := by
  intro d _ k
  exact .inl ⟨by rw [hc d], fun m q hq => (opens_of_closes h hq).2⟩

/-- What is known before an intent is closed that paid no invoice. -/
def Credited (v : TxView) : Prop :=
  ((OrdersClean v ∧ InvoicesClean v) ∧ Appends FundsNothing v) ∧ splitPolicy.Framed v

/-- A write of the intents leaves what is known after a credit. -/
theorem robust_credited : Robust splitPolicy (.intents :: others) Credited :=
  (((robust_ordersClean (by decide)).and (robust_invoicesClean (by decide))).and
    (robust_appends (by decide) fun _ => Robust.const _)).and (robust_framed.mono (by decide))

/-- Before a credit all of it is known. -/
theorem credited_of_clean (h : Clean v) : Credited v :=
  ⟨⟨h.1.1, appends_of_clean h.1.2.2⟩, h.2.1⟩

/-- The intent of a top-up is closed, which concerns no invoice. -/
theorem wp_closeCredited {j : Id} {p a : PaymentIntent} (hv : Credited v) (hc : IntentsClean v)
    (hp : p.status = .new) (ha : a.status ≠ .new) :
    wp splitPolicy.around (PaymentRepository.flush [] j p a) (fun _ v => splitPolicy.Safe v) v :=
  wp_closeIntent (robust_credited.mono (by decide)) hv hc hp ha fun _ hv h =>
    safe_of_splits hv.2 (funds_of_nothing hv.1.1.1 hv.2 hv.1.2) (splits_of_closes hv.1.1.2 h)

/-- A top-up funds no escrow. -/
theorem wp_settleTopup {j : Id} {p : PaymentIntent} {Q : Unit → TxView → Prop} (hc : Clean v)
    (hQ : ∀ v', Credited v' → IntentsClean v' → Q () v') :
    wp splitPolicy.around (PaymentService.settleTopup refresh c j p) Q v := by
  unfold PaymentService.settleTopup
  refine robust_clean.wp_bind writesTo_getByUser (List.Subset.refl _) hc fun _ v hc => ?_
  split
  · trivial
  rw [wp_bind]
  refine wp_creditTopup hc.2.1 (fun v₁ hl _ => ?_) fun v₀ v' g n _ _ hb => ?_
  · have hc' := robust_clean.later hc hl
    exact hQ v₁ (credited_of_clean hc') hc'.1.2.1
  · have hkeep : Robust splitPolicy [.wallets, .transactions] fun v =>
        ((OrdersClean v ∧ InvoicesClean v) ∧ IntentsClean v) ∧ splitPolicy.Framed v :=
      (((robust_ordersClean (by decide)).and (robust_invoicesClean (by decide))).and
        (robust_intentsClean (by decide))).and (robust_framed.mono (by decide))
    obtain ⟨⟨hoi, hi⟩, hf⟩ := hb.robust hkeep ⟨⟨hc.1.1, hc.1.2.1⟩, hc.2.1⟩
    refine hQ v' ⟨⟨hoi, appends_of_booked hb hc.1.2.2 fun leg hleg t ht k hk => ?_⟩, hf⟩ hi
    rw [ht.idempotencyKey] at hk
    simp only [topupLegs, List.mem_cons, List.not_mem_nil, or_false] at hleg
    -- No leg of a top-up has the key of an escrow.
    rcases hleg with rfl | rfl <;> cases hk

/-- What is known before the intent is closed that paid an invoice. -/
def Settled (iid j : Id) (l : Invoice) (o : Order) (p : PaymentIntent) (v : TxView) : Prop :=
  ((HeldIntent j p v ∧ HeldOrder l.orderId o v ∧ FrozenRow iid l v) ∧ OthersSame iid v) ∧
    splitPolicy.Framed v ∧ Funds v

/-- A write of the intents funds no escrow. -/
theorem robust_funds : Robust splitPolicy (.intents :: others) Funds :=
  .ofReach (B := fun _ x => FundedByTotal x) fun _ x y hxy hx => by
    unfold FundedByTotal at hx ⊢
    rw [hxy.transactions_eq (by decide), hxy.invoices_eq (by decide), hxy.orders_eq (by decide)]
    intro t ht iid hk
    exact ⟨(hxy.wallets t.walletId).trans (hx t ht iid hk).1, (hx t ht iid hk).2⟩

/-- A write of the intents leaves what is known after a settlement. -/
theorem robust_settled {j : Id} {p : PaymentIntent} :
    Robust splitPolicy (.intents :: others) (Settled iid j l o p) :=
  (((robust_heldIntent p).and ((robust_heldOrder o).and (robust_frozenRow _))).and
    (robust_othersSame.mono (by decide))).and ((robust_framed.mono (by decide)).and robust_funds)

/-- The intent that paid was the only one that was open. -/
theorem splits_of_settled {j : Id} {p : PaymentIntent} (h : Settled iid j l o p v)
    (href : p.referenceInvoiceId = some iid) (hp : p.status = .new) (hc : Closes j v) :
    Splits v := by
  intro d hd k
  obtain ⟨⟨hj, ho, hrow⟩, hs⟩ := h.1
  by_cases hk : k = iid
  · subst hk
    have hopen : OpenIntent d k j p := ⟨(Policy.rely_intent hd hj.1).trans hj.2, href, hp⟩
    refine .inr ⟨.of_closed fun m q hq => ?_, fun i hi => ?_⟩
    · obtain ⟨hm, hq⟩ := opens_of_closes hc hq
      exact hm ((hd.1.split k).sole m q j p hq hopen)
    · obtain ⟨i', hi', hf⟩ := Option.map_eq_some_iff.mp ((robust_frozenRow []).rely v d hrow hd)
      obtain rfl : i' = i := Option.some.inj (hi'.symm.trans hi)
      rw [Invoice.orderId_of_frozen hf]
      exact ho.1
  · exact .inl ⟨by rw [hs d k hk], fun m q hq => (opens_of_closes hc hq).2⟩

/-- The state of a webhook that has locked the intent and its invoice. -/
def Matched (iid j : Id) (l : Invoice) (p : PaymentIntent) (v : TxView) : Prop :=
  Clean v ∧ HeldIntent j p v ∧ HeldInvoice iid l v

/-- Writes to other tables leave what the webhook has locked. -/
theorem robust_matched {j : Id} {p : PaymentIntent} :
    Robust splitPolicy others (Matched iid j l p) :=
  robust_clean.and ((robust_heldIntent p).and (robust_heldInvoice l))

/-- The funding of the escrow with both parts, and its record. -/
theorem wp_fundAndRecord {j w : Id} {p : PaymentIntent} {m : PaymentMethod} {held : Bool}
    {Q : Unit → TxView → Prop} (hv : Matched iid j l p v) (ho : HeldOrder l.orderId o v)
    (hsum : l.amountFromWallet + p.amount = l.totalAmount)
    (hQ : ∀ v', Settled iid j l o p v' → IntentsClean v' → Q () v') :
    wp splitPolicy.around (fundEscrowForInvoice refresh w (money l.amountFromWallet)
      (money p.amount) iid l.orderId (some j) held c >>= fun _ =>
        PaymentService.settleInvoiceRecord now iid l l.orderId o m l.amountFromWallet p.amount)
      Q v := by
  -- Recording the settlement, which is what comes last on each path.
  have hrecord : ∀ v, ((OrdersClean v ∧ InvoicesClean v) ∧ IntentsClean v ∧ HeldIntent j p v) ∧
      Recording iid l o v → wp splitPolicy.around (PaymentService.settleInvoiceRecord now iid l
        l.orderId o m l.amountFromWallet p.amount) Q v := by
    intro v ⟨⟨hc, hi, hp⟩, hr⟩
    refine wp_settleInvoiceRecord ((robust_intentsClean (by decide)).and ((robust_heldIntent p).and
      ((robust_heldOrder o).and (robust_frozenRow _)))) ⟨hi, hp, hr.1.1⟩ hr hc ?_
    exact fun v ⟨hi, hp, hr⟩ hf hfund hs => hQ v ⟨⟨⟨hp, hr⟩, hs⟩, hf, hfund⟩ hi
  have hfrozen : FrozenRow iid l v := congrArg (Option.map Invoice.frozen) hv.2.2.2
  have hkeep : Robust splitPolicy (.transactions :: others) fun v =>
      ((OrdersClean v ∧ InvoicesClean v) ∧ IntentsClean v ∧ HeldIntent j p v) ∧
        (HeldOrder l.orderId o v ∧ FrozenRow iid l v) ∧ splitPolicy.Framed v :=
    (((robust_ordersClean (by decide)).and (robust_invoicesClean (by decide))).and
      ((robust_intentsClean (by decide)).and (robust_heldIntent p))).and
      (((robust_heldOrder o).and (robust_frozenRow _)).and (robust_framed.mono (by decide)))
  have hstart : ((OrdersClean v ∧ InvoicesClean v) ∧ IntentsClean v ∧ HeldIntent j p v) ∧
      (HeldOrder l.orderId o v ∧ FrozenRow iid l v) ∧ splitPolicy.Framed v :=
    ⟨⟨hv.1.1.1, hv.1.1.2.1, hv.2.1⟩, ⟨ho, hfrozen⟩, hv.1.2.1⟩
  rw [wp_bind]
  refine wp_fundEscrow hv.1.2.1 (fun v₁ hl _ => ?_) fun v₀ v' g e a b ha hb _ _ he _ hbook => ?_
  · -- A replay books nothing.
    obtain ⟨hc, hr, hf⟩ := hkeep.later hstart hl
    exact hrecord v₁ ⟨hc, ⟨hr, appends_of_clean ((robust_clean.later hv.1 hl).1.2.2)⟩, hf⟩
  · obtain ⟨rfl, -⟩ := eq_of_quantizeMoney_money ha
    obtain ⟨rfl, -⟩ := eq_of_quantizeMoney_money hb
    -- The group is booked: its rows are the escrow of the whole invoice.
    have hposted : ((OrdersClean v' ∧ InvoicesClean v') ∧ IntentsClean v' ∧ HeldIntent j p v') ∧
        Recording iid l o v' := by
      obtain ⟨hc, hr, hf⟩ := hbook.robust (hkeep.mono (by decide)) hstart
      have happ := appends_of_funding hbook hv.1.1.2.2 he
      rw [hsum] at happ
      exact ⟨hc, ⟨hr, happ⟩, hf⟩
    have hrobust : Robust splitPolicy [.wallets] fun v =>
        ((OrdersClean v ∧ InvoicesClean v) ∧ IntentsClean v ∧ HeldIntent j p v) ∧
          Recording iid l o v :=
      (((robust_ordersClean (by decide)).and (robust_invoicesClean (by decide))).and
        ((robust_intentsClean (by decide)).and (robust_heldIntent p))).and
        (robust_recording.mono (by decide))
    -- With a hold on the wallet's part, the hold is released in between.
    exact ⟨fun _ => hrecord v' hposted, fun _ _ => hrobust.wp_last writesTo_releaseHold
      (List.Subset.refl _) hposted fun _ => hrecord⟩

/-- The settlement of an invoice funds the escrow with both parts, which add up to the total because
the locked intent is open. -/
theorem wp_settleInvoice {j : Id} {p : PaymentIntent} {Q : Unit → TxView → Prop} (hc : Clean v)
    (hp : HeldIntent j p v) (hnew : p.status = .new)
    (hpaid : ∀ v', Clean v' → Q () v')
    (hQ : ∀ k l o v', p.referenceInvoiceId = some k → Settled k j l o p v' → IntentsClean v' →
      Q () v') :
    wp splitPolicy.around (PaymentService.settleInvoice refresh now c j p) Q v := by
  unfold PaymentService.settleInvoice
  split
  · trivial
  rename_i k href
  rw [wp_bind]
  refine wp_lockInvoice (fun _ _ => trivial) fun d l hd hl => ?_
  have hrobust : Robust splitPolicy others fun v => Clean v ∧ HeldIntent j p v :=
    robust_clean.and (robust_heldIntent p)
  obtain ⟨hc', hp'⟩ := hrobust.held _ [.invoice k] (hrobust.rely v d ⟨hc, hp⟩ hd)
  have hv : Matched k j l p { v with held := .invoice k :: v.held, last := d } :=
    ⟨hc', hp', List.mem_cons_self, by rw [← hc.1.1.2 d]; exact hl⟩
  dsimp only
  rw [wp_ite]
  -- An invoice that is paid already leaves the money where it is.
  refine ⟨fun _ => hpaid _ hv.1, fun _ => ?_⟩
  rw [wp_bind]
  refine wp_lockOrder_clean robust_matched hv hv.1.1.1.1 (fun _ _ => trivial) fun o v hv ho _ => ?_
  refine (robust_matched.and (robust_heldOrder o)).wp_bind writesTo_getByUser (List.Subset.refl _)
    ⟨hv, ho⟩ fun y v ⟨hv, ho⟩ => ?_
  split
  · trivial
  · refine wp_fundAndRecord hv ho ?_ fun v' hs hi => hQ k l o v' href hs hi
    exact (hv.1.2.2.split k).sum j p l ⟨hv.2.1.2, href, hnew⟩ hv.2.2.2

/-- `handle_webhook` leaves the parts of every open payment adding up. -/
theorem wp_handleWebhook {a b : Bool} {e : Except Err PaymentService.WebhookEvent} (hc : Clean v) :
    wp splitPolicy.around (PaymentService.handleWebhook refresh now a b c e)
      (fun _ v => splitPolicy.Safe v) v := by
  refine wp_require_bind fun _ => wp_ofExcept_bind fun event _ => wp_require_bind fun _ => ?_
  unfold PaymentService.settleLocked
  rw [wp_bind]
  -- The intent's row is loaded under its lock.
  refine wp_lockByLink (fun _ _ => trivial) fun d j p hd hp _ => ?_
  have hc' : Clean { v with held := .intent j :: v.held, last := d } :=
    robust_clean.held _ [_] (robust_clean.rely v d hc hd)
  have hh : HeldIntent j p { v with held := .intent j :: v.held, last := d } :=
    ⟨List.mem_cons_self, by rw [← hc.1.2.1 d]; exact hp⟩
  dsimp only
  rw [wp_ite]
  refine ⟨fun _ => safe_of_clean hc', fun hnew => ?_⟩
  have hnew : p.status = .new := not_not.mp hnew
  rw [wp_ite]
  constructor
  · -- The event is a failure: the intent is closed and no money moves.
    intro _
    rw [wp_bind]
    exact wp_closeCredited (credited_of_clean hc') hc'.1.2.1 hnew (by simp)
  · intro _
    refine wp_ofExcept_bind fun _ _ => wp_ofExcept_bind fun _ _ => wp_require_bind fun _ => ?_
    -- The event is a payment: marking the intent as paid is the last write.
    have hclose : ∀ v, Credited v → IntentsClean v → wp splitPolicy.around
        (PaymentRepository.markPaid j p now >>= fun _ => pure PaymentService.WebhookOutcome.processed)
        (fun _ v => splitPolicy.Safe v) v := fun v hv hi => by
      rw [wp_bind]
      exact wp_closeCredited hv hi hnew (by simp)
    rw [wp_bind]
    unfold PaymentService.settleIntent
    split
    · -- A top-up has no invoice.
      exact wp_settleTopup hc' hclose
    · refine wp_settleInvoice hc' hh hnew (fun v hv => hclose v (credited_of_clean hv) hv.1.2.1) ?_
      intro k l o v href hs hi
      rw [wp_bind]
      exact wp_closeIntent (robust_settled.mono (by decide)) hs hi hnew (by simp) fun v hv hcl =>
        safe_of_splits hv.2.1 hv.2.2 (splits_of_settled hv href hnew hcl)

/-- The intent of a top-up belongs to no invoice. -/
theorem splits_of_topup {j : Id} {p : PaymentIntent} (hc : InvoicesClean v) (ho : Opened j p v)
    (hp : p.referenceInvoiceId = none) : Splits v := by
  intro d hd k
  obtain ⟨-, hrow, hsame⟩ := ho d hd
  refine .inl ⟨by rw [hc d], fun m q hq => ?_⟩
  by_cases hm : m = j
  · subst hm
    obtain rfl : p = q := Option.some.inj (hrow.symm.trans hq.1)
    exact absurd (hp.symm.trans hq.2.1) (by simp)
  · exact ⟨hsame m hm ▸ hq.1, hq.2⟩

/-- A new top-up refers to no invoice. -/
theorem wp_createTopup {g : PaymentService.Gateway} {j t u : Id} {a : Decimal} (hc : Clean v) :
    wp splitPolicy.around (PaymentService.createTopup s now g j t u a)
      (fun _ v => splitPolicy.Safe v) v := by
  refine wp_ofExcept_bind fun n _ => wp_require_bind fun _ => ?_
  refine robust_clean.wp_bind writesTo_getByUser (List.Subset.refl _) hc fun _ v hc => ?_
  split
  · trivial
  rw [wp_bind]
  refine wp_createIntent robust_credited (credited_of_clean hc) hc.1.2.1 fun v hv ho => ?_
  have hrobust : ∀ p, Robust splitPolicy others fun v => Credited v ∧ Opened j p v := fun p =>
    (robust_credited.mono (by decide)).and (robust_opened.mono (by decide))
  refine (hrobust _).wp_bind writesTo_createTopupRow (by decide) ⟨hv, ho⟩ fun _ v hv => ?_
  refine (hrobust _).wp_bind writesTo_createCheckout (List.nil_subset _) hv fun _ v hv => ?_
  rw [wp_bind]
  refine wp_attach robust_credited hv.1 hv.2 rfl fun v p hv ho hfrozen _ _ => ?_
  have href : p.referenceInvoiceId = none := congrArg PaymentIntent.referenceInvoiceId hfrozen
  exact safe_of_splits hv.2 (funds_of_nothing hv.1.1.1 hv.2 hv.1.2)
    (splits_of_topup hv.1.1.2 ho href)

/-- A withdrawal that is requested writes nothing that matters. -/
theorem wp_requestWithdrawal {w k : Id} {a : Decimal} {t : Text} (hc : Clean v) :
    wp splitPolicy.around (WithdrawalService.requestWithdrawal refresh s w k a t)
      (fun _ v => splitPolicy.Safe v) v :=
  robust_clean.wp_last writesTo_requestWithdrawal (by decide) hc fun _ _ h => safe_of_clean h

/-- A withdrawal that is rejected writes nothing that matters. -/
theorem wp_rejectWithdrawal {w k : Id} {t : Text} (hc : Clean v) :
    wp splitPolicy.around (WithdrawalService.reject refresh w k t)
      (fun _ v => splitPolicy.Safe v) v :=
  robust_clean.wp_last writesTo_rejectWithdrawal (by decide) hc fun _ _ h => safe_of_clean h

end SplitProof

/-! ## Runs -/

/-- The requests that pay, top up, or hold and release money of a wallet. -/
def Request.pays : Request → Prop
  | .payInvoice .. | .handleWebhook .. | .createTopup .. | .requestWithdrawal ..
  | .rejectWithdrawal .. => True
  | _ => False

/-- Every such request follows the policy. -/
theorem SplitProof.follows {refresh : Bool} {s : Settings} {p : Tx Unit}
    (hp : Requested refresh s Request.pays p) : splitPolicy.discipline.Follows .empty p := by
  obtain ⟨r, hr, rfl⟩ := hp
  have hsafe : ∀ d, splitPolicy.inv d → wp splitPolicy.around (r.tx refresh s)
      (fun _ v => splitPolicy.Safe v) (.start .empty d) := by
    intro d hd
    cases r with
    | payInvoice => exact wp_void wp_payInvoice
    | handleWebhook => exact wp_void (wp_handleWebhook (clean_start hd))
    | createTopup => exact wp_void (wp_createTopup (clean_start hd))
    | requestWithdrawal => exact wp_void (wp_requestWithdrawal (clean_start hd))
    | rejectWithdrawal => exact wp_rejectWithdrawal (clean_start hd)
    | _ => exact hr.elim
  have htables : r.tables ⊆ splitPolicy.tables := by
    cases r with
    | payInvoice | handleWebhook | createTopup | requestWithdrawal | rejectWithdrawal =>
      simp [Request.tables, splitPolicy, paymentTables]
    | _ => exact hr.elim
  exact Policy.follows (r.writesTo refresh s) htables hsafe

/-- In every run of payments, webhooks and top-ups whose locks are granted under `splitCurrent`, an
invoice has at most one `NEW` intent, the wallet's part and the amount of this intent add up to the
total, and the escrow is funded with exactly the total. -/
theorem split_adds_up (refresh : Bool) (s : Settings) (d₀ : Db) (h₀ : SplitOk d₀)
    (sys : System Db Row Err Memory Unit)
    (hrun : System.Run (Requested refresh s Request.pays) splitCurrent .empty d₀ sys) (iid : Id)
    (i : Invoice) (hi : sys.db.invoices.get? iid = some i) :
    (∀ j p, OpenIntent sys.db iid j p → i.amountFromWallet + p.amount = i.totalAmount ∧
      ∀ j' p', OpenIntent sys.db iid j' p' → j' = j) ∧
    ∀ t ∈ sys.db.transactions, t.idempotencyKey = some (.escrow iid) →
      OnEscrow sys.db t ∧ t.amount = i.totalAmount := by
  have hinv : SplitOk sys.db :=
    Discipline.inv_of_run (fun p hp => SplitProof.follows hp) h₀ hrun
  refine ⟨fun j p hp => ⟨(hinv.split iid).sum j p i hp hi, fun j' p' hp' => ?_⟩,
    fun t ht hk => ?_⟩
  · exact (hinv.split iid).sole j' p' j p hp' hp
  · obtain ⟨hw, i', hi', ha, -⟩ := hinv.funded t ht iid hk
    obtain rfl : i' = i := Option.some.inj (hi'.symm.trans hi)
    exact ⟨hw, ha⟩

/-- The invoice of an order that awaits its payment, whose customer has 30.00. -/
def Sample.short : Db :=
  ordered (wallets 3000 0 0) (order .waitingPayment) (invoice .issued 0 0)

/-- No payment of the invoice is open in the sample. -/
theorem Sample.short_splitOk : SplitOk short where
  wallets := .of_rows (by decide)
  split _ := .of_closed fun j p h => by cases h.1
  funded t ht := by cases ht

/-- A payment of the invoice, whose intent is `j`. -/
def Sample.payBy (j : Id) : Tx Unit :=
  Request.tx false settings (.payInvoice 0 ⟨j, j + 100, gateway⟩ 601 1)

/-- The gateway's event that a payment failed. -/
def Sample.declined (link : Id) : Tx Unit :=
  Request.tx false settings (.handleWebhook 0 true true 104 (.ok ⟨link, ['F'], none⟩))

/-- The payment is one of the requests. -/
theorem Sample.requested_payBy (j : Id) : Requested false settings Request.pays (payBy j) :=
  ⟨.payInvoice 0 ⟨j, j + 100, gateway⟩ 601 1, trivial, rfl⟩

/-- A payment of 30.00 from the wallet and the rest from the gateway is declined, and while the
gateway's event is in progress the customer pays again: the new intent and the part that the invoice
has now add up to the total. -/
theorem split_adds_up_short :
    ∃ sys : System Db Row Err Memory Unit,
      System.Run (Requested false Sample.settings Request.pays) splitCurrent .empty Sample.short
        sys ∧
      ∃ i p, sys.db.invoices.get? 601 = some i ∧ OpenIntent sys.db 601 303 p ∧
        i.amountFromWallet + p.amount = i.totalAmount := by
  obtain ⟨sys, hrun, hq⟩ := System.Run.exists_of_play
    (Requested false Sample.settings Request.pays) splitCurrent .empty Sample.short
    -- The first payment ends; then the event and the second payment overlap.
    (.start (Sample.payBy 302) :: List.replicate 18 (.step 0) ++
      [.start (Sample.declined 1302), .start (Sample.payBy 303)] ++ List.replicate 2 (.step 1) ++
      List.replicate 7 (.step 2) ++ [.step 1] ++ List.replicate 7 (.step 2))
    (fun sys => (sys.db.invoices.get? 601).isSome && (sys.db.intents.get? 303).any fun p =>
      p.referenceInvoiceId = some 601 && p.status = .new)
    (by
      intro p hp
      simp only [List.cons_append, List.mem_append, List.mem_cons, List.mem_replicate,
        System.Event.start.injEq, List.not_mem_nil, reduceCtorEq, and_false, or_false,
        false_or] at hp
      rcases hp with rfl | rfl | rfl
      · exact Sample.requested_payBy 302
      · exact ⟨.handleWebhook 0 true true 104 _, trivial, rfl⟩
      · exact Sample.requested_payBy 303)
    (by decide +kernel)
  simp only [Bool.and_eq_true, decide_eq_true_eq, Option.any_eq_true] at hq
  obtain ⟨hi, p, hp, href, hnew⟩ := hq
  obtain ⟨i, hi⟩ := Option.isSome_iff_exists.mp hi
  have h := split_adds_up false Sample.settings Sample.short Sample.short_splitOk sys hrun 601 i hi
  exact ⟨sys, hrun, i, p, hi, ⟨hp, href, hnew⟩, (h.1 303 p ⟨hp, href, hnew⟩).1⟩

/-- A second payment reads the invoice before the first one writes the wallet's part. The first
intent fails, and the second payment writes no part, since it computes the one that it has read:
30.00 on the invoice and an intent of 100.00 for a total of 100.00. -/
theorem stale_part_does_not_add_up :
    SplitOk Sample.short ∧
    ∃ sys : System Db Row Err Memory Unit,
      System.Run (Requested false Sample.settings Request.pays) (System.always Db Row Memory) .empty
        Sample.short sys ∧
      ∃ i p, sys.db.invoices.get? 601 = some i ∧ OpenIntent sys.db 601 303 p ∧
        i.amountFromWallet + p.amount ≠ i.totalAmount := by
  refine ⟨Sample.short_splitOk, ?_⟩
  obtain ⟨sys, hrun, hq⟩ := System.Run.exists_of_play
    (Requested false Sample.settings Request.pays) (System.always Db Row Memory) .empty Sample.short
    -- The second payment reads the invoice, then the first one and its event run to their ends.
    ([.start (Sample.payBy 302), .start (Sample.payBy 303)] ++ List.replicate 2 (.step 1) ++
      List.replicate 18 (.step 0) ++ [.start (Sample.declined 1302)] ++
      List.replicate 3 (.step 2) ++ List.replicate 12 (.step 1))
    (fun sys => (sys.db.invoices.get? 601).any fun i => (sys.db.intents.get? 303).any fun p =>
      (p.referenceInvoiceId = some 601 && p.status = .new) &&
        i.amountFromWallet + p.amount ≠ i.totalAmount)
    (by
      intro p hp
      simp only [List.mem_append, List.mem_cons, List.mem_replicate, System.Event.start.injEq,
        List.not_mem_nil, reduceCtorEq, and_false, or_false] at hp
      rcases hp with (rfl | rfl) | rfl
      · exact Sample.requested_payBy 302
      · exact Sample.requested_payBy 303
      · exact ⟨.handleWebhook 0 true true 104 _, trivial, rfl⟩)
    (by decide +kernel)
  simp only [Bool.and_eq_true, decide_eq_true_eq, Option.any_eq_true] at hq
  obtain ⟨i, hi, p, hp, ⟨href, hnew⟩, hne⟩ := hq
  exact ⟨sys, hrun, i, p, hi, ⟨hp, href, hnew⟩, hne⟩

end Giftly
