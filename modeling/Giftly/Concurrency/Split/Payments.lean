import Giftly.Concurrency.Split.Policy

/-!
# Payments keep their two parts together

The rules for `pay_invoice`. A payment from the wallet closes the invoice while no intent is open,
and a payment through the gateway writes the wallet's part and opens the one intent for the rest.
-/

namespace Giftly

open Store OrderState
open WalletRepository MoneyService

namespace SplitProof

variable {v : TxView} {iid id c : Id} {i₀ l : Invoice} {refresh : Bool} {now : Time} {s : Settings}
  {o : Order}

/-! ## The record of a settlement -/

/-- No invoice but one was changed. -/
def OthersSame (iid : Id) (v : TxView) : Prop :=
  ∀ d j, j ≠ iid → (v.pending d).invoices.get? j = d.invoices.get? j

/-- Writes to other tables change no invoice. -/
theorem robust_othersSame : Robust splitPolicy (.orders :: .intents :: others) (OthersSame iid) :=
  .ofPending (B := fun d x => ∀ j, j ≠ iid → x.invoices.get? j = d.invoices.get? j)
    fun _ _ _ hxy hx => by rwa [hxy.invoices_eq (by decide)]

/-- The flush of an order that goes on to `IN_PROGRESS`. -/
theorem wp_advance {oid : Id} {a : Order} {K : TxView → Prop} {Q : Unit → TxView → Prop}
    (hK : Robust splitPolicy (.orders :: others) K) (hv : K v) (hc : OrdersClean v)
    (ht : canTransition o.status a.status = true) (ha : a.status = .inProgress)
    (hQ : ∀ v', K v' → Advanced oid v' → Q () v') :
    wp splitPolicy.around (OrderRepository.flush now oid o a) Q v := by
  have hne : a.status ≠ o.status := ne_of_canTransition ht
  refine wp_flushOrder (fun h => hne (h ▸ rfl)) fun d z hd _ _ => hQ _ ?_ fun d' _ j o₁ ho₁ => ?_
  · exact hK.patch _ [.order oid] _
      ((Framed.updateOrder List.mem_cons_self (o.assign_frozen a)).mono (by decide))
      (hK.rely v d hv hd)
  · simp only [Function.comp_apply, Db.updateOrder, Table.get?_update, hc d', ho₁, Option.map_some]
    split_ifs with hj
    · exact ⟨_, rfl, fun _ => (if_neg hne).trans ha, fun h => absurd hj h⟩
    · exact ⟨o₁, rfl, fun h => absurd h hj, fun _ => rfl⟩

/-- What is known while a settlement is recorded. -/
def Recording (iid : Id) (l : Invoice) (o : Order) (v : TxView) : Prop :=
  ((HeldOrder l.orderId o v ∧ FrozenRow iid l v) ∧ Appends (FundsOnly iid l.totalAmount) v) ∧
    splitPolicy.Framed v

/-- Writes to other tables leave what is known while a settlement is recorded. -/
theorem robust_recording :
    Robust splitPolicy (.orders :: .invoices :: .intents :: others) (Recording iid l o) :=
  (((robust_heldOrder o).and (robust_frozenRow _)).and
    (robust_appends (by decide) fun _ => robust_fundsOnly _)).and (robust_framed.mono (by decide))

/-- The record of a settlement changes one invoice and its order, after which escrow is funded with
totals. -/
theorem wp_settleInvoiceRecord {m : PaymentMethod} {a b : ℤ} {K : TxView → Prop}
    {Q : Unit → TxView → Prop} (hK : Robust splitPolicy (.orders :: .invoices :: others) K)
    (hv : K v) (hr : Recording iid l o v) (hc : OrdersClean v ∧ InvoicesClean v)
    (hQ : ∀ v', K v' → splitPolicy.Framed v' → Funds v' → OthersSame iid v' → Q () v') :
    wp splitPolicy.around (PaymentService.settleInvoiceRecord now iid l l.orderId o m a b) Q v := by
  refine wp_ofExcept_bind fun a _ => wp_ofExcept_bind fun b _ => wp_assertTransition_bind
    fun ht => ?_
  rw [wp_bind]
  refine wp_advance (((hK.mono (by decide)).and (robust_recording.mono (by decide))).and
    (robust_invoicesClean (by decide))) ⟨⟨hv, hr⟩, hc.2⟩ hc.1 ht rfl fun v ⟨⟨hv, hr⟩, hc⟩ ha => ?_
  have hrobust : Robust splitPolicy (.invoices :: others) fun v =>
      (K v ∧ Recording iid l o v) ∧ Advanced l.orderId v :=
    ((hK.mono (by decide)).and (robust_recording.mono (by decide))).and
      (robust_advanced.mono (by decide))
  -- Consuming the promo's slot comes last and writes neither orders nor invoices.
  have hdone : ∀ v, ((K v ∧ Recording iid l o v) ∧ Advanced l.orderId v) ∧ OthersSame iid v →
      wp splitPolicy.around (PromoService.consume now iid) Q v := fun v hv =>
    ((hrobust.mono (by decide)).and (robust_othersSame.mono (by decide))).wp_last writesTo_consume
      (show _ ⊆ others by decide) hv fun _ v' ⟨⟨⟨hv, hr⟩, ha⟩, hs⟩ =>
        hQ v' hv hr.2 (funds_of_advanced hr.2 hr.1.1.1 hr.1.1.2 ha hr.1.2) hs
  rw [wp_bind]
  refine wp_flushInvoice (fun _ => hdone v ⟨⟨⟨hv, hr⟩, ha⟩, fun d j _ => by rw [hc d]⟩)
    fun d i hd _ => hdone _ ⟨?_, fun d' j hj => ?_⟩
  · exact hrobust.patch _ [.invoice iid] _
      ((Framed.updateInvoice List.mem_cons_self (l.assign_frozen _)).mono (by decide))
      (hrobust.rely v d ⟨⟨hv, hr⟩, ha⟩ hd)
  · simp only [Function.comp_apply, Db.updateInvoice, Table.get?_update_ne _ _ hj, hc d']

/-! ## Payments from the wallet -/

/-- The state of a payment that has locked the order, and written nothing. -/
def Paying (iid : Id) (l : Invoice) (o : Order) (v : TxView) : Prop :=
  (Clean v ∧ HeldOrder l.orderId o v) ∧ Pinned iid l v

/-- Writes to other tables leave what a payment knows. -/
theorem robust_paying : Robust splitPolicy others (Paying iid l o) :=
  (robust_clean.and (robust_heldOrder o)).and (robust_pinned _)

/-- The row of a pinned invoice has the columns that were read. -/
theorem frozenRow_of_pinned (h : Pinned iid l v) : FrozenRow iid l v := by
  obtain ⟨i, hi, hp⟩ := Option.map_eq_some_iff.mp h.2
  rw [FrozenRow, hi, Option.map_some]
  exact congrArg (fun x => some x.1) hp

/-- While the order awaits its payment, the escrow of the invoice was not funded. -/
theorem escrow_unknown (h : Paying iid l o v) (hs : o.status = .waitingPayment) :
    .escrow iid ∉ ledgerKeys v.seen.transactions := by
  intro hkey
  rw [View.seen, h.1.1.1.2.2] at hkey
  obtain ⟨t, ht, htk⟩ := List.mem_filterMap.mp hkey
  obtain ⟨-, i, hi, -, o', ho', hne⟩ := h.1.1.2.2.funded t ht iid htk
  obtain ⟨i', hi', hp⟩ := Option.map_eq_some_iff.mp h.2.2
  obtain rfl : i = i' := Option.some.inj (hi.symm.trans hi')
  rw [Invoice.orderId_of_frozen (congrArg Prod.fst hp), h.1.2.2] at ho'
  exact hne (Option.some.inj ho' ▸ hs)

/-- A payment from the wallet locks it while no intent is open. -/
theorem closed_of_booked {wid g e : Id} {w : Wallet} {x : Option Id} {a b : ℤ} {v₀ v' : TxView}
    (hb : BookedAfter splitPolicy refresh c (fundingLegs wid g e iid l.orderId x (a + b) a b) v v₀ v')
    (hv : Paying iid l o v) (hheld : v.held = [.order l.orderId])
    (hmi : v.mem.invoices iid = some l) (hmw : v.mem.wallets wid = some w)
    (hle : l.totalAmount ≤ w.balance - w.heldBalance) (ha : 0 ≤ a) (hb0 : b = 0) :
    Closed iid l v' := by
  obtain ⟨hprep, v₁, loaded, assigned, rows, d, hb, rfl⟩ := hb
  have hpos : 0 < a := by
    have hmem : fundingLeg iid l.orderId x e (.cents (a + b)) .escrowHold (some (.escrow iid)) ∈
        fundingLegs wid g e iid l.orderId x (a + b) a b := by simp [fundingLegs]
    have := hb.amount_ne_zero hmem
    simp only [fundingLeg, Dec.cents] at this
    omega
  have hwallet : wid ∈ walletIds (fundingLegs wid g e iid l.orderId x (a + b) a b) := by
    simp [walletIds, fundingLegs, hpos, fundingLeg]
  obtain ⟨leg, hleg, hid⟩ := List.mem_map.mp hwallet
  obtain ⟨w', hw'⟩ := Option.isSome_iff_exists.mp (hb.applied.found leg hleg)
  rw [hid] at hw'
  have hv₀ := robust_paying.later hv hprep.later
  have hgrant := hb.locked.granted wid w' hw'
  rw [Granted, hprep.held, hheld, or_iff_right (by simp)] at hgrant
  obtain ⟨m, d₁, row, hd₁, hlast, hmw', hmi', hcond, -, -⟩ := hgrant
  -- When the lock of the wallet was granted, the invoice had no open intent.
  have hd₁' : splitPolicy.around.rely v₀.held v₀.last d₁ := by
    rw [hprep.held, hheld]
    exact hd₁
  have hpin := (robust_pinned []).rely v₀ d₁ hv₀.2 hd₁'
  obtain ⟨i, hi, -⟩ := Option.map_eq_some_iff.mp hpin.2
  have hclosed : Closed iid l { v₀ with last := d₁ } := by
    refine ⟨hpin.1, hpin.2, fun j p hp => hcond w ?_ (iid, i) ?_ l ?_ hle (j, p) ?_ hp.2⟩
    · rw [hmw', hprep.inst wid w hmw]
      rfl
    · rw [hv₀.1.1.1.1.2 d₁]
      exact Table.get?_eq_some.mp hi
    · rw [hmi', hprep.invoices, hmi]
      rfl
    · rw [hv₀.1.1.1.2.1 d₁]
      exact Table.get?_eq_some.mp hp.1
  have hlater : Later splitPolicy { v₀ with last := d₁ } v₁ :=
    ⟨hb.locked.later.pending, hb.locked.later.held, by rw [hprep.held, hheld]; exact hlast⟩
  have hend := (robust_closed []).rely v₁ d ((robust_closed []).later hclosed hlater) hb.rely
  exact ⟨Booking.subset hend.1, hend.2⟩

/-- A payment that closes the invoice keeps the parts of every payment together. -/
theorem splits_of_closed (hc : Closed iid l v) (hi : IntentsClean v) (hs : OthersSame iid v) :
    Splits v := by
  intro d hd j
  have hcl := (robust_closed []).rely v d hc hd
  have hopen : ∀ k p, OpenIntent (v.pending d) j k p → OpenIntent d j k p := by
    intro k p hp
    rw [OpenIntent, hi d] at hp
    exact hp
  by_cases hj : j = iid
  · subst hj
    obtain ⟨i, hi, hp⟩ := Option.map_eq_some_iff.mp hcl.2.1
    refine .inr ⟨.of_closed fun k p h => hcl.2.2 k p (hopen k p h), fun i' hi' => ?_⟩
    obtain rfl : i = i' := Option.some.inj (hi.symm.trans hi')
    rw [Invoice.orderId_of_frozen (congrArg Prod.fst hp)]
    exact hc.1
  · exact .inl ⟨by rw [hs d j hj], hopen⟩

/-- The wallet-only branch pays the whole total, and `splitCurrent` leaves it no open intent. -/
theorem wp_payFromWallet {x : PaymentService.PayInput} {wid : Id} {w : Wallet}
    (hv : Paying iid l o v) (hs : o.status = .waitingPayment) (hheld : v.held = [.order l.orderId])
    (hmi : v.mem.invoices iid = some l) (hmw : v.mem.wallets wid = some w)
    (hle : l.totalAmount ≤ w.balance - w.heldBalance) :
    wp splitPolicy.around (PaymentService.payFromWallet refresh now x iid l o wid l.totalAmount)
      (fun _ v => splitPolicy.Safe v) v := by
  unfold PaymentService.payFromWallet
  rw [wp_bind]
  refine wp_fundEscrow hv.1.1.2.1 (fun v₁ hl hk => ?_) fun v₀ v' g e a b ha hb h0 _ he _ hbook => ?_
  · -- The key of the escrow is not there, so this is no replay.
    exact absurd hk (escrow_unknown (robust_paying.later hv hl) hs)
  · obtain ⟨rfl, -⟩ := eq_of_quantizeMoney_money ha
    obtain ⟨rfl, -⟩ := eq_of_quantizeMoney_money hb
    have hclosed := closed_of_booked hbook hv hheld hmi hmw hle h0 rfl
    have hkeep : Robust splitPolicy [.wallets, .transactions] fun v =>
        ((OrdersClean v ∧ InvoicesClean v) ∧ IntentsClean v) ∧ splitPolicy.Framed v ∧
          HeldOrder l.orderId o v :=
      (((robust_ordersClean (by decide)).and (robust_invoicesClean (by decide))).and
        (robust_intentsClean (by decide))).and
        ((robust_framed.mono (by decide)).and (robust_heldOrder o))
    obtain ⟨⟨hc, hi⟩, hf, hh⟩ := hbook.robust hkeep
      ⟨⟨hv.1.1.1.1, hv.1.1.1.2.1⟩, hv.1.1.2.1, hv.1.2⟩
    -- The wallet pays all of it, so the escrow gets exactly the total.
    have happ : Appends (FundsOnly iid l.totalAmount) v' := by
      have := appends_of_funding hbook hv.1.1.1.2.2 he
      rwa [add_zero] at this
    refine ⟨fun _ => ?_, fun h => absurd h Bool.false_ne_true⟩
    rw [wp_bind]
    refine wp_settleInvoiceRecord ((robust_closed _).and (robust_intentsClean (by decide)))
      ⟨hclosed, hi⟩ ⟨⟨⟨hh, frozenRow_of_pinned ⟨hclosed.1, hclosed.2.1⟩⟩, happ⟩, hf⟩ hc ?_
    exact fun v ⟨hcl, hi⟩ hf hfund hs => safe_of_splits hf hfund (splits_of_closed hcl hi hs)

/-! ## Payments through the gateway -/

/-- The wallet's part was written to an invoice, and no other invoice was changed. -/
def Shared (iid : Id) (l : Invoice) (n : ℤ) (v : TxView) : Prop :=
  ∀ d, splitPolicy.around.rely v.held v.last d →
    (∃ i, (v.pending d).invoices.get? iid = some i ∧ i.frozen = l.frozen ∧
      i.amountFromWallet = n) ∧
    ∀ j, j ≠ iid → (v.pending d).invoices.get? j = d.invoices.get? j

/-- Writes to other tables leave the wallet's part of the invoice. -/
theorem robust_shared {n : ℤ} :
    Robust splitPolicy (.orders :: .intents :: others) (Shared iid l n) :=
  .ofReach (B := fun d x => (∃ i, x.invoices.get? iid = some i ∧ i.frozen = l.frozen ∧
      i.amountFromWallet = n) ∧ ∀ j, j ≠ iid → x.invoices.get? j = d.invoices.get? j)
    fun _ _ _ hxy hx => by rwa [hxy.invoices_eq (by decide)]

/-- A new payment intent was written, and no other intent was changed. -/
def Opened (j : Id) (p : PaymentIntent) (v : TxView) : Prop :=
  ∀ d, splitPolicy.around.rely v.held v.last d → d.intents.get? j = none ∧
    (v.pending d).intents.get? j = some p ∧
    ∀ k, k ≠ j → (v.pending d).intents.get? k = d.intents.get? k

/-- Writes to other tables leave the new intent as it is. -/
theorem robust_opened {j : Id} {p : PaymentIntent} :
    Robust splitPolicy (.orders :: .invoices :: others) (Opened j p) :=
  .ofReach (B := fun d x => d.intents.get? j = none ∧ x.intents.get? j = some p ∧
      ∀ k, k ≠ j → x.intents.get? k = d.intents.get? k)
    fun _ _ _ hxy hx => by rwa [hxy.intents_eq (by decide)]

/-- The flush of the wallet's part. -/
theorem wp_flushShared {a : Invoice} {K : TxView → Prop} {Q : Unit → TxView → Prop}
    (hK : Robust splitPolicy (.invoices :: others) K) (hv : K v) (hp : Pinned iid l v)
    (hc : InvoicesClean v) (hQ : ∀ v', K v' → Shared iid l a.amountFromWallet v' → Q () v') :
    wp splitPolicy.around (InvoiceRepository.flush iid l a) Q v := by
  refine wp_flushInvoice (fun ha => hQ v hv fun d hd => ?_) fun d _ hd _ => hQ _ ?_ fun d' hd' => ?_
  · -- The assignment changed nothing, so nothing is written.
    obtain ⟨i, hi, hparts⟩ := Option.map_eq_some_iff.mp ((robust_pinned []).rely v d hp hd).2
    simp only [Invoice.parts, Prod.mk.injEq] at hparts
    rw [hc d, ha]
    exact ⟨⟨i, hi, hparts⟩, fun _ _ => rfl⟩
  · exact hK.patch _ [.invoice iid] _
      ((Framed.updateInvoice List.mem_cons_self (l.assign_frozen a)).mono (by decide))
      (hK.rely v d hv hd)
  · have hreach := Policy.rely_after [.invoice iid] hd hd'
    obtain ⟨i, hi, hparts⟩ := Option.map_eq_some_iff.mp ((robust_pinned []).rely v d' hp hreach).2
    simp only [Invoice.parts, Prod.mk.injEq] at hparts
    simp only [Function.comp_apply, Db.updateInvoice, hc d']
    refine ⟨⟨l.assign a i, ?_, (l.assign_frozen a i).trans hparts.1, ?_⟩, fun j hj =>
      Table.get?_update_ne _ _ hj⟩
    · rw [Table.get?_update_self, hi, Option.map_some]
    · -- The row has the value that was loaded, so the column is written.
      simp only [Invoice.assign, hparts.2, assign_self]

/-- The new intent is the only one that the request writes. -/
theorem wp_createIntent {j : Id} {p : PaymentIntent} {K : TxView → Prop}
    {Q : Unit → TxView → Prop} (hK : Robust splitPolicy (.intents :: others) K) (hv : K v)
    (hc : IntentsClean v) (hQ : ∀ v', K v' → Opened j p v' → Q () v') :
    wp splitPolicy.around (PaymentRepository.createIntent j p) Q v := by
  unfold PaymentRepository.createIntent
  refine wp_insertRow fun d hd hnone _ => hQ _ ?_ fun d' hd' => ?_
  · exact hK.patch _ _ _ ((Framed.insertIntent List.mem_cons_self p).mono (by decide))
      (hK.rely v d hv hd)
  · have hrow : d'.intents.get? j = none := by
      rw [Policy.rely_intent hd' List.mem_cons_self, ← hc d]
      exact hnone
    simp only [Function.comp_apply, Db.insertIntent, hc d']
    exact ⟨hrow, Table.get?_insert_self _ _ hrow, fun k hk => Table.get?_insert_ne _ _ hk⟩

/-- The payment link of a new intent. -/
theorem wp_attach {j link : Id} {url : Text} {p : PaymentIntent} {K : TxView → Prop}
    {Q : Unit → TxView → Prop} (hK : Robust splitPolicy (.intents :: others) K) (hv : K v)
    (ho : Opened j p v) (hp : p.streampayPaymentUrl = none)
    (hQ : ∀ v' p', K v' → Opened j p' v' → p'.frozen = p.frozen → p'.status = p.status →
      p'.streampayPaymentUrl = some url → Q () v') :
    wp splitPolicy.around (PaymentRepository.attachStreampay j p link url) Q v := by
  refine wp_flushIntent (fun h => ?_) fun d _ hd _ => ?_
  · -- The link was not set before, so the flush has something to write.
    have := congrArg PaymentIntent.streampayPaymentUrl h
    rw [hp] at this
    cases this
  · refine hQ _ (p.assign { p with
      streampayPaymentLinkId := some link, streampayPaymentUrl := some url } p) ?_
      (fun d' hd' => ?_) rfl (assign_self _ _) (assign_self _ _)
    · exact hK.patch _ _ _ ((Framed.updateIntent List.mem_cons_self (p.assign_frozen _)).mono
        (by decide)) (hK.rely v d hv hd)
    · obtain ⟨hnone, hrow, hsame⟩ := ho d' (Policy.rely_after _ hd hd')
      simp only [Function.comp_apply, Db.updateIntent]
      refine ⟨hnone, by rw [Table.get?_update_self, hrow, Option.map_some], fun k hk => ?_⟩
      rw [Table.get?_update_ne _ _ hk]
      exact hsame k hk

/-- The two parts of a payment that was started add up. -/
theorem splits_of_opened {j : Id} {p : PaymentIntent} {n : ℤ} (hc : Closed iid l v)
    (hs : Shared iid l n v) (ho : Opened j p v) (href : p.referenceInvoiceId = some iid)
    (hurl : p.streampayPaymentUrl.isSome = true) (hsum : n + p.amount = l.totalAmount) :
    Splits v := by
  intro d hd k
  have hcl := (robust_closed []).rely v d hc hd
  obtain ⟨⟨i', hi', hfrozen, hn⟩, hsame⟩ := hs d hd
  obtain ⟨hnone, hrow, hothers⟩ := ho d hd
  -- The new intent is the only one that was not open before.
  have hopen : ∀ m q, OpenIntent (v.pending d) k m q → (m = j ∧ q = p) ∨ OpenIntent d k m q := by
    intro m q hq
    by_cases hm : m = j
    · subst hm
      exact .inl ⟨rfl, (Option.some.inj (hrow.symm.trans hq.1)).symm⟩
    · exact .inr ⟨hothers m hm ▸ hq.1, hq.2⟩
  by_cases hk : k = iid
  · subst hk
    -- The invoice had no open intent, so the new one is its only one.
    have hsole : ∀ m q, OpenIntent (v.pending d) k m q → m = j ∧ q = p := fun m q hq =>
      (hopen m q hq).resolve_right fun h => hcl.2.2 m q h
    refine .inr ⟨⟨fun m q m' q' h h' => ?_, fun m q i hq hi => ?_, fun m q hq => ?_⟩,
      fun i hi => ?_⟩
    · rw [(hsole m q h).1, (hsole m' q' h').1]
    · obtain rfl : i' = i := Option.some.inj (hi'.symm.trans hi)
      rw [hn, (hsole m q hq).2, hsum, Invoice.totalAmount_of_frozen hfrozen]
    · rw [(hsole m q hq).2]
      exact hurl
    · obtain ⟨i₁, hi₁, hp⟩ := Option.map_eq_some_iff.mp hcl.2.1
      obtain rfl : i₁ = i := Option.some.inj (hi₁.symm.trans hi)
      rw [Invoice.orderId_of_frozen (congrArg Prod.fst hp)]
      exact hc.1
  · -- Another invoice: neither its share nor its intents changed.
    refine .inl ⟨by rw [hsame k hk], fun m q hq => (hopen m q hq).resolve_left fun h => hk ?_⟩
    rw [h.2] at hq
    exact Option.some.inj (hq.2.1.symm.trans href)

/-- The gateway branch writes two parts that add up, while no other intent of the invoice is open.
-/
theorem wp_startGateway {x : PaymentService.PayInput} {u w : Id} {a b : ℤ} (hc : Clean v)
    (hcl : Closed iid l v) (hsum : a + b = l.totalAmount) :
    wp splitPolicy.around (PaymentService.startGateway refresh s now x iid l u w a b)
      (fun _ v => splitPolicy.Safe v) v := by
  unfold PaymentService.startGateway
  refine (robust_clean.and (robust_closed _)).wp_bind (Prog.writes_when _ writesTo_holdFunds)
    (show _ ⊆ others by decide) ⟨hc, hcl⟩ fun _ v ⟨hc, hcl⟩ => ?_
  have hkept : Robust splitPolicy (.invoices :: .intents :: others) fun v =>
      ((OrdersClean v ∧ LedgerClean v) ∧ splitPolicy.Framed v) ∧ Closed iid l v :=
    (((robust_ordersClean (by decide)).and (robust_ledgerClean (by decide))).and
      (robust_framed.mono (by decide))).and (robust_closed _)
  rw [wp_bind]
  -- The invoice's share of the wallet is written first, while no intent is open.
  refine wp_flushShared ((hkept.mono (by decide)).and (robust_intentsClean (by decide)))
    ⟨⟨⟨⟨hc.1.1.1, hc.1.2.2⟩, hc.2.1⟩, hcl⟩, hc.1.2.1⟩ ⟨hcl.1, hcl.2.1⟩ hc.1.1.2
    fun v ⟨hk, hi⟩ hs => ?_
  have hshared : Robust splitPolicy (.intents :: others) fun v =>
      (((OrdersClean v ∧ LedgerClean v) ∧ splitPolicy.Framed v) ∧ Closed iid l v) ∧
        Shared iid l a v :=
    (hkept.mono (by decide)).and (robust_shared.mono (by decide))
  have hopened : ∀ p, Robust splitPolicy [] fun v =>
      ((((OrdersClean v ∧ LedgerClean v) ∧ splitPolicy.Framed v) ∧ Closed iid l v) ∧
        Shared iid l a v) ∧ Opened x.intentId p v := fun p =>
    (hshared.mono (by decide)).and (robust_opened.mono (by decide))
  rw [wp_bind]
  -- The intent is then inserted, and attached to its link after the call of the gateway.
  refine wp_createIntent hshared ⟨hk, hs⟩ hi fun v hk ho => ?_
  refine (hopened _).query_bind ⟨hk, ho⟩ fun _ v hk _ _ => ?_
  refine (hopened _).wp_bind writesTo_createCheckout (List.Subset.refl _) hk fun _ v hk => ?_
  rw [wp_bind]
  refine wp_attach hshared hk.1 hk.2 rfl fun v p ⟨hk, hs⟩ ho hfrozen hstatus hurl => ?_
  have href : p.referenceInvoiceId = some iid := by
    have := congrArg PaymentIntent.referenceInvoiceId hfrozen
    exact this
  have hamount : p.amount = b := by
    have := congrArg PaymentIntent.amount hfrozen
    exact this
  refine safe_of_splits hk.1.2 (funds_of_nothing hk.1.1.1 hk.1.2 (appends_of_clean hk.1.1.2)) ?_
  exact splits_of_opened hk.2 hs ho href (by rw [hurl]; rfl) (by rw [hamount, hsum])

/-- A transaction that has written nothing that matters may commit. -/
theorem safe_of_clean (h : Clean v) : splitPolicy.Safe v := by
  refine safe_of_splits h.2.1 (funds_of_nothing h.1.1.1 h.2.1 (appends_of_clean h.1.2.2)) ?_
  intro d _ j
  refine .inl ⟨by rw [h.1.1.2 d], fun k p hp => ?_⟩
  rw [OpenIntent, h.1.2.1 d] at hp
  exact hp

/-- The gateway branch with the rest of the total. -/
theorem wp_payThroughGateway {x : PaymentService.PayInput} {u w : Id} {a b : ℤ}
    (hv : Paying iid l o v) (hsum : a + b = l.totalAmount) :
    wp splitPolicy.around (PaymentService.payThroughGateway refresh s now x iid l u w a b)
      (fun _ v => splitPolicy.Safe v) v := by
  unfold PaymentService.payThroughGateway
  refine wp_query_bind fun d hd => ?_
  have hv' := robust_paying.rely v d hv hd
  split
  · exact safe_of_clean hv'.1.1
  · rename_i hnone
    refine wp_startGateway hv'.1.1 ⟨hv'.2.1, hv'.2.2, fun j p hp => ?_⟩ hsum
    -- An open intent has a payment link, so it would have been used again.
    have hp' : (v.pending d).intents.get? j = some p := by
      rw [hv.1.1.1.2.1 d]
      exact hp.1
    have hsome : ∃ r, ((v.pending d).intents.find? fun _ q =>
        q.referenceInvoiceId = some iid && q.status = .new) = some r :=
      Table.find?_isSome hp' (by simp [hp.2.1, hp.2.2])
    obtain ⟨⟨k, q⟩, hfind⟩ := hsome
    obtain ⟨hq, hqc⟩ := Table.find?_eq_some hfind
    simp only [Bool.and_eq_true, decide_eq_true_eq] at hqc
    rw [hv.1.1.1.2.1 d] at hq
    obtain ⟨url, hurl⟩ := Option.isSome_iff_exists.mp ((hd.1.split iid).url k q ⟨hq, hqc⟩)
    rw [hfind] at hnone
    simp [hurl] at hnone

/-- `pay_invoice` leaves the parts of every open payment adding up. -/
theorem wp_payInvoice {x : PaymentService.PayInput} {u : Id} {d₀ : Db} :
    wp splitPolicy.around (PaymentService.payInvoice refresh s now x iid u)
      (fun _ v => splitPolicy.Safe v) (.start .empty d₀) := by
  unfold PaymentService.payInvoice
  rw [wp_bind]
  refine wp_getInvoiceForActor (fun _ _ => trivial) fun d l hd hl => ?_
  refine wp_require_bind fun _ => wp_require_bind fun _ => ?_
  have hclean : Clean ⟨[], id, Memory.empty.setInvoice iid (some l), d⟩ := clean_start hd.1
  rw [wp_bind]
  refine wp_lockOrder (fun _ _ => trivial) fun d₁ o hd₁ hcond ho => ?_
  have hcond : splitCurrent (Memory.empty.setInvoice iid (some l)) d₁ (.order l.orderId) :=
    hcond.resolve_left List.not_mem_nil
  obtain ⟨i, hi, hfrozen⟩ := (Policy.rely_evolves hd₁).invoices iid l hl
  -- The lock was granted on the wallet's part that had been read.
  have hpart : i.amountFromWallet = l.amountFromWallet :=
    hcond (iid, i) (Table.get?_eq_some.mp hi) l (by simp [Memory.setInvoice]) rfl
  have hv : Paying iid l o
      ⟨[.order l.orderId], id, Memory.empty.setInvoice iid (some l), d₁⟩ := by
    refine ⟨⟨robust_clean.held _ [.order l.orderId] (clean_start hd₁.1), List.mem_cons_self, ho⟩,
      List.mem_cons_self, ?_⟩
    rw [hi, Option.map_some, Invoice.parts, hfrozen, hpart]
    rfl
  refine wp_require_bind fun hs => ?_
  refine wp_getByUser_bind hv.1.1.2.1 (fun _ _ => trivial) fun v₁ wid w t hprep hmw hk => ?_
  have hv₁ := robust_paying.later hv hprep.later
  refine wp_ofExcept_bind fun total htotal => ?_
  obtain ⟨rfl, -⟩ := eq_of_quantizeMoney_money htotal
  unfold availableBalance
  rw [wp_bind, wp_bind]
  refine wp_getByUser_again hv₁.1.1.2.1 hk hmw (fun d hd => hd.1.wallets) fun v₂ hprep₂ hmw₂ => ?_
  have hv₂ := robust_paying.later hv₁ hprep₂.later
  dsimp only
  rw [wp_ofExcept]
  intro available havail
  rw [MoneyService.available, Dec.sub_cents] at havail
  obtain ⟨rfl, -⟩ := eq_of_quantizeMoney_fix havail
  refine wp_ofExcept_bind fun b hb => ?_
  rw [Dec.sub_cents] at hb
  obtain ⟨rfl, -⟩ := eq_of_quantizeMoney_fix hb
  rw [wp_ite]
  constructor
  · intro hle
    refine wp_payFromWallet hv₂ hs ?_ ?_ hmw₂ (by omega)
    · rw [hprep₂.held, hprep.held]
    · rw [hprep₂.invoices, hprep.invoices]
      simp [Memory.setInvoice]
  · exact fun _ => wp_payThroughGateway hv₂ (by omega)

end SplitProof

end Giftly
