import Giftly.Concurrency.Rules
import Giftly.Concurrency.Wallets

/-!
# The operations of the ledger under concurrency

One rule for each operation of the ledger service. An operation reads the system wallets it needs
(`Prepared`), and then a replay changes nothing, or the group of its legs is booked. The holds
change the held balance of one wallet (`Holding`).
-/

namespace Giftly

open Store
open WalletRepository MoneyService

variable {P : Policy} {v : TxView} {refresh : Bool} {c : Id}

/-! ## Before a posting -/

/-- Reads of wallets were made between the two views. -/
structure Prepared (P : Policy) (v v₀ : TxView) : Prop where
  later : Later P v v₀
  held : v₀.held = v.held
  invoices : v₀.mem.invoices = v.mem.invoices
  inst : ∀ id w, v.mem.wallets id = some w → v₀.mem.wallets id = some w
  current : Current P v → Current P v₀

/-- No wallet is read. -/
theorem Prepared.refl (v : TxView) : Prepared P v v :=
  ⟨.refl v, rfl, rfl, fun _ _ h => h, fun h => h⟩

/-- Reads of wallets, and then others. -/
theorem Prepared.trans {v₁ v₂ : TxView} (h₁ : Prepared P v v₁) (h₂ : Prepared P v₁ v₂) :
    Prepared P v v₂ where
  later := h₁.later.trans h₂.later
  held := h₂.held.trans h₁.held
  invoices := h₂.invoices.trans h₁.invoices
  inst id w hw := h₂.inst id w (h₁.inst id w hw)
  current hc := h₂.current (h₁.current hc)

/-- A wallet that was found was read. -/
theorem Found.prepared {p : Wallet → Bool} {v₁ : TxView} {id : Id} {w : Wallet}
    (h : Found P p v v₁ id w) : Prepared P v v₁ where
  later := h.later
  held := h.held
  invoices := h.invoices
  inst j u hu := by
    by_cases hj : j = id
    · subst hj
      obtain ⟨row, -, -, hw⟩ := h.row
      rw [h.inst, hw, hu, Option.getD_some]
    · rw [h.others j hj, hu]
  current := h.current

/-- The owner and the type of a wallet, which never change. -/
def Kind (id : Id) (k : Option Id × WalletType) (v : TxView) : Prop :=
  (v.last.wallets.get? id).map Wallet.frozen = some k

/-- Owner and type of a wallet are frozen columns, so they stay known after any write. -/
theorem robust_kind {id : Id} {k : Option Id × WalletType} (ts : List Tbl) :
    Robust P ts (Kind id k) :=
  .lasting (A := fun d => (d.wallets.get? id).map Wallet.frozen = some k)
    fun _ _ _ hev _ h => (hev.wallets id).trans h

/-- The kind of a wallet that was found, in the committed state. -/
theorem Found.kind {p : Wallet → Bool} {v₁ : TxView} {id : Id} {w : Wallet} (hf : P.Framed v)
    (h : Found P p v v₁ id w) : ∃ row, p row = true ∧ Kind id row.frozen v₁ := by
  obtain ⟨row, hrow, hp, -⟩ := h.row
  refine ⟨row, hp, ?_⟩
  have := (hf v₁.last).1.wallets id
  rw [hrow, Option.map_some] at this
  exact this.symm

/-- `get_system` in front of another program. -/
theorem wp_getSystem_bind {α : Type} {t : WalletType} {g : Id × Wallet → Tx α}
    {Q : α → TxView → Prop} (hf : P.Framed v)
    (h : ∀ v₁ id w, Prepared P v v₁ → Kind id (none, t) v₁ → wp P.around (g (id, w)) Q v₁) :
    wp P.around (getSystem t >>= g) Q v := by
  rw [wp_bind]
  refine wp_getSystem fun v₁ id w hfound => h v₁ id w hfound.prepared ?_
  obtain ⟨row, hp, hk⟩ := hfound.kind hf
  simp only [Bool.and_eq_true, decide_eq_true_eq, Option.isNone_iff_eq_none] at hp
  rwa [Wallet.frozen, hp.1, hp.2] at hk

/-- `get_by_user` in front of another program. -/
theorem wp_getByUser_bind {α : Type} {u : Id} {g : Option (Id × Wallet) → Tx α}
    {Q : α → TxView → Prop} (hf : P.Framed v)
    (hnone : ∀ v₁, Later P v v₁ → wp P.around (g none) Q v₁)
    (hsome : ∀ v₁ id w t, Prepared P v v₁ → v₁.mem.wallets id = some w → Kind id (some u, t) v₁ →
      wp P.around (g (some (id, w))) Q v₁) :
    wp P.around (getByUser u >>= g) Q v := by
  rw [wp_bind]
  refine wp_getByUser (fun d hd => hnone _ (.step [] hd)) fun v₁ id w hfound => ?_
  obtain ⟨row, hp, hk⟩ := hfound.kind hf
  refine hsome v₁ id w row.type hfound.prepared hfound.inst ?_
  rwa [Wallet.frozen, of_decide_eq_true hp] at hk

/-- A second `get_by_user` finds the same instance. -/
theorem wp_getByUser_again {u id : Id} {w : Wallet} {t : WalletType}
    {Q : Option (Id × Wallet) → TxView → Prop} (hf : P.Framed v) (hk : Kind id (some u, t) v)
    (hm : v.mem.wallets id = some w)
    (hindex : ∀ d, P.around.rely v.held v.last d → WalletIndex d)
    (h : ∀ v₁, Prepared P v v₁ → v₁.mem.wallets id = some w → Q (some (id, w)) v₁) :
    wp P.around (getByUser u) Q v := by
  unfold getByUser scalar
  refine wp_query_bind fun d hd => ?_
  have hkind : ((v.pending d).wallets.get? id).map Wallet.frozen = some (some u, t) :=
    ((hf d).1.wallets id).trans ((robust_kind []).rely v d hk hd)
  obtain ⟨row, hrow, hfrozen⟩ := Option.map_eq_some_iff.mp hkind
  simp only [Wallet.frozen, Prod.mk.injEq] at hfrozen
  obtain ⟨⟨id', row'⟩, hfind⟩ : ∃ r, ((v.pending d).wallets.find?
      fun _ w => decide (w.userId = some u)) = some r :=
    Table.find?_isSome hrow (decide_eq_true hfrozen.1)
  obtain ⟨hrow', hu'⟩ := Table.find?_eq_some hfind
  rw [decide_eq_true_eq] at hu'
  -- The unique index on `user_id` makes the row the same.
  obtain rfl : id = id' := ((hindex d hd).evolves (hf d).1).user id id' row row' u hrow hrow'
    hfrozen.1 hu'
  rw [hfind]
  dsimp only
  have hload : loadWallet id row' v.mem = v.mem := by simp [loadWallet, hm]
  rw [wp_bind]
  refine wp_instanceOf ?_
  rw [hload, hm, Option.getD_some]
  exact h _ ⟨.step [] hd, rfl, rfl, fun _ _ h => h, fun hc =>
    hc.later (.step [] hd) rfl fun _ _ => rfl⟩ hm

/-- The legs of a booked group sum to zero. -/
theorem Booking.legs_zero {legs : List Leg} {v₁ : TxView} {loaded assigned : Id → Option Wallet}
    {rows : List Transaction} {d : Db}
    (h : Booking P refresh c legs v v₁ loaded assigned rows d) (hlen : legs.length ≤ 4) :
    (legs.map (·.amount.coeff)).sum = 0 := by
  rw [← rows_amount h.applied.rows]
  exact h.zero (length_le_of_four hlen)

/-- The group of `legs` was booked, after reads. -/
def BookedAfter (P : Policy) (refresh : Bool) (c : Id) (legs : List Leg) (v v₀ v' : TxView) : Prop :=
  Prepared P v v₀ ∧ ∃ v₁ loaded assigned rows d,
    Booking P refresh c legs v₀ v₁ loaded assigned rows d ∧
      v' = booked legs v₀ v₁ loaded assigned rows d

/-- An assertion that writes to the wallets and the ledger leave true holds after a booking. -/
theorem BookedAfter.robust {legs : List Leg} {v₀ v' : TxView}
    (h : BookedAfter P refresh c legs v v₀ v') {J : TxView → Prop}
    (hJ : Robust P [.wallets, .transactions] J) (hv : J v) : J v' := by
  obtain ⟨hprep, v₁, loaded, assigned, rows, d, hb, rfl⟩ := h
  exact hb.robust hJ (hJ.later hv hprep.later)

/-- A booking leaves the kinds of the wallets. -/
theorem BookedAfter.kind {legs : List Leg} {v₀ v' : TxView} {id : Id} {k : Option Id × WalletType}
    (h : BookedAfter P refresh c legs v v₀ v') (hk : Kind id k v₀) : Kind id k v' := by
  obtain ⟨-, v₁, loaded, assigned, rows, d, hb, rfl⟩ := h
  exact hb.robust (robust_kind _) hk

/-- The ledger after a booking. -/
theorem BookedAfter.ledger {legs : List Leg} {v₀ v' : TxView}
    (h : BookedAfter P refresh c legs v v₀ v') (hc : LedgerClean v) :
    ∃ rows, List.Forall₂ (RowOf c) legs rows ∧
      ∀ d, (v'.pending d).transactions = d.transactions ++ rows := by
  obtain ⟨hprep, v₁, loaded, assigned, rows, d, hb, rfl⟩ := h
  refine ⟨rows, hb.applied.rows, fun d' => ?_⟩
  simp only [booked, Function.comp_apply, Db.post, hprep.later.pending, hc d']

/-- A group is not booked when one of its keys is in the ledger. -/
theorem BookedAfter.unknown {legs : List Leg} {key : IdempotencyKey} {v₀ v' : TxView}
    (h : BookedAfter P refresh c legs v v₀ v') (hf : P.Framed v) (hkey : key ∈ legKeys legs) :
    key ∉ ledgerKeys v.last.transactions := by
  obtain ⟨hprep, v₁, loaded, assigned, rows, d, hb, -⟩ := h
  have hreach := hprep.later.reach (hb.locked.later.reach hb.rely)
  have hledger := (Policy.rely_evolves hreach).transactions.trans (hf d).1.transactions
  have hfresh := hb.fresh hkey
  rw [hprep.later.pending] at hfresh
  exact fun h => hfresh ((hledger.filterMap _).subset h)

/-- `post_group`, after reads, for a group with a single key. -/
theorem wp_postGroup_key {legs : List Leg} {key : IdempotencyKey} {v₀ : TxView}
    {Q : Bool → TxView → Prop} (hprep : Prepared P v v₀) (hcents : InCents legs)
    (hlen : legs.length ≤ 4) (hkey : legKeys legs = [key])
    (hfalse : ∀ v₁, Later P v v₁ → key ∈ ledgerKeys v₁.seen.transactions → Q false v₁)
    (htrue : ∀ v', BookedAfter P refresh c legs v v₀ v' → (legs.map (·.amount.coeff)).sum = 0 →
      Q true v') :
    wp P.around (postGroup refresh legs c) Q v₀ := by
  refine wp_postGroup hcents (fun v₁ hl hex => ?_) ?_
  · obtain ⟨k, hk, hmem⟩ := hex
    rw [hkey, List.mem_singleton] at hk
    exact hfalse v₁ (hprep.later.trans hl) (hk ▸ hmem)
  · intro v₁ loaded assigned rows d hb
    exact htrue _ ⟨hprep, v₁, loaded, assigned, rows, d, hb, rfl⟩ (hb.legs_zero hlen)

/-! ## Postings -/

/-- `credit_topup`: the key of the top-up is known, or its two legs are posted. -/
theorem wp_creditTopup {u i : Id} {amount : Decimal} {Q : Bool → TxView → Prop} (hf : P.Framed v)
    (hfalse : ∀ v₁, Later P v v₁ → .topup i ∈ ledgerKeys v₁.seen.transactions → Q false v₁)
    (htrue : ∀ v₀ v' g n, quantizeMoney amount = .ok n → Kind g (none, .systemGateway) v₀ →
      BookedAfter P refresh c (topupLegs u g i n (-n)) v v₀ v' → Q true v') :
    wp P.around (creditTopup refresh u amount i c) Q v := by
  refine wp_getSystem_bind hf fun v₁ g _ hp hg => ?_
  refine wp_ofExcept_bind fun n hn => wp_ofExcept_bind fun k _ => ?_
  refine wp_postGroup_key hp topupLegs_inCents (by simp [topupLegs]) legKeys_topupLegs hfalse ?_
  intro v' hb hzero
  obtain rfl : k = -n := by
    simp [topupLegs, Dec.cents] at hzero
    omega
  exact htrue v₁ v' g n hn hg hb

/-- `release_escrow_on_completion`: the key of the release is known, or its legs are posted. -/
theorem wp_releaseEscrow {o i k : Id} {payout tax revenue : Decimal} {Q : Bool → TxView → Prop}
    (hf : P.Framed v)
    (hfalse : ∀ v₁, Later P v v₁ → .release o ∈ ledgerKeys v₁.seen.transactions → Q false v₁)
    (htrue : ∀ v₀ v' e t r p x y, quantizeMoney payout = .ok p → quantizeMoney tax = .ok x →
      quantizeMoney revenue = .ok y → Kind e (none, .systemEscrow) v₀ →
      Kind t (none, .systemTaxPayable) v₀ → Kind r (none, .systemRevenue) v₀ →
      (p + x + y).natAbs < Dec.limit →
      BookedAfter P refresh c (releaseLegs o i e k t r (p + x + y) p x y) v v₀ v' → Q true v') :
    wp P.around (releaseEscrowOnCompletion refresh o i k payout tax revenue c) Q v := by
  refine wp_ofExcept_bind fun p hp => wp_ofExcept_bind fun x hx => wp_ofExcept_bind fun y hy =>
    wp_ofExcept_bind fun total htotal => ?_
  refine wp_getSystem_bind hf fun v₁ e _ h₁ he => ?_
  refine wp_getSystem_bind (Policy.robust_framed.later hf h₁.later) fun v₂ t _ h₂ ht => ?_
  refine wp_getSystem_bind (Policy.robust_framed.later hf (h₁.trans h₂).later)
    fun v₃ r _ h₃ hr => ?_
  -- The total fits its column, so its negation is exact.
  have hlt := natAbs_lt_of_quantizeMoney htotal
  refine wp_postGroup_key ((h₁.trans h₂).trans h₃) (releaseLegs_inCents hlt) length_releaseLegs
    legKeys_releaseLegs hfalse fun v' hb hzero => ?_
  obtain rfl : total = p + x + y := by
    simp only [releaseLegs, neg_cents_of_lt hlt] at hzero
    split_ifs at hzero <;> simp [payoutLeg, Dec.cents] at hzero <;> omega
  exact htrue v₃ v' e t r p x y hp hx hy ((robust_kind []).later he (h₂.trans h₃).later)
    ((robust_kind []).later ht h₃.later) hr hlt hb

/-- `refund_escrow`: the key of the refund is known, or its two legs are posted. -/
theorem wp_refundEscrow {o i u : Id} {amount : Decimal} {Q : Bool → TxView → Prop}
    (hf : P.Framed v)
    (hfalse : ∀ v₁, Later P v v₁ → .refund o ∈ ledgerKeys v₁.seen.transactions → Q false v₁)
    (htrue : ∀ v₀ v' e n, quantizeMoney amount = .ok n → Kind e (none, .systemEscrow) v₀ →
      n.natAbs < Dec.limit → BookedAfter P refresh c (refundLegs o i e u n) v v₀ v' → Q true v') :
    wp P.around (refundEscrow refresh o i u amount c) Q v := by
  refine wp_ofExcept_bind fun n hn => wp_getSystem_bind hf fun v₁ e _ h₁ he => ?_
  have hlt := natAbs_lt_of_quantizeMoney hn
  exact wp_postGroup_key h₁ (refundLegs_inCents hlt) length_refundLegs legKeys_refundLegs
    hfalse fun v' hb _ => htrue v₁ v' e n hn he hlt hb

/-- `split_escrow`: the key of the split is known, or its legs are posted. -/
theorem wp_splitEscrow {o i k u : Id} {courier refund : Decimal} {Q : Bool → TxView → Prop}
    (hf : P.Framed v)
    (hfalse : ∀ v₁, Later P v v₁ → .split o ∈ ledgerKeys v₁.seen.transactions → Q false v₁)
    (htrue : ∀ v₀ v' e a b, quantizeMoney courier = .ok a → quantizeMoney refund = .ok b →
      Kind e (none, .systemEscrow) v₀ → (a + b).natAbs < Dec.limit →
      BookedAfter P refresh c (splitLegs o i e k u (a + b) a b) v v₀ v' → Q true v') :
    wp P.around (splitEscrow refresh o i k u courier refund c) Q v := by
  refine wp_ofExcept_bind fun a ha => wp_ofExcept_bind fun b hb => wp_ofExcept_bind
    fun total htotal => wp_getSystem_bind hf fun v₁ e _ h₁ he => ?_
  have hlt := natAbs_lt_of_quantizeMoney htotal
  refine wp_postGroup_key h₁ (splitLegs_inCents hlt) length_splitLegs legKeys_splitLegs hfalse
    fun v' hbook hzero => ?_
  obtain rfl : total = a + b := by
    simp only [splitLegs, neg_cents_of_lt hlt] at hzero
    split_ifs at hzero <;> simp [payoutLeg, Dec.cents] at hzero <;> omega
  exact htrue v₁ v' e a b ha hb he hlt hbook

/-- The legs of a funding that sum to zero credit the escrow with what was debited. -/
theorem total_of_fundingLegs {u g e i o : Id} {x : Option Id} {total a b : ℤ}
    (ha : a.natAbs < Dec.limit) (hb : b.natAbs < Dec.limit)
    (h : ((fundingLegs u g e i o x total a b).map (·.amount.coeff)).sum = 0) :
    total = max 0 a + max 0 b := by
  simp only [fundingLegs, neg_cents_of_lt ha, neg_cents_of_lt hb] at h
  split_ifs at h <;> simp [fundingLeg, Dec.cents] at h <;> omega

/-- `fund_escrow_for_invoice`: the key of the escrow is known, or its legs are posted. -/
theorem wp_fundEscrow {u i o : Id} {x : Option Id} {held : Bool}
    {walletAmount gatewayAmount : Decimal} {Q : Bool → TxView → Prop} (hf : P.Framed v)
    (hfalse : ∀ v₁, Later P v v₁ → .escrow i ∈ ledgerKeys v₁.seen.transactions → Q false v₁)
    (htrue : ∀ v₀ v' g e a b, quantizeMoney walletAmount = .ok a →
      quantizeMoney gatewayAmount = .ok b → 0 ≤ a → 0 ≤ b → Kind e (none, .systemEscrow) v₀ →
      Kind g (none, .systemGateway) v₀ →
      BookedAfter P refresh c (fundingLegs u g e i o x (a + b) a b) v v₀ v' →
      (¬(held = true ∧ 0 < a) → Q true v') ∧
      (held = true → 0 < a →
        wp P.around (releaseHold refresh u (money a)) (fun _ v'' => Q true v'') v')) :
    wp P.around (fundEscrowForInvoice refresh u walletAmount gatewayAmount i o x held c) Q v := by
  refine wp_ofExcept_bind fun a ha => wp_ofExcept_bind fun b hb => wp_ofExcept_bind
    fun total htotal => wp_getSystem_bind hf fun v₁ e _ h₁ he => ?_
  refine wp_getSystem_bind (Policy.robust_framed.later hf h₁.later) fun v₂ g _ h₂ hg => ?_
  have hla := natAbs_lt_of_quantizeMoney ha
  have hlb := natAbs_lt_of_quantizeMoney hb
  rw [Dec.add_cents] at htotal
  obtain ⟨rfl, -⟩ := eq_of_quantizeMoney_fix htotal
  rw [wp_bind]
  -- Either the key is there and nothing is posted, or the legs are.
  refine wp_postGroup_key (h₁.trans h₂) (fundingLegs_inCents hla hlb) length_fundingLegs
    legKeys_fundingLegs (fun v' hl hk => ?_) fun v' hbook hzero => ?_
  · rw [wp_bind, wp_when]
    exact ⟨fun h => absurd h.1 Bool.false_ne_true, fun _ => hfalse v' hl hk⟩
  · have hsum := total_of_fundingLegs hla hlb hzero
    obtain ⟨hno, hrel⟩ := htrue v₂ v' g e a b ha hb (by omega) (by omega)
      ((robust_kind []).later he h₂.later) hg hbook
    rw [wp_bind, wp_when]
    exact ⟨fun h => hrel h.2.1 h.2.2, fun h => hno fun h' => h ⟨rfl, h'⟩⟩

/-- `pay_withdrawal`: the key of the payment is known, or its legs are posted and the hold follows.
-/
theorem wp_payWithdrawal {k w : Id} {amount : Decimal} {Q : Bool → TxView → Prop}
    (hf : P.Framed v)
    (hfalse : ∀ v₁, Later P v v₁ → .paid w ∈ ledgerKeys v₁.seen.transactions → Q false v₁)
    (htrue : ∀ v₀ v' g n, quantizeMoney amount = .ok n → Kind g (none, .systemGateway) v₀ →
      n.natAbs < Dec.limit → BookedAfter P refresh c (withdrawalLegs k g w n) v v₀ v' →
      wp P.around (releaseHold refresh k (money n)) (fun _ v'' => Q true v'') v') :
    wp P.around (payWithdrawal refresh k amount w c) Q v := by
  refine wp_ofExcept_bind fun n hn => wp_getSystem_bind hf fun v₁ g _ h₁ hg => ?_
  have hlt := natAbs_lt_of_quantizeMoney hn
  rw [wp_bind]
  refine wp_postGroup_key h₁ (withdrawalLegs_inCents hlt) (by simp [withdrawalLegs])
    legKeys_withdrawalLegs (fun v' hl hk => ?_) fun v' hb _ => ?_
  · rw [wp_bind, wp_when]
    exact ⟨fun h => absurd h Bool.false_ne_true, fun _ => hfalse v' hl hk⟩
  · rw [wp_bind, wp_when]
    exact ⟨fun _ => htrue v₁ v' g n hn hg hlt hb, fun h => absurd rfl h⟩

/-! ## Holds -/

/-- The held balance of a wallet was set at the committed state `d`, from the instance `w`. -/
structure Holding (P : Policy) (refresh : Bool) (id : Id) (w : Wallet) (n : ℤ) (v v₁ : TxView)
    (d : Db) : Prop where
  locked : ∃ loaded, Locked P refresh v v₁ [id] loaded ∧ loaded id = some w
  rely : P.around.rely v₁.held v₁.last d
  checked : ∃ row, (v.pending d).wallets.get? id = some row ∧
    (w.assign (w.setHeld n) row).check = none

/-- The view after a change of a held balance. -/
def heldTo (id : Id) (w : Wallet) (n : ℤ) (v v₁ : TxView) (d : Db) : TxView where
  held := .wallet id :: v₁.held
  pending := Db.updateWallet id (w.assign (w.setHeld n)) (n - w.heldBalance) ∘ v.pending
  mem := v₁.mem.setWallet id (some (w.setHeld n))
  last := d

/-- The flush of a locked wallet sets its held balance at the committed row. -/
theorem wp_flushHeld {id : Id} {w : Wallet} {n : ℤ} {v₁ : TxView} {loaded : Id → Option Wallet}
    {Q : Unit → TxView → Prop} (hl : Locked P refresh v v₁ [id] loaded) (hw : loaded id = some w)
    (h : ∀ d, Holding P refresh id w n v v₁ d → Q () (heldTo id w n v v₁ d)) :
    wp P.around (flushWallet id w (w.setHeld n)) Q v₁ := by
  unfold flushWallet
  rw [wp_bind]
  refine wp_updateRow fun d row hd _ hrow hcheck => ?_
  rw [hl.later.pending] at hrow ⊢
  exact h d ⟨⟨loaded, hl, hw⟩, hd, row, hrow, hcheck⟩

/-- `reserve_funds` checks the amount against the locked instance. -/
theorem wp_reserveFunds {id : Id} {amount : Decimal} {Q : Wallet × Wallet → TxView → Prop}
    (h : ∀ v₁ loaded w n, quantizeMoney amount = .ok n → Locked P refresh v v₁ [id] loaded →
      loaded id = some w → n ≤ w.balance - w.heldBalance →
      Q (w, w.setHeld (w.heldBalance + n)) v₁) :
    wp P.around (reserveFunds refresh id amount) Q v := by
  refine wp_ofExcept_bind fun n hn => ?_
  rw [wp_bind]
  refine wp_lockWallets fun v₁ loaded hl => ?_
  split
  · trivial
  · rename_i w hw
    refine wp_ofExcept_bind fun a ha => wp_require_bind fun hle => wp_ofExcept_bind
      fun held hheld => ?_
    rw [available, Dec.sub_cents] at ha
    obtain ⟨rfl, -⟩ := eq_of_quantizeMoney_fix ha
    rw [Dec.add_cents] at hheld
    obtain ⟨rfl, -⟩ := eq_of_quantizeMoney_fix hheld
    exact h v₁ loaded w n hn hl hw hle

/-- `hold_funds` raises the held balance of the locked instance by an amount that it covers. -/
theorem wp_holdFunds {id : Id} {amount : Decimal} {Q : Unit → TxView → Prop}
    (h : ∀ v₁ w n d, quantizeMoney amount = .ok n → n ≤ w.balance - w.heldBalance →
      Holding P refresh id w (w.heldBalance + n) v v₁ d →
      Q () (heldTo id w (w.heldBalance + n) v v₁ d)) :
    wp P.around (holdFunds refresh id amount) Q v := by
  unfold holdFunds
  rw [wp_bind]
  exact wp_reserveFunds fun v₁ loaded w n hn hl hw hle =>
    wp_flushHeld hl hw fun d hh => h v₁ w n d hn hle hh

/-- `release_hold` lowers the held balance of the locked instance, at most to zero. -/
theorem wp_releaseHold {id : Id} {amount : Decimal} {Q : Unit → TxView → Prop}
    (h : ∀ v₁ w n d, quantizeMoney amount = .ok n →
      Holding P refresh id w (max 0 (w.heldBalance - n)) v v₁ d →
      Q () (heldTo id w (max 0 (w.heldBalance - n)) v v₁ d)) :
    wp P.around (releaseHold refresh id amount) Q v := by
  refine wp_ofExcept_bind fun n hn => ?_
  rw [wp_bind]
  refine wp_lockWallets fun v₁ loaded hl => ?_
  split
  · trivial
  · rename_i w hw
    refine wp_ofExcept_bind fun held hheld => ?_
    rw [Dec.sub_cents] at hheld
    obtain rfl := eq_of_quantizeMoney_max hheld
    exact wp_flushHeld hl hw fun d hh => h v₁ w n d hn hh

/-- The flush of a withdrawal request: the hold and the new row, or nothing. -/
theorem wp_flushRequest {id : Id} {w : Wallet} {n : ℤ} {x : Id} {row : Withdrawal} {key : Text}
    {v₁ : TxView} {loaded : Id → Option Wallet} {Q : Withdrawal → TxView → Prop}
    (hl : Locked P refresh v v₁ [id] loaded) (hw : loaded id = some w) (hid : row.walletId = id)
    (hdone : ∀ d, Holding P refresh id w n v v₁ d →
      Q row { heldTo id w n v v₁ d with
        held := [.wallet id, .withdrawal x, .withdrawalKey row.courierId key] ++ v₁.held
        pending := Db.insertWithdrawal x row ∘ (heldTo id w n v v₁ d).pending })
    (hreplay : ∀ v₂ r, Later P v v₂ → Q r v₂) :
    wp P.around (WithdrawalService.flushRequest x row key w (w.setHeld n)) Q v₁ := by
  subst hid
  intro d hd _
  -- The insert succeeds, or it meets a row with this key.
  refine ⟨fun hcheck => ?_, fun e _ => ?_⟩
  · obtain ⟨hwallet, -⟩ := Option.or_eq_none_iff.mp hcheck
    split at hwallet
    · cases hwallet
    · rename_i r hr
      have hpending := hl.later.pending
      rw [hpending] at hr
      -- The wallet's hold is flushed before the request's row.
      have := hdone d ⟨⟨loaded, hl, hw⟩, hd, r, hr, hwallet⟩
      rw [hpending]
      exact this
  · dsimp only
    split
    · -- The rollback drops the loaded wallet; the row that won is read again.
      have hlater : Later P v { v₁ with
          held := [.wallet row.walletId, .withdrawal x, .withdrawalKey row.courierId key] ++ v₁.held
          mem := v₁.mem.setWallet row.walletId none, last := d } := hl.later.trans (.step _ hd)
      rw [wp_orm]
      refine wp_query_bind fun d' hd' => ?_
      split
      · exact hreplay _ _ (hlater.trans (.step [] hd'))
      · trivial
    · trivial

namespace Holding

variable {id : Id} {w : Wallet} {n : ℤ} {v₁ : TxView} {d : Db}

/-- A hold is made at a later view. -/
theorem later (h : Holding P refresh id w n v v₁ d) : Later P v v₁ := by
  obtain ⟨loaded, hl, -⟩ := h.locked
  exact hl.later

/-- What the surroundings may reach afterwards they might have reached before. -/
theorem reach (h : Holding P refresh id w n v v₁ d) {d' : Db}
    (hd : P.around.rely (.wallet id :: v₁.held) d d') : P.around.rely v₁.held v₁.last d' :=
  Policy.rely_trans h.rely (Policy.rely_mono hd (List.subset_cons_self _ _))

/-- The wallet whose held balance was set: its row before and after. -/
theorem row (h : Holding P refresh id w n v v₁ d) (hco : Coherently P refresh) (hf : P.Framed v)
    (hc : Current P v) : ∀ d', P.around.rely v₁.held v₁.last d' →
      (v.pending d').wallets.get? id = some w ∧
      ((v.pending d').updateWallet id (w.assign (w.setHeld n)) (n - w.heldBalance)).wallets.get? id =
        some (w.setHeld n) := by
  obtain ⟨loaded, hl, hw⟩ := h.locked
  obtain ⟨hc₁, hinst⟩ := hl.current hco hf hc
  obtain ⟨ow, hdet, hmem⟩ := hc₁ id (hl.held id w hw)
  have how : ow = some w := hmem w (hinst id w hw)
  intro d' hd'
  have hrow : (v.pending d').wallets.get? id = some w := by
    rw [← hl.later.pending, hdet d' hd', how]
  refine ⟨hrow, ?_⟩
  rw [Db.updateWallet, Table.get?_update_self, hrow, Option.map_some]
  simp [Wallet.assign, Wallet.setHeld]

/-- A hold keeps to the tables and to the locks. -/
theorem framed (h : Holding P refresh id w n v v₁ d) (ht : .wallets ∈ P.tables)
    (hf : P.Framed v) : P.Framed (heldTo id w n v v₁ d) := by
  have hf₁ : P.Framed { v₁ with last := d } :=
    Policy.robust_framed.later hf (h.later.trans (.step [] h.rely))
  have hpatch : Framed P.tables [.wallet id]
      (Db.updateWallet id (w.assign (w.setHeld n)) (n - w.heldBalance)) :=
    .mono (.updateWallet List.mem_cons_self (w.assign_frozen _) _) (by simpa using ht)
  have := Policy.robust_framed.patch { v₁ with last := d } _ _ hpatch hf₁
  rw [h.later.pending] at this
  exact Policy.robust_framed.mem _ _ this

/-- The instances are current afterwards, as they were before. -/
theorem current (h : Holding P refresh id w n v v₁ d) (hco : Coherently P refresh)
    (hf : P.Framed v) (hc : Current P v) : Current P (heldTo id w n v v₁ d) := by
  obtain ⟨loaded, hl, hw⟩ := h.locked
  intro j hj
  by_cases hjd : j = id
  · subst hjd
    refine ⟨some (w.setHeld n), fun d' hd' => (h.row hco hf hc d' (h.reach hd')).2, fun u hu => ?_⟩
    simpa [heldTo, Memory.setWallet] using hu
  · have hheld : .wallet j ∈ v₁.held := by simpa [heldTo, hjd] using hj
    obtain ⟨ow, hdet, hinst⟩ := (hl.current hco hf hc).1 j hheld
    refine ⟨ow, fun d' hd' => ?_, fun u hu => hinst u ?_⟩
    · simp only [heldTo, Function.comp_apply, Db.updateWallet, Table.get?_update_ne _ _ hjd]
      rw [← hl.later.pending]
      exact hdet d' (h.reach hd')
    · simpa [heldTo, Memory.setWallet, hjd] using hu

end Holding

end Giftly
