import Giftly.Serial.Withdrawals

/-!
# Payouts and retries of withdrawals

What the accounts of `Withdrawals.lean` are for. An approved withdrawal of a reachable state can be
paid: `mark_paid` fails only on a missing administrator, or where the row of the gateway's wallet or
the version counter of the courier's would leave its column. And a request that is sent again under
its idempotency key is answered with the row of the first one, whatever has happened to it since, and
changes nothing.
-/

namespace Giftly

open Store
open WalletRepository MoneyService

variable {m : Memory} {d d₀ : Db} {refresh : Bool} {s : Settings} {c id k : Id} {n : ℤ}

/-! ## Payouts -/

/-- A payout of an amount that its wallet holds can be posted. -/
theorem postable_withdrawal {g : Id} {v w : Wallet} (hn : fitsMoney n = true) (hpos : 0 < n)
    (hgrow : d.wallets.get? g = some v) (hk : d.wallets.get? k = some w) (hne : k ≠ g)
    (hgfits : fitsMoney v.balance = true ∧ (v.credit n 1).check = none)
    (hkfits : fitsMoney w.balance = true ∧ (w.credit (-n) 1).check = none)
    (hfresh : .paid id ∉ ledgerKeys d.transactions) (hnodup : (ledgerKeys d.transactions).Nodup) :
    Postable d (withdrawalLegs k g id n) := by
  have hlt : n.natAbs < Dec.limit := by
    simp only [fitsMoney, decide_eq_true_eq] at hn
    exact hn.trans (by decide)
  have hneg : (Dec.cents n).neg = Dec.cents (-n) := neg_cents_of_lt hlt
  have hnegFits : fitsMoney (-n) = true := by
    simp only [fitsMoney, decide_eq_true_eq, Int.natAbs_neg] at hn ⊢
    exact hn
  -- The two legs: the courier's wallet and the platform's, with opposite amounts.
  have hlegs : ∀ leg ∈ withdrawalLegs k g id n,
      (leg.walletId = k ∧ leg.amount = .cents (-n) ∨ leg.walletId = g ∧ leg.amount = .cents n) ∧
        leg.referenceOrderId = none ∧ leg.referenceInvoiceId = none ∧ leg.referenceIntentId = none := by
    intro leg hleg
    simp only [withdrawalLegs, hneg, List.mem_cons, List.not_mem_nil, or_false] at hleg
    rcases hleg with rfl | rfl
    · exact ⟨.inl ⟨rfl, rfl⟩, rfl, rfl, rfl⟩
    · exact ⟨.inr ⟨rfl, rfl⟩, rfl, rfl, rfl⟩
  refine
    { length := by simp [withdrawalLegs]
      cents := withdrawalLegs_inCents hlt
      amount := fun leg hleg => ?_
      zero := ?_
      nodup := ?_
      wallets := fun leg hleg => ?_
      refs := fun leg hleg => ?_
      keys := ?_ }
  · rcases (hlegs leg hleg).1 with ⟨-, ha⟩ | ⟨-, ha⟩ <;> rw [ha]
    · exact ⟨by simp only [Dec.cents]; omega, hnegFits⟩
    · exact ⟨by simp only [Dec.cents]; omega, hn⟩
  · simp only [withdrawalLegs, hneg, List.map_cons, List.map_nil, List.sum_cons, List.sum_nil]
    simp only [Dec.cents]
    omega
  · simp [walletIds, withdrawalLegs, hne]
  · rcases (hlegs leg hleg).1 with ⟨hid, ha⟩ | ⟨hid, ha⟩ <;> rw [hid, ha]
    · exact ⟨w, hk, hkfits⟩
    · exact ⟨v, hgrow, hgfits⟩
  · obtain ⟨-, horder, hinvoice, hintent⟩ := hlegs leg hleg
    rw [horder, hinvoice, hintent]
    simp
  · rw [legKeys_withdrawalLegs, List.nodup_append]
    refine ⟨hnodup, List.nodup_singleton _, fun a ha b hb => ?_⟩
    rw [List.mem_singleton] at hb
    rintro rfl
    exact hfresh (hb ▸ ha)

/-- `pay_withdrawal` alone. -/
theorem payWithdrawal_returns {w : Wallet} (hc : Coherent m d) (hn : fitsMoney n = true)
    (hw : d.wallets.get? k = some w) (hheld : fitsMoney w.heldBalance = true)
    (hg : ∃ g, IsSystem d .systemGateway g)
    (hpost : ∀ g, IsSystem d .systemGateway g → Postable d (withdrawalLegs k g id n))
    (hcheck : ((w.credit (-n) 1).setHeld (max 0 (w.heldBalance - n))).check = none) :
    Returns (payWithdrawal refresh k (money n) id c) m d := by
  have hlt : n.natAbs < Dec.limit := by
    simp only [fitsMoney, decide_eq_true_eq] at hn
    exact hn.trans (by decide)
  unfold payWithdrawal
  rw [quantizeMoney_of_fits hn]
  change Returns (getSystem .systemGateway >>= _) m d
  refine returns_bind (getSystem_returns hc hg) (getSystem_ends hc fun m₁ g _ hc₁ hg' => ?_)
  have hp := hpost g hg'
  refine returns_bind (postGroup_returns hc₁ hp)
    (postGroup_ends hc₁ hp.cents (length_le_of_four hp.length.2) ?_ ?_)
  · intro _
    exact returns_bind_of_forall (returns_when fun hyes => by cases hyes) fun _ _ _ => ⟨_, rfl⟩
  · intro m₂ ts d₁ hc₂ hposted
    refine returns_bind_of_forall (returns_when fun _ => ?_) fun _ _ _ => ⟨_, rfl⟩
    -- The wallet has one leg, the debit.
    have hw₁ : d₁.wallets.get? k = some (w.credit (-n) 1) := by
      have hleg : (⟨k, (Dec.cents n).neg, .withdrawal, some (.paid id), none, none, none,
          some s!"Courier withdrawal {id}"⟩ : Leg) ∈ withdrawalLegs k g id n := List.mem_cons_self
      have hcredit := creditRows_of_leg hposted.rows hp.nodup hleg w
      rw [neg_cents_of_lt hlt] at hcredit
      rw [hposted.eq, Db.post, Table.get?_mapRows, hw, Option.map_some]
      exact congrArg some hcredit
    exact releaseHold_returns hc₂ hn hw₁ hheld hcheck

/-- The status of a withdrawal is set if the administrator is there and the constraints hold. -/
theorem setStatus_returns {a : Id} {x : Withdrawal} {st : WithdrawalStatus} {why : Option Text}
    (hx : d.withdrawals.get? id = some x) (ha : (d.users.get? a).isSome = true)
    (hcheck : (x.moved st a why).check = none) :
    Returns (WithdrawalRepository.setStatus id x st a why) m d := by
  apply updateRow_returns hx
  have hassign : x.assign { x with
      status := st, processedByAdminId := some a, rejectionReason := why } x = x.moved st a why :=
    x.assign_moved st a why
  rw [hassign, if_pos ha]
  exact hcheck

/-- `mark_paid` alone, on an approved withdrawal that has no group yet. -/
theorem markPaid_ends {a : Id} {x : Withdrawal} (hc : Coherent m d)
    (hx : d.withdrawals.get? id = some x) (hst : x.status = .approved)
    (hfresh : .paid id ∉ ledgerKeys d.transactions) :
    Ends (WithdrawalService.markPaid refresh c id a)
      (fun _ _ d' => (d'.withdrawals.get? id).map (·.status) = some .paid) m d := by
  unfold WithdrawalService.markPaid
  rw [ends_bind]
  apply getLocked_ends
  intro y hy
  obtain rfl : x = y := Option.some.inj (hx.symm.trans hy)
  simp only [ends_ite, ends_bind, ends_require, Prog.pure_eq, ends_ret]
  refine ⟨fun hpaid => absurd (hst.symm.trans hpaid) (by decide), fun _ _ => ?_⟩
  apply payWithdrawal_ends hc
  · -- There is no group for it yet, so this is not a replay.
    intro _ _ hkey
    exact absurd hkey hfresh
  · intro m₁ g n d₁ w _ _ hp _ _ _ _
    have hrow : (d₁.setHeld x.walletId w (max 0 (w.heldBalance - n))).withdrawals.get? id =
        some x := by
      obtain ⟨ts, hposted⟩ := hp
      rw [hposted.eq]
      exact hx
    apply setStatus_ends hrow
    intro _ _
    simp [Db.setWithdrawal, Withdrawal.moved]

/-- A payout keeps the constraints of its row. -/
theorem Withdrawal.check_paid {x : Withdrawal} {a : Id} (h : x.check = none) :
    (x.moved .paid a none).check = none := by
  obtain ⟨hfits, hkey, -, hmin⟩ := check_eq_none.mp h
  exact check_eq_none.mpr ⟨hfits, hkey, rfl, hmin⟩

/-- An approved withdrawal of a reachable state is paid as soon as the administrator exists and the
two wallet rows fit their columns. -/
theorem markPaid_returns {a g : Id} {x : Withdrawal} {v w : Wallet} (h : WithdrawalsOk d)
    (hx : d.withdrawals.get? id = some x) (hst : x.status = .approved)
    (ha : (d.users.get? a).isSome = true) (hg : IsSystem d .systemGateway g)
    (hv : d.wallets.get? g = some v) (hvfits : (v.credit x.amount 1).check = none)
    (hw : d.wallets.get? x.walletId = some w) (hversion : w.version + 2 < 2 ^ 31) :
    Returns (WithdrawalService.markPaid refresh c id a) .empty d := by
  have hc := Coherent.empty d
  have hrow := h.row id x hx
  have hpos := Withdrawal.amount_pos hrow
  obtain ⟨hfits, -⟩ := Withdrawal.check_eq_none.mp hrow
  obtain ⟨hcourier, -⟩ := h.owner id x hx
  obtain ⟨hsum, hcovered⟩ := h.held x.walletId w hcourier hw
  have hle : x.amount ≤ w.heldBalance :=
    h.toDrawnOk.le_held hx (by unfold Withdrawal.outstanding; simp [hst]) hw
  have hwfits := h.fits x.walletId w hw
  have hfresh : .paid id ∉ ledgerKeys d.transactions := by
    apply h.unpaid id
    intro y hy
    obtain rfl : x = y := Option.some.inj (hx.symm.trans hy)
    rw [hst]
    decide
  -- The wallet has the amount, so its balance and its hold stay within their columns.
  have hbounds : fitsMoney w.heldBalance = true ∧ fitsMoney (w.balance - x.amount) = true ∧
      fitsMoney (w.heldBalance - x.amount) = true := by
    simp only [fitsMoney, decide_eq_true_eq] at hwfits hfits ⊢
    omega
  have hafter : (w.credit (-x.amount) 1).check = none := by
    rw [Wallet.check_eq_none]
    refine ⟨by simpa [Wallet.credit, sub_eq_add_neg] using hbounds.2.1, hbounds.1, ?_, .inr ?_⟩
    · simp only [Wallet.credit]
      omega
    · simp only [Wallet.credit]
      omega
  have hreleased : ((w.credit (-x.amount) 1).setHeld (max 0 (w.heldBalance - x.amount))).check =
      none := by
    rw [max_eq_right (by omega), Wallet.check_eq_none]
    refine ⟨by simpa [Wallet.credit, Wallet.setHeld, sub_eq_add_neg] using hbounds.2.1,
      hbounds.2.2, ?_, .inr ?_⟩
    · simp only [Wallet.credit, Wallet.setHeld]
      omega
    · simp only [Wallet.credit, Wallet.setHeld]
      omega
  have hpost : ∀ g', IsSystem d .systemGateway g' → Postable d (withdrawalLegs x.walletId g' id
      x.amount) := by
    intro g' hg'
    -- There is one gateway wallet.
    have hsame : g' = g := by
      obtain ⟨u', hu', ht', hn'⟩ := hg'
      obtain ⟨u, hu, ht, hn⟩ := hg
      exact h.index.system g' g u' u hu' hu hn' hn (ht'.trans ht.symm)
    have hne : x.walletId ≠ g' := by
      rintro rfl
      exact Books.IsSystem.not_ofCourier (b := d.books) hg' hcourier
    subst hsame
    exact postable_withdrawal hfits hpos hv hw hne ⟨h.fits g' v hv, hvfits⟩ ⟨hwfits, hafter⟩
      hfresh h.nodup
  unfold WithdrawalService.markPaid
  have hlocked : Returns (WithdrawalService.getLocked id) .empty d := by
    unfold WithdrawalService.getLocked WithdrawalRepository.getForUpdate
    simp only [Prog.lock_bind, Prog.ret_bind, returns_lock, hx]
    exact ⟨_, rfl⟩
  refine returns_bind hlocked (getLocked_ends fun y hy => ?_)
  obtain rfl : x = y := Option.some.inj (hx.symm.trans hy)
  rw [if_neg (by rw [hst]; decide)]
  refine returns_bind ((returns_require _ _).mpr hst) ((ends_require _ _ _).mpr fun _ => ?_)
  refine returns_bind (payWithdrawal_returns hc hfits hw hbounds.1 ⟨g, hg⟩ hpost hreleased)
    (payWithdrawal_ends hc (fun _ _ hkey => absurd hkey hfresh) ?_)
  intro m₁ g' n d₁ u _ _ hp _ _ _
  refine returns_bind ((returns_require _ _).mpr rfl) ((ends_require _ _ _).mpr fun _ => ?_)
  obtain ⟨ts, hposted⟩ := hp
  apply setStatus_returns
  · rw [hposted.eq]
    exact hx
  · rw [hposted.eq]
    exact ha
  · exact Withdrawal.check_paid hrow

/-- The two wallets after the group of a payout. -/
theorem PostedGroup.withdrawal_rows {g : Id} {v w : Wallet} {d₁ : Db}
    (h : PostedGroup c (withdrawalLegs k g id n) d d₁) (hne : k ≠ g)
    (hw : d.wallets.get? k = some w) (hv : d.wallets.get? g = some v) :
    d₁.wallets.get? k = some (w.credit (-n) 1) ∧ d₁.wallets.get? g = some (v.credit n 1) ∧
      (v.credit n 1).check = none := by
  have hzero := h.zero
  obtain ⟨ts, hp⟩ := h
  -- The legs balance.
  have hneg : (Dec.cents n).neg.coeff = -n := by
    simp only [withdrawalLegs, List.map_cons, List.map_nil, List.sum_cons, List.sum_nil] at hzero
    have hcoeff : (Dec.cents n).coeff = n := rfl
    omega
  -- The two wallets are different, so each has one leg.
  have hnodup : (walletIds (withdrawalLegs k g id n)).Nodup := by
    simp [walletIds, withdrawalLegs, hne]
  have hrow : ∀ leg ∈ withdrawalLegs k g id n, ∀ u, d.wallets.get? leg.walletId = some u →
      d₁.wallets.get? leg.walletId = some (u.credit leg.amount.coeff 1) := by
    intro leg hleg u hu
    rw [hp.eq, Db.post, Table.get?_mapRows, hu, Option.map_some]
    exact congrArg some (creditRows_of_leg hp.rows hnodup hleg u)
  have hdebit := hrow _ List.mem_cons_self w hw
  have hcredit := hrow _ (List.mem_cons_of_mem _ List.mem_cons_self) v hv
  rw [hneg] at hdebit
  refine ⟨hdebit, hcredit, hp.wallets g ?_ _ hcredit⟩
  simp [walletIds, withdrawalLegs]

/-- What a payout needs beside an approved withdrawal: an administrator, and room in the columns of
the two wallets. -/
def Db.CanPay (d : Db) (adminId : Id) (x : Withdrawal) : Prop :=
  (d.users.get? adminId).isSome = true ∧
    (∃ w, d.wallets.get? x.walletId = some w ∧ w.version + 2 < 2 ^ 31) ∧
    ∃ g v, IsSystem d .systemGateway g ∧ d.wallets.get? g = some v ∧
      (v.credit x.amount 1).check = none

/-- In every reachable state, `mark_paid` on an approved withdrawal pays it as soon as it can be
paid, and otherwise changes nothing. -/
theorem markPaid_pays_iff (refresh : Bool) (s : Settings) {d₀ d : Db} (h₀ : Opening d₀)
    (hrun : SerialRun refresh s Request.asRouted d₀ d) {c id a : Id} {x : Withdrawal} {w : Wallet}
    (hx : d.withdrawals.get? id = some x) (hst : x.status = .approved)
    (hw : d.wallets.get? x.walletId = some w) :
    (d.CanPay a x → ∃ w', ((Request.markPaid c id a).exec refresh s d).wallets.get? x.walletId =
        some w' ∧ w'.balance = w.balance - x.amount ∧ w'.heldBalance = w.heldBalance - x.amount ∧
        (((Request.markPaid c id a).exec refresh s d).withdrawals.get? id).map (·.status) =
          some .paid) ∧
      (¬d.CanPay a x → (Request.markPaid c id a).exec refresh s d = d) := by
  have h := hrun.withdrawalsOk h₀.withdrawalsOk
  obtain ⟨hcourier, -⟩ := h.owner id x hx
  have hdraw : Drawing d (.markPaid c id a) ((Request.markPaid c id a).exec refresh s d) :=
    Request.exec_drawing rfl
  constructor
  · rintro ⟨ha, ⟨u, hu, hversion⟩, g, v, hg, hv, hvfits⟩
    obtain rfl : w = u := Option.some.inj (hw.symm.trans hu)
    have hfresh : .paid id ∉ ledgerKeys d.transactions := by
      apply h.unpaid id
      intro y hy
      obtain rfl : x = y := Option.some.inj (hx.symm.trans hy)
      rw [hst]
      decide
    have hpaid : (((Request.markPaid c id a).exec refresh s d).withdrawals.get? id).map (·.status) =
        some .paid := by
      have hreturns : Returns (WithdrawalService.markPaid refresh c id a) .empty d :=
        markPaid_returns h hx hst ha hg hv hvfits hw hversion
      obtain ⟨_, m', d', hran, hstatus⟩ :=
        hreturns.ends (markPaid_ends (.empty d) hx hst hfresh)
      have hexec : (Request.markPaid c id a).exec refresh s d = d' := by
        unfold Request.exec Prog.commit
        simp only [Request.tx, hran]
      rw [hexec]
      exact hstatus
    -- What was paid was paid by a group, so the wallet is as the group and the hold leave it.
    generalize (Request.markPaid c id a).exec refresh s d = d' at hdraw hpaid ⊢
    cases hdraw with
    | idle =>
      rw [hx, Option.map_some, hst] at hpaid
      cases hpaid
    | @paid _ _ _ y g' u d₁ hy _ _ hg' hp hu _ _ =>
      obtain rfl : x = y := Option.some.inj (hx.symm.trans hy)
      have hne : x.walletId ≠ g' := by
        rintro heq
        exact Books.IsSystem.not_ofCourier (b := d.books) hg' (heq ▸ hcourier)
      have hsystem := hg'
      obtain ⟨v', hv', -⟩ := hsystem
      obtain ⟨hrow, -⟩ := hp.withdrawal_rows hne hw hv'
      obtain rfl : u = w.credit (-x.amount) 1 := Option.some.inj (hu.symm.trans hrow)
      have hle : x.amount ≤ w.heldBalance :=
        h.toDrawnOk.le_held hx (by unfold Withdrawal.outstanding; simp [hst]) hw
      refine ⟨(w.credit (-x.amount) 1).setHeld (max 0 (w.heldBalance - x.amount)), ?_, ?_, ?_, hpaid⟩
      · simp [Db.setWithdrawal, Db.setHeld, Db.updateWallet, hu, Wallet.credit]
      · simp only [Wallet.credit, Wallet.setHeld]
        omega
      · simp only [Wallet.setHeld]
        omega
  · intro hno
    generalize (Request.markPaid c id a).exec refresh s d = d' at hdraw ⊢
    cases hdraw with
    | idle => rfl
    | @paid _ _ _ y g' u d₁ hy _ _ hg' hp hu hcheck hadmin =>
      obtain rfl : x = y := Option.some.inj (hx.symm.trans hy)
      have hne : x.walletId ≠ g' := by
        rintro heq
        exact Books.IsSystem.not_ofCourier (b := d.books) hg' (heq ▸ hcourier)
      have hsystem := hg'
      obtain ⟨v', hv', -⟩ := hsystem
      obtain ⟨hrow, -, hvfits⟩ := hp.withdrawal_rows hne hw hv'
      obtain rfl : u = w.credit (-x.amount) 1 := Option.some.inj (hu.symm.trans hrow)
      have hversion := (Wallet.check_eq_none.mp hcheck).2.2.1
      simp only [Wallet.credit, Wallet.setHeld] at hversion
      exact absurd ⟨hadmin, ⟨w, hw, by omega⟩, g', v', hg', hv', hvfits⟩ hno

namespace Sample

/-- The withdrawal, approved. -/
def approvedRow : Withdrawal where
  courierId := 2
  walletId := 12
  amount := 6000
  status := .approved
  idempotencyKey := some ['k']
  processedByAdminId := some 3
  rejectionReason := none

/-- The withdrawal of the sample was approved. -/
theorem approved_row : approvedDb.withdrawals.get? 701 = some approvedRow := by decide +kernel

/-- The courier's wallet, which holds the 60.00. -/
def heldWallet : Wallet := ⟨some 2, .courier, 10000, 6000, 2⟩

/-- The courier's wallet holds its amount. -/
theorem approved_wallet : approvedDb.wallets.get? 12 = some heldWallet := by decide +kernel

end Sample

/-- The payout of the sample goes through, and leaves 40.00 in the wallet. -/
theorem markPaid_pays_sample : ∃ w', ((Request.markPaid 900 701 3).exec false Sample.settings
    Sample.approvedDb).wallets.get? 12 = some w' ∧ w'.balance = 4000 ∧ w'.heldBalance = 0 := by
  have hpays := markPaid_pays_iff false Sample.settings Sample.opening_ok Sample.approved_run
    (c := 900) (a := 3) Sample.approved_row rfl Sample.approved_wallet
  have hgateway : Sample.approvedDb.wallets.get? 23 =
      some ⟨none, .systemGateway, -10000, 0, 1⟩ := by decide +kernel
  have hcan : Sample.approvedDb.CanPay 3 Sample.approvedRow :=
    ⟨by decide +kernel, ⟨_, Sample.approved_wallet, by decide⟩, 23, _, ⟨_, hgateway, rfl, rfl⟩,
      hgateway, by decide⟩
  obtain ⟨w', hw', hbalance, hheld, -⟩ := hpays.1 hcan
  exact ⟨w', hw', hbalance, hheld⟩

/-! ## Retries -/

/-- A request that is sent again under its key, with whatever amount, in any state that a run reaches
after the first one, returns the row of the first one and changes nothing. -/
theorem replay_returns_first (refresh : Bool) (s : Settings) {d₀ d d' : Db} (h₀ : Opening d₀)
    (hrun : SerialRun refresh s Request.asRouted d₀ d) {id : Id} {x : Withdrawal} {key : Text}
    (hx : d.withdrawals.get? id = some x) (hkey : x.idempotencyKey = some key)
    (hlater : SerialRun refresh s Request.asRouted d d') (newId : Id) (amount : Decimal) :
    ∃ x', d'.withdrawals.get? id = some x' ∧ x'.frozen = x.frozen ∧
      (WithdrawalService.requestWithdrawal refresh s newId x.courierId amount key).run .empty d' =
        .ok (x', .empty, d') := by
  have h : WithdrawalsOk d' := hlater.withdrawalsOk (hrun.withdrawalsOk h₀.withdrawalsOk)
  have hkept : d.withdrawals.Extends Withdrawal.frozen d'.withdrawals := by
    refine hlater.inv (I := fun d' => d.withdrawals.Extends Withdrawal.frozen d'.withdrawals) .refl ?_
    intro r d₁ _ h₁
    exact h₁.trans (r.exec_evolves refresh s d₁).withdrawals
  obtain ⟨x', hx', hfrozen⟩ := hkept id x hx
  have hsame : x'.courierId = x.courierId ∧ x'.idempotencyKey = some key := by
    have hcourier := congrArg Withdrawal.courierId hfrozen
    have hkey' := congrArg Withdrawal.idempotencyKey hfrozen
    exact ⟨hcourier, hkey'.trans hkey⟩
  have hfound : ∃ y, (d'.withdrawals.find? fun _ w =>
      w.courierId = x.courierId && w.idempotencyKey = some key) = some y :=
    Table.find?_isSome hx' (by simp [hsame])
  obtain ⟨⟨j, y⟩, hf⟩ := hfound
  obtain ⟨hy, hmatch⟩ := Table.find?_eq_some hf
  simp only [Bool.and_eq_true, decide_eq_true_eq] at hmatch
  -- The key is the courier's for one row only.
  obtain rfl : j = id := h.keyed j id y x' key hy hx' (hmatch.1.trans hsame.1.symm) hmatch.2 hsame.2
  obtain rfl : y = x' := Option.some.inj (hy.symm.trans hx')
  refine ⟨y, hx', hfrozen, ?_⟩
  unfold WithdrawalService.requestWithdrawal WithdrawalRepository.getByIdempotency Prog.query
  simp only [Prog.select_bind, Prog.run, Prog.ret_bind, hf, Prog.pure_eq]

/-- After the approval, the request of the sample is sent once more, for another amount. -/
theorem replay_returns_sample : ∃ x',
    (WithdrawalService.requestWithdrawal false Sample.settings 702 2 (.finite ⟨9000, -2⟩) ['k']).run
      .empty Sample.approvedDb = .ok (x', .empty, Sample.approvedDb) ∧ x'.amount = 6000 := by
  obtain ⟨x', -, hfrozen, hran⟩ := replay_returns_first false Sample.settings Sample.opening_ok
    Sample.approved_run Sample.approved_row rfl .start 702 (.finite ⟨9000, -2⟩)
  exact ⟨x', hran, Withdrawal.amount_of_frozen hfrozen⟩

end Giftly
