import Giftly.Ledger.Operations

/-!
# Operations that do not raise

When an operation of the ledger service returns. A group is posted when its legs pass the check, its
wallets are there and meet their constraints with the new balances, its references are there and its
keys are new (`Postable`); nothing else can make `post_group` raise. What it then does is said by the
`_ends` rules.
-/

namespace Giftly

open Store
open WalletRepository MoneyService

variable {m : Memory} {d : Db} {refresh : Bool} {c : Id}

/-- A quantized amount that a column holds. -/
theorem quantizeMoney_of_fits {n : ℤ} (h : fitsMoney n = true) : quantizeMoney (money n) = .ok n := by
  rw [quantizeMoney_money, if_pos]
  simp only [fitsMoney, decide_eq_true_eq] at h
  exact h.trans (by decide)

/-- An `UPDATE` of a row that meets its constraints afterwards. -/
theorem updateRow_returns {V : Type} {names : List Row} {get : Db → Option V}
    {patch : (V → V) → Db → Db} {f : V → V} {check : Db → V → Option Err} {x : V}
    (hx : get d = some x) (hcheck : check d (f x) = none) :
    Returns (updateRow names get patch f check) m d := by
  unfold updateRow
  rw [returns_flush, hx]
  exact hcheck

/-! ## Reads -/

/-- A read of a wallet returns. -/
theorem scalar_returns (p : Wallet → Bool) : Returns (scalar p) m d := by
  unfold scalar
  refine returns_bind (by simp) ?_
  rw [ends_query]
  split
  · exact ⟨_, rfl⟩
  · exact ⟨_, rfl⟩

/-- `get_system`, when the wallet is seeded. -/
theorem getSystem_returns {t : WalletType} (hc : Coherent m d) (h : ∃ id, IsSystem d t id) :
    Returns (getSystem t) m d := by
  obtain ⟨id, w, hw, ht, hu⟩ := h
  unfold getSystem
  refine returns_bind (scalar_returns _) (scalar_ends hc fun m' _ => ?_)
  have hfound : ∃ x, (d.wallets.find? fun _ w => w.type = t && w.userId.isNone) = some x :=
    Table.find?_isSome hw (by simp [ht, hu])
  obtain ⟨x, hx⟩ := hfound
  rw [hx]
  exact ⟨_, rfl⟩

/-- The lock of one wallet returns, whether the row is there or not. -/
theorem lockWallet_returns (id : Id) : Returns (lockWallet refresh id) m d := by
  unfold lockWallet
  rw [returns_lock]
  cases d.wallets.get? id <;> exact ⟨_, rfl⟩

/-- The locks of several wallets return, by induction on the list. -/
theorem lockEach_returns : ∀ {ids : List Id} {m : Memory} {d : Db},
    Returns (lockEach refresh ids) m d
  | [], _, _ => ⟨_, rfl⟩
  | id :: _, _, _ => by
    unfold lockEach
    refine returns_bind_of_forall (lockWallet_returns id) fun _ _ _ => ?_
    exact returns_bind_of_forall lockEach_returns fun _ _ _ => ⟨_, rfl⟩

/-- `lock_wallets` returns. -/
theorem lockWallets_returns (ids : List Id) : Returns (lockWallets refresh ids) m d :=
  lockEach_returns

/-- The look for a known key returns, by induction on the legs. -/
theorem anyKeyExists_returns : ∀ {legs : List Leg}, Returns (anyKeyExists legs) m d
  | [] => ⟨_, rfl⟩
  | leg :: legs => by
    unfold anyKeyExists
    cases leg.idempotencyKey with
    | none => exact anyKeyExists_returns
    | some key =>
      refine returns_bind (by simp [idempotencyKeyExists]) ?_
      rw [idempotencyKeyExists, ends_query]
      split
      · exact ⟨_, rfl⟩
      · exact anyKeyExists_returns

/-! ## Groups -/

/-- A group that can be posted. -/
structure Postable (d : Db) (legs : List Leg) : Prop where
  length : 2 ≤ legs.length ∧ legs.length ≤ 4
  cents : InCents legs
  amount : ∀ leg ∈ legs, leg.amount.coeff ≠ 0 ∧ fitsMoney leg.amount.coeff = true
  zero : (legs.map (·.amount.coeff)).sum = 0
  /-- No wallet has two legs. -/
  nodup : (walletIds legs).Nodup
  /-- The wallets meet their constraints before, and with the new balances. -/
  wallets : ∀ leg ∈ legs, ∃ w, d.wallets.get? leg.walletId = some w ∧ fitsMoney w.balance = true ∧
    (w.credit leg.amount.coeff 1).check = none
  refs : ∀ leg ∈ legs, (∀ id ∈ leg.referenceOrderId, (d.orders.get? id).isSome = true) ∧
    (∀ id ∈ leg.referenceInvoiceId, (d.invoices.get? id).isSome = true) ∧
    ∀ id ∈ leg.referenceIntentId, (d.intents.get? id).isSome = true
  keys : (ledgerKeys d.transactions ++ legKeys legs).Nodup

/-- The check of a group whose amounts fit their column. -/
theorem validateLegs_eq_ok {legs : List Leg} (h : Postable d legs) : validateLegs legs = .ok () := by
  have hlen : legs.length ≤ 10 ^ 15 := length_le_of_four h.length.2
  have hsum := sum_natAbs_lt (fun leg hl => (h.amount leg hl).2) hlen
  rw [validateLegs_iff_of_inCents h.cents hsum]
  exact ⟨h.length.1, h.zero, fun leg hl => (h.amount leg hl).1⟩

/-- Legs that fit a column, applied to balances with room for all of them. -/
theorem exists_applyLegs : ∀ {legs : List Leg} {locked : Id → Option Wallet}, InCents legs →
    (∀ leg ∈ legs, fitsMoney leg.amount.coeff = true ∧ (locked leg.walletId).isSome = true) →
    (∀ id w, locked id = some w → w.balance.natAbs + legs.length * 10 ^ 12 < Dec.limit) →
    ∃ x, applyLegs c locked legs = .ok x
  | [], locked, _, _, _ => ⟨_, rfl⟩
  | leg :: legs, locked, hc, hlegs, hroom => by
    obtain ⟨hfits, hsome⟩ := hlegs leg List.mem_cons_self
    obtain ⟨w, hw⟩ := Option.isSome_iff_exists.mp hsome
    have hcents := hc leg List.mem_cons_self
    have hsmall : leg.amount.coeff.natAbs < 10 ^ 12 := by simpa [fitsMoney] using hfits
    -- Each leg takes one amount of the room, so the balance stays exact.
    have hbound := hroom leg.walletId w hw
    rw [List.length_cons] at hbound
    have hbalance : quantizeMoney (.finite ((Dec.cents w.balance).add leg.amount)) =
        .ok (w.balance + leg.amount.coeff) := by
      rw [hcents, Dec.add_cents, quantizeMoney_fix, if_pos]
      simp only [Dec.cents]
      omega
    have hamount : quantizeMoney (.finite leg.amount) = .ok leg.amount.coeff := by
      rw [hcents]
      exact quantizeMoney_of_fits hfits
    have hone : ∃ t, applyLeg c locked leg = .ok (Function.update locked leg.walletId
        (some (w.credit leg.amount.coeff 1)), t) := by
      unfold applyLeg
      simp only [hw, hbalance, hamount]
      exact ⟨_, rfl⟩
    obtain ⟨t, hone⟩ := hone
    -- The other legs have one amount less of room to need.
    have hrest : ∃ x, applyLegs c (Function.update locked leg.walletId
        (some (w.credit leg.amount.coeff 1))) legs = .ok x := by
      refine exists_applyLegs (fun l hl => hc l (List.mem_cons_of_mem _ hl)) (fun l hl => ?_) ?_
      · refine ⟨(hlegs l (List.mem_cons_of_mem _ hl)).1, ?_⟩
        simp only [Function.update_apply]
        split_ifs
        · rfl
        · exact (hlegs l (List.mem_cons_of_mem _ hl)).2
      · intro id v hv
        simp only [Function.update_apply] at hv
        split_ifs at hv
        · obtain rfl := Option.some.inj hv
          simp only [Wallet.credit]
          omega
        · have hless : legs.length * 10 ^ 12 ≤ (leg :: legs).length * 10 ^ 12 :=
            Nat.mul_le_mul_right _ (Nat.le_succ _)
          exact lt_of_le_of_lt (Nat.add_le_add_left hless _) (hroom id v hv)
    obtain ⟨x, hrest⟩ := hrest
    refine ⟨(x.1, t :: x.2), ?_⟩
    simp only [applyLegs, hone, hrest, bind, Except.bind, pure, Except.pure]

/-- The one row of a wallet in a group. -/
theorem single_row {ts : List Transaction} (hids : (ts.map (·.walletId)).Nodup)
    (hsettled : ∀ t ∈ ts, t.status = .settled) {t : Transaction} (ht : t ∈ ts) :
    ledgerSum t.walletId ts = t.amount ∧ ts.countP (·.walletId = t.walletId) = 1 ∧
      lastBalance t.walletId ts = some t.balanceAfter := by
  have hst := hsettled t ht
  obtain ⟨as, bs, rfl⟩ := List.append_of_mem ht
  rw [List.map_append, List.map_cons, List.nodup_append, List.nodup_cons] at hids
  obtain ⟨-, ⟨hbs, -⟩, hdisjoint⟩ := hids
  -- No row before it or after it is of the same wallet.
  have has : ∀ x ∈ as, x.walletId ≠ t.walletId := fun x hx =>
    hdisjoint _ (List.mem_map_of_mem hx) _ List.mem_cons_self
  have hbs : ∀ x ∈ bs, x.walletId ≠ t.walletId := fun x hx heq =>
    hbs (heq ▸ List.mem_map_of_mem hx)
  have hlast : lastBalance t.walletId [t] = some t.balanceAfter := by simp [lastBalance]
  refine ⟨?_, ?_, ?_⟩
  · rw [ledgerSum_append, ledgerSum_cons, ledgerSum_eq_zero has, ledgerSum_eq_zero hbs,
      if_pos ⟨rfl, hst⟩, zero_add, add_zero]
  · rw [List.countP_append, List.countP_cons, List.countP_eq_zero.mpr (by simpa using has),
      List.countP_eq_zero.mpr (by simpa using hbs)]
    simp
  · rw [lastBalance_append, ← List.singleton_append, lastBalance_append,
      lastBalance_eq_none.mpr hbs, Option.none_or, hlast, Option.some_or]

/-- A wallet after the one leg that it has in a group. -/
theorem creditRows_of_leg {legs : List Leg} {ts : List Transaction}
    (hrows : List.Forall₂ (RowOf c) legs ts) (hnodup : (walletIds legs).Nodup) {leg : Leg}
    (hleg : leg ∈ legs) (w : Wallet) :
    creditRows ts leg.walletId w = w.credit leg.amount.coeff 1 := by
  obtain ⟨t, ht, hrow⟩ := exists_row_of_mem hrows hleg
  have hids : (ts.map (·.walletId)).Nodup := by
    rw [rows_walletId hrows]
    exact hnodup
  obtain ⟨hsum, hcount, -⟩ := single_row hids (fun t ht => (rows_settled hrows t ht).2) ht
  rw [creditRows, ← hrow.walletId, hsum, hcount, hrow.amount]

/-- The rows of a group that meets the conditions meet theirs. -/
theorem checkGroup_of_postable {legs : List Leg} {assigned : Id → Option Wallet}
    {ts : List Transaction} (h : Postable d legs)
    (happ : Applied c (fun id => if id ∈ walletIds legs then d.wallets.get? id else none) legs
      assigned ts) :
    checkGroup (walletIds legs) (fun id => if id ∈ walletIds legs then d.wallets.get? id else none)
      assigned ts d = none := by
  have hids : (ts.map (·.walletId)).Nodup := by
    rw [rows_walletId happ.rows]
    exact h.nodup
  rw [checkGroup_eq_none, post_written happ]
  refine ⟨fun id hid w hw => ?_, fun t ht => ?_, ?_⟩
  · -- Each wallet has one leg, so its new row is the one that `Postable` checks.
    obtain ⟨leg, hleg, rfl⟩ := List.mem_map.mp hid
    obtain ⟨w₀, hw₀, -, hcheck⟩ := h.wallets leg hleg
    rw [Db.post, Table.get?_mapRows, hw₀, Option.map_some, Option.some.injEq] at hw
    rw [← hw, creditRows_of_leg happ.rows h.nodup hleg]
    exact hcheck
  · -- A row shows the amount of its leg, and the balance after it.
    obtain ⟨leg, hleg, hrow⟩ := exists_leg_of_mem happ.rows ht
    obtain ⟨w, hw, -, hcheck⟩ := h.wallets leg hleg
    obtain ⟨hne, hfits⟩ := h.amount leg hleg
    obtain ⟨horder, hinvoice, hintent⟩ := h.refs leg hleg
    have hid : leg.walletId ∈ walletIds legs := List.mem_map_of_mem hleg
    obtain ⟨hsum, -, hbalance⟩ := single_row hids (fun t ht => (rows_settled happ.rows t ht).2) ht
    have hlast := happ.last t.walletId w t.balanceAfter
      (by rw [hrow.walletId, if_pos hid, hw]) hbalance
    rw [hsum, hrow.amount] at hlast
    rw [Transaction.check_eq_none, hrow.amount, hlast, hrow.walletId, hw, hrow.referenceOrderId,
      hrow.referenceInvoiceId, hrow.referenceIntentId]
    exact ⟨hfits, (Wallet.check_eq_none.mp hcheck).1, hne, rfl, horder, hinvoice, hintent⟩
  · rw [ledgerKeys_append, rows_keys happ.rows]
    exact h.keys

/-- The flush of a group that can be posted returns. -/
theorem flushGroup_returns {legs : List Leg} {assigned : Id → Option Wallet}
    {ts : List Transaction} (h : Postable d legs)
    (happ : Applied c (fun id => if id ∈ walletIds legs then d.wallets.get? id else none) legs
      assigned ts) :
    Returns (flushGroup legs (fun id => if id ∈ walletIds legs then d.wallets.get? id else none)
      assigned ts) m d :=
  returns_write_of_none (checkGroup_of_postable h happ) ⟨_, rfl⟩

/-- `post_group` alone, for a group that can be posted. -/
theorem postGroup_returns {legs : List Leg} (hc : Coherent m d) (h : Postable d legs) :
    Returns (postGroup refresh legs c) m d := by
  unfold postGroup
  refine returns_bind (by simp [validateLegs_eq_ok h]) ?_
  rw [ends_ofExcept]
  intro _ _
  -- A replay returns at once.
  refine returns_bind anyKeyExists_returns (anyKeyExists_ends ?_)
  split
  · exact ⟨_, rfl⟩
  refine returns_bind (lockWallets_returns _) (lockWallets_ends hc fun m₁ _ => ?_)
  have hlocked : ∀ leg ∈ legs, fitsMoney leg.amount.coeff = true ∧
      (if leg.walletId ∈ walletIds legs then d.wallets.get? leg.walletId else none).isSome =
        true := by
    intro leg hleg
    obtain ⟨w, hw, -⟩ := h.wallets leg hleg
    have hid : leg.walletId ∈ walletIds legs := List.mem_map_of_mem hleg
    rw [if_pos hid, hw]
    exact ⟨(h.amount leg hleg).2, rfl⟩
  -- A stored balance is far below the context's precision.
  have hroom : ∀ id w, (if id ∈ walletIds legs then d.wallets.get? id else none) = some w →
      w.balance.natAbs + legs.length * 10 ^ 12 < Dec.limit := by
    intro id w hw
    split_ifs at hw with hid
    obtain ⟨leg, hleg, rfl⟩ := List.mem_map.mp hid
    obtain ⟨w', hw', hfits, -⟩ := h.wallets leg hleg
    obtain rfl : w = w' := Option.some.inj (hw.symm.trans hw')
    have hlen := h.length.2
    simp only [fitsMoney, decide_eq_true_eq] at hfits
    simp only [Dec.limit]
    omega
  obtain ⟨x, hx⟩ := exists_applyLegs h.cents hlocked hroom
  refine returns_bind ((returns_ofExcept _).mpr ⟨x, hx⟩) ?_
  rw [ends_ofExcept]
  rintro ⟨assigned, ts⟩ happ
  exact flushGroup_returns h (applyLegs_eq_ok h.cents happ)

/-! ## Operations -/

/-- The flush of a held balance returns if the constraints hold. -/
theorem flushWallet_returns {id : Id} {w : Wallet} {n : ℤ} (hw : d.wallets.get? id = some w)
    (hcheck : (w.setHeld n).check = none) : Returns (flushWallet id w (w.setHeld n)) m d := by
  have hassign : w.assign (w.setHeld n) w = w.setHeld n := by simp [Wallet.assign, Wallet.setHeld]
  unfold flushWallet
  refine returns_bind_of_forall (updateRow_returns hw ?_) fun _ _ _ => ⟨_, rfl⟩
  rw [hassign]
  exact hcheck

/-- `release_hold` alone. -/
theorem releaseHold_returns {id : Id} {w : Wallet} {n : ℤ} (hc : Coherent m d)
    (hfits : fitsMoney n = true) (hw : d.wallets.get? id = some w)
    (hheld : fitsMoney w.heldBalance = true)
    (hcheck : (w.setHeld (max 0 (w.heldBalance - n))).check = none) :
    Returns (releaseHold refresh id (money n)) m d := by
  unfold releaseHold
  rw [quantizeMoney_of_fits hfits]
  change Returns (lockWallets refresh [id] >>= _) m d
  refine returns_bind (lockWallets_returns _) (lockWallets_ends hc fun m₁ _ => ?_)
  simp only [List.mem_singleton, if_true, hw]
  -- The amount is exact before it is clamped to zero.
  have hclamp : quantizeMoney (.finite (zero.max ((Dec.cents w.heldBalance).sub (.cents n)))) =
      .ok (max 0 (w.heldBalance - n)) := by
    simp only [fitsMoney, decide_eq_true_eq] at hfits hheld
    have hlt : (w.heldBalance - n).natAbs < Dec.limit := by
      simp only [Dec.limit]
      omega
    rw [Dec.sub_cents, Dec.fix_of_lt (by simpa [Dec.cents] using hlt), Dec.max, Dec.lt_cents]
    by_cases hpos : 0 < w.heldBalance - n
    · rw [if_pos (by simpa using hpos), quantizeMoney_money, if_pos hlt, max_eq_right hpos.le]
    · rw [if_neg (by simpa using hpos), max_eq_left (by omega)]
      exact quantizeMoney_of_fits (by decide)
  rw [hclamp]
  exact flushWallet_returns hw hcheck

end Giftly
