import Giftly.Ledger.Legs

/-!
# The ledger operations alone

What the wallet repository and the ledger service do when nothing else runs. Every instance that the
session holds is then the row (`Coherent`), so it does not matter whether a locking read refreshes
it. Each rule reduces an operation to what follows it: `postGroup_ends` says that a group is found to
be a replay, and nothing changes, or is posted exactly (`Posted`).
-/

namespace Giftly

open Store
open WalletRepository MoneyService

variable {m : Memory} {d : Db} {refresh : Bool}

/-- Every instance of a wallet that the session holds is the row. -/
def Coherent (m : Memory) (d : Db) : Prop :=
  ∀ id w, m.wallets id = some w → d.wallets.get? id = some w

/-- A session without instances is coherent. -/
theorem Coherent.empty (d : Db) : Coherent .empty d := fun _ _ h => by cases h

/-- A session that loads a row stays coherent. -/
theorem Coherent.setWallet {id : Id} {w : Wallet} (h : Coherent m d)
    (hw : d.wallets.get? id = some w) : Coherent (m.setWallet id (some w)) d := by
  intro j v hv
  simp only [Memory.setWallet, Function.update_apply] at hv
  split_ifs at hv with hj
  · rw [hj, hw, ← hv]
  · exact h j v hv

/-! ## Reads -/

/-- A read of a wallet alone finds the row. -/
theorem scalar_ends {p : Wallet → Bool} {Q : Option (Id × Wallet) → Memory → Db → Prop}
    (hc : Coherent m d)
    (h : ∀ m', Coherent m' d → Q (d.wallets.find? fun _ w => p w) m' d) :
    Ends (scalar p) Q m d := by
  unfold scalar
  rw [ends_bind, ends_query]
  cases hf : d.wallets.find? fun _ w => p w with
  | none =>
    rw [hf] at h
    exact h m hc
  | some x =>
    obtain ⟨id, row⟩ := x
    obtain ⟨hrow, -⟩ := Table.find?_eq_some hf
    rw [hf] at h
    simp only [instanceOf, Prog.pure_eq, Prog.orm_bind, Prog.ret_bind, ends_orm, ends_ret]
    -- A loaded instance is returned as it is, and it agrees with the row.
    cases hm : m.wallets id with
    | none =>
      have hc' := hc.setWallet hrow
      simpa [hm, Memory.setWallet] using h _ hc'
    | some w =>
      obtain rfl : w = row := Option.some.inj ((hc id w hm).symm.trans hrow)
      simpa [hm] using h m hc

/-- `get_by_user`: the row of the user's wallet. -/
theorem getByUser_ends {userId : Id} {Q : Option (Id × Wallet) → Memory → Db → Prop}
    (hc : Coherent m d)
    (h : ∀ m', Coherent m' d → Q (d.wallets.find? fun _ w => w.userId = some userId) m' d) :
    Ends (getByUser userId) Q m d := scalar_ends hc h

/-- A wallet is a system wallet of a type. -/
def IsSystem (d : Db) (walletType : WalletType) (id : Id) : Prop :=
  ∃ w, d.wallets.get? id = some w ∧ w.type = walletType ∧ w.userId = none

/-- `get_system`: a system wallet of the type. -/
theorem getSystem_ends {walletType : WalletType} {Q : Id × Wallet → Memory → Db → Prop}
    (hc : Coherent m d)
    (h : ∀ m' id w, Coherent m' d → IsSystem d walletType id → Q (id, w) m' d) :
    Ends (getSystem walletType) Q m d := by
  unfold getSystem
  rw [ends_bind]
  refine scalar_ends hc fun m' hc' => ?_
  split
  · trivial
  · rename_i x hf
    obtain ⟨hrow, hp⟩ := Table.find?_eq_some hf
    simp only [Bool.and_eq_true, decide_eq_true_eq, Option.isNone_iff_eq_none] at hp
    exact h m' _ _ hc' ⟨_, hrow, hp⟩

/-- The lock of one wallet alone returns the row. -/
theorem lockWallet_ends {id : Id} {Q : Option Wallet → Memory → Db → Prop} (hc : Coherent m d)
    (h : ∀ m', Coherent m' d → Q (d.wallets.get? id) m' d) :
    Ends (lockWallet refresh id) Q m d := by
  unfold lockWallet
  rw [ends_lock]
  cases hrow : d.wallets.get? id with
  | none =>
    rw [hrow] at h
    exact h m hc
  | some row =>
    rw [hrow] at h
    simp only [ends_orm, ends_ret]
    -- Without a refresh a loaded instance is kept, and it agrees with the row.
    split_ifs with hm
    · simp only [Bool.and_eq_true, Option.isSome_iff_exists] at hm
      obtain ⟨⟨w, hw⟩, -⟩ := hm
      obtain rfl : w = row := Option.some.inj ((hc id w hw).symm.trans hrow)
      rw [hw]
      exact h m hc
    · rw [show (m.setWallet id (some row)).wallets id = some row by simp [Memory.setWallet]]
      exact h _ (hc.setWallet hrow)

/-- The locks of several wallets alone return their rows, by induction on the list. -/
theorem lockEach_ends : ∀ {ids : List Id} {m : Memory}
    {Q : (Id → Option Wallet) → Memory → Db → Prop}, Coherent m d →
    (∀ m', Coherent m' d → Q (fun id => if id ∈ ids then d.wallets.get? id else none) m' d) →
    Ends (lockEach refresh ids) Q m d
  | [], m, Q, hc, h => by simpa [lockEach] using h m hc
  | id :: ids, m, Q, hc, h => by
    unfold lockEach
    rw [ends_bind]
    refine lockWallet_ends hc fun m₁ hc₁ => ?_
    rw [ends_bind]
    refine lockEach_ends hc₁ fun m₂ hc₂ => ?_
    have heq : (fun j => if j ∈ id :: ids then d.wallets.get? j else none) =
        Function.update (fun j => if j ∈ ids then d.wallets.get? j else none) id
          (d.wallets.get? id) := by
      funext j
      by_cases hj : j = id <;> simp [hj]
    rw [Prog.pure_eq, ends_ret, ← heq]
    exact h m₂ hc₂

/-- `lock_wallets`: the rows of the wallets asked for. -/
theorem lockWallets_ends {ids : List Id} {Q : (Id → Option Wallet) → Memory → Db → Prop}
    (hc : Coherent m d)
    (h : ∀ m', Coherent m' d → Q (fun id => if id ∈ ids then d.wallets.get? id else none) m' d) :
    Ends (lockWallets refresh ids) Q m d :=
  lockEach_ends hc (by simpa [List.mem_insertionSort, List.mem_dedup] using h)

/-- A leg without a key adds none. -/
theorem legKeys_cons_none {leg : Leg} {legs : List Leg} (h : leg.idempotencyKey = none) :
    legKeys (leg :: legs) = legKeys legs := List.filterMap_cons_none h

/-- A leg with a key adds it. -/
theorem legKeys_cons_some {leg : Leg} {legs : List Leg} {k : IdempotencyKey}
    (h : leg.idempotencyKey = some k) : legKeys (leg :: legs) = k :: legKeys legs :=
  List.filterMap_cons_some h

/-- `_any_key_exists`: whether a key of the legs is in the ledger. -/
theorem anyKeyExists_ends : ∀ {legs : List Leg} {Q : Bool → Memory → Db → Prop},
    Q (decide (∃ k ∈ legKeys legs, k ∈ ledgerKeys d.transactions)) m d →
    Ends (anyKeyExists legs) Q m d
  | [], Q, h => by simpa [anyKeyExists, legKeys] using h
  | leg :: legs, Q, h => by
    unfold anyKeyExists
    cases hk : leg.idempotencyKey with
    | none =>
      rw [legKeys_cons_none hk] at h
      exact anyKeyExists_ends h
    | some k =>
      rw [legKeys_cons_some hk] at h
      simp only [idempotencyKeyExists, ends_bind, ends_query]
      by_cases hmem : k ∈ ledgerKeys d.transactions
      · simpa [hmem] using h
      · simp only [List.mem_cons, exists_eq_or_imp, hmem, false_or] at h
        simpa [hmem] using anyKeyExists_ends h

/-! ## Groups -/

/-- A wallet after the rows of a group. -/
def creditRows (ts : List Transaction) (id : Id) (w : Wallet) : Wallet :=
  w.credit (ledgerSum id ts) (ts.countP (·.walletId = id))

/-- The group of `legs` was posted as the rows `ts`. -/
structure Posted (correlationId : Id) (legs : List Leg) (ts : List Transaction) (d d' : Db) :
    Prop where
  rows : List.Forall₂ (RowOf correlationId) legs ts
  eq : d' = d.post (creditRows ts) ts
  found : ∀ leg ∈ legs, (d.wallets.get? leg.walletId).isSome
  fresh : ∀ k ∈ legKeys legs, k ∉ ledgerKeys d.transactions
  last : ∀ id w b, d.wallets.get? id = some w → lastBalance id ts = some b →
    b = w.balance + ledgerSum id ts
  zero : (ts.map (·.amount)).sum = 0
  wallets : ∀ id ∈ walletIds legs, ∀ w, d'.wallets.get? id = some w → w.check = none
  checked : ∀ t ∈ ts, t.check d = none
  nodup : (ledgerKeys d'.transactions).Nodup

/-- The rows of a group carry the wallets of its legs. -/
theorem rows_walletId {c : Id} {legs : List Leg} {ts : List Transaction}
    (h : List.Forall₂ (RowOf c) legs ts) : ts.map (·.walletId) = walletIds legs := by
  induction h with
  | nil => rfl
  | cons hr _ ih => rw [List.map_cons, ih, hr.walletId, walletIds, walletIds, List.map_cons]

/-- The rows of a group carry the amounts of its legs. -/
theorem rows_amount {c : Id} {legs : List Leg} {ts : List Transaction}
    (h : List.Forall₂ (RowOf c) legs ts) :
    ts.map (·.amount) = legs.map (·.amount.coeff) := by
  induction h with
  | nil => rfl
  | cons hr _ ih => rw [List.map_cons, ih, hr.amount, List.map_cons]

/-- The rows of a group carry its correlation and are settled. -/
theorem rows_settled {c : Id} {legs : List Leg} {ts : List Transaction}
    (h : List.Forall₂ (RowOf c) legs ts) :
    ∀ t ∈ ts, t.correlationId = c ∧ t.status = .settled := by
  induction h with
  | nil => simp
  | cons hr _ ih =>
    intro t ht
    rcases List.mem_cons.mp ht with rfl | ht
    · exact ⟨hr.correlationId, hr.status⟩
    · exact ih t ht

/-- Every row of a group is the row of one of its legs. -/
theorem exists_leg_of_mem {c : Id} {legs : List Leg} {ts : List Transaction}
    (h : List.Forall₂ (RowOf c) legs ts) {t : Transaction} (ht : t ∈ ts) :
    ∃ leg ∈ legs, RowOf c leg t := by
  induction h with
  | nil => cases ht
  | cons hr _ ih =>
    rcases List.mem_cons.mp ht with rfl | ht
    · exact ⟨_, List.mem_cons_self, hr⟩
    · obtain ⟨leg, hleg, hrow⟩ := ih ht
      exact ⟨leg, List.mem_cons_of_mem _ hleg, hrow⟩

/-- Every leg of a group has its row. -/
theorem exists_row_of_mem {c : Id} {legs : List Leg} {ts : List Transaction}
    (h : List.Forall₂ (RowOf c) legs ts) {leg : Leg} (hleg : leg ∈ legs) :
    ∃ t ∈ ts, RowOf c leg t := by
  induction h with
  | nil => cases hleg
  | cons hr _ ih =>
    rcases List.mem_cons.mp hleg with rfl | hleg
    · exact ⟨_, List.mem_cons_self, hr⟩
    · obtain ⟨t, ht, hrow⟩ := ih hleg
      exact ⟨t, List.mem_cons_of_mem _ ht, hrow⟩

/-- The rows of a group carry the keys of its legs. -/
theorem rows_keys {c : Id} {legs : List Leg} {ts : List Transaction}
    (h : List.Forall₂ (RowOf c) legs ts) : ledgerKeys ts = legKeys legs := by
  induction h with
  | nil => rfl
  | cons hr _ ih =>
    rw [ledgerKeys] at ih ⊢
    rw [legKeys] at ih ⊢
    rw [List.filterMap_cons, List.filterMap_cons, hr.idempotencyKey, ih]

/-- A wallet outside a group is left alone by its rows. -/
theorem creditRows_of_notMem {c : Id} {legs : List Leg} {ts : List Transaction}
    (h : List.Forall₂ (RowOf c) legs ts) {id : Id} (hid : id ∉ walletIds legs) (w : Wallet) :
    creditRows ts id w = w := by
  have hne : ∀ t ∈ ts, t.walletId ≠ id := by
    rintro t ht rfl
    exact hid (rows_walletId h ▸ List.mem_map_of_mem ht)
  have hcount : ts.countP (·.walletId = id) = 0 := by
    rw [List.countP_eq_zero]
    exact fun t ht => by simpa using hne t ht
  simp [creditRows, Wallet.credit, ledgerSum_eq_zero hne, hcount]

/-- A row that the session changes from its own value takes the changed value. -/
theorem Wallet.assign_credit (w : Wallet) (n : ℤ) (k : ℕ) : w.assign (w.credit n k) w = w.credit n k := by
  unfold Wallet.assign Wallet.credit
  simp

/-- The flush of a group that was computed from the rows writes exactly the group. -/
theorem post_written {c : Id} {legs : List Leg} {assigned : Id → Option Wallet}
    {ts : List Transaction}
    (h : Applied c (fun id => if id ∈ walletIds legs then d.wallets.get? id else none) legs assigned
      ts) :
    d.post (written (fun id => if id ∈ walletIds legs then d.wallets.get? id else none) assigned)
      ts = d.post (creditRows ts) ts := by
  unfold Db.post
  congr 1
  refine Table.mapRows_congr fun id w hw => ?_
  simp only [written, h.moved]
  split_ifs with hid
  · simp only [hw, Option.map_some]
    exact w.assign_credit ..
  · exact (creditRows_of_notMem h.rows hid w).symm

/-- The constraints on the flush of a group, one by one. -/
theorem checkGroup_eq_none {ids : List Id} {loaded assigned : Id → Option Wallet}
    {ts : List Transaction} : checkGroup ids loaded assigned ts d = none ↔
      (∀ id ∈ ids, ∀ w, (d.post (written loaded assigned) ts).wallets.get? id = some w →
        w.check = none) ∧
      (∀ t ∈ ts, t.check d = none) ∧ (ledgerKeys (d.transactions ++ ts)).Nodup := by
  simp only [checkGroup, Option.or_eq_none_iff, List.findSome?_eq_none_iff, Option.bind_eq_none_iff,
    ite_eq_left_iff, reduceCtorEq, imp_false, not_not]

/-- The flush of a group alone posts it, since its keys are new. -/
theorem flushGroup_ends {c : Id} {legs : List Leg} {assigned : Id → Option Wallet}
    {ts : List Transaction} {Q : Bool → Memory → Db → Prop} (hc : Coherent m d)
    (hvalid : validateLegs legs = .ok ()) (hcents : InCents legs) (hlen : legs.length ≤ 10 ^ 15)
    (hfresh : ∀ k ∈ legKeys legs, k ∉ ledgerKeys d.transactions)
    (happ : Applied c (fun id => if id ∈ walletIds legs then d.wallets.get? id else none) legs
      assigned ts)
    (hpost : ∀ m' d', Coherent m' d' → Posted c legs ts d d' → Q true m' d') :
    Ends (flushGroup legs (fun id => if id ∈ walletIds legs then d.wallets.get? id else none)
      assigned ts) Q m d := by
  unfold flushGroup
  rw [ends_write]
  constructor
  · -- The insert is accepted, and what the checks say of each row is handed on.
    rw [checkGroup_eq_none, post_written happ, ends_orm, ends_ret]
    rintro ⟨hwallets, hrows, hnodup⟩
    have hfound : ∀ leg ∈ legs, (d.wallets.get? leg.walletId).isSome := by
      intro leg hleg
      have hid : leg.walletId ∈ walletIds legs := List.mem_map_of_mem hleg
      simpa [hid] using happ.found leg hleg
    have hfit : ∀ leg ∈ legs, fitsMoney leg.amount.coeff = true := by
      intro leg hleg
      have hmem : leg.amount.coeff ∈ ts.map (·.amount) := by
        rw [rows_amount happ.rows]
        exact List.mem_map_of_mem hleg
      obtain ⟨t, ht, heq⟩ := List.mem_map.mp hmem
      rw [← heq]
      exact (Transaction.check_eq_none.mp (hrows t ht)).1
    refine hpost _ _ ?_ ⟨happ.rows, rfl, hfound, hfresh, ?_, ?_, hwallets, hrows, hnodup⟩
    · intro id w hw
      simp only [remember] at hw
      simp only [Db.post, Table.get?_mapRows]
      split_ifs at hw with hid
      · rw [happ.moved, if_pos hid] at hw
        exact hw
      · rw [hc id w hw, Option.map_some, creditRows_of_notMem happ.rows hid]
    · intro id w b hw hb
      have hid : id ∈ walletIds legs := by
        by_contra hid
        have hnone : lastBalance id ts = none := by
          rw [lastBalance_eq_none]
          rintro t ht rfl
          exact hid (rows_walletId happ.rows ▸ List.mem_map_of_mem ht)
        rw [hnone] at hb
        cases hb
      exact happ.last id w b (by rw [if_pos hid]; exact hw) hb
    · rw [rows_amount happ.rows]
      exact sum_eq_zero_of_validateLegs hvalid hcents hfit hlen
  · -- It is refused. Nothing else is running, so no other group has taken a key.
    intro e _
    split
    · rw [ends_orm, ends_bind]
      refine anyKeyExists_ends ?_
      have hnone : ¬∃ k ∈ legKeys legs, k ∈ ledgerKeys d.transactions := by
        rintro ⟨k, hk, hk'⟩
        exact hfresh k hk hk'
      simp [hnone]
    · trivial

/-- `post_group` alone: a replay changes nothing, and anything else is posted exactly. -/
theorem postGroup_ends {c : Id} {legs : List Leg} {Q : Bool → Memory → Db → Prop}
    (hc : Coherent m d) (hcents : InCents legs) (hlen : legs.length ≤ 10 ^ 15)
    (hreplay : (∃ k ∈ legKeys legs, k ∈ ledgerKeys d.transactions) → Q false m d)
    (hpost : ∀ m' ts d', Coherent m' d' → Posted c legs ts d d' → Q true m' d') :
    Ends (postGroup refresh legs c) Q m d := by
  unfold postGroup
  rw [ends_bind, ends_ofExcept]
  intro _ hvalid
  rw [ends_bind]
  refine anyKeyExists_ends ?_
  -- A known key is a replay.
  by_cases hk : ∃ k ∈ legKeys legs, k ∈ ledgerKeys d.transactions
  · simpa [hk] using hreplay hk
  · have hfresh : ∀ k ∈ legKeys legs, k ∉ ledgerKeys d.transactions :=
      fun k hk' hk'' => hk ⟨k, hk', hk''⟩
    simp only [hk, decide_false, Bool.false_eq_true, if_false, ends_bind]
    refine lockWallets_ends hc fun m₁ hc₁ => ?_
    rw [ends_ofExcept]
    rintro ⟨assigned, ts⟩ happ
    exact flushGroup_ends hc₁ hvalid hcents hlen hfresh (applyLegs_eq_ok hcents happ)
      fun m' d' hc' hp => hpost m' ts d' hc' hp

/-! ## Holds -/

/-- A wallet after its held balance was set. -/
def Wallet.setHeld (w : Wallet) (n : ℤ) : Wallet :=
  { w with heldBalance := n, version := w.version + 1 }

/-- The database after the held balance of a wallet was set. -/
def Db.setHeld (d : Db) (id : Id) (w : Wallet) (n : ℤ) : Db :=
  d.updateWallet id (fun v => v.setHeld n) (n - w.heldBalance)

/-- A session stays coherent over the flush of a held balance. -/
theorem Coherent.setHeld {id : Id} {w : Wallet} {n : ℤ} (hc : Coherent m d)
    (hw : d.wallets.get? id = some w) :
    Coherent (m.setWallet id (some (w.setHeld n))) (d.setHeld id w n) := by
  intro j v hv
  simp only [Memory.setWallet, Function.update_apply] at hv
  simp only [Db.setHeld, Db.updateWallet, Table.get?_update]
  split_ifs at hv ⊢ with hj
  · rw [hj, hw, ← hv]
    rfl
  · exact hc j v hv

/-- The flush of a hold that was computed from the row. -/
theorem flushWallet_ends {id : Id} {w : Wallet} {n : ℤ} {Q : Unit → Memory → Db → Prop}
    (hc : Coherent m d) (hw : d.wallets.get? id = some w)
    (h : ∀ m', Coherent m' (d.setHeld id w n) → (w.setHeld n).check = none →
      Q () m' (d.setHeld id w n)) :
    Ends (flushWallet id w (w.setHeld n)) Q m d := by
  have hassign : w.assign (w.setHeld n) w = w.setHeld n := by simp [Wallet.assign, Wallet.setHeld]
  have hpatch : d.updateWallet id (w.assign (w.setHeld n)) ((w.setHeld n).heldBalance -
      w.heldBalance) = d.setHeld id w n := by
    unfold Db.setHeld Db.updateWallet
    congr 1
    refine Table.mapRows_congr fun j v hv => ?_
    split_ifs with hj
    · obtain rfl : w = v := Option.some.inj (hw.symm.trans (hj ▸ hv))
      exact hassign
    · rfl
  unfold flushWallet updateRow
  rw [ends_bind, ends_flush]
  simp only [hw, hassign, hpatch, ends_orm, ends_ret]
  exact fun hcheck => h _ (hc.setHeld hw) hcheck

/-- `hold_funds` alone: the amount is available, and it is held. -/
theorem holdFunds_ends {id : Id} {amount : Decimal} {Q : Unit → Memory → Db → Prop}
    (hc : Coherent m d)
    (h : ∀ m' n w, quantizeMoney amount = .ok n → d.wallets.get? id = some w →
      n ≤ w.balance - w.heldBalance → (w.setHeld (w.heldBalance + n)).check = none →
      Coherent m' (d.setHeld id w (w.heldBalance + n)) →
      Q () m' (d.setHeld id w (w.heldBalance + n))) :
    Ends (holdFunds refresh id amount) Q m d := by
  unfold holdFunds reserveFunds
  simp only [ends_bind, ends_ofExcept]
  intro n hn
  refine lockWallets_ends hc fun m₁ hc₁ => ?_
  simp only [List.mem_singleton, if_true]
  cases hw : d.wallets.get? id with
  | none => trivial
  | some w =>
    simp only [ends_bind, ends_ofExcept, ends_require, Prog.pure_eq, ends_ret]
    intro a ha hle held hheld
    -- The amounts that were rounded are exact.
    rw [available, Dec.sub_cents] at ha
    obtain ⟨rfl, -⟩ := eq_of_quantizeMoney_fix ha
    rw [Dec.add_cents] at hheld
    obtain ⟨rfl, -⟩ := eq_of_quantizeMoney_fix hheld
    exact flushWallet_ends hc₁ hw fun m' hc' hcheck => h m' n w hn hw hle hcheck hc'

/-- `release_hold` alone: the held balance falls by the amount, to zero at least. -/
theorem releaseHold_ends {id : Id} {amount : Decimal} {Q : Unit → Memory → Db → Prop}
    (hc : Coherent m d)
    (h : ∀ m' n w, quantizeMoney amount = .ok n → d.wallets.get? id = some w →
      (w.setHeld (max 0 (w.heldBalance - n))).check = none →
      Coherent m' (d.setHeld id w (max 0 (w.heldBalance - n))) →
      Q () m' (d.setHeld id w (max 0 (w.heldBalance - n)))) :
    Ends (releaseHold refresh id amount) Q m d := by
  unfold releaseHold
  simp only [ends_bind, ends_ofExcept]
  intro n hn
  refine lockWallets_ends hc fun m₁ hc₁ => ?_
  simp only [List.mem_singleton, if_true]
  cases hw : d.wallets.get? id with
  | none => trivial
  | some w =>
    simp only [ends_bind, ends_ofExcept]
    intro held hheld
    -- The difference is clamped to zero before it is rounded.
    rw [Dec.sub_cents] at hheld
    obtain rfl := eq_of_quantizeMoney_max hheld
    exact flushWallet_ends hc₁ hw fun m' hc' hcheck => h m' n w hn hw hcheck hc'

end Giftly
