import Giftly.Concurrency.Policy
import Giftly.Ledger.Operations

/-!
# Wallets and the ledger under concurrency

What the wallet repository and the ledger service do while other requests run. A read of a wallet
is answered by the session's instance, and a posting writes what it computes from the instances
that `lock_wallets` returned. `Current` says that the instances of the locked wallets are their
rows; it holds when a locking read refreshes the instance, and when every wallet lock is granted
on the row that the session has loaded (`Coherently`). The rules for the operations say what was
appended to the ledger and what was written to the wallets.
-/

namespace Giftly

open Store
open WalletRepository MoneyService

variable {P : Policy} {v : TxView} {refresh : Bool} {c : Id}

/-- The rows of the locked wallets are determined, and the session's instances of them are the
rows. -/
def Current (P : Policy) (v : TxView) : Prop :=
  ∀ id, .wallet id ∈ v.held → ∃ ow : Option Wallet,
    (∀ d, P.around.rely v.held v.last d → (v.pending d).wallets.get? id = ow) ∧
      ∀ w, v.mem.wallets id = some w → ow = some w

/-- A locking read of a wallet gives the row: it refreshes the instance, or the lock is granted only
when the instance is the row. -/
def Coherently (P : Policy) (refresh : Bool) : Prop :=
  refresh = true ∨ ∀ m d id w, P.cond m d (.wallet id) → m.wallets id = some w →
    d.wallets.get? id = some w

/-- The instances stay current over statements that read other wallets. -/
theorem Current.later {v₁ : TxView} (h : Current P v) (hl : Later P v v₁) (hheld : v₁.held = v.held)
    (hmem : ∀ id, .wallet id ∈ v.held → v₁.mem.wallets id = v.mem.wallets id) : Current P v₁ := by
  intro id hid
  rw [hheld] at hid
  obtain ⟨ow, hrow, hinst⟩ := h id hid
  refine ⟨ow, fun d hd => ?_, fun w hw => hinst w (hmem id hid ▸ hw)⟩
  rw [hl.pending]
  exact hrow d (hl.reach hd)

/-! ## Reads -/

/-- What a read of a wallet returned: the session's instance of a row that satisfies the
condition. -/
structure Found (P : Policy) (p : Wallet → Bool) (v v₁ : TxView) (id : Id) (w : Wallet) :
    Prop where
  later : Later P v v₁
  held : v₁.held = v.held
  invoices : v₁.mem.invoices = v.mem.invoices
  row : ∃ row, (v.pending v₁.last).wallets.get? id = some row ∧ p row = true ∧
    w = (v.mem.wallets id).getD row
  inst : v₁.mem.wallets id = some w
  others : ∀ j, j ≠ id → v₁.mem.wallets j = v.mem.wallets j
  current : Current P v → Current P v₁

/-- The session after a read of a wallet row. -/
def loadWallet (id : Id) (row : Wallet) (m : Memory) : Memory :=
  if (m.wallets id).isSome then m else m.setWallet id (some row)

/-- A read keeps the instance that the session has, and takes the row otherwise. -/
theorem loadWallet_self (id : Id) (row : Wallet) (m : Memory) :
    (loadWallet id row m).wallets id = some ((m.wallets id).getD row) := by
  unfold loadWallet
  cases h : m.wallets id with
  | none => simp [Memory.setWallet]
  | some w => simp [h]

/-- A read of one wallet leaves the instances of the others. -/
theorem loadWallet_ne {id j : Id} (row : Wallet) (m : Memory) (h : j ≠ id) :
    (loadWallet id row m).wallets j = m.wallets j := by
  unfold loadWallet
  split_ifs
  · rfl
  · simp [Memory.setWallet, h]

/-- A read of a wallet leaves the invoices of the session. -/
theorem loadWallet_invoices (id : Id) (row : Wallet) (m : Memory) :
    (loadWallet id row m).invoices = m.invoices := by
  unfold loadWallet
  split_ifs <;> rfl

/-- The session's instance of a row that was just read. -/
theorem wp_instanceOf {C : Surroundings Db Row Memory} {id : Id} {row : Wallet}
    {Q : Wallet → TxView → Prop}
    (h : Q ((v.mem.wallets id).getD row) { v with mem := loadWallet id row v.mem }) :
    wp C (instanceOf id row) Q v := by
  change Q (((loadWallet id row v.mem).wallets id).getD row) _
  rw [loadWallet_self, Option.getD_some]
  exact h

/-- A wallet that is looked up by its columns is found as the session's instance of the row. -/
theorem wp_scalar {p : Wallet → Bool} {Q : Option (Id × Wallet) → TxView → Prop}
    (hnone : ∀ d, P.around.rely v.held v.last d → Q none { v with last := d })
    (hsome : ∀ v₁ id w, Found P p v v₁ id w → Q (some (id, w)) v₁) :
    wp P.around (scalar p) Q v := by
  unfold scalar
  refine wp_query_bind fun d hd => ?_
  have hlater : ∀ m, Later P v { v with mem := m, last := d } := fun m => .step [] hd
  cases hf : (v.pending d).wallets.find? fun _ w => p w with
  | none => exact hnone d hd
  | some r =>
    obtain ⟨id, row⟩ := r
    obtain ⟨hrow, hp⟩ := Table.find?_eq_some hf
    dsimp only
    rw [wp_bind]
    refine wp_instanceOf (hsome _ id _ ⟨hlater _, rfl, loadWallet_invoices .., ⟨row, hrow, hp, rfl⟩,
      loadWallet_self .., fun j hj => loadWallet_ne _ _ hj, fun hc => ?_⟩)
    intro j hj
    obtain ⟨ow, hdet, hinst⟩ := hc j hj
    refine ⟨ow, fun d' hd' => hdet d' ((hlater v.mem).reach hd'), fun w hw => ?_⟩
    by_cases hjd : j = id
    · -- The instance is the one that the session had, or the row that was read.
      subst hjd
      rw [loadWallet_self, Option.some.injEq] at hw
      cases hm : v.mem.wallets j with
      | none =>
        rw [hm, Option.getD_none] at hw
        rw [← hw, ← hdet d hd, hrow]
      | some u =>
        rw [hm, Option.getD_some] at hw
        exact hinst w (hw ▸ hm)
    · -- Another wallet's instance is untouched.
      exact hinst w (loadWallet_ne row v.mem hjd ▸ hw)

/-- `get_by_user` finds the wallet of a user. -/
theorem wp_getByUser {u : Id} {Q : Option (Id × Wallet) → TxView → Prop}
    (hnone : ∀ d, P.around.rely v.held v.last d → Q none { v with last := d })
    (hsome : ∀ v₁ id w, Found P (fun w => w.userId = some u) v v₁ id w → Q (some (id, w)) v₁) :
    wp P.around (getByUser u) Q v := wp_scalar hnone hsome

/-- `get_system` finds a system wallet, or raises. -/
theorem wp_getSystem {t : WalletType} {Q : Id × Wallet → TxView → Prop}
    (h : ∀ v₁ id w, Found P (fun w => w.type = t && w.userId.isNone) v v₁ id w → Q (id, w) v₁) :
    wp P.around (getSystem t) Q v := by
  unfold getSystem
  rw [wp_bind]
  exact wp_scalar (fun _ _ => trivial) fun v₁ id w hf => h v₁ id w hf

/-- Whether a key of the legs is in the ledger, when it was looked for. -/
theorem wp_anyKeyExists : ∀ {legs : List Leg} {v : TxView} {Q : Bool → TxView → Prop},
    (∀ v₁, Later P v v₁ → v₁.mem = v.mem → v₁.held = v.held →
      (∃ k ∈ legKeys legs, k ∈ ledgerKeys v₁.seen.transactions) → Q true v₁) →
    (∀ v₁, Later P v v₁ → v₁.mem = v.mem → v₁.held = v.held → Q false v₁) →
    wp P.around (anyKeyExists legs) Q v
  | [], v, Q, _, hno => hno v (.refl v) rfl rfl
  | leg :: legs, v, Q, hyes, hno => by
    unfold anyKeyExists
    split
    · -- A leg without a key is skipped.
      rename_i hk
      rw [legKeys_cons_none hk] at hyes
      exact wp_anyKeyExists hyes hno
    · -- The key of this leg is looked up, then those of the others.
      rename_i k hk
      refine wp_query_bind fun d hd => ?_
      have hlater : Later P v { v with last := d } := Later.step [] hd
      rw [wp_ite]
      refine ⟨fun h => hyes _ hlater rfl rfl ⟨k, ?_, by simpa using h⟩, fun _ => ?_⟩
      · rw [legKeys_cons_some hk]
        exact List.mem_cons_self
      · refine wp_anyKeyExists (fun v₁ hl hm hh hex => ?_) fun v₁ hl hm hh =>
          hno v₁ (hlater.trans hl) hm hh
        obtain ⟨k', hk', hmem⟩ := hex
        refine hyes v₁ (hlater.trans hl) hm hh ⟨k', ?_, hmem⟩
        rw [legKeys_cons_some hk]
        exact List.mem_cons_of_mem _ hk'

/-! ## Locks -/

/-- The lock of a wallet was held before, or it was granted by a session whose instance of the
wallet was the one of `v`. A refreshing read then returned the row. -/
def Granted (P : Policy) (refresh : Bool) (v v₁ : TxView) (id : Id) (w : Wallet) : Prop :=
  .wallet id ∈ v.held ∨ ∃ m d row, P.around.rely v.held v.last d ∧
    (v₁.last = d ∨ P.around.rely v.held d v₁.last) ∧ m.wallets id = v.mem.wallets id ∧
    m.invoices = v.mem.invoices ∧ P.cond m (v.pending d) (.wallet id) ∧
    (v.pending d).wallets.get? id = some row ∧ (refresh = true → row = w)

/-- What `lock_wallets` did for the wallets `ids`. -/
structure Locked (P : Policy) (refresh : Bool) (v v₁ : TxView) (ids : List Id)
    (loaded : Id → Option Wallet) : Prop where
  later : Later P v v₁
  invoices : v₁.mem.invoices = v.mem.invoices
  outside : ∀ id, id ∉ ids → v₁.mem.wallets id = v.mem.wallets id ∧ loaded id = none
  held : ∀ id w, loaded id = some w → .wallet id ∈ v₁.held
  only : ∀ l ∈ v₁.held, l ∈ v.held ∨ ∃ id ∈ ids, l = .wallet id
  granted : ∀ id w, loaded id = some w → Granted P refresh v v₁ id w
  current : Coherently P refresh → P.Framed v → Current P v →
    Current P v₁ ∧ ∀ id w, loaded id = some w → v₁.mem.wallets id = some w

/-- The session after the locking read of a wallet row. -/
def relock (refresh : Bool) (id : Id) (row : Wallet) (m : Memory) : Memory :=
  if (m.wallets id).isSome && !refresh then m else m.setWallet id (some row)

/-- The lock of one wallet leaves the instances of the others. -/
theorem relock_ne {id j : Id} (row : Wallet) (m : Memory) (h : j ≠ id) :
    (relock refresh id row m).wallets j = m.wallets j := by
  unfold relock
  split_ifs
  · rfl
  · simp [Memory.setWallet, h]

/-- The lock of a wallet leaves the invoices of the session. -/
theorem relock_invoices (id : Id) (row : Wallet) (m : Memory) :
    (relock refresh id row m).invoices = m.invoices := by
  unfold relock
  split_ifs <;> rfl

/-- The instance after a locking read is the row, when the one before was or is refreshed. -/
theorem relock_self {id : Id} {row : Wallet} {m : Memory}
    (h : refresh = true ∨ ∀ w, m.wallets id = some w → w = row) :
    (relock refresh id row m).wallets id = some row := by
  unfold relock
  split_ifs with hif
  · simp only [Bool.and_eq_true, Bool.not_eq_true', Option.isSome_iff_exists] at hif
    obtain ⟨⟨w, hw⟩, hr⟩ := hif
    rcases h with h | h
    · rw [hr] at h
      cases h
    · rw [hw, h w hw]
  · simp [Memory.setWallet]

/-- The lock of one wallet keeps the instances current. -/
theorem Current.relock {id : Id} {row : Wallet} {d : Db} (hco : Coherently P refresh)
    (hf : P.Framed v) (hc : Current P v) (hd : P.around.rely v.held v.last d)
    (hrow : (v.pending d).wallets.get? id = some row)
    (hl : .wallet id ∈ v.held ∨ P.cond v.mem (v.pending d) (.wallet id)) :
    Current P { v with held := .wallet id :: v.held, mem := relock refresh id row v.mem, last := d } ∧
      (Giftly.relock refresh id row v.mem).wallets id = some row := by
  -- Either the instance is refreshed, or the one in memory is the row already.
  have hold : refresh = true ∨ ∀ w, v.mem.wallets id = some w → w = row := by
    by_cases hh : .wallet id ∈ v.held
    · obtain ⟨ow, hdet, hinst⟩ := hc id hh
      refine .inr fun w hw => ?_
      have := hdet d hd
      rw [hrow, hinst w hw, Option.some.injEq] at this
      exact this.symm
    · refine hco.imp_right fun hcond w hw => ?_
      have := hcond v.mem _ id w (hl.resolve_left hh) hw
      rw [hrow, Option.some.injEq] at this
      exact this.symm
  have hself := relock_self hold
  refine ⟨fun j hj => ?_, hself⟩
  by_cases hjd : j = id
  · subst hjd
    refine ⟨some row, fun d' hd' => ?_, fun w hw => hself.symm.trans hw⟩
    by_cases hh : .wallet j ∈ v.held
    · obtain ⟨ow, hdet, -⟩ := hc j hh
      rw [hdet d' (Later.reach (.step [.wallet j] hd) hd'), ← hdet d hd, hrow]
    · -- The transaction has not written the wallet, and the lock keeps its row.
      have hsame : ∀ x : Db, (v.pending x).wallets.get? j = x.wallets.get? j :=
        fun x => (hf x).2 (.wallet j) hh
      rw [hsame, Policy.rely_wallet hd' List.mem_cons_self, ← hsame d, hrow]
  · -- Another wallet: its lock was held before, and its instance is untouched.
    have hj' : .wallet j ∈ v.held := by simpa [hjd] using hj
    obtain ⟨ow, hdet, hinst⟩ := hc j hj'
    refine ⟨ow, fun d' hd' => hdet d' (Later.reach (.step [.wallet id] hd) hd'), fun w hw => ?_⟩
    exact hinst w (relock_ne row v.mem hjd ▸ hw)

/-- The instance that the lock of one wallet returns. -/
def one (id : Id) (ow : Option Wallet) : Id → Option Wallet := fun j => if j = id then ow else none

/-- The lock of one wallet returns the instance of that wallet. -/
theorem eq_of_one {id j : Id} {ow : Option Wallet} {w : Wallet} (h : one id ow j = some w) :
    j = id ∧ ow = some w := by
  unfold one at h
  split_ifs at h with hj
  exact ⟨hj, h⟩

/-- The lock of one wallet. -/
theorem wp_lockWallet {id : Id} {Q : Option Wallet → TxView → Prop}
    (h : ∀ v₁ ow, Locked P refresh v v₁ [id] (one id ow) → Q ow v₁) :
    wp P.around (lockWallet refresh id) Q v := by
  intro d hd
  refine ⟨fun ht => ?_, fun l ht hl => ?_⟩
  · -- No such wallet, and no lock.
    dsimp only
    rw [Option.map_eq_none_iff.mp ht]
    refine h _ none ⟨.step [] hd, rfl, fun j hj => ⟨rfl, ?_⟩, fun j w hw => ?_, fun _ => .inl,
      fun j w hw => ?_, fun _ _ hc => ⟨hc.later (.step [] hd) rfl fun _ _ => rfl, fun j w hw => ?_⟩⟩
    · exact if_neg (by simpa using hj)
    all_goals cases (eq_of_one hw).2
  · -- The wallet's row is locked, and its instance read again or kept.
    obtain ⟨row, hrow, rfl⟩ := Option.map_eq_some_iff.mp ht
    dsimp only
    rw [hrow]
    refine h _ _ ⟨.step [.wallet id] hd, relock_invoices id row v.mem, fun j hj => ?_,
      fun j w hw => ?_, fun l hl => ?_, fun j w hw => ?_, fun hco hf hc => ?_⟩
    · have hj' : j ≠ id := by simpa using hj
      exact ⟨relock_ne _ _ hj', if_neg hj'⟩
    · rw [(eq_of_one hw).1]
      exact List.mem_cons_self
    · exact (List.mem_cons.mp hl).symm.imp_right fun h => ⟨id, List.mem_singleton_self id, h⟩
    · obtain ⟨rfl, hw⟩ := eq_of_one hw
      refine hl.imp (fun h => h) fun hcond => ⟨v.mem, d, row, hd, .inl rfl, rfl, rfl, hcond, hrow, ?_⟩
      intro hr
      exact Option.some.inj ((relock_self (.inl hr)).symm.trans hw)
    · obtain ⟨hcur, hself⟩ := hc.relock hco hf hd hrow hl
      refine ⟨hcur, fun j w hw => ?_⟩
      obtain ⟨rfl, hw⟩ := eq_of_one hw
      exact hw

/-- The locks of several wallets, by induction on the list. -/
theorem wp_lockEach : ∀ {ids : List Id} {v : TxView} {Q : (Id → Option Wallet) → TxView → Prop},
    ids.Nodup → (∀ v₁ loaded, Locked P refresh v v₁ ids loaded → Q loaded v₁) →
    wp P.around (lockEach refresh ids) Q v
  | [], v, Q, _, h => by
    refine h v _ ⟨.refl v, rfl, fun _ _ => ⟨rfl, rfl⟩, fun _ _ h => ?_, fun _ => .inl,
      fun _ _ h => ?_, fun _ _ hc => ⟨hc, fun _ _ h => ?_⟩⟩
    all_goals cases h
  | id :: ids, v, Q, hnd, h => by
    rw [List.nodup_cons] at hnd
    unfold lockEach
    rw [wp_bind]
    refine wp_lockWallet fun v₁ ow h₁ => ?_
    rw [wp_bind]
    refine wp_lockEach hnd.2 fun v₂ rest h₂ => ?_
    -- The wallet locked first is not among the others, so its instance stays.
    have hrest : rest id = none := (h₂.outside id hnd.1).2
    have hcases : ∀ {j w}, Function.update rest id ow j = some w →
        (j = id ∧ ow = some w) ∨ (j ≠ id ∧ rest j = some w) := by
      intro j w hw
      by_cases hj : j = id
      · subst hj
        rw [Function.update_self] at hw
        exact .inl ⟨rfl, hw⟩
      · rw [Function.update_of_ne hj] at hw
        exact .inr ⟨hj, hw⟩
    refine h v₂ _ ⟨h₁.later.trans h₂.later, h₂.invoices.trans h₁.invoices, fun j hj => ?_,
      fun j w hw => ?_, fun l hl => ?_, fun j w hw => ?_, fun hco hf hc => ?_⟩
    · rw [List.mem_cons, not_or] at hj
      rw [Function.update_of_ne hj.1]
      exact ⟨(h₂.outside j hj.2).1.trans (h₁.outside j (by simpa using hj.1)).1,
        (h₂.outside j hj.2).2⟩
    · rcases hcases hw with ⟨rfl, how⟩ | ⟨-, hw⟩
      · exact h₂.later.subset (h₁.held j w (by simp [one, how]))
      · exact h₂.held j w hw
    · rcases h₂.only l hl with hl | ⟨j, hj, rfl⟩
      · refine (h₁.only l hl).imp_right ?_
        rintro ⟨j, hj, rfl⟩
        exact ⟨j, by simpa using .inl (List.mem_singleton.mp hj), rfl⟩
      · exact .inr ⟨j, List.mem_cons_of_mem _ hj, rfl⟩
    · rcases hcases hw with ⟨rfl, how⟩ | ⟨hj, hw⟩
      · refine (h₁.granted j w (by simp [one, how])).imp (fun h => h) ?_
        rintro ⟨m, d, row, hd, hd', hm, hi, hcond, hrow, hr⟩
        refine ⟨m, d, row, hd, ?_, hm, hi, hcond, hrow, hr⟩
        rcases h₂.later.last with hl | hl
        · rw [hl]
          exact hd'
        · have hl' := Policy.rely_mono hl h₁.later.subset
          rcases hd' with hd' | hd'
          · rw [hd'] at hl'
            exact .inr hl'
          · exact .inr (Policy.rely_trans hd' hl')
      · rcases h₂.granted j w hw with hh | ⟨m, d, row, hd, hd', hm, hi, hcond, hrow, hr⟩
        · refine (h₁.only _ hh).imp_right ?_
          rintro ⟨j', hj', heq⟩
          rw [Row.wallet.injEq, List.mem_singleton.mp hj'] at heq
          exact absurd heq hj
        · refine .inr ⟨m, d, row, h₁.later.reach hd, ?_, ?_, hi.trans h₁.invoices, ?_, ?_, hr⟩
          · exact hd'.imp_right fun h => Policy.rely_mono h h₁.later.subset
          · exact hm.trans (h₁.outside j (by simpa using hj)).1
          · rw [← h₁.later.pending]
            exact hcond
          · rw [← h₁.later.pending]
            exact hrow
    · obtain ⟨hc₁, hi₁⟩ := h₁.current hco hf hc
      have hf₁ : P.Framed v₁ := Policy.robust_framed.later hf h₁.later
      obtain ⟨hc₂, hi₂⟩ := h₂.current hco hf₁ hc₁
      refine ⟨hc₂, fun j w hw => ?_⟩
      rcases hcases hw with ⟨rfl, how⟩ | ⟨-, hw⟩
      · rw [(h₂.outside j hnd.1).1]
        exact hi₁ j w (by simp [one, how])
      · exact hi₂ j w hw

/-- `lock_wallets` locks the wallets of the list, whatever its order. -/
theorem wp_lockWallets {ids : List Id} {Q : (Id → Option Wallet) → TxView → Prop}
    (h : ∀ v₁ loaded, Locked P refresh v v₁ ids loaded → Q loaded v₁) :
    wp P.around (lockWallets refresh ids) Q v := by
  refine wp_lockEach ?_ fun v₁ loaded hl => h v₁ loaded ⟨hl.later, hl.invoices, fun id hid => ?_,
    hl.held, fun l hl' => ?_, hl.granted, hl.current⟩
  · exact (List.perm_insertionSort _ _).nodup_iff.mpr (List.nodup_dedup ids)
  · exact hl.outside id (by simpa using hid)
  · simpa using hl.only l hl'

/-- Reads before the locks do not matter. -/
theorem Locked.of_later {v₀ v₁ : TxView} {ids : List Id} {loaded : Id → Option Wallet}
    (h : Locked P refresh v₀ v₁ ids loaded) (hl : Later P v v₀) (hm : v₀.mem = v.mem)
    (hh : v₀.held = v.held) : Locked P refresh v v₁ ids loaded where
  later := hl.trans h.later
  invoices := by rw [h.invoices, hm]
  outside id hid := by rw [← hm]; exact h.outside id hid
  held := h.held
  only l hl := by rw [← hh]; exact h.only l hl
  granted id w hw := by
    refine (h.granted id w hw).imp (fun h => hh ▸ h) ?_
    rintro ⟨m, d, row, hd, hd', hmw, hmi, hcond, hrow, hr⟩
    exact ⟨m, d, row, hl.reach hd, hh ▸ hd', hm ▸ hmw, hm ▸ hmi, hl.pending ▸ hcond,
      hl.pending ▸ hrow, hr⟩
  current hco hf hc := h.current hco (Policy.robust_framed.later hf hl)
    (hc.later hl hh fun id _ => by rw [hm])

/-! ## Postings -/

/-- The group of `legs` was posted at the committed state `d`, from the instances `loaded`. -/
structure Booking (P : Policy) (refresh : Bool) (c : Id) (legs : List Leg) (v v₁ : TxView)
    (loaded assigned : Id → Option Wallet) (rows : List Transaction) (d : Db) : Prop where
  locked : Locked P refresh v v₁ (walletIds legs) loaded
  applied : Applied c loaded legs assigned rows
  zero : legs.length ≤ 10 ^ 15 → (rows.map (·.amount)).sum = 0
  rely : P.around.rely v₁.held v₁.last d
  wallets : ∀ id ∈ walletIds legs, ∀ w,
    ((v.pending d).post (written loaded assigned) rows).wallets.get? id = some w → w.check = none
  checked : ∀ t ∈ rows, t.check (v.pending d) = none
  nodup : (ledgerKeys ((v.pending d).transactions ++ rows)).Nodup

/-- The view after a posting. -/
def booked (legs : List Leg) (v v₁ : TxView) (loaded assigned : Id → Option Wallet)
    (rows : List Transaction) (d : Db) : TxView where
  held := ((legKeys legs).map .idempotency ++ (walletIds legs).map .wallet) ++ v₁.held
  pending := Db.post (written loaded assigned) rows ∘ v.pending
  mem := remember (walletIds legs) assigned v₁.mem
  last := d

/-- A group is a replay of a known key, or it is posted from the locked instances. -/
theorem wp_postGroup {legs : List Leg} {Q : Bool → TxView → Prop} (hcents : InCents legs)
    (hfalse : ∀ v₁, Later P v v₁ → (∃ k ∈ legKeys legs, k ∈ ledgerKeys v₁.seen.transactions) →
      Q false v₁)
    (htrue : ∀ v₁ loaded assigned rows d, Booking P refresh c legs v v₁ loaded assigned rows d →
      Q true (booked legs v v₁ loaded assigned rows d)) :
    wp P.around (postGroup refresh legs c) Q v := by
  unfold postGroup
  refine wp_ofExcept_bind fun _ hvalid => ?_
  rw [wp_bind]
  refine wp_anyKeyExists (fun v₀ hl _ _ hex => hfalse v₀ hl hex) fun v₀ hl hm hh => ?_
  rw [if_neg Bool.false_ne_true, wp_bind]
  -- None of the keys is there yet: the wallets are locked, in order.
  refine wp_lockWallets fun v₁ loaded hlock => wp_ofExcept_bind fun x happ => ?_
  obtain ⟨assigned, rows⟩ := x
  replace hlock := hlock.of_later hl hm hh
  replace happ := applyLegs_eq_ok hcents happ
  intro d hd _
  constructor
  · -- The insert succeeds, so the rows meet every check of their table.
    intro hcheck
    rw [hlock.later.pending, checkGroup_eq_none] at hcheck
    obtain ⟨hwallets, hrows, hnodup⟩ := hcheck
    have hfit : ∀ leg ∈ legs, fitsMoney leg.amount.coeff = true := by
      intro leg hleg
      have hmem : leg.amount.coeff ∈ rows.map (·.amount) := by
        rw [rows_amount happ.rows]
        exact List.mem_map_of_mem hleg
      obtain ⟨t, ht, heq⟩ := List.mem_map.mp hmem
      rw [← heq]
      exact (Transaction.check_eq_none.mp (hrows t ht)).1
    rw [hlock.later.pending]
    refine htrue v₁ loaded assigned rows d
      ⟨hlock, happ, fun hlen => ?_, hd, hwallets, hrows, hnodup⟩
    rw [rows_amount happ.rows]
    exact sum_eq_zero_of_validateLegs hvalid hcents hfit hlen
  · intro e _
    dsimp only
    split
    · -- The savepoint was rolled back, and a second look at the keys tells a replay.
      have hl₁ : Later P v { v₁ with
          held := ((legKeys legs).map .idempotency ++ (walletIds legs).map .wallet) ++ v₁.held
          mem := remember (walletIds legs) (fun _ => none) v₁.mem, last := d } :=
        hlock.later.trans (.step _ hd)
      rw [wp_orm, wp_bind]
      refine wp_anyKeyExists (fun v₂ hl₂ _ _ hex => ?_) fun _ _ _ _ => trivial
      exact hfalse v₂ (hl₁.trans hl₂) hex
    · trivial

namespace Booking

variable {legs : List Leg} {v₁ : TxView} {loaded assigned : Id → Option Wallet}
  {rows : List Transaction} {d : Db}

/-- The locks held before a posting are held after it. -/
theorem subset : v₁.held ⊆ (booked legs v v₁ loaded assigned rows d).held :=
  List.subset_append_right _ _

/-- What the surroundings may reach after a posting they might have reached before. -/
theorem reach (h : Booking P refresh c legs v v₁ loaded assigned rows d) {d' : Db}
    (hd : P.around.rely (booked legs v v₁ loaded assigned rows d).held d d') :
    P.around.rely v₁.held v₁.last d' := Policy.rely_trans h.rely (Policy.rely_mono hd subset)

/-- What the surroundings may do after a posting they may have done before it. -/
theorem reach_start (h : Booking P refresh c legs v v₁ loaded assigned rows d) {d' : Db}
    (hd : P.around.rely (booked legs v v₁ loaded assigned rows d).held d d') :
    P.around.rely v.held v.last d' := h.locked.later.reach (h.reach hd)

/-- The keys of a group are locked by its posting. -/
theorem key_mem_held {k : IdempotencyKey} (hk : k ∈ legKeys legs) :
    .idempotency k ∈ (booked legs v v₁ loaded assigned rows d).held := by
  simp [booked, hk]

/-- The keys of a posted group are not in the ledger before, as long as its locks are held. -/
theorem fresh (h : Booking P refresh c legs v v₁ loaded assigned rows d) {k : IdempotencyKey}
    (hk : k ∈ legKeys legs) : k ∉ ledgerKeys (v.pending d).transactions := by
  have hnodup := h.nodup
  have hkeys := rows_keys h.applied.rows
  rw [ledgerKeys, List.filterMap_append, List.nodup_append] at hnodup
  exact fun hmem => hnodup.2.2 k hmem k (hkeys.symm ▸ hk : k ∈ ledgerKeys rows) rfl

/-- No leg of a posted group is zero. -/
theorem amount_ne_zero (h : Booking P refresh c legs v v₁ loaded assigned rows d) {leg : Leg}
    (hleg : leg ∈ legs) : leg.amount.coeff ≠ 0 := by
  have hmem : leg.amount.coeff ∈ rows.map (·.amount) := by
    rw [rows_amount h.applied.rows]
    exact List.mem_map_of_mem hleg
  obtain ⟨t, ht, heq⟩ := List.mem_map.mp hmem
  rw [← heq]
  exact (Transaction.check_eq_none.mp (h.checked t ht)).2.2.1

/-- A wallet of a posted group: its row before and after. -/
theorem row (h : Booking P refresh c legs v v₁ loaded assigned rows d) (hco : Coherently P refresh)
    (hf : P.Framed v) (hc : Current P v) {id : Id} (hid : id ∈ walletIds legs) :
    ∃ w, loaded id = some w ∧ ∀ d', P.around.rely v₁.held v₁.last d' →
      (v.pending d').wallets.get? id = some w ∧
      ((v.pending d').post (written loaded assigned) rows).wallets.get? id =
        some (creditRows rows id w) := by
  obtain ⟨leg, hleg, rfl⟩ := List.mem_map.mp hid
  obtain ⟨w, hw⟩ := Option.isSome_iff_exists.mp (h.applied.found leg hleg)
  obtain ⟨hc₁, hinst⟩ := h.locked.current hco hf hc
  obtain ⟨ow, hdet, hmem⟩ := hc₁ leg.walletId (h.locked.held _ w hw)
  have how : ow = some w := hmem w (hinst _ w hw)
  refine ⟨w, hw, fun d' hd' => ?_⟩
  have hrow : (v.pending d').wallets.get? leg.walletId = some w := by
    rw [← h.locked.later.pending, hdet d' hd', how]
  refine ⟨hrow, ?_⟩
  rw [Db.post, Table.get?_mapRows, hrow, Option.map_some]
  simp only [written, hw, h.applied.moved, Option.map_some]
  exact congrArg some (Wallet.assign_credit w _ _)

/-- A wallet outside a posted group keeps its row. -/
theorem row_outside (h : Booking P refresh c legs v v₁ loaded assigned rows d) {id : Id}
    (hid : id ∉ walletIds legs) (x : Db) :
    (x.post (written loaded assigned) rows).wallets.get? id = x.wallets.get? id := by
  rw [Db.post, Table.get?_mapRows]
  have hnone : loaded id = none := (h.locked.outside id hid).2
  cases x.wallets.get? id with
  | none => rfl
  | some w => simp [written, hnone]

/-- An assertion that writes to the wallets and the ledger leave true holds after a posting. -/
theorem robust (h : Booking P refresh c legs v v₁ loaded assigned rows d) {J : TxView → Prop}
    (hJ : Robust P [.wallets, .transactions] J) (hv : J v) :
    J (booked legs v v₁ loaded assigned rows d) := by
  have hv₁ : J { v₁ with last := d } := hJ.later hv (h.locked.later.trans (.step [] h.rely))
  have hpatch : Framed [.wallets, .transactions]
      ((legKeys legs).map .idempotency ++ (walletIds legs).map .wallet)
      (Db.post (written loaded assigned) rows) := by
    refine .post (written_frozen loaded assigned) (fun id hid w => ?_) fun k hk => ?_
    · have hnone : loaded id = none := (h.locked.outside id fun h' => hid (by simp [h'])).2
      simp [written, hnone]
    · rw [rows_keys h.applied.rows]
      exact fun h' => hk (by simp [h'])
  have := hJ.patch { v₁ with last := d } _ _ hpatch hv₁
  rw [h.locked.later.pending] at this
  exact hJ.mem _ _ this

/-- A posting keeps to the tables and to the locks. -/
theorem framed (h : Booking P refresh c legs v v₁ loaded assigned rows d)
    (ht : .wallets ∈ P.tables) (ht' : .transactions ∈ P.tables) (hf : P.Framed v) :
    P.Framed (booked legs v v₁ loaded assigned rows d) :=
  h.robust (Policy.robust_framed.mono (by simp [ht, ht'])) hf

/-- The instances are current after a posting, as they were before it. -/
theorem current (h : Booking P refresh c legs v v₁ loaded assigned rows d)
    (hco : Coherently P refresh) (hf : P.Framed v) (hc : Current P v) :
    Current P (booked legs v v₁ loaded assigned rows d) := by
  intro id hid
  by_cases hmem : id ∈ walletIds legs
  · obtain ⟨w, hw, hrow⟩ := h.row hco hf hc hmem
    refine ⟨_, fun d' hd' => (hrow d' (h.reach hd')).2, fun w' hw' => ?_⟩
    simp only [booked, remember, hmem, if_true, h.applied.moved, hw, Option.map_some] at hw'
    exact hw'
  · have hheld : .wallet id ∈ v₁.held := by
      simpa [booked, hmem] using hid
    obtain ⟨ow, hdet, hinst⟩ := (h.locked.current hco hf hc).1 id hheld
    refine ⟨ow, fun d' hd' => ?_, fun w hw => ?_⟩
    · rw [show (booked legs v v₁ loaded assigned rows d).pending d' =
        (v.pending d').post (written loaded assigned) rows from rfl, h.row_outside hmem,
        ← h.locked.later.pending]
      exact hdet d' (h.reach hd')
    · simp only [booked, remember, hmem, if_false] at hw
      exact hinst w hw

end Booking

end Giftly
