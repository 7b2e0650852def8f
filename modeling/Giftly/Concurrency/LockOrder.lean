import Giftly.Store.Deadlock
import Giftly.Ledger.Operations
import Giftly.Seed
import Mathlib.Data.Prod.Lex

/-!
# The order of the row locks

The payment flows lock rows of five tables, with `FOR UPDATE` and by the flush of an `UPDATE`. Most of
them go from the payment intent to the invoice, the order, the wallets in the order of their ids, and
the promo. Two do not: `pay_invoice` locks the order and the wallets and then updates the invoice, and
`_expire_invoice` holds the invoice, and perhaps a wallet and the promo, when it updates the payment
intent and locks the order. A cycle of waiting transactions contains one that waits at one of these
statements (`no_deadlock`).
-/

namespace Giftly

open Store
open WalletRepository MoneyService

/-! ## Rows -/

/-- The rows of payment intents, invoices, orders, promos and wallets. -/
def Row.watched : Row → Bool
  | .intent _ | .invoice _ | .order _ | .promo _ | .wallet _ => true
  | _ => false

/-- The place of a row's table in the order. -/
def Row.table : Row → ℕ
  | .intent _ => 0
  | .invoice _ => 1
  | .order _ => 2
  | .wallet _ => 3
  | _ => 4

/-- The order of the tables, and of the wallets among each other. -/
def Row.rank (l : Row) : ℕ ×ₗ ℕ :=
  toLex (l.table, match l with
    | .wallet id => id
    | _ => 0)

/-- The statements of a request that lock a row out of order: the `UPDATE` of the invoice by
`pay_invoice`, and the `UPDATE` of the payment intent and the lock of the order by `_expire_invoice`.
The row of a new intent is locked by nobody, unless its id was drawn twice. -/
def outOfOrder : Request → Row → Bool
  | .payInvoice _ _ _ _, .invoice _ => true
  | .payInvoice _ input _ _, .intent id => id = input.intentId
  | .expireInvoice _ _, .intent _ => true
  | .expireInvoice _ _, .order _ => true
  | _, _ => false

/-- What a request may lock beside the rows that it holds. -/
abbrev Request.MayLock (r : Request) : Memory → List Row → Row → Prop :=
  System.Ascending Row.watched Row.rank fun _ l => outOfOrder r l

/-- The locks after some statements: those before, and others. The watched ones among the others
satisfy `S`. -/
structure Adds (S : Row → Prop) (held held' : List Row) : Prop where
  subset : held ⊆ held'
  new : ∀ l ∈ held', l.watched = true → l ∈ held ∨ S l

/-- Every watched row that is held is of a table before the `k`-th. -/
def Below (k : ℕ) (held : List Row) : Prop := ∀ l ∈ held, l.watched = true → l.table < k

/-- A row of an earlier table has the smaller rank. -/
theorem rank_lt_of_table {l l' : Row} (h : l.table < l'.table) : l.rank < l'.rank :=
  Prod.Lex.toLex_lt_toLex.mpr (.inl h)

/-- Wallets are ranked by their ids. -/
theorem rank_wallet_lt {id id' : Id} (h : id < id') : (Row.wallet id).rank < (Row.wallet id').rank :=
  Prod.Lex.toLex_lt_toLex.mpr (.inr ⟨rfl, h⟩)

section Adds

variable {held held' held₂ : List Row} {S S' : Row → Prop} {j k : ℕ}

/-- No lock is added. -/
theorem Adds.refl : Adds S held held := ⟨List.Subset.refl _, fun _ hl _ => .inl hl⟩

/-- Locks that are added in two steps. -/
theorem Adds.trans (h : Adds S held held') (h' : Adds S held' held₂) : Adds S held held₂ where
  subset := List.Subset.trans h.subset h'.subset
  new l hl hw := (h'.new l hl hw).elim (fun hl => h.new l hl hw) .inr

/-- Locks that satisfy `S` satisfy what follows from it. -/
theorem Adds.mono (h : Adds S held held') (hS : ∀ l, S l → S' l) : Adds S' held held' where
  subset := h.subset
  new l hl hw := (h.new l hl hw).imp_right (hS l)

/-- One row more. -/
theorem Adds.cons (l : Row) (h : l.watched = true → S l) : Adds S held (l :: held) where
  subset := List.subset_cons_self l held
  new l' hl' hw := by
    rcases List.mem_cons.mp hl' with rfl | hl'
    · exact .inr (h hw)
    · exact .inl hl'

/-- Rows that are held already. -/
theorem Adds.append {ls : List Row} (h : ∀ l ∈ ls, l.watched = true → l ∈ held) :
    Adds S held (ls ++ held) where
  subset := List.subset_append_right ls held
  new l hl hw := by
    rcases List.mem_append.mp hl with hl | hl
    · exact .inl (h l hl hw)
    · exact .inl hl

/-- The rows held stay below a table when only rows below it are added. -/
theorem Below.adds (h : Below k held) (ha : Adds S held held') (hS : ∀ l, S l → l.table < k) :
    Below k held' := fun l hl hw => (ha.new l hl hw).elim (fun hl => h l hl hw) (hS l)

/-- Rows below a table are below every later one. -/
theorem Below.mono (h : Below j held) (hjk : j ≤ k) : Below k held :=
  fun l hl hw => (h l hl hw).trans_le hjk

/-- The rows held and one more below the table. -/
theorem Below.cons {l : Row} (h : Below k held) (hl : l.table < k) : Below k (l :: held) := by
  intro l' hl' hw
  rcases List.mem_cons.mp hl' with rfl | hl'
  · exact hl
  · exact h l' hl' hw

/-- A transaction begins with no rows, so they are below every table. -/
theorem Below.nil : Below k [] := fun _ hl => absurd hl List.not_mem_nil

end Adds

/-- A row of a table after those of the rows held. -/
theorem mayLock_of_below {r : Request} {m : Memory} {held : List Row} {l : Row}
    (h : Below l.table held) : r.MayLock m held l :=
  fun _ => .inr fun l' hl' hw => rank_lt_of_table (h l' hl' hw)

/-- A row that no other request of the payment flows waits for. -/
theorem mayLock_of_unwatched {r : Request} {m : Memory} {held : List Row} {l : Row}
    (h : l.watched = false) : r.MayLock m held l := fun hw => by
  rw [h] at hw
  cases hw

namespace LockProof

variable {r : Request} {m : Memory} {held held' : List Row} {α β : Type} {refresh : Bool} {c : Id}

/-- A function that locks no watched row. -/
def Reads (p : Tx α) : Prop := p.Requests fun l => l.watched = false

/-- Such a function adds no watched row to those held. -/
theorem asks_reads {p : Tx α} {Q : α → Memory → List Row → Prop} (hp : Reads p)
    (hQ : ∀ a m' held', Adds (fun _ => False) held held' → Q a m' held') :
    p.asks r.MayLock Q m held := by
  refine Prog.asks_mono (fun a m' held' h => hQ a m' held' ⟨h.1, fun l hl hw => ?_⟩)
    (Prog.Requests.asks hp fun m held l hl => mayLock_of_unwatched hl)
  refine .inl ((h.2 l hl).resolve_right fun hun => ?_)
  rw [hun] at hw
  cases hw

/-- A part that only reads is run first; it adds no watched lock, and what follows has to hold for
any memory it leaves. -/
theorem asks_reads_bind {p : Tx α} {g : α → Tx β} {Q : β → Memory → List Row → Prop} (hp : Reads p)
    (hg : ∀ a m' held', Adds (fun _ => False) held held' → (g a).asks r.MayLock Q m' held') :
    (p >>= g).asks r.MayLock Q m held := by
  rw [Prog.asks_bind]
  exact asks_reads hp hg

/-- A locking read of the row that `find` finds. -/
theorem asks_lockFind {V : Type} {find : Db → Option V} (name : V → Row)
    {Q : Option V → Memory → List Row → Prop} (hnone : Q none m held)
    (hsome : ∀ x, (name x ∈ held ∨ r.MayLock m held (name x)) ∧ Q (some x) m (name x :: held)) :
    (.lock (fun d => (find d).map name) fun d => .ret (find d) : Tx (Option V)).asks r.MayLock Q m
      held := by
  intro d
  refine ⟨fun ht => ?_, fun l hl => ?_⟩
  · rw [Prog.asks_ret, Option.map_eq_none_iff.mp ht]
    exact hnone
  · obtain ⟨x, hx, rfl⟩ := Option.map_eq_some_iff.mp hl
    rw [Prog.asks_ret, hx]
    exact hsome x

/-- An `UPDATE` asks for the rows it names, and holds them afterwards. -/
theorem asks_updateRow {V : Type} {names : List Row} {get : Db → Option V}
    {patch : (V → V) → Db → Db} {f : V → V} {check : Db → V → Option Err}
    {Q : Unit → Memory → List Row → Prop} (h : ∀ l ∈ names, l ∈ held ∨ r.MayLock m held l)
    (hQ : Q () m (names ++ held)) : (updateRow names get patch f check).asks r.MayLock Q m held :=
  Prog.asks_flush h hQ

/-- An `INSERT` asks for the rows it names, and holds them afterwards. -/
theorem asks_insertRow {V : Type} {names : List Row} {get : Db → Option V} {patch : Db → Db}
    {check : Db → Option Err} {Q : Unit → Memory → List Row → Prop}
    (h : ∀ l ∈ names, l ∈ held ∨ r.MayLock m held l) (hQ : Q () m (names ++ held)) :
    (insertRow names get patch check).asks r.MayLock Q m held :=
  Prog.asks_flush h hQ

/-! ## Wallets -/

/-- A wallet may be locked when it is held already or comes after the rows held. -/
def Free (held : List Row) (id : Id) : Prop :=
  .wallet id ∈ held ∨ ∀ l ∈ held, l.watched = true → l.rank < (Row.wallet id).rank

/-- Before the first wallet is locked, every wallet may be. -/
theorem free_of_below (h : Below 3 held) (id : Id) : Free held id :=
  .inr fun l hl hw => rank_lt_of_table (h l hl hw)

/-- The rows of some wallets. -/
def IsWallet (ids : List Id) (l : Row) : Prop := ∃ id ∈ ids, l = .wallet id

/-- A wallet that is not held may be locked when no later one is held. -/
theorem asks_lockWallet {id : Id} {Q : Option Wallet → Memory → List Row → Prop}
    (hfree : Free held id) (hnone : Q none m held)
    (hsome : ∀ ow m', Q ow m' (.wallet id :: held)) :
    (lockWallet refresh id).asks r.MayLock Q m held := by
  intro d
  refine ⟨fun ht => ?_, fun l hl => ?_⟩
  · dsimp only
    rw [Option.map_eq_none_iff.mp ht]
    exact hnone
  · obtain ⟨row, hrow, rfl⟩ := Option.map_eq_some_iff.mp hl
    refine ⟨hfree.imp_right fun h _ => .inr h, ?_⟩
    dsimp only
    rw [hrow]
    exact hsome _ _

/-- Wallets may be locked one after the other in the order of their ids, by induction on the list.
-/
theorem asks_lockEach : ∀ {ids : List Id} {m : Memory} {held : List Row}
    {Q : (Id → Option Wallet) → Memory → List Row → Prop}, ids.Pairwise (· < ·) →
    (∀ id ∈ ids, Free held id) →
    (∀ loaded m' held', Adds (IsWallet ids) held held' →
      (∀ id w, loaded id = some w → .wallet id ∈ held') → Q loaded m' held') →
    (lockEach refresh ids).asks r.MayLock Q m held
  | [], m, held, Q, _, _, hQ => hQ _ _ _ .refl fun _ _ h => by cases h
  | id :: ids, m, held, Q, hsorted, hfree, hQ => by
    obtain ⟨hlater, hrest⟩ := List.pairwise_cons.mp hsorted
    unfold lockEach
    rw [Prog.asks_bind]
    -- What holds after the first wallet, whether it was found or not.
    have hgo : ∀ ow m' held', Adds (IsWallet (id :: ids)) held held' →
        (∀ w, ow = some w → .wallet id ∈ held') → (∀ j ∈ ids, Free held' j) →
        (lockEach refresh ids >>= fun rest => (pure (Function.update rest id ow) : Tx _)).asks
          r.MayLock Q m' held' := by
      intro ow m' held' ha hid hfree'
      rw [Prog.asks_bind]
      refine asks_lockEach hrest hfree' fun rest m₂ held₂ ha₂ hrest₂ => ?_
      refine hQ _ _ _ (ha.trans (ha₂.mono ?_)) fun j w hw => ?_
      · rintro l ⟨j, hj, rfl⟩
        exact ⟨j, List.mem_cons_of_mem _ hj, rfl⟩
      · by_cases hj : j = id
        · subst hj
          rw [Function.update_self] at hw
          exact ha₂.subset (hid w hw)
        · rw [Function.update_of_ne hj] at hw
          exact hrest₂ j w hw
    refine asks_lockWallet (hfree id List.mem_cons_self) ?_ fun ow m' => ?_
    · exact hgo none m held .refl (by simp) fun j hj => hfree j (List.mem_cons_of_mem _ hj)
    · refine hgo ow m' _ (.cons _ fun _ => ⟨id, List.mem_cons_self, rfl⟩)
        (fun _ _ => List.mem_cons_self) fun j hj => ?_
      refine (hfree j (List.mem_cons_of_mem _ hj)).imp (List.mem_cons_of_mem _) fun h l hl hw => ?_
      rcases List.mem_cons.mp hl with rfl | hl
      · exact rank_wallet_lt (hlater j hj)
      · exact h l hl hw

/-- `lock_wallets` sorts the ids first, so it may lock any wallets that are free. -/
theorem asks_lockWallets {ids : List Id} {Q : (Id → Option Wallet) → Memory → List Row → Prop}
    (hfree : ∀ id ∈ ids, Free held id)
    (hQ : ∀ loaded m' held', Adds (IsWallet ids) held held' →
      (∀ id w, loaded id = some w → .wallet id ∈ held') → Q loaded m' held') :
    (lockWallets refresh ids).asks r.MayLock Q m held := by
  have hmem : ∀ id, id ∈ ids.dedup.insertionSort (· ≤ ·) ↔ id ∈ ids := by
    intro id
    rw [List.mem_insertionSort, List.mem_dedup]
  have hnodup : (ids.dedup.insertionSort (· ≤ ·)).Nodup :=
    (List.perm_insertionSort _ _).nodup_iff.mpr (List.nodup_dedup ids)
  have hsorted : (ids.dedup.insertionSort (· ≤ ·)).Pairwise (· < ·) :=
    ((List.pairwise_insertionSort (· ≤ ·) ids.dedup).and hnodup).imp fun h => lt_of_le_of_ne h.1 h.2
  refine asks_lockEach hsorted (fun id hid => hfree id ((hmem id).mp hid)) ?_
  intro loaded m' held' ha hheld
  refine hQ loaded m' held' (ha.mono ?_) hheld
  rintro l ⟨id, hid, rfl⟩
  exact ⟨id, (hmem id).mp hid, rfl⟩

/-- The flush of a wallet that is held asks for no further row. -/
theorem asks_flushWallet {id : Id} {l a : Wallet} {Q : Unit → Memory → List Row → Prop}
    (hheld : .wallet id ∈ held)
    (hQ : ∀ m' held', Adds (fun _ => False) held held' → Q () m' held') :
    (flushWallet id l a).asks r.MayLock Q m held := by
  unfold flushWallet
  rw [Prog.asks_bind]
  refine asks_updateRow (fun l hl => .inl ?_) (hQ _ _ (.append fun l hl _ => ?_))
  all_goals
    rw [List.mem_singleton.mp hl]
    exact hheld

/-! ## The ledger -/

/-- The rows of wallets. -/
def AnyWallet (l : Row) : Prop := ∃ id, l = .wallet id

/-- Wallets of a list are wallets. -/
theorem anyWallet_of_isWallet {ids : List Id} {l : Row} (h : IsWallet ids l) : AnyWallet l :=
  ⟨h.choose, h.choose_spec.2⟩

/-- A wallet comes after the intents, the invoices and the orders. -/
theorem table_of_anyWallet {l : Row} (h : AnyWallet l) : l.table = 3 := by
  obtain ⟨id, rfl⟩ := h
  rfl

/-- The loaded instance of a wallet is read without a lock. -/
theorem reads_instanceOf {id : Id} {row : Wallet} : Reads (instanceOf id row) := fun _ => trivial

/-- A wallet that is looked up by its columns is read without a lock. -/
theorem reads_scalar {p : Wallet → Bool} : Reads (scalar p) := by
  refine .bind (Prog.requests_query _) fun x => ?_
  cases x with
  | none => trivial
  | some x => exact reads_instanceOf.bind fun _ => trivial

/-- `get_by_user` takes no lock. -/
theorem reads_getByUser {u : Id} : Reads (getByUser u) := reads_scalar

/-- `get_system` takes no lock. -/
theorem reads_getSystem {t : WalletType} : Reads (getSystem t) := by
  refine .bind reads_scalar fun x => ?_
  cases x <;> trivial

/-- The look for a known key takes no lock, by induction on the legs. -/
theorem reads_anyKeyExists : ∀ {legs : List Leg}, Reads (anyKeyExists legs)
  | [] => trivial
  | leg :: legs => by
    unfold anyKeyExists
    split
    · exact reads_anyKeyExists
    · refine .bind (Prog.requests_query _) fun b => ?_
      split_ifs
      · trivial
      · exact reads_anyKeyExists

/-- `reserve_funds` locks the wallet that it reserves from, and no other. -/
theorem asks_reserveFunds {id : Id} {amount : Decimal}
    {Q : Wallet × Wallet → Memory → List Row → Prop} (hfree : Free held id)
    (hQ : ∀ x m' held', Adds AnyWallet held held' → .wallet id ∈ held' → Q x m' held') :
    (reserveFunds refresh id amount).asks r.MayLock Q m held := by
  unfold reserveFunds
  simp only [Prog.asks_bind, Prog.asks_ofExcept]
  intro n _
  refine asks_lockWallets (by simpa using hfree) fun loaded m' held' ha hheld => ?_
  split
  · trivial
  · rename_i w hw
    simp only [Prog.asks_bind, Prog.asks_ofExcept, Prog.asks_require, Prog.asks_pure]
    exact fun _ _ _ _ _ => hQ _ _ _ (ha.mono fun _ => anyWallet_of_isWallet) (hheld id w hw)

/-- `hold_funds` locks one wallet. -/
theorem asks_holdFunds {id : Id} {amount : Decimal} {Q : Unit → Memory → List Row → Prop}
    (hfree : Free held id) (hQ : ∀ m' held', Adds AnyWallet held held' → Q () m' held') :
    (holdFunds refresh id amount).asks r.MayLock Q m held := by
  unfold holdFunds
  rw [Prog.asks_bind]
  refine asks_reserveFunds hfree fun x m' held' ha hid => asks_flushWallet hid fun m₂ held₂ ha₂ => ?_
  exact hQ _ _ (ha.trans (ha₂.mono fun _ h => h.elim))

/-- A hold under a condition locks one wallet or none. -/
theorem asks_holdWhen {id : Id} {amount : Decimal} {cond : Prop} [Decidable cond]
    {Q : Unit → Memory → List Row → Prop} (hfree : Free held id)
    (hQ : ∀ m' held', Adds AnyWallet held held' → Q () m' held') :
    ((holdFunds refresh id amount).when cond).asks r.MayLock Q m held := by
  rw [Prog.asks_when]
  exact ⟨fun _ => asks_holdFunds hfree hQ, fun _ => hQ _ _ .refl⟩

/-- `release_hold` locks one wallet. -/
theorem asks_releaseHold {id : Id} {amount : Decimal} {Q : Unit → Memory → List Row → Prop}
    (hfree : Free held id) (hQ : ∀ m' held', Adds AnyWallet held held' → Q () m' held') :
    (releaseHold refresh id amount).asks r.MayLock Q m held := by
  unfold releaseHold
  simp only [Prog.asks_bind, Prog.asks_ofExcept]
  intro n _
  refine asks_lockWallets (by simpa using hfree) fun loaded m' held' ha hheld => ?_
  split
  · trivial
  · rename_i w hw
    simp only [Prog.asks_bind, Prog.asks_ofExcept]
    intro k _
    refine asks_flushWallet (hheld id w hw) fun m₂ held₂ ha₂ => hQ _ _ (ha.trans ?_ |>.mono ?_)
    · exact ha₂.mono fun _ h => h.elim
    · exact fun _ => anyWallet_of_isWallet

/-- `post_group` locks the wallets of its legs. -/
theorem asks_postGroup {legs : List Leg} {Q : Bool → Memory → List Row → Prop} (hbelow : Below 3 held)
    (hQ : ∀ b m' held', Adds AnyWallet held held' →
      (b = true → ∀ id ∈ walletIds legs, .wallet id ∈ held') → Q b m' held') :
    (postGroup refresh legs c).asks r.MayLock Q m held := by
  unfold postGroup
  simp only [Prog.asks_bind, Prog.asks_ofExcept]
  intro _ _
  refine asks_reads reads_anyKeyExists fun b m₁ held₁ h₁ => ?_
  have hbelow₁ : Below 3 held₁ := hbelow.adds h₁ fun _ h => h.elim
  replace h₁ : Adds AnyWallet held held₁ := h₁.mono fun _ h => h.elim
  split_ifs
  · exact hQ _ _ _ h₁ fun h => absurd h Bool.false_ne_true
  rw [Prog.asks_bind]
  refine asks_lockWallets (fun id _ => free_of_below hbelow₁ id) fun loaded m₂ held₂ h₂ hheld => ?_
  replace h₂ := h₁.trans (h₂.mono fun _ => anyWallet_of_isWallet)
  rw [Prog.asks_bind, Prog.asks_ofExcept]
  rintro ⟨assigned, rows⟩ happ
  -- Every wallet of the legs was found, so the flush of the group takes none anew.
  have hfound : ∀ id ∈ walletIds legs, .wallet id ∈ held₂ := by
    intro id hid
    obtain ⟨leg, hleg, rfl⟩ := List.mem_map.mp hid
    obtain ⟨w, hw⟩ := Option.isSome_iff_exists.mp (applyLegs_found happ leg hleg)
    exact hheld _ w hw
  have hflush : ∀ l ∈ (legKeys legs).map Row.idempotency ++ (walletIds legs).map Row.wallet,
      l.watched = true → l ∈ held₂ := by
    intro l hl hw
    rcases List.mem_append.mp hl with hl | hl
    · obtain ⟨key, -, rfl⟩ := List.mem_map.mp hl
      cases hw
    · obtain ⟨id, hid, rfl⟩ := List.mem_map.mp hl
      exact hfound id hid
  refine ⟨fun l hl => ?_, ?_, fun e => ?_⟩
  · cases hw : l.watched with
    | true => exact .inl (hflush l hl hw)
    | false => exact .inr (mayLock_of_unwatched hw)
  · exact hQ _ _ _ (h₂.trans (.append hflush)) fun _ id hid => List.mem_append_right _ (hfound id hid)
  · dsimp only
    split
    · rw [Prog.asks_orm]
      refine asks_reads_bind reads_anyKeyExists fun b m₃ held₃ h₃ => ?_
      split_ifs
      · refine hQ _ _ _ ((h₂.trans (.append hflush)).trans (h₃.mono fun _ h => h.elim)) fun h => ?_
        exact absurd h Bool.false_ne_true
      · trivial
    · trivial

section Operations

variable {Q : Bool → Memory → List Row → Prop}

/-- `credit_topup` locks the wallets of its group, in order. -/
theorem asks_creditTopup {u i : Id} {amount : Decimal} (hbelow : Below 3 held)
    (hQ : ∀ b m' held', Adds AnyWallet held held' → Q b m' held') :
    (creditTopup refresh u amount i c).asks r.MayLock Q m held := by
  unfold creditTopup
  refine asks_reads_bind reads_getSystem fun x m₁ held₁ h₁ => ?_
  refine Prog.asks_ofExcept_bind fun _ _ => Prog.asks_ofExcept_bind fun _ _ => ?_
  refine asks_postGroup (hbelow.adds h₁ fun _ h => h.elim) fun b m₂ held₂ h₂ _ => ?_
  exact hQ _ _ _ ((h₁.mono fun _ h => h.elim).trans h₂)

/-- `release_escrow_on_completion` locks the wallets of its group, in order. -/
theorem asks_releaseEscrow {o i k : Id} {payout tax revenue : Decimal} (hbelow : Below 3 held)
    (hQ : ∀ b m' held', Adds AnyWallet held held' → Q b m' held') :
    (releaseEscrowOnCompletion refresh o i k payout tax revenue c).asks r.MayLock Q m held := by
  unfold releaseEscrowOnCompletion
  refine Prog.asks_ofExcept_bind fun _ _ => Prog.asks_ofExcept_bind fun _ _ => ?_
  refine Prog.asks_ofExcept_bind fun _ _ => Prog.asks_ofExcept_bind fun _ _ => ?_
  refine asks_reads_bind reads_getSystem fun x m₁ held₁ h₁ => ?_
  refine asks_reads_bind reads_getSystem fun y m₂ held₂ h₂ => ?_
  refine asks_reads_bind reads_getSystem fun z m₃ held₃ h₃ => ?_
  have h := (h₁.trans h₂).trans h₃
  refine asks_postGroup (hbelow.adds h fun _ h => h.elim) fun b m₄ held₄ h₄ _ => ?_
  exact hQ _ _ _ ((h.mono fun _ h => h.elim).trans h₄)

/-- The hold that a posting returns is that of a wallet of its legs. -/
theorem asks_postAndRelease {legs : List Leg} {id : Id} {amount : Decimal} (cond : Bool → Prop)
    [∀ b, Decidable (cond b)] (hbelow : Below 3 held) (hcond : ∀ b, cond b → b = true)
    (hid : cond true → id ∈ walletIds legs)
    (hQ : ∀ b m' held', Adds AnyWallet held held' → Q b m' held') :
    (do
      let posted ← postGroup refresh legs c
      (releaseHold refresh id amount).when (cond posted)
      return posted : Tx Bool).asks r.MayLock Q m held := by
  rw [Prog.asks_bind]
  refine asks_postGroup hbelow fun b m₁ held₁ h₁ hwallets => ?_
  rw [Prog.asks_bind, Prog.asks_when]
  refine ⟨fun hb => ?_, fun _ => hQ _ _ _ h₁⟩
  obtain rfl : b = true := hcond b hb
  refine asks_releaseHold (.inl (hwallets rfl id (hid hb))) fun m₂ held₂ h₂ => ?_
  exact hQ _ _ _ (h₁.trans h₂)

/-- `pay_withdrawal` locks the wallets of its group, in order; the hold is of a wallet that is held.
-/
theorem asks_payWithdrawal {k w : Id} {amount : Decimal} (hbelow : Below 3 held)
    (hQ : ∀ b m' held', Adds AnyWallet held held' → Q b m' held') :
    (payWithdrawal refresh k amount w c).asks r.MayLock Q m held := by
  unfold payWithdrawal
  refine Prog.asks_ofExcept_bind fun n _ => ?_
  refine asks_reads_bind reads_getSystem fun x m₁ held₁ h₁ => ?_
  refine asks_postAndRelease (fun posted => posted = true) (hbelow.adds h₁ fun _ h => h.elim)
    (fun _ h => h) (fun _ => ?_) fun b m₂ held₂ h₂ => hQ _ _ _ ((h₁.mono fun _ h => h.elim).trans h₂)
  simp [withdrawalLegs, walletIds]

/-- `fund_escrow_for_invoice` locks the wallets of its group, in order; the hold is of a wallet that
is held. -/
theorem asks_fundEscrow {u i o : Id} {x : Option Id} {was : Bool}
    {walletAmount gatewayAmount : Decimal} (hbelow : Below 3 held)
    (hQ : ∀ b m' held', Adds AnyWallet held held' → Q b m' held') :
    (fundEscrowForInvoice refresh u walletAmount gatewayAmount i o x was c).asks r.MayLock Q m
      held := by
  unfold fundEscrowForInvoice
  refine Prog.asks_ofExcept_bind fun a _ => Prog.asks_ofExcept_bind fun b _ => ?_
  refine Prog.asks_ofExcept_bind fun total _ => ?_
  refine asks_reads_bind reads_getSystem fun y m₁ held₁ h₁ => ?_
  refine asks_reads_bind reads_getSystem fun z m₂ held₂ h₂ => ?_
  have h := h₁.trans h₂
  refine asks_postAndRelease (fun posted => posted = true ∧ was = true ∧ 0 < a)
    (hbelow.adds h fun _ h => h.elim) (fun _ h => h.1) (fun hcond => ?_)
    fun _ m₃ held₃ h₃ => hQ _ _ _ ((h.mono fun _ h => h.elim).trans h₃)
  simp [fundingLegs, walletIds, fundingLeg, hcond.2.2]

end Operations

/-! ## Orders, invoices, payment intents and promos -/

/-- An early request may be made at any time. -/
theorem mayLock_of_early {l : Row} (h : outOfOrder r l = true) : r.MayLock m held l :=
  fun _ => .inl h

/-- The lock of an order, if the order may be locked, adds that row alone. -/
theorem asks_lockOrder {id : Id} {Q : Option Order → Memory → List Row → Prop}
    (hmay : r.MayLock m held (.order id)) (hnone : Q none m held)
    (hsome : ∀ o, Q (some o) m (.order id :: held)) :
    (OrderRepository.lock id).asks r.MayLock Q m held :=
  asks_lockFind (fun _ => .order id) hnone fun o => ⟨.inr hmay, hsome o⟩

/-- The lock of an invoice, if the invoice may be locked, adds that row alone. -/
theorem asks_lockInvoice {id : Id} {Q : Option Invoice → Memory → List Row → Prop}
    (hmay : r.MayLock m held (.invoice id)) (hnone : Q none m held)
    (hsome : ∀ i, Q (some i) m (.invoice id :: held)) :
    (InvoiceRepository.lock id).asks r.MayLock Q m held :=
  asks_lockFind (fun _ => .invoice id) hnone fun i => ⟨.inr hmay, hsome i⟩

/-- The flush of a row that is held. -/
theorem asks_flushOrder {now : Time} {id : Id} {l a : Order} {Q : Unit → Memory → List Row → Prop}
    (hheld : .order id ∈ held)
    (hQ : ∀ m' held', Adds (fun _ => False) held held' → Q () m' held') :
    (OrderRepository.flush now id l a).asks r.MayLock Q m held := by
  unfold OrderRepository.flush
  split_ifs
  · exact hQ _ _ .refl
  · refine asks_updateRow (fun l hl => .inl ?_) (hQ _ _ (.append fun l hl _ => ?_))
    all_goals
      rw [List.mem_singleton.mp hl]
      exact hheld

/-- The flush of an invoice that is held, or that the request locks out of order. -/
theorem asks_flushInvoice {id : Id} {l a : Invoice} {Q : Unit → Memory → List Row → Prop}
    (hmay : .invoice id ∈ held ∨ outOfOrder r (.invoice id) = true)
    (hQ : ∀ m' held', Adds (fun l => l.table = 1) held held' → Q () m' held') :
    (InvoiceRepository.flush id l a).asks r.MayLock Q m held := by
  unfold InvoiceRepository.flush
  split_ifs
  · exact hQ _ _ .refl
  · refine asks_updateRow (fun l hl => ?_) (hQ _ _ (.cons _ fun _ => rfl))
    rw [List.mem_singleton.mp hl]
    exact hmay.imp_right mayLock_of_early

/-- The flush of an intent that is held, or that the request locks out of order. -/
theorem asks_flushIntent {names : List Row} {id : Id} {l a : PaymentIntent}
    {Q : Unit → Memory → List Row → Prop} (hnames : ∀ l ∈ names, l.watched = false)
    (hmay : .intent id ∈ held ∨ outOfOrder r (.intent id) = true)
    (hQ : ∀ m' held', Adds (fun l => l.table = 0) held held' → Q () m' held') :
    (PaymentRepository.flush names id l a).asks r.MayLock Q m held := by
  unfold PaymentRepository.flush
  split_ifs
  · exact hQ _ _ .refl
  · refine asks_updateRow (fun l hl => ?_) (hQ _ _ ?_)
    · rcases List.mem_cons.mp hl with rfl | hl
      · exact hmay.imp_right mayLock_of_early
      · exact .inr (mayLock_of_unwatched (hnames l hl))
    · refine ⟨List.subset_append_right _ _, fun l hl hw => ?_⟩
      rcases List.mem_append.mp hl with hl | hl
      · rcases List.mem_cons.mp hl with rfl | hl
        · exact .inr rfl
        · rw [hnames l hl] at hw
          cases hw
      · exact .inl hl

/-- A redemption is in no watched table, so its `UPDATE` takes no watched lock. -/
theorem reads_setRedemptionStatus {id : Id} {x : PromoRedemption} {t : PromoRedemptionStatus}
    {now : Time} : Reads (PromoRepository.setRedemptionStatus id x t now) :=
  Prog.requests_flush (by simp [Row.watched])

/-- `consume` takes no watched lock. -/
theorem reads_consume {now : Time} {id : Id} : Reads (PromoService.consume now id) := by
  refine .bind (Prog.requests_query _) fun x => ?_
  cases x with
  | none => trivial
  | some x => exact Prog.requests_when reads_setRedemptionStatus

/-- The slot of a promo is given back by an `UPDATE` of the last of the tables. -/
theorem asks_atomicRelease {id : Id} {Q : Option ℤ → Memory → List Row → Prop}
    (hbelow : Below 4 held) (hQ : ∀ a m' held', held ⊆ held' → Q a m' held') :
    (PromoRepository.atomicRelease id).asks r.MayLock Q m held := by
  unfold PromoRepository.atomicRelease PromoRepository.updateCounter
  intro d
  refine ⟨fun ht => ?_, fun l hl => ?_⟩
  · have hnone : (d.promos.get? id).filter (fun p => decide (0 < p.usedCount)) = none :=
      Option.map_eq_none_iff.mp ht
    dsimp only
    rw [hnone]
    exact hQ _ _ _ (List.Subset.refl _)
  · obtain ⟨p, hp, rfl⟩ := Option.map_eq_some_iff.mp hl
    replace hp : (d.promos.get? id).filter (fun p => decide (0 < p.usedCount)) = some p := hp
    refine ⟨.inr (mayLock_of_below hbelow), ?_⟩
    dsimp only
    rw [hp, Prog.asks_bind]
    refine asks_updateRow (fun l hl => .inl ?_) (hQ _ _ _ ?_)
    · rw [List.mem_singleton.mp hl]
      exact List.mem_cons_self
    · exact List.subset_append_of_subset_right _ (List.subset_cons_self _ _)

/-- The promo is the last row in the order. -/
theorem asks_releasePromo {now : Time} {id : Id} {Q : Unit → Memory → List Row → Prop}
    (hbelow : Below 4 held) (hQ : ∀ m' held', held ⊆ held' → Q () m' held') :
    (PromoService.release now id).asks r.MayLock Q m held := by
  unfold PromoService.release
  refine asks_reads_bind (Prog.requests_query _) fun x m₁ held₁ h₁ => ?_
  split
  · exact hQ _ _ h₁.subset
  · rw [Prog.asks_when]
    refine ⟨fun _ => ?_, fun _ => hQ _ _ h₁.subset⟩
    refine asks_reads_bind reads_setRedemptionStatus fun _ m₂ held₂ h₂ => ?_
    have h := h₁.trans h₂
    rw [Prog.asks_bind]
    refine asks_atomicRelease (hbelow.adds h fun _ h => h.elim) fun _ m₃ held₃ h₃ => ?_
    exact hQ _ _ (List.Subset.trans h.subset h₃)

/-! ## The flows -/

section Flows

variable {s : Settings} {now : Time} {Q : Unit → Memory → List Row → Prop}

/-- The check of a transition takes no lock. -/
theorem asks_assertTransition {x y : OrderStatus} (hQ : Q () m held) :
    (OrderState.assertTransition x y).asks r.MayLock Q m held := by
  unfold OrderState.assertTransition
  rw [Prog.asks_require]
  exact fun _ => hQ

/-- The settlement of an invoice whose order is locked. -/
theorem asks_settleInvoiceRecord {i o : Id} {invoice : Invoice} {order : Order}
    {method : PaymentMethod} {walletAmount gatewayAmount : ℤ} (horder : .order o ∈ held)
    (hinvoice : .invoice i ∈ held ∨ outOfOrder r (.invoice i) = true)
    (hQ : ∀ m' held', held ⊆ held' → Q () m' held') :
    (PaymentService.settleInvoiceRecord now i invoice o order method walletAmount
      gatewayAmount).asks r.MayLock Q m held := by
  unfold PaymentService.settleInvoiceRecord
  refine Prog.asks_ofExcept_bind fun _ _ => Prog.asks_ofExcept_bind fun _ _ => ?_
  rw [Prog.asks_bind]
  refine asks_assertTransition ?_
  rw [Prog.asks_bind]
  refine asks_flushOrder horder fun m₁ held₁ h₁ => ?_
  rw [Prog.asks_bind]
  refine asks_flushInvoice (hinvoice.imp_left fun h => h₁.subset h) fun m₂ held₂ h₂ => ?_
  refine asks_reads reads_consume fun _ m₃ held₃ h₃ => hQ _ _ ?_
  exact List.Subset.trans h₁.subset (List.Subset.trans h₂.subset h₃.subset)

/-- Run alone, the transaction requests its locks as the request may. -/
def Ordered (r : Request) (p : Tx α) : Prop := ∀ m, p.asks r.MayLock (fun _ _ _ => True) m []

/-- `available_balance` takes no lock. -/
theorem reads_availableBalance {u : Id} : Reads (MoneyService.availableBalance u) := by
  refine .bind reads_getByUser fun x => ?_
  cases x with
  | none => trivial
  | some w => exact Prog.requests_ofExcept _

/-- A call of the gateway takes no lock. -/
theorem reads_createCheckout {gateway : PaymentService.Gateway} {k u : Id}
    {items : List PaymentService.StreamPayItem} :
    Reads (PaymentService.createCheckout gateway k u items) := by
  refine .bind (Prog.requests_query _) fun _ => .bind (Prog.requests_require _ _) fun _ => ?_
  exact Prog.requests_ofExcept _

/-- The row of a new top-up is in no watched table. -/
theorem reads_createTopupRow {k : Id} {topup : WalletTopup} :
    Reads (PaymentRepository.createTopup k topup) := Prog.requests_flush (by simp [Row.watched])

/-- The paid invoice is looked up without a lock. -/
theorem reads_paidInvoice {o : Id} : Reads (FulfillmentService.paidInvoice o) := by
  refine .bind (Prog.requests_query _) fun x => ?_
  split <;> trivial

/-- A withdrawal is in no watched table. -/
theorem reads_getForUpdate {k : Id} : Reads (WithdrawalRepository.getForUpdate k) := by
  refine fun d => ⟨fun l hl => ?_, trivial⟩
  obtain ⟨_, _, rfl⟩ := Option.map_eq_some_iff.mp hl
  rfl

/-- The `UPDATE` of a withdrawal takes no watched lock. -/
theorem reads_setStatus {k u : Id} {row : Withdrawal} {t : WithdrawalStatus} {x : Option Text} :
    Reads (WithdrawalRepository.setStatus k row t u x) :=
  Prog.requests_flush (by simp [Row.watched])

/-- The intent of a lapsed invoice is updated after its wallet. -/
theorem asks_expireIntent {invoice : Invoice} {x : Option (Id × PaymentIntent)}
    (hbelow : Below 3 held) (hearly : ∀ id, outOfOrder r (.intent id) = true)
    (hQ : ∀ m' held', held ⊆ held' → Below 4 held' → Q () m' held') :
    (Expiry.expireIntent refresh invoice x).asks r.MayLock Q m held := by
  unfold Expiry.expireIntent
  split
  · exact hQ _ _ (List.Subset.refl _) (hbelow.mono (by omega))
  rename_i intentId intent
  rw [Prog.asks_bind]
  -- The `UPDATE` of the intent comes out of order: it may have to wait.
  have hmark : ∀ m' held', held ⊆ held' → Below 4 held' →
      (PaymentRepository.markExpired intentId intent).asks r.MayLock Q m' held' := by
    intro m' held' h hb
    refine asks_flushIntent (by simp) (.inr (hearly intentId)) fun m₂ held₂ h₂ => ?_
    exact hQ _ _ (List.Subset.trans h h₂.subset) (hb.adds h₂ fun l hl => by omega)
  rw [Prog.asks_when]
  refine ⟨fun _ => ?_, fun _ => hmark _ _ (List.Subset.refl _) (hbelow.mono (by omega))⟩
  refine asks_reads_bind reads_getByUser fun y m₁ held₁ h₁ => ?_
  have hbelow₁ : Below 3 held₁ := hbelow.adds h₁ fun _ h => h.elim
  cases y with
  -- Without a wallet nothing is locked before it.
  | none => exact hmark _ _ h₁.subset (hbelow₁.mono (by omega))
  | some w =>
    refine asks_releaseHold (free_of_below hbelow₁ w.1) fun m₂ held₂ h₂ => ?_
    refine hmark _ _ (List.Subset.trans h₁.subset h₂.subset) ?_
    exact (hbelow₁.mono (by omega)).adds h₂ fun l hl => by rw [table_of_anyWallet hl]; omega

/-- The payment from the wallet settles the invoice, which is not held. -/
theorem asks_payFromWallet {input : PaymentService.PayInput} {i u walletId : Id} {invoice : Invoice}
    {order : Order} {total : ℤ} (horder : .order invoice.orderId ∈ held) (hbelow : Below 3 held) :
    (PaymentService.payFromWallet refresh now input i invoice order walletId total).asks
      (Request.payInvoice now input i u).MayLock (fun _ _ _ => True) m held := by
  unfold PaymentService.payFromWallet
  rw [Prog.asks_bind]
  refine asks_fundEscrow hbelow fun _ m₁ held₁ h₁ => ?_
  rw [Prog.asks_bind]
  exact asks_settleInvoiceRecord (h₁.subset horder) (.inr rfl) fun _ _ _ => trivial

/-- The payment through the gateway writes the invoice and its intent after the hold. -/
theorem asks_startGateway {input : PaymentService.PayInput} {i u walletId : Id} {invoice : Invoice}
    {walletAmount gatewayAmount : ℤ} (hbelow : Below 3 held) :
    (PaymentService.startGateway refresh s now input i invoice u walletId walletAmount
      gatewayAmount).asks (Request.payInvoice now input i u).MayLock (fun _ _ _ => True) m held := by
  have hintent : outOfOrder (.payInvoice now input i u) (.intent input.intentId) = true :=
    decide_eq_true rfl
  unfold PaymentService.startGateway
  rw [Prog.asks_bind]
  refine asks_holdWhen (free_of_below hbelow walletId) fun m₁ held₁ _ => ?_
  rw [Prog.asks_bind]
  refine asks_flushInvoice (.inr rfl) fun m₂ held₂ _ => ?_
  rw [Prog.asks_bind]
  refine asks_insertRow (fun l hl => ?_) ?_
  · obtain rfl := List.mem_singleton.mp hl
    exact .inr (mayLock_of_early hintent)
  · refine asks_reads_bind (Prog.requests_query _) fun items m₃ held₃ _ => ?_
    refine asks_reads_bind reads_createCheckout fun checkout m₄ held₄ _ => ?_
    rw [Prog.asks_bind]
    exact asks_flushIntent (by simp [Row.watched]) (.inr hintent) fun _ _ _ => trivial

/-- `pay_invoice` locks the order, and updates the invoice later. -/
theorem ordered_payInvoice {input : PaymentService.PayInput} {i u : Id} :
    Ordered (.payInvoice now input i u) (PaymentService.payInvoice refresh s now input i u) := by
  intro m
  unfold PaymentService.payInvoice
  refine asks_reads_bind (Prog.requests_query _) fun x m₁ held₁ h₁ => ?_
  cases x with
  | none => trivial
  | some invoice =>
    rw [Prog.asks_bind, InvoiceRepository.keep, Prog.asks_orm, Prog.asks_ret]
    refine Prog.asks_require_bind fun _ => Prog.asks_require_bind fun _ => ?_
    -- Nothing is locked yet, so the order's row may be.
    have hbelow₁ : Below 2 held₁ := Below.nil.adds h₁ fun _ h => h.elim
    rw [Prog.asks_bind]
    refine asks_lockOrder (mayLock_of_below hbelow₁) trivial fun order => ?_
    have hbelow : Below 3 (.order invoice.orderId :: held₁) :=
      (hbelow₁.mono (by omega)).cons (Nat.lt_succ_self 2)
    refine Prog.asks_require_bind fun _ => ?_
    refine asks_reads_bind reads_getByUser fun y m₂ held₂ h₂ => ?_
    cases y with
    | none => trivial
    | some w =>
      refine Prog.asks_ofExcept_bind fun total _ => ?_
      refine asks_reads_bind reads_availableBalance fun available m₃ held₃ h₃ => ?_
      refine Prog.asks_ofExcept_bind fun gatewayAmount _ => ?_
      have h := h₂.trans h₃
      -- The wallet is only read here: the order is still the highest lock.
      have hbelow₃ : Below 3 held₃ := hbelow.adds h fun _ h => h.elim
      split_ifs
      · -- The wallet pays all of it.
        exact asks_payFromWallet (h.subset List.mem_cons_self) hbelow₃
      · unfold PaymentService.payThroughGateway
        refine asks_reads_bind (Prog.requests_query _) fun existing m₄ held₄ h₄ => ?_
        split
        · trivial
        · exact asks_startGateway (hbelow₃.adds h₄ fun _ h => h.elim)

/-- The settlement of an invoice by a webhook: the invoice, its order, the wallets. -/
theorem asks_settleInvoice {intentId : Id} {intent : PaymentIntent} (hbelow : Below 1 held)
    (hQ : ∀ m' held', held ⊆ held' → Q () m' held') :
    (PaymentService.settleInvoice refresh now c intentId intent).asks r.MayLock Q m held := by
  unfold PaymentService.settleInvoice
  split
  · trivial
  rename_i i _
  rw [Prog.asks_bind]
  -- The invoice's lock follows the intent's.
  refine asks_lockInvoice (mayLock_of_below hbelow) trivial fun invoice => ?_
  dsimp only
  have h₁ : held ⊆ .invoice i :: held := List.subset_cons_self _ _
  have hbelow₁ : Below 2 (.invoice i :: held) := (hbelow.mono (by omega)).cons (Nat.lt_succ_self 1)
  split_ifs
  · -- An invoice that was paid already is left alone.
    exact hQ _ _ h₁
  rw [Prog.asks_bind]
  refine asks_lockOrder (mayLock_of_below hbelow₁) trivial fun order => ?_
  have h₂ : held ⊆ .order invoice.orderId :: .invoice i :: held := List.subset_cons_of_subset _ h₁
  have hbelow₂ : Below 3 (.order invoice.orderId :: .invoice i :: held) :=
    (hbelow₁.mono (by omega)).cons (Nat.lt_succ_self 2)
  refine asks_reads_bind reads_getByUser fun x m₃ held₃ h₃ => ?_
  cases x with
  | none => trivial
  | some w =>
    rw [Prog.asks_bind]
    -- The wallets are locked last.
    refine asks_fundEscrow (hbelow₂.adds h₃ fun _ h => h.elim) fun _ m₄ held₄ h₄ => ?_
    have h := List.Subset.trans h₃.subset h₄.subset
    refine asks_settleInvoiceRecord (h List.mem_cons_self)
      (.inl (h (List.mem_cons_of_mem _ List.mem_cons_self))) fun m₅ held₅ h₅ => hQ _ _ ?_
    exact List.Subset.trans h₂ (List.Subset.trans h h₅)

/-- The settlement of an intent that is held asks for the invoice, the order and the wallets, in
this order. -/
theorem asks_settleIntent {intentId : Id} {intent : PaymentIntent} (hbelow : Below 1 held)
    (hQ : ∀ m' held', held ⊆ held' → Q () m' held') :
    (PaymentService.settleIntent refresh now c intentId intent).asks r.MayLock Q m held := by
  unfold PaymentService.settleIntent
  split
  · unfold PaymentService.settleTopup
    refine asks_reads_bind reads_getByUser fun x m₁ held₁ h₁ => ?_
    cases x with
    | none => trivial
    | some w =>
      rw [Prog.asks_bind]
      refine asks_creditTopup ((hbelow.mono (by omega)).adds h₁ fun _ h => h.elim)
        fun _ m₂ held₂ h₂ => hQ _ _ ?_
      exact List.Subset.trans h₁.subset h₂.subset
  · exact asks_settleInvoice hbelow hQ

/-- `handle_webhook` goes through the tables in their order. -/
theorem ordered_handleWebhook {verified lockGranted : Bool}
    {event : Except Err PaymentService.WebhookEvent} :
    Ordered (.handleWebhook now verified lockGranted c event)
      (PaymentService.handleWebhook refresh now verified lockGranted c event) := by
  intro m
  unfold PaymentService.handleWebhook
  refine Prog.asks_require_bind fun _ => Prog.asks_ofExcept_bind fun event _ => ?_
  refine Prog.asks_require_bind fun _ => ?_
  unfold PaymentService.settleLocked
  rw [Prog.asks_bind]
  -- The intent is the first lock.
  refine asks_lockFind (fun x : Id × PaymentIntent => .intent x.1) trivial
    fun x => ⟨.inr (mayLock_of_below Below.nil), ?_⟩
  obtain ⟨intentId, intent⟩ := x
  have hbelow : Below 1 [.intent intentId] := Below.nil.cons (Nat.lt_succ_self 0)
  dsimp only
  split_ifs
  · trivial
  · rw [Prog.asks_bind]
    exact asks_flushIntent (by simp) (.inl List.mem_cons_self) fun _ _ _ => trivial
  · refine Prog.asks_ofExcept_bind fun _ _ => Prog.asks_ofExcept_bind fun _ _ => ?_
    refine Prog.asks_require_bind fun _ => ?_
    rw [Prog.asks_bind]
    -- The settlement goes on from there, and the intent's own row is locked already.
    refine asks_settleIntent hbelow fun m₁ held₁ h₁ => ?_
    rw [Prog.asks_bind]
    exact asks_flushIntent (by simp) (.inl (h₁ List.mem_cons_self)) fun _ _ _ => trivial

/-- `cancel_invoice`: the invoice, its order, the promo. -/
theorem ordered_cancelInvoice {i k : Id} :
    Ordered (.cancelInvoice now i k) (InvoiceService.cancelInvoice now i k) := by
  intro m
  unfold InvoiceService.cancelInvoice
  rw [Prog.asks_bind]
  refine asks_lockFind (fun _ => .invoice i) trivial
    fun invoice => ⟨.inr (mayLock_of_below Below.nil), ?_⟩
  -- The invoice comes before its order.
  have hbelow₁ : Below 2 [.invoice i] := Below.nil.cons (by simp [Row.table])
  refine Prog.asks_require_bind fun _ => ?_
  rw [Prog.asks_bind]
  refine asks_lockOrder (mayLock_of_below hbelow₁) trivial fun order => ?_
  -- Both come before the promo.
  have hbelow₂ : Below 4 [.order invoice.orderId, .invoice i] :=
    (hbelow₁.mono (by omega)).cons (by simp [Row.table])
  dsimp only
  rw [Prog.asks_bind]
  refine asks_releasePromo hbelow₂ fun m₁ held₁ h₁ => ?_
  rw [Prog.asks_bind]
  refine asks_assertTransition ?_
  rw [Prog.asks_bind]
  refine asks_flushOrder (h₁ List.mem_cons_self) fun m₂ held₂ h₂ => ?_
  refine asks_flushInvoice (.inl (h₂.subset (h₁ ?_))) fun _ _ _ => trivial
  exact List.mem_cons_of_mem _ List.mem_cons_self

/-- `_expire_invoice` locks the invoice, and updates the intent and locks the order later. -/
theorem ordered_expireInvoice {i : Id} :
    Ordered (.expireInvoice now i) (Expiry.expireInvoice refresh now i) := by
  intro m
  unfold Expiry.expireInvoice
  rw [Prog.asks_bind]
  refine asks_lockInvoice (mayLock_of_below Below.nil) trivial fun invoice => ?_
  have hbelow : Below 3 [.invoice i] := Below.nil.cons (by simp [Row.table])
  dsimp only
  split_ifs
  · trivial
  refine asks_reads_bind (Prog.requests_query _) fun intent m₁ held₁ h₁ => ?_
  rw [Prog.asks_bind]
  -- The intent is updated while the invoice is locked, which inverts the order of the webhook.
  refine asks_expireIntent (hbelow.adds h₁ fun _ h => h.elim) (fun _ => rfl)
    fun m₂ held₂ h₂ hbelow₂ => ?_
  rw [Prog.asks_bind]
  refine asks_releasePromo hbelow₂ fun m₃ held₃ h₃ => ?_
  have h : [.invoice i] ⊆ held₃ := List.Subset.trans h₁.subset (List.Subset.trans h₂ h₃)
  rw [Prog.asks_bind]
  refine asks_flushInvoice (.inl (h List.mem_cons_self)) fun m₄ held₄ h₄ => ?_
  rw [Prog.asks_bind]
  -- The order is locked after its wallet: the second statement that is out of order.
  refine asks_lockOrder (mayLock_of_early rfl) trivial fun order => ?_
  dsimp only
  rw [Prog.asks_bind, Prog.asks_when]
  refine ⟨fun _ => ?_, fun _ => trivial⟩
  rw [Prog.asks_bind]
  exact asks_assertTransition (asks_flushOrder List.mem_cons_self fun _ _ _ => trivial)

/-- `_expire_topup_intent` locks one row. -/
theorem ordered_expireTopupIntent {intentId : Id} :
    Ordered (.expireTopupIntent intentId) (Expiry.expireTopupIntent intentId) := by
  intro m
  unfold Expiry.expireTopupIntent
  rw [Prog.asks_bind]
  refine asks_lockFind (fun _ => .intent intentId) trivial
    fun intent => ⟨.inr (mayLock_of_below Below.nil), ?_⟩
  dsimp only
  split_ifs
  · trivial
  · rw [Prog.asks_bind]
    exact asks_flushIntent (by simp) (.inl List.mem_cons_self) fun _ _ _ => trivial

/-- `create_topup` inserts the intent before it requests another watched row. -/
theorem ordered_createTopup {gateway : PaymentService.Gateway} {intentId topupId u : Id}
    {amount : Decimal} :
    Ordered (.createTopup now gateway intentId topupId u amount)
      (PaymentService.createTopup s now gateway intentId topupId u amount) := by
  intro m
  unfold PaymentService.createTopup
  refine Prog.asks_ofExcept_bind fun _ _ => Prog.asks_require_bind fun _ => ?_
  refine asks_reads_bind reads_getByUser fun x m₁ held₁ h₁ => ?_
  -- The wallet is read without a lock, so nothing is held yet.
  have hbelow : Below 0 held₁ := Below.nil.adds h₁ fun _ h => h.elim
  cases x with
  | none => trivial
  | some w =>
    rw [Prog.asks_bind]
    refine asks_insertRow (fun l hl => ?_) ?_
    · obtain rfl := List.mem_singleton.mp hl
      exact .inr (mayLock_of_below hbelow)
    refine asks_reads_bind reads_createTopupRow fun _ m₂ held₂ h₂ => ?_
    refine asks_reads_bind reads_createCheckout fun checkout m₃ held₃ h₃ => ?_
    rw [Prog.asks_bind]
    refine asks_flushIntent (by simp [Row.watched]) (.inl ?_) fun _ _ _ => trivial
    exact h₃.subset (h₂.subset List.mem_cons_self)

/-- The payout of an order that is locked. -/
theorem asks_completeAndRelease {o : Id} {order : Order} (horder : .order o ∈ held)
    (hbelow : Below 3 held) :
    (FulfillmentService.completeAndRelease refresh s now c o order).asks r.MayLock
      (fun _ _ _ => True) m held := by
  unfold FulfillmentService.completeAndRelease
  rw [Prog.asks_bind]
  refine asks_assertTransition ?_
  refine asks_reads_bind reads_paidInvoice fun x m₁ held₁ h₁ => ?_
  dsimp only
  split
  · trivial
  refine asks_reads_bind reads_getByUser fun y m₂ held₂ h₂ => ?_
  cases y with
  | none => trivial
  | some w =>
    have h := h₁.trans h₂
    refine Prog.asks_ofExcept_bind fun settlement _ => ?_
    rw [Prog.asks_bind]
    refine asks_releaseEscrow (hbelow.adds h fun _ h => h.elim) fun _ m₃ held₃ h₃ => ?_
    exact asks_flushOrder (h₃.subset (h.subset horder)) fun _ _ _ => trivial

/-- `approve_order` locks the order, and then wallets. -/
theorem ordered_approveOrder {o u : Id} :
    Ordered (.approveOrder now c o u) (FulfillmentService.approveOrder refresh s now c o u) := by
  intro m
  unfold FulfillmentService.approveOrder FulfillmentService.lockForActor
  rw [Prog.asks_bind]
  refine asks_reads_bind (Prog.requests_query _) fun x m₁ held₁ h₁ => ?_
  have hbelow : Below 2 held₁ := Below.nil.adds h₁ fun _ h => h.elim
  refine Prog.asks_require_bind fun _ => ?_
  rw [Prog.asks_bind]
  refine asks_lockOrder (mayLock_of_below hbelow) trivial fun order => ?_
  exact asks_completeAndRelease List.mem_cons_self
    ((hbelow.mono (by omega)).cons (Nat.lt_succ_self 2))

/-- The automatic approval locks the order, and then wallets. -/
theorem ordered_autoApprove {o : Id} :
    Ordered (.autoApprove now c o) (FulfillmentService.autoApprove refresh s now c o) := by
  intro m
  unfold FulfillmentService.autoApprove
  rw [Prog.asks_bind]
  refine asks_lockOrder (mayLock_of_below Below.nil) trivial fun order => ?_
  dsimp only
  split_ifs
  · trivial
  · rw [Prog.asks_bind]
    refine Prog.asks_mono (fun _ _ _ _ => trivial) (asks_completeAndRelease List.mem_cons_self ?_)
    exact Below.nil.cons (Nat.lt_succ_self 2)

/-- A withdrawal request locks its wallet only. -/
theorem ordered_requestWithdrawal {k u : Id} {amount : Decimal} {key : Text} :
    Ordered (.requestWithdrawal k u amount key)
      (WithdrawalService.requestWithdrawal refresh s k u amount key) := by
  intro m
  unfold WithdrawalService.requestWithdrawal
  refine asks_reads_bind (Prog.requests_query _) fun x m₁ held₁ h₁ => ?_
  have hbelow₁ : Below 3 held₁ := Below.nil.adds h₁ fun _ h => h.elim
  cases x with
  | some x => trivial
  | none =>
    refine Prog.asks_ofExcept_bind fun _ _ => Prog.asks_require_bind fun _ => ?_
    refine asks_reads_bind reads_getByUser fun y m₂ held₂ h₂ => ?_
    cases y with
    | none => trivial
    | some w =>
      have hbelow₂ : Below 3 held₂ := hbelow₁.adds h₂ fun _ h => h.elim
      rw [Prog.asks_bind]
      -- The wallet is locked for the hold, and the row's insert comes after.
      refine asks_reserveFunds (free_of_below hbelow₂ w.1) fun x m₃ held₃ h₃ hwallet => ?_
      refine ⟨fun l hl => ?_, trivial, fun e => ?_⟩
      · -- The insert locks the wallet's row, which is held, and two keys that no other request
        -- waits for.
        simp only [List.mem_cons, List.not_mem_nil, or_false] at hl
        rcases hl with rfl | rfl | rfl
        · exact .inl hwallet
        · exact .inr (mayLock_of_unwatched rfl)
        · exact .inr (mayLock_of_unwatched rfl)
      · dsimp only
        -- A lost insert is answered by the row that won it, which is a read.
        split
        · rw [Prog.asks_orm]
          refine asks_reads_bind (Prog.requests_query _) fun x m₄ held₄ _ => ?_
          cases x <;> trivial
        · trivial

/-- The row of the withdrawal is locked first. -/
theorem asks_getLocked {k : Id} {Q : Withdrawal → Memory → List Row → Prop}
    (hQ : ∀ row m' held', Below 0 held' → Q row m' held') :
    (WithdrawalService.getLocked k).asks r.MayLock Q m [] := by
  unfold WithdrawalService.getLocked
  refine asks_reads_bind reads_getForUpdate fun x m₁ held₁ h₁ => ?_
  cases x with
  | none => trivial
  | some row => exact hQ _ _ _ (Below.nil.adds h₁ fun _ h => h.elim)

/-- The approval of a withdrawal locks no watched row. -/
theorem ordered_approve {k u : Id} :
    Ordered (.approveWithdrawal k u) (WithdrawalService.approve k u) := by
  intro m
  unfold WithdrawalService.approve
  rw [Prog.asks_bind]
  refine asks_getLocked fun row m₁ held₁ _ => ?_
  split_ifs
  · trivial
  · refine Prog.asks_require_bind fun _ => ?_
    exact asks_reads reads_setStatus fun _ _ _ _ => trivial

/-- The rejection of a withdrawal locks one wallet. -/
theorem ordered_reject {k u : Id} {reason : Text} :
    Ordered (.rejectWithdrawal k u reason) (WithdrawalService.reject refresh k u reason) := by
  intro m
  unfold WithdrawalService.reject
  rw [Prog.asks_bind]
  refine asks_getLocked fun row m₁ held₁ hbelow => ?_
  split_ifs
  · trivial
  · refine Prog.asks_require_bind fun _ => ?_
    rw [Prog.asks_bind]
    refine asks_releaseHold (free_of_below (hbelow.mono (by omega)) _) fun m₂ held₂ _ => ?_
    exact asks_reads reads_setStatus fun _ _ _ _ => trivial

/-- `mark_paid` locks the wallets of its group. -/
theorem ordered_markPaid {k u : Id} :
    Ordered (.markPaid c k u) (WithdrawalService.markPaid refresh c k u) := by
  intro m
  unfold WithdrawalService.markPaid
  rw [Prog.asks_bind]
  refine asks_getLocked fun row m₁ held₁ hbelow => ?_
  split_ifs
  · trivial
  · refine Prog.asks_require_bind fun _ => ?_
    rw [Prog.asks_bind]
    refine asks_payWithdrawal (hbelow.mono (by omega)) fun _ m₂ held₂ _ => ?_
    refine Prog.asks_require_bind fun _ => ?_
    exact asks_reads reads_setStatus fun _ _ _ _ => trivial

end Flows

/-- A program whose result is dropped locks the same rows. -/
theorem Ordered.void {p : Tx α} (h : Ordered r p) : Ordered r p.void := by
  intro m
  unfold Prog.void
  rw [Prog.asks_bind]
  exact h m

end LockProof

/-! ## Deadlocks -/

/-- The payment flows. -/
def Request.inPaymentFlows : Request → Bool
  | .cancelInvoice _ _ _ | .createTopup _ _ _ _ _ _ | .payInvoice _ _ _ _ | .handleWebhook _ _ _ _ _
  | .expireInvoice _ _ | .expireTopupIntent _ | .approveOrder _ _ _ _ | .autoApprove _ _ _
  | .requestWithdrawal _ _ _ _ | .approveWithdrawal _ _ | .rejectWithdrawal _ _ _ | .markPaid _ _ _ =>
    true
  | _ => false

/-- The transactions of the payment flows, tagged with their requests. -/
def PaymentFlow (refresh : Bool) (s : Settings) (p : Prog Db Row Err (Memory × List Request) Unit) :
    Prop :=
  ∃ r : Request, r.inPaymentFlows = true ∧ p = (r.tx refresh s).tagged r

/-- The rows that a tagged transaction locks out of order. -/
def early (m : Memory × List Request) (l : Row) : Bool := m.2.any fun r => outOfOrder r l

/-- No transaction that waits at a statement that locks out of order waits there for one that waits in
turn. -/
def unhindered (sys : System Db Row Err (Memory × List Request) Unit) : Bool :=
  (List.range sys.slots.length).all fun i => (List.range sys.slots.length).all fun j =>
    !sys.waitsFor early i j ||
      (List.range sys.slots.length).all fun k => !sys.waitsFor (System.onLock Row.watched) j k

open LockProof in
/-- Each payment flow requests its locks in the order, apart from the out of order ones. -/
theorem ordered_tx {refresh : Bool} {s : Settings} {r : Request} (h : r.inPaymentFlows = true) :
    Ordered r (r.tx refresh s) := by
  cases r with
  | cancelInvoice => exact ordered_cancelInvoice
  | createTopup => exact ordered_createTopup.void
  | payInvoice => exact ordered_payInvoice.void
  | handleWebhook => exact ordered_handleWebhook.void
  | expireInvoice => exact ordered_expireInvoice.void
  | expireTopupIntent => exact ordered_expireTopupIntent.void
  | approveOrder => exact ordered_approveOrder
  | autoApprove => exact ordered_autoApprove.void
  | requestWithdrawal => exact ordered_requestWithdrawal.void
  | approveWithdrawal => exact ordered_approve
  | rejectWithdrawal => exact ordered_reject
  | markPaid => exact ordered_markPaid
  | _ => cases h

/-- Every request of the payment flows locks in order, apart from the statements that are early. -/
theorem asks_of_paymentFlow {refresh : Bool} {s : Settings}
    {p : Prog Db Row Err (Memory × List Request) Unit} (h : PaymentFlow refresh s p) :
    p.asks (System.Ascending Row.watched Row.rank early) (fun _ _ _ => True) (.empty, []) [] := by
  obtain ⟨r, hflow, rfl⟩ := h
  unfold Prog.tagged
  rw [Prog.asks_orm]
  have hasks : (r.tx refresh s).asks
      (fun m => System.Ascending Row.watched Row.rank early (m, [r])) (fun _ _ _ => True) .empty [] :=
    Prog.asks_imp
      (fun m held l hmay hw => (hmay hw).imp_left fun hearly => by simpa [early] using hearly)
      (ordered_tx hflow .empty)
  exact Prog.asks_mono (fun _ _ _ _ => trivial) (Prog.asks_silent hasks)

/-- In an unhindered system, what waits at an early statement does not wait for one that waits for a
lock. -/
theorem not_waitsFor_of_unhindered {sys : System Db Row Err (Memory × List Request) Unit}
    (h : unhindered sys = true) (i j k : ℕ) (hij : sys.waitsFor early i j = true) :
    sys.waitsFor (System.onLock Row.watched) j k = false := by
  by_contra hjk
  rw [Bool.not_eq_false] at hjk
  obtain ⟨hi, hj⟩ := System.lt_length_of_waitsFor hij
  obtain ⟨-, hk⟩ := System.lt_length_of_waitsFor hjk
  unfold unhindered at h
  simp only [List.all_eq_true, List.mem_range, Bool.or_eq_true, Bool.not_eq_eq_eq_not,
    Bool.not_true] at h
  rcases h i hi j hj with h | h
  · rw [hij] at h
    cases h
  · have hnot := h k hk
    rw [hjk] at hnot
    cases hnot

/-- In every state of every run of the payment flows in which no transaction waits out of order for one
that waits in turn, no transactions wait in a cycle. -/
theorem no_deadlock (refresh : Bool) (s : Settings) (d₀ : Db)
    (sys : System Db Row Err (Memory × List Request) Unit)
    (h : System.Run (PaymentFlow refresh s) (System.always Db Row (Memory × List Request))
      (.empty, []) d₀ sys)
    (hun : unhindered sys = true) : ¬sys.Cycle Row.watched :=
  System.not_cycle_of_run (fun _ => asks_of_paymentFlow) h (not_waitsFor_of_unhindered hun)

namespace Sample

/-- A payment of the issued invoice that the wallet does not cover. -/
def paying : Request := .payInvoice 0 ⟨801, 901, gateway⟩ 601 1

/-- A cancellation of the invoice by its courier. -/
def cancelling : Request := .cancelInvoice 0 601 2

/-- The transaction of a request in a run of payment flows. -/
def flow (r : Request) : Prog Db Row Err (Memory × List Request) Unit := (r.tx false settings).tagged r

/-- An order that waits for the payment of its invoice. -/
def unpaid : Db := ordered (wallets 0 0 0) (order .waitingPayment) (invoice .issued 0 0)

/-- Some statements of the payment, and then the first ones of the cancellation. -/
def payAndCancel (n : ℕ) : List (System.Event Db Row Err (Memory × List Request) Unit) :=
  [.start (flow paying), .start (flow cancelling)] ++ List.replicate n (.step 0) ++
    List.replicate 2 (.step 1)

/-- The transactions of the example are of the payment flows. -/
theorem paymentFlow_of_payAndCancel {n : ℕ} (p : Prog Db Row Err (Memory × List Request) Unit)
    (h : System.Event.start p ∈ payAndCancel n) : PaymentFlow false settings p := by
  simp only [payAndCancel, List.mem_append, List.mem_cons, List.mem_replicate,
    System.Event.start.injEq, List.not_mem_nil, reduceCtorEq, and_false, or_false] at h
  rcases h with rfl | rfl
  · exact ⟨paying, rfl, rfl⟩
  · exact ⟨cancelling, rfl, rfl⟩

end Sample

/-- The payment has locked the order, and the cancellation has locked the invoice and waits for the
order. The payment can still go on. -/
theorem no_deadlock_payment :
    ∃ sys : System Db Row Err (Memory × List Request) Unit,
      System.Run (PaymentFlow false Sample.settings)
        (System.always Db Row (Memory × List Request)) (.empty, []) Sample.unpaid sys ∧
      sys.waitsFor (System.onLock Row.watched) 1 0 = true ∧ ¬sys.Cycle Row.watched := by
  obtain ⟨sys, hrun, hq⟩ := System.Run.exists_of_play (PaymentFlow false Sample.settings)
    (System.always Db Row (Memory × List Request)) (.empty, []) Sample.unpaid (Sample.payAndCancel 8)
    (fun sys => sys.waitsFor (System.onLock Row.watched) 1 0 && unhindered sys)
    Sample.paymentFlow_of_payAndCancel (by decide +kernel)
  rw [Bool.and_eq_true] at hq
  exact ⟨sys, hrun, hq.1, no_deadlock false Sample.settings Sample.unpaid sys hrun hq.2⟩

/-- The payment has locked the order, and waits for the invoice to update it. The cancellation has
locked the invoice, and waits for the order. -/
theorem payment_deadlocks_with_cancellation :
    ∃ sys : System Db Row Err (Memory × List Request) Unit,
      System.Run (PaymentFlow false Sample.settings)
        (System.always Db Row (Memory × List Request)) (.empty, []) Sample.unpaid sys ∧
      sys.Cycle Row.watched := by
  obtain ⟨sys, hrun, hq⟩ := System.Run.exists_of_play (PaymentFlow false Sample.settings)
    (System.always Db Row (Memory × List Request)) (.empty, []) Sample.unpaid (Sample.payAndCancel 9)
    (fun sys => sys.waitsFor (System.onLock Row.watched) 0 1 &&
      sys.waitsFor (System.onLock Row.watched) 1 0)
    Sample.paymentFlow_of_payAndCancel (by decide +kernel)
  rw [Bool.and_eq_true] at hq
  exact ⟨sys, hrun, 0, .tail (.single hq.1) hq.2⟩

end Giftly
