import Giftly.Frames
import Giftly.Seed
import Giftly.Store.Watch

/-!
# Reconciliation against live traffic

`MoneyService.reconcile` with the aggregates of `wallet_repository.py` that it reads. It compares the
wallets as its first statement sees them with the sums of their settled rows as its second statement
sees them, and in between other transactions commit. `reconcile_ok_iff` says what it reports when the
books are in order in every committed state: all is well exactly when the rows that were committed
between the two statements add up to zero on each of the wallets.
-/

namespace Giftly

open Store (Prog Slot System)

/-! ## The reads -/

namespace WalletRepository

/-- `all_wallets`, in a session that holds none yet. -/
def allWallets : Tx (List (Id × Wallet)) := Prog.query fun d => d.wallets.rows

/-- The settled rows. -/
def settledRows (d : Db) : List Transaction := d.transactions.filter fun t => t.status = .settled

/-- The sums of the amounts of rows in the groups of a key. -/
def groupSums (key : Transaction → Id) (ts : List Transaction) : List (Id × ℤ) :=
  (ts.map key).dedup.map fun k => (k, ((ts.filter fun t => key t = k).map (·.amount)).sum)

/-- `settled_sums_by_wallet`. -/
def settledSumsByWallet : Tx (List (Id × ℤ)) :=
  Prog.query fun d => groupSums (·.walletId) (settledRows d)

/-- `correlation_drift_sums`: only the groups whose sum is not zero. -/
def correlationDriftSums : Tx (List (Id × ℤ)) :=
  Prog.query fun d => (groupSums (·.correlationId) (settledRows d)).filter fun g => g.2 ≠ 0

/-- `correlation_count`. -/
def correlationCount : Tx ℕ :=
  Prog.query fun d => ((settledRows d).map (·.correlationId)).dedup.length

end WalletRepository

namespace MoneyService

/-- A line of the report. -/
inductive Drift
  /-- `wallet <id> balance <balance> != settled sum <settled>` -/
  | wallet (id : Id) (balance settled : ℤ)
  /-- `correlation <id> settled sum <total> != 0.00` -/
  | correlation (id : Id) (total : ℤ)
  deriving DecidableEq

/-- `ReconcileReport`. -/
structure ReconcileReport where
  walletsChecked : ℕ
  correlationsChecked : ℕ
  drifts : List Drift
  deriving DecidableEq

/-- `ok`. -/
def ReconcileReport.ok (r : ReconcileReport) : Bool := r.drifts.isEmpty

/-- The loop of `reconcile` over the wallets. -/
def walletDrifts (settledSums : List (Id × ℤ)) : List (Id × Wallet) → Except Err (List Drift)
  | [] => .ok []
  | (id, w) :: ws => do
    let settled := (settledSums.lookup id).getD 0
    let drift := (← quantizeMoney (money settled)) ≠ (← quantizeMoney (money w.balance))
    let drifts ← walletDrifts settledSums ws
    return if drift then .wallet id w.balance settled :: drifts else drifts

/-- `reconcile`. -/
def reconcile : Tx ReconcileReport := do
  let wallets ← WalletRepository.allWallets
  let settledSums ← WalletRepository.settledSumsByWallet
  let drifts ← Prog.ofExcept (walletDrifts settledSums wallets)
  let driftSums ← WalletRepository.correlationDriftSums
  let correlationsChecked ← WalletRepository.correlationCount
  return { walletsChecked := wallets.length
           correlationsChecked
           drifts := drifts ++ driftSums.map fun g => .correlation g.1 g.2 }

end MoneyService

open WalletRepository MoneyService

/-! ## What the aggregates are -/

/-- A group's sum is the sum over all rows of the amounts in the group. -/
theorem sum_group (key : Transaction → Id) (k : Id) (ts : List Transaction) :
    ((ts.filter fun t => key t = k).map (·.amount)).sum =
      (ts.map fun t => if key t = k then t.amount else 0).sum := by
  induction ts with
  | nil => rfl
  | cons t ts ih =>
    by_cases ht : key t = k
    · simp [ht, ih]
    · simp [ht, ih]

/-- A key without rows has no group, and the sum of its rows is zero. -/
theorem lookup_groupSums (key : Transaction → Id) (k : Id) (ts : List Transaction) :
    ((groupSums key ts).lookup k).getD 0 =
      (ts.map fun t => if key t = k then t.amount else 0).sum := by
  rw [← sum_group]
  unfold groupSums
  -- By induction on the keys: the first entry of a key is its sum.
  have hlookup : ∀ (f : Id → ℤ) (ks : List Id),
      ((ks.map fun k => (k, f k)).lookup k).getD 0 = if k ∈ ks then f k else 0 := by
    intro f ks
    induction ks with
    | nil => rfl
    | cons j ks ih =>
      by_cases hj : k = j
      · subst hj
        simp
      · have hb : (k == j) = false := beq_eq_false_iff_ne.mpr hj
        simp only [List.map_cons, List.lookup_cons, hb, List.mem_cons, hj, false_or]
        exact ih
  rw [hlookup]
  split_ifs with hk
  · rfl
  · -- no row has the key
    have hnil : (ts.filter fun t => key t = k) = [] := by
      rw [List.filter_eq_nil_iff]
      intro t ht hkey
      rw [List.mem_dedup] at hk
      exact hk (List.mem_map.mpr ⟨t, ht, of_decide_eq_true hkey⟩)
    rw [hnil]
    rfl

/-- The sum over the settled rows of a key. -/
theorem sum_settledRows (d : Db) (key : Transaction → Id) (k : Id) :
    ((settledRows d).map fun t => if key t = k then t.amount else 0).sum =
      (d.transactions.map fun t => if key t = k ∧ t.status = .settled then t.amount else 0).sum := by
  unfold settledRows
  induction d.transactions with
  | nil => rfl
  | cons t ts ih =>
    by_cases ht : t.status = .settled
    · simp [ht, ih]
    · simp [ht, ih]

/-- What `reconcile` takes for the settled sum of a wallet is that sum. -/
theorem lookup_settledSums (d : Db) (id : Id) :
    ((groupSums (·.walletId) (settledRows d)).lookup id).getD 0 = ledgerSum id d.transactions := by
  rw [lookup_groupSums, sum_settledRows]
  rfl

/-- When every correlation sums to zero, no group drifts. -/
theorem driftSums_eq_nil {d : Db} (h : ∀ c, correlationSum c d.transactions = 0) :
    (groupSums (·.correlationId) (settledRows d)).filter (fun g => g.2 ≠ 0) = [] := by
  rw [List.filter_eq_nil_iff]
  intro g hg
  obtain ⟨c, -, rfl⟩ := List.mem_map.mp hg
  have hzero : (d.transactions.map fun t =>
      if t.correlationId = c ∧ t.status = .settled then t.amount else 0).sum = 0 := h c
  rw [sum_group, sum_settledRows, hzero]
  simp

/-- A loop that ends has found no drift exactly when every balance is its settled sum. -/
theorem walletDrifts_eq_nil {sums : List (Id × ℤ)} {ws : List (Id × Wallet)} {drifts : List Drift}
    (h : walletDrifts sums ws = .ok drifts) :
    drifts = [] ↔ ∀ x ∈ ws, (sums.lookup x.1).getD 0 = x.2.balance := by
  induction ws generalizing drifts with
  | nil =>
    obtain rfl := Except.ok.inj h
    simp
  | cons x ws ih =>
    obtain ⟨id, w⟩ := x
    obtain ⟨a, ha, h⟩ := Store.exists_of_bind_eq_ok h
    obtain ⟨b, hb, h⟩ := Store.exists_of_bind_eq_ok h
    obtain ⟨rest, hrest, h⟩ := Store.exists_of_bind_eq_ok h
    obtain rfl := Except.ok.inj h
    obtain ⟨rfl, -⟩ := eq_of_quantizeMoney_money ha
    obtain ⟨rfl, -⟩ := eq_of_quantizeMoney_money hb
    have hih := ih hrest
    by_cases heq : (sums.lookup id).getD 0 = w.balance
    · simp [heq, hih]
    · simp [heq]

/-- The loop ends when the sums and the balances have at most 28 digits. -/
theorem walletDrifts_ok {sums : List (Id × ℤ)} {ws : List (Id × Wallet)}
    (h : ∀ x ∈ ws, ((sums.lookup x.1).getD 0).natAbs < Dec.limit ∧
      x.2.balance.natAbs < Dec.limit) : ∃ drifts, walletDrifts sums ws = .ok drifts := by
  induction ws with
  | nil => exact ⟨[], rfl⟩
  | cons x ws ih =>
    obtain ⟨hsum, hbalance⟩ := h x List.mem_cons_self
    obtain ⟨drifts, hdrifts⟩ := ih fun y hy => h y (List.mem_cons_of_mem _ hy)
    unfold walletDrifts
    simp only [quantizeMoney_money, if_pos hsum, if_pos hbalance, hdrifts]
    exact ⟨_, rfl⟩

/-! ## The books in order -/

/-- The committed books are in order: every balance fits its column and is the sum of the wallet's
settled rows, and every correlation sums to zero. -/
structure Reconciled (d : Db) : Prop where
  fits : ∀ id w, d.wallets.get? id = some w → fitsMoney w.balance = true
  settled : ∀ id w, d.wallets.get? id = some w → w.balance = ledgerSum id d.transactions
  correlation : ∀ c, correlationSum c d.transactions = 0

/-- A correlation without settled rows sums to zero. -/
theorem correlationSum_eq_zero {c : Id} {ts : List Transaction}
    (h : ∀ t ∈ ts, t.correlationId ≠ c) : correlationSum c ts = 0 := by
  apply List.sum_eq_zero
  intro x hx
  obtain ⟨t, ht, rfl⟩ := List.mem_map.mp hx
  simp [h t ht]

/-- The books are in order when their rows are. -/
theorem reconciled_iff {d : Db} : Reconciled d ↔
    (∀ r ∈ d.wallets.rows, fitsMoney r.2.balance = true ∧
      r.2.balance = ledgerSum r.1 d.transactions) ∧
    ∀ t ∈ d.transactions, correlationSum t.correlationId d.transactions = 0 := by
  constructor
  · intro h
    refine ⟨fun r hr => ?_, fun t _ => h.correlation t.correlationId⟩
    have hrow := Store.Table.get?_eq_some.mpr hr
    exact ⟨h.fits _ _ hrow, h.settled _ _ hrow⟩
  · intro ⟨hw, hc⟩
    refine ⟨fun id w h => ?_, fun id w h => ?_, fun c => ?_⟩
    · exact (hw _ (Store.Table.get?_eq_some.mp h)).1
    · exact (hw _ (Store.Table.get?_eq_some.mp h)).2
    · by_cases hmem : ∃ t ∈ d.transactions, t.correlationId = c
      · obtain ⟨t, ht, rfl⟩ := hmem
        exact hc t ht
      · exact correlationSum_eq_zero fun t ht heq => hmem ⟨t, ht, heq⟩

instance (d : Db) : Decidable (Reconciled d) := decidable_of_iff' _ reconciled_iff

/-- The later books have the earlier ones' ledger rows, with more after them, and their wallets. -/
def Grows (d d' : Db) : Prop :=
  d.transactions <+: d'.transactions ∧
    ∀ id, (d.wallets.get? id).isSome = true → (d'.wallets.get? id).isSome = true

instance : Std.Refl Grows := ⟨fun _ => ⟨List.prefix_rfl, fun _ h => h⟩⟩

instance : IsTrans Db Grows :=
  ⟨fun _ _ _ h h' => ⟨h.1.trans h'.1, fun id hid => h'.2 id (h.2 id hid)⟩⟩

/-- A transaction lets the books grow. -/
theorem Db.Evolves.grows {ts : List Tbl} {d d' : Db} (h : d.Evolves ts d') : Grows d d' := by
  refine ⟨h.transactions, fun id hid => ?_⟩
  have hk := h.wallets id
  obtain ⟨w, hw⟩ := Option.isSome_iff_exists.mp hid
  rw [hw, Option.map_some] at hk
  obtain ⟨w', hw', -⟩ := Option.map_eq_some_iff.mp hk
  rw [hw']
  rfl

/-! ## Traffic -/

/-- The transaction of `reconcile`, with its report as the result. -/
def reconcileTx : Tx (Option ReconcileReport) := do return some (← reconcile)

/-- The transactions that run beside each other: requests, groups that are posted, and
reconciliations. -/
inductive Traffic (refresh : Bool) (s : Settings) : Tx (Option ReconcileReport) → Prop
  | request (r : Request) : Traffic refresh s (r.tx refresh s >>= fun _ => .ret none)
  | postGroup (legs : List Leg) (correlationId : Id) :
    Traffic refresh s (postGroup refresh legs correlationId >>= fun _ => .ret none)
  | reconcile : Traffic refresh s reconcileTx

/-- `reconcile` only reads. -/
theorem readsOnly_reconcileTx : reconcileTx.ReadsOnly := by
  refine .bind ?_ fun _ => trivial
  refine .bind (Prog.readsOnly_query _) fun _ => ?_
  refine .bind (Prog.readsOnly_query _) fun _ => ?_
  refine .bind (Prog.readsOnly_ofExcept _) fun _ => ?_
  refine .bind (Prog.readsOnly_query _) fun _ => ?_
  exact .bind (Prog.readsOnly_query _) fun _ => trivial

/-- Every flush of the traffic lets the books grow. -/
theorem Traffic.grows {refresh : Bool} {s : Settings} {p : Tx (Option ReconcileReport)}
    (h : Traffic refresh s p) : p.Writes (fun _ f => ∀ d, Grows d (f d)) fun _ => True := by
  have hgrows : ∀ {ts : List Tbl} {q : Tx (Option ReconcileReport)}, WritesTo ts q →
      q.Writes (fun _ f => ∀ d, Grows d (f d)) fun _ => True := fun hq =>
    (Prog.Writes.mono hq fun _ _ hf d => (hf d).1.grows).forget
  cases h with
  | request r => exact hgrows (.bind (Request.writesTo refresh s r) fun _ => trivial)
  | postGroup legs c => exact hgrows (.bind writesTo_postGroup fun _ => trivial)
  | reconcile => exact readsOnly_reconcileTx.writes

/-! ## The report -/

/-- What `reconcile` reports from the committed states at its four statements. -/
theorem replay_reconcile {d₁ d₂ d₃ d₄ d₅ : Db} {drifts : List Drift}
    (h : walletDrifts (groupSums (·.walletId) (settledRows d₂)) d₁.wallets.rows = .ok drifts) :
    reconcileTx.replay [d₁, d₂, d₃, d₄, d₅] = some (.ok (some
      { walletsChecked := d₁.wallets.rows.length
        correlationsChecked := ((settledRows d₄).map (·.correlationId)).dedup.length
        drifts := drifts ++ ((groupSums (·.correlationId) (settledRows d₃)).filter fun g =>
          g.2 ≠ 0).map fun g => .correlation g.1 g.2 })) := by
  simp only [reconcileTx, reconcile, allWallets, settledSumsByWallet, Prog.query, Prog.select_bind,
    Prog.ret_bind, Prog.replay, h, Prog.ofExcept]
  rfl

/-- The books are in order in every committed state while a reconciliation executes its five steps,
from its first statement to its end, and any other transactions run beside it. Then it reports,
and it reports that all is well exactly when, on each wallet that its first statement read, the
settled rows committed between its first statement and its second one add up to zero. -/
theorem reconcile_ok_iff (refresh : Bool) (s : Settings) (d : Db)
    {sys₀ sys : System Db Row Err Memory (Option ReconcileReport)} {ds : List Db}
    (hrun : System.Run (Traffic refresh s) (System.always Db Row Memory) .empty d sys₀)
    (hwatch : System.Watch (Traffic refresh s) Reconciled .empty sys₀.slots.length
      (sys₀.begin .empty reconcileTx) ds sys) (hsteps : ds.length = 5) :
    ∃ r d₁ d₂ new rest, sys.slots[sys₀.slots.length]? = some (.committed (some r)) ∧
      ds = d₁ :: d₂ :: rest ∧ d₂.transactions = d₁.transactions ++ new ∧
      (r.ok = true ↔ ∀ id w, d₁.wallets.get? id = some w → ledgerSum id new = 0) := by
  obtain ⟨d₁, d₂, d₃, d₄, d₅, rfl⟩ : ∃ d₁ d₂ d₃ d₄ d₅, ds = [d₁, d₂, d₃, d₄, d₅] := by
    match ds, hsteps with
    | [d₁, d₂, d₃, d₄, d₅], _ => exact ⟨d₁, d₂, d₃, d₄, d₅, rfl⟩
  have hstates := hwatch.holds.2
  have h₁ : Reconciled d₁ := hstates d₁ (by simp)
  have h₂ : Reconciled d₂ := hstates d₂ (by simp)
  have h₃ : Reconciled d₃ := hstates d₃ (by simp)
  -- the books only grow from the one statement to the other
  have hmoves : ∀ x ∈ (sys₀.begin .empty reconcileTx).slots, System.Moves Grows x :=
    System.moves_begin (hrun.moves fun _ h => h.grows)
      (Traffic.grows (.reconcile : Traffic refresh s reconcileTx))
  have hchain := hwatch.chain (fun _ h => h.grows) hmoves
  have hgrows : Grows d₁ d₂ := (List.pairwise_cons.mp hchain).1 d₂ (by simp)
  obtain ⟨new, hnew⟩ := hgrows.1
  have hwallet : ∀ x ∈ d₁.wallets.rows, d₁.wallets.get? x.1 = some x.2 := fun x hx =>
    Store.Table.get?_eq_some.mpr hx
  have hsum : ∀ id, ledgerSum id d₂.transactions = ledgerSum id d₁.transactions + ledgerSum id new :=
    fun id => by rw [← hnew, ledgerSum_append]
  -- a settled sum is a balance of the second state, and has at most 12 digits
  have hlimit : ∀ {n : ℤ}, fitsMoney n = true → n.natAbs < Dec.limit := by
    intro n hn
    have hn' : n.natAbs < 10 ^ 12 := of_decide_eq_true hn
    unfold Dec.limit
    omega
  obtain ⟨drifts, hdrifts⟩ : ∃ drifts,
      walletDrifts (groupSums (·.walletId) (settledRows d₂)) d₁.wallets.rows = .ok drifts := by
    apply walletDrifts_ok
    intro x hx
    obtain ⟨w, hw⟩ := Option.isSome_iff_exists.mp (hgrows.2 x.1 (by rw [hwallet x hx]; rfl))
    rw [lookup_settledSums, ← h₂.settled x.1 w hw]
    exact ⟨hlimit (h₂.fits x.1 w hw), hlimit (h₁.fits x.1 x.2 (hwallet x hx))⟩
  have hreplay := @replay_reconcile d₁ d₂ d₃ d₄ d₅ drifts hdrifts
  rw [driftSums_eq_nil h₃.correlation, List.map_nil, List.append_nil] at hreplay
  obtain ⟨x, hx, hreader⟩ := hwatch.reader readsOnly_reconcileTx (List.getElem?_concat_length ..)
  refine ⟨⟨d₁.wallets.rows.length, ((settledRows d₄).map (·.correlationId)).dedup.length, drifts⟩,
    d₁, d₂, new, [d₃, d₄, d₅], ?_, rfl, hnew.symm, ?_⟩
  · cases hreader with
    | running q _ hq =>
      have hend := hq []
      rw [List.append_nil, q.replay_nil, hreplay] at hend
      cases hend
    | committed r hr =>
      rw [hreplay] at hr
      obtain rfl := Except.ok.inj (Option.some.inj hr)
      exact hx
    | raised e he =>
      rw [hreplay] at he
      cases he
    | aborted hnone =>
      rw [hreplay] at hnone
      cases hnone
  · show drifts.isEmpty = true ↔ _
    rw [List.isEmpty_iff, walletDrifts_eq_nil hdrifts]
    simp only [lookup_settledSums, hsum]
    constructor
    · intro h id w hw
      have hbalance := h (id, w) (Store.Table.get?_eq_some.mp hw)
      have hsettled := h₁.settled id w hw
      dsimp only at hbalance
      omega
    · intro h y hy
      have hzero := h y.1 y.2 (hwallet y hy)
      have hsettled := h₁.settled y.1 y.2 (hwallet y hy)
      omega

/-- The accounts without money, and a top-up of 100.00 that is still to be paid. -/
def Sample.topupDue : Db :=
  { accounts (wallets 0 0 0) with
    intents := ⟨[(301, intent .walletTopup 10000 .new none 801)], by simp⟩ }

/-- The gateway's event that the top-up was paid. -/
def Sample.topupPaid : Tx (Option ReconcileReport) :=
  Request.tx true settings (.handleWebhook 0 true true 101
    (.ok ⟨801, ['P', 'A', 'I', 'D'], some 10000⟩)) >>= fun _ => .ret none

/-- The webhook of the sample is part of the traffic. -/
theorem Sample.traffic_topupPaid (p : Tx (Option ReconcileReport))
    (hp : p = Sample.topupPaid) : Traffic true Sample.settings p := by
  rw [hp]
  exact .request _

/-- What the reconciliation of a system reports as its first transaction. -/
def Sample.reports (ok : Bool) (x : List Db × System Db Row Err Memory (Option ReconcileReport)) :
    Bool :=
  x.1.length = 5 && match x.2.slots[0]? with
    | some (Slot.committed (some r)) => r.ok == ok
    | _ => false

/-- The top-up commits after the wallets and their sums were read: all is well. -/
theorem reconcile_ok_iff_topup : ∃ d₁ d₂ new rest r,
    ∃ sys : System Db Row Err Memory (Option ReconcileReport),
      System.Watch (Traffic true Sample.settings) Reconciled .empty 0
        (System.begin ⟨Sample.topupDue, []⟩ .empty reconcileTx) (d₁ :: d₂ :: rest) sys ∧
      sys.slots[0]? = some (.committed (some r)) ∧
      d₂.transactions = d₁.transactions ++ new ∧
      (r.ok = true ↔ ∀ id w, d₁.wallets.get? id = some w → ledgerSum id new = 0) := by
  obtain ⟨⟨ds, sys⟩, hplay, hq⟩ := (Option.any_eq_true (Sample.reports true) _).mp
    (show (System.watch Reconciled .empty 0 ([.step 0, .step 0, .start Sample.topupPaid] ++
      List.replicate 14 (.step 1) ++ List.replicate 3 (.step 0)) []
      (System.begin ⟨Sample.topupDue, []⟩ .empty reconcileTx)).any (Sample.reports true) = true by
        decide +kernel)
  -- The schedule is executed by evaluation, and it is a run of the traffic.
  have hwatch := System.Watch.of_watch (.start (by decide +kernel)) (fun p hp =>
    Sample.traffic_topupPaid p (by simpa using hp)) hplay
  have hsteps : ds.length = 5 := by
    have h := (Bool.and_eq_true_iff.mp hq).1
    exact of_decide_eq_true h
  obtain ⟨r, d₁, d₂, new, rest, hslot, rfl, hnew, hiff⟩ :=
    reconcile_ok_iff true Sample.settings Sample.topupDue .init hwatch hsteps
  exact ⟨d₁, d₂, new, rest, r, sys, hwatch, hslot, hnew, hiff⟩

/-- The top-up commits between the two statements: the wallets are read before it and their sums
after it, and the books are in order in every committed state, but drift is reported. -/
theorem reconcile_false_alarm : ∃ ds r,
    ∃ sys : System Db Row Err Memory (Option ReconcileReport),
      System.Watch (Traffic true Sample.settings) Reconciled .empty 0
        (System.begin ⟨Sample.topupDue, []⟩ .empty reconcileTx) ds sys ∧
      sys.slots[0]? = some (.committed (some r)) ∧ r.ok = false := by
  obtain ⟨⟨ds, sys⟩, hplay, hq⟩ := (Option.any_eq_true (Sample.reports false) _).mp
    (show (System.watch Reconciled .empty 0 ([.step 0, .start Sample.topupPaid] ++
      List.replicate 14 (.step 1) ++ List.replicate 4 (.step 0)) []
      (System.begin ⟨Sample.topupDue, []⟩ .empty reconcileTx)).any (Sample.reports false) = true by
        decide +kernel)
  have hwatch := System.Watch.of_watch (.start (by decide +kernel)) (fun p hp =>
    Sample.traffic_topupPaid p (by simpa using hp)) hplay
  obtain ⟨-, hreport⟩ := Bool.and_eq_true_iff.mp hq
  split at hreport
  · rename_i r hslot
    exact ⟨ds, r, sys, hwatch, hslot, eq_of_beq hreport⟩
  · cases hreport

end Giftly
