import Giftly.Concurrency.Operations
import Giftly.Concurrency.Settlement

/-!
# Reserved funds

The held part of a customer's or courier's wallet is never more than its balance. A hold is checked
under the wallet's lock, and a settlement that debits a held amount returns the hold. A payment from
the wallet alone compares the invoice with the available balance that it read without a lock, and
the posting checks the balance only: the bound is kept when the available balance still covers the
invoice at the moment the lock is granted (`coverCurrent`). A locking read returns the latest row
here.
-/

namespace Giftly

open Store
open WalletRepository MoneyService

/-- The wallet of a customer or a courier. -/
def Wallet.IsUser (w : Wallet) : Prop := w.type = .customer ∨ w.type = .courier

/-- The held balance is between zero and the balance, and some slack. -/
def Wallet.Within (slack : ℤ) (w : Wallet) : Prop :=
  w.IsUser → 0 ≤ w.heldBalance ∧ w.heldBalance ≤ w.balance + slack

/-- No wallet holds more than it has. -/
structure ReservesOk (d : Db) : Prop where
  wallets : WalletIndex d
  held : ∀ id w, d.wallets.get? id = some w → w.Within 0

/-- A payment that the wallet covered when it was read is granted the lock of the wallet while the
available balance covers it, or not even the balance does. -/
def coverCurrent (m : Memory) (d : Db) : Row → Prop
  | .wallet id => ∀ w ∈ m.wallets id, ∀ r ∈ d.invoices.rows, ∀ i ∈ m.invoices r.1,
    i.totalAmount ≤ w.balance - w.heldBalance → ∀ row ∈ d.wallets.get? id,
      row.balance < i.totalAmount ∨ i.totalAmount ≤ row.balance - row.heldBalance
  | _ => True

instance (m : Memory) (d : Db) : ∀ l : Row, Decidable (coverCurrent m d l)
  | .wallet id => inferInstanceAs (Decidable
      (∀ w ∈ m.wallets id, ∀ r ∈ d.invoices.rows, ∀ i ∈ m.invoices r.1,
        i.totalAmount ≤ w.balance - w.heldBalance → ∀ row ∈ d.wallets.get? id,
          row.balance < i.totalAmount ∨ i.totalAmount ≤ row.balance - row.heldBalance))
  | .order _ | .conversation _ | .invoice _ | .item _ | .intent _ | .topup _ | .dispute _
  | .promo _ | .redemption _ | .withdrawal _ | .idempotency _ | .activeInvoice _
  | .paymentLink _ | .disputeOf _ | .conversationOf _ | .withdrawalKey _ _ => .isTrue trivial

/-- The policy under which reserved funds stay reserved. -/
def reservePolicy : Policy where
  tables := .topups :: .withdrawals :: paymentTables
  inv := ReservesOk
  cond := coverCurrent

namespace ReserveProof

variable {v : TxView} {c : Id}

/-! ## Assertions -/

/-- After a commit every wallet is within its slack. -/
def Bounded (slack : Id → ℤ) (v : TxView) : Prop :=
  ∀ d, reservePolicy.around.rely v.held v.last d → ∀ id w,
    (v.pending d).wallets.get? id = some w → w.Within (slack id)

/-- The tables other than the wallets. -/
def others : List Tbl :=
  [.transactions, .orders, .invoices, .promos, .redemptions, .intents, .topups, .withdrawals]

/-- Being framed does not depend on what the tables hold. -/
theorem robust_framed :
    Robust reservePolicy (.topups :: .withdrawals :: paymentTables) reservePolicy.Framed :=
  Policy.robust_framed

/-- Writes to other tables leave every wallet within its slack. -/
theorem robust_bounded {slack : Id → ℤ} : Robust reservePolicy others (Bounded slack) :=
  .ofReach (B := fun _ x => ∀ id w, x.wallets.get? id = some w → w.Within (slack id))
    fun _ _ _ hxy hx => by rwa [hxy.wallets_eq (by decide)]

/-- What is known once the wallets were written. -/
def Settled (v : TxView) : Prop := reservePolicy.Framed v ∧ Bounded 0 v

/-- Writes to other tables leave what is settled. -/
theorem robust_settled : Robust reservePolicy others Settled :=
  (robust_framed.mono (by decide)).and robust_bounded

/-- Further locks and another session memory leave what is settled. -/
theorem Settled.mono {held : List Row} {m : Memory} (h : Settled v) (hs : v.held ⊆ held) :
    Settled ⟨held, v.pending, m, v.last⟩ :=
  ⟨fun d => ⟨(h.1 d).1, fun l hl => (h.1 d).2 l fun hl' => hl (hs hl')⟩,
    fun d hd => h.2 d (Policy.rely_mono hd hs)⟩

/-- A transaction that leaves every wallet within its balance may commit. -/
theorem safe_of_settled (h : Settled v) : reservePolicy.Safe v := fun d hd =>
  ⟨⟨hd.1.wallets.evolves (h.1 d).1, h.2 d hd⟩, trivial, trivial, fun _ _ => trivial⟩

/-- What is known before the wallets are written: no wallet is locked. -/
def Calm (v : TxView) : Prop :=
  (WalletsClean v ∧ reservePolicy.Framed v) ∧ ∀ id, .wallet id ∉ v.held

/-- A transaction begins with no wallet locked. -/
theorem calm_start {m : Memory} {d : Db} : Calm (.start m d) :=
  ⟨⟨fun _ => rfl, fun d => ⟨.refl _ d, fun l _ => .refl l d⟩⟩, fun _ => List.not_mem_nil⟩

/-- Nothing is said of the committed state before a wallet is locked. -/
theorem Calm.rely {d : Db} (h : Calm v) : Calm { v with last := d } := h

/-- A lock that is not one of a wallet. -/
theorem Calm.lock {d : Db} {l : Row} (h : Calm v) (hl : ∀ id, l ≠ .wallet id) :
    Calm { v with held := l :: v.held, last := d } := by
  refine ⟨⟨h.1.1, robust_framed.held _ [l] h.1.2⟩, fun id hid => ?_⟩
  rcases List.mem_cons.mp hid with heq | hid
  · exact hl id heq.symm
  · exact h.2 id hid

/-- Reads of wallets lock none. -/
theorem Calm.later {v₁ : TxView} (h : Calm v) (hl : Later reservePolicy v v₁)
    (hheld : v₁.held = v.held) : Calm v₁ :=
  ⟨⟨fun d => by rw [hl.pending]; exact h.1.1 d, robust_framed.later h.1.2 hl⟩,
    fun id => by rw [hheld]; exact h.2 id⟩

/-- No wallet is locked, so no instance is out of date. -/
theorem Calm.current (h : Calm v) : Current reservePolicy v := fun id hid => absurd hid (h.2 id)

/-- Nothing was written, so every wallet is within its balance. -/
theorem Calm.bounded (h : Calm v) : Bounded 0 v := by
  intro d hd id w hw
  rw [h.1.1 d] at hw
  exact hd.1.held id w hw

/-- A transaction that has written nothing may commit. -/
theorem Calm.settled (h : Calm v) : Settled v := ⟨h.1.2, h.bounded⟩

/-- With a refresh, a locked wallet is the instance that the session has. -/
theorem coherently : Coherently reservePolicy true := .inl rfl

/-- A user's wallet is none of the system's. -/
theorem ne_of_kind {id j : Id} {w : Wallet} {t : WalletType} {d : Db}
    (hf : reservePolicy.Framed v) (hd : reservePolicy.around.rely v.held v.last d)
    (hw : (v.pending d).wallets.get? id = some w) (hu : w.IsUser) (hk : Kind j (none, t) v)
    (ht : t ≠ .customer ∧ t ≠ .courier) : id ≠ j := by
  rintro rfl
  have hkind := (robust_kind []).rely v d hk hd
  have hev := (hf d).1.wallets id
  rw [hw, Option.map_some, hkind, Option.some.injEq, Wallet.frozen, Prod.mk.injEq] at hev
  rw [Wallet.IsUser, hev.2] at hu
  exact hu.elim ht.1 ht.2

/-! ## Bookings and holds -/

/-- A booking uses up slack by what it debits. -/
theorem bounded_of_booking {legs : List Leg} {v₁ : TxView} {loaded assigned : Id → Option Wallet}
    {rows : List Transaction} {d : Db} {slack slack' : Id → ℤ} (hf : reservePolicy.Framed v)
    (hc : Current reservePolicy v) (hv : Bounded slack v)
    (hb : Booking reservePolicy true c legs v v₁ loaded assigned rows d)
    (hslack : ∀ d' id w, reservePolicy.around.rely v.held v.last d' →
      (v.pending d').wallets.get? id = some w → w.IsUser →
      slack id ≤ slack' id +
        (legs.map fun leg => if leg.walletId = id then leg.amount.coeff else 0).sum) :
    Bounded slack' (booked legs v v₁ loaded assigned rows d) := by
  intro d' hd' id w' hw' hu
  have hreach := hb.reach_start hd'
  simp only [booked, Function.comp_apply] at hw'
  by_cases hid : id ∈ walletIds legs
  · -- A wallet of the group moves by its legs, which the slack allows for.
    obtain ⟨w, -, hrow⟩ := hb.row coherently hf hc hid
    obtain ⟨hbefore, hafter⟩ := hrow d' (hb.reach hd')
    obtain rfl : creditRows rows id w = w' := Option.some.inj (hafter.symm.trans hw')
    have hu' : w.IsUser := hu
    have hwithin := hv d' hreach id w hbefore hu'
    have hle := hslack d' id w hreach hbefore hu'
    rw [← ledgerSum_rows hb.applied.rows] at hle
    simp only [creditRows, Wallet.credit]
    omega
  · rw [hb.row_outside hid] at hw'
    have hwithin := hv d' hreach id w' hw' hu
    have hle := hslack d' id w' hreach hw' hu
    -- No leg is on this wallet, so its sum over the new rows is zero.
    have hzero : ledgerSum id rows = 0 := by
      refine ledgerSum_eq_zero fun t ht heq => hid ?_
      rw [← rows_walletId hb.applied.rows]
      exact List.mem_map.mpr ⟨t, ht, heq⟩
    rw [← ledgerSum_rows hb.applied.rows, hzero] at hle
    omega

/-- A new held balance, within the balance. -/
theorem settled_of_holding {id : Id} {w : Wallet} {n : ℤ} {v₁ : TxView} {d : Db}
    {slack : Id → ℤ} (hf : reservePolicy.Framed v) (hc : Current reservePolicy v)
    (hv : Bounded slack v) (hh : Holding reservePolicy true id w n v v₁ d)
    (hothers : ∀ j, j ≠ id → slack j ≤ 0)
    (hn : w.IsUser → w.Within (slack id) → 0 ≤ n → 0 ≤ w.balance → n ≤ w.balance) :
    Settled (heldTo id w n v v₁ d) := by
  refine ⟨hh.framed (by decide) hf, fun d' hd' j w' hw' hu => ?_⟩
  have hreach := hh.reach hd'
  by_cases hj : j = id
  · subst hj
    obtain ⟨hbefore, hafter⟩ := hh.row coherently hf hc d' hreach
    obtain rfl : w.setHeld n = w' := Option.some.inj (hafter.symm.trans hw')
    have hu' : w.IsUser := hu
    -- The row that was written passed its check, and a user's wallet may not be overdrawn.
    obtain ⟨row, hrow, hcheck⟩ := hh.checked
    obtain rfl : w = row := Option.some.inj
      ((hh.row coherently hf hc d hh.rely).1.symm.trans hrow)
    have hassign : w.assign (w.setHeld n) w = w.setHeld n := by
      simp [Wallet.assign, Wallet.setHeld]
    rw [hassign] at hcheck
    obtain ⟨-, -, -, hover | hnonneg⟩ := Wallet.check_eq_none.mp hcheck
    · rcases hu' with h | h <;> simp [Wallet.setHeld, h, WalletType.mayOverdraw] at hover
    · have hwithin : w.Within (slack j) := hv d' (hh.later.reach hreach) j w hbefore
      simp only [Wallet.setHeld] at hnonneg ⊢
      exact ⟨hnonneg.2, by simpa using hn hu' hwithin hnonneg.2 hnonneg.1⟩
  · simp only [heldTo, Function.comp_apply, Db.updateWallet, Table.get?_update_ne _ _ hj] at hw'
    have := hv d' (hh.later.reach hreach) j w' hw' hu
    have hle := hothers j hj
    simp only [Pi.zero_apply]
    omega

/-! ## Money operations -/

/-- The slack of one wallet. -/
def slackOf (u : Id) (n : ℤ) (id : Id) : ℤ := if id = u then n else 0

/-- What is known once the wallets were written, when a condition on the amount holds. -/
def SettledIf (A : Prop) (v : TxView) : Prop := reservePolicy.Framed v ∧ (A → Bounded 0 v)

/-- Writes to other tables leave what is settled under a condition. -/
theorem robust_settledIf {A : Prop} : Robust reservePolicy others (SettledIf A) :=
  (robust_framed.mono (by decide)).and (.all fun _ => robust_bounded)

/-- What is settled is so under any condition. -/
theorem Settled.settledIf {A : Prop} (h : Settled v) : SettledIf A v := ⟨h.1, fun _ => h.2⟩

/-- A booking after reads. -/
theorem bounded_of_booked {legs : List Leg} {v₀ v' : TxView} (slack : Id → ℤ) (hv : Calm v)
    (hb : BookedAfter reservePolicy true c legs v v₀ v')
    (hslack : ∀ d' id w, reservePolicy.around.rely v₀.held v₀.last d' →
      (v₀.pending d').wallets.get? id = some w → w.IsUser →
      0 ≤ slack id + (legs.map fun leg => if leg.walletId = id then leg.amount.coeff else 0).sum) :
    Bounded slack v' := by
  obtain ⟨hprep, v₁, loaded, assigned, rows, d, hb, rfl⟩ := hb
  have hv₀ := hv.later hprep.later hprep.held
  exact bounded_of_booking hv₀.1.2 hv₀.current hv₀.bounded hb hslack

/-- The instances are current after a posting, which assigned them. -/
theorem current_of_booked {legs : List Leg} {v₀ v' : TxView} (hv : Calm v)
    (hb : BookedAfter reservePolicy true c legs v v₀ v') : Current reservePolicy v' := by
  obtain ⟨hprep, v₁, loaded, assigned, rows, d, hb, rfl⟩ := hb
  have hv₀ := hv.later hprep.later hprep.held
  exact hb.current coherently hv₀.1.2 hv₀.current

/-- A posting keeps to the tables and to the locks. -/
theorem framed_of_booked {legs : List Leg} {v₀ v' : TxView} (hv : Calm v)
    (hb : BookedAfter reservePolicy true c legs v v₀ v') : reservePolicy.Framed v' :=
  hb.robust (robust_framed.mono (by decide)) hv.1.2

/-- A top-up of a positive amount lowers no user's balance. -/
theorem wp_credit {u i : Id} {p : PaymentIntent} {Q : Bool → TxView → Prop} (hv : Calm v)
    (hQ : ∀ b v', SettledIf (0 < p.amount) v' → Q b v') :
    wp reservePolicy.around (creditTopup true u (money p.amount) i c) Q v := by
  refine wp_creditTopup hv.1.2 (fun v₁ hl _ => ?_) fun v₀ v' g n hn hg hb => hQ true v' ?_
  · exact hQ false v₁ (robust_settled.later hv.settled hl).settledIf
  · obtain ⟨rfl, -⟩ := eq_of_quantizeMoney_money hn
    refine ⟨framed_of_booked hv hb, fun hpos => bounded_of_booked 0 hv hb fun d' id w hd' hw hu => ?_⟩
    have hne := (ne_of_kind (robust_framed.later hv.1.2 hb.1.later) hd' hw hu hg (by decide)).symm
    simp only [topupLegs, List.map_cons, List.map_nil, List.sum_cons, List.sum_nil, Dec.cents, hne,
      if_false, Pi.zero_apply]
    split_ifs <;> omega

/-- The legs of a funding on a user's wallet. -/
theorem sum_fundingLegs {u g e i o id : Id} {x : Option Id} {a b : ℤ} (ha : a.natAbs < Dec.limit)
    (h0 : 0 ≤ a) (hg : g ≠ id) (he : e ≠ id) :
    ((fundingLegs u g e i o x (a + b) a b).map fun leg =>
      if leg.walletId = id then leg.amount.coeff else 0).sum = -slackOf u a id := by
  simp only [fundingLegs, fundingLeg, neg_cents_of_lt ha, List.map_append, List.sum_append]
  by_cases hu : u = id
  · have hslack : slackOf u a id = a := by simp [slackOf, hu]
    rw [hslack]
    split_ifs <;> simp [hg, he, hu, Dec.cents]
    all_goals omega
  · have hslack : slackOf u a id = 0 := by simp [slackOf, Ne.symm hu]
    rw [hslack]
    split_ifs <;> simp [hg, he, hu]

/-- A user's wallet may lack what a funding debited. -/
theorem bounded_of_funding {u g e i o : Id} {x : Option Id} {a b : ℤ} {v₀ v' : TxView}
    (hv : Calm v) (ha : a.natAbs < Dec.limit) (h0 : 0 ≤ a) (he : Kind e (none, .systemEscrow) v₀)
    (hg : Kind g (none, .systemGateway) v₀)
    (hb : BookedAfter reservePolicy true c (fundingLegs u g e i o x (a + b) a b) v v₀ v') :
    Bounded (slackOf u a) v' := by
  refine bounded_of_booked _ hv hb fun d' id w hd' hw hu => ?_
  have hf := robust_framed.later hv.1.2 hb.1.later
  rw [sum_fundingLegs ha h0 (ne_of_kind hf hd' hw hu hg (by decide)).symm
    (ne_of_kind hf hd' hw hu he (by decide)).symm]
  omega

/-- The return of the hold after a debit of the same amount. -/
theorem wp_releaseDebited {u : Id} {n : ℤ} {Q : Unit → TxView → Prop}
    (hf : reservePolicy.Framed v) (hc : Current reservePolicy v) (hv : Bounded (slackOf u n) v)
    (hQ : ∀ v', SettledIf (0 ≤ n) v' → Q () v') :
    wp reservePolicy.around (releaseHold true u (money n)) Q v := by
  refine wp_releaseHold fun v₁ w m d hm hh => hQ _ ⟨hh.framed (by decide) hf, fun h0 => ?_⟩
  obtain ⟨rfl, -⟩ := eq_of_quantizeMoney_money hm
  refine (settled_of_holding hf hc hv hh (fun j hj => by simp [slackOf, hj]) ?_).2
  intro hu hwithin _ hbal
  have := (hwithin hu).2
  simp only [slackOf, if_true] at this
  omega

/-- The return of a hold. -/
theorem wp_releaseHeld {u : Id} {n : ℤ} {Q : Unit → TxView → Prop} (hv : Calm v)
    (hQ : ∀ v', SettledIf (0 ≤ n) v' → Q () v') :
    wp reservePolicy.around (releaseHold true u (money n)) Q v := by
  refine wp_releaseHold fun v₁ w m d hm hh => hQ _ ⟨hh.framed (by decide) hv.1.2, fun h0 => ?_⟩
  obtain ⟨rfl, -⟩ := eq_of_quantizeMoney_money hm
  refine (settled_of_holding hv.1.2 hv.current hv.bounded hh (fun _ _ => le_refl 0) ?_).2
  intro hu hwithin _ hbal
  have := (hwithin hu).2
  simp only [Pi.zero_apply] at this
  omega

/-- A hold is within the balance, which the locked instance shows. -/
theorem wp_hold {u : Id} {a : Decimal} {Q : Unit → TxView → Prop} (hv : Calm v)
    (hQ : ∀ v', Settled v' → Q () v') :
    wp reservePolicy.around (holdFunds true u a) Q v := by
  refine wp_holdFunds fun v₁ w n d _ hle hh => hQ _ ?_
  refine settled_of_holding hv.1.2 hv.current hv.bounded hh (fun _ _ => le_refl 0) ?_
  intro _ _ _ _
  omega

/-- A settlement with its hold: what is debited is returned. -/
theorem wp_fundHeld {u i o : Id} {x : Option Id} {n k : ℤ} {Q : Bool → TxView → Prop}
    (hv : Calm v) (hQ : ∀ b v', Settled v' → Q b v') :
    wp reservePolicy.around
      (fundEscrowForInvoice true u (money n) (money k) i o x (decide (0 < n)) c) Q v := by
  refine wp_fundEscrow hv.1.2 (fun v₁ hl _ => hQ _ v₁ (robust_settled.later hv.settled hl))
    fun v₀ v' g e a b ha _ h0 _ he hg hb => ?_
  obtain ⟨rfl, hlt⟩ := eq_of_quantizeMoney_money ha
  have hbounded := bounded_of_funding hv hlt h0 he hg hb
  have hf := framed_of_booked hv hb
  refine ⟨fun hno => hQ true v' ⟨hf, ?_⟩, fun _ hpos => ?_⟩
  · obtain rfl : a = 0 := by
      simp only [decide_eq_true_eq, and_self] at hno
      omega
    have hzero : slackOf u 0 = 0 := by
      funext id
      simp [slackOf]
    rwa [hzero] at hbounded
  · exact wp_releaseDebited hf (current_of_booked hv hb) hbounded fun v'' h =>
      hQ true v'' ⟨h.1, h.2 h0⟩

/-- A withdrawal lowers balance and hold by one amount. -/
theorem wp_withdrawal {k w : Id} {n : ℤ} {Q : Bool → TxView → Prop} (hv : Calm v)
    (hQ : ∀ b v', SettledIf (0 ≤ n) v' → Q b v') :
    wp reservePolicy.around (payWithdrawal true k (money n) w c) Q v := by
  refine wp_payWithdrawal hv.1.2
    (fun v₁ hl _ => hQ _ v₁ (robust_settled.later hv.settled hl).settledIf)
    fun v₀ v' g m hm hg hlt hb => ?_
  obtain ⟨rfl, -⟩ := eq_of_quantizeMoney_money hm
  refine wp_releaseDebited (framed_of_booked hv hb) (current_of_booked hv hb) ?_ (hQ true)
  refine bounded_of_booked _ hv hb fun d' id w hd' hw hu => ?_
  have hne := (ne_of_kind (robust_framed.later hv.1.2 hb.1.later) hd' hw hu hg (by decide)).symm
  simp only [withdrawalLegs, neg_cents_of_lt hlt, List.map_cons, List.map_nil, List.sum_cons,
    List.sum_nil, hne, if_false, slackOf]
  by_cases hid : id = k
  · simp [hid, Dec.cents]
  · simp [hid, Ne.symm hid]

/-! ## Requests -/

section Requests

variable {s : Settings} {now : Time}

/-- Statements after the money operation. -/
theorem wp_after {α β : Type} {ts : List Tbl} {p : Tx α} {g : α → Tx β} {Q : β → TxView → Prop}
    (hp : WritesTo ts p) (hs : ts ⊆ others) (hv : Settled v)
    (hg : ∀ a v', Settled v' → wp reservePolicy.around (g a) Q v') :
    wp reservePolicy.around (p >>= g) Q v := robust_settled.wp_bind hp hs hv hg

/-- A payment from the wallet alone: the available balance covers it when the lock is granted. -/
theorem settled_of_covered {u g e iid oid : Id} {l : Invoice} {w : Wallet} {x : Option Id} {b : ℤ}
    {v₀ v' : TxView} (hv : Calm v) (hlt : l.totalAmount.natAbs < Dec.limit)
    (h0 : 0 ≤ l.totalAmount) (he : Kind e (none, .systemEscrow) v₀)
    (hg : Kind g (none, .systemGateway) v₀)
    (hb : BookedAfter reservePolicy true c
      (fundingLegs u g e iid oid x (l.totalAmount + b) l.totalAmount b) v v₀ v')
    (hmi : v.mem.invoices iid = some l) (hmw : v.mem.wallets u = some w)
    (hrow : ∀ d, reservePolicy.around.rely v.held v.last d →
      ∃ i, (v.pending d).invoices.get? iid = some i)
    (hle : l.totalAmount ≤ w.balance - w.heldBalance) : Settled v' := by
  refine ⟨framed_of_booked hv hb, ?_⟩
  have hbounded := bounded_of_funding hv hlt h0 he hg hb
  obtain ⟨hprep, v₁, loaded, assigned, rows, d, hb, rfl⟩ := hb
  have hv₀ := hv.later hprep.later hprep.held
  intro d' hd' id w' hw' hu
  by_cases hid : id = u
  · subst hid
    by_cases hpos : 0 < l.totalAmount
    · have hmem : id ∈ walletIds (fundingLegs id g e iid oid x (l.totalAmount + b)
          l.totalAmount b) := by simp [walletIds, fundingLegs, hpos, fundingLeg]
      obtain ⟨w₁, hw₁, hrows⟩ := hb.row coherently hv₀.1.2 hv₀.current hmem
      obtain ⟨-, hafter⟩ := hrows d' (hb.reach hd')
      obtain rfl : creditRows rows id w₁ = w' := Option.some.inj (hafter.symm.trans hw')
      -- What the lock was granted on is the row that the posting starts from.
      have hgrant := hb.locked.granted id w₁ hw₁
      rw [Granted, or_iff_right (hv₀.2 id)] at hgrant
      obtain ⟨m, d₁, row, hd₁, -, hmw', hmi', hcond, hrow₁, hsame⟩ := hgrant
      obtain rfl := hsame rfl
      obtain ⟨i, hi⟩ := hrow d₁ (hprep.later.reach hd₁)
      rw [← hprep.later.pending] at hi
      have hcover := hcond w (by rw [hmw', hprep.inst id w hmw]; rfl) (iid, i)
        (Table.get?_eq_some.mp hi) l (by rw [hmi', hprep.invoices, hmi]; rfl) hle row hrow₁
      have hcheck := hb.wallets id hmem (creditRows rows id row)
        ((hrows d hb.rely).2)
      have hbal : (creditRows rows id row).balance = row.balance - l.totalAmount := by
        have hf₀ := hv₀.1.2
        have hbefore := (hrows d' (hb.reach hd')).1
        have hrd := hb.reach_start hd'
        have hu₁ : row.IsUser := hu
        simp only [creditRows, Wallet.credit, ledgerSum_rows hb.applied.rows]
        rw [sum_fundingLegs hlt h0 (ne_of_kind hf₀ hrd hbefore hu₁ hg (by decide)).symm
          (ne_of_kind hf₀ hrd hbefore hu₁ he (by decide)).symm, slackOf, if_pos rfl]
        omega
      have hheld : (creditRows rows id row).heldBalance = row.heldBalance := rfl
      obtain ⟨-, -, -, hover | hnonneg⟩ := Wallet.check_eq_none.mp hcheck
      · rcases hu with h | h <;> rw [h] at hover <;> simp [WalletType.mayOverdraw] at hover
      · simp only [Pi.zero_apply]
        omega
    · have := hbounded d' hd' id w' hw' hu
      simp only [slackOf, if_true] at this
      simp only [Pi.zero_apply]
      omega
  · have := hbounded d' hd' id w' hw' hu
    simp only [slackOf, hid, if_false] at this
    exact this

/-- The gateway branch holds what the locked wallet covers. -/
theorem wp_startGateway {x : PaymentService.PayInput} {i u w : Id} {l : Invoice} {a b : ℤ}
    (hv : Calm v) :
    wp reservePolicy.around (PaymentService.startGateway true s now x i l u w a b)
      (fun _ v => Settled v) v := by
  unfold PaymentService.startGateway
  have hhold : wp reservePolicy.around ((holdFunds true w (money a)).when (0 < a))
      (fun _ v => Settled v) v := by
    rw [wp_when]
    exact ⟨fun _ => wp_hold hv fun _ h => h, fun _ => hv.settled⟩
  rw [wp_bind]
  refine wp_mono (fun _ v hv => ?_) hhold
  refine wp_after writesTo_flushInvoice (by decide) hv fun _ v hv => ?_
  refine wp_after writesTo_createIntent (by decide) hv fun _ v hv => ?_
  refine robust_settled.query_bind hv fun _ v hv _ _ => ?_
  refine wp_after writesTo_createCheckout (List.nil_subset _) hv fun _ v hv => ?_
  exact wp_after writesTo_flushIntent (by decide) hv fun _ _ h => h

/-- `pay_invoice` leaves every wallet within its balance, as long as `coverCurrent` holds at its
lock. -/
theorem wp_payInvoice {x : PaymentService.PayInput} {iid u : Id} {d₀ : Db} :
    wp reservePolicy.around (PaymentService.payInvoice true s now x iid u)
      (fun _ v => Settled v) (.start .empty d₀) := by
  unfold PaymentService.payInvoice
  rw [wp_bind]
  refine wp_getInvoiceForActor (fun _ _ => trivial) fun d l hd hl => ?_
  refine wp_require_bind fun _ => wp_require_bind fun _ => ?_
  rw [wp_bind]
  refine wp_lockOrder (fun _ _ => trivial) fun d₁ o hd₁ _ _ => ?_
  have hv : Calm ⟨[.order l.orderId], id, Memory.empty.setInvoice iid (some l), d₁⟩ :=
    ⟨⟨fun _ => rfl, fun d => ⟨.refl _ d, fun k _ => .refl k d⟩⟩, fun _ => by simp⟩
  have hrow : ∀ v, Later reservePolicy
      ⟨[.order l.orderId], id, Memory.empty.setInvoice iid (some l), d₁⟩ v → ∀ d₂,
      reservePolicy.around.rely v.held v.last d₂ →
        ∃ i, (v.pending d₂).invoices.get? iid = some i := by
    intro v hlater d₂ hd₂
    obtain ⟨i, hi, -⟩ := (Policy.rely_evolves hd₁).invoices iid l hl
    obtain ⟨i', hi', -⟩ := (Policy.rely_evolves (hlater.reach hd₂)).invoices iid i hi
    exact ⟨i', by rw [hlater.pending]; exact hi'⟩
  refine wp_require_bind fun _ => ?_
  refine wp_getByUser_bind hv.1.2 (fun _ _ => trivial) fun v₁ wid w t hprep hmw hk => ?_
  have hv₁ := hv.later hprep.later hprep.held
  refine wp_ofExcept_bind fun total htotal => ?_
  obtain ⟨rfl, hlt⟩ := eq_of_quantizeMoney_money htotal
  unfold availableBalance
  rw [wp_bind, wp_bind]
  -- The available amount is read from the wallet a second time.
  refine wp_getByUser_again hv₁.1.2 hk hmw (fun d hd => hd.1.wallets) fun v₂ hprep₂ hmw₂ => ?_
  have hv₂ := hv₁.later hprep₂.later hprep₂.held
  dsimp only
  rw [wp_ofExcept]
  intro available havail
  rw [MoneyService.available, Dec.sub_cents] at havail
  obtain ⟨rfl, -⟩ := eq_of_quantizeMoney_fix havail
  refine wp_ofExcept_bind fun b hb => ?_
  rw [Dec.sub_cents] at hb
  obtain ⟨rfl, -⟩ := eq_of_quantizeMoney_fix hb
  rw [wp_ite]
  constructor
  · -- The available amount covers the total, and the wallet pays it.
    intro hle
    unfold PaymentService.payFromWallet
    rw [wp_bind]
    refine wp_fundEscrow hv₂.1.2 (fun v₃ hl₃ _ => ?_) fun v₀ v' g e a b ha _ h0 _ he hg hbook => ?_
    · exact wp_after writesTo_settleInvoiceRecord (by decide)
        (robust_settled.later hv₂.settled hl₃) fun _ _ h => h
    · obtain ⟨rfl, -⟩ := eq_of_quantizeMoney_money ha
      -- Nothing was held for this invoice, so there is no hold to release.
      refine ⟨fun _ => ?_, fun h => absurd h Bool.false_ne_true⟩
      have hsettled := settled_of_covered hv₂ hlt h0 he hg hbook ?_ hmw₂
        (hrow v₂ (hprep.later.trans hprep₂.later)) (by omega)
      · exact wp_after writesTo_settleInvoiceRecord (by decide) hsettled fun _ _ h => h
      · rw [hprep₂.invoices, hprep.invoices]
        simp [Memory.setInvoice]
  · -- The rest goes through the gateway, and the wallet's part is put on hold.
    intro _
    unfold PaymentService.payThroughGateway
    refine wp_query_bind fun d₂ hd₂ => ?_
    split
    · exact robust_settled.rely _ _ hv₂.settled hd₂
    · exact wp_startGateway hv₂

/-- The transaction has seen the row of a payment intent. -/
def SeenIntent (i : Id) (p : PaymentIntent) (v : TxView) : Prop :=
  ∃ row, v.last.intents.get? i = some row ∧ row.frozen = p.frozen

/-- The amount of an intent is a frozen column. -/
theorem robust_seenIntent {i : Id} {p : PaymentIntent} (ts : List Tbl) :
    Robust reservePolicy ts (SeenIntent i p) :=
  .lasting (A := fun d => ∃ row, d.intents.get? i = some row ∧ row.frozen = p.frozen)
    fun _ _ _ hev _ ⟨row, hrow, hfrozen⟩ => by
      obtain ⟨row', hrow', hfrozen'⟩ := hev.intents i row hrow
      exact ⟨row', hrow', hfrozen'.trans hfrozen⟩

/-- The transaction has seen the row of a withdrawal. -/
def SeenWithdrawal (i : Id) (w : Withdrawal) (v : TxView) : Prop :=
  ∃ row, v.last.withdrawals.get? i = some row ∧ row.frozen = w.frozen

/-- The amount of a withdrawal is a frozen column. -/
theorem robust_seenWithdrawal {i : Id} {w : Withdrawal} (ts : List Tbl) :
    Robust reservePolicy ts (SeenWithdrawal i w) :=
  .lasting (A := fun d => ∃ row, d.withdrawals.get? i = some row ∧ row.frozen = w.frozen)
    fun _ _ _ hev _ ⟨row, hrow, hfrozen⟩ => by
      obtain ⟨row', hrow', hfrozen'⟩ := hev.withdrawals i row hrow
      exact ⟨row', hrow', hfrozen'.trans hfrozen⟩

/-- The flush of a paid intent passes `chk_intent_amount_positive`. -/
theorem wp_markIntentPaid {i : Id} {p : PaymentIntent} (hnew : p.status = .new)
    (hv : SettledIf (0 < p.amount) v) (hseen : SeenIntent i p v) :
    wp reservePolicy.around (PaymentRepository.markPaid i p now) (fun _ v => Settled v) v := by
  unfold PaymentRepository.markPaid PaymentRepository.flush
  rw [if_neg fun h => by simpa [hnew] using congrArg PaymentIntent.status h]
  refine wp_updateRow fun d row hd _ hrow hcheck => ?_
  have hframed : Framed others (.intent i :: [])
      (Db.updateIntent i (p.assign { p with status := .paid, paidAt := some now })) :=
    .mono (.updateIntent List.mem_cons_self (p.assign_frozen _)) (by decide)
  have hv' := robust_settledIf.patch _ _ _ hframed (robust_settledIf.rely v d hv hd)
  obtain ⟨row₀, hrow₀, hfrozen₀⟩ := (robust_seenIntent []).rely v d hseen hd
  obtain ⟨row₁, hrow₁, hfrozen₁⟩ := (hv.1 d).1.intents i row₀ hrow₀
  obtain rfl : row₁ = row := Option.some.inj (hrow₁.symm.trans hrow)
  have hamount : row₁.amount = p.amount :=
    PaymentIntent.amount_of_frozen (hfrozen₁.trans hfrozen₀)
  have hpos := (Option.or_eq_none_iff.mp hcheck).1
  simp only [PaymentIntent.check, PaymentIntent.assign, violated_eq_none, List.mem_cons,
    forall_eq_or_imp, decide_eq_true_eq, hamount] at hpos
  exact ⟨hv'.1, hv'.2 hpos.2.1⟩

/-- The flush of a withdrawal passes `chk_withdrawal_min`. -/
theorem wp_setStatus {i a : Id} {w : Withdrawal} {st : WithdrawalStatus} {r : Option Text}
    (hv : SettledIf (0 ≤ w.amount) v) (hseen : SeenWithdrawal i w v) :
    wp reservePolicy.around (WithdrawalRepository.setStatus i w st a r)
      (fun _ v => Settled v) v := by
  refine wp_updateRow fun d row hd _ hrow hcheck => ?_
  have hframed : Framed others [.withdrawal i] (Db.updateWithdrawal i (w.assign { w with
      status := st, processedByAdminId := some a, rejectionReason := r })) :=
    .mono (.updateWithdrawal List.mem_cons_self (w.assign_frozen _)) (by decide)
  have hv' := robust_settledIf.patch _ _ _ hframed (robust_settledIf.rely v d hv hd)
  obtain ⟨row₀, hrow₀, hfrozen₀⟩ := (robust_seenWithdrawal []).rely v d hseen hd
  obtain ⟨row₁, hrow₁, hfrozen₁⟩ := (hv.1 d).1.withdrawals i row₀ hrow₀
  obtain rfl : row₁ = row := Option.some.inj (hrow₁.symm.trans hrow)
  have hamount : row₁.amount = w.amount :=
    Withdrawal.amount_of_frozen (hfrozen₁.trans hfrozen₀)
  split_ifs at hcheck
  simp only [Withdrawal.check, Withdrawal.assign, violated_eq_none, List.mem_cons,
    forall_eq_or_imp, decide_eq_true_eq, hamount] at hcheck
  exact ⟨hv'.1, hv'.2 (by omega)⟩

/-- The settlement of an intent of a positive amount leaves every wallet within its balance. -/
theorem wp_settleIntent {i : Id} {p : PaymentIntent} (hv : Calm v) :
    wp reservePolicy.around (PaymentService.settleIntent true now c i p)
      (fun _ v => SettledIf (0 < p.amount) v) v := by
  unfold PaymentService.settleIntent
  split
  · -- A top-up only adds to the user's wallet.
    unfold PaymentService.settleTopup
    refine wp_getByUser_bind hv.1.2 (fun _ _ => trivial) fun v₁ id w t hprep _ _ => ?_
    rw [wp_bind]
    exact wp_credit (hv.later hprep.later hprep.held) fun _ _ h => h
  · -- An invoice takes what was held for it.
    unfold PaymentService.settleInvoice
    split
    · trivial
    rename_i iid _
    rw [wp_bind]
    refine wp_lockInvoice (fun _ _ => trivial) fun d l _ _ => ?_
    have hv := hv.lock (d := d) (l := .invoice iid) fun _ => by simp
    dsimp only
    rw [wp_ite]
    refine ⟨fun _ => hv.settled.settledIf, fun _ => ?_⟩
    rw [wp_bind]
    refine wp_lockOrder (fun _ _ => trivial) fun d o _ _ _ => ?_
    have hv := hv.lock (d := d) (l := .order l.orderId) fun _ => by simp
    dsimp only
    refine wp_getByUser_bind hv.1.2 (fun _ _ => trivial) fun v₁ id w t hprep _ _ => ?_
    rw [wp_bind]
    refine wp_fundHeld (hv.later hprep.later hprep.held) fun _ v hv => ?_
    exact wp_mono (fun _ _ h => h.settledIf) (robust_settled.keeps writesTo_settleInvoiceRecord
      (by decide) v hv)

/-- `handle_webhook` marks the intent `PAID`, which the constraints allow for a positive amount
only. -/
theorem wp_handleWebhook {a b : Bool} {e : Except Err PaymentService.WebhookEvent} {d₀ : Db} :
    wp reservePolicy.around (PaymentService.handleWebhook true now a b c e)
      (fun _ v => Settled v) (.start .empty d₀) := by
  refine wp_require_bind fun _ => wp_ofExcept_bind fun event _ => wp_require_bind fun _ => ?_
  unfold PaymentService.settleLocked
  rw [wp_bind]
  refine wp_lockByLink (fun _ _ => trivial) fun d i p _ hp _ => ?_
  have hv : Calm ⟨[.intent i], id, Memory.empty, d⟩ :=
    ⟨⟨fun _ => rfl, fun d => ⟨.refl _ d, fun k _ => .refl k d⟩⟩, fun _ => by simp⟩
  -- The row stays as it was read, since the session holds its lock.
  have hseen : SeenIntent i p ⟨[.intent i], id, Memory.empty, d⟩ := ⟨p, hp, rfl⟩
  dsimp only
  rw [wp_ite]
  refine ⟨fun _ => hv.settled, fun hnew => ?_⟩
  rw [wp_ite]
  constructor
  · exact fun _ => wp_after writesTo_flushIntent (by decide) hv.settled fun _ _ h => h
  · intro _
    refine wp_ofExcept_bind fun _ _ => wp_ofExcept_bind fun _ _ => wp_require_bind fun _ => ?_
    rw [wp_bind]
    refine wp_mono (fun _ v hv => ?_) (wp_and (wp_settleIntent hv)
      ((robust_seenIntent _).keeps writesTo_settleIntent (List.Subset.refl _) _ hseen))
    rw [wp_bind]
    exact wp_markIntentPaid (not_not.mp hnew) hv.1 hv.2

/-- The expiry of an intent lowers a hold. -/
theorem wp_expireIntent {l : Invoice} {x : Option (Id × PaymentIntent)} (hv : Calm v) :
    wp reservePolicy.around (Expiry.expireIntent true l x) (fun _ v => Settled v) v := by
  unfold Expiry.expireIntent
  split
  · exact hv.settled
  rw [wp_bind, wp_when]
  refine ⟨fun hpos => ?_, fun _ => robust_settled.keeps writesTo_flushIntent (by decide) v
    hv.settled⟩
  refine wp_getByUser_bind hv.1.2 (fun v₁ hl => ?_) fun v₁ id w t hprep _ _ => ?_
  · exact robust_settled.keeps writesTo_flushIntent (by decide) v₁
      (robust_settled.later hv.settled hl)
  · refine wp_releaseHeld (hv.later hprep.later hprep.held) fun v₂ h => ?_
    exact robust_settled.keeps writesTo_flushIntent (by decide) v₂ ⟨h.1, h.2 (le_of_lt hpos)⟩

/-- `_expire_invoice` leaves every wallet within its balance. -/
theorem wp_expireInvoice {i : Id} {d₀ : Db} :
    wp reservePolicy.around (Expiry.expireInvoice true now i)
      (fun _ v => Settled v) (.start .empty d₀) := by
  unfold Expiry.expireInvoice
  rw [wp_bind]
  refine wp_lockInvoice (fun d _ => (calm_start (d := d)).settled) fun d l _ _ => ?_
  -- Nothing was loaded or written when the lock is granted.
  have hv : Calm ⟨[.invoice i], id, Memory.empty, d⟩ :=
    ⟨⟨fun _ => rfl, fun d => ⟨.refl _ d, fun k _ => .refl k d⟩⟩, fun _ => by simp⟩
  dsimp only
  rw [wp_ite]
  refine ⟨fun _ => hv.settled, fun _ => wp_query_bind fun d hd => ?_⟩
  have hv := hv.rely (d := d)
  rw [wp_bind]
  refine wp_mono (fun _ v hv => ?_) (wp_expireIntent hv)
  refine wp_after writesTo_release (by decide) hv fun _ v hv => ?_
  refine wp_after writesTo_flushInvoice (by decide) hv fun _ v hv => ?_
  refine wp_after writesTo_lockOrder (List.nil_subset _) hv fun z v hv => ?_
  split
  · exact hv
  · exact wp_after (Prog.writes_when _ (.bind writesTo_assertTransition fun _ =>
      writesTo_flushOrder)) (by decide) hv fun _ _ h => h

/-- A withdrawal is requested within the available balance. -/
theorem wp_requestWithdrawal {x k : Id} {a : Decimal} {t : Text} {d₀ : Db} :
    wp reservePolicy.around (WithdrawalService.requestWithdrawal true s x k a t)
      (fun _ v => Settled v) (.start .empty d₀) := by
  unfold WithdrawalService.requestWithdrawal
  refine wp_query_bind fun d _ => ?_
  have hv : Calm (.start .empty d) := calm_start
  split
  · exact hv.settled
  refine wp_ofExcept_bind fun _ _ => wp_require_bind fun _ => ?_
  refine wp_getByUser_bind hv.1.2 (fun _ _ => trivial) fun v₁ id w t' hprep _ _ => ?_
  have hv₁ := hv.later hprep.later hprep.held
  rw [wp_bind]
  refine wp_reserveFunds fun v₂ loaded w n hn hl hw hle => ?_
  -- The insertion and the hold go out in one flush.
  refine wp_flushRequest hl hw rfl (fun d hh => ?_) fun v₃ _ hl₃ =>
    robust_settled.later hv₁.settled hl₃
  have hheld : Settled (heldTo id w (w.heldBalance + n) v₁ v₂ d) :=
    settled_of_holding hv₁.1.2 hv₁.current hv₁.bounded hh (fun _ _ => le_refl 0)
      fun _ _ _ _ => by omega
  refine Settled.mono (robust_settled.patch _ [.withdrawal x, .withdrawalKey k t] _
    (.mono (.insertWithdrawal (by simp) _) (by decide)) hheld) fun l hl => ?_
  simp only [heldTo, List.mem_append, List.mem_cons, List.not_mem_nil, or_false] at hl ⊢
  tauto

/-- The locked withdrawal was seen, and no wallet is locked. -/
theorem wp_getLocked {x : Id} {d₀ : Db} {Q : Withdrawal → TxView → Prop}
    (h : ∀ w v, Calm v → SeenWithdrawal x w v → Q w v) :
    wp reservePolicy.around (WithdrawalService.getLocked x) Q (.start .empty d₀) := by
  unfold WithdrawalService.getLocked
  rw [wp_bind]
  refine wp_lockFind (fun _ _ => trivial) fun d w _ _ hw => h w _ ?_ ⟨w, hw, rfl⟩
  exact ⟨⟨fun _ => rfl, fun d => ⟨.refl _ d, fun k _ => .refl k d⟩⟩, fun _ => by simp⟩

/-- A rejected withdrawal lowers the hold. -/
theorem wp_rejectWithdrawal {x a : Id} {r : Text} {d₀ : Db} :
    wp reservePolicy.around (WithdrawalService.reject true x a r)
      (fun _ v => Settled v) (.start .empty d₀) := by
  unfold WithdrawalService.reject
  rw [wp_bind]
  refine wp_getLocked fun w v hv hseen => ?_
  rw [wp_ite]
  refine ⟨fun _ => hv.settled, fun _ => wp_require_bind fun _ => ?_⟩
  rw [wp_bind]
  refine wp_mono (fun _ v h => wp_setStatus h.1 h.2) (wp_and (wp_releaseHeld hv fun _ h => h)
    ((robust_seenWithdrawal _).keeps writesTo_releaseHold (List.Subset.refl _) v hseen))

/-- A paid withdrawal lowers balance and hold by one amount. -/
theorem wp_markPaid {x a : Id} {d₀ : Db} :
    wp reservePolicy.around (WithdrawalService.markPaid true c x a)
      (fun _ v => Settled v) (.start .empty d₀) := by
  unfold WithdrawalService.markPaid
  rw [wp_bind]
  refine wp_getLocked fun w v hv hseen => ?_
  rw [wp_ite]
  refine ⟨fun _ => hv.settled, fun _ => wp_require_bind fun _ => ?_⟩
  rw [wp_bind]
  refine wp_mono (fun _ v h => wp_require_bind fun _ => wp_setStatus h.1 h.2) (wp_and
    (wp_withdrawal hv fun _ _ h => h)
    ((robust_seenWithdrawal _).keeps writesTo_payWithdrawal (List.Subset.refl _) v hseen))

end Requests

end ReserveProof

/-! ## Runs -/

/-- The requests that pay from a wallet, top it up, or hold, release or withdraw its money. -/
def Request.reserves : Request → Prop
  | .payInvoice .. | .handleWebhook .. | .expireInvoice .. | .expireTopupIntent ..
  | .createTopup .. | .requestWithdrawal .. | .approveWithdrawal .. | .rejectWithdrawal ..
  | .markPaid .. => True
  | _ => False

/-- Every such request follows the policy. -/
theorem ReserveProof.follows {s : Settings} {p : Tx Unit}
    (hp : Requested true s Request.reserves p) : reservePolicy.discipline.Follows .empty p := by
  obtain ⟨r, hr, rfl⟩ := hp
  have hsettled : ∀ d, wp reservePolicy.around (r.tx true s) (fun _ v => Settled v)
      (.start .empty d) := by
    intro d
    cases r with
    | payInvoice => exact wp_void wp_payInvoice
    | handleWebhook => exact wp_void wp_handleWebhook
    | expireInvoice => exact wp_void wp_expireInvoice
    | requestWithdrawal => exact wp_void wp_requestWithdrawal
    | rejectWithdrawal => exact wp_rejectWithdrawal
    | markPaid => exact wp_markPaid
    -- These requests write no wallet.
    | expireTopupIntent | createTopup | approveWithdrawal =>
      exact robust_settled.keeps (Request.writesTo true s _) (by simp [Request.tables, others]) _
        calm_start.settled
    | _ => exact hr.elim
  have htables : r.tables ⊆ reservePolicy.tables := by
    cases r <;> first
      | exact hr.elim
      | simp [Request.tables, reservePolicy, paymentTables]
  exact Policy.follows (r.writesTo true s) htables fun d _ =>
    wp_mono (fun _ _ h => safe_of_settled h) (hsettled d)

/-- In every run in which the wallet's lock is granted to a payment from the wallet alone while the
available balance covers it, every customer's and courier's wallet holds at most what it has. -/
theorem reserved_within_balance (s : Settings) (d₀ : Db) (h₀ : ReservesOk d₀)
    (sys : System Db Row Err Memory Unit)
    (hrun : System.Run (Requested true s Request.reserves) coverCurrent .empty d₀ sys) (id : Id)
    (w : Wallet) (hw : sys.db.wallets.get? id = some w)
    (hu : w.type = .customer ∨ w.type = .courier) :
    0 ≤ w.heldBalance ∧ w.heldBalance ≤ w.balance := by
  have hinv : ReservesOk sys.db :=
    Discipline.inv_of_run (fun p hp => ReserveProof.follows hp) h₀ hrun
  have h := hinv.held id w hw hu
  omega

/-- Two invoices of a customer with 100.00: one of 100.00, and one of 200.00. -/
def Sample.twoInvoices : Db :=
  { accounts (wallets 10000 0 0) with
    orders := twoOrders
    invoices := ⟨[(601, invoice .issued 0 0),
      (602, { invoice .issued 0 0 with
        orderId := 402, itemsNetAmount := 18000, netAfterDiscountAmount := 19000
        totalAmount := 20000 })], by simp⟩ }

/-- The wallets of the sample hold nothing. -/
theorem Sample.twoInvoices_reservesOk : ReservesOk twoInvoices where
  wallets := .of_rows (by decide)
  held id w hw hu := by
    have hrows : ∀ r ∈ twoInvoices.wallets.rows,
        r.2.type = .customer ∨ r.2.type = .courier →
          0 ≤ r.2.heldBalance ∧ r.2.heldBalance ≤ r.2.balance + 0 := by decide
    exact hrows (id, w) (Table.get?_eq_some.mp hw) hu

/-- The payment of one of the invoices by the customer. -/
def Sample.settle (intentId invoiceId : Id) : Tx Unit :=
  Request.tx true settings (.payInvoice 0 ⟨intentId, intentId + 100, gateway⟩ invoiceId 1)

/-- The payment is one of the requests. -/
theorem Sample.requested_settle (j i : Id) :
    Requested true settings Request.reserves (settle j i) :=
  ⟨.payInvoice 0 ⟨j, j + 100, gateway⟩ i 1, trivial, rfl⟩

/-- Two payments at once. The payment of the smaller invoice reads the order, then the payment of the
larger one holds all of the wallet, and the first one finds nothing available and leaves the hold as it
is. -/
theorem reserved_within_balance_split :
    ∃ sys : System Db Row Err Memory Unit,
      System.Run (Requested true Sample.settings Request.reserves) coverCurrent .empty
        Sample.twoInvoices sys ∧
      (sys.db.intents.get? 301).isSome ∧ (sys.db.intents.get? 302).isSome ∧
      ∃ w, sys.db.wallets.get? 11 = some w ∧ w.heldBalance = 10000 ∧ w.heldBalance ≤ w.balance := by
  obtain ⟨sys, hrun, hq⟩ := System.Run.exists_of_play
    (Requested true Sample.settings Request.reserves) coverCurrent .empty Sample.twoInvoices
    ([.start (Sample.settle 301 601), .start (Sample.settle 302 602)] ++
      -- The smaller payment stops before it reads what is available.
      List.replicate 3 (.step 0) ++ List.replicate 18 (.step 1) ++ List.replicate 11 (.step 0))
    (fun sys => (sys.db.intents.get? 301).isSome && (sys.db.intents.get? 302).isSome &&
      (sys.db.wallets.get? 11).any fun w => w.heldBalance = 10000 && w.type = .customer)
    (by
      intro p hp
      simp only [List.mem_append, List.mem_cons, List.mem_replicate, System.Event.start.injEq,
        List.not_mem_nil, reduceCtorEq, and_false, or_false] at hp
      rcases hp with rfl | rfl
      · exact Sample.requested_settle 301 601
      · exact Sample.requested_settle 302 602)
    (by decide +kernel)
  simp only [Bool.and_eq_true, decide_eq_true_eq, Option.any_eq_true] at hq
  obtain ⟨⟨hsmall, hlarge⟩, w, hw, hheld, htype⟩ := hq
  exact ⟨sys, hrun, hsmall, hlarge, w, hw, hheld, (reserved_within_balance Sample.settings
    Sample.twoInvoices Sample.twoInvoices_reservesOk sys hrun 11 w hw (.inl htype)).2⟩

/-- The payment of the smaller invoice reads an available balance of 100.00. Then the payment of the
larger one holds 100.00, and commits. The first payment still debits 100.00, since its posting only
checks the balance: 100.00 are held in an empty wallet. -/
theorem held_funds_are_spent :
    ReservesOk Sample.twoInvoices ∧
    ∃ sys : System Db Row Err Memory Unit,
      System.Run (Requested true Sample.settings Request.reserves) (System.always Db Row Memory)
        .empty Sample.twoInvoices sys ∧
      ∃ w, sys.db.wallets.get? 11 = some w ∧ w.type = .customer ∧ ¬w.heldBalance ≤ w.balance := by
  refine ⟨Sample.twoInvoices_reservesOk, ?_⟩
  obtain ⟨sys, hrun, hq⟩ := System.Run.exists_of_play
    (Requested true Sample.settings Request.reserves) (System.always Db Row Memory) .empty
    Sample.twoInvoices
    ([.start (Sample.settle 301 601), .start (Sample.settle 302 602)] ++
      -- The smaller payment has read what is available, and stops there.
      List.replicate 6 (.step 0) ++ List.replicate 18 (.step 1) ++ List.replicate 16 (.step 0))
    (fun sys => (sys.db.wallets.get? 11).any fun w : Wallet =>
      decide (w.type = .customer) && decide (w.balance < w.heldBalance))
    (by
      intro p hp
      simp only [List.mem_append, List.mem_cons, List.mem_replicate, System.Event.start.injEq,
        List.not_mem_nil, reduceCtorEq, and_false, or_false] at hp
      rcases hp with rfl | rfl
      · exact Sample.requested_settle 301 601
      · exact Sample.requested_settle 302 602)
    (by decide +kernel)
  simp only [Bool.and_eq_true, decide_eq_true_eq, Option.any_eq_true] at hq
  obtain ⟨w, hw, htype, hheld⟩ := hq
  exact ⟨sys, hrun, w, hw, htype, by omega⟩

end Giftly
