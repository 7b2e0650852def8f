import Giftly.Ledger.Returns
import Giftly.Serial.Couriers
import Giftly.Serial.Drawings

/-!
# Withdrawals over serial runs

The wallet of a courier holds the amounts of its withdrawals that are requested or approved, and has
what it holds; the ledger has exactly one group for each paid withdrawal and none for any other, and
these groups are all that the ledger ever takes from the wallet. `DrawnOk` is the part of the
invariant about the rows and the holds, `PaidOutOk` the part about the ledger. Requests about deals
keep both because they spare couriers (`Books.Spares`), requests about withdrawals by cases
(`Drawing`). That an approved withdrawal can be paid, and that a retried request is answered with the
first one, follows from the invariant.
-/

namespace Giftly

open Store
open WalletRepository MoneyService

/-! ## What is held and what was taken -/

/-- The amount of a withdrawal is held: it was requested, and neither rejected nor paid. -/
def Withdrawal.outstanding (x : Withdrawal) : Bool := x.status = .requested || x.status = .approved

/-- What a withdrawal holds of a wallet. -/
def Withdrawal.heldFrom (walletId : Id) (x : Withdrawal) : ℤ :=
  if x.walletId = walletId ∧ x.outstanding = true then x.amount else 0

/-- What a withdrawal has taken from a wallet. -/
def Withdrawal.takenFrom (walletId : Id) (x : Withdrawal) : ℤ :=
  if x.walletId = walletId ∧ x.status = .paid then x.amount else 0

/-- The amounts of the requested and approved withdrawals from a wallet. -/
def Db.outstandingFrom (d : Db) (walletId : Id) : ℤ :=
  d.withdrawals.sum fun _ x => x.heldFrom walletId

/-- The amounts of the paid withdrawals from a wallet. -/
def Db.paidFrom (d : Db) (walletId : Id) : ℤ := d.withdrawals.sum fun _ x => x.takenFrom walletId

/-- What rows of the ledger take from a wallet. -/
def debited (walletId : Id) (ts : List Transaction) : ℤ :=
  (ts.map fun t => if t.walletId = walletId ∧ t.amount < 0 then -t.amount else 0).sum

/-- The ledger has exactly one group for a withdrawal, and it moves the amount from the wallet to the
gateway. -/
def Db.PaidOnce (d : Db) (id : Id) (x : Withdrawal) : Prop :=
  ∃ before t t' after, d.transactions = before ++ [t, t'] ++ after ∧
    (t.walletId = x.walletId ∧ t.amount = -x.amount ∧ t.idempotencyKey = some (.paid id)) ∧
    (IsSystem d .systemGateway t'.walletId ∧ t'.amount = x.amount ∧ t'.idempotencyKey = none) ∧
    (t.correlationId = t'.correlationId ∧ t.status = .settled ∧ t'.status = .settled) ∧
    .paid id ∉ ledgerKeys (before ++ after)

section Sums

variable {d : Db} {id wid : Id} {x x' : Withdrawal}

/-- The constraints of a withdrawal row, one by one. -/
theorem Withdrawal.check_eq_none : x.check = none ↔ fitsMoney x.amount = true ∧
    fitsText 128 x.idempotencyKey = true ∧ fitsText 255 x.rejectionReason = true ∧
      5000 ≤ x.amount := by
  simp [check, violated_eq_none, and_assoc]

/-- The constraints ask for a positive amount of a withdrawal. -/
theorem Withdrawal.amount_pos (h : x.check = none) : 0 < x.amount := by
  have hmin := (check_eq_none.mp h).2.2.2
  omega

/-- A withdrawal holds nothing negative. -/
theorem Withdrawal.heldFrom_nonneg (h : x.check = none) : 0 ≤ x.heldFrom wid := by
  have hpos := amount_pos h
  unfold heldFrom
  split_ifs <;> omega

/-- What an open withdrawal holds. -/
theorem Withdrawal.heldFrom_of_outstanding (h : x.outstanding = true) :
    x.heldFrom wid = if wid = x.walletId then x.amount else 0 := by
  unfold heldFrom
  rw [h]
  simp [eq_comm]

/-- A withdrawal that was rejected or paid holds nothing. -/
theorem Withdrawal.heldFrom_of_closed (h : x.outstanding = false) : x.heldFrom wid = 0 := by
  unfold heldFrom
  simp [h]

/-- What the rows of a ledger take, over two parts of it. -/
theorem debited_append (ts us : List Transaction) :
    debited wid (ts ++ us) = debited wid ts + debited wid us := by
  unfold debited
  rw [List.map_append, List.sum_append]

/-- Credits take nothing. -/
theorem debited_eq_zero {ts : List Transaction}
    (h : ∀ t ∈ ts, t.walletId = wid → 0 ≤ t.amount) : debited wid ts = 0 := by
  apply List.sum_eq_zero
  intro n hn
  obtain ⟨t, ht, rfl⟩ := List.mem_map.mp hn
  have hamount := h t ht
  split_ifs with hcond
  · have hpos := hamount hcond.1
    omega
  · rfl

end Sums

/-! ## The invariant -/

/-- The rows of the withdrawals and the holds for them. -/
structure DrawnOk (d : Db) : Prop where
  /-- A withdrawal meets its constraints. -/
  row : ∀ id x, d.withdrawals.get? id = some x → x.check = none
  /-- A withdrawal is from the wallet of its courier. -/
  owner : ∀ id x, d.withdrawals.get? id = some x → d.books.OfCourier x.walletId ∧
    ∃ w, d.wallets.get? x.walletId = some w ∧ w.userId = some x.courierId
  /-- The wallet of a courier holds the outstanding amounts, and has them. -/
  held : ∀ wid w, d.books.OfCourier wid → d.wallets.get? wid = some w →
    w.heldBalance = d.outstandingFrom wid ∧ w.heldBalance ≤ w.balance
  /-- A courier has one withdrawal at most for an idempotency key. -/
  keyed : ∀ id id' x x' key, d.withdrawals.get? id = some x → d.withdrawals.get? id' = some x' →
    x.courierId = x'.courierId → x.idempotencyKey = some key → x'.idempotencyKey = some key → id = id'

/-- The ledger and the paid withdrawals. -/
structure PaidOutOk (d : Db) : Prop where
  /-- What is not paid has no group. -/
  unpaid : ∀ id, (∀ x, d.withdrawals.get? id = some x → x.status ≠ .paid) →
    .paid id ∉ ledgerKeys d.transactions
  /-- What is paid has one group, of its amount. -/
  paid : ∀ id x, d.withdrawals.get? id = some x → x.status = .paid → d.PaidOnce id x
  /-- Nothing else is taken from the wallet of a courier. -/
  debits : ∀ wid, d.books.OfCourier wid → debited wid d.transactions = d.paidFrom wid

/-- The owners of the wallets and the roles of the users stay. -/
theorem Db.Evolves.owners {ts : List Tbl} {d d' : Db} (h : d.Evolves ts d') {id : Id} :
    (∀ w, d.wallets.get? id = some w →
      ∃ w', d'.wallets.get? id = some w' ∧ w'.userId = w.userId ∧ w'.type = w.type) ∧
    ∀ w', d'.wallets.get? id = some w' →
      ∃ w, d.wallets.get? id = some w ∧ w'.userId = w.userId ∧ w'.type = w.type := by
  have hrow := h.wallets id
  constructor
  · intro w hw
    rw [hw, Option.map_some] at hrow
    obtain ⟨w', hw', hf⟩ := Option.map_eq_some_iff.mp hrow
    simp only [Wallet.frozen, Prod.mk.injEq] at hf
    exact ⟨w', hw', hf⟩
  · intro w' hw'
    rw [hw', Option.map_some] at hrow
    obtain ⟨w, hw, hf⟩ := Option.map_eq_some_iff.mp hrow.symm
    simp only [Wallet.frozen, Prod.mk.injEq] at hf
    exact ⟨w, hw, hf.1.symm, hf.2.symm⟩

/-- Whose wallet it is depends on frozen columns. -/
theorem Db.Evolves.ofCourier {ts : List Tbl} {d d' : Db} (h : d.Evolves ts d') {id : Id} :
    d'.books.OfCourier id ↔ d.books.OfCourier id := by
  have husers : d'.books.users = d.books.users := h.users
  constructor
  · rintro ⟨w', u, v, hw', hu, hv, hrole⟩
    obtain ⟨w, hw, howner, -⟩ := h.owners.2 w' hw'
    exact ⟨w, u, v, hw, howner ▸ hu, husers ▸ hv, hrole⟩
  · rintro ⟨w, u, v, hw, hu, hv, hrole⟩
    obtain ⟨w', hw', howner, -⟩ := h.owners.1 w hw
    exact ⟨w', u, v, hw', howner.trans hu, husers ▸ hv, hrole⟩

/-- The type of a wallet is a frozen column. -/
theorem IsSystem.evolves {ts : List Tbl} {d d' : Db} {t : WalletType} {id : Id}
    (h : IsSystem d t id) (hev : d.Evolves ts d') : IsSystem d' t id := by
  obtain ⟨w, hw, ht, hu⟩ := h
  obtain ⟨w', hw', howner, htype⟩ := hev.owners.1 w hw
  exact ⟨w', hw', htype.trans ht, howner.trans hu⟩

/-- A group stays the only one while the ledger grows by rows without its key. -/
theorem Db.PaidOnce.grows {ts : List Tbl} {d d' : Db} {id : Id} {x x' : Withdrawal}
    {us : List Transaction} (h : d.PaidOnce id x) (hev : d.Evolves ts d')
    (ht : d'.transactions = d.transactions ++ us) (hkey : .paid id ∉ ledgerKeys us)
    (hx : x'.walletId = x.walletId ∧ x'.amount = x.amount) : d'.PaidOnce id x' := by
  obtain ⟨before, t, t', after, heq, hdebit, hcredit, hgroup, hnot⟩ := h
  refine ⟨before, t, t', after ++ us, ?_, ?_, ?_, hgroup, ?_⟩
  · rw [ht, heq, List.append_assoc _ after us]
  · rw [hx.1, hx.2]
    exact hdebit
  · rw [hx.2]
    exact ⟨hcredit.1.evolves hev, hcredit.2⟩
  · rw [← List.append_assoc, ledgerKeys_append, List.mem_append, not_or]
    exact ⟨hnot, hkey⟩

/-! ## Requests about deals -/

section Steps

variable {ts : List Tbl} {d d' : Db} {id : Id} {x x' : Withdrawal}

/-- Requests that spare couriers and write no withdrawal. -/
theorem DrawnOk.spared (h : DrawnOk d) (hev : d.Evolves ts d')
    (hw : d'.withdrawals = d.withdrawals) (hs : d.books.Spares d'.books) : DrawnOk d' where
  row := by
    rw [hw]
    exact h.row
  owner id x hx := by
    rw [hw] at hx
    obtain ⟨hcourier, w, hget, hu⟩ := h.owner id x hx
    obtain ⟨w', hget', hu', -⟩ := hev.owners.1 w hget
    exact ⟨hev.ofCourier.mpr hcourier, w', hget', hu'.trans hu⟩
  -- A courier's wallet keeps what it holds, and its balance does not fall.
  held wid w' hcourier hget' := by
    have hcourier₀ := hev.ofCourier.mp hcourier
    obtain ⟨w, hget, -⟩ := hev.owners.2 w' hget'
    obtain ⟨v, hv, hheld, hbalance⟩ := hs.wallets wid w hcourier₀ hget
    obtain rfl : w' = v := Option.some.inj (hget'.symm.trans hv)
    obtain ⟨hsum, hle⟩ := h.held wid w hcourier₀ hget
    constructor
    · rw [hheld, hsum]
      unfold Db.outstandingFrom
      rw [hw]
    · omega
  keyed := by
    rw [hw]
    exact h.keyed

/-- The paid withdrawals are in the ledger still when no courier's wallet is touched. -/
theorem PaidOutOk.spared (h : PaidOutOk d) (hev : d.Evolves ts d')
    (hw : d'.withdrawals = d.withdrawals) (hs : d.books.Spares d'.books) : PaidOutOk d' := by
  obtain ⟨us, ht, hkeys, hcredits⟩ := hs.rows
  have ht : d'.transactions = d.transactions ++ us := ht
  refine ⟨fun id hunpaid => ?_, fun id x hx hst => ?_, fun wid hcourier => ?_⟩
  · rw [hw] at hunpaid
    rw [ht, ledgerKeys_append, List.mem_append, not_or]
    exact ⟨h.unpaid id hunpaid, hkeys id⟩
  · rw [hw] at hx
    exact (h.paid id x hx hst).grows hev ht (hkeys id) ⟨rfl, rfl⟩
  · have hcourier₀ := hev.ofCourier.mp hcourier
    have hzero : debited wid us = 0 := debited_eq_zero fun t hmem heq =>
      hcredits t hmem (heq ▸ hcourier₀)
    have hsame : d'.paidFrom wid = d.paidFrom wid := by
      unfold Db.paidFrom
      rw [hw]
    rw [ht, debited_append, hzero, add_zero, hsame]
    exact h.debits wid hcourier₀

/-! ## Requests about withdrawals -/

/-- A write of one withdrawal, with the change of its wallet's hold. -/
theorem DrawnOk.write (h : DrawnOk d) (hev : d.Evolves ts d')
    (hw : d'.withdrawals = d.withdrawals.set id x')
    (hrow : x'.check = none) (howner : d.books.OfCourier x'.walletId ∧
      ∃ w, d.wallets.get? x'.walletId = some w ∧ w.userId = some x'.courierId)
    (hkey : ∀ j y key, d.withdrawals.get? j = some y → y.courierId = x'.courierId →
      y.idempotencyKey = some key → x'.idempotencyKey = some key → j = id)
    (hheld : ∀ wid w w', d.books.OfCourier wid → d.wallets.get? wid = some w →
      d'.wallets.get? wid = some w' → w'.heldBalance = w.heldBalance -
        ((d.withdrawals.get? id).map fun y => y.heldFrom wid).getD 0 + x'.heldFrom wid ∧
        w'.heldBalance ≤ w'.balance) : DrawnOk d' where
  row j y hy := by
    rw [hw, Table.get?_set] at hy
    split_ifs at hy
    · obtain rfl := Option.some.inj hy
      exact hrow
    · exact h.row j y hy
  owner j y hy := by
    have hown : d.books.OfCourier y.walletId ∧
        ∃ w, d.wallets.get? y.walletId = some w ∧ w.userId = some y.courierId := by
      rw [hw, Table.get?_set] at hy
      split_ifs at hy
      · obtain rfl := Option.some.inj hy
        exact howner
      · exact h.owner j y hy
    obtain ⟨hcourier, w, hget, hu⟩ := hown
    obtain ⟨w', hget', hu', -⟩ := hev.owners.1 w hget
    exact ⟨hev.ofCourier.mpr hcourier, w', hget', hu'.trans hu⟩
  held wid w' hcourier hget' := by
    have hcourier₀ := hev.ofCourier.mp hcourier
    obtain ⟨w, hget, -⟩ := hev.owners.2 w' hget'
    obtain ⟨hchange, hle⟩ := hheld wid w w' hcourier₀ hget hget'
    obtain ⟨hsum, -⟩ := h.held wid w hcourier₀ hget
    refine ⟨?_, hle⟩
    -- One row changes, so the sum changes by the difference of its amounts.
    have hnew : d'.outstandingFrom wid = d.outstandingFrom wid -
        ((d.withdrawals.get? id).map fun y => y.heldFrom wid).getD 0 + x'.heldFrom wid := by
      unfold Db.outstandingFrom
      rw [hw]
      exact Table.sum_set _ _ _ _
    rw [hchange, hnew, hsum]
  -- A row with the new row's courier and key is the new row itself.
  keyed j k y z key hy hz hcourier hykey hzkey := by
    rw [hw, Table.get?_set] at hy hz
    split_ifs at hy hz with hj hk hk
    · rw [hj, hk]
    · obtain rfl := Option.some.inj hy
      rw [hj]
      exact (hkey k z key hz hcourier.symm hzkey hykey).symm
    · obtain rfl := Option.some.inj hz
      rw [hk]
      exact hkey j y key hy hcourier hykey hzkey
    · exact h.keyed j k y z key hy hz hcourier hykey hzkey

/-- A write of one withdrawal that neither was nor is paid. -/
theorem PaidOutOk.write (h : PaidOutOk d) (hev : d.Evolves ts d')
    (hw : d'.withdrawals = d.withdrawals.set id x') (ht : d'.transactions = d.transactions)
    (hold : ∀ y, d.withdrawals.get? id = some y → y.status ≠ .paid) (hnew : x'.status ≠ .paid) :
    PaidOutOk d' where
  unpaid j hunpaid := by
    rw [ht]
    apply h.unpaid j
    intro y hy
    by_cases hj : j = id
    · exact hold y (hj ▸ hy)
    · apply hunpaid y
      rw [hw, Table.get?_set, if_neg hj]
      exact hy
  paid j y hy hst := by
    rw [hw, Table.get?_set] at hy
    split_ifs at hy with hj
    · obtain rfl := Option.some.inj hy
      exact absurd hst hnew
    · exact (h.paid j y hy hst).grows hev (by rw [ht, List.append_nil]) (by simp [ledgerKeys])
        ⟨rfl, rfl⟩
  debits wid hcourier := by
    -- Neither the old row nor the new one is paid, so neither takes from the wallet.
    have hzero : x'.takenFrom wid = 0 := if_neg fun hc => hnew hc.2
    have hzero' : ((d.withdrawals.get? id).map fun y => y.takenFrom wid).getD 0 = 0 := by
      cases hget : d.withdrawals.get? id with
      | none => rfl
      | some y => exact if_neg fun hc => hold y hget hc.2
    have hsame : d'.paidFrom wid = d.paidFrom wid := by
      have hset : d'.paidFrom wid = d.paidFrom wid -
          ((d.withdrawals.get? id).map fun y => y.takenFrom wid).getD 0 + x'.takenFrom wid := by
        unfold Db.paidFrom
        rw [hw]
        exact Table.sum_set _ _ _ _
      omega
    rw [ht, hsame]
    exact h.debits wid (hev.ofCourier.mp hcourier)

/-- The one group of a payout: the debit of the wallet, and the credit of the gateway. -/
theorem PostedGroup.withdrawal {c wid g : Id} {n : ℤ}
    (h : PostedGroup c (withdrawalLegs wid g id n) d d') :
    ∃ t t', d'.transactions = d.transactions ++ [t, t'] ∧
      (t.walletId = wid ∧ t.amount = -n ∧ t.idempotencyKey = some (.paid id)) ∧
      (t'.walletId = g ∧ t'.amount = n ∧ t'.idempotencyKey = none) ∧
      (t.correlationId = t'.correlationId ∧ t.status = .settled ∧ t'.status = .settled) ∧
      .paid id ∉ ledgerKeys d.transactions := by
  have hzero := h.zero
  obtain ⟨us, hp⟩ := h
  -- The legs sum to zero, so the debit is exactly the amount.
  have hneg : (Dec.cents n).neg.coeff = -n := by
    simp only [withdrawalLegs, List.map_cons, List.map_nil, List.sum_cons, List.sum_nil] at hzero
    have hcoeff : (Dec.cents n).coeff = n := rfl
    omega
  have hfresh := hp.fresh (.paid id) (by simp)
  have hrows := hp.rows
  unfold withdrawalLegs at hrows
  obtain ⟨t, us₁, hdebit, hrest, rfl⟩ := List.forall₂_cons_left_iff.mp hrows
  obtain ⟨t', us₂, hcredit, hnil, rfl⟩ := List.forall₂_cons_left_iff.mp hrest
  obtain rfl := List.forall₂_nil_left_iff.mp hnil
  refine ⟨t, t', ?_, ⟨hdebit.walletId, ?_, hdebit.idempotencyKey⟩,
    ⟨hcredit.walletId, hcredit.amount, hcredit.idempotencyKey⟩, ⟨?_, hdebit.status, hcredit.status⟩,
    hfresh⟩
  · rw [hp.eq]
    rfl
  · rw [hdebit.amount]
    exact hneg
  · rw [hdebit.correlationId, hcredit.correlationId]

/-- The payout of a withdrawal. -/
theorem PaidOutOk.pay (h : PaidOutOk d) (hev : d.Evolves ts d') {c g : Id}
    (hx : d.withdrawals.get? id = some x) (hst : x.status ≠ .paid) (hpos : 0 < x.amount)
    (hg : IsSystem d .systemGateway g) {d₁ : Db}
    (hp : PostedGroup c (withdrawalLegs x.walletId g id x.amount) d d₁)
    (ht : d'.transactions = d₁.transactions) (hw : d'.withdrawals = d.withdrawals.set id x')
    (hx' : x'.walletId = x.walletId ∧ x'.amount = x.amount ∧ x'.status = .paid) : PaidOutOk d' := by
  obtain ⟨t, t', hgroup, hdebit, hcredit, hboth, hfresh⟩ := hp.withdrawal
  rw [← ht] at hgroup
  have hkeys : ledgerKeys [t, t'] = [.paid id] := by
    simp [ledgerKeys, hdebit.2.2, hcredit.2.2]
  have hget : ∀ j, d'.withdrawals.get? j = if j = id then some x' else d.withdrawals.get? j := by
    intro j
    rw [hw, Table.get?_set]
  refine ⟨fun j hunpaid => ?_, fun j y hy hyst => ?_, fun wid hcourier => ?_⟩
  -- The withdrawals that are not paid still have no group.
  · have hj : j ≠ id := by
      rintro rfl
      exact hunpaid x' (by rw [hget, if_pos rfl]) hx'.2.2
    rw [hgroup, ledgerKeys_append, List.mem_append, not_or, hkeys]
    refine ⟨h.unpaid j fun y hy => hunpaid y ?_, by simp [hj]⟩
    rw [hget, if_neg hj]
    exact hy
  -- This withdrawal has the new group, and the others keep theirs.
  · rw [hget] at hy
    split_ifs at hy with hj
    · obtain rfl := Option.some.inj hy
      subst hj
      refine ⟨d.transactions, t, t', [], ?_, ?_, ?_, hboth, ?_⟩
      · rw [hgroup, List.append_nil]
      · rw [hx'.1, hx'.2.1]
        exact hdebit
      · rw [hx'.2.1, hcredit.1]
        exact ⟨hg.evolves hev, hcredit.2⟩
      · rwa [List.append_nil]
    · exact (h.paid j y hy hyst).grows hev hgroup (by rw [hkeys]; simpa using hj) ⟨rfl, rfl⟩
  · have hcourier₀ := hev.ofCourier.mp hcourier
    -- Of the two rows, the wallet of a courier can only have the debit.
    have hrows : debited wid [t, t'] = if x.walletId = wid then x.amount else 0 := by
      have hcreditZero : ¬(t'.walletId = wid ∧ t'.amount < 0) := fun hc => by
        have := hcredit.2.1
        omega
      simp only [debited, List.map_cons, List.map_nil, List.sum_cons, List.sum_nil,
        if_neg hcreditZero, hdebit.1, hdebit.2.1]
      have hneg : -x.amount < 0 := by omega
      by_cases hid : x.walletId = wid
      · rw [if_pos ⟨hid, hneg⟩, if_pos hid]
        omega
      · rw [if_neg fun hc => hid hc.1, if_neg hid]
        omega
    have htaken : d'.paidFrom wid = d.paidFrom wid + if x.walletId = wid then x.amount else 0 := by
      have hset : d'.paidFrom wid = d.paidFrom wid -
          ((d.withdrawals.get? id).map fun y => y.takenFrom wid).getD 0 + x'.takenFrom wid := by
        unfold Db.paidFrom
        rw [hw]
        exact Table.sum_set _ _ _ _
      have hold : x.takenFrom wid = 0 := if_neg fun hc => hst hc.2
      have hnew : x'.takenFrom wid = if x.walletId = wid then x.amount else 0 := by
        unfold Withdrawal.takenFrom
        rw [hx'.1, hx'.2.1, hx'.2.2]
        simp
      rw [hset, hx, Option.map_some, Option.getD_some, hold, hnew]
      omega
    rw [hgroup, debited_append, hrows, htaken, h.debits wid hcourier₀]

/-- What a withdrawal holds is part of what its wallet holds. -/
theorem DrawnOk.le_held (h : DrawnOk d) (hx : d.withdrawals.get? id = some x)
    (hout : x.outstanding = true) {w : Wallet} (hw : d.wallets.get? x.walletId = some w) :
    x.amount ≤ w.heldBalance := by
  obtain ⟨hcourier, -⟩ := h.owner id x hx
  obtain ⟨hsum, -⟩ := h.held x.walletId w hcourier hw
  have hpart : x.heldFrom x.walletId ≤ d.outstandingFrom x.walletId := by
    refine Table.le_sum (fun j y hy => ?_) hx
    exact y.heldFrom_nonneg (h.row j y hy)
  have hamount : x.heldFrom x.walletId = x.amount := if_pos ⟨rfl, hout⟩
  omega

/-- A wallet after its held balance was set. -/
theorem Db.get?_setHeld {w w' v : Wallet} {wid j : Id} {n : ℤ} (hw : d.wallets.get? wid = some w)
    (hj : d.wallets.get? j = some v) (hj' : (d.setHeld wid w n).wallets.get? j = some w') :
    w'.balance = v.balance ∧ w'.heldBalance = if j = wid then n else v.heldBalance := by
  rcases Books.get?_wallets_setHeld (b := d.books) hw hj' with ⟨hid, rfl⟩ | ⟨hid, hsame⟩
  · obtain rfl : w = v := Option.some.inj (hw.symm.trans (hid ▸ hj))
    rw [if_pos hid]
    exact ⟨rfl, rfl⟩
  · obtain rfl : v = w' := Option.some.inj (hj.symm.trans hsame)
    rw [if_neg hid]
    exact ⟨rfl, rfl⟩

/-- The columns of a withdrawal that its status does not touch keep its key its own. -/
theorem DrawnOk.key_of_moved (h : DrawnOk d) (hx : d.withdrawals.get? id = some x)
    (hx' : x'.courierId = x.courierId ∧ x'.idempotencyKey = x.idempotencyKey) :
    ∀ j y key, d.withdrawals.get? j = some y → y.courierId = x'.courierId →
      y.idempotencyKey = some key → x'.idempotencyKey = some key → j = id := by
  intro j y key hy hcourier hykey hxkey
  exact h.keyed j id y x key hy hx (hcourier.trans hx'.1) hykey (hx'.2 ▸ hxkey)

/-- The group of a withdrawal takes the amount from its wallet, and no courier's hold. -/
theorem PostedGroup.courier_wallet {c g j : Id} {d₁ : Db} {u u' : Wallet}
    (hp : PostedGroup c (withdrawalLegs x.walletId g id x.amount) d d₁)
    (hg : IsSystem d .systemGateway g) (hj : d.books.OfCourier j) (hu : d.wallets.get? j = some u)
    (hu' : d₁.wallets.get? j = some u') : u'.heldBalance = u.heldBalance ∧
      u'.balance = u.balance - if j = x.walletId then x.amount else 0 := by
  have hposts := hp.books
  obtain ⟨u₀, hu₀, -, hheld, hbalance⟩ := hposts.wallet hu'
  obtain rfl : u = u₀ := Option.some.inj (hu.symm.trans hu₀)
  refine ⟨hheld, ?_⟩
  -- The gateway is no courier's wallet.
  have hgateway : g ≠ j := by
    rintro rfl
    exact Books.IsSystem.not_ofCourier (b := d.books) hg hj
  have hzero := hp.zero
  simp only [withdrawalLegs, List.map_cons, List.map_nil, List.sum_cons, List.sum_nil] at hzero
  have hcoeff : (Dec.cents x.amount).coeff = x.amount := rfl
  rw [hbalance]
  by_cases hid : x.walletId = j
  · simp [withdrawalLegs, hgateway, hid]
    omega
  · simp [withdrawalLegs, hgateway, hid, Ne.symm hid]

/-- What requests about withdrawals keep. -/
theorem DrawnOk.step {r : Request} (h : DrawnOk d) (hpaid : PaidOutOk d) (hev : d.Evolves ts d')
    (hr : r.asRouted d) (hdraw : Drawing d r d') : DrawnOk d' ∧ PaidOutOk d' := by
  cases hdraw with
  | idle => exact ⟨h, hpaid⟩
  | @requested id k n key x w hfree hx hrow' hsole hw hle =>
    obtain ⟨hrow, howner⟩ := Table.find?_eq_some hw
    have howner : w.userId = some k := by simpa using howner
    obtain ⟨v, hv, hrole⟩ := hr
    have hcourier : d.books.OfCourier x.walletId := ⟨w, k, v, hrow, howner, hv, hrole⟩
    constructor
    -- The hold grows by the new row, and the wallet had the amount available.
    · refine h.write hev rfl hrow' ⟨hcourier, w, hrow, by rw [hx.1]; exact howner⟩ ?_ ?_
      · intro j y key' hy hyk hykey hxkey
        rw [hx.2.2, Option.some.injEq] at hxkey
        exact absurd (hxkey ▸ hykey) (hsole j y hy (hyk.trans hx.1))
      · intro wid v v' hcourier' hv hv'
        obtain ⟨hbalance, hheld⟩ := Db.get?_setHeld hrow hv hv'
        obtain ⟨-, hcovered⟩ := h.held wid v hcourier' hv
        have hnew : x.heldFrom wid = if wid = x.walletId then x.amount else 0 :=
          Withdrawal.heldFrom_of_outstanding (by simp [Withdrawal.outstanding, hx.2.1])
        rw [hfree, Option.map_none, Option.getD_none, hnew, hheld, hbalance]
        split_ifs with hid
        · obtain rfl : w = v := Option.some.inj (hrow.symm.trans (hid ▸ hv))
          omega
        · omega
    · refine hpaid.write hev rfl rfl (fun y hy => ?_) (by rw [hx.2.1]; decide)
      rw [hfree] at hy
      cases hy
  | @approved id a x hx hst hrow =>
    constructor
    · refine h.write hev rfl hrow (h.owner id x hx) (h.key_of_moved hx ⟨rfl, rfl⟩) ?_
      intro wid v v' hcourier hv hv'
      obtain rfl : v = v' := Option.some.inj (hv.symm.trans hv')
      obtain ⟨-, hcovered⟩ := h.held wid v hcourier hv
      have hsame : (x.moved .approved a none).heldFrom wid = x.heldFrom wid := by
        unfold Withdrawal.heldFrom Withdrawal.outstanding
        rw [hst]
        rfl
      rw [hx, Option.map_some, Option.getD_some, hsame]
      omega
    · refine hpaid.write hev rfl rfl (fun y hy => ?_) (by simp [Withdrawal.moved])
      obtain rfl : x = y := Option.some.inj (hx.symm.trans hy)
      rw [hst]
      decide
  | @rejected id a why x w hx hst hrow hw =>
    have hout : x.outstanding = true := by
      unfold Withdrawal.outstanding
      rcases hst with hst | hst <;> simp [hst]
    have hle := h.le_held hx hout hw
    constructor
    · refine h.write hev rfl hrow (h.owner id x hx) (h.key_of_moved hx ⟨rfl, rfl⟩) ?_
      intro wid v v' hcourier hv hv'
      obtain ⟨hbalance, hheld⟩ := Db.get?_setHeld hw hv hv'
      obtain ⟨-, hcovered⟩ := h.held wid v hcourier hv
      have hold : x.heldFrom wid = if wid = x.walletId then x.amount else 0 :=
        Withdrawal.heldFrom_of_outstanding hout
      have hnew : (x.moved .rejected a (some why)).heldFrom wid = 0 :=
        Withdrawal.heldFrom_of_closed rfl
      rw [hx, Option.map_some, Option.getD_some, hold, hnew, hheld, hbalance]
      -- The hold covers the amount, so the clamp at zero takes no effect.
      split_ifs with hid
      · obtain rfl : w = v := Option.some.inj (hw.symm.trans (hid ▸ hv))
        have hpos := Withdrawal.amount_pos (h.row id x hx)
        omega
      · omega
    · refine hpaid.write hev rfl rfl (fun y hy => ?_) (by simp [Withdrawal.moved])
      obtain rfl : x = y := Option.some.inj (hx.symm.trans hy)
      rcases hst with hst | hst <;> (rw [hst]; decide)
  | @paid c id a x g w d₁ hx hst hrow hg hp hw hcheck hadmin =>
    have hpos := Withdrawal.amount_pos (h.row id x hx)
    obtain ⟨hcourier₀, w₀, hw₀, howner⟩ := h.owner id x hx
    have hout : x.outstanding = true := by
      unfold Withdrawal.outstanding
      simp [hst]
    have hle := h.le_held hx hout hw₀
    have hd₁ : d₁.withdrawals = d.withdrawals := by
      obtain ⟨us, hposted⟩ := hp
      rw [hposted.eq]
      rfl
    have hrows : (d₁.setWithdrawal id (x.moved .paid a none)).withdrawals =
        d.withdrawals.set id (x.moved .paid a none) := by
      unfold Db.setWithdrawal
      rw [hd₁]
    constructor
    · refine h.write hev hrows hrow (h.owner id x hx) (h.key_of_moved hx ⟨rfl, rfl⟩) ?_
      intro wid v v' hcourier hv hv'
      have hsome : ∃ u, d₁.wallets.get? wid = some u := by
        obtain ⟨us, hposted⟩ := hp
        rw [hposted.eq]
        exact ⟨creditRows us wid v, by simp [Db.post, Table.get?_mapRows, hv]⟩
      obtain ⟨u, hu⟩ := hsome
      -- The wallet between the group and the return of the hold.
      obtain ⟨hheldu, hbalanceu⟩ := hp.courier_wallet hg hcourier hv hu
      obtain ⟨hheldw, -⟩ := hp.courier_wallet hg hcourier₀ hw₀ hw
      obtain ⟨hbalance, hheld⟩ := Db.get?_setHeld hw hu hv'
      obtain ⟨-, hcovered⟩ := h.held wid v hcourier hv
      have hold : x.heldFrom wid = if wid = x.walletId then x.amount else 0 :=
        Withdrawal.heldFrom_of_outstanding hout
      have hnew : (x.moved .paid a none).heldFrom wid = 0 := Withdrawal.heldFrom_of_closed rfl
      rw [hx, Option.map_some, Option.getD_some, hold, hnew, hheld, hbalance, hbalanceu, hheldu]
      split_ifs with hid
      · obtain rfl : w₀ = v := Option.some.inj (hw₀.symm.trans (hid ▸ hv))
        omega
      · omega
    · exact hpaid.pay hev hx (by rw [hst]; decide) hpos hg hp rfl hrows ⟨rfl, rfl, rfl⟩

end Steps

/-! ## Runs -/

/-- What holds in every state of a run in which the callers have the roles that the routes demand. -/
structure WithdrawalsOk (d : Db) : Prop extends DrawnOk d, PaidOutOk d where
  index : WalletIndex d
  deals : DealsOk d.books
  payers : PayersOk d.books
  fits : d.books.Fits
  nodup : (ledgerKeys d.transactions).Nodup

section Runs

variable {refresh : Bool} {s : Settings} {d₀ d : Db}

/-- An opening database has no withdrawals, and its wallets hold nothing. -/
theorem Opening.withdrawalsOk (h : Opening d) : WithdrawalsOk d where
  row id x hx := by
    rw [h.withdrawals, Table.get?_empty] at hx
    cases hx
  owner id x hx := by
    rw [h.withdrawals, Table.get?_empty] at hx
    cases hx
  -- Without withdrawals nothing is held, and the tables start that way.
  held wid w _ hw := by
    have hzero := h.wallets wid w hw
    have hsum : d.outstandingFrom wid = 0 := by
      unfold Db.outstandingFrom
      rw [h.withdrawals]
      rfl
    omega
  keyed id id' x x' key hx := by
    rw [h.withdrawals, Table.get?_empty] at hx
    cases hx
  unpaid id _ := by
    rw [h.transactions]
    exact List.not_mem_nil
  paid id x hx := by
    rw [h.withdrawals, Table.get?_empty] at hx
    cases hx
  debits wid _ := by
    unfold Db.paidFrom
    rw [h.transactions, h.withdrawals]
    rfl
  index := h.index
  deals := h.dealsOk
  payers := by
    have hp : ∀ id, d.books.intents.get? id = none := fun id => by
      change d.intents.get? id = none
      rw [h.intents, Table.get?_empty]
    constructor <;> simp [hp]
  fits id w hw := by
    rw [(h.wallets id w hw).1]
    decide
  nodup := by
    rw [h.transactions]
    exact List.nodup_nil

/-- A request about withdrawals leaves the deals alone. -/
theorem Request.deals_exec {r : Request} (hr : r.trades = false) :
    (r.exec refresh s d).orders = d.orders ∧ (r.exec refresh s d).invoices = d.invoices ∧
      (r.exec refresh s d).intents = d.intents := by
  have hev := r.exec_evolves refresh s d
  have htables : .orders ∉ r.tables ∧ .invoices ∉ r.tables ∧ .intents ∉ r.tables := by
    revert hr
    cases r <;> simp [Request.trades, Request.tables]
  exact ⟨hev.orders_eq htables.1, hev.invoices_eq htables.2.1, hev.intents_eq htables.2.2⟩

/-- A request about deals writes no withdrawal. -/
theorem Request.withdrawals_exec {r : Request} (hr : r.trades = true) :
    (r.exec refresh s d).withdrawals = d.withdrawals := by
  have hev := r.exec_evolves refresh s d
  have htables : .withdrawals ∉ r.tables := by
    revert hr
    cases r <;> simp [Request.trades, Request.tables]
  exact hev.same .withdrawals htables

/-- The balances and the keys after a request about withdrawals. -/
theorem Drawing.ledger {r : Request} {d' : Db} (h : Drawing d r d') :
    (d.books.Fits → d'.books.Fits) ∧
      ((ledgerKeys d.transactions).Nodup → (ledgerKeys d'.transactions).Nodup) := by
  cases h with
  | idle => exact ⟨id, id⟩
  | requested => exact ⟨fun hf => hf.setHeld.of_eq rfl, id⟩
  | approved => exact ⟨fun hf => hf.of_eq rfl, id⟩
  | rejected => exact ⟨fun hf => hf.setHeld.of_eq rfl, id⟩
  | paid hx hst hrow hg hp hw =>
    refine ⟨fun hf => ((hf.of_posts hp.books).setHeld).of_eq rfl, fun _ => ?_⟩
    obtain ⟨us, hposted⟩ := hp
    exact hposted.nodup

/-- Every request keeps the invariant. -/
theorem WithdrawalsOk.exec {r : Request} (h : WithdrawalsOk d) (hr : r.asRouted d) :
    WithdrawalsOk (r.exec refresh s d) := by
  have hev := r.exec_evolves refresh s d
  have hindex := h.index.evolves hev
  cases ht : r.trades with
  -- A request of the deals writes no withdrawal.
  | true =>
    have heff : Effect s d.books r (r.exec refresh s d).books := Request.exec_effect ht
    obtain ⟨hpayers, hfits, hspares⟩ := h.payers.exec h.deals hr ht
    have hw : (r.exec refresh s d).withdrawals = d.withdrawals := Request.withdrawals_exec ht
    exact { h.toDrawnOk.spared hev hw hspares, h.toPaidOutOk.spared hev hw hspares with
      index := hindex
      deals := h.deals.step heff
      payers := hpayers
      fits := hfits h.fits
      nodup := hspares.keys h.nodup }
  -- A request of the withdrawals writes no deal.
  | false =>
    have hdraw : Drawing d r (r.exec refresh s d) := Request.exec_drawing ht
    obtain ⟨hdrawn, hpaid⟩ := h.toDrawnOk.step h.toPaidOutOk hev hr hdraw
    obtain ⟨horders, hinvoices, hintents⟩ := Request.deals_exec (s := s) (d := d) ht
    exact { hdrawn, hpaid with
      index := hindex
      deals := h.deals.congr horders hinvoices hintents
      payers := h.payers.congr hev.users hintents
      fits := hdraw.ledger.1 h.fits
      nodup := hdraw.ledger.2 h.nodup }

/-- The invariant of the withdrawals holds in every state of a run. -/
theorem SerialRun.withdrawalsOk (hrun : SerialRun refresh s Request.asRouted d₀ d)
    (h₀ : WithdrawalsOk d₀) : WithdrawalsOk d :=
  hrun.inv h₀ fun _ _ hr h => h.exec hr

/-- The accounts of the withdrawals are right. -/
structure Db.WithdrawalsRight (d : Db) : Prop where
  /-- A withdrawal is from the wallet of its courier. -/
  owner : ∀ id x, d.withdrawals.get? id = some x →
    ∃ w, d.wallets.get? x.walletId = some w ∧ w.userId = some x.courierId
  /-- The wallet of a courier holds what is requested or approved. -/
  held : ∀ wid w, d.books.OfCourier wid → d.wallets.get? wid = some w →
    w.heldBalance = d.outstandingFrom wid
  /-- It has what it holds. -/
  covered : ∀ wid w, d.books.OfCourier wid → d.wallets.get? wid = some w →
    0 ≤ w.heldBalance ∧ w.heldBalance ≤ w.balance
  /-- The hold of a withdrawal can be returned in full. -/
  returned : ∀ id x w, d.withdrawals.get? id = some x → x.outstanding = true →
    d.wallets.get? x.walletId = some w → x.amount ≤ w.heldBalance
  /-- What is not paid has no group in the ledger. -/
  unpaid : ∀ id, (∀ x, d.withdrawals.get? id = some x → x.status ≠ .paid) →
    .paid id ∉ ledgerKeys d.transactions
  /-- What is paid has exactly one, of its amount. -/
  paid : ∀ id x, d.withdrawals.get? id = some x → x.status = .paid → d.PaidOnce id x
  /-- The ledger has taken nothing else from the wallet of a courier. -/
  debits : ∀ wid, d.books.OfCourier wid → debited wid d.transactions = d.paidFrom wid

/-- In every state of every run, the holds on the wallets of couriers are those of the withdrawals,
and the ledger has one group for each payout. -/
theorem withdrawals_right (refresh : Bool) (s : Settings) {d₀ d : Db} (h₀ : Opening d₀)
    (hrun : SerialRun refresh s Request.asRouted d₀ d) : d.WithdrawalsRight := by
  have h := hrun.withdrawalsOk h₀.withdrawalsOk
  refine ⟨fun id x hx => (h.owner id x hx).2, fun wid w hcourier hw => (h.held wid w hcourier hw).1,
    fun wid w hcourier hw => ⟨?_, (h.held wid w hcourier hw).2⟩,
    fun id x w hx hout hw => h.toDrawnOk.le_held hx hout hw, h.unpaid, h.paid, h.debits⟩
  rw [(h.held wid w hcourier hw).1]
  exact Table.sum_nonneg fun id x hx => x.heldFrom_nonneg (h.row id x hx)

end Runs

/-! ## A withdrawal, step by step -/

namespace Sample

/-- The courier tops up the wallet with 100.00. -/
def funded : Db :=
  [.createTopup 0 gateway 103 203 2 (.finite ⟨10000, -2⟩), report 103 paid 10000].foldl
    (Request.exec false settings) opening

/-- The courier asks for 60.00. -/
def askFor : Request := .requestWithdrawal 701 2 (.finite ⟨6000, -2⟩) ['k']

/-- The administrator has approved it. -/
def approvedDb : Db := [askFor, .approveWithdrawal 701 3].foldl (Request.exec false settings) funded

/-- The top-up of the sample is a run. -/
theorem funded_run : SerialRun false settings Request.asRouted opening funded :=
  SerialRun.start.foldl fun r hr _ => by
    simp only [List.mem_cons, List.not_mem_nil, or_false] at hr
    rcases hr with rfl | rfl <;> exact trivial

/-- The requests of the sample are a run. -/
theorem approved_run : SerialRun false settings Request.asRouted opening approvedDb := by
  have hcourier : (funded.users.get? 2).any (fun v => v.role = .courier) = true := by
    decide +kernel
  obtain ⟨v, hv, hrole⟩ := (Option.any_eq_true _ _).mp hcourier
  have hasked := funded_run.step askFor ⟨v, hv, by simpa using hrole⟩
  exact hasked.step (.approveWithdrawal 701 3) trivial

end Sample

/-- The administrator pays the withdrawal of the sample. -/
theorem withdrawals_right_paid : ∃ d,
    SerialRun false Sample.settings Request.asRouted Sample.opening d ∧
    (d.withdrawals.get? 701).map (·.status) = some .paid ∧ d.WithdrawalsRight := by
  have hpaid := Sample.approved_run.step (.markPaid 900 701 3) trivial
  exact ⟨_, hpaid, by decide +kernel,
    withdrawals_right false Sample.settings Sample.opening_ok hpaid⟩

end Giftly
