import Giftly.Services.Money
import Mathlib.Data.List.Chain

/-!
# What a group posts

The legs that the operations build are amounts with two decimals (`InCents`). For such legs
`applyLegs` is exact: every wallet moves by the sum of its rows, a row records the balance after it,
and the rows carry the amounts and the keys of the legs.
-/

namespace Giftly

open Store (exists_of_bind_eq_ok)
open WalletRepository MoneyService

/-! ## Sums over the ledger -/

/-- The sum of the settled rows of a wallet. -/
def ledgerSum (id : Id) (ts : List Transaction) : ℤ :=
  (ts.map fun t => if t.walletId = id ∧ t.status = .settled then t.amount else 0).sum

/-- The sum of the settled rows of a correlation. -/
def correlationSum (correlationId : Id) (ts : List Transaction) : ℤ :=
  (ts.map fun t => if t.correlationId = correlationId ∧ t.status = .settled then t.amount
    else 0).sum

/-- The balance that the last row of a wallet records. -/
def lastBalance (id : Id) (ts : List Transaction) : Option ℤ :=
  (ts.reverse.find? fun t => t.walletId = id).map (·.balanceAfter)

/-- An empty ledger has no sums. -/
@[simp]
theorem ledgerSum_nil (id : Id) : ledgerSum id [] = 0 := rfl

/-- The sum of a wallet with one row more. -/
@[simp]
theorem ledgerSum_cons (id : Id) (t : Transaction) (ts : List Transaction) :
    ledgerSum id (t :: ts) =
      (if t.walletId = id ∧ t.status = .settled then t.amount else 0) + ledgerSum id ts := by
  simp [ledgerSum]

/-- The sum of a wallet over two parts of the ledger. -/
@[simp]
theorem ledgerSum_append (id : Id) (ts us : List Transaction) :
    ledgerSum id (ts ++ us) = ledgerSum id ts + ledgerSum id us := by
  simp [ledgerSum]

/-- The sum of a correlation over two parts of the ledger. -/
@[simp]
theorem correlationSum_append (c : Id) (ts us : List Transaction) :
    correlationSum c (ts ++ us) = correlationSum c ts + correlationSum c us := by
  simp [correlationSum]

/-- The last balance is in the later part of the ledger if the wallet has a row there. -/
@[simp]
theorem lastBalance_append (id : Id) (ts us : List Transaction) :
    lastBalance id (ts ++ us) = (lastBalance id us).or (lastBalance id ts) := by
  unfold lastBalance
  rw [List.reverse_append, List.find?_append]
  cases us.reverse.find? fun t => t.walletId = id <;> simp

/-- A wallet without a row records no balance. -/
theorem lastBalance_eq_none {id : Id} {ts : List Transaction} :
    lastBalance id ts = none ↔ ∀ t ∈ ts, t.walletId ≠ id := by
  simp [lastBalance, List.find?_eq_none]

/-- Rows of other wallets do not count. -/
theorem ledgerSum_eq_zero {id : Id} {ts : List Transaction} (h : ∀ t ∈ ts, t.walletId ≠ id) :
    ledgerSum id ts = 0 := by
  refine List.sum_eq_zero ?_
  intro n hn
  obtain ⟨t, ht, rfl⟩ := List.mem_map.mp hn
  exact if_neg fun h' => h t ht h'.1

/-! ## Legs in halalas -/

/-- Every leg is an amount with two decimals. -/
def InCents (legs : List Leg) : Prop := ∀ leg ∈ legs, leg.amount = .cents leg.amount.coeff

/-- The wallet after rows of a total `n`. -/
def Wallet.credit (w : Wallet) (n : ℤ) (rows : ℕ) : Wallet :=
  { w with balance := w.balance + n, version := w.version + rows }

/-- The ledger row of a leg, up to the balance it records. -/
structure RowOf (correlationId : Id) (leg : Leg) (t : Transaction) : Prop where
  walletId : t.walletId = leg.walletId
  amount : t.amount = leg.amount.coeff
  type : t.type = leg.txnType
  status : t.status = .settled
  correlationId : t.correlationId = correlationId
  idempotencyKey : t.idempotencyKey = leg.idempotencyKey
  referenceOrderId : t.referenceOrderId = leg.referenceOrderId
  referenceInvoiceId : t.referenceInvoiceId = leg.referenceInvoiceId
  referenceIntentId : t.referenceIntentId = leg.referenceIntentId

/-- The rows of a group that a wallet has sum to the legs of the wallet. -/
theorem ledgerSum_rows {c id : Id} {legs : List Leg} {ts : List Transaction}
    (h : List.Forall₂ (RowOf c) legs ts) :
    ledgerSum id ts = (legs.map fun l => if l.walletId = id then l.amount.coeff else 0).sum := by
  induction h with
  | nil => rfl
  | cons hr _ ih =>
    rw [ledgerSum_cons, ih, List.map_cons, List.sum_cons, hr.walletId, hr.amount, hr.status]
    simp

/-- One leg in halalas: the wallet moves by its amount, and the row records the new balance. -/
theorem applyLeg_eq_ok {c : Id} {locked locked' : Id → Option Wallet} {leg : Leg} {t : Transaction}
    (hc : leg.amount = .cents leg.amount.coeff) (h : applyLeg c locked leg = .ok (locked', t)) :
    ∃ w, locked leg.walletId = some w ∧
      locked' = Function.update locked leg.walletId (some (w.credit leg.amount.coeff 1)) ∧
      RowOf c leg t ∧ t.balanceAfter = w.balance + leg.amount.coeff := by
  unfold applyLeg at h
  split at h
  case h_1 => cases h
  case h_2 w hw =>
    rw [hc, Dec.add_cents] at h
    obtain ⟨b, hb, h⟩ := exists_of_bind_eq_ok h
    obtain ⟨a, ha, h⟩ := exists_of_bind_eq_ok h
    obtain ⟨rfl, -⟩ := eq_of_quantizeMoney_fix hb
    obtain ⟨rfl, -⟩ := eq_of_quantizeMoney_money ha
    obtain ⟨rfl, rfl⟩ := Prod.mk.inj (Except.ok.inj h)
    exact ⟨w, hw, rfl, ⟨rfl, rfl, rfl, rfl, rfl, rfl, rfl, rfl, rfl⟩, rfl⟩

/-- The balance that a row records is the balance that the row before it records, and its own
amount. -/
def Transaction.Continues (older newer : Transaction) : Prop :=
  newer.balanceAfter = older.balanceAfter + newer.amount

instance (older newer : Transaction) : Decidable (older.Continues newer) := by
  unfold Transaction.Continues
  infer_instance

/-- The rows of a wallet. -/
def rowsOf (id : Id) (ts : List Transaction) : List Transaction := ts.filter (·.walletId = id)

/-- What the legs of a group do to the instances of the wallets, and the rows they append. -/
structure Applied (correlationId : Id) (locked : Id → Option Wallet) (legs : List Leg)
    (assigned : Id → Option Wallet) (ts : List Transaction) : Prop where
  rows : List.Forall₂ (RowOf correlationId) legs ts
  moved : ∀ id, assigned id = (locked id).map fun w =>
    w.credit (ledgerSum id ts) (ts.countP (·.walletId = id))
  found : ∀ leg ∈ legs, (locked leg.walletId).isSome
  last : ∀ id w b, locked id = some w → lastBalance id ts = some b →
    b = w.balance + ledgerSum id ts
  running : ∀ id w, locked id = some w → (rowsOf id ts).IsChain Transaction.Continues ∧
    ∀ t ∈ (rowsOf id ts).head?, t.balanceAfter = w.balance + t.amount

/-- What `apply_legs` returns was applied, by induction on the legs. -/
theorem applyLegs_eq_ok {c : Id} : ∀ {legs : List Leg} {locked assigned : Id → Option Wallet}
    {rows : List Transaction}, InCents legs →
    applyLegs c locked legs = .ok (assigned, rows) → Applied c locked legs assigned rows
  | [], locked, assigned, rows, _, h => by
    -- No leg: no row, and no wallet moves.
    obtain ⟨rfl, rfl⟩ := Prod.mk.inj (Except.ok.inj h)
    refine ⟨.nil, fun id => ?_, by simp, fun id w b _ h => by simp [lastBalance] at h,
      fun id w _ => by simp [rowsOf]⟩
    cases locked id <;> simp [Wallet.credit]
  | leg :: legs, locked, assigned, rows, hc, h => by
    have hleg := hc leg List.mem_cons_self
    have hlegs : InCents legs := fun l hl => hc l (List.mem_cons_of_mem _ hl)
    obtain ⟨⟨locked', t⟩, hx, h⟩ := exists_of_bind_eq_ok h
    obtain ⟨w, hw, rfl, ht, hb⟩ := applyLeg_eq_ok hleg hx
    obtain ⟨⟨assigned', ts⟩, hy, h⟩ := exists_of_bind_eq_ok h
    -- The first leg, then the others from the wallet it left.
    have ih := applyLegs_eq_ok hlegs hy
    obtain ⟨rfl, rfl⟩ := Prod.mk.inj (Except.ok.inj h)
    have hsettled : t.status = .settled := ht.status
    refine ⟨.cons ht ih.rows, fun id => ?_, fun l hl => ?_, fun id v b hv hlast => ?_,
      fun id v hv => ?_⟩
    · -- The row counts for the wallet of its leg only.
      rw [ih.moved, List.countP_cons, ledgerSum_cons]
      by_cases hid : leg.walletId = id
      · subst hid
        simp only [Function.update_self, hw, Option.map_some, Wallet.credit, ht.walletId,
          hsettled, ht.amount, and_self, if_true, decide_true, Option.some.injEq,
          Wallet.mk.injEq, true_and]
        constructor <;> omega
      · have hne : ¬t.walletId = id := by rwa [ht.walletId]
        simp [Function.update_of_ne (Ne.symm hid), hne]
    · rcases List.mem_cons.mp hl with rfl | hl
      · simp [hw]
      · have := ih.found l hl
        by_cases hid : l.walletId = leg.walletId
        · rw [hid]
          simp [hw]
        · rwa [Function.update_of_ne hid] at this
    · -- The last row of a wallet is of a later leg, or else of this one.
      rw [show t :: ts = [t] ++ ts from rfl, lastBalance_append] at hlast
      rw [ledgerSum_cons]
      by_cases hid : leg.walletId = id
      · subst hid
        obtain rfl : w = v := Option.some.inj (hw.symm.trans hv)
        simp only [ht.walletId, hsettled, ht.amount, and_self, if_true]
        cases hts : lastBalance leg.walletId ts with
        | none =>
          rw [ledgerSum_eq_zero (lastBalance_eq_none.mp hts)]
          rw [hts] at hlast
          simp only [Option.none_or, lastBalance, List.reverse_singleton, List.find?_cons,
            ht.walletId, decide_true, Option.map_some, Option.some.injEq] at hlast
          omega
        | some b' =>
          rw [hts, Option.some_or, Option.some.injEq] at hlast
          have := ih.last leg.walletId _ b' (Function.update_self ..) hts
          simp only [Wallet.credit] at this
          omega
      · have hne : ¬t.walletId = id := by rwa [ht.walletId]
        have hone : lastBalance id [t] = none := lastBalance_eq_none.mpr (by simpa using hne)
        rw [hone, Option.or_none] at hlast
        have := ih.last id v b (by rwa [Function.update_of_ne (Ne.symm hid)]) hlast
        simp only [hne, false_and, if_false]
        omega
    · -- The rows of the later legs continue from the balance this row shows.
      by_cases hid : leg.walletId = id
      · subst hid
        obtain rfl : w = v := Option.some.inj (hw.symm.trans hv)
        obtain ⟨hchain, hhead⟩ := ih.running leg.walletId _ (Function.update_self ..)
        have hcons : rowsOf leg.walletId (t :: ts) = t :: rowsOf leg.walletId ts :=
          List.filter_cons_of_pos (by simp [ht.walletId])
        rw [hcons]
        refine ⟨List.isChain_cons.mpr ⟨fun u hu => ?_, hchain⟩, fun u hu => ?_⟩
        · have hu := hhead u hu
          simp only [Wallet.credit] at hu
          rw [Transaction.Continues, hb]
          exact hu
        · obtain rfl : t = u := by simpa using hu
          rw [hb, ht.amount]
      · have hskip : rowsOf id (t :: ts) = rowsOf id ts :=
          List.filter_cons_of_neg (by simpa [ht.walletId] using hid)
        rw [hskip]
        exact ih.running id v (by rwa [Function.update_of_ne (Ne.symm hid)])

/-- What the legs of a group leave alone, whatever their amounts: the instances of other wallets.
The rows carry the keys of the legs. -/
theorem applyLegs_frame {c : Id} : ∀ {legs : List Leg} {locked assigned : Id → Option Wallet}
    {rows : List Transaction}, applyLegs c locked legs = .ok (assigned, rows) →
    (∀ id, id ∉ walletIds legs → assigned id = locked id) ∧ ledgerKeys rows = legKeys legs
  | [], locked, assigned, rows, h => by
    obtain ⟨rfl, rfl⟩ := Prod.mk.inj (Except.ok.inj h)
    exact ⟨fun _ _ => rfl, rfl⟩
  | leg :: legs, locked, assigned, rows, h => by
    obtain ⟨⟨locked', t⟩, hx, h⟩ := exists_of_bind_eq_ok h
    obtain ⟨⟨assigned', ts⟩, hy, h⟩ := exists_of_bind_eq_ok h
    obtain ⟨rfl, rfl⟩ := Prod.mk.inj (Except.ok.inj h)
    -- The later legs first: they change only their own wallets.
    obtain ⟨hrest, hkeys⟩ := applyLegs_frame hy
    unfold applyLeg at hx
    split at hx
    case h_1 => cases hx
    case h_2 w hw =>
      obtain ⟨b, -, hx⟩ := exists_of_bind_eq_ok hx
      obtain ⟨a, -, hx⟩ := exists_of_bind_eq_ok hx
      obtain ⟨rfl, rfl⟩ := Prod.mk.inj (Except.ok.inj hx)
      refine ⟨fun id hid => ?_, ?_⟩
      · rw [walletIds, List.map_cons, List.mem_cons, not_or] at hid
        rw [hrest id hid.2, Function.update_of_ne hid.1]
      · rw [ledgerKeys] at hkeys ⊢
        rw [legKeys] at hkeys ⊢
        rw [List.filterMap_cons, List.filterMap_cons, hkeys]

/-- The wallets of legs that were applied had been found, whatever the amounts. -/
theorem applyLegs_found {c : Id} : ∀ {legs : List Leg} {locked assigned : Id → Option Wallet}
    {rows : List Transaction}, applyLegs c locked legs = .ok (assigned, rows) →
    ∀ leg ∈ legs, (locked leg.walletId).isSome
  | [], _, _, _, _ => by simp
  | leg :: legs, locked, assigned, rows, h => by
    -- One leg at a time; the rest by induction.
    obtain ⟨⟨locked', t⟩, hx, h⟩ := exists_of_bind_eq_ok h
    obtain ⟨⟨assigned', ts⟩, hy, -⟩ := exists_of_bind_eq_ok h
    have hrest := applyLegs_found hy
    unfold applyLeg at hx
    split at hx
    case h_1 => cases hx
    case h_2 w hw =>
      obtain ⟨b, -, hx⟩ := exists_of_bind_eq_ok hx
      obtain ⟨a, -, hx⟩ := exists_of_bind_eq_ok hx
      obtain ⟨rfl, -⟩ := Prod.mk.inj (Except.ok.inj hx)
      intro l hl
      rcases List.mem_cons.mp hl with rfl | hl
      · simp [hw]
      · by_cases hid : l.walletId = leg.walletId
        · simp [hid, hw]
        · simpa [Function.update_of_ne hid] using hrest l hl

end Giftly
