import Giftly.Ledger.Serial

/-!
# The operations of the ledger service alone

One rule for each operation of `MoneyService`: what it returns and leaves behind when it is executed
alone, for any amounts. An operation that posts a group says which legs were posted, with the total
already in terms of the parts: the check of the group makes it their sum.
-/

namespace Giftly

open Store
open WalletRepository MoneyService

variable {m : Memory} {d : Db} {refresh : Bool} {c : Id}

/-- The negation of a quantized amount is exact. -/
theorem neg_cents_of_lt {n : ℤ} (h : n.natAbs < Dec.limit) : (Dec.cents n).neg = .cents (-n) := by
  rw [Dec.neg_cents, Dec.fix_of_lt]
  simpa [Dec.cents] using h

/-- The group of `legs` was posted. -/
def PostedGroup (c : Id) (legs : List Leg) (d d' : Db) : Prop := ∃ ts, Posted c legs ts d d'

/-- The legs of a posted group sum to zero. -/
theorem PostedGroup.zero {legs : List Leg} {d' : Db} (h : PostedGroup c legs d d') :
    (legs.map (·.amount.coeff)).sum = 0 := by
  obtain ⟨ts, hp⟩ := h
  rw [← rows_amount hp.rows]
  exact hp.zero

/-! ## The legs -/

/-- The legs of a top-up are amounts. -/
theorem topupLegs_inCents {u g i : Id} {a b : ℤ} : InCents (topupLegs u g i a b) := by
  simp [InCents, topupLegs, Dec.cents]

/-- The key of a top-up. -/
@[simp]
theorem legKeys_topupLegs {u g i : Id} {a b : ℤ} : legKeys (topupLegs u g i a b) = [.topup i] := rfl

/-- The legs of a release are amounts. -/
theorem releaseLegs_inCents {o i e k t r : Id} {total a b x : ℤ} (h : total.natAbs < Dec.limit) :
    InCents (releaseLegs o i e k t r total a b x) := by
  simp only [InCents, releaseLegs, neg_cents_of_lt h]
  split_ifs <;> simp [payoutLeg, Dec.cents]

/-- The key of a release. -/
@[simp]
theorem legKeys_releaseLegs {o i e k t r : Id} {total a b x : ℤ} :
    legKeys (releaseLegs o i e k t r total a b x) = [.release o] := by
  unfold releaseLegs
  split_ifs <;> rfl

/-- The legs of a refund are amounts. -/
theorem refundLegs_inCents {o i e u : Id} {a : ℤ} (h : a.natAbs < Dec.limit) :
    InCents (refundLegs o i e u a) := by
  simp only [InCents, refundLegs, neg_cents_of_lt h]
  simp [payoutLeg, Dec.cents]

/-- The key of a refund. -/
@[simp]
theorem legKeys_refundLegs {o i e u : Id} {a : ℤ} : legKeys (refundLegs o i e u a) = [.refund o] :=
  rfl

/-- The legs of a split are amounts. -/
theorem splitLegs_inCents {o i e k u : Id} {total a b : ℤ} (h : total.natAbs < Dec.limit) :
    InCents (splitLegs o i e k u total a b) := by
  simp only [InCents, splitLegs, neg_cents_of_lt h]
  split_ifs <;> simp [payoutLeg, Dec.cents]

/-- The key of a split. -/
@[simp]
theorem legKeys_splitLegs {o i e k u : Id} {total a b : ℤ} :
    legKeys (splitLegs o i e k u total a b) = [.split o] := by
  unfold splitLegs
  split_ifs <;> rfl

/-- The legs of a withdrawal are amounts. -/
theorem withdrawalLegs_inCents {k g w : Id} {a : ℤ} (h : a.natAbs < Dec.limit) :
    InCents (withdrawalLegs k g w a) := by
  simp only [InCents, withdrawalLegs, neg_cents_of_lt h]
  simp [Dec.cents]

/-- The key of a withdrawal. -/
@[simp]
theorem legKeys_withdrawalLegs {k g w : Id} {a : ℤ} :
    legKeys (withdrawalLegs k g w a) = [.paid w] := rfl

/-- The legs of a payment are amounts. -/
theorem fundingLegs_inCents {u g e i o : Id} {x : Option Id} {total a b : ℤ}
    (ha : a.natAbs < Dec.limit) (hb : b.natAbs < Dec.limit) :
    InCents (fundingLegs u g e i o x total a b) := by
  simp only [InCents, fundingLegs, neg_cents_of_lt ha, neg_cents_of_lt hb]
  split_ifs <;> simp [fundingLeg, Dec.cents]

/-- The key of a payment. -/
@[simp]
theorem legKeys_fundingLegs {u g e i o : Id} {x : Option Id} {total a b : ℤ} :
    legKeys (fundingLegs u g e i o x total a b) = [.escrow i] := by
  unfold fundingLegs
  split_ifs <;> rfl

/-- A release has at most four legs, since those of zero are left out. -/
theorem length_releaseLegs {o i e k t r : Id} {total a b x : ℤ} :
    (releaseLegs o i e k t r total a b x).length ≤ 4 := by
  unfold releaseLegs
  split_ifs <;> simp

/-- A refund has at most four legs. -/
theorem length_refundLegs {o i e u : Id} {a : ℤ} : (refundLegs o i e u a).length ≤ 4 := by
  simp [refundLegs]

/-- A split has at most four legs, since those of zero are left out. -/
theorem length_splitLegs {o i e k u : Id} {total a b : ℤ} :
    (splitLegs o i e k u total a b).length ≤ 4 := by
  unfold splitLegs
  split_ifs <;> simp

/-- A payment has at most four legs, since those of zero are left out. -/
theorem length_fundingLegs {u g e i o : Id} {x : Option Id} {total a b : ℤ} :
    (fundingLegs u g e i o x total a b).length ≤ 4 := by
  unfold fundingLegs
  split_ifs <;> simp

/-- No operation posts more than four legs. -/
theorem length_le_of_four {legs : List Leg} (h : legs.length ≤ 4) : legs.length ≤ 10 ^ 15 := by
  omega

/-! ## The operations -/

/-- `credit_topup` alone. -/
theorem creditTopup_ends {u i : Id} {amount : Decimal} {Q : Bool → Memory → Db → Prop}
    (hc : Coherent m d)
    (hreplay : ∀ m', Coherent m' d → .topup i ∈ ledgerKeys d.transactions → Q false m' d)
    (hpost : ∀ m' g n d', quantizeMoney amount = .ok n → IsSystem d .systemGateway g →
      Coherent m' d' → PostedGroup c (topupLegs u g i n (-n)) d d' → Q true m' d') :
    Ends (creditTopup refresh u amount i c) Q m d := by
  unfold creditTopup
  rw [ends_bind]
  refine getSystem_ends hc fun m₁ g _ hc₁ hg => ?_
  simp only [ends_bind, ends_ofExcept]
  intro n hn k hk
  refine postGroup_ends hc₁ topupLegs_inCents (length_le_of_four (by simp [topupLegs])) ?_ ?_
  · -- A replay: the only key of the group is that of the top-up.
    rintro ⟨key, hkey, hmem⟩
    rw [legKeys_topupLegs, List.mem_singleton] at hkey
    exact hreplay m₁ hc₁ (hkey ▸ hmem)
  · intro m' ts d' hc' hp
    -- The legs balance, which gives the second amount.
    have hzero := PostedGroup.zero ⟨ts, hp⟩
    obtain rfl : k = -n := by
      simp [topupLegs, Dec.cents] at hzero
      omega
    exact hpost m' g n d' hn hg hc' ⟨ts, hp⟩

/-- `release_escrow_on_completion` alone. -/
theorem releaseEscrowOnCompletion_ends {o i k : Id} {payout tax revenue : Decimal}
    {Q : Bool → Memory → Db → Prop} (hc : Coherent m d)
    (hreplay : ∀ m', Coherent m' d → .release o ∈ ledgerKeys d.transactions → Q false m' d)
    (hpost : ∀ m' e t r p x y d', quantizeMoney payout = .ok p → quantizeMoney tax = .ok x →
      quantizeMoney revenue = .ok y → IsSystem d .systemEscrow e →
      IsSystem d .systemTaxPayable t → IsSystem d .systemRevenue r → Coherent m' d' →
      PostedGroup c (releaseLegs o i e k t r (p + x + y) p x y) d d' → Q true m' d') :
    Ends (releaseEscrowOnCompletion refresh o i k payout tax revenue c) Q m d := by
  unfold releaseEscrowOnCompletion
  simp only [ends_bind, ends_ofExcept]
  intro p hp x hx y hy total htotal
  refine getSystem_ends hc fun m₁ e _ hc₁ he => ?_
  refine getSystem_ends hc₁ fun m₂ t _ hc₂ ht => ?_
  refine getSystem_ends hc₂ fun m₃ r _ hc₃ hr => ?_
  have hlt := natAbs_lt_of_quantizeMoney htotal
  refine postGroup_ends hc₃ (releaseLegs_inCents hlt)
    (length_le_of_four length_releaseLegs) ?_ ?_
  · -- The group has one key.
    rintro ⟨key, hkey, hmem⟩
    rw [legKeys_releaseLegs, List.mem_singleton] at hkey
    exact hreplay m₃ hc₃ (hkey ▸ hmem)
  · intro m' ts d' hc' hpd
    -- A posted group sums to zero, so the total is what the three are paid.
    have hzero := PostedGroup.zero ⟨ts, hpd⟩
    obtain rfl : total = p + x + y := by
      simp only [releaseLegs, neg_cents_of_lt hlt] at hzero
      split_ifs at hzero <;> simp [payoutLeg, Dec.cents] at hzero <;> omega
    exact hpost m' e t r p x y d' hp hx hy he ht hr hc' ⟨ts, hpd⟩

/-- `refund_escrow` alone. -/
theorem refundEscrow_ends {o i u : Id} {amount : Decimal} {Q : Bool → Memory → Db → Prop}
    (hc : Coherent m d)
    (hreplay : ∀ m', Coherent m' d → .refund o ∈ ledgerKeys d.transactions → Q false m' d)
    (hpost : ∀ m' e n d', quantizeMoney amount = .ok n → IsSystem d .systemEscrow e →
      Coherent m' d' → PostedGroup c (refundLegs o i e u n) d d' → Q true m' d') :
    Ends (refundEscrow refresh o i u amount c) Q m d := by
  unfold refundEscrow
  simp only [ends_bind, ends_ofExcept]
  intro n hn
  refine getSystem_ends hc fun m₁ e _ hc₁ he => ?_
  refine postGroup_ends hc₁ (refundLegs_inCents (natAbs_lt_of_quantizeMoney hn))
    (length_le_of_four length_refundLegs) ?_ ?_
  · rintro ⟨key, hkey, hmem⟩
    rw [legKeys_refundLegs, List.mem_singleton] at hkey
    exact hreplay m₁ hc₁ (hkey ▸ hmem)
  · exact fun m' ts d' hc' hp => hpost m' e n d' hn he hc' ⟨ts, hp⟩

/-- `split_escrow` alone. -/
theorem splitEscrow_ends {o i k u : Id} {courier refund : Decimal} {Q : Bool → Memory → Db → Prop}
    (hc : Coherent m d)
    (hreplay : ∀ m', Coherent m' d → .split o ∈ ledgerKeys d.transactions → Q false m' d)
    (hpost : ∀ m' e a b d', quantizeMoney courier = .ok a → quantizeMoney refund = .ok b →
      IsSystem d .systemEscrow e → Coherent m' d' →
      PostedGroup c (splitLegs o i e k u (a + b) a b) d d' → Q true m' d') :
    Ends (splitEscrow refresh o i k u courier refund c) Q m d := by
  unfold splitEscrow
  simp only [ends_bind, ends_ofExcept]
  intro a ha b hb total htotal
  refine getSystem_ends hc fun m₁ e _ hc₁ he => ?_
  have hlt := natAbs_lt_of_quantizeMoney htotal
  refine postGroup_ends hc₁ (splitLegs_inCents hlt) (length_le_of_four length_splitLegs) ?_ ?_
  · -- A replay: the only key of the group is that of the split.
    rintro ⟨key, hkey, hmem⟩
    rw [legKeys_splitLegs, List.mem_singleton] at hkey
    exact hreplay m₁ hc₁ (hkey ▸ hmem)
  · intro m' ts d' hc' hp
    -- The legs balance, which gives the total.
    have hzero := PostedGroup.zero ⟨ts, hp⟩
    obtain rfl : total = a + b := by
      simp only [splitLegs, neg_cents_of_lt hlt] at hzero
      split_ifs at hzero <;> simp [payoutLeg, Dec.cents] at hzero <;> omega
    exact hpost m' e a b d' ha hb he hc' ⟨ts, hp⟩

/-- `pay_withdrawal` alone: the group, and the return of the hold. -/
theorem payWithdrawal_ends {k w : Id} {amount : Decimal} {Q : Bool → Memory → Db → Prop}
    (hc : Coherent m d)
    (hreplay : ∀ m', Coherent m' d → .paid w ∈ ledgerKeys d.transactions → Q false m' d)
    (hpost : ∀ m' g n d' v, quantizeMoney amount = .ok n → IsSystem d .systemGateway g →
      PostedGroup c (withdrawalLegs k g w n) d d' → d'.wallets.get? k = some v →
      (v.setHeld (max 0 (v.heldBalance - n))).check = none →
      Coherent m' (d'.setHeld k v (max 0 (v.heldBalance - n))) →
      Q true m' (d'.setHeld k v (max 0 (v.heldBalance - n)))) :
    Ends (payWithdrawal refresh k amount w c) Q m d := by
  unfold payWithdrawal
  simp only [ends_bind, ends_ofExcept]
  intro n hn
  refine getSystem_ends hc fun m₁ g _ hc₁ hg => ?_
  refine postGroup_ends hc₁ (withdrawalLegs_inCents (natAbs_lt_of_quantizeMoney hn))
    (length_le_of_four (by simp [withdrawalLegs])) ?_ ?_
  · -- A replay: the only key of the group is that of the withdrawal.
    rintro ⟨key, hkey, hmem⟩
    rw [legKeys_withdrawalLegs, List.mem_singleton] at hkey
    simpa using hreplay m₁ hc₁ (hkey ▸ hmem)
  · intro m' ts d' hc' hp
    simp only [ends_when, not_true_eq_false, false_imp_iff, and_true, true_imp_iff]
    -- The hold is returned only when the group was posted.
    refine releaseHold_ends hc' fun m₂ n' v hn' hv hcheck hc₂ => ?_
    obtain ⟨rfl, -⟩ := eq_of_quantizeMoney_money hn'
    exact hpost m₂ g _ d' v hn hg ⟨ts, hp⟩ hv hcheck hc₂

/-- `fund_escrow_for_invoice` alone: the group, and the return of the hold when there was one. -/
theorem fundEscrowForInvoice_ends {u i o : Id} {x : Option Id} {held : Bool}
    {walletAmount gatewayAmount : Decimal} {Q : Bool → Memory → Db → Prop} (hc : Coherent m d)
    (hreplay : ∀ m', Coherent m' d → .escrow i ∈ ledgerKeys d.transactions → Q false m' d)
    (hpost : ∀ m' g e a b d', quantizeMoney walletAmount = .ok a →
      quantizeMoney gatewayAmount = .ok b → 0 ≤ a → 0 ≤ b → IsSystem d .systemEscrow e →
      IsSystem d .systemGateway g →
      PostedGroup c (fundingLegs u g e i o x (a + b) a b) d d' →
      ¬(held = true ∧ 0 < a) → Coherent m' d' → Q true m' d')
    (hrelease : ∀ m' g e a b d' v, quantizeMoney walletAmount = .ok a →
      quantizeMoney gatewayAmount = .ok b → 0 ≤ a → 0 ≤ b → IsSystem d .systemEscrow e →
      IsSystem d .systemGateway g →
      PostedGroup c (fundingLegs u g e i o x (a + b) a b) d d' →
      held = true → 0 < a → d'.wallets.get? u = some v →
      (v.setHeld (max 0 (v.heldBalance - a))).check = none →
      Coherent m' (d'.setHeld u v (max 0 (v.heldBalance - a))) →
      Q true m' (d'.setHeld u v (max 0 (v.heldBalance - a)))) :
    Ends (fundEscrowForInvoice refresh u walletAmount gatewayAmount i o x held c) Q m d := by
  unfold fundEscrowForInvoice
  simp only [ends_bind, ends_ofExcept]
  intro a ha b hb total htotal
  rw [Dec.add_cents] at htotal
  obtain ⟨rfl, -⟩ := eq_of_quantizeMoney_fix htotal
  refine getSystem_ends hc fun m₁ e _ hc₁ he => ?_
  refine getSystem_ends hc₁ fun m₂ g _ hc₂ hg => ?_
  have hlta := natAbs_lt_of_quantizeMoney ha
  have hltb := natAbs_lt_of_quantizeMoney hb
  refine postGroup_ends hc₂ (fundingLegs_inCents hlta hltb)
    (length_le_of_four length_fundingLegs) ?_ ?_
  · rintro ⟨key, hkey, hmem⟩
    rw [legKeys_fundingLegs, List.mem_singleton] at hkey
    simpa using hreplay m₂ hc₂ (hkey ▸ hmem)
  · intro m' ts d' hc' hp
    -- The legs sum to zero, so no part is negative.
    have hzero := PostedGroup.zero ⟨ts, hp⟩
    obtain ⟨ha₀, hb₀⟩ : 0 ≤ a ∧ 0 ≤ b := by
      simp only [fundingLegs, neg_cents_of_lt hlta, neg_cents_of_lt hltb] at hzero
      split_ifs at hzero <;> simp [fundingLeg, Dec.cents] at hzero <;> omega
    simp only [ends_when, true_and]
    constructor
    · rintro ⟨hheld, hpos⟩
      refine releaseHold_ends hc' fun m₃ n v hn hv hcheck hc₃ => ?_
      obtain ⟨rfl, -⟩ := eq_of_quantizeMoney_money hn
      exact hrelease m₃ g e _ b d' v ha hb ha₀ hb₀ he hg ⟨ts, hp⟩ hheld hpos hv hcheck hc₃
    · exact fun hn => hpost m' g e a b d' ha hb ha₀ hb₀ he hg ⟨ts, hp⟩ hn hc'

end Giftly
