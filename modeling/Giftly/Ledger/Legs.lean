import Giftly.Pricing.Amounts
import Giftly.Ledger.Posting

/-!
# The check of a group

`_validate_legs` takes any decimals: it rounds the sum of the legs, and each leg on its own.
`validateLegs_iff` says what it accepts, and for amounts in halalas that is a group of at least two
legs, none of them zero, that sums to zero. `sum_eq_zero_of_validateLegs` turns the check of a group,
which adds in 28 digits, into a sum of integers, for amounts that a column holds.
-/

namespace Giftly

open Store
open MoneyService

/-- `quantize_money` returns the rounded amount when it has at most 28 digits. -/
theorem quantizeMoney_eq_ok {x : Dec} {n : ℤ} :
    quantizeMoney (.finite x) = .ok n ↔ x.amount = n ∧ x.amount.natAbs < Dec.limit := by
  rw [quantizeMoney_eq, show halfUp (100 * x.val) = x.amount from rfl]
  split_ifs with h
  · simp [h]
  · simp [h]

/-- What `_validate_legs` accepts. -/
theorem validateLegs_iff {legs : List Leg} : validateLegs legs = .ok () ↔
    2 ≤ legs.length ∧ (sumDec (legs.map (·.amount))).amount = 0 ∧
      ∀ leg ∈ legs, leg.amount.amount ≠ 0 ∧ leg.amount.amount.natAbs < Dec.limit := by
  -- One leg: its amount is not zero, and short enough for `quantize`.
  have hleg : ∀ leg : Leg, (do
      if (← quantizeMoney (.finite leg.amount)) = 0 then
        throw (.ledgerImbalance "A ledger leg amount must be non-zero.") : Except Err Unit) =
          .ok () ↔ leg.amount.amount ≠ 0 ∧ leg.amount.amount.natAbs < Dec.limit := by
    intro leg
    rw [bind_eq_ok]
    constructor
    · rintro ⟨n, hn, h⟩
      obtain ⟨rfl, hlimit⟩ := quantizeMoney_eq_ok.mp hn
      exact ⟨guard_eq_ok.mp h, hlimit⟩
    · rintro ⟨hne, hlimit⟩
      exact ⟨_, quantizeMoney_eq_ok.mpr ⟨rfl, hlimit⟩, guard_eq_ok.mpr hne⟩
  unfold validateLegs
  rw [check_eq_ok, not_lt, bind_eq_ok]
  refine and_congr_right fun _ => ?_
  constructor
  · rintro ⟨total, htotal, hrest⟩
    obtain ⟨rfl, -⟩ := quantizeMoney_eq_ok.mp htotal
    obtain ⟨hzero, hlegs⟩ := check_eq_ok.mp hrest
    exact ⟨not_not.mp hzero, fun leg hl => (hleg leg).mp (forM_eq_ok.mp hlegs leg hl)⟩
  · rintro ⟨hzero, hlegs⟩
    refine ⟨0, quantizeMoney_eq_ok.mpr ⟨hzero, ?_⟩, check_eq_ok.mpr ⟨not_not.mpr rfl, ?_⟩⟩
    · rw [hzero]
      decide
    · exact forM_eq_ok.mpr fun leg hl => (hleg leg).mpr (hlegs leg hl)

/-- What `_validate_legs` accepts of legs in halalas. -/
theorem validateLegs_iff_of_inCents {legs : List Leg} (hc : InCents legs)
    (hsum : (legs.map (·.amount.coeff.natAbs)).sum < Dec.limit) : validateLegs legs = .ok () ↔
    2 ≤ legs.length ∧ (legs.map (·.amount.coeff)).sum = 0 ∧ ∀ leg ∈ legs, leg.amount.coeff ≠ 0 := by
  have hamount : ∀ leg ∈ legs, leg.amount.Halalas leg.amount.coeff := by
    intro leg hl
    rw [hc leg hl]
    exact Dec.halalas_cents _
  have htotal : (sumDec (legs.map (·.amount))).Halalas (legs.map (·.amount.coeff)).sum := by
    apply halalas_sumDec
    · rw [List.forall₂_map_left_iff, List.forall₂_map_right_iff, List.forall₂_same]
      exact hamount
    · rwa [List.map_map]
  rw [validateLegs_iff, htotal.amount_eq]
  refine and_congr_right fun _ => and_congr_right fun _ => forall₂_congr fun leg hl => ?_
  rw [(hamount leg hl).amount_eq, and_iff_left]
  have hmem : leg.amount.coeff.natAbs ∈ legs.map (·.amount.coeff.natAbs) := List.mem_map_of_mem hl
  exact lt_of_le_of_lt (List.single_le_sum (by simp) _ hmem) hsum

/-- The magnitudes of legs that fit their column are too small to be rounded in a sum. -/
theorem sum_natAbs_lt {legs : List Leg} (hfit : ∀ leg ∈ legs, fitsMoney leg.amount.coeff = true)
    (hlen : legs.length ≤ 10 ^ 15) : (legs.map (·.amount.coeff.natAbs)).sum < Dec.limit := by
  have hle : (legs.map (·.amount.coeff.natAbs)).sum ≤ legs.length * 10 ^ 12 := by
    have h := List.sum_le_card_nsmul (legs.map (·.amount.coeff.natAbs)) (10 ^ 12) fun n hn => by
      obtain ⟨leg, hl, rfl⟩ := List.mem_map.mp hn
      have hlt := hfit leg hl
      simp only [fitsMoney, decide_eq_true_eq] at hlt
      exact hlt.le
    rwa [List.length_map, nsmul_eq_mul] at h
  simp only [Dec.limit]
  omega

/-- A group that passes the check sums to zero when its amounts fit their column. -/
theorem sum_eq_zero_of_validateLegs {legs : List Leg} (h : validateLegs legs = .ok ())
    (hc : InCents legs) (hfit : ∀ leg ∈ legs, fitsMoney leg.amount.coeff = true)
    (hlen : legs.length ≤ 10 ^ 15) : (legs.map (·.amount.coeff)).sum = 0 :=
  ((validateLegs_iff_of_inCents hc (sum_natAbs_lt hfit hlen)).mp h).2.1

end Giftly
