import Giftly.Pricing.Allocation

/-!
# The engine in halalas

Every leg of an invoice is an amount, a rate and a share of the discount. `Legs` are the legs of an
invoice as integers, `Legs.Priced` says that a result of the engine shows them, and
`calculateInvoiceTotals_outcome` is the specification of the engine: below `exactBound` it prices
legs whose shares add up to the discount, and it never raises one of its integrity errors about
sums.
-/

namespace Giftly

open Store (Outcome)
open Dec

/-- One leg of an invoice: a line, the courier fee or the service fee. -/
structure PricedLeg where
  price : ℤ
  quantity : ℕ
  rate : Dec
  /-- Its share of the discount. -/
  share : ℤ

namespace PricedLeg

def net (l : PricedLeg) : ℤ := l.price * l.quantity

def taxable (l : PricedLeg) : ℤ := l.net - l.share

def tax (l : PricedLeg) : ℤ := timesRate l.rate l.taxable

def total (l : PricedLeg) : ℤ := l.taxable + l.tax

/-- A computed line shows a leg. -/
structure Shows (l : PricedLeg) (line : PricingLine) : Prop where
  unitPrice : line.unitPriceAmount.Halalas l.price
  quantity : line.quantity = l.quantity
  rate : line.taxRate = l.rate
  net : line.lineNetAmount.Halalas l.net
  discount : line.lineDiscountAmount.Halalas l.share
  taxable : line.lineTaxableAmount.Halalas l.taxable
  tax : line.lineTaxAmount.Halalas l.tax
  total : line.lineTotalAmount.Halalas l.total

/-- The magnitude that bounds every amount of a leg. -/
def size (l : PricedLeg) : ℕ := l.net.natAbs + l.share.natAbs

variable {l : PricedLeg}

/-- The net of a single piece is its price. -/
@[simp]
theorem net_one (p : ℤ) (rate : Dec) (s : ℤ) : (⟨p, 1, rate, s⟩ : PricedLeg).net = p := mul_one p

/-- The tax of a single piece. -/
@[simp]
theorem tax_one (p : ℤ) (rate : Dec) (s : ℤ) :
    (⟨p, 1, rate, s⟩ : PricedLeg).tax = timesRate rate (p - s) := by
  unfold tax taxable
  rw [net_one]

/-- What is taxed is within the size of the leg. -/
theorem natAbs_taxable_le (l : PricedLeg) : l.taxable.natAbs ≤ l.size := by
  unfold taxable size
  omega

/-- The tax is within the size of the leg, at a rate of at most one. -/
theorem natAbs_tax_le (h0 : 0 ≤ l.rate.val) (h1 : l.rate.val ≤ 1) (hsize : l.size < limit) :
    l.tax.natAbs ≤ l.size :=
  (natAbs_timesRate_le h0 h1 (l.natAbs_taxable_le.trans_lt hsize)).trans l.natAbs_taxable_le

/-- The total is within twice the size of the leg. -/
theorem natAbs_total_le (h0 : 0 ≤ l.rate.val) (h1 : l.rate.val ≤ 1) (hsize : l.size < limit) :
    l.total.natAbs ≤ 2 * l.size := by
  have htax := natAbs_tax_le h0 h1 hsize
  have htaxable := l.natAbs_taxable_le
  unfold total
  omega

end PricedLeg

/-- The legs of an invoice, with its discount. -/
structure Legs where
  lines : List PricedLeg
  courier : PricedLeg
  service : PricedLeg
  discount : ℤ

namespace Legs

def itemsNet (x : Legs) : ℤ := (x.lines.map PricedLeg.net).sum

/-- What a discount is applied to. -/
def base (x : Legs) : ℤ := x.itemsNet + x.courier.net

def net (x : Legs) : ℤ := x.base + x.service.net - x.discount

def tax (x : Legs) : ℤ := (x.lines.map PricedLeg.tax).sum + (x.courier.tax + x.service.tax)

def total (x : Legs) : ℤ := x.net + x.tax

/-- The legs of the lines, of the courier fee with its share, and of the service fee. -/
def invoice (lines : List PricedLeg) (vatRate : Dec) (fee courierShare service discount : ℤ) : Legs :=
  ⟨lines, ⟨fee, 1, vatRate, courierShare⟩, ⟨service, 1, vatRate, 0⟩, discount⟩

section Invoice

variable (lines : List PricedLeg) (vatRate : Dec) (fee courierShare service discount : ℤ)

/-- The net of an invoice, from its lines and fees. -/
theorem net_invoice : (invoice lines vatRate fee courierShare service discount).net =
    (lines.map PricedLeg.net).sum + fee + service - discount := by
  simp [invoice, net, base, itemsNet]

/-- The tax of an invoice, from its lines and fees. -/
theorem tax_invoice : (invoice lines vatRate fee courierShare service discount).tax =
    (lines.map PricedLeg.tax).sum +
      (timesRate vatRate (fee - courierShare) + timesRate vatRate service) := by
  simp [invoice, tax]

/-- The total of an invoice, from its lines and fees. -/
theorem total_invoice : (invoice lines vatRate fee courierShare service discount).total =
    (lines.map PricedLeg.net).sum + fee + service - discount + ((lines.map PricedLeg.tax).sum +
      (timesRate vatRate (fee - courierShare) + timesRate vatRate service)) := by
  rw [total, net_invoice, tax_invoice]

end Invoice

/-- A result of the engine shows the legs. -/
structure Priced (x : Legs) (r : PricingResult) : Prop where
  lines : List.Forall₂ PricedLeg.Shows x.lines r.lines
  itemsNet : r.itemsNetAmount.Halalas x.itemsNet
  courierFee : r.courierFeeAmount.Halalas x.courier.net
  courierFeeDiscount : r.courierFeeDiscountAmount.Halalas x.courier.share
  courierFeeTax : r.courierFeeTaxAmount.Halalas x.courier.tax
  serviceFee : r.serviceFeeAmount.Halalas x.service.net
  serviceFeeTax : r.serviceFeeTaxAmount.Halalas x.service.tax
  discount : r.discountAmount.Halalas x.discount
  netAfterDiscount : r.netAfterDiscountAmount.Halalas x.net
  tax : r.taxAmount.Halalas x.tax
  total : r.totalAmount.Halalas x.total

end Legs

/-! ## The inputs -/

namespace PricingItem

def price (i : PricingItem) : ℤ := i.unitPriceAmount.amount

def net (i : PricingItem) : ℤ := i.price * i.quantity

/-- The leg of a line with a share of the discount. -/
def leg (i : PricingItem) (share : ℤ) : PricedLeg := ⟨i.price, i.quantity, i.taxRate, share⟩

/-- A line as the invoice service lets it through. -/
structure Valid (i : PricingItem) : Prop where
  price : i.unitPriceAmount.Halalas i.price
  price_pos : 0 < i.price
  quantity_pos : 1 ≤ i.quantity
  quantity_le : i.quantity ≤ 999
  rate_nonneg : 0 ≤ i.taxRate.val
  rate_le : i.taxRate.val ≤ 1

/-- A valid line has a positive net. -/
theorem Valid.net_pos {i : PricingItem} (h : i.Valid) : 0 < i.net :=
  mul_pos h.price_pos (by exact_mod_cast h.quantity_pos)

end PricingItem

/-- A promo of two-decimal amounts whose value is positive and whose cap is not negative. -/
structure PricingPromo.Valid (p : PricingPromo) : Prop where
  percent : p.discountType = .percent → ∃ x, p.percentValue = some x ∧ 0 < x.val
  fixed : p.discountType = .fixed → ∃ x n, p.fixedAmount = some x ∧ x.Halalas n ∧ 0 < n
  cap : ∀ x ∈ p.maxDiscountAmount, ∃ n, x.Halalas n ∧ 0 ≤ n

/-- Rates between zero and one, and two-decimal bounds of the service fee in order. -/
structure PricingConfig.Valid (cfg : PricingConfig) : Prop where
  feeRate_nonneg : 0 ≤ cfg.serviceFeeRate.val
  feeRate_le : cfg.serviceFeeRate.val ≤ 1
  vatRate_nonneg : 0 ≤ cfg.defaultVatRate.val
  vatRate_le : cfg.defaultVatRate.val ≤ 1
  feeMin : cfg.serviceFeeMinAmount.Halalas cfg.serviceFeeMinAmount.amount
  feeMax : cfg.serviceFeeMaxAmount.Halalas cfg.serviceFeeMaxAmount.amount
  feeMin_nonneg : 0 ≤ cfg.serviceFeeMinAmount.amount
  feeMin_le : cfg.serviceFeeMinAmount.amount ≤ cfg.serviceFeeMaxAmount.amount

/-! ## The fee and the discount -/

/-- The service fee is at most the base or its minimum. -/
theorem computeServiceFee_outcome {cfg : PricingConfig} (hcfg : cfg.Valid) {b : Dec} {base : ℤ}
    (hb : b.Halalas base) (hbase : 0 < base) (hbound : base ≤ exactBound) :
    Outcome (fun y => ∃ n, y.Halalas n ∧ 0 ≤ n ∧ n ≤ base + cfg.serviceFeeMinAmount.amount)
      (· = .invalidOperation) (computeServiceFee b cfg) := by
  have hlimit := exactBound_lt
  have hle : b.le zero = false := by
    rw [hb.le_eq (halalas_cents 0), decide_eq_false (not_le.mpr hbase)]
  unfold computeServiceFee
  rw [hle, if_neg (by simp)]
  apply (quantizeDec_outcome _).bind
  rintro raw ⟨rfl, -⟩
  have hraw0 := timesRate_nonneg hcfg.feeRate_nonneg hbase.le
  have hraw := timesRate_le hcfg.feeRate_le hbase.le (by omega)
  have hmin := hcfg.feeMin_nonneg
  have hmax := hcfg.feeMin_le
  rw [timesRate_eq hb]
  have hfee := ((halalas_cents (timesRate cfg.serviceFeeRate base)).max hcfg.feeMin).min hcfg.feeMax
  refine ⟨_, hfee, ?_, ?_⟩ <;> omega

/-- The errors that the engine may raise: all but the two about sums. -/
def SumsHold (e : Err) : Prop :=
  e ≠ .pricingIntegrity "Discount allocation does not sum to the discount." ∧
    e ≠ .pricingIntegrity "Total does not equal the sum of its legs."

/-- A result that is too long is not an error about sums. -/
theorem sumsHold_invalidOperation : SumsHold .invalidOperation := by
  constructor <;> simp

/-- A positive percentage of a positive amount is not negative. -/
theorem amount_percent_nonneg {b percent ratio : Dec} (hb : 0 < b.val) (hpercent : 0 < percent.val)
    (h : (b.mul percent).div ⟨100, 0⟩ = some ratio) : 0 ≤ ratio.amount := by
  have hexact : 0 < (⟨b.coeff * percent.coeff, b.exp + percent.exp⟩ : Dec).val := by
    rw [val_product]
    exact mul_pos hb hpercent
  have hproduct := abs_val_fix_sub (⟨b.coeff * percent.coeff, b.exp + percent.exp⟩ : Dec)
  rw [abs_of_pos hexact] at hproduct
  change |(b.mul percent).val - _| * _ ≤ _ at hproduct
  have hlow := neg_abs_le
    ((b.mul percent).val - (⟨b.coeff * percent.coeff, b.exp + percent.exp⟩ : Dec).val)
  have hpos : 0 < (b.mul percent).val := by linarith
  have hquot := abs_val_div_sub h (coeff_pos.mpr hpos) (by norm_num)
  have hhundred : (0 : ℚ) < (⟨100, 0⟩ : Dec).val := coeff_pos.mp (by norm_num)
  have hq : 0 < (b.mul percent).val / (⟨100, 0⟩ : Dec).val := div_pos hpos hhundred
  have hlow' := neg_abs_le (ratio.val - (b.mul percent).val / (⟨100, 0⟩ : Dec).val)
  exact halfUp_nonneg (by linarith)

/-- A discount that is not negative is clamped to the base. -/
theorem exists_min {b d : Dec} {base n : ℤ} (hb : b.Halalas base) (hbase : 0 < base)
    (hd : d.Halalas n) (hn : 0 ≤ n) : ∃ m, (d.min b).Halalas m ∧ 0 ≤ m ∧ m ≤ base :=
  ⟨_, hd.min hb, by omega, by omega⟩

/-- The discount is between zero and the base. -/
theorem computeDiscount_outcome {b : Dec} {base : ℤ} (hb : b.Halalas base) (hbase : 0 < base)
    {promo : Option PricingPromo} (hpromo : ∀ p ∈ promo, p.Valid) :
    Outcome (fun y => ∃ n, y.Halalas n ∧ 0 ≤ n ∧ n ≤ base) SumsHold (computeDiscount b promo) := by
  have hbval : 0 < b.val := by
    rw [show b.val = base / 100 from hb]
    positivity
  cases promo with
  | none => exact ⟨0, halalas_cents 0, le_rfl, hbase.le⟩
  | some promo =>
    have hvalid := hpromo promo rfl
    cases htype : promo.discountType with
    | percent =>
      -- A percentage of the base, rounded, then capped by the promo and by the base.
      obtain ⟨percent, hpercent, hpos⟩ := hvalid.percent htype
      simp only [computeDiscount, htype, hpercent]
      split
      · rename_i ratio hratio
        have hratio0 := amount_percent_nonneg hbval hpos hratio
        apply ((quantizeDec_outcome ratio).mono (fun _ hy => hy)
          (fun e he => he ▸ sumsHold_invalidOperation)).bind
        rintro d ⟨rfl, -⟩
        cases hcap : promo.maxDiscountAmount with
        | none => exact exists_min hb hbase (halalas_cents _) hratio0
        | some cap =>
          obtain ⟨n, hn, hn0⟩ := hvalid.cap cap hcap
          exact exists_min hb hbase ((halalas_cents _).min hn) (le_min hratio0 hn0)
      · exact sumsHold_invalidOperation
    | fixed =>
      -- A fixed amount is capped by the base.
      obtain ⟨x, n, hx, hn, hn0⟩ := hvalid.fixed htype
      simp only [computeDiscount, htype, hx]
      exact exists_min hb hbase hn hn0.le

/-! ## The lines -/

/-- An amount times a quantity is exact while it has at most 28 digits. -/
theorem Dec.Halalas.mul_nat {x : Dec} {p : ℤ} (hx : x.Halalas p) (q : ℕ)
    (h : (p * q).natAbs < limit) : (x.mul ⟨q, 0⟩).Halalas (p * q) := by
  unfold Dec.mul
  apply Halalas.fix _ h
  unfold Halalas
  rw [val_product, show x.val = p / 100 from hx]
  simp [Dec.val]
  ring

/-- The net of each line. -/
theorem lineNets_eq {items : List PricingItem} (hitems : ∀ i ∈ items, i.Valid)
    (hnets : ∀ i ∈ items, i.net < limit) :
    (items.mapM fun i => quantizeDec (i.unitPriceAmount.mul ⟨i.quantity, 0⟩)) =
      .ok ((items.map PricingItem.net).map cents) := by
  rw [List.map_map]
  apply Store.mapM_eq_ok
  intro i hi
  have hpos := (hitems i hi).net_pos
  have hlt : i.net.natAbs < limit := by
    have := hnets i hi
    omega
  exact ((hitems i hi).price.mul_nat i.quantity hlt).quantizeDec_eq hlt

/-- A line is computed as its leg, or one of its amounts is too long. -/
theorem priceLine_outcome {i : PricingItem} (hi : i.Valid) (idx : ℕ) {net alloc : Dec} {s : ℤ}
    (hnet : net.Halalas i.net) (halloc : alloc.Halalas s) (hsize : 2 * (i.leg s).size < limit) :
    Outcome (i.leg s).Shows (· = .invalidOperation) (priceLine idx i net alloc) := by
  have hlt : (i.leg s).size < limit := by omega
  have htaxable : (net.sub alloc).Halalas (i.leg s).taxable :=
    hnet.sub halloc ((i.leg s).natAbs_taxable_le.trans_lt hlt)
  have htotal := (i.leg s).natAbs_total_le hi.rate_nonneg hi.rate_le hlt
  unfold priceLine
  apply (quantizeDec_outcome _).bind
  -- The tax and the unit price are the two amounts that are rounded.
  rintro tax ⟨rfl, -⟩
  rw [timesRate_eq htaxable]
  apply (quantizeDec_outcome _).bind
  rintro unitPrice ⟨rfl, -⟩
  exact {
    unitPrice := halalas_cents _
    quantity := rfl
    rate := rfl
    net := hnet
    discount := halloc
    taxable := htaxable
    tax := halalas_cents _
    total := htaxable.add (halalas_cents _) (htotal.trans_lt hsize) }

/-- The legs of the lines with their shares. -/
def legs (items : List PricingItem) (shares : List ℤ) : List PricedLeg :=
  List.zipWith PricingItem.leg items shares

/-- The nets of the legs are those of the lines. -/
theorem legs_map_net : ∀ {items : List PricingItem} {shares : List ℤ},
    items.length = shares.length → (legs items shares).map PricedLeg.net = items.map PricingItem.net
  | [], [], _ => rfl
  | _ :: _, _ :: _, h => congrArg _ (legs_map_net (Nat.succ.inj h))

/-- The shares of the legs are the given ones. -/
theorem legs_map_share : ∀ {items : List PricingItem} {shares : List ℤ},
    items.length = shares.length → (legs items shares).map PricedLeg.share = shares
  | [], [], _ => rfl
  | _ :: _, _ :: _, h => congrArg _ (legs_map_share (Nat.succ.inj h))

/-- Every leg is that of a line with its share. -/
theorem exists_of_mem_legs : ∀ {items : List PricingItem} {shares : List ℤ} {l : PricedLeg},
    l ∈ legs items shares → ∃ i ∈ items, ∃ s, l = i.leg s
  | i :: items, s :: shares, l, h => by
    rcases List.mem_cons.mp h with rfl | hmem
    · exact ⟨i, List.mem_cons_self, s, rfl⟩
    · obtain ⟨i', hi', s', hl⟩ := exists_of_mem_legs (show l ∈ legs items shares from hmem)
      exact ⟨i', List.mem_cons_of_mem i hi', s', hl⟩

/-- The sizes of the legs add up to those of the nets and of the shares. -/
theorem sum_size_legs {items : List PricingItem} {shares : List ℤ}
    (h : items.length = shares.length) : ((legs items shares).map PricedLeg.size).sum =
      ((items.map PricingItem.net).map Int.natAbs).sum + (shares.map Int.natAbs).sum := by
  rw [← legs_map_net h, ← congrArg (List.map Int.natAbs) (legs_map_share h), List.map_map,
    List.map_map, ← List.sum_map_add]
  rfl

/-- The lines show their legs. -/
theorem lines_outcome {items : List PricingItem} {lineNets : List Dec}
    (hnets : List.Forall₂ (fun i (y : Dec) => y.Halalas i.net) items lineNets)
    (hitems : ∀ i ∈ items, i.Valid) :
    ∀ {lineAlloc : List Dec} {shares : List ℤ}, List.Forall₂ Halalas lineAlloc shares →
      items.length = shares.length → (∀ l ∈ legs items shares, 2 * l.size < limit) → ∀ k,
      Outcome (List.Forall₂ PricedLeg.Shows (legs items shares)) (· = .invalidOperation)
        (((items.zip (lineNets.zip lineAlloc)).zipIdx k).mapM fun x =>
          priceLine x.2 x.1.1 x.1.2.1 x.1.2.2) := by
  -- By induction on the items; the index only numbers the lines.
  induction hnets with
  | nil =>
    intro lineAlloc shares _ hlength _ k
    exact List.Forall₂.nil
  | @cons i y items lineNets hy _ ih =>
    intro lineAlloc shares halloc hlength hsize k
    cases halloc with
    | nil => cases hlength
    | @cons a s lineAlloc shares ha halloc =>
      have hi := hitems i List.mem_cons_self
      rw [List.zip_cons_cons, List.zip_cons_cons, List.zipIdx_cons, List.mapM_cons]
      apply (priceLine_outcome hi k hy ha (hsize _ List.mem_cons_self)).bind
      intro line hline
      apply (ih (fun i' hi' => hitems i' (List.mem_cons_of_mem i hi')) halloc
        (Nat.succ.inj hlength) (fun l hl => hsize l (List.mem_cons_of_mem _ hl)) (k + 1)).bind
      intro lines hlines
      exact List.Forall₂.cons hline hlines

/-- A function of the legs that is bounded by their size. -/
theorem sum_natAbs_le_size {f : PricedLeg → ℤ} {k : ℕ} : ∀ {ls : List PricedLeg},
    (∀ l ∈ ls, (f l).natAbs ≤ k * l.size) →
      ((ls.map f).map Int.natAbs).sum ≤ k * (ls.map PricedLeg.size).sum
  | [], _ => Nat.zero_le _
  | l :: ls, h => by
    have hl := h l List.mem_cons_self
    have hls := sum_natAbs_le_size fun l' hl' => h l' (List.mem_cons_of_mem l hl')
    simp only [List.map_cons, List.sum_cons, Nat.mul_add]
    omega

/-- A column of the lines adds up to that of the legs. -/
theorem within_sum_of_shows {ls : List PricedLeg} {lines : List PricingLine} {k : ℕ}
    (h : List.Forall₂ PricedLeg.Shows ls lines) {f : PricingLine → Dec} {g : PricedLeg → ℤ}
    (hfg : ∀ l line, l.Shows line → (f line).Halalas (g l))
    (hsum : (((ls.map g).map Int.natAbs).sum : ℤ) ≤ k * exactBound) (hk : k ≤ 100) :
    (sumDec (lines.map f)).Within k (ls.map g).sum := by
  apply within_sumDec _ hsum hk
  rw [List.forall₂_map_left_iff, List.forall₂_map_right_iff]
  exact (h.imp hfg).flip

/-- The totals of the legs are their taxable amounts and their taxes. -/
theorem sum_total_eq (ls : List PricedLeg) :
    (ls.map PricedLeg.total).sum = (ls.map PricedLeg.net).sum - (ls.map PricedLeg.share).sum +
      (ls.map PricedLeg.tax).sum := by
  induction ls with
  | nil => rfl
  | cons l ls ih =>
    simp only [List.map_cons, List.sum_cons, ih, PricedLeg.total, PricedLeg.taxable]
    ring

/-! ## The whole engine -/

/-- The base of an invoice: the nets of the lines and the courier fee. -/
def baseOf (items : List PricingItem) (courierFeeAmount : Dec) : ℤ :=
  (items.map PricingItem.net).sum + courierFeeAmount.amount

/-- The base as the engine adds it up. -/
def discountableOf (nets : List ℤ) (fee : ℤ) : Dec := (sumDec (nets.map cents)).add (cents fee)

/-- Below `exactBound` the discountable amount is the exact sum. -/
theorem halalas_discountableOf {nets : List ℤ} {fee : ℤ} (hnets : ∀ n ∈ nets, 0 < n)
    (hfee : 0 ≤ fee) (hbound : nets.sum + fee ≤ exactBound) :
    (discountableOf nets fee).Halalas (nets.sum + fee) := by
  have hlimit := exactBound_lt
  have hnets0 := sum_pos_nonneg hnets
  have habs := sum_natAbs fun n hn => (hnets n hn).le
  exact (halalas_sumDec (forall₂_halalas_cents nets) (by omega)).add (halalas_cents fee) (by omega)

/-- Inputs on which every step of the engine is exact: valid lines, a base that is not empty, and
whole amounts below `exactBound` for the base, the service fee and the discount. -/
structure ExactInputs (items : List PricingItem) (courierFeeAmount : Dec)
    (promo : Option PricingPromo) (cfg : PricingConfig) : Prop where
  item_valid : ∀ i ∈ items, i.Valid
  fee_nonneg : 0 ≤ courierFeeAmount.val
  base_pos : 0 < baseOf items courierFeeAmount
  vatRate_nonneg : 0 ≤ cfg.defaultVatRate.val
  vatRate_le : cfg.defaultVatRate.val ≤ 1
  base_le : baseOf items courierFeeAmount ≤ exactBound
  service : ∀ y, computeServiceFee
    (discountableOf (items.map PricingItem.net) courierFeeAmount.amount) cfg = .ok y →
      ∃ n, y.Halalas n ∧ |n| ≤ exactBound
  discount : ∀ y, computeDiscount
    (discountableOf (items.map PricingItem.net) courierFeeAmount.amount) promo = .ok y →
      ∃ n, y.Halalas n ∧ 0 ≤ n ∧ n ≤ baseOf items courierFeeAmount

namespace ExactInputs

variable {items : List PricingItem} {courierFeeAmount : Dec} {promo : Option PricingPromo}
  {cfg : PricingConfig}

/-- Every net of valid lines is positive. -/
theorem net_pos (hitems : ∀ i ∈ items, i.Valid) : ∀ n ∈ items.map PricingItem.net, 0 < n := by
  intro n hn
  obtain ⟨i, hi, rfl⟩ := List.mem_map.mp hn
  exact (hitems i hi).net_pos

/-- The courier fee is not negative in halalas. -/
theorem amount_nonneg (h : 0 ≤ courierFeeAmount.val) : 0 ≤ courierFeeAmount.amount :=
  halfUp_nonneg (mul_nonneg (by norm_num) h)

/-- The nets of the lines add up exactly below the bound. -/
theorem halalas_sum (hitems : ∀ i ∈ items, i.Valid)
    (hfee : 0 ≤ courierFeeAmount.val) (hbound : baseOf items courierFeeAmount ≤ exactBound) :
    (sumDec ((items.map PricingItem.net).map cents)).Halalas (items.map PricingItem.net).sum := by
  have hlimit := exactBound_lt
  have habs := sum_natAbs fun n hn => (net_pos hitems n hn).le
  have hpos := sum_pos_nonneg (net_pos hitems)
  have hfee0 := amount_nonneg hfee
  unfold baseOf at hbound
  exact halalas_sumDec (forall₂_halalas_cents _) (by omega)

/-- The base adds up exactly below the bound. -/
theorem halalas_base (hitems : ∀ i ∈ items, i.Valid)
    (hfee : 0 ≤ courierFeeAmount.val) (hbound : baseOf items courierFeeAmount ≤ exactBound) :
    (discountableOf (items.map PricingItem.net) courierFeeAmount.amount).Halalas
      (baseOf items courierFeeAmount) :=
  halalas_discountableOf (net_pos hitems) (amount_nonneg hfee) hbound

/-- An invoice with a line has a positive base. -/
theorem base_pos_of_ne_nil (hne : items ≠ []) (hitems : ∀ i ∈ items, i.Valid)
    (hfee : 0 ≤ courierFeeAmount.val) : 0 < baseOf items courierFeeAmount :=
  add_pos_of_pos_of_nonneg (List.sum_pos _ (net_pos hitems) (by simpa using hne))
    (amount_nonneg hfee)

end ExactInputs

/-- What the engine returns on exact inputs: the legs of the base, the fee and the discount. -/
structure Computed (items : List PricingItem) (courierFeeAmount : Dec)
    (promo : Option PricingPromo) (cfg : PricingConfig) (r : PricingResult)
    (service discount : ℤ) (shares : List ℤ) (courierShare : ℤ) : Prop where
  itemsNet_eq : r.itemsNetAmount = sumDec ((items.map PricingItem.net).map cents)
  courierFee_eq : r.courierFeeAmount = cents courierFeeAmount.amount
  service_eq : computeServiceFee
    (discountableOf (items.map PricingItem.net) courierFeeAmount.amount) cfg =
      .ok r.serviceFeeAmount
  discount_eq : computeDiscount
    (discountableOf (items.map PricingItem.net) courierFeeAmount.amount) promo =
      .ok r.discountAmount
  priced : (Legs.invoice (legs items shares) cfg.defaultVatRate courierFeeAmount.amount courierShare
    service discount).Priced r
  service_le : |service| ≤ exactBound
  discount_nonneg : 0 ≤ discount
  discount_le : discount ≤ baseOf items courierFeeAmount
  allocated : Allocated (shareOf r.discountAmount
    (discountableOf (items.map PricingItem.net) courierFeeAmount.amount)) discount
      (items.map PricingItem.net) courierFeeAmount.amount shares courierShare
  total_pos : 0 < (Legs.invoice (legs items shares) cfg.defaultVatRate courierFeeAmount.amount
    courierShare service discount).total

/-- There is a share for every line. -/
theorem Computed.length_eq {items : List PricingItem} {courierFeeAmount : Dec}
    {promo : Option PricingPromo} {cfg : PricingConfig} {r : PricingResult}
    {service discount courierShare : ℤ} {shares : List ℤ}
    (h : Computed items courierFeeAmount promo cfg r service discount shares courierShare) :
    items.length = shares.length := by
  rw [← h.allocated.length_eq, List.length_map]

/-- The engine from the computed lines on. -/
def finishTotals (cfg : PricingConfig) (itemsNet courierFeeNet serviceFee discount : Dec)
    (lineAlloc : List Dec) (courierAlloc : Dec) (lines : List PricingLine) :
    Except Err PricingResult := do
  let linesTax := sumDec (lines.map (·.lineTaxAmount))
  let courierTaxable := courierFeeNet.sub courierAlloc
  let courierTax ← quantizeDec (courierTaxable.mul cfg.defaultVatRate)
  let serviceTax ← quantizeDec (serviceFee.mul cfg.defaultVatRate)
  let taxAmount := linesTax.add (courierTax.add serviceTax)
  let netAfterDiscount := ((itemsNet.add courierFeeNet).add serviceFee).sub discount
  let totalAmount := netAfterDiscount.add taxAmount
  let totalAlloc := (sumDec lineAlloc).add courierAlloc
  if !totalAlloc.eq discount then
    throw (.pricingIntegrity "Discount allocation does not sum to the discount.")
  let reconstructed := ((sumDec (lines.map (·.lineTotalAmount))).add
    (courierTaxable.add courierTax)).add (serviceFee.add serviceTax)
  if !reconstructed.eq totalAmount then
    throw (.pricingIntegrity "Total does not equal the sum of its legs.")
  if totalAmount.le zero then throw (.pricingIntegrity "Invoice total must be positive.")
  if cfg.maxInvoiceAmount.lt totalAmount then
    throw (.pricingIntegrity "Invoice total exceeds the maximum permitted.")
  return {
    lines
    itemsNetAmount := itemsNet
    courierFeeAmount := courierFeeNet
    courierFeeDiscountAmount := courierAlloc
    courierFeeTaxAmount := courierTax
    serviceFeeAmount := serviceFee
    serviceFeeTaxAmount := serviceTax
    discountAmount := discount
    netAfterDiscountAmount := netAfterDiscount
    taxAmount
    totalAmount }

/-- The engine, cut where the lines have been computed. -/
theorem calculateInvoiceTotals_eq (items : List PricingItem) (courierFeeAmount : Dec)
    (promo : Option PricingPromo) (cfg : PricingConfig) :
    calculateInvoiceTotals items courierFeeAmount promo cfg = (do
      let lineNets ← items.mapM fun i => quantizeDec (i.unitPriceAmount.mul ⟨i.quantity, 0⟩)
      let courierFeeNet ← quantizeDec courierFeeAmount
      let serviceFee ← computeServiceFee ((sumDec lineNets).add courierFeeNet) cfg
      let discount ← computeDiscount ((sumDec lineNets).add courierFeeNet) promo
      let alloc ← allocateDiscount lineNets courierFeeNet discount
        ((sumDec lineNets).add courierFeeNet)
      let lines ← (items.zip (lineNets.zip alloc.1)).zipIdx.mapM fun x =>
        priceLine x.2 x.1.1 x.1.2.1 x.1.2.2
      finishTotals cfg (sumDec lineNets) courierFeeNet serviceFee discount alloc.1 alloc.2
        lines) := rfl

/-- What the engine has computed when it returns, on any inputs. -/
structure Returned (items : List PricingItem) (courierFeeAmount : Dec)
    (promo : Option PricingPromo) (cfg : PricingConfig) (r : PricingResult) : Prop where
  itemsNet : ∃ lineNets,
    (items.mapM fun i => quantizeDec (i.unitPriceAmount.mul ⟨i.quantity, 0⟩)) = .ok lineNets ∧
      r.itemsNetAmount = sumDec lineNets
  courierFee : quantizeDec courierFeeAmount = .ok r.courierFeeAmount
  serviceFee : computeServiceFee (r.itemsNetAmount.add r.courierFeeAmount) cfg =
    .ok r.serviceFeeAmount
  discount : computeDiscount (r.itemsNetAmount.add r.courierFeeAmount) promo = .ok r.discountAmount
  lineTax : ∀ line ∈ r.lines, ∃ n, line.lineTaxAmount = cents n
  courierFeeTax : ∃ n, r.courierFeeTaxAmount = cents n
  serviceFeeTax : ∃ n, r.serviceFeeTaxAmount = cents n
  netAfterDiscount : r.netAfterDiscountAmount =
    ((r.itemsNetAmount.add r.courierFeeAmount).add r.serviceFeeAmount).sub r.discountAmount
  tax : r.taxAmount = (sumDec (r.lines.map (·.lineTaxAmount))).add
    (r.courierFeeTaxAmount.add r.serviceFeeTaxAmount)
  total : r.totalAmount = r.netAfterDiscountAmount.add r.taxAmount
  total_pos : 0 < r.totalAmount.val

/-- The tax of a line is an amount. -/
theorem exists_lineTax {idx : ℕ} {item : PricingItem} {net alloc : Dec} {line : PricingLine}
    (h : priceLine idx item net alloc = .ok line) : ∃ n, line.lineTaxAmount = cents n := by
  unfold priceLine at h
  obtain ⟨lineTax, htax, h⟩ := Store.exists_of_bind_eq_ok h
  obtain ⟨unitPrice, -, h⟩ := Store.exists_of_bind_eq_ok h
  obtain rfl := Except.ok.inj h
  exact ⟨_, eq_of_quantizeDec htax⟩

/-- What the engine has computed, read off its result step by step. -/
theorem returned_of_calculateInvoiceTotals {items : List PricingItem} {courierFeeAmount : Dec}
    {promo : Option PricingPromo} {cfg : PricingConfig} {r : PricingResult}
    (h : calculateInvoiceTotals items courierFeeAmount promo cfg = .ok r) :
    Returned items courierFeeAmount promo cfg r := by
  rw [calculateInvoiceTotals_eq] at h
  obtain ⟨lineNets, hnets, h⟩ := Store.exists_of_bind_eq_ok h
  obtain ⟨courierFeeNet, hfee, h⟩ := Store.exists_of_bind_eq_ok h
  obtain ⟨serviceFee, hservice, h⟩ := Store.exists_of_bind_eq_ok h
  obtain ⟨discount, hdiscount, h⟩ := Store.exists_of_bind_eq_ok h
  obtain ⟨alloc, -, h⟩ := Store.exists_of_bind_eq_ok h
  obtain ⟨lines, hlines, h⟩ := Store.exists_of_bind_eq_ok h
  unfold finishTotals at h
  obtain ⟨courierTax, hcourierTax, h⟩ := Store.exists_of_bind_eq_ok h
  obtain ⟨serviceTax, hserviceTax, h⟩ := Store.exists_of_bind_eq_ok h
  dsimp only at h
  -- the four assertions of the engine
  obtain ⟨-, h⟩ := Store.check_eq_ok.mp h
  obtain ⟨-, h⟩ := Store.check_eq_ok.mp h
  obtain ⟨hpos, h⟩ := Store.check_eq_ok.mp h
  obtain ⟨-, h⟩ := Store.check_eq_ok.mp h
  obtain rfl := Except.ok.inj h
  refine ⟨⟨lineNets, hnets, rfl⟩, hfee, hservice, hdiscount, ?_, ⟨_, eq_of_quantizeDec hcourierTax⟩,
    ⟨_, eq_of_quantizeDec hserviceTax⟩, rfl, rfl, rfl, ?_⟩
  · intro line hline
    obtain ⟨x, -, hx⟩ := Store.exists_of_forall₂_right (Store.forall₂_of_mapM_eq_ok hlines) hline
    exact exists_lineTax hx
  · rw [Dec.le_eq, decide_eq_true_eq, val_zero] at hpos
    exact not_le.mp hpos

/-- The totals of legs whose shares add up to the discount. -/
theorem finishTotals_outcome {cfg : PricingConfig} (hvat0 : 0 ≤ cfg.defaultVatRate.val)
    (hvat1 : cfg.defaultVatRate.val ≤ 1)
    {itemsNet courierFeeNet serviceFee discount courierAlloc : Dec} {lineAlloc : List Dec}
    {lines : List PricingLine} {fee service d c : ℤ} {ls : List PricedLeg}
    (hitemsNet : itemsNet.Within 1 (ls.map PricedLeg.net).sum) (hfee : courierFeeNet.Within 1 fee)
    (hservice : serviceFee.Within 1 service) (hd : discount.Within 1 d)
    (hc : courierAlloc.Within 6 c) (halloc : (sumDec lineAlloc).Within 6 (ls.map PricedLeg.share).sum)
    (hsum : (ls.map PricedLeg.share).sum + c = d) (hlines : List.Forall₂ PricedLeg.Shows ls lines)
    (htax : (sumDec (lines.map (·.lineTaxAmount))).Within 7 (ls.map PricedLeg.tax).sum)
    (htotal : (sumDec (lines.map (·.lineTotalAmount))).Within 14 (ls.map PricedLeg.total).sum) :
    Outcome (fun r => (r.itemsNetAmount = itemsNet ∧ r.courierFeeAmount = courierFeeNet ∧
        r.serviceFeeAmount = serviceFee ∧ r.discountAmount = discount) ∧
      (Legs.invoice ls cfg.defaultVatRate fee c service d).Priced r ∧
      0 < (Legs.invoice ls cfg.defaultVatRate fee c service d).total) SumsHold
      (finishTotals cfg itemsNet courierFeeNet serviceFee discount lineAlloc courierAlloc lines) := by
  have hinvalid : ∀ e, e = Err.invalidOperation → SumsHold e :=
    fun e he => he ▸ sumsHold_invalidOperation
  have hcourierTaxable := hfee.sub hc (by decide)
  have hcourierTax := hcourierTaxable.timesRate hvat0 hvat1 (by decide)
  have hserviceTax := hservice.timesRate hvat0 hvat1 (by decide)
  unfold finishTotals
  apply ((quantizeDec_outcome _).mono (fun _ hy => hy) hinvalid).bind
  rintro courierTax ⟨rfl, -⟩
  rw [timesRate_eq hcourierTaxable.halalas]
  apply ((quantizeDec_outcome _).mono (fun _ hy => hy) hinvalid).bind
  rintro serviceTax ⟨rfl, -⟩
  rw [timesRate_eq hservice.halalas]
  -- The sums fit the digits of the context, so none of them is rounded.
  have htaxes := htax.add (hcourierTax.add hserviceTax (by decide)) (by decide)
  have hnet := ((hitemsNet.add hfee (by decide)).add hservice (by decide)).sub hd (by decide)
  have htotalAmount := hnet.add htaxes (by decide)
  have htotalAlloc := halloc.add hc (by decide)
  have hreconstructed := (htotal.add (hcourierTaxable.add hcourierTax (by decide))
    (by decide)).add (hservice.add hserviceTax (by decide)) (by decide)
  dsimp only
  -- The comparisons are those of whole halalas.
  rw [htotalAlloc.halalas.eq_eq hd.halalas, hreconstructed.halalas.eq_eq htotalAmount.halalas,
    htotalAmount.halalas.le_eq (halalas_cents 0)]
  have htotals := sum_total_eq ls
  -- The allocation and the reconstruction hold by the sums of the legs.
  apply Outcome.check
  · intro h
    simp [hsum] at h
  intro _
  apply Outcome.check
  · intro h
    simp at h
    omega
  intro _
  apply Outcome.check
  · intro _
    constructor <;> simp
  intro hpos
  apply Outcome.check
  · intro _
    constructor <;> simp
  intro _
  refine ⟨⟨rfl, rfl, rfl, rfl⟩, ?_, ?_⟩
  · constructor
    case lines => exact hlines
    case itemsNet => exact hitemsNet.halalas
    case courierFee => simpa [Legs.invoice] using hfee.halalas
    case courierFeeDiscount => exact hc.halalas
    case courierFeeTax => simpa [Legs.invoice] using hcourierTax.halalas
    case serviceFee => simpa [Legs.invoice] using hservice.halalas
    case serviceFeeTax => simpa [Legs.invoice] using hserviceTax.halalas
    case discount => exact hd.halalas
    case netAfterDiscount =>
      rw [Legs.net_invoice]
      exact hnet.halalas
    case tax =>
      rw [Legs.tax_invoice]
      exact htaxes.halalas
    case total =>
      rw [Legs.total_invoice]
      exact htotalAmount.halalas
  · rw [Legs.total_invoice]
    simpa using hpos

/-- The lines and the totals of lines whose shares are known. -/
theorem priceAndFinish_outcome {items : List PricingItem} (hitems : ∀ i ∈ items, i.Valid)
    {cfg : PricingConfig} (hvat0 : 0 ≤ cfg.defaultVatRate.val) (hvat1 : cfg.defaultVatRate.val ≤ 1)
    {fee service d c : ℤ} {serviceFee discount courierAlloc : Dec} {lineAlloc : List Dec}
    {shares : List ℤ} (hlength : items.length = shares.length)
    (hitemsNet : (sumDec ((items.map PricingItem.net).map cents)).Within 1
      (items.map PricingItem.net).sum)
    (hnets : ((items.map PricingItem.net).map Int.natAbs).sum ≤ exactBound)
    (hfee : (cents fee).Within 1 fee) (hservice : serviceFee.Within 1 service)
    (hd : discount.Within 1 d) (hc : courierAlloc.Within 6 c)
    (hshares : List.Forall₂ Halalas lineAlloc shares)
    (hshareAbs : ((shares.map Int.natAbs).sum : ℤ) ≤ 6 * exactBound) (hsum : shares.sum + c = d) :
    Outcome (fun r => (r.itemsNetAmount = sumDec ((items.map PricingItem.net).map cents) ∧
        r.courierFeeAmount = cents fee ∧ r.serviceFeeAmount = serviceFee ∧
        r.discountAmount = discount) ∧
      (Legs.invoice (legs items shares) cfg.defaultVatRate fee c service d).Priced r ∧
      0 < (Legs.invoice (legs items shares) cfg.defaultVatRate fee c service d).total) SumsHold
      (do
        let lines ← (items.zip (((items.map PricingItem.net).map cents).zip lineAlloc)).zipIdx.mapM
          fun x => priceLine x.2 x.1.1 x.1.2.1 x.1.2.2
        finishTotals cfg (sumDec ((items.map PricingItem.net).map cents)) (cents fee) serviceFee
          discount lineAlloc courierAlloc lines) := by
  have hlimit := exactBound_lt
  -- Every number on the way is at most a few bases, hence exact at 28 digits.
  have hsize := sum_size_legs hlength
  have hrate : ∀ l ∈ legs items shares, 0 ≤ l.rate.val ∧ l.rate.val ≤ 1 := by
    intro l hl
    obtain ⟨i, hi, s, rfl⟩ := exists_of_mem_legs hl
    exact ⟨(hitems i hi).rate_nonneg, (hitems i hi).rate_le⟩
  have hlsize : ∀ l ∈ legs items shares, l.size ≤ ((legs items shares).map PricedLeg.size).sum :=
    fun l hl => List.single_le_sum (fun _ _ => Nat.zero_le _) _ (List.mem_map_of_mem hl)
  have hsizele : (((legs items shares).map PricedLeg.size).sum : ℤ) ≤ 7 * exactBound := by
    rw [hsize, Nat.cast_add]
    omega
  have hlt : ∀ l ∈ legs items shares, 2 * l.size < limit := fun l hl => by
    have := hlsize l hl
    omega
  have hinvalid : ∀ e, e = Err.invalidOperation → SumsHold e :=
    fun e he => he ▸ sumsHold_invalidOperation
  have hitemNets : List.Forall₂ (fun i (y : Dec) => y.Halalas i.net) items
      ((items.map PricingItem.net).map cents) :=
    (List.forall₂_map_right_iff.mp (forall₂_halalas_cents _)).flip
  apply ((lines_outcome hitemNets hitems hshares hlength hlt 0).mono (fun _ hy => hy) hinvalid).bind
  intro lines hlines
  have htaxabs := sum_natAbs_le_size (f := PricedLeg.tax) (k := 1) fun l hl =>
    (PricedLeg.natAbs_tax_le (hrate l hl).1 (hrate l hl).2 (by have := hlt l hl; omega)).trans
      (Nat.one_mul _).ge
  have htotalabs := sum_natAbs_le_size (f := PricedLeg.total) (k := 2) fun l hl =>
    PricedLeg.natAbs_total_le (hrate l hl).1 (hrate l hl).2 (by have := hlt l hl; omega)
  rw [Nat.one_mul] at htaxabs
  -- The sum of the shares is exact too, whatever their signs.
  have hshareSum : (sumDec lineAlloc).Within 6 shares.sum :=
    within_sumDec hshares hshareAbs (by decide)
  have hitemsNet' : (sumDec ((items.map PricingItem.net).map cents)).Within 1
      ((legs items shares).map PricedLeg.net).sum := by
    rw [legs_map_net hlength]
    exact hitemsNet
  rw [← legs_map_share hlength] at hsum hshareSum
  exact finishTotals_outcome hvat0 hvat1 hitemsNet' hfee hservice hd hc hshareSum hsum hlines
    (within_sum_of_shows hlines (fun _ _ hl => hl.tax) (by omega) (by decide))
    (within_sum_of_shows hlines (fun _ _ hl => hl.total) (by omega) (by decide))

/-- The service fee raises no error about sums. -/
theorem computeServiceFee_error {b : Dec} {cfg : PricingConfig} {e : Err}
    (h : computeServiceFee b cfg = .error e) : SumsHold e := by
  unfold computeServiceFee at h
  split_ifs at h
  rw [quantizeDec_eq] at h
  split_ifs at h
  · cases h
  · cases h
    exact sumsHold_invalidOperation

/-- The discount raises no error about sums. -/
theorem computeDiscount_error {b : Dec} {promo : Option PricingPromo} {e : Err}
    (h : computeDiscount b promo = .error e) : SumsHold e := by
  unfold computeDiscount at h
  split at h
  · cases h
  · split at h
    · split at h
      · cases h
        constructor <;> simp
      · split at h
        · rename_i ratio _
          rw [quantizeDec_eq] at h
          split_ifs at h
          · cases h
          · cases h
            exact sumsHold_invalidOperation
        · cases h
          exact sumsHold_invalidOperation
    · split at h
      · cases h
        constructor <;> simp
      · cases h

/-- The engine's specification. -/
theorem calculateInvoiceTotals_outcome {items : List PricingItem} {courierFeeAmount : Dec}
    {promo : Option PricingPromo} {cfg : PricingConfig}
    (h : ExactInputs items courierFeeAmount promo cfg) :
    Outcome (fun r => ∃ service discount shares courierShare,
      Computed items courierFeeAmount promo cfg r service discount shares courierShare) SumsHold
      (calculateInvoiceTotals items courierFeeAmount promo cfg) := by
  have hlimit := exactBound_lt
  have hnetpos := ExactInputs.net_pos h.item_valid
  have hnets0 := sum_pos_nonneg hnetpos
  have hfee0 := ExactInputs.amount_nonneg h.fee_nonneg
  have hbase0 := h.base_pos
  have hsum := ExactInputs.halalas_sum h.item_valid h.fee_nonneg h.base_le
  have hbase := ExactInputs.halalas_base h.item_valid h.fee_nonneg h.base_le
  have hle := h.base_le
  have hbase' : baseOf items courierFeeAmount =
    (items.map PricingItem.net).sum + courierFeeAmount.amount := rfl
  have habs := sum_natAbs fun n hn => (hnetpos n hn).le
  have hnet_le : ∀ i ∈ items, i.net ≤ (items.map PricingItem.net).sum := fun i hi =>
    List.single_le_sum (fun n hn => (hnetpos n hn).le) _ (List.mem_map_of_mem hi)
  have hinvalid : ∀ e, e = Err.invalidOperation → SumsHold e :=
    fun e he => he ▸ sumsHold_invalidOperation
  rw [calculateInvoiceTotals_eq,
    lineNets_eq h.item_valid fun i hi => (hnet_le i hi).trans_lt (by omega), Store.ok_bind]
  apply ((quantizeDec_outcome courierFeeAmount).mono (fun _ hy => hy) hinvalid).bind
  rintro courierFeeNet ⟨rfl, -⟩
  change Outcome _ _ (computeServiceFee
    (discountableOf (items.map PricingItem.net) courierFeeAmount.amount) cfg >>= _)
  -- the service fee, the discount and its allocation
  apply (Outcome.of_errors fun e he => computeServiceFee_error he).bind
  intro serviceFee hserviceEq
  obtain ⟨service, hservice, hservice1⟩ := h.service serviceFee hserviceEq
  apply (Outcome.of_errors fun e he => computeDiscount_error he).bind
  intro discount hdiscountEq
  obtain ⟨d, hd, hd0, hd1⟩ := h.discount discount hdiscountEq
  obtain ⟨lineAlloc, courierAlloc, shares, c, hallocEq, hshares, hc, halloc⟩ :=
    exists_allocateDiscount hd hbase (ne_nil_of_base_pos hbase0) hnetpos hfee0
      hbase' hd0 hd1 hle
  have hshare : 0 < d → ∀ n ∈ items.map PricingItem.net, Share d (baseOf items courierFeeAmount) n _ :=
    fun hdpos n hn => share_shareOf hd hbase hdpos hbase0 (hnetpos n hn)
  have hsumabs := halloc.sum_natAbs_le hnetpos hfee0 hbase' hbase0 hshare
  have hcabs : |c| ≤ (6 : ℕ) * exactBound := by
    rw [Int.abs_eq_natAbs]
    omega
  have hlength : items.length = shares.length := by
    rw [← halloc.length_eq, List.length_map]
  change Outcome _ _ (allocateDiscount _ _ _ (discountableOf _ _) >>= _)
  rw [hallocEq, Store.ok_bind]
  have hfinish := priceAndFinish_outcome h.item_valid h.vatRate_nonneg h.vatRate_le hlength
    (.of_nonneg hsum hnets0 (by omega)) (by omega)
    (.of_nonneg (halalas_cents _) hfee0 (by omega)) (.one hservice hservice1)
    (.of_nonneg hd hd0 (by omega)) ⟨hc, hcabs⟩ hshares (by omega) halloc.sum_eq
  apply hfinish.mono _ fun _ he => he
  rintro r ⟨⟨hrNet, hrFee, rfl, rfl⟩, hpriced, hpos⟩
  exact ⟨service, d, shares, c, hrNet, hrFee, hserviceEq, hdiscountEq, hpriced, hservice1, hd0, hd1,
    halloc, hpos⟩

/-! ## Inputs of a valid configuration -/

/-- Inputs that the engine is made for, below `exactBound`. -/
structure ValidInputs (items : List PricingItem) (courierFeeAmount : Dec)
    (promo : Option PricingPromo) (cfg : PricingConfig) : Prop where
  nonempty : items ≠ []
  item_valid : ∀ i ∈ items, i.Valid
  fee_nonneg : 0 ≤ courierFeeAmount.val
  promo_valid : ∀ p ∈ promo, p.Valid
  cfg_valid : cfg.Valid
  bound : baseOf items courierFeeAmount + cfg.serviceFeeMinAmount.amount ≤ exactBound

namespace ValidInputs

variable {items : List PricingItem} {courierFeeAmount : Dec} {promo : Option PricingPromo}
  {cfg : PricingConfig}

/-- The base of valid inputs is below the bound. -/
theorem base_le (h : ValidInputs items courierFeeAmount promo cfg) :
    baseOf items courierFeeAmount ≤ exactBound := by
  have hmin := h.cfg_valid.feeMin_nonneg
  have hbound := h.bound
  omega

/-- The base of valid inputs adds up exactly. -/
theorem halalas_base (h : ValidInputs items courierFeeAmount promo cfg) :
    (discountableOf (items.map PricingItem.net) courierFeeAmount.amount).Halalas
      (baseOf items courierFeeAmount) :=
  ExactInputs.halalas_base h.item_valid h.fee_nonneg h.base_le

/-- The base of valid inputs is positive. -/
theorem base_pos (h : ValidInputs items courierFeeAmount promo cfg) :
    0 < baseOf items courierFeeAmount :=
  ExactInputs.base_pos_of_ne_nil h.nonempty h.item_valid h.fee_nonneg

/-- The service fee is at most the base or its minimum. -/
theorem exists_service (h : ValidInputs items courierFeeAmount promo cfg) {y : Dec}
    (hy : computeServiceFee (discountableOf (items.map PricingItem.net) courierFeeAmount.amount)
      cfg = .ok y) : ∃ n, y.Halalas n ∧ 0 ≤ n ∧ n ≤ exactBound := by
  have hbound := h.bound
  obtain ⟨n, hn, hn0, hn1⟩ :=
    (computeServiceFee_outcome h.cfg_valid h.halalas_base h.base_pos h.base_le).of_eq_ok hy
  exact ⟨n, hn, hn0, by omega⟩

/-- The engine is exact on valid inputs. -/
theorem exact (h : ValidInputs items courierFeeAmount promo cfg) :
    ExactInputs items courierFeeAmount promo cfg where
  item_valid := h.item_valid
  fee_nonneg := h.fee_nonneg
  base_pos := h.base_pos
  vatRate_nonneg := h.cfg_valid.vatRate_nonneg
  vatRate_le := h.cfg_valid.vatRate_le
  base_le := h.base_le
  service := by
    intro y hy
    obtain ⟨n, hn, hn0, hn1⟩ := h.exists_service hy
    exact ⟨n, hn, (abs_of_nonneg hn0).le.trans hn1⟩
  discount := by
    intro y hy
    exact (computeDiscount_outcome h.halalas_base h.base_pos h.promo_valid).of_eq_ok hy

/-- The service fee of a computed invoice is not negative. -/
theorem service_nonneg (h : ValidInputs items courierFeeAmount promo cfg) {r : PricingResult}
    {service discount courierShare : ℤ} {shares : List ℤ}
    (hr : Computed items courierFeeAmount promo cfg r service discount shares courierShare) :
    0 ≤ service := by
  obtain ⟨n, hn, hn0, -⟩ := h.exists_service hr.service_eq
  have hservice : r.serviceFeeAmount.Halalas service := by
    simpa [Legs.invoice] using hr.priced.serviceFee
  rwa [hservice.unique hn]

end ValidInputs

end Giftly
