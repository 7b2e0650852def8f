import Giftly.Pricing.Totals

/-!
# The engine on stored lines

The engine reads a line through its rounded unit price and its rounded net. The columns of a stored
line hold both, because `chk_item_line_math` makes the net the price times the quantity, so the
engine computes the same result on the lines read back as on the lines that were entered.
-/

namespace Giftly

open Dec

/-- A computed line shows an item: its texts, its quantity, its rate, and its rounded amounts. -/
structure PricingItem.ShownBy (item : PricingItem) (line : PricingLine) : Prop where
  position : item.position ≠ 0 → line.position = item.position
  title : line.title = item.title
  description : line.description = item.description
  unitPrice : quantizeDec item.unitPriceAmount = .ok line.unitPriceAmount
  quantity : line.quantity = item.quantity
  taxRate : line.taxRate = item.taxRate
  net : quantizeDec (item.unitPriceAmount.mul ⟨item.quantity, 0⟩) = .ok line.lineNetAmount

/-- The allocation returns a share for every line. -/
theorem length_allocateDiscount {lineNets lineAlloc : List Dec}
    {courierFeeNet discount discountable courierAlloc : Dec}
    (h : allocateDiscount lineNets courierFeeNet discount discountable =
      .ok (lineAlloc, courierAlloc)) : lineNets.length = lineAlloc.length := by
  unfold allocateDiscount at h
  by_cases hcond : (discount.le zero || discountable.le zero) = true
  · rw [if_pos hcond] at h
    obtain ⟨rfl, -⟩ := Prod.mk.inj (Except.ok.inj h)
    rw [List.length_map]
  rw [if_neg hcond] at h
  obtain ⟨alloc, halloc, h⟩ := Store.exists_of_bind_eq_ok h
  have hlength := (Store.forall₂_of_mapM_eq_ok halloc).length_eq
  cases hfee : zero.lt courierFeeNet with
  -- The courier's fee takes the rest.
  | true =>
    simp only [hfee, if_true] at h
    obtain ⟨courier, -, h⟩ := Store.exists_of_bind_eq_ok h
    split_ifs at h <;> exact (Prod.mk.inj (Except.ok.inj h)).1 ▸ hlength
  -- The last line takes the rest, which changes a share but not their number.
  | false =>
    simp only [hfee, Bool.false_eq_true, if_false, Store.ok_bind] at h
    split_ifs at h
    · exact (Prod.mk.inj (Except.ok.inj h)).1 ▸ hlength
    · rw [← (Prod.mk.inj (Except.ok.inj h)).1, List.length_modify]
      exact hlength

/-- The first two members of a triple stand at one place of their lists. -/
theorem mem_zip_of_mem_zip_zip {α β γ : Type} : ∀ {xs : List α} {ys : List β} {zs : List γ} {x : α}
    {y : β} {z : γ}, (x, y, z) ∈ xs.zip (ys.zip zs) → (x, y) ∈ xs.zip ys
  | a :: xs, b :: ys, c :: zs, x, y, z, h => by
    rw [List.zip_cons_cons, List.zip_cons_cons, List.mem_cons] at h
    rw [List.zip_cons_cons, List.mem_cons]
    rcases h with heq | hmem
    · obtain ⟨rfl, hyz⟩ := Prod.mk.inj heq
      exact .inl (by rw [(Prod.mk.inj hyz).1])
    · exact .inr (mem_zip_of_mem_zip_zip hmem)

/-- The lines of the result are those that were computed. -/
theorem lines_of_finishTotals {cfg : PricingConfig}
    {itemsNet courierFeeNet serviceFee discount courierAlloc : Dec} {lineAlloc : List Dec}
    {lines : List PricingLine} {r : PricingResult}
    (h : finishTotals cfg itemsNet courierFeeNet serviceFee discount lineAlloc courierAlloc lines =
      .ok r) : r.lines = lines := by
  unfold finishTotals at h
  obtain ⟨courierTax, -, h⟩ := Store.exists_of_bind_eq_ok h
  obtain ⟨serviceTax, -, h⟩ := Store.exists_of_bind_eq_ok h
  dsimp only at h
  obtain ⟨-, h⟩ := Store.check_eq_ok.mp h
  obtain ⟨-, h⟩ := Store.check_eq_ok.mp h
  obtain ⟨-, h⟩ := Store.check_eq_ok.mp h
  obtain ⟨-, h⟩ := Store.check_eq_ok.mp h
  exact (congrArg PricingResult.lines (Except.ok.inj h)).symm

/-- A computed line shows its item. -/
theorem shownBy_of_priceLine {idx : ℕ} {item : PricingItem} {net alloc : Dec} {line : PricingLine}
    (h : priceLine idx item net alloc = .ok line)
    (hnet : quantizeDec (item.unitPriceAmount.mul ⟨item.quantity, 0⟩) = .ok net) :
    item.ShownBy line := by
  unfold priceLine at h
  obtain ⟨lineTax, -, h⟩ := Store.exists_of_bind_eq_ok h
  obtain ⟨unitPrice, hprice, h⟩ := Store.exists_of_bind_eq_ok h
  obtain rfl := Except.ok.inj h
  exact ⟨fun hne => if_neg hne, rfl, rfl, hprice, rfl, rfl, hnet⟩

/-- The lines of a result show the items, in their order. -/
theorem shownBy_of_calculateInvoiceTotals {items : List PricingItem} {courierFeeAmount : Dec}
    {promo : Option PricingPromo} {cfg : PricingConfig} {r : PricingResult}
    (h : calculateInvoiceTotals items courierFeeAmount promo cfg = .ok r) :
    List.Forall₂ PricingItem.ShownBy items r.lines := by
  rw [calculateInvoiceTotals_eq] at h
  -- Only the nets and the lines matter here; the other stages leave the lines alone.
  obtain ⟨lineNets, hnets, h⟩ := Store.exists_of_bind_eq_ok h
  obtain ⟨courierFeeNet, -, h⟩ := Store.exists_of_bind_eq_ok h
  obtain ⟨serviceFee, -, h⟩ := Store.exists_of_bind_eq_ok h
  obtain ⟨discount, -, h⟩ := Store.exists_of_bind_eq_ok h
  obtain ⟨⟨lineAlloc, courierAlloc⟩, halloc, h⟩ := Store.exists_of_bind_eq_ok h
  obtain ⟨lines, hlines, h⟩ := Store.exists_of_bind_eq_ok h
  obtain rfl := lines_of_finishTotals h
  have hnets := Store.forall₂_of_mapM_eq_ok hnets
  have hlines := Store.forall₂_of_mapM_eq_ok hlines
  have hlength : items.length = (lineNets.zip lineAlloc).length := by
    rw [List.length_zip, ← length_allocateDiscount halloc, min_self, hnets.length_eq]
  -- The zipped list has one entry for each item, in the order of the items.
  have hfst : ((items.zip (lineNets.zip lineAlloc)).zipIdx.map fun x => x.1.1) = items := by
    calc ((items.zip (lineNets.zip lineAlloc)).zipIdx.map fun x => x.1.1)
        = ((items.zip (lineNets.zip lineAlloc)).zipIdx.map Prod.fst).map Prod.fst :=
          List.map_map.symm
      _ = (items.zip (lineNets.zip lineAlloc)).map Prod.fst := by rw [List.zipIdx_map_fst]
      _ = items := List.map_fst_zip hlength.le
  rw [← hfst, List.forall₂_map_left_iff]
  have hshown : ∀ x ∈ (items.zip (lineNets.zip lineAlloc)).zipIdx,
      quantizeDec (x.1.1.unitPriceAmount.mul ⟨x.1.1.quantity, 0⟩) = .ok x.1.2.1 := by
    intro x hx
    have hmem := mem_zip_of_mem_zip_zip (List.fst_mem_of_mem_zipIdx hx)
    exact List.forall₂_zip hnets hmem
  have hboth := (List.forall₂_and_left _ _).mpr ⟨hshown, hlines⟩
  exact hboth.imp fun x line hx => shownBy_of_priceLine hx.2 hx.1

/-! ## Rounded items -/

/-- An item at its rounded unit price. -/
def PricingItem.rounded (item : PricingItem) : PricingItem :=
  { item with unitPriceAmount := cents item.unitPriceAmount.amount }

/-- A rounded amount is quantized as the number was. -/
theorem quantizeDec_amount (x : Dec) : quantizeDec (cents x.amount) = quantizeDec x := by
  rw [quantizeDec_eq, quantizeDec_eq, Halalas.amount_cents]

/-- A line is computed the same at the rounded unit price, once its net is given. -/
theorem priceLine_rounded (idx : ℕ) (item : PricingItem) (net alloc : Dec) :
    priceLine idx item.rounded net alloc = priceLine idx item net alloc := by
  unfold priceLine PricingItem.rounded
  simp only [quantizeDec_amount]

/-- The net of an item at its rounded unit price is its rounded net. -/
def PricingItem.KeepsNet (item : PricingItem) : Prop :=
  quantizeDec ((cents item.unitPriceAmount.amount).mul ⟨item.quantity, 0⟩) =
    quantizeDec (item.unitPriceAmount.mul ⟨item.quantity, 0⟩)

/-- The nets are the same at the rounded unit prices. -/
theorem lineNets_rounded {items : List PricingItem} (hnet : ∀ i ∈ items, i.KeepsNet) :
    ((items.map PricingItem.rounded).mapM fun i =>
      quantizeDec (i.unitPriceAmount.mul ⟨i.quantity, 0⟩)) =
    items.mapM fun i => quantizeDec (i.unitPriceAmount.mul ⟨i.quantity, 0⟩) := by
  rw [List.mapM_map]
  exact Store.mapM_congr hnet

/-- The engine computes the same on the rounded items. -/
theorem calculateInvoiceTotals_rounded {items : List PricingItem} (courierFeeAmount : Dec)
    (promo : Option PricingPromo) (cfg : PricingConfig) (hnet : ∀ i ∈ items, i.KeepsNet) :
    calculateInvoiceTotals (items.map PricingItem.rounded) (cents courierFeeAmount.amount) promo cfg =
      calculateInvoiceTotals items courierFeeAmount promo cfg := by
  have hlines : ∀ rest : List (Dec × Dec),
      (((items.map PricingItem.rounded).zip rest).zipIdx.mapM fun x =>
        priceLine x.2 x.1.1 x.1.2.1 x.1.2.2) =
      ((items.zip rest).zipIdx.mapM fun x => priceLine x.2 x.1.1 x.1.2.1 x.1.2.2) := by
    intro rest
    rw [List.zip_map_left, List.zipIdx_map, List.mapM_map]
    apply Store.mapM_congr
    exact fun x _ => priceLine_rounded x.2 x.1.1 x.1.2.1 x.1.2.2
  rw [calculateInvoiceTotals_eq, calculateInvoiceTotals_eq, lineNets_rounded hnet,
    quantizeDec_amount]
  simp only [hlines]

/-! ## Stored lines -/

namespace PricingItem.ShownBy

variable {item : PricingItem} {line : PricingLine} {invoiceId : Id}

/-- The unit price of a line is stored rounded. -/
theorem toMoneyColumn_unitPrice (h : item.ShownBy line) :
    toMoneyColumn line.unitPriceAmount = item.unitPriceAmount.amount := by
  rw [eq_of_quantizeDec h.unitPrice]
  exact (halalas_cents _).toMoneyColumn_eq

/-- The item is read back from its row at its rounded unit price. -/
theorem storedItems_singleton (h : item.ShownBy line) (hposition : item.position ≠ 0)
    (hrate : ∃ n, item.taxRate = ⟨n, -4⟩) :
    InvoiceService.storedItems [InvoiceRepository.itemRow invoiceId line] = [item.rounded] := by
  obtain ⟨n, hn⟩ := hrate
  have htaxRate : InvoiceRepository.toRateColumn line.taxRate = n := by
    rw [h.taxRate, hn]
    simp [InvoiceRepository.toRateColumn, Dec.scaled]
  simp only [InvoiceService.storedItems, List.map_cons, List.map_nil, InvoiceRepository.itemRow,
    PricingItem.rounded, h.toMoneyColumn_unitPrice, htaxRate, h.title, h.description, h.quantity,
    h.position hposition, hn]

/-- The constraints of the row make the net at the rounded unit price the rounded net. -/
theorem keepsNet (h : item.ShownBy line)
    (hcheck : (InvoiceRepository.itemRow invoiceId line).check = none) : item.KeepsNet := by
  simp only [InvoiceItem.check, violated_eq_none, List.forall_mem_cons, Bool.and_eq_true,
    decide_eq_true_eq] at hcheck
  have hmath := hcheck.2.2.2.2.1.1.1
  have hnet := eq_of_quantizeDec h.net
  have hlimit : (item.unitPriceAmount.mul ⟨item.quantity, 0⟩).amount.natAbs < limit :=
    (quantizeDec_outcome _).of_eq_ok h.net |>.2
  simp only [InvoiceRepository.itemRow, hnet, (halalas_cents _).toMoneyColumn_eq,
    h.toMoneyColumn_unitPrice, h.quantity] at hmath
  have hproduct : (cents item.unitPriceAmount.amount).mul ⟨item.quantity, 0⟩ =
      cents (item.unitPriceAmount.mul ⟨item.quantity, 0⟩).amount := by
    rw [hmath] at hlimit ⊢
    exact fix_of_lt hlimit
  unfold PricingItem.KeepsNet
  rw [hproduct, quantizeDec_amount]

end PricingItem.ShownBy

/-- The items that are read back from the rows are the entered ones at their rounded unit prices. -/
theorem storedItems_itemRow {items : List PricingItem} {lines : List PricingLine} {invoiceId : Id}
    (h : List.Forall₂ PricingItem.ShownBy items lines) (hposition : ∀ i ∈ items, i.position ≠ 0)
    (hrate : ∀ i ∈ items, ∃ n, i.taxRate = ⟨n, -4⟩) :
    InvoiceService.storedItems (lines.map (InvoiceRepository.itemRow invoiceId)) =
      items.map PricingItem.rounded := by
  induction h with
  | nil => rfl
  | @cons item line items lines hline _ ih =>
    rw [List.forall_mem_cons] at hposition hrate
    change InvoiceService.storedItems [InvoiceRepository.itemRow invoiceId line] ++
      InvoiceService.storedItems (lines.map (InvoiceRepository.itemRow invoiceId)) =
        [item.rounded] ++ items.map PricingItem.rounded
    rw [hline.storedItems_singleton hposition.1 hrate.1, ih hposition.2 hrate.2]

end Giftly
