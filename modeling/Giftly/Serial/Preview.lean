import Giftly.Core.Parsing
import Giftly.Serial.Invoicing
import Giftly.Serial.Slots

/-!
# The preview of a promo

`preview_promo` prices the stored lines of an issued invoice again, with a promo. When that invoice
is cancelled and issued again with the promo, the engine gets the lines that the courier enters. Both
runs have one result, because the engine computes the same on stored lines as on entered ones.
-/

namespace Giftly

open Store
open InvoiceService

variable {m : Memory} {d d' : Db} {s : Settings} {now : Time}

/-- The discount of `validate` on the discountable base is the engine's. -/
theorem discountAmount_eq {items : List PricingItem} {courierFeeAmount base discountAmount : Dec}
    {promo : PricingPromo} {cfg : PricingConfig} {r : PricingResult}
    (hbase : discountableBase items courierFeeAmount = .ok base)
    (hdiscount : computePromoDiscount base promo = .ok discountAmount)
    (hr : calculateInvoiceTotals items courierFeeAmount (some promo) cfg = .ok r) :
    discountAmount = r.discountAmount := by
  have hreturned := returned_of_calculateInvoiceTotals hr
  obtain ⟨lineNets, hnets, hitemsNet⟩ := hreturned.itemsNet
  unfold discountableBase at hbase
  rw [hnets, ok_bind, hreturned.courierFee, ok_bind] at hbase
  obtain rfl := Except.ok.inj hbase
  have hengine := hreturned.discount
  rw [hitemsNet] at hengine
  exact Except.ok.inj (hdiscount.symm.trans hengine)

/-- What `preview_promo` has computed for an invoice. -/
structure Previews (s : Settings) (now : Time) (code : Text) (customerId : Id) (d : Db)
    (invoiceId : Id) (invoice : Invoice) (preview : PromoPreview) (base : Dec) (promo : Id × Promo) :
    Prop where
  discountable : discountableBase (storedItems (InvoiceRepository.linesOf invoiceId d))
    (.cents invoice.courierFeeAmount) = .ok base
  valid : PromoService.Validates now code base customerId d promo preview.discountAmount
  priced : ∃ r, calculateInvoiceTotals (storedItems (InvoiceRepository.linesOf invoiceId d))
    (.cents invoice.courierFeeAmount) (some (PromoService.toPricingPromo promo.2))
      (pricingConfig s) = .ok r ∧
    preview.discountAmount = r.discountAmount ∧ preview.totalAmount = r.totalAmount

/-- `preview_promo` alone has priced the stored lines of the active invoice. -/
theorem previewPromo_ends {oid u iid : Id} {i : Invoice} {code : Text}
    (hactive : (InvoiceRepository.getActiveForOrderForActor oid u).run m d =
      .ok (some (iid, i), m, d)) :
    Ends (previewPromo s now oid code u)
      (fun preview _ _ => ∃ base promo, Previews s now code u d iid i preview base promo) m d := by
  have hfound : (d.invoices.find? fun _ i => i.orderId = oid && i.status.active &&
      (d.orders.get? i.orderId).any fun o => o.customerId = u || o.courierId = some u) =
        some (iid, i) := (Prod.mk.inj (Except.ok.inj hactive)).1
  unfold previewPromo InvoiceRepository.getActiveForOrderForActor
  rw [ends_bind, ends_query, hfound]
  dsimp only
  rw [InvoiceRepository.listItems_eq]
  simp only [ends_bind, ends_query, ends_ofExcept]
  intro base hbase
  refine PromoService.validate_ends fun promo discountAmount hvalid => ?_
  intro r hr
  have heq := discountAmount_eq hbase hvalid.spec.2 hr
  exact ⟨base, promo, hbase, heq ▸ hvalid, r, hr, rfl, rfl⟩

/-- The engine on the stored lines of an invoice, however often it was billed since. -/
theorem calculateInvoiceTotals_stored {ids : NewIds} {oid k : Id} {x : NewInvoiceInput} {o : Order}
    {promo : Option (Id × Promo)} {r : PricingResult} {d₂ : Db} {i : Invoice}
    (h : Stores s now ids oid k x d d' o promo r) (howned : LinesOwned d)
    (hrate : ∀ line ∈ x.items, ∃ n, line.taxRate = ⟨n, -4⟩)
    (hbilled : Billed d₂ ids.invoiceId (InvoiceRepository.issuedRow s now oid k promo r)
      (InvoiceRepository.linesOf ids.invoiceId d'))
    (hi : d₂.invoices.get? ids.invoiceId = some i) :
    storedItems (InvoiceRepository.linesOf ids.invoiceId d₂) =
        (pricingItems x.items).map PricingItem.rounded ∧
      i.courierFeeAmount = x.courierFeeAmount.amount ∧
      ∀ item ∈ pricingItems x.items, item.KeepsNet := by
  have hshown := shownBy_of_calculateInvoiceTotals h.priced
  refine ⟨?_, ?_, ?_⟩
  · -- The items that are read back are the ones that were priced.
    rw [hbilled.lines, h.linesOf_eq howned]
    apply storedItems_itemRow hshown position_ne_zero
    intro item hitem
    obtain ⟨y, hy, rfl⟩ := List.mem_map.mp hitem
    exact hrate y.1 (List.fst_mem_of_mem_zipIdx hy)
  · -- The courier's fee is a column that no later write changes.
    obtain ⟨j, hj, hfrozen⟩ := hbilled.row
    obtain rfl : j = i := Option.some.inj (hj.symm.trans hi)
    have hfee : j.courierFeeAmount = toMoneyColumn r.courierFeeAmount :=
      congrArg Invoice.courierFeeAmount hfrozen
    have hquantized := (returned_of_calculateInvoiceTotals h.priced).courierFee
    rw [hfee, eq_of_quantizeDec hquantized, (Dec.halalas_cents _).toMoneyColumn_eq]
  · intro item hitem
    obtain ⟨line, hline, hitemLine⟩ := exists_of_forall₂_right hshown.flip hitem
    exact PricingItem.ShownBy.keepsNet hitemLine (h.lines line hline)

/-- A preview on an invoice that `create_invoice` stored, and the invoice that is issued for the same
lines with the promo: one discount and one total, and in both runs the discount is the one that
`validate` finds on the discountable base. The rates of the lines have four decimals because the route
has parsed them with `parse_rate`, as `toDec_of_parseRate` says. -/
theorem preview_agrees {refresh : Bool} {s : Settings} {now₁ now₂ now₃ : Time} {ids₁ ids₃ : NewIds}
    {oid oid₃ k k₃ u : Id} {x : NewInvoiceInput} {code : Text} {m₁ m₁' m₂ m₂' m₃ m₃' : Memory}
    {d₁ d₁' d₂ d₂' d₃ d₃' : Db} {i : Invoice} {preview : PromoPreview}
    (howned : LinesOwned d₁) (hrate : ∀ line ∈ x.items, ∃ n, line.taxRate = ⟨n, -4⟩)
    (hcreate : (createInvoice s now₁ ids₁ oid k x).run m₁ d₁ = .ok ((), m₁', d₁'))
    (hrun : SerialRun refresh s (fun _ _ => True) d₁' d₂)
    (hactive : (InvoiceRepository.getActiveForOrderForActor oid u).run m₂ d₂ =
      .ok (some (ids₁.invoiceId, i), m₂, d₂))
    (hpreview : (previewPromo s now₂ oid code u).run m₂ d₂ = .ok (preview, m₂', d₂'))
    (hterms : ∀ p p', d₂.promos.find? (fun _ q => q.code = code) = some p →
      d₃.promos.find? (fun _ q => q.code = code) = some p' →
      PromoService.toPricingPromo p'.2 = PromoService.toPricingPromo p.2)
    (hagain : (createInvoice s now₃ ids₃ oid₃ k₃ { x with promoCode := some code }).run m₃ d₃ =
      .ok ((), m₃', d₃')) :
    (∃ i₃, d₃'.invoices.get? ids₃.invoiceId = some i₃ ∧
      i₃.discountAmount = toMoneyColumn preview.discountAmount ∧
      i₃.totalAmount = toMoneyColumn preview.totalAmount) ∧
    (∃ base promo, discountableBase (storedItems (InvoiceRepository.linesOf ids₁.invoiceId d₂))
        (.cents i.courierFeeAmount) = .ok base ∧
      PromoService.Validates now₂ code base u d₂ promo preview.discountAmount) ∧
    ∃ base promo u₃ r, discountableBase (pricingItems x.items) x.courierFeeAmount = .ok base ∧
      PromoService.Validates now₃ code base u₃ d₃ promo r.discountAmount ∧
      calculateInvoiceTotals (pricingItems x.items) x.courierFeeAmount
        (some (PromoService.toPricingPromo promo.2)) (pricingConfig s) = .ok r ∧
      r.discountAmount = preview.discountAmount ∧ r.totalAmount = preview.totalAmount := by
  obtain ⟨o, promo₁, r₁, hstores⟩ := createInvoice_stores.of_run hcreate
  obtain ⟨base, promo, hpreviews⟩ := (previewPromo_ends hactive).of_run hpreview
  obtain ⟨o₃, promo₃, r₃, hstores₃⟩ := createInvoice_stores.of_run hagain
  have hbilled := hrun.billed (i := InvoiceRepository.issuedRow s now₁ oid k promo₁ r₁)
    ⟨rfl, _, hstores.invoice, rfl⟩
  have hi : d₂.invoices.get? ids₁.invoiceId = some i :=
    (Table.find?_eq_some (Prod.mk.inj (Except.ok.inj hactive)).1).1
  obtain ⟨hitems, hfee, hnet⟩ := calculateInvoiceTotals_stored hstores howned hrate hbilled hi
  obtain ⟨r, hr, hdiscount, htotal⟩ := hpreviews.priced
  rw [hitems, hfee, calculateInvoiceTotals_rounded _ _ _ hnet] at hr
  obtain ⟨promo', base', discountAmount, rfl, hbase', hvalid'⟩ : ∃ promo' base' discountAmount,
      promo₃ = some promo' ∧ discountableBase (pricingItems x.items) x.courierFeeAmount = .ok base' ∧
      PromoService.Validates now₃ code base' o₃.customerId d₃ promo' discountAmount := by
    cases hstores₃.chosen with
    | none hcode => cases hcode
    | some hcode hbase hvalid =>
      obtain rfl := Option.some.inj hcode
      exact ⟨_, _, _, rfl, hbase, hvalid⟩
  -- both runs of the engine are one run
  have hpriced := hstores₃.priced
  have hterm := hterms promo promo' hpreviews.valid.spec.1 hvalid'.spec.1
  rw [Option.map_some, hterm] at hpriced
  obtain rfl : r = r₃ := Except.ok.inj (hr.symm.trans hpriced)
  have heq : discountAmount = r.discountAmount :=
    discountAmount_eq hbase' (hterm ▸ hvalid'.spec.2) hr
  refine ⟨⟨_, hstores₃.invoice, ?_, ?_⟩, ⟨base, promo, hpreviews.discountable, hpreviews.valid⟩,
    base', promo', o₃.customerId, r, hbase', heq ▸ hvalid', ?_, hdiscount.symm, htotal.symm⟩
  · rw [hdiscount]
    rfl
  · rw [htotal]
    rfl
  · rw [hterm]
    exact hr

/-- Order 401, accepted, with a promo of 10.00 to come. -/
def Sample.accepted : Db :=
  [Sample.place, Sample.take].foldl (Request.exec false Sample.settings) Sample.promoted

/-- The lines of an invoice of 126.79, whose rate is what `parse_rate` makes of `0.15`. -/
def Sample.bouquet : NewInvoiceInput :=
  ⟨[⟨['g'], ⟨10000, -2⟩, 1, ⟨1500, -4⟩, none⟩], ⟨500, -2⟩, none⟩

/-- The courier bills the lines without the promo. -/
def Sample.billed : Db :=
  (createInvoice settings 0 ⟨601, 701, fun n => 801 + n⟩ 401 2 bouquet).commit .empty accepted

/-- The courier cancels that invoice and bills the lines again, with the promo. -/
def Sample.billedAgain : Db :=
  (createInvoice settings 0 ⟨602, 702, fun n => 901 + n⟩ 401 2
    { bouquet with promoCode := some ['P'] }).commit .empty
      (Request.exec false settings billed (.cancelInvoice 0 601 2))

/-- What the customer was shown in between. -/
theorem preview_agrees_promoted : ∃ preview i base promo,
    (previewPromo Sample.settings 0 401 ['P'] 1).run .empty Sample.billed =
      .ok (preview, .empty, Sample.billed) ∧
    Sample.billed.invoices.get? 601 = some i ∧
    (∃ i₃, Sample.billedAgain.invoices.get? 602 = some i₃ ∧
      i₃.discountAmount = toMoneyColumn preview.discountAmount ∧
      i₃.totalAmount = toMoneyColumn preview.totalAmount) ∧
    discountableBase (storedItems (InvoiceRepository.linesOf 601 Sample.billed))
      (.cents i.courierFeeAmount) = .ok base ∧
    PromoService.Validates 0 ['P'] base 1 Sample.billed promo preview.discountAmount := by
  have howned : LinesOwned Sample.accepted := by
    have hempty : Sample.accepted.items.rows = [] := by decide +kernel
    intro id t ht
    have hmem := Table.get?_eq_some.mp ht
    rw [hempty] at hmem
    exact absurd hmem List.not_mem_nil
  have hrate : ∀ line ∈ Sample.bouquet.items, ∃ n, line.taxRate = ⟨n, -4⟩ := by
    intro line hline
    obtain rfl := List.mem_singleton.mp hline
    have hparsed : parseRate (['0', '.', '1', '5'].map codePoint) = .ok ⟨false, 1500, -4⟩ := by
      decide +kernel
    exact toDec_of_parseRate hparsed
  -- Cancelling the first invoice leaves the promos as they are.
  have hterms : ∀ p p', Sample.billed.promos.find? (fun _ q => q.code = ['P']) = some p →
      (Request.exec false Sample.settings Sample.billed
        (.cancelInvoice 0 601 2)).promos.find? (fun _ q => q.code = ['P']) = some p' →
      PromoService.toPricingPromo p'.2 = PromoService.toPricingPromo p.2 := by
    intro p p' hp hp'
    have hsame : (Request.exec false Sample.settings Sample.billed
        (.cancelInvoice 0 601 2)).promos.rows = Sample.billed.promos.rows := by decide +kernel
    have hfound : some p = some p' := by
      rw [← hp, ← hp', Table.find?, Table.find?, hsame]
    rw [Option.some.inj hfound]
  obtain ⟨i, hactive⟩ : ∃ i, (InvoiceRepository.getActiveForOrderForActor 401 1).run .empty
      Sample.billed = .ok (some (601, i), .empty, Sample.billed) := ⟨_, rfl⟩
  obtain ⟨preview, hpreview⟩ : ∃ preview, (previewPromo Sample.settings 0 401 ['P'] 1).run .empty
      Sample.billed = .ok (preview, .empty, Sample.billed) := ⟨_, rfl⟩
  obtain ⟨m₁, hcreate⟩ : ∃ m₁, (createInvoice Sample.settings 0 ⟨601, 701, fun n => 801 + n⟩ 401 2
      Sample.bouquet).run .empty Sample.accepted = .ok ((), m₁, Sample.billed) := ⟨_, rfl⟩
  -- The second invoice is created with the code that was previewed.
  obtain ⟨m₃, hagain⟩ : ∃ m₃, (createInvoice Sample.settings 0 ⟨602, 702, fun n => 901 + n⟩ 401 2
      { Sample.bouquet with promoCode := some ['P'] }).run .empty (Request.exec false
        Sample.settings Sample.billed (.cancelInvoice 0 601 2)) =
          .ok ((), m₃, Sample.billedAgain) := ⟨_, rfl⟩
  obtain ⟨hsame, ⟨base, promo, hbase, hvalid⟩, -⟩ := @preview_agrees false _ _ _ _ _ _ _ _ _ _ _ _
    _ _ _ _ _ _ _ _ _ _ _ _ _ _ _ howned hrate hcreate .start hactive hpreview hterms hagain
  exact ⟨preview, i, base, promo, hpreview,
    (Table.find?_eq_some (Prod.mk.inj (Except.ok.inj hactive)).1).1, hsame, hbase, hvalid⟩

end Giftly
