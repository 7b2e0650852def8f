import Giftly.Pricing.Allocation
import Giftly.Services.Payment

/-!
# The lines of a checkout

`_invoice_checkout_items` sends the gateway one of three shapes (`Charge`): the balance alone, the
lines of the invoice with a line for the rest, or those lines with the rest on the last of them. Each
of them charges exactly the amount to pay. `checkoutItems` is the same function in decimal
arithmetic, which computes these shapes for lists of any length.
-/

namespace Giftly

open Dec

namespace PaymentService

/-- The line of an outstanding balance. -/
def balanceLine (invoiceId : Id) (amount : ℤ) : StreamPayItem where
  name := text "SAFE-GIFT invoice " ++ (toString invoiceId).toList
  description := text "Outstanding invoice balance"
  amount

/-- The line of an invoice item, with the amount that is charged for it. -/
def itemLine (t : InvoiceItem) (amount : ℤ) : StreamPayItem where
  name := t.title
  description := strip (text "Quantity: " ++ (toString t.quantity).toList ++ text ". " ++
    t.description.getD [])
  amount

/-- The line of what the invoice items leave. -/
def adjustmentLine (amount : ℤ) : StreamPayItem where
  name := text "Invoice adjustment"
  description := text "Delivery, service fees, tax, and discounts"
  amount

/-- The line of an invoice item with its own amount. -/
def ownLine (t : InvoiceItem) : StreamPayItem := itemLine t t.lineTotalAmount

/-- What the invoice items add up to. -/
def sourceTotal (items : List InvoiceItem) : ℤ := (items.map (·.lineTotalAmount)).sum

/-- The shapes of a checkout. -/
inductive Charge (invoiceId : Id) (paymentAmount : ℤ) (items : List InvoiceItem) :
    List StreamPayItem → Prop
  | balance : Charge invoiceId paymentAmount items [balanceLine invoiceId paymentAmount]
  | adjusted (hitems : ∀ t ∈ items, 100 ≤ t.lineTotalAmount) (hne : items ≠ [])
    (hrest : 100 ≤ paymentAmount - sourceTotal items) :
    Charge invoiceId paymentAmount items
      (items.map ownLine ++ [adjustmentLine (paymentAmount - sourceTotal items)])
  | folded (init : List InvoiceItem) (last : InvoiceItem) (h : items = init ++ [last])
    (hitems : ∀ t ∈ items, 100 ≤ t.lineTotalAmount)
    (hrest : 0 ≤ paymentAmount - sourceTotal items) :
    Charge invoiceId paymentAmount items
      (init.map ownLine ++
        [itemLine last (last.lineTotalAmount + (paymentAmount - sourceTotal items))])

/-- The function in the words of this module. -/
theorem invoiceCheckoutItems_eq (invoiceId : Id) (paymentAmount : ℤ) (items : List InvoiceItem) :
    invoiceCheckoutItems invoiceId paymentAmount items =
      if items.isEmpty || sourceTotal items > paymentAmount ||
          items.any (fun t => t.lineTotalAmount < 100) then [balanceLine invoiceId paymentAmount]
      else if 100 ≤ paymentAmount - sourceTotal items then
        items.map ownLine ++ [adjustmentLine (paymentAmount - sourceTotal items)]
      else if 0 < paymentAmount - sourceTotal items then
        (items.map ownLine).modify ((items.map ownLine).length - 1) fun last =>
          { last with amount := last.amount + (paymentAmount - sourceTotal items) }
      else items.map ownLine := rfl

/-- The lines have one of the shapes. -/
theorem charge_invoiceCheckoutItems (invoiceId : Id) (paymentAmount : ℤ)
    (items : List InvoiceItem) :
    Charge invoiceId paymentAmount items (invoiceCheckoutItems invoiceId paymentAmount items) := by
  rw [invoiceCheckoutItems_eq]
  split_ifs with hbalance hadjusted hfolded
  · -- One line for the balance, when the lines themselves cannot be charged.
    exact .balance
  all_goals
    simp only [Bool.or_eq_true, not_or, List.isEmpty_iff, decide_eq_true_eq, List.any_eq_true,
      not_exists, not_and, not_lt] at hbalance
    obtain ⟨⟨hne, hle⟩, hitems⟩ := hbalance
  · exact .adjusted hitems hne hadjusted
  · -- the rest is put on the last line
    obtain ⟨init, last, rfl⟩ := (List.eq_nil_or_concat' items).resolve_left hne
    have hcharge := @Charge.folded invoiceId _ _ init last rfl hitems hfolded.le
    have hlength : ((init ++ [last]).map ownLine).length - 1 = (init.map ownLine).length := by simp
    rw [hlength, List.map_append, List.map_singleton, modify_append]
    exact hcharge
  · -- nothing is left
    obtain ⟨init, last, rfl⟩ := (List.eq_nil_or_concat' items).resolve_left hne
    have hzero : paymentAmount - sourceTotal (init ++ [last]) = 0 := by omega
    have hcharge := @Charge.folded invoiceId _ _ init last rfl hitems hzero.ge
    rw [hzero, add_zero] at hcharge
    rw [List.map_append, List.map_singleton]
    exact hcharge

section

variable {invoiceId : Id} {paymentAmount : ℤ} {items : List InvoiceItem} {r : List StreamPayItem}

/-- The invoice items are charged with what they add up to. -/
theorem sum_amount_ownLine (items : List InvoiceItem) :
    ((items.map ownLine).map (·.amount)).sum = sourceTotal items := by
  rw [List.map_map]
  rfl

/-- Every shape charges the amount to pay. -/
theorem Charge.sum_eq (h : Charge invoiceId paymentAmount items r) :
    (r.map (·.amount)).sum = paymentAmount := by
  cases h with
  | balance => simp [balanceLine]
  | adjusted =>
    rw [List.map_append, List.sum_append, sum_amount_ownLine]
    show sourceTotal items + (paymentAmount - sourceTotal items + 0) = paymentAmount
    omega
  | folded init last heq =>
    have htotal : sourceTotal items = sourceTotal init + last.lineTotalAmount := by
      rw [heq]
      simp [sourceTotal]
    rw [List.map_append, List.sum_append, sum_amount_ownLine]
    show sourceTotal init + (last.lineTotalAmount + (paymentAmount - sourceTotal items) + 0) = _
    omega

/-- There is a line in every shape. -/
theorem Charge.ne_nil (h : Charge invoiceId paymentAmount items r) : r ≠ [] := by
  cases h <;> simp

/-- Unless only the balance is charged, no line is below 1.00. -/
theorem Charge.amount_le (h : Charge invoiceId paymentAmount items r)
    (hr : r ≠ [balanceLine invoiceId paymentAmount]) : ∀ x ∈ r, 100 ≤ x.amount := by
  intro x hx
  cases h with
  | balance => exact absurd rfl hr
  -- The rest has a line of its own.
  | adjusted hitems _ hrest =>
    rcases List.mem_append.mp hx with hown | hlast
    · obtain ⟨t, ht, rfl⟩ := List.mem_map.mp hown
      exact hitems t ht
    · obtain rfl := List.mem_singleton.mp hlast
      exact hrest
  -- The rest is folded into the last line.
  | folded init last heq hitems hrest =>
    subst heq
    rcases List.mem_append.mp hx with hown | hlast
    · obtain ⟨t, ht, rfl⟩ := List.mem_map.mp hown
      exact hitems t (List.mem_append_left _ ht)
    · obtain rfl := List.mem_singleton.mp hlast
      have h100 := hitems last (by simp)
      show 100 ≤ last.lineTotalAmount + (paymentAmount - sourceTotal (init ++ [last]))
      omega

/-- Unless only the balance is charged, the invoice items are charged in their order, all but the
last one with their own amounts. -/
theorem Charge.lines_eq (h : Charge invoiceId paymentAmount items r)
    (hr : r ≠ [balanceLine invoiceId paymentAmount]) :
    ∃ init last amount extra, items = init ++ [last] ∧
      r = init.map ownLine ++ itemLine last amount :: extra ∧
      (extra = [] ∨ amount = last.lineTotalAmount ∧ ∃ rest, extra = [adjustmentLine rest]) := by
  cases h with
  | balance => exact absurd rfl hr
  | adjusted _ hne =>
    obtain ⟨init, last, rfl⟩ := (List.eq_nil_or_concat' items).resolve_left hne
    refine ⟨init, last, last.lineTotalAmount,
      [adjustmentLine (paymentAmount - sourceTotal (init ++ [last]))], rfl, ?_, .inr ⟨rfl, _, rfl⟩⟩
    rw [List.map_append, List.append_assoc]
    rfl
  | folded init last heq => exact ⟨init, last, _, [], heq, rfl, .inl rfl⟩

end

/-! ## In decimal arithmetic -/

/-- `_invoice_checkout_items` as the source computes it, on amounts with two decimals. -/
def checkoutItems (invoiceId : Id) (paymentAmount : ℤ) (items : List InvoiceItem) :
    Except Err (List StreamPayItem) := do
  let totals ← items.mapM fun t => quantizeDec (cents t.lineTotalAmount)
  let sourceTotal := sumDec totals
  if items.isEmpty || (cents paymentAmount).lt sourceTotal ||
      items.any (fun t => (cents t.lineTotalAmount).lt (cents 100)) then
    return [balanceLine invoiceId paymentAmount]
  else
    let lines ← items.mapM fun t => (quantizeMoney (money t.lineTotalAmount)).map (itemLine t)
    let adjustment ← quantizeMoney (.finite ((cents paymentAmount).sub sourceTotal))
    if (cents 100).le (cents adjustment) then return lines ++ [adjustmentLine adjustment]
    else if zero.lt (cents adjustment) then
      match lines.getLast? with
      | none => return lines
      | some last => do
        let amount ← quantizeMoney (.finite ((cents last.amount).add (cents adjustment)))
        return lines.dropLast ++ [{ last with amount }]
    else return lines

/-- The decimal arithmetic of the source computes these lines, for lists of any length. -/
theorem checkoutItems_eq (invoiceId : Id) {paymentAmount : ℤ} {items : List InvoiceItem}
    (hpayment : paymentAmount.natAbs < limit)
    (hitems : ∀ t ∈ items, t.lineTotalAmount.natAbs < limit) :
    checkoutItems invoiceId paymentAmount items =
      .ok (invoiceCheckoutItems invoiceId paymentAmount items) := by
  have htotals : (items.mapM fun t => quantizeDec (cents t.lineTotalAmount)) =
      .ok ((items.map (·.lineTotalAmount)).map cents) := by
    rw [List.map_map]
    exact Store.mapM_eq_ok fun t ht => (halalas_cents _).quantizeDec_eq (hitems t ht)
  have hlines : (items.mapM fun t => (quantizeMoney (money t.lineTotalAmount)).map (itemLine t)) =
      .ok (items.map ownLine) := by
    apply Store.mapM_eq_ok
    intro t ht
    rw [quantizeMoney_money, if_pos (hitems t ht)]
    rfl
  have hsmall : (fun t : InvoiceItem => (cents t.lineTotalAmount).lt (cents 100)) =
      fun t => decide (t.lineTotalAmount < 100) := by
    funext t
    exact (halalas_cents _).lt_eq (halalas_cents 100)
  unfold checkoutItems
  rw [htotals, Store.ok_bind, invoiceCheckoutItems_eq, hsmall]
  dsimp only
  by_cases hany : items.any (fun t => decide (t.lineTotalAmount < 100)) = true
  · rw [hany, Bool.or_true, Bool.or_true, if_pos rfl, if_pos rfl]
    rfl
  -- the lines are positive, so their sum is exact unless it exceeds the amount to pay
  have hpos : ∀ n ∈ items.map (·.lineTotalAmount), (0 : ℤ) ≤ n := by
    intro n hn
    obtain ⟨t, ht, rfl⟩ := List.mem_map.mp hn
    have hge : ¬t.lineTotalAmount < 100 := fun h =>
      hany (List.any_eq_true.mpr ⟨t, ht, decide_eq_true h⟩)
    omega
  obtain ⟨m, hm, hmin⟩ := exists_sumDec_cents hpos
  have hlt : (cents paymentAmount).lt (sumDec ((items.map (·.lineTotalAmount)).map cents)) =
      decide (paymentAmount < sourceTotal items) := by
    rw [(halalas_cents paymentAmount).lt_eq hm, decide_eq_decide]
    unfold sourceTotal
    omega
  rw [hlt]
  by_cases hbalance : (items.isEmpty || decide (sourceTotal items > paymentAmount) ||
      items.any fun t => decide (t.lineTotalAmount < 100)) = true
  · rw [if_pos hbalance, if_pos hbalance]
    rfl
  rw [if_neg hbalance, if_neg hbalance, hlines, Store.ok_bind]
  have hle : sourceTotal items ≤ paymentAmount := by
    simp only [Bool.or_eq_true, decide_eq_true_eq, not_or, not_lt] at hbalance
    exact hbalance.1.2
  have hsource : 0 ≤ sourceTotal items := List.sum_nonneg hpos
  have hrest : ((cents paymentAmount).sub
      (sumDec ((items.map (·.lineTotalAmount)).map cents))).Halalas
        (paymentAmount - sourceTotal items) := by
    have heq : m = sourceTotal items := by
      unfold sourceTotal at hle ⊢
      omega
    exact (halalas_cents paymentAmount).sub (heq ▸ hm) (by omega)
  rw [hrest.quantizeMoney_eq (by omega), Store.ok_bind, (halalas_cents 100).le_eq (halalas_cents _),
    (halalas_cents 0).lt_eq (halalas_cents _)]
  by_cases hadjusted : 100 ≤ paymentAmount - sourceTotal items
  · rw [if_pos (decide_eq_true hadjusted), if_pos hadjusted]
    rfl
  rw [if_neg (by simpa using hadjusted), if_neg hadjusted]
  by_cases hfolded : 0 < paymentAmount - sourceTotal items
  · rw [if_pos (decide_eq_true hfolded), if_pos hfolded]
    have hne : items ≠ [] := by
      rintro rfl
      exact hbalance rfl
    obtain ⟨init, last, rfl⟩ := (List.eq_nil_or_concat' items).resolve_left hne
    -- the last line with the rest is at most the amount to pay
    have hinit : 0 ≤ sourceTotal init :=
      List.sum_nonneg fun n hn => hpos n (by simpa using Or.inl (List.mem_map.mp hn))
    have htotal : sourceTotal (init ++ [last]) = sourceTotal init + last.lineTotalAmount := by
      simp [sourceTotal]
    have hlast : 0 ≤ last.lineTotalAmount := hpos _ (by simp)
    have hamount : ((cents last.lineTotalAmount).add
        (cents (paymentAmount - sourceTotal (init ++ [last])))).Halalas
          (last.lineTotalAmount + (paymentAmount - sourceTotal (init ++ [last]))) :=
      (halalas_cents _).add (halalas_cents _) (by omega)
    have hlength : ((init ++ [last]).map ownLine).length - 1 = (init.map ownLine).length := by simp
    rw [hlength, List.map_append, List.map_singleton, List.getLast?_concat, modify_append,
      List.dropLast_concat]
    show (quantizeMoney (.finite ((cents last.lineTotalAmount).add _)) >>= _) = _
    rw [hamount.quantizeMoney_eq (by omega)]
    rfl
  · rw [if_neg (by simpa using hfolded), if_neg hfolded]
    rfl

/-! ## What is charged -/

/-- The lines of a checkout, which the decimal arithmetic of the source returns for amounts of at most
28 digits, charge exactly the amount to pay; unless they are the balance alone, each is at least 1.00,
and each invoice item appears once, in order, all but the last with its own amount. -/
theorem invoiceCheckoutItems_charges (invoiceId : Id) (paymentAmount : ℤ)
    (items : List InvoiceItem) :
    let r := invoiceCheckoutItems invoiceId paymentAmount items
    (paymentAmount.natAbs < limit → (∀ t ∈ items, t.lineTotalAmount.natAbs < limit) →
      checkoutItems invoiceId paymentAmount items = .ok r) ∧
    (r.map (·.amount)).sum = paymentAmount ∧ r ≠ [] ∧
      (r ≠ [balanceLine invoiceId paymentAmount] →
        (∀ x ∈ r, 100 ≤ x.amount) ∧
        ∃ init last amount extra, items = init ++ [last] ∧
          r = init.map ownLine ++ itemLine last amount :: extra ∧
          (extra = [] ∨ amount = last.lineTotalAmount ∧ ∃ rest, extra = [adjustmentLine rest])) := by
  intro r
  have hcharge := charge_invoiceCheckoutItems invoiceId paymentAmount items
  exact ⟨fun hpayment hitems => checkoutItems_eq invoiceId hpayment hitems, hcharge.sum_eq,
    hcharge.ne_nil, fun hr => ⟨hcharge.amount_le hr, hcharge.lines_eq hr⟩⟩

/-- A line of 115.00. -/
def Sample.vase : InvoiceItem :=
  ⟨601, 1, ['v'], none, 10000, 1, 1500, 10000, 0, 10000, 1500, 11500⟩

/-- A vase of 115.00 on an invoice of 115.50: the last line is charged with the rest. -/
theorem invoiceCheckoutItems_charges_folded : ∃ r,
    checkoutItems 601 11550 [Sample.vase] = .ok r ∧ (r.map (·.amount)).sum = 11550 ∧
      ∃ amount, r = [itemLine Sample.vase amount] := by
  obtain ⟨hdecimal, hsum, -, -⟩ := invoiceCheckoutItems_charges 601 11550 [Sample.vase]
  have hitems : ∀ t ∈ [Sample.vase], t.lineTotalAmount.natAbs < limit := by decide
  exact ⟨_, hdecimal (by decide) hitems, hsum, _, rfl⟩

end PaymentService

end Giftly
