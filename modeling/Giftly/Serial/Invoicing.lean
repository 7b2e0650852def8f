import Giftly.Pricing.Replay
import Giftly.Serial.Deals
import Giftly.Store.Watch

/-!
# What `create_invoice` stores

The row of a new invoice and the rows of its lines are the engine's result, column by column
(`Stores`). The lines are read back in the order of their positions, which is the order in which the
engine priced them, and no later request changes them or adds to them.
-/

namespace Giftly

open Store

variable {m : Memory} {d d' : Db} {s : Settings} {now : Time}

/-- What follows a transaction may use that it wrote its tables only. -/
theorem WritesTo.ends_evolves {α : Type} {ts : List Tbl} {p : Tx α} (hp : WritesTo ts p)
    {Q : α → Memory → Db → Prop}
    (h : Ends p (fun a m' d' => d.Evolves ts d' → Q a m' d') m d) : Ends p Q m d := by
  have hev : Ends p (fun _ _ d' => d.Evolves ts d') m d :=
    hp.ends (Db.Evolves.refl _) (fun _ _ _ => .trans) fun _ _ hf d => (hf d).1
  unfold Ends at h hev ⊢
  cases hrun : p.run m d with
  | error e => trivial
  | ok x =>
    rw [hrun] at h hev
    exact h hev

namespace InvoiceRepository

/-- The row of a priced invoice, once it is issued. -/
def issuedRow (s : Settings) (now : Time) (orderId courierId : Id) (promo : Option (Id × Promo))
    (result : PricingResult) : Invoice :=
  { draft orderId courierId result (promo.map (·.1)) (promo.map (·.2.code)) with
    status := .issued
    issuedAt := some now
    expiresAt := some (now + s.paymentExpiryHours * 3600) }

/-- The lines of an invoice, in the order of their positions. -/
def linesOf (invoiceId : Id) (d : Db) : List InvoiceItem :=
  ((d.items.rows.map Prod.snd).filter fun t => t.invoiceId = invoiceId).insertionSort
    fun a b => a.position ≤ b.position

/-- `list_items` returns the lines of the invoice. -/
theorem listItems_eq (invoiceId : Id) : listItems invoiceId = Prog.query (linesOf invoiceId) := rfl

end InvoiceRepository

namespace PromoService

/-- `validate` finds the promo of a code, and its discount, in a state. -/
def Validates (now : Time) (code : Text) (base : Dec) (userId : Id) (d : Db)
    (promo : Id × Promo) (discountAmount : Dec) : Prop :=
  ∀ m, (validate now code base userId).run m d = .ok ((promo, discountAmount), m, d)

/-- `validate` only reads. -/
theorem readsOnly_validate {code : Text} {base : Dec} {userId : Id} :
    (validate now code base userId).ReadsOnly := by
  refine (Prog.readsOnly_query _).bind fun found => ?_
  cases found with
  | none => trivial
  | some found =>
    refine (Prog.readsOnly_require _ _).bind fun _ => (Prog.readsOnly_require _ _).bind fun _ =>
      (Prog.readsOnly_require _ _).bind fun _ => (Prog.readsOnly_require _ _).bind fun _ =>
      (Prog.readsOnly_require _ _).bind fun _ => (Prog.readsOnly_query _).bind fun _ =>
      (Prog.readsOnly_require _ _).bind fun _ => (Prog.readsOnly_ofExcept _).bind fun _ => trivial

/-- `validate` alone ends with a promo of the code and its discount. -/
theorem validate_ends {code : Text} {base : Dec} {userId : Id}
    {Q : (Id × Promo) × Dec → Memory → Db → Prop}
    (h : ∀ promo discountAmount, Validates now code base userId d promo discountAmount →
      Q (promo, discountAmount) m d) :
    Ends (validate now code base userId) Q m d :=
  readsOnly_validate.ends fun x hx => h x.1 x.2 hx

/-- The discount is that of the promo under the code, on the base. -/
theorem Validates.spec {code : Text} {base : Dec} {userId : Id} {promo : Id × Promo}
    {discountAmount : Dec} (h : Validates now code base userId d promo discountAmount) :
    d.promos.find? (fun _ p => p.code = code) = some promo ∧
      computePromoDiscount base (toPricingPromo promo.2) = .ok discountAmount := by
  have hends : Ends (validate now code base userId) (fun x _ _ =>
      d.promos.find? (fun _ p => p.code = code) = some x.1 ∧
        computePromoDiscount base (toPricingPromo x.1.2) = .ok x.2) .empty d := by
    unfold validate PromoRepository.getByCode PromoRepository.countUserRedemptions
    rw [ends_bind, ends_query]
    split
    · trivial
    rename_i hfound
    simp only [ends_bind, ends_require, ends_query, ends_ofExcept, Prog.pure_eq, ends_ret]
    exact fun _ _ _ _ _ _ discount hdiscount => ⟨hfound, hdiscount⟩
  unfold Ends at hends
  rw [h .empty] at hends
  exact hends

end PromoService

namespace InvoiceRepository

/-- The rows of the lines are appended. -/
theorem addItems_rows {iid : Id} {f : ℕ → Id} : ∀ {ls : List (PricingLine × ℕ)} {d : Db}
    {Q : Unit → Memory → Db → Prop}, (∀ d', d'.books = d.books →
      d'.items.rows = d.items.rows ++ ls.map (fun x => (f x.2, itemRow iid x.1)) →
      (∀ x ∈ ls, (itemRow iid x.1).check = none) → Q () m d') →
    Ends (ls.forM fun x => addItem (f x.2) iid x.1) Q m d
  | [], d, Q, h => h d rfl (by simp) (by simp)
  | x :: ls, d, Q, h => by
    change Ends (addItem (f x.2) iid x.1 >>= fun _ =>
      ls.forM fun x => addItem (f x.2) iid x.1) Q m d
    rw [ends_bind, addItem_eq]
    refine insertRow_ends fun hfree hcheck => addItems_rows fun d' hbooks hrows hls => h d' hbooks ?_ ?_
    · rw [hrows]
      change (d.items.insert (f x.2) (itemRow iid x.1)).rows ++ _ = _
      rw [Table.rows_insert _ hfree, List.append_assoc]
      rfl
    · split_ifs at hcheck
      exact List.forall_mem_cons.mpr ⟨hcheck, hls⟩

end InvoiceRepository

namespace InvoiceService

/-- The promo that `create_invoice` chooses for an order of a customer. -/
inductive Chosen (now : Time) (customerId : Id) (x : NewInvoiceInput) (d : Db) :
    Option (Id × Promo) → Prop
  | none (hcode : x.promoCode = none) : Chosen now customerId x d none
  | some {code : Text} {base discountAmount : Dec} {promo : Id × Promo}
      (hcode : x.promoCode = some code)
      (hbase : discountableBase (pricingItems x.items) x.courierFeeAmount = .ok base)
      (hvalid : PromoService.Validates now code base customerId d promo discountAmount) :
      Chosen now customerId x d (some promo)

/-- `promo_for` alone ends with the promo that was chosen. -/
theorem promoFor_chosen {customerId : Id} {x : NewInvoiceInput}
    {Q : Option (Id × Promo) → Memory → Db → Prop}
    (h : ∀ promo, Chosen now customerId x d promo → Q promo m d) :
    Ends (promoFor now customerId x) Q m d := by
  unfold promoFor
  split
  · rename_i hcode
    exact h none (.none hcode)
  · rename_i code hcode
    simp only [ends_bind, ends_ofExcept]
    intro base hbase
    refine PromoService.validate_ends fun promo discountAmount hvalid => ?_
    exact h (some promo) (.some hcode hbase hvalid)

/-- What `create_invoice` has stored for an order `o`: the result `r` of the engine. -/
structure Stores (s : Settings) (now : Time) (ids : NewIds) (orderId courierId : Id)
    (x : NewInvoiceInput) (d d' : Db) (o : Order) (promo : Option (Id × Promo)) (r : PricingResult) :
    Prop where
  order : d.orders.get? orderId = some o
  chosen : Chosen now o.customerId x d promo
  valid : validateItems s x.items = .ok ()
  priced : calculateInvoiceTotals (pricingItems x.items) x.courierFeeAmount
    (promo.map fun p => PromoService.toPricingPromo p.2) (pricingConfig s) = .ok r
  fresh : d.invoices.get? ids.invoiceId = none
  invoice : d'.invoices.get? ids.invoiceId =
    some (InvoiceRepository.issuedRow s now orderId courierId promo r)
  check : (InvoiceRepository.issuedRow s now orderId courierId promo r).check = none
  items : d'.items.rows = d.items.rows ++
    r.lines.zipIdx.map fun y => (ids.itemId y.2, InvoiceRepository.itemRow ids.invoiceId y.1)
  lines : ∀ line ∈ r.lines, (InvoiceRepository.itemRow ids.invoiceId line).check = none

/-- `create_invoice` alone has stored what the engine computed. -/
theorem createInvoice_stores {ids : NewIds} {oid k : Id} {x : NewInvoiceInput} :
    Ends (createInvoice s now ids oid k x)
      (fun _ _ d' => ∃ o promo r, Stores s now ids oid k x d d' o promo r) m d := by
  unfold createInvoice OrderRepository.getForActor OrderRepository.keep
    InvoiceRepository.getActiveForOrder
  rw [ends_bind, ends_query]
  cases hf : (d.orders.get? oid).filter fun o => o.customerId = k || o.courierId = some k with
  | none => trivial
  | some o =>
    have ho := (Option.filter_eq_some_iff.mp hf).1
    simp only [ends_bind, ends_orm, ends_ret]
    refine assertTransition_ends fun _ => ?_
    simp only [ends_query, ends_require, ends_ofExcept]
    intro _ _ hvalid
    refine promoFor_chosen fun promo hchosen => ?_
    intro result hpriced _
    unfold writeInvoice InvoiceRepository.issue
    simp only [ends_bind]
    -- The draft, its lines, the promo, the issuing and the order, each leaving the others' tables
    -- alone.
    refine writesTo_createDraft.ends_evolves (createDraft_ends fun hfree hdraft d₁ hd₁ hev₁ => ?_)
    refine InvoiceRepository.addItems_rows fun d₂ hd₂ hrows hlines => ?_
    refine writesTo_reservePromo.ends_evolves (reservePromo_ends fun d₃ hd₃ hev₃ => ?_)
    rw [hd₂, hd₁] at hd₃
    obtain ⟨b₁, -, hb₁⟩ := hd₃.of_setInvoice
    -- The draft is as it was inserted when it is issued.
    have hi₃ : d₃.invoices.get? ids.invoiceId = some (InvoiceRepository.draft oid k result
        (promo.map (·.1)) (promo.map (·.2.code))) := by
      change d₃.books.invoices.get? ids.invoiceId = _
      rw [hb₁]
      simp [Books.setInvoice]
    refine writesTo_flushInvoice.ends_evolves (flushInvoice_ends hi₃ (by simp [Invoice.assign])
      fun hcheck d₄ hd₄ hev₄ => ?_)
    have hrow := hcheck.resolve_left fun heq => by
      have hst := congrArg Invoice.status heq
      cases hst
    have ho₄ : d₄.orders.get? oid = some o := by
      have horders := (hev₄.orders_eq (by simp)).trans (hev₃.orders_eq (by simp))
      rw [horders]
      change d₂.books.orders.get? oid = _
      rw [hd₂, hd₁]
      exact ho
    refine writesTo_flushOrder.ends_evolves (flushOrder_ends ho₄ (Order.assign_of_frozen rfl)
      fun _ d₅ hd₅ hev₅ => ?_)
    refine ⟨o, promo, result, ho, hchosen, hvalid, hpriced, hfree, ?_, (sole_of_checkRow rfl hrow).2,
      ?_, ?_⟩
    · rw [hev₅.invoices_eq (by simp)]
      change d₄.books.invoices.get? ids.invoiceId = _
      rw [hd₄]
      simp only [Books.setInvoice, Table.get?_set, if_true]
      rfl
    · rw [hev₅.items_eq (by simp), hev₄.items_eq (by simp), hev₃.items_eq (by simp), hrows,
        hev₁.items_eq (by simp)]
    · -- A line of the price is at its index under its own id.
      intro line hline
      obtain ⟨idx, hidx, rfl⟩ := List.getElem_of_mem hline
      exact hlines (result.lines[idx], idx) (List.mk_mem_zipIdx_iff_getElem?.mpr (by simp))

/-! ## The stored lines -/

/-- The lines are numbered from one. -/
theorem positions_pricingItems (xs : List InvoiceLineInput) :
    (pricingItems xs).map (·.position) = (List.range' 0 xs.length).map (· + 1) := by
  unfold pricingItems
  rw [List.map_map, ← List.zipIdx_map_snd 0 xs, List.map_map]
  rfl

/-- No line has the number zero. -/
theorem position_ne_zero {xs : List InvoiceLineInput} : ∀ i ∈ pricingItems xs, i.position ≠ 0 := by
  intro i hi
  obtain ⟨y, -, rfl⟩ := List.mem_map.mp hi
  exact Nat.succ_ne_zero _

/-- The computed lines have the numbers of their items. -/
theorem positions_eq {items : List PricingItem} {lines : List PricingLine}
    (h : List.Forall₂ PricingItem.ShownBy items lines) (hposition : ∀ i ∈ items, i.position ≠ 0) :
    lines.map (·.position) = items.map (·.position) := by
  induction h with
  | nil => rfl
  | cons hline _ ih =>
    rw [List.forall_mem_cons] at hposition
    rw [List.map_cons, List.map_cons, hline.position hposition.1, ih hposition.2]

/-- The lines of a result have the positions of the items, one after the other. -/
theorem pairwise_position {xs : List InvoiceLineInput} {lines : List PricingLine}
    (h : List.Forall₂ PricingItem.ShownBy (pricingItems xs) lines) :
    lines.Pairwise fun a b => a.position ≤ b.position := by
  have hsorted : (lines.map (·.position)).Pairwise (· ≤ ·) := by
    rw [positions_eq h position_ne_zero, positions_pricingItems, List.pairwise_map]
    exact (List.pairwise_le_range' 1).imp Nat.succ_le_succ
  rwa [List.pairwise_map] at hsorted

/-- The lines of an invoice belong to an invoice that is there. -/
def LinesOwned (d : Db) : Prop :=
  ∀ id t, d.items.get? id = some t → (d.invoices.get? t.invoiceId).isSome = true

/-- The lines of the new invoice are read back in the order in which they were priced. -/
theorem Stores.linesOf_eq {ids : NewIds} {oid k : Id} {x : NewInvoiceInput} {o : Order}
    {promo : Option (Id × Promo)} {r : PricingResult} (h : Stores s now ids oid k x d d' o promo r)
    (howned : LinesOwned d) : InvoiceRepository.linesOf ids.invoiceId d' =
      r.lines.map (InvoiceRepository.itemRow ids.invoiceId) := by
  -- No line of the table was of this invoice, since the invoice is new.
  have hnone : ((d.items.rows.map Prod.snd).filter fun t => t.invoiceId = ids.invoiceId) = [] := by
    rw [List.filter_eq_nil_iff]
    intro t ht
    obtain ⟨⟨id, t'⟩, hrow, rfl⟩ := List.mem_map.mp ht
    have hsome := howned id t' (Table.get?_eq_some.mpr hrow)
    intro heq
    rw [of_decide_eq_true heq, h.fresh] at hsome
    cases hsome
  -- The new rows are the lines of the price, in their order.
  have hnew : (r.lines.zipIdx.map fun y =>
      (ids.itemId y.2, InvoiceRepository.itemRow ids.invoiceId y.1)).map Prod.snd =
        r.lines.map (InvoiceRepository.itemRow ids.invoiceId) := by
    calc (r.lines.zipIdx.map fun y =>
        (ids.itemId y.2, InvoiceRepository.itemRow ids.invoiceId y.1)).map Prod.snd
        = (r.lines.zipIdx.map Prod.fst).map (InvoiceRepository.itemRow ids.invoiceId) := by
          rw [List.map_map, List.map_map]
          rfl
      _ = r.lines.map (InvoiceRepository.itemRow ids.invoiceId) := by rw [List.zipIdx_map_fst]
  have hall : ((r.lines.map (InvoiceRepository.itemRow ids.invoiceId)).filter
      fun t => t.invoiceId = ids.invoiceId) =
        r.lines.map (InvoiceRepository.itemRow ids.invoiceId) := by
    rw [List.filter_eq_self]
    intro t ht
    obtain ⟨line, -, rfl⟩ := List.mem_map.mp ht
    exact decide_eq_true rfl
  unfold InvoiceRepository.linesOf
  rw [h.items, List.map_append, List.filter_append, hnone, hnew, hall, List.nil_append]
  apply List.Pairwise.insertionSort_eq
  rw [List.pairwise_map]
  exact pairwise_position (shownBy_of_calculateInvoiceTotals h.priced)

/-- The lines of another invoice are as they were. -/
theorem Stores.linesOf_of_ne {ids : NewIds} {oid k iid : Id} {x : NewInvoiceInput} {o : Order}
    {promo : Option (Id × Promo)} {r : PricingResult} (h : Stores s now ids oid k x d d' o promo r)
    (hne : ids.invoiceId ≠ iid) :
    InvoiceRepository.linesOf iid d' = InvoiceRepository.linesOf iid d := by
  have hnone : (((r.lines.zipIdx.map fun y =>
      (ids.itemId y.2, InvoiceRepository.itemRow ids.invoiceId y.1)).map Prod.snd).filter
        fun t => t.invoiceId = iid) = [] := by
    rw [List.filter_eq_nil_iff]
    intro t ht
    obtain ⟨⟨id, t'⟩, hrow, rfl⟩ := List.mem_map.mp ht
    obtain ⟨y, -, hy⟩ := List.mem_map.mp hrow
    obtain ⟨-, rfl⟩ := Prod.mk.inj hy
    exact fun heq => hne (of_decide_eq_true heq)
  unfold InvoiceRepository.linesOf
  rw [h.items, List.map_append, List.filter_append, hnone, List.append_nil]

end InvoiceService

/-! ## Later requests -/

/-- An invoice that is there, with its lines. -/
structure Billed (d : Db) (iid : Id) (i : Invoice) (items : List InvoiceItem) : Prop where
  lines : InvoiceRepository.linesOf iid d = items
  row : ∃ j, d.invoices.get? iid = some j ∧ j.frozen = i.frozen

/-- A request leaves the lines of an invoice and what was priced alone. -/
theorem Billed.exec {refresh : Bool} {iid : Id} {i : Invoice} {items : List InvoiceItem}
    (h : Billed d iid i items) (r : Request) : Billed (r.exec refresh s d) iid i items := by
  obtain ⟨j, hj, hfrozen⟩ := h.row
  have hev := Request.exec_evolves refresh s d r
  obtain ⟨j', hj', hfrozen'⟩ := hev.invoices iid j hj
  refine ⟨?_, j', hj', hfrozen'.trans hfrozen⟩
  -- Only a new invoice inserts lines, and it inserts its own.
  by_cases hitems : Tbl.items ∈ r.tables
  · cases r <;> simp only [Request.tables, List.mem_cons, List.not_mem_nil, reduceCtorEq,
      or_false, false_or] at hitems
    case createInvoice now ids oid k x =>
      refine (commit_of_ends (I := fun d' => InvoiceRepository.linesOf iid d' =
        InvoiceRepository.linesOf iid d) rfl ?_).trans h.lines
      refine Ends.mono ?_ InvoiceService.createInvoice_stores
      rintro _ _ d' ⟨o, promo, result, hstores⟩
      apply hstores.linesOf_of_ne
      rintro rfl
      rw [hstores.fresh] at hj
      cases hj
  · rw [← h.lines]
    unfold InvoiceRepository.linesOf
    rw [hev.items_eq hitems]

/-- An invoice that was issued keeps its lines and its frozen columns in every run. -/
theorem SerialRun.billed {refresh : Bool} {cond : Request → Db → Prop} {d₀ : Db} {iid : Id}
    {i : Invoice} {items : List InvoiceItem} (hrun : SerialRun refresh s cond d₀ d)
    (h : Billed d₀ iid i items) : Billed d iid i items :=
  hrun.inv (I := fun d => Billed d iid i items) h fun r _ _ hd => hd.exec r

end Giftly
