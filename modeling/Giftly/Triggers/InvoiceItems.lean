import Giftly.Seed

/-!
# The freeze of the invoice lines

The trigger `enforce_invoice_item_freeze` of the first migration, which fires before every `INSERT`,
`UPDATE` and `DELETE` of a row of `invoice_items`, with the constraints of the table, and the
statements on `invoices` that it depends on. A line is "frozen once the parent invoice is ISSUED".

The trigger looks at one parent only: the one in `NEW`, or the one in `OLD` where there is no `NEW`.
`issued_lines_frozen_iff` says what that covers. Every line of an invoice that is not a draft stays
as it is exactly as long as no `UPDATE` moves such a line to another invoice.
-/

namespace Giftly

open Store (Table exists_of_bind_eq_ok)

namespace InvoiceItems

/-! ## Statements on the lines -/

/-- A statement on one row of `invoice_items`. An `UPDATE` may change every column, the primary key
and `invoice_id` included. -/
inductive Statement
  | insert (id : Id) (new : InvoiceItem)
  | update (id newId : Id) (new : InvoiceItem)
  | delete (id : Id)
  deriving DecidableEq

/-- `enforce_invoice_item_freeze`, on the row after the statement and the row before it. -/
def enforceInvoiceItemFreeze (d : Db) (new old : Option InvoiceItem) : Except Err Unit :=
  -- `COALESCE(NEW.invoice_id, OLD.invoice_id)`: the old parent of an `UPDATE` is never looked up
  match ((new.map (·.invoiceId)).or (old.map (·.invoiceId))).bind fun id => d.invoices.get? id with
  | none => .ok ()
  | some invoice =>
    if invoice.status ≠ .draft then
      .error (.trigger "invoice items may only change while the invoice is DRAFT")
    else .ok ()

/-- A row written under a key among the other rows, when it meets the constraints of the table. -/
def write (d : Db) (others : Table Id InvoiceItem) (id : Id) (t : InvoiceItem) : Except Err Db :=
  match t.check with
  | some e => .error e
  | none =>
    if (others.get? id).isSome then .error (.integrity .primaryKey)
    else if (others.find? fun _ u =>
        u.invoiceId = t.invoiceId && u.position = t.position).isSome then
      .error (.integrity .uqInvoiceItemPosition)
    else if (d.invoices.get? t.invoiceId).isNone then .error (.integrity .foreignKey)
    else .ok { d with items := others.insert id t }

/-- A statement: the trigger first, then the constraints. A statement on a row that is not there
does nothing. -/
def Statement.exec (d : Db) : Statement → Except Err Db
  | .insert id new => do
    enforceInvoiceItemFreeze d (some new) none
    write d d.items id new
  | .update id newId new =>
    match d.items.get? id with
    | none => .ok d
    | some old => do
      enforceInvoiceItemFreeze d (some new) (some old)
      write d (d.items.erase id) newId new
  | .delete id =>
    match d.items.get? id with
    | none => .ok d
    | some old => do
      enforceInvoiceItemFreeze d none (some old)
      .ok { d with items := d.items.erase id }

/-! ## Statements on the invoices -/

/-- What happens to the lines and to their invoices. -/
inductive Change
  /-- A statement on a line. -/
  | item (s : Statement)
  /-- An invoice gets a status other than `DRAFT`. -/
  | leaveDraft (id : Id) (status : InvoiceStatus) (out : status ≠ .draft)
  | insertInvoice (id : Id) (invoice : Invoice)
  | deleteInvoice (id : Id)

/-- `ON DELETE CASCADE`: the lines of an invoice that is gone are deleted one after the other, and
the trigger fires for each. -/
def cascade (d : Db) : List Id → Except Err Db
  | [] => .ok d
  | id :: ids => do cascade (← (Statement.delete id).exec d) ids

/-- The keys of the lines of an invoice. -/
def lineIds (d : Db) (id : Id) : List Id :=
  (d.items.rows.filter fun r => r.2.invoiceId = id).map Prod.fst

/-- Other tables refer to an invoice and do not cascade. -/
def referenced (d : Db) (id : Id) : Bool :=
  (d.intents.find? fun _ p => p.referenceInvoiceId = some id).isSome ||
    d.transactions.any fun t => t.referenceInvoiceId = some id

/-- A change, or the error with which the database refuses it. -/
def Change.exec (d : Db) : Change → Except Err Db
  | .item s => s.exec d
  | .leaveDraft id status _ =>
    .ok { d with invoices := d.invoices.update id fun i => { i with status := status } }
  | .insertInvoice id invoice =>
    if (d.invoices.get? id).isSome then .error (.integrity .primaryKey)
    else .ok { d with invoices := d.invoices.insert id invoice }
  | .deleteInvoice id =>
    if referenced d id then .error (.integrity .foreignKey)
    else cascade { d with
        invoices := d.invoices.erase id
        redemptions := d.redemptions.filter fun _ r => r.invoiceId ≠ id } (lineIds d id)

/-! ## What the trigger protects -/

/-- An invoice exists and is not a draft. -/
def Frozen (d : Db) (id : Id) : Prop := (d.invoices.get? id).any (fun i => i.status ≠ .draft) = true

instance (d : Db) (id : Id) : Decidable (Frozen d id) := inferInstanceAs (Decidable (_ = true))

/-- The lines of an invoice, with their keys. -/
def Lines (d : Db) (id : Id) : Set (Id × InvoiceItem) :=
  {r | d.items.get? r.1 = some r.2 ∧ r.2.invoiceId = id}

/-- The change does not move a line of a frozen invoice to another invoice. -/
def KeepsParent (d : Db) : Change → Prop
  | .item (.update id _ new) =>
    ∀ old, d.items.get? id = some old → Frozen d old.invoiceId → new.invoiceId = old.invoiceId
  | _ => True

/-- A change that the database lets through. -/
structure Passed where
  before : Db
  change : Change
  after : Db
  passes : change.exec before = .ok after

/-- A run: changes that the database lets through, each from the state that the one before left. -/
inductive Run : Db → List Passed → Db → Prop
  | nil (d : Db) : Run d [] d
  | cons (e : Passed) {trace : List Passed} {d : Db} (rest : Run e.after trace d) :
    Run e.before (e :: trace) d

/-! ## What a statement does to the rows -/

/-- The lines of an invoice are frozen when it is there and no draft. -/
theorem frozen_iff {d : Db} {id : Id} :
    Frozen d id ↔ ∃ i, d.invoices.get? id = some i ∧ i.status ≠ .draft := by
  simp [Frozen, Option.any_eq_true]

/-- Where there is a `NEW`, the trigger lets the row through exactly when the invoice of `NEW` is
not frozen. -/
theorem enforce_new {d : Db} {new : InvoiceItem} {old : Option InvoiceItem} :
    enforceInvoiceItemFreeze d (some new) old = .ok () ↔ ¬Frozen d new.invoiceId := by
  unfold enforceInvoiceItemFreeze Frozen
  rw [Option.map_some, Option.some_or, Option.bind_some]
  cases d.invoices.get? new.invoiceId with
  | none => simp
  | some invoice => by_cases h : invoice.status = .draft <;> simp [h]

/-- Where there is none, it looks at the invoice of `OLD`. -/
theorem enforce_old {d : Db} {old : InvoiceItem} :
    enforceInvoiceItemFreeze d none (some old) = .ok () ↔ ¬Frozen d old.invoiceId := by
  unfold enforceInvoiceItemFreeze Frozen
  rw [Option.map_none, Option.none_or, Option.map_some, Option.bind_some]
  cases d.invoices.get? old.invoiceId with
  | none => simp
  | some invoice => by_cases h : invoice.status = .draft <;> simp [h]

/-- A row that is written is written under a free key. -/
theorem write_ok {d d' : Db} {others : Table Id InvoiceItem} {id : Id} {t : InvoiceItem}
    (h : write d others id t = .ok d') :
    others.get? id = none ∧ d' = { d with items := others.insert id t } := by
  unfold write at h
  split at h
  · cases h
  · split_ifs at h with hkey huq hfk
    constructor
    · simpa using hkey
    · exact (Except.ok.inj h).symm

/-- At most one row goes and at most one comes; the other rows and the invoices stay. -/
structure Replaces (d : Db) (gone come : Option (Id × InvoiceItem)) (d' : Db) : Prop where
  invoices : d'.invoices = d.invoices
  present : ∀ r ∈ gone, d.items.get? r.1 = some r.2
  items : ∀ k t, d'.items.get? k = some t ↔
    (k, t) ∈ come ∨ d.items.get? k = some t ∧ (k, t) ∉ gone

/-- The rows that stay belong to their invoices as before. -/
theorem Replaces.lines_eq {d d' : Db} {gone come : Option (Id × InvoiceItem)} {id : Id}
    (h : Replaces d gone come d') (hgone : ∀ r ∈ gone, r.2.invoiceId ≠ id)
    (hcome : ∀ r ∈ come, r.2.invoiceId ≠ id) : Lines d' id = Lines d id := by
  ext ⟨k, t⟩
  show d'.items.get? k = some t ∧ t.invoiceId = id ↔ d.items.get? k = some t ∧ t.invoiceId = id
  rw [h.items]
  constructor
  · rintro ⟨hc | ⟨hk, -⟩, hid⟩
    · exact absurd hid (hcome _ hc)
    · exact ⟨hk, hid⟩
  · intro ⟨hk, hid⟩
    exact ⟨.inr ⟨hk, fun hg => hgone _ hg hid⟩, hid⟩

/-- An `INSERT` that passes adds its row, to an invoice that is not frozen. -/
theorem exec_insert {d d' : Db} {id : Id} {new : InvoiceItem}
    (h : (Statement.insert id new).exec d = .ok d') :
    Replaces d none (some (id, new)) d' ∧ ¬Frozen d new.invoiceId := by
  obtain ⟨⟨⟩, htrigger, hwrite⟩ := exists_of_bind_eq_ok h
  obtain ⟨hkey, rfl⟩ := write_ok hwrite
  refine ⟨⟨rfl, by simp, ?_⟩, enforce_new.mp htrigger⟩
  intro k t
  show (d.items.insert id new).get? k = some t ↔ _
  rw [Table.get?_insert]
  by_cases hk : k = id
  · subst hk
    simp [hkey]
  · simp [hk, Ne.symm hk]

/-- An `UPDATE` that passes puts its row in the place of the row that it found, under an invoice
that is not frozen. Nothing is said of the invoice that the row leaves. -/
theorem exec_update {d d' : Db} {id newId : Id} {new : InvoiceItem}
    (h : (Statement.update id newId new).exec d = .ok d') :
    (d.items.get? id = none ∧ d' = d) ∨ ∃ old, d.items.get? id = some old ∧
      Replaces d (some (id, old)) (some (newId, new)) d' ∧ ¬Frozen d new.invoiceId := by
  simp only [Statement.exec] at h
  split at h
  · rename_i hnone
    exact .inl ⟨hnone, (Except.ok.inj h).symm⟩
  · rename_i old hold
    obtain ⟨⟨⟩, htrigger, hwrite⟩ := exists_of_bind_eq_ok h
    obtain ⟨hkey, rfl⟩ := write_ok hwrite
    -- The trigger has read `NEW` alone, so only the new parent is known not to be frozen.
    refine .inr ⟨old, hold, ⟨rfl, by simpa using hold, ?_⟩, enforce_new.mp htrigger⟩
    intro k t
    show ((d.items.erase id).insert newId new).get? k = some t ↔ _
    rw [Table.get?_insert]
    by_cases hk : k = newId
    · -- the key was free among the other rows, so a row under it can only be the old one
      subst hk
      rw [hkey, Option.none_or, if_pos rfl]
      rw [Table.get?_erase] at hkey
      by_cases hid : k = id
      · subst hid
        simp [hold]
      · rw [if_neg hid] at hkey
        simp [hkey]
    · rw [if_neg hk, Option.or_none, Table.get?_erase]
      by_cases hid : k = id
      · subst hid
        simp [hold, Ne.symm hk]
      · simp [hid, Ne.symm hk, Ne.symm hid]

/-- A `DELETE` that passes takes its row from an invoice that is not frozen. -/
theorem exec_delete {d d' : Db} {id : Id} (h : (Statement.delete id).exec d = .ok d') :
    (d.items.get? id = none ∧ d' = d) ∨ ∃ old, d.items.get? id = some old ∧
      Replaces d (some (id, old)) none d' ∧ ¬Frozen d old.invoiceId := by
  simp only [Statement.exec] at h
  split at h
  · rename_i hnone
    exact .inl ⟨hnone, (Except.ok.inj h).symm⟩
  · rename_i old hold
    obtain ⟨⟨⟩, htrigger, hok⟩ := exists_of_bind_eq_ok h
    obtain rfl := Except.ok.inj hok
    refine .inr ⟨old, hold, ⟨rfl, by simpa using hold, ?_⟩, enforce_old.mp htrigger⟩
    intro k t
    show (d.items.erase id).get? k = some t ↔ _
    rw [Table.get?_erase]
    by_cases hid : k = id
    · subst hid
      simp [hold]
    · simp [hid, Ne.symm hid]

/-! ## What a change does to the frozen invoices -/

/-- The statements on lines leave the invoices alone. -/
theorem invoices_exec {d d' : Db} {s : Statement} (h : s.exec d = .ok d') :
    d'.invoices = d.invoices := by
  cases s with
  | insert id new => exact (exec_insert h).1.invoices
  | update id newId new =>
    obtain ⟨-, rfl⟩ | ⟨old, -, hrep, -⟩ := exec_update h
    · rfl
    · exact hrep.invoices
  | delete id =>
    obtain ⟨-, rfl⟩ | ⟨old, -, hrep, -⟩ := exec_delete h
    · rfl
    · exact hrep.invoices

/-- A statement that passes and keeps parents leaves the lines of a frozen invoice as they are. -/
theorem lines_exec {d d' : Db} {s : Statement} {id : Id} (h : s.exec d = .ok d')
    (keeps : KeepsParent d (.item s)) (frozen : Frozen d id) : Lines d' id = Lines d id := by
  cases s with
  -- The trigger refuses a line of a frozen invoice.
  | insert k new =>
    obtain ⟨hrep, hnew⟩ := exec_insert h
    apply hrep.lines_eq
    · simp
    · rintro _ ⟨⟩ rfl
      exact hnew frozen
  | update k newKey new =>
    obtain ⟨-, rfl⟩ | ⟨old, hold, hrep, hnew⟩ := exec_update h
    · rfl
    apply hrep.lines_eq
    · -- a line of a frozen invoice would stay with it, and the trigger would have refused that
      rintro _ ⟨⟩ rfl
      have hsame : new.invoiceId = old.invoiceId := keeps old hold frozen
      rw [hsame] at hnew
      exact hnew frozen
    · rintro _ ⟨⟩ rfl
      exact hnew frozen
  -- Of a `DELETE` it sees the old row.
  | delete k =>
    obtain ⟨-, rfl⟩ | ⟨old, hold, hrep, hgone⟩ := exec_delete h
    · rfl
    apply hrep.lines_eq
    · rintro _ ⟨⟩ rfl
      exact hgone frozen
    · simp

/-- The deletes of a cascade leave the invoices. -/
theorem invoices_cascade {ids : List Id} {d d' : Db} (h : cascade d ids = .ok d') :
    d'.invoices = d.invoices := by
  induction ids generalizing d with
  | nil =>
    obtain rfl := Except.ok.inj h
    rfl
  | cons k ids ih =>
    obtain ⟨d₁, hk, hrest⟩ := exists_of_bind_eq_ok h
    exact (ih hrest).trans (invoices_exec hk)

/-- The cascade from one invoice leaves the lines of the others as they are. -/
theorem lines_cascade {p id : Id} (hne : p ≠ id) {ids : List Id} {d d' : Db}
    (hids : ∀ k ∈ ids, ∀ t, d.items.get? k = some t → t.invoiceId = p)
    (h : cascade d ids = .ok d') : Lines d' id = Lines d id := by
  induction ids generalizing d with
  | nil =>
    obtain rfl := Except.ok.inj h
    rfl
  | cons k ids ih =>
    obtain ⟨d₁, hk, hrest⟩ := exists_of_bind_eq_ok h
    obtain ⟨-, rfl⟩ | ⟨old, hold, hrep, -⟩ := exec_delete hk
    · exact ih (fun j hj => hids j (List.mem_cons_of_mem _ hj)) hrest
    have hlines : Lines d₁ id = Lines d id := by
      apply hrep.lines_eq
      · rintro _ ⟨⟩ heq
        exact hne ((hids k List.mem_cons_self old hold).symm.trans heq)
      · simp
    -- the lines that are left are lines of the same invoice
    have hids' : ∀ j ∈ ids, ∀ t, d₁.items.get? j = some t → t.invoiceId = p := by
      intro j hj t ht
      have hbefore := ((hrep.items j t).mp ht).resolve_left (by simp)
      exact hids j (List.mem_cons_of_mem _ hj) t hbefore.1
    exact (ih hids' hrest).trans hlines

/-- The lines found for an invoice are lines of that invoice. -/
theorem invoiceId_of_mem_lineIds {d : Db} {id k : Id} (h : k ∈ lineIds d id) {t : InvoiceItem}
    (ht : d.items.get? k = some t) : t.invoiceId = id := by
  obtain ⟨⟨j, u⟩, hu, rfl⟩ := List.mem_map.mp h
  obtain ⟨hrow, hid⟩ := List.mem_filter.mp hu
  have heq : u = t := Option.some.inj ((Table.get?_eq_some.mpr hrow).symm.trans ht)
  rw [← heq]
  exact of_decide_eq_true hid

/-- A frozen invoice stays frozen as long as it is not deleted. -/
theorem Passed.frozen (e : Passed) {id : Id} (frozen : Frozen e.before id)
    (stays : e.change ≠ .deleteInvoice id) : Frozen e.after id := by
  obtain ⟨d, change, d', h⟩ := e
  rw [frozen_iff] at frozen ⊢
  obtain ⟨i, hi, hstatus⟩ := frozen
  cases change with
  | item s =>
    refine ⟨i, ?_, hstatus⟩
    rw [invoices_exec h]
    exact hi
  -- An invoice leaves the draft and never returns to it.
  | leaveDraft k status out =>
    obtain rfl := Except.ok.inj h
    show ∃ j, (d.invoices.update k _).get? id = some j ∧ _
    rw [Table.get?_update]
    by_cases hk : id = k
    · rw [if_pos hk, hi]
      exact ⟨_, rfl, out⟩
    · rw [if_neg hk]
      exact ⟨i, hi, hstatus⟩
  -- The id of a new invoice was free.
  | insertInvoice k invoice =>
    simp only [Change.exec] at h
    split_ifs at h
    obtain rfl := Except.ok.inj h
    refine ⟨i, ?_, hstatus⟩
    show (d.invoices.insert k invoice).get? id = some i
    rw [Table.get?_insert, hi, Option.some_or]
  | deleteInvoice k =>
    have hne : k ≠ id := fun hk => stays (congrArg Change.deleteInvoice hk)
    simp only [Change.exec] at h
    split_ifs at h
    refine ⟨i, ?_, hstatus⟩
    rw [invoices_cascade h]
    show (d.invoices.erase k).get? id = some i
    rw [Table.get?_erase, if_neg hne.symm]
    exact hi

/-- A change that passes and keeps parents leaves the lines of a frozen invoice as they are, unless
it deletes the invoice. -/
theorem Passed.lines_eq (e : Passed) {id : Id} (keeps : KeepsParent e.before e.change)
    (frozen : Frozen e.before id) (stays : e.change ≠ .deleteInvoice id) :
    Lines e.after id = Lines e.before id := by
  obtain ⟨d, change, d', h⟩ := e
  cases change with
  | item s => exact lines_exec h keeps frozen
  | leaveDraft k status out =>
    obtain rfl := Except.ok.inj h
    rfl
  | insertInvoice k invoice =>
    simp only [Change.exec] at h
    split_ifs at h
    obtain rfl := Except.ok.inj h
    rfl
  -- The cascade deletes the lines of another invoice only.
  | deleteInvoice k =>
    have hne : k ≠ id := fun hk => stays (congrArg Change.deleteInvoice hk)
    simp only [Change.exec] at h
    split_ifs at h
    show Lines d' id = Lines d id
    have hlines : Lines d' id = _ :=
      lines_cascade hne (fun j hj t => invoiceId_of_mem_lineIds hj) h
    exact hlines

/-- A deleted invoice is gone. -/
theorem Passed.not_frozen_of_delete (e : Passed) {id : Id} (h : e.change = .deleteInvoice id) :
    ¬Frozen e.after id := by
  obtain ⟨d, change, d', hpass⟩ := e
  obtain rfl : change = .deleteInvoice id := h
  simp only [Change.exec] at hpass
  split_ifs at hpass
  simp [Frozen, invoices_cascade hpass]

/-- A change that moves a line away from a frozen invoice changes the lines of that invoice. -/
theorem Passed.lines_ne (e : Passed) (h : ¬KeepsParent e.before e.change) :
    ∃ id, Frozen e.before id ∧ Frozen e.after id ∧ Lines e.after id ≠ Lines e.before id := by
  obtain ⟨d, change, d', hpass⟩ := e
  cases change with
  | item s =>
    cases s with
    | insert k new => exact absurd trivial h
    | delete k => exact absurd trivial h
    | update k newKey new =>
      -- Only an update of a frozen invoice's line to another parent fails to keep it.
      simp only [KeepsParent, not_forall] at h
      obtain ⟨old, hold, hfrozen, hmoved⟩ := h
      obtain ⟨hnone, -⟩ | ⟨old', hold', hrep, -⟩ := exec_update hpass
      · rw [hold] at hnone
        cases hnone
      obtain rfl : old = old' := Option.some.inj (hold.symm.trans hold')
      refine ⟨old.invoiceId, hfrozen, ?_, ?_⟩
      · show Frozen d' old.invoiceId
        unfold Frozen
        rw [hrep.invoices]
        exact hfrozen
      · -- the row that went was a line of the invoice, and the one that came is not
        intro heq
        have hbefore : (k, old) ∈ Lines d old.invoiceId := ⟨hold, rfl⟩
        have hafter : (k, old) ∈ Lines d' old.invoiceId := heq ▸ hbefore
        rcases (hrep.items k old).mp hafter.1 with hcome | ⟨-, hgone⟩
        · have hnew : old = new := (Prod.mk.inj (Option.mem_some.mp hcome)).2.symm
          exact hmoved (congrArg InvoiceItem.invoiceId hnew.symm)
        · exact hgone rfl
  | leaveDraft k status out => exact absurd trivial h
  | insertInvoice k invoice => exact absurd trivial h
  | deleteInvoice k => exact absurd trivial h

/-! ## Runs -/

/-- The lines of an invoice that is frozen and not deleted on the way stay as they are in a run
whose changes keep the parents of frozen lines. -/
theorem Run.lines_eq {d d' : Db} {trace : List Passed} {id : Id} (run : Run d trace d')
    (keeps : ∀ e ∈ trace, KeepsParent e.before e.change) (frozen : Frozen d id)
    (stays : ∀ e ∈ trace, e.change ≠ .deleteInvoice id) :
    Frozen d' id ∧ Lines d' id = Lines d id := by
  induction run with
  | nil d => exact ⟨frozen, rfl⟩
  | @cons e trace d' rest ih =>
    have hfrozen : Frozen e.after id := e.frozen frozen (stays e List.mem_cons_self)
    have hlines : Lines e.after id = Lines e.before id :=
      e.lines_eq (keeps e List.mem_cons_self) frozen (stays e List.mem_cons_self)
    obtain ⟨hfrozen', hlines'⟩ := ih (fun f hf => keeps f (List.mem_cons_of_mem _ hf)) hfrozen
      (fun f hf => stays f (List.mem_cons_of_mem _ hf))
    exact ⟨hfrozen', hlines'.trans hlines⟩

/-- In every run of statements on the lines, of invoices that leave `DRAFT`, and of invoices that
come and go, the lines of the frozen invoices never change if and only if no `UPDATE` moves a line
of a frozen invoice to another invoice. Then the lines of an invoice are, as long as it exists,
what they were when it was frozen. -/
theorem issued_lines_frozen_iff {d d' : Db} {trace : List Passed} (run : Run d trace d') :
    ((∀ e ∈ trace, KeepsParent e.before e.change) ↔
      ∀ e ∈ trace, ∀ id, Frozen e.before id → Frozen e.after id →
        Lines e.after id = Lines e.before id) ∧
    ((∀ e ∈ trace, KeepsParent e.before e.change) → ∀ id, Frozen d id →
      (∀ e ∈ trace, e.change ≠ .deleteInvoice id) →
        Frozen d' id ∧ Lines d' id = Lines d id) := by
  constructor
  · constructor
    · intro keeps e he id hbefore hafter
      apply e.lines_eq (keeps e he) hbefore
      intro hdelete
      exact e.not_frozen_of_delete hdelete hafter
    · intro hlines e he
      by_contra hmoves
      obtain ⟨id, hbefore, hafter, hne⟩ := e.lines_ne hmoves
      exact hne (hlines e he id hbefore hafter)
  · intro keeps id frozen stays
    exact run.lines_eq keeps frozen stays

end InvoiceItems

namespace Sample

/-- A line of 80.00 of an invoice. -/
def line (invoiceId : Id) : InvoiceItem where
  invoiceId := invoiceId
  position := 1
  title := ['r', 'o', 's', 'e', 's']
  description := none
  unitPriceAmount := 8000
  quantity := 1
  taxRate := 1500
  lineNetAmount := 8000
  lineDiscountAmount := 0
  lineTaxableAmount := 8000
  lineTaxAmount := 1200
  lineTotalAmount := 9200

/-- Invoice 601 is issued, with the given line 701, and invoice 602 of a second order is a draft
with the given lines. -/
def invoiced (lines : Table Id InvoiceItem) : Db :=
  { accounts (wallets 0 0 0) with
    orders := twoOrders
    invoices := ⟨[(601, invoice .issued 0 0), (602, { invoice .draft 0 0 with orderId := 402 })],
      by simp⟩
    items := lines }

end Sample

namespace InvoiceItems

/-- The draft gets a line and is issued; the line of the invoice issued before stays. -/
theorem issued_lines_frozen_iff_draft :
    ∃ e₁ e₂ : Passed, e₁.change = .item (.insert 702 (Sample.line 602)) ∧
      e₂.change = .leaveDraft 602 .issued (by decide) ∧
      Run (Sample.invoiced ⟨[(701, Sample.line 601)], by simp⟩) [e₁, e₂] e₂.after ∧
      Lines e₂.after 601 = Lines (Sample.invoiced ⟨[(701, Sample.line 601)], by simp⟩) 601 := by
  let e₁ : Passed :=
    { before := Sample.invoiced ⟨[(701, Sample.line 601)], by simp⟩
      change := .item (.insert 702 (Sample.line 602))
      after := Sample.invoiced ⟨[(701, Sample.line 601), (702, Sample.line 602)], by simp⟩
      passes := rfl }
  let e₂ : Passed :=
    { before := e₁.after
      change := .leaveDraft 602 .issued (by decide)
      after := _
      passes := rfl }
  have run : Run e₁.before [e₁, e₂] e₂.after := .cons e₁ (.cons e₂ (.nil _))
  -- Neither statement moves a line of the frozen invoice.
  have keeps : ∀ e ∈ [e₁, e₂], KeepsParent e.before e.change := by
    intro e he
    rcases List.mem_cons.mp he with rfl | he
    · trivial
    · rw [List.mem_singleton.mp he]
      trivial
  have stays : ∀ e ∈ [e₁, e₂], e.change ≠ .deleteInvoice 601 := by
    intro e he
    rcases List.mem_cons.mp he with rfl | he
    · exact nofun
    · rw [List.mem_singleton.mp he]
      exact nofun
  have frozen : Frozen e₁.before 601 := by decide
  exact ⟨e₁, e₂, rfl, rfl, run, ((issued_lines_frozen_iff run).2 keeps 601 frozen stays).2⟩

/-- One `UPDATE` moves the line of an issued invoice to a draft: the database lets it through, and
the issued invoice has lost its line. -/
theorem issued_line_moves :
    (Statement.update 701 701 (Sample.line 602)).exec
        (Sample.invoiced ⟨[(701, Sample.line 601)], by simp⟩) =
      .ok (Sample.invoiced ⟨[(701, Sample.line 602)], by simp⟩) ∧
    Frozen (Sample.invoiced ⟨[(701, Sample.line 601)], by simp⟩) 601 ∧
    Frozen (Sample.invoiced ⟨[(701, Sample.line 602)], by simp⟩) 601 ∧
    (701, Sample.line 601) ∈ Lines (Sample.invoiced ⟨[(701, Sample.line 601)], by simp⟩) 601 ∧
    Lines (Sample.invoiced ⟨[(701, Sample.line 602)], by simp⟩) 601 = ∅ := by
  refine ⟨rfl, by decide, by decide, ⟨rfl, rfl⟩, ?_⟩
  rw [Set.eq_empty_iff_forall_notMem]
  rintro ⟨k, t⟩ ⟨hrow, hid⟩
  have hmem : (k, t) ∈ [(701, Sample.line 602)] := Table.get?_eq_some.mp hrow
  obtain ⟨rfl, rfl⟩ := Prod.mk.inj (List.mem_singleton.mp hmem)
  exact absurd hid (by decide)

end InvoiceItems

end Giftly
