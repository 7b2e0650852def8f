import Giftly.Frames
import Giftly.Seed
import Giftly.Services.Receipt

/-!
# Receipts under concurrency

`send_receipt` locks the invoice before it looks at it, and holds the lock while it sends. So between
the two nobody else can stamp the invoice or send its receipt: a session that has sent one is the only
one that has, the committed invoice is `PAID` and not stamped, and its commit stamps it. What a crash
leaves behind is a receipt that was sent and no stamp, and the next pass sends it again.

`InHand` says this of a session at every statement, and `Settled` is what a commit does.
-/

namespace Giftly

open Store

/-- The receipt stamp of an invoice. -/
def Db.stamp (d : Db) (id : Id) : Option Time := (d.invoices.get? id).bind (·.receiptEmailSentAt)

/-- The order of every invoice is there, as the foreign key asks for. -/
def OrdersThere (d : Db) : Prop :=
  ∀ id i, d.invoices.get? id = some i → (d.orders.get? i.orderId).isSome = true

namespace ReceiptService

/-- The address of the customer of an invoice. -/
def recipient (env : Env) (d : Db) (id : Id) : Option Text :=
  (d.invoices.get? id).bind fun i =>
    (d.orders.get? i.orderId).bind fun o => env.address o.customerId (d.users.get? o.customerId)

/-- How payments and passes develop the database: no invoice appears or changes its order, no order
changes its customer, the users stay, and a stamp is never taken back. -/
structure Steady (d d' : Db) : Prop where
  invoices : ∀ id, (d'.invoices.get? id).map (·.orderId) = (d.invoices.get? id).map (·.orderId)
  orders : ∀ id o, d.orders.get? id = some o →
    ∃ o', d'.orders.get? id = some o' ∧ o'.customerId = o.customerId
  users : d'.users = d.users
  stamps : ∀ id, d.stamp id ≠ none → d'.stamp id ≠ none

namespace Steady

variable {d d' d'' : Db}

/-- Nothing happens, and no stamp is taken back. -/
theorem refl (d : Db) : Steady d d := ⟨fun _ => rfl, fun _ o ho => ⟨o, ho, rfl⟩, rfl, fun _ h => h⟩

/-- Two steps of the development are one. -/
theorem trans (h : Steady d d') (h' : Steady d' d'') : Steady d d'' where
  invoices id := (h'.invoices id).trans (h.invoices id)
  orders id o ho := by
    obtain ⟨o', ho', hc⟩ := h.orders id o ho
    obtain ⟨o'', ho'', hc'⟩ := h'.orders id o' ho'
    exact ⟨o'', ho'', hc'.trans hc⟩
  users := h'.users.trans h.users
  stamps id hs := h'.stamps id (h.stamps id hs)

/-- An invoice that is there later was there before, with the same order. -/
theorem invoice (h : Steady d d') {id : Id} {i' : Invoice} (hi : d'.invoices.get? id = some i') :
    ∃ i, d.invoices.get? id = some i ∧ i.orderId = i'.orderId := by
  have hmap := h.invoices id
  rw [hi, Option.map_some] at hmap
  obtain ⟨i, hi, ho⟩ := Option.map_eq_some_iff.mp hmap.symm
  exact ⟨i, hi, ho⟩

/-- Orders stay, so the order of every invoice does. -/
theorem ordersThere (h : Steady d d') (hd : OrdersThere d) : OrdersThere d' := by
  intro id i' hi'
  obtain ⟨i, hi, horder⟩ := h.invoice hi'
  obtain ⟨o, ho⟩ := Option.isSome_iff_exists.mp (hd id i hi)
  obtain ⟨o', ho', -⟩ := h.orders i.orderId o ho
  rw [← horder, ho']
  rfl

/-- The address of the customer of an invoice stays what it is. -/
theorem recipient_eq (h : Steady d d') (hd : OrdersThere d) (env : Env) (id : Id) :
    recipient env d' id = recipient env d id := by
  unfold recipient
  cases hi' : d'.invoices.get? id with
  | none =>
    have hmap := h.invoices id
    rw [hi', Option.map_none] at hmap
    rw [Option.map_eq_none_iff.mp hmap.symm]
    rfl
  | some i' =>
    obtain ⟨i, hi, horder⟩ := h.invoice hi'
    obtain ⟨o, ho⟩ := Option.isSome_iff_exists.mp (hd id i hi)
    obtain ⟨o', ho', hc⟩ := h.orders i.orderId o ho
    rw [hi, Option.bind_some, Option.bind_some, ho, ← horder, ho', Option.bind_some,
      Option.bind_some, hc, h.users]

end Steady

/-- The discipline of passes and payments. -/
def discipline : Discipline Db Row (Memory × List Receipt) where
  inv := OrdersThere
  same l d d' := l.Same d d'
  same_refl := Row.Same.refl
  same_trans h₁ h₂ := h₁.trans h₂
  grows := Steady
  grows_refl := Steady.refl
  grows_trans := Steady.trans
  cond := System.always Db Row (Memory × List Receipt)
  guar _ _ := True

abbrev around : Surroundings Db Row (Memory × List Receipt) := discipline.surroundings

/-- What a session knows. -/
abbrev MailView := View Db Row (Memory × List Receipt)

/-- A session that has sent a receipt has sent no other one, and holds the lock of its invoice, which
is paid and not stamped. -/
def InHand (v : MailView) : Prop :=
  ∀ r ∈ v.mem.2, v.mem.2 = [r] ∧ Row.invoice r.invoiceId ∈ v.held ∧
    ∃ i, v.last.invoices.get? r.invoiceId = some i ∧ i.status = .paid ∧ i.receiptEmailSentAt = none

/-- What a commit does to the stamps, after the session has sent `sent`. -/
structure Stamps (env : Env) (sent : List Receipt) (d d' : Db) : Prop where
  reason : ∀ id, d'.stamp id ≠ none →
    d.stamp id ≠ none ∨ (∃ r ∈ sent, r.invoiceId = id) ∨ recipient env d id = none
  stamped : ∀ r ∈ sent, d'.stamp r.invoiceId ≠ none

/-- The transaction follows the discipline, and stamps what it has sent. -/
def Settled (env : Env) (v : MailView) : Prop :=
  discipline.Commits v ∧
    ∀ d, around.rely v.held v.last d → Stamps env v.mem.2 d (v.pending d)

variable {env : Env} {v : MailView}

/-- A receipt in hand stays so while others run, because its invoice is locked. -/
theorem stable_inHand : Stable around InHand where
  rely v d hv hd r hr := by
    obtain ⟨hone, hheld, i, hi, hstate⟩ := hv r hr
    have hrow : d.invoices.get? r.invoiceId = v.last.invoices.get? r.invoiceId := hd.2.2 _ hheld
    exact ⟨hone, hheld, i, hrow.trans hi, hstate⟩
  held v ls hv _ r hr := by
    obtain ⟨hone, hheld, hrow⟩ := hv r hr
    exact ⟨hone, List.mem_append_right ls hheld, hrow⟩

/-! ## Payments -/

/-- A write under its locks that keeps to the development and touches no stamp. -/
def Unstamping (ls : List Row) (f : Db → Db) : Prop :=
  ∀ d : Db, (∀ l, l ∉ ls → l.Same d (f d)) ∧ Steady d (f d) ∧ ∀ id, (f d).stamp id = d.stamp id

/-- A statement on invoices that neither makes one nor changes its order or its stamp. -/
def Billed (f : Db → Db) : Prop :=
  ∀ (d : Db) (id : Id), ((f d).invoices.get? id).map (fun i => (i.orderId, i.receiptEmailSentAt)) =
    (d.invoices.get? id).map fun i => (i.orderId, i.receiptEmailSentAt)

/-- A framed statement on invoices that touches no stamp keeps to the development. -/
theorem unstamping_of_billed {ts : List Tbl} {ls : List Row} {f : Db → Db} (h : Framed ts ls f)
    (hf : Billed f) : Unstamping ls f := by
  intro d
  have hstamp : ∀ id, (f d).stamp id = d.stamp id := by
    intro id
    calc (f d).stamp id
        = (((f d).invoices.get? id).map fun i => (i.orderId, i.receiptEmailSentAt)).bind
            Prod.snd := by rw [Option.bind_map]; rfl
      _ = ((d.invoices.get? id).map fun i => (i.orderId, i.receiptEmailSentAt)).bind Prod.snd := by
            rw [hf]
      _ = d.stamp id := by rw [Option.bind_map]; rfl
  refine ⟨(h d).2, ⟨fun id => ?_, fun id o ho => ?_, (h d).1.users, fun id hs => ?_⟩, hstamp⟩
  · have hmap := congrArg (fun x => x.map Prod.fst) (hf d id)
    rw [Option.map_map, Option.map_map] at hmap
    exact hmap
  · obtain ⟨o', ho', hfrozen⟩ := (h d).1.orders id o ho
    exact ⟨o', ho', congrArg Prod.fst hfrozen⟩
  · rwa [hstamp]

/-- A program whose writes touch no stamp. -/
abbrev LeavesStamps {α : Type} (p : Tx α) : Prop := p.Writes Unstamping fun _ => True

/-- A function that writes no invoice touches no stamp. -/
theorem leavesStamps_of_writesTo {α : Type} {ts : List Tbl} {p : Tx α} (hp : WritesTo ts p)
    (ht : .invoices ∉ ts) : LeavesStamps p :=
  Prog.Writes.mono hp fun _ f hf => unstamping_of_billed hf fun d id => by rw [(hf d).1.invoices_eq ht]

/-- A function that writes nothing. -/
theorem leavesStamps_of_reads {α : Type} {p : Tx α} (hp : WritesTo [] p) : LeavesStamps p :=
  leavesStamps_of_writesTo hp List.not_mem_nil

/-- The flush of an invoice assigns no stamp. -/
theorem leavesStamps_flushInvoice {id : Id} {l a : Invoice} :
    LeavesStamps (InvoiceRepository.flush id l a) := by
  unfold InvoiceRepository.flush
  split_ifs
  · trivial
  · refine Prog.writes_flush _ (unstamping_of_billed
      (Framed.updateInvoice List.mem_cons_self (l.assign_frozen a)) fun d j => ?_)
    simp only [Db.updateInvoice, Table.get?_update]
    split_ifs
    · rw [Option.map_map]
      rfl
    · rfl

section Payments

variable {refresh : Bool} {s : Settings} {now : Time}

/-- The settlement of an invoice touches no stamp. -/
theorem leavesStamps_settleInvoiceRecord {i o : Id} {x : Invoice} {y : Order} {m : PaymentMethod}
    {a b : ℤ} : LeavesStamps (PaymentService.settleInvoiceRecord now i x o y m a b) :=
  .bind (Prog.writes_ofExcept _) fun _ => .bind (Prog.writes_ofExcept _) fun _ =>
    .bind (leavesStamps_of_reads writesTo_assertTransition) fun _ =>
      .bind (leavesStamps_of_writesTo writesTo_flushOrder (by decide)) fun _ =>
        .bind leavesStamps_flushInvoice fun _ =>
          leavesStamps_of_writesTo writesTo_consume (by decide)

/-- The wallet-only branch touches no stamp. -/
theorem leavesStamps_payFromWallet {x : PaymentService.PayInput} {i w : Id} {v : Invoice}
    {o : Order} {n : ℤ} : LeavesStamps (PaymentService.payFromWallet refresh now x i v o w n) :=
  .bind (leavesStamps_of_writesTo writesTo_fundEscrow (by decide)) fun _ =>
    .bind leavesStamps_settleInvoiceRecord fun _ => trivial

/-- The gateway branch touches no stamp. -/
theorem leavesStamps_startGateway {x : PaymentService.PayInput} {i u w : Id} {v : Invoice}
    {a b : ℤ} : LeavesStamps (PaymentService.startGateway refresh s now x i v u w a b) :=
  .bind (Prog.writes_when _ (leavesStamps_of_writesTo writesTo_holdFunds (by decide))) fun _ =>
    .bind leavesStamps_flushInvoice fun _ =>
      .bind (leavesStamps_of_writesTo writesTo_createIntent (by decide)) fun _ =>
        .bind (Prog.writes_query _) fun _ =>
          .bind (leavesStamps_of_reads writesTo_createCheckout) fun _ =>
            .bind (leavesStamps_of_writesTo writesTo_flushIntent (by decide)) fun _ => trivial

/-- `pay_invoice` touches no stamp. -/
theorem leavesStamps_payInvoice {x : PaymentService.PayInput} {i u : Id} :
    LeavesStamps (PaymentService.payInvoice refresh s now x i u) := by
  refine .bind (Prog.writes_query _) fun _ => ?_
  split
  · trivial
  · refine .bind (leavesStamps_of_reads writesTo_keepInvoice) fun _ =>
      .bind (Prog.writes_require _ _) fun _ => .bind (Prog.writes_require _ _) fun _ =>
        .bind (leavesStamps_of_reads writesTo_lockOrder) fun y => ?_
    split
    · trivial
    · refine .bind (Prog.writes_require _ _) fun _ =>
        .bind (leavesStamps_of_reads writesTo_getByUser) fun z => ?_
      split
      · trivial
      · refine .bind (Prog.writes_ofExcept _) fun _ =>
          .bind (leavesStamps_of_reads writesTo_availableBalance) fun _ =>
            .bind (Prog.writes_ofExcept _) fun _ => ?_
        -- From the wallet alone, or through the gateway.
        split_ifs
        · exact leavesStamps_payFromWallet
        · refine .bind (Prog.writes_query _) fun y => ?_
          split
          · trivial
          · exact leavesStamps_startGateway

/-- The settlement of an invoice through the gateway touches no stamp. -/
theorem leavesStamps_settleInvoice {c i : Id} {p : PaymentIntent} :
    LeavesStamps (PaymentService.settleInvoice refresh now c i p) := by
  unfold PaymentService.settleInvoice
  split
  · trivial
  · refine .bind (leavesStamps_of_reads writesTo_lockInvoice) fun x => ?_
    split
    · trivial
    · split_ifs
      · trivial
      · refine .bind (leavesStamps_of_reads writesTo_lockOrder) fun y => ?_
        split
        · trivial
        · refine .bind (leavesStamps_of_reads writesTo_getByUser)
            fun z => ?_
          split
          · trivial
          · exact .bind (leavesStamps_of_writesTo writesTo_fundEscrow (by decide)) fun _ =>
              leavesStamps_settleInvoiceRecord

/-- `handle_webhook` touches no stamp. -/
theorem leavesStamps_handleWebhook {a b : Bool} {c : Id}
    {e : Except Err PaymentService.WebhookEvent} :
    LeavesStamps (PaymentService.handleWebhook refresh now a b c e) := by
  refine .bind (Prog.writes_require _ _) fun _ => .bind (Prog.writes_ofExcept _) fun _ =>
    .bind (Prog.writes_require _ _) fun _ =>
      .bind (leavesStamps_of_reads writesTo_lockByLink) fun x => ?_
  split
  · trivial
  · split_ifs
    · trivial
    · exact .bind (leavesStamps_of_writesTo writesTo_flushIntent (by decide)) fun _ => trivial
    · refine .bind (Prog.writes_ofExcept _) fun _ => .bind (Prog.writes_ofExcept _) fun _ =>
        .bind (Prog.writes_require _ _) fun _ => .bind ?_ fun _ =>
          .bind (leavesStamps_of_writesTo writesTo_flushIntent (by decide)) fun _ => trivial
      unfold PaymentService.settleIntent
      split
      · exact leavesStamps_of_writesTo writesTo_settleTopup (by decide)
      · exact leavesStamps_settleInvoice

/-- A payment touches no stamp. -/
theorem leavesStamps_settles {r : Request} (h : Settles r) : LeavesStamps (r.tx refresh s) := by
  cases r with
  | payInvoice => exact .bind leavesStamps_payInvoice fun _ => trivial
  | handleWebhook => exact .bind leavesStamps_handleWebhook fun _ => trivial
  | _ => exact h.elim

end Payments

/-- What a transaction knows that has sent nothing and touches no stamp. -/
def Idle (v : MailView) : Prop :=
  v.mem.2 = [] ∧ ∀ d : Db, (∀ l, l ∉ v.held → l.Same d (v.pending d)) ∧ Steady d (v.pending d) ∧
    ∀ id, (v.pending d).stamp id = d.stamp id

/-- A transaction that has sent nothing has still sent nothing. -/
theorem stable_idle : Stable around Idle where
  rely _ _ hv _ := hv
  held _ ls hv _ := ⟨hv.1, fun d =>
    ⟨fun l hl => (hv.2 d).1 l fun h => hl (List.mem_append_right ls h), (hv.2 d).2⟩⟩

/-- A transaction that has sent nothing has nothing in hand. -/
theorem inHand_of_idle (h : Idle v) : InHand v := by
  intro r hr
  rw [h.1] at hr
  exact absurd hr List.not_mem_nil

/-- A commit that keeps to its locks and to the development. -/
theorem commits_of_steady
    (h : ∀ d, around.rely v.held v.last d →
      (∀ l, l ∉ v.held → l.Same d (v.pending d)) ∧ Steady d (v.pending d)) :
    discipline.Commits v := by
  intro d hd
  obtain ⟨hsame, hsteady⟩ := h d hd
  exact ⟨hsteady.ordersThere hd.1, hsteady, trivial, hsame⟩

/-- A transaction that has sent nothing, and touched no stamp, may commit. -/
theorem settled_of_idle (h : Idle v) : Settled env v := by
  refine ⟨commits_of_steady fun d _ => ⟨(h.2 d).1, (h.2 d).2.1⟩, fun d _ => ?_⟩
  rw [h.1]
  refine ⟨fun id hs => .inl ?_, fun r hr => absurd hr List.not_mem_nil⟩
  rwa [(h.2 d).2.2] at hs

/-- A transaction begins without having sent anything. -/
theorem idle_start (m : Memory) (d : Db) : Idle (.start (m, []) d) :=
  ⟨rfl, fun d => ⟨fun l _ => .refl l d, .refl d, fun _ => rfl⟩⟩

/-- A transaction that sends nothing and touches no stamp. -/
theorem throughout_silent {p : Tx Unit} (hp : LeavesStamps p) (m : Memory) (d : Db) :
    Throughout around InHand (fun _ v => Settled env v) p.silent (.start (m, []) d) := by
  have hidle : Throughout around Idle (fun _ v => Idle v) p.silent (.start (m, []) d) := by
    refine .of_writes stable_idle (fun _ _ _ hf hv => ⟨hv.1, fun d => ?_⟩) (fun v _ hf hv => ?_)
      hp.silent (idle_start m d)
    · obtain ⟨hsame, hsteady, hstamp⟩ := hv.2 d
      obtain ⟨hsame', hsteady', hstamp'⟩ := hf _
      refine ⟨fun l hl => ?_, hsteady.trans hsteady', fun id => (hstamp' id).trans (hstamp id)⟩
      rw [List.mem_append, not_or] at hl
      exact (hsame l hl.2).trans (hsame' l hl.1)
    · exact ⟨(hf v.mem).trans hv.1, hv.2⟩
  exact hidle.mono (fun _ => inHand_of_idle) fun _ _ hv _ => settled_of_idle hv

/-! ## Passes -/

/-- What a pass knows of a pending invoice that it has locked. -/
structure Locked (invoiceId : Id) (i : Invoice) (v : MailView) : Prop where
  held : .invoice invoiceId ∈ v.held
  row : v.last.invoices.get? invoiceId = some i
  paid : i.status = .paid
  unstamped : i.receiptEmailSentAt = none
  pending : v.pending = id
  there : OrdersThere v.last

section Passes

variable {invoiceId : Id} {i : Invoice} {now : Time}

/-- A locked invoice stays pending while others run. -/
theorem Locked.later (h : Locked invoiceId i v) {d : Db} (hd : around.rely v.held v.last d) :
    Locked invoiceId i { v with last := d } where
  held := h.held
  row := by
    have hsame : d.invoices.get? invoiceId = v.last.invoices.get? invoiceId := hd.2.2 _ h.held
    exact hsame.trans h.row
  paid := h.paid
  unstamped := h.unstamped
  pending := h.pending
  there := hd.1

/-- The stamp of an invoice, as a change of its row. -/
def stampAt (when : Time) (i : Invoice) : Invoice := { i with receiptEmailSentAt := some when }

/-- The invoice that is stamped has the stamp. -/
theorem stamp_stampAt {d : Db} (h : d.invoices.get? invoiceId = some i) :
    (d.updateInvoice invoiceId (stampAt now)).stamp invoiceId = some now := by
  simp [Db.stamp, Db.updateInvoice, h, stampAt]

/-- The other invoices keep their stamps. -/
theorem stamp_stampAt_ne {d : Db} {j : Id} (h : j ≠ invoiceId) :
    (d.updateInvoice invoiceId (stampAt now)).stamp j = d.stamp j := by
  simp [Db.stamp, Db.updateInvoice, Table.get?_update_ne _ _ h]

/-- Stamping an invoice keeps to the lock and to the development. -/
theorem steady_stampAt {d : Db} (h : d.invoices.get? invoiceId = some i) (now : Time) :
    (∀ l : Row, l ≠ .invoice invoiceId → l.Same d (d.updateInvoice invoiceId (stampAt now))) ∧
      Steady d (d.updateInvoice invoiceId (stampAt now)) := by
  refine ⟨fun l hl => ?_, fun j => ?_, fun _ o ho => ⟨o, ho, rfl⟩, rfl, fun j hs => ?_⟩
  · cases l <;> simp only [Row.Same, Db.updateInvoice]
    case invoice j => exact Table.get?_update_ne _ _ fun heq => hl (heq ▸ rfl)
  · simp only [Db.updateInvoice, Table.get?_update]
    split_ifs
    · rw [Option.map_map]
      rfl
    · rfl
  · by_cases hj : j = invoiceId
    · subst hj
      rw [stamp_stampAt h]
      simp
    · rwa [stamp_stampAt_ne hj]

/-- The commit of a pass that has stamped the invoice it holds. -/
theorem settled_stampAt (h : Locked invoiceId i v) {sent : List Receipt} (hmem : v.mem.2 = sent)
    (hsent : (∃ r, sent = [r] ∧ r.invoiceId = invoiceId) ∨
      sent = [] ∧ recipient env v.last invoiceId = none) :
    Settled env { v with
      held := [.invoice invoiceId] ++ v.held
      pending := Db.updateInvoice invoiceId (stampAt now) ∘ v.pending } := by
  -- The invoice's row is locked, so it is the one that was read.
  have hrow : ∀ d, around.rely (.invoice invoiceId :: v.held) v.last d →
      d.invoices.get? invoiceId = some i := by
    intro d hd
    have hsame : d.invoices.get? invoiceId = v.last.invoices.get? invoiceId :=
      hd.2.2 _ List.mem_cons_self
    exact hsame.trans h.row
  rw [h.pending]
  constructor
  · refine commits_of_steady fun d hd => ?_
    obtain ⟨hsame, hsteady⟩ := steady_stampAt (hrow d hd) now
    exact ⟨fun l hl => hsame l fun heq => hl (heq ▸ List.mem_cons_self), hsteady⟩
  · intro d hd
    show Stamps env v.mem.2 d (d.updateInvoice invoiceId (stampAt now))
    rw [hmem]
    constructor
    · -- An invoice that became stamped is this one, and either its receipt was sent or there is no
      -- address for it.
      intro j hs
      by_cases hj : j = invoiceId
      · subst hj
        rcases hsent with ⟨r, rfl, hr⟩ | ⟨-, hnone⟩
        · exact .inr (.inl ⟨r, List.mem_singleton_self r, hr⟩)
        · refine .inr (.inr ?_)
          rw [hd.2.1.recipient_eq h.there]
          exact hnone
      · rw [stamp_stampAt_ne hj] at hs
        exact .inl hs
    · -- Every receipt that was sent is this invoice's, which is stamped now.
      intro r hr
      rcases hsent with ⟨r', rfl, hr'⟩ | ⟨rfl, -⟩
      · obtain rfl := List.mem_singleton.mp hr
        rw [hr', stamp_stampAt (hrow d hd)]
        simp
      · exact absurd hr List.not_mem_nil

/-- The flush of the stamp, at the end of a pass over an invoice. -/
theorem throughout_markReceiptSent (h : Locked invoiceId i v) (hin : InHand v)
    {sent : List Receipt} (hmem : v.mem.2 = sent)
    (hsent : (∃ r, sent = [r] ∧ r.invoiceId = invoiceId) ∨
      sent = [] ∧ recipient env v.last invoiceId = none) (b : Bool) :
    Throughout around InHand (fun _ v => InHand v ∧ Settled env v)
      ((InvoiceRepository.markReceiptSent invoiceId now).silent >>= fun _ => .ret b) v := by
  refine ⟨hin, fun d hd _ => ⟨fun _ => ?_, fun e _ => ?_⟩⟩
  · have hlater := h.later hd
    have hin' := stable_inHand.held _ [.invoice invoiceId] (stable_inHand.rely v d hin hd)
      fun _ _ => .inr trivial
    have hrecipient : recipient env d invoiceId = recipient env v.last invoiceId :=
      hd.2.1.recipient_eq h.there env invoiceId
    refine ⟨hin', hin', settled_stampAt hlater hmem ?_⟩
    rwa [hrecipient]
  · exact stable_inHand.held _ [.invoice invoiceId] (stable_inHand.rely v d hin hd)
      fun _ _ => .inr trivial

/-- The lookup of the address by a pass. -/
theorem throughout_addressOf {β : Type} {Q : β → MailView → Prop} {g : Option Text → MailTx β}
    (h : Locked invoiceId i v) (hmem : v.mem.2 = []) (hin : InHand v)
    (hg : ∀ v', Locked invoiceId i v' → v'.mem.2 = [] → InHand v' →
      Throughout around InHand Q (g (recipient env v'.last invoiceId)) v') :
    Throughout around InHand Q ((addressOf env i.orderId).silent >>= g) v := by
  refine ⟨hin, fun d hd => ?_⟩
  have hlater := h.later hd
  have hin' := stable_inHand.rely v d hin hd
  obtain ⟨o, ho⟩ := Option.isSome_iff_exists.mp (hlater.there invoiceId i hlater.row)
  have hpending : v.pending d = d := by rw [h.pending]; rfl
  dsimp only
  rw [hpending, ho]
  refine ⟨hin', fun d' hd' => ?_⟩
  have hlast := hlater.later hd'
  have hpending' : v.pending d' = d' := by rw [h.pending]; rfl
  -- the customer is still that of the order
  obtain ⟨o', ho', hcustomer⟩ := hd'.2.1.orders i.orderId o ho
  have hrecipient : recipient env d' invoiceId =
      env.address o.customerId (d'.users.get? o.customerId) := by
    have hrow : d'.invoices.get? invoiceId = some i := hlast.row
    unfold recipient
    rw [hrow, Option.bind_some, ho', Option.bind_some, hcustomer]
  dsimp only
  rw [hpending']
  show Throughout around InHand Q (g (env.address o.customerId (d'.users.get? o.customerId))) _
  rw [← hrecipient]
  exact hg _ hlast hmem (stable_inHand.rely _ d' hin' hd')

/-- The lock of the invoice by a pass. -/
theorem throughout_lockInvoice {β : Type} {Q : β → MailView → Prop} {g : Option Invoice → MailTx β}
    (hin : InHand v)
    (hnone : ∀ d, around.rely v.held v.last d → Throughout around InHand Q (g none) { v with last := d })
    (hsome : ∀ d i, around.rely v.held v.last d → (v.pending d).invoices.get? invoiceId = some i →
      Throughout around InHand Q (g (some i))
        { v with held := .invoice invoiceId :: v.held, last := d }) :
    Throughout around InHand Q ((InvoiceRepository.lock invoiceId).silent >>= g) v := by
  refine ⟨hin, fun d hd => ⟨fun ht => ?_, fun l hl _ => ?_⟩⟩
  · show Throughout around InHand Q (g ((v.pending d).invoices.get? invoiceId)) _
    rw [Option.map_eq_none_iff.mp ht]
    exact hnone d hd
  · obtain ⟨i, hi, rfl⟩ := Option.map_eq_some_iff.mp hl
    show Throughout around InHand Q (g ((v.pending d).invoices.get? invoiceId)) _
    rw [hi]
    exact hsome d i hd hi

/-- A pass over an invoice sends its receipt under the lock of the invoice, and stamps what it has
sent. -/
theorem throughout_sendReceipt (answer : Except Err Unit) (m : Memory) (d : Db) :
    Throughout around InHand (fun _ v => InHand v ∧ Settled env v)
      (sendReceipt env now answer invoiceId) (.start (m, []) d) := by
  have hdone : ∀ v : MailView, Idle v →
      Throughout around InHand (fun _ v => InHand v ∧ Settled env v) (.ret false : MailTx Bool) v :=
    fun v hv => ⟨inHand_of_idle hv, inHand_of_idle hv, settled_of_idle hv⟩
  have hidle := idle_start m d
  refine throughout_lockInvoice (inHand_of_idle hidle)
    (fun d' hd' => hdone _ (stable_idle.rely _ d' hidle hd')) fun d' i hd' hi => ?_
  have hidle' := stable_idle.held _ [.invoice invoiceId] (stable_idle.rely _ d' hidle hd')
    fun _ _ => .inr trivial
  dsimp only
  split_ifs with hstate
  · exact hdone _ hidle'
  · rw [not_or, not_not, Option.not_isSome_iff_eq_none] at hstate
    have hlocked : Locked invoiceId i ⟨[.invoice invoiceId], id, (m, []), d'⟩ :=
      ⟨List.mem_cons_self, hi, hstate.1, hstate.2, rfl, hd'.1⟩
    refine throughout_addressOf hlocked rfl (inHand_of_idle hidle') fun v hv hmem hin => ?_
    cases hemail : recipient env v.last invoiceId with
    | none => exact throughout_markReceiptSent hv hin hmem (.inr ⟨rfl, hemail⟩) false
    | some email =>
      cases answer with
      | error e => exact hin
      | ok =>
        -- the receipt is sent, and from here on the session has to stamp the invoice
        have hsent : Locked invoiceId i
            { v with mem := (v.mem.1, receipt env email invoiceId i :: v.mem.2) } :=
          ⟨hv.held, hv.row, hv.paid, hv.unstamped, hv.pending, hv.there⟩
        have hmem' : receipt env email invoiceId i :: v.mem.2 = [receipt env email invoiceId i] := by
          rw [hmem]
        refine ⟨hin, throughout_markReceiptSent hsent ?_ hmem' (.inl ⟨_, rfl, rfl⟩) true⟩
        intro r hr
        obtain rfl : r = receipt env email invoiceId i := by simpa [hmem] using hr
        exact ⟨hmem', hv.held, i, hv.row, hv.paid, hv.unstamped⟩

/-! ## Runs -/

/-- Every transaction keeps its receipts in hand, and its commit is settled. -/
theorem throughout_delivers {refresh : Bool} {s : Settings} {p : MailTx Unit}
    (hp : Delivers env refresh s p) (m : Memory) (d : Db) :
    Throughout around InHand (fun _ v => Settled env v) p (.start (m, []) d) := by
  cases hp with
  | list limit =>
    have hreads : LeavesStamps (InvoiceRepository.listReceiptPending limit).void := fun _ => trivial
    exact throughout_silent hreads m d
  | send now answer invoiceId =>
    exact Throughout.bind ((throughout_sendReceipt answer m d).mono (fun _ h => h)
      fun _ _ _ h => h)
  | settle r hr => exact throughout_silent (leavesStamps_settles hr) m d

/-- The address is only read. -/
theorem leavesStamps_addressOf {orderId : Id} : LeavesStamps (addressOf env orderId) := by
  refine .bind (Prog.writes_query _) fun x => ?_
  split
  · trivial
  · exact .bind (Prog.writes_query _) fun _ => trivial

/-- A pass changes the outbox by sending at most. -/
theorem sends_sendReceipt (answer : Except Err Unit) :
    (sendReceipt env now answer invoiceId).Writes (fun _ _ => True) Prog.Sends := by
  have hmark : ((InvoiceRepository.markReceiptSent invoiceId now).silent : MailTx Unit).Writes
      (fun _ _ => True) Prog.Sends := ⟨trivial, trivial, fun _ => trivial⟩
  refine .bind (fun _ => trivial) fun x => ?_
  split
  · trivial
  · split_ifs
    · trivial
    · refine .bind (leavesStamps_addressOf.silent.memory fun _ hf => hf.sends) fun y => ?_
      split
      · exact .bind hmark fun _ => trivial
      · exact .bind (Prog.writes_ofExcept _) fun _ =>
          .bind ⟨fun _ => ⟨[_], rfl⟩, fun _ => trivial⟩ fun _ => .bind hmark fun _ => trivial

/-- A transaction puts receipts into its outbox, and takes none out. -/
theorem sends_delivers {refresh : Bool} {s : Settings} {p : MailTx Unit}
    (hp : Delivers env refresh s p) : p.Writes (fun _ _ => True) Prog.Sends := by
  cases hp with
  | list limit => exact fun _ => trivial
  | send now answer invoiceId => exact .bind (sends_sendReceipt answer) fun _ => trivial
  | settle r hr =>
    have hsettles : LeavesStamps (r.tx refresh s) := leavesStamps_settles hr
    exact hsettles.silent.memory fun _ hf => hf.sends

end Passes

section Runs

variable {refresh : Bool} {s : Settings} {d₀ : Db} {x : Mail Db Row Err Memory Receipt Unit}
  {t : Session Db Row Err (Memory × List Receipt) Unit} {i : ℕ}

/-- What a run knows of its running transactions. -/
theorem proceeds_of_mailed (h₀ : OrdersThere d₀)
    (h : Mailed (Delivers env refresh s) .empty d₀ x)
    (ht : x.sys.slots[i]? = some (.running t)) :
    discipline.Proceeds InHand (fun _ v => Settled env v) x.sys.db t :=
  Discipline.proceeds_of_run (fun _ hp d _ => throughout_delivers hp .empty d)
    (fun _ _ hv => hv.1) h₀ h.run i t ht

/-- A running transaction that has sent a receipt holds its invoice, paid and not stamped. -/
theorem inHand_of_mailed (h₀ : OrdersThere d₀) (h : Mailed (Delivers env refresh s) .empty d₀ x)
    (ht : x.sys.slots[i]? = some (.running t)) : InHand ⟨t.held, t.pending, t.mem, x.sys.db⟩ :=
  (proceeds_of_mailed h₀ h ht).holds stable_inHand

/-- A commit is settled. -/
theorem stamps_of_mailed (h₀ : OrdersThere d₀) (h : Mailed (Delivers env refresh s) .empty d₀ x)
    (ht : x.sys.slots[i]? = some (.running t)) {r : Unit} (hr : t.prog = .ret r) :
    OrdersThere x.sys.db ∧ Steady x.sys.db (t.view x.sys.db) ∧
      Stamps env t.mem.2 x.sys.db (t.view x.sys.db) := by
  obtain ⟨last, hrely, hthrough⟩ := proceeds_of_mailed h₀ h ht
  rw [hr] at hthrough
  obtain ⟨-, hcommits, hstamps⟩ := hthrough
  exact ⟨hrely.1, (hcommits x.sys.db hrely).2.1, hstamps x.sys.db hrely⟩

/-- The receipts of an invoice. -/
def isFor (id : Id) (r : Receipt) : Bool := r.invoiceId = id

/-- Whether an invoice is stamped, as a number. -/
def stamped (d : Db) (id : Id) : ℕ := if d.stamp id = none then 0 else 1

/-- A transaction has at most one receipt in hand. -/
theorem countP_inHand {v : MailView} (h : InHand v) (id : Id) :
    v.mem.2.countP (isFor id) ≤ 1 ∧
      (0 < v.mem.2.countP (isFor id) →
        .invoice id ∈ v.held ∧ v.last.stamp id = none) := by
  cases hmem : v.mem.2 with
  | nil => simp
  | cons r rs =>
    obtain ⟨hone, hheld, j, hj, -, hunstamped⟩ := h r (by simp [hmem])
    obtain rfl : rs = [] := by simpa [hmem] using hone
    constructor
    · exact List.countP_le_length
    · intro hpos
      have hid : r.invoiceId = id := by
        by_contra hne
        simp [isFor, hne] at hpos
      rw [← hid]
      exact ⟨hheld, by rw [Db.stamp, hj, Option.bind_some, hunstamped]⟩

/-- The receipts of an invoice that running transactions have sent, and its stamp, are at most one
together. -/
theorem unsettled_le (h₀ : OrdersThere d₀) (h : Mailed (Delivers env refresh s) .empty d₀ x)
    (id : Id) : stamped x.sys.db id + x.sys.unsettled (isFor id) ≤ 1 := by
  -- A transaction holds at most one receipt of the invoice, and its lock with it.
  have hslot : ∀ (i : ℕ) y, x.sys.slots[i]? = some y → y.outbox.countP (isFor id) ≤ 1 ∧
      (0 < y.outbox.countP (isFor id) → x.sys.db.stamp id = none ∧
        ∃ t, y = .running t ∧ .invoice id ∈ t.held) := by
    intro i y hy
    cases y with
    | running t =>
      obtain ⟨hle, hpos⟩ := countP_inHand (inHand_of_mailed h₀ h hy) id
      exact ⟨hle, fun hp => ⟨(hpos hp).2, t, rfl, (hpos hp).1⟩⟩
    | _ => simp [Slot.outbox]
  by_cases hstamp : x.sys.db.stamp id = none
  · have hgood := Discipline.good_of_run (fun p hp => Discipline.Follows.ensures fun d _ =>
      wp_mono (fun _ _ hv => hv.1) (throughout_delivers hp .empty d).wp) h₀ h.run
    have hle : x.sys.unsettled (isFor id) ≤ 1 := by
      refine sum_map_le_one (fun y hy => ?_) fun i j a b ha hb hpa hpb => ?_
      · obtain ⟨i, hi⟩ := List.getElem?_of_mem hy
        exact (hslot i y hi).1
      · -- the lock of the invoice belongs to one transaction
        obtain ⟨-, t, rfl, ht⟩ := (hslot i a ha).2 hpa
        obtain ⟨-, u, rfl, hu⟩ := (hslot j b hb).2 hpb
        by_contra hij
        exact hgood.disjoint i j t u hij ha hb _ ht hu
    simpa [stamped, hstamp] using hle
  · -- The invoice is stamped: no transaction holds a receipt of it any more.
    have hzero : x.sys.unsettled (isFor id) = 0 := by
      unfold System.unsettled
      rw [List.sum_eq_zero_iff]
      intro n hn
      obtain ⟨y, hy, rfl⟩ := List.mem_map.mp hn
      obtain ⟨i, hi⟩ := List.getElem?_of_mem hy
      by_contra hne
      exact hstamp ((hslot i y hi).2 (Nat.pos_of_ne_zero hne)).1
    simp [stamped, hstamp, hzero]

/-- A commit that has sent the receipt of an invoice stamps it. -/
theorem stamped_commit (h₀ : OrdersThere d₀) (h : Mailed (Delivers env refresh s) .empty d₀ x)
    (ht : x.sys.slots[i]? = some (.running t)) {r : Unit} (hr : t.prog = .ret r) (id : Id) :
    stamped x.sys.db id + t.mem.2.countP (isFor id) ≤ stamped (t.view x.sys.db) id := by
  obtain ⟨-, hsteady, hstamps⟩ := stamps_of_mailed h₀ h ht hr
  have hle : t.mem.2.countP (isFor id) ≤ 1 := (countP_inHand (inHand_of_mailed h₀ h ht) id).1
  have hpos := (countP_inHand (inHand_of_mailed h₀ h ht) id).2
  by_cases hcount : 0 < t.mem.2.countP (isFor id)
  · obtain ⟨r', hr', hid⟩ := List.countP_pos_iff.mp hcount
    obtain rfl : r'.invoiceId = id := by simpa [isFor] using hid
    have hbefore : x.sys.db.stamp r'.invoiceId = none := (hpos hcount).2
    have hafter := hstamps.stamped r' hr'
    simp only [stamped, hbefore, hafter, if_true, if_false]
    omega
  · have hmono := hsteady.stamps id
    unfold stamped
    split_ifs with hb ha <;> first | omega | exact absurd ‹_› (hmono hb)

/-- A stamp has its reason: the receipt was sent, or the customer has no address. -/
theorem stamp_reason (h₀ : OrdersThere d₀) (h : Mailed (Delivers env refresh s) .empty d₀ x)
    (id : Id) (hs : x.sys.db.stamp id ≠ none) :
    d₀.stamp id ≠ none ∨ (∃ e ∈ x.sent, e.1.invoiceId = id) ∨
      recipient env x.sys.db id = none := by
  induction h with
  | init => exact .inl hs
  | begin _ _ ih => exact ih hs
  | abort _ _ _ ih => exact ih hs
  | @step x t s' i hx ht hstep ih =>
    -- What was sent before stays in the list.
    have hmore : (∃ e ∈ x.sent, e.1.invoiceId = id) →
        ∃ e ∈ t.sends.map (fun v => (v, x.sys.db)) ++ x.sent, e.1.invoiceId = id := by
      rintro ⟨e, he, hid⟩
      exact ⟨e, List.mem_append_right _ he, hid⟩
    rcases mail_step ht hstep with ⟨r, hr, hdb, -⟩ | ⟨hdb, -⟩
    · -- A commit is the only step that stamps.
      obtain ⟨hthere, hsteady, hstamps⟩ := stamps_of_mailed h₀ hx ht hr
      rw [← hdb] at hsteady hstamps
      rw [hsteady.recipient_eq hthere]
      rcases hstamps.reason id hs with hbefore | ⟨r', hr', hid⟩ | hnone
      · exact (ih hbefore).imp_right fun h => h.imp_left hmore
      · -- what the session had in its outbox was sent
        obtain ⟨e, he, rfl⟩ := outbox_sent (fun _ hp => sends_delivers hp) hx i t ht r' hr'
        exact .inr (.inl (hmore ⟨e, he, hid⟩))
      · exact .inr (.inr hnone)
    · dsimp only at hs ⊢
      rw [hdb] at hs ⊢
      exact (ih hs).imp_right fun h => h.imp_left hmore

/-- A receipt is sent under the lock of its invoice, which is paid. -/
theorem sent_paid (h₀ : OrdersThere d₀) (h : Mailed (Delivers env refresh s) .empty d₀ x) :
    ∀ e ∈ x.sent, ∃ i, e.2.invoices.get? e.1.invoiceId = some i ∧ i.status = .paid := by
  induction h with
  | init => simp
  | begin _ _ ih => exact ih
  | abort _ _ _ ih => exact ih
  | @step x t s' i hx ht hstep ih =>
    intro e he
    rcases List.mem_append.mp he with he | he
    · obtain ⟨r, hr, rfl⟩ := List.mem_map.mp he
      obtain ⟨last, hrely, hthrough⟩ := proceeds_of_mailed h₀ hx ht
      obtain ⟨prog, held, pending, mem⟩ := t
      cases prog with
      | orm f k =>
        -- once it is sent, the receipt is in hand
        have hin : InHand ⟨held, pending, f mem, x.sys.db⟩ :=
          stable_inHand.rely _ x.sys.db hthrough.2.holds hrely
        obtain ⟨-, -, j, hj, hpaid, -⟩ := hin r (List.mem_of_mem_take hr)
        exact ⟨j, hj, hpaid⟩
      | _ => exact absurd hr List.not_mem_nil
    · exact ih e he

/-- In every run of passes and payments, with any sends failing and any transactions crashing: an
invoice that was stamped had its receipt accepted or its customer has no address; every receipt but
one of an invoice was sent by a transaction that was rolled back afterwards; and a receipt is only
sent for an invoice that is `PAID` in the committed state. -/
theorem receipts_sent_once (h₀ : OrdersThere d₀)
    (h : Mailed (Delivers env refresh s) .empty d₀ x) :
    (∀ id i, x.sys.db.invoices.get? id = some i → i.receiptEmailSentAt ≠ none →
      d₀.stamp id ≠ none ∨ (∃ e ∈ x.sent, e.1.invoiceId = id) ∨
        recipient env x.sys.db id = none) ∧
    (∀ id, x.sent.countP (fun e => isFor id e.1) ≤ 1 + x.lost.countP (isFor id)) ∧
    ∀ e ∈ x.sent, ∃ i, e.2.invoices.get? e.1.invoiceId = some i ∧ i.status = .paid := by
  refine ⟨fun id i hi hs => ?_, fun id => ?_, sent_paid h₀ h⟩
  · refine stamp_reason h₀ h id ?_
    rwa [Db.stamp, hi, Option.bind_some]
  · have hsent := sent_le (N := fun d => stamped d id) (fun _ hp => sends_delivers hp)
      (fun _ _ _ _ hx ht hr => stamped_commit h₀ hx ht hr id) h
    have hone := unsettled_le h₀ h id
    omega

end Runs

/-! ## A run -/

namespace Sample

open Giftly.Sample

/-- The customer has an address. -/
def addresses : Env where
  emailOf id := if id = 1 then some ['c', '@', 's'] else none
  invoicePaidTemplateKey := none

/-- The invoice of the order is paid. -/
def paid : Db := ordered (wallets 0 0 10000) (order .inProgress) (invoice .paid 10000 0)

/-- The order of the one invoice is there. -/
theorem paid_ordersThere : OrdersThere paid := by
  refine Table.forall_get?.mpr fun r hr => ?_
  obtain rfl : r = (601, invoice .paid 10000 0) := by simpa [paid, ordered] using hr
  decide

def pass : MailTx Unit := (sendReceipt addresses 60 (.ok ()) 601).void

/-- A pass that crashes after it has sent the receipt, and the next one. -/
def crashed : List (MailEvent Db Row Err Memory Receipt Unit) :=
  [.start pass, .start pass] ++ List.replicate 4 (.step 0) ++ [.crash 0] ++ List.replicate 6 (.step 1)

end Sample

/-- After a crash the receipt is sent again, and no third time. -/
theorem receipts_sent_once_crash : ∃ x, Mailed (Delivers Sample.addresses false Giftly.Sample.settings)
      .empty Sample.paid x ∧
    x.sys.db.stamp 601 = some 60 ∧ x.lost.countP (isFor 601) = 1 ∧
    x.sent.countP (fun e => isFor 601 e.1) = 2 ∧
    x.sent.countP (fun e => isFor 601 e.1) ≤ 1 + x.lost.countP (isFor 601) := by
  have hplayed : (Mail.play .empty Sample.crashed
      (⟨⟨Sample.paid, []⟩, [], []⟩ : Mail Db Row Err Memory Receipt Unit)).any (fun x =>
        x.sys.db.stamp 601 = some 60 && x.lost.countP (isFor 601) = 1 &&
          x.sent.countP (fun e => isFor 601 e.1) = 2) = true := by
    decide +kernel
  obtain ⟨x, hplay, hx⟩ := (Option.any_eq_true _ _).mp hplayed
  simp only [Bool.and_eq_true, decide_eq_true_eq] at hx
  have hrun : Mailed (Delivers Sample.addresses false Giftly.Sample.settings) .empty Sample.paid x := by
    refine .of_play .init (fun p hp => ?_) hplay
    obtain rfl : p = Sample.pass := by
      simpa [Sample.crashed, List.mem_replicate] using hp
    exact .send 60 (.ok ()) 601
  exact ⟨x, hrun, hx.1.1, hx.1.2, hx.2, (receipts_sent_once Sample.paid_ordersThere hrun).2.1 601⟩

end ReceiptService

end Giftly
