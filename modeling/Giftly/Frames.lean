import Giftly.Ledger.Posting
import Giftly.Requests

/-!
# What each function writes

For every function of the repositories, the services and the workers, the tables it writes. A
function leaves every other table alone, whatever it reads and whichever branch it takes, and it
never rewrites the frozen columns of a row (`Db.Evolves`).
-/

namespace Giftly

open Store (Prog)

variable {ts : List Tbl} {refresh : Bool} {s : Settings} {now : Time}
  {G : (Memory → Memory) → Prop}

/-- An insert writes its table alone, if the patch is framed by the names of the rows it locks. -/
theorem writesTo_insertRow {V : Type} {names : List Row} {get : Db → Option V} {patch : Db → Db}
    {check : Db → Option Err} (h : Framed ts names patch) :
    WritesTo ts (insertRow names get patch check) G := Prog.writes_flush _ h

/-- An update writes its table alone, if the patch is framed by the names of the rows it locks. -/
theorem writesTo_updateRow {V : Type} {names : List Row} {get : Db → Option V}
    {patch : (V → V) → Db → Db} {f : V → V} {check : Db → V → Option Err}
    (h : Framed ts names (patch f)) :
    WritesTo ts (updateRow names get patch f check) G := Prog.writes_flush _ h

/-! ## Repositories -/

/-- `OrderRepository.create` inserts an order, and loads it. -/
theorem writesTo_createOrderRow {id u : Id} {n : ℤ} :
    WritesTo [.orders] (OrderRepository.create now id u n) G :=
  .bind (writesTo_insertRow (.insertOrder (by simp) _)) fun _ => trivial

/-- A lock of an order writes nothing. -/
theorem writesTo_lockOrder {id : Id} : WritesTo ts (OrderRepository.lock id) G := fun _ => trivial

/-- A reload of an order writes nothing. -/
theorem writesTo_keepOrder {id : Id} {o : Order} : WritesTo ts (OrderRepository.keep id o) :=
  ⟨trivial, fun _ => trivial⟩

/-- A flush of an order writes nothing if no column changed, and the order row otherwise. -/
theorem writesTo_flushOrder {id : Id} {l a : Order} :
    WritesTo [.orders] (OrderRepository.flush now id l a) G := by
  unfold OrderRepository.flush
  split_ifs
  · trivial
  · exact writesTo_updateRow (.updateOrder (by simp) (l.assign_frozen a))

/-- `create_conversation` inserts into the conversations alone. -/
theorem writesTo_createConversation {id o u c : Id} :
    WritesTo [.conversations] (OrderRepository.createConversation id o u c) G :=
  writesTo_insertRow (.insertConversation (by simp) _)

/-- `DisputeRepository.create` inserts into the disputes alone. -/
theorem writesTo_createDispute {id o u : Id} {r : Text} :
    WritesTo [.disputes] (DisputeRepository.create id o u r) G :=
  .bind (writesTo_insertRow (.insertDispute (by simp) _)) fun _ => trivial

/-- A lock of a dispute writes nothing. -/
theorem writesTo_lockDispute {id : Id} : WritesTo ts (DisputeRepository.lock id) G := fun _ => trivial

/-- `DisputeRepository.resolve` updates the dispute alone. -/
theorem writesTo_resolveRow {id a : Id} {x : Dispute} {o : DisputeStatus} {n : Option Text} :
    WritesTo [.disputes] (DisputeRepository.resolve id x o a n now) G :=
  writesTo_updateRow (.updateDispute (by simp) (x.assign_frozen _))

/-- `create_draft` inserts into the invoices alone. -/
theorem writesTo_createDraft {id : Id} {i : Invoice} :
    WritesTo [.invoices] (InvoiceRepository.createDraft id i) G :=
  writesTo_insertRow (.insertInvoice (by simp) i)

/-- A flush of an invoice writes nothing if no column changed, and the invoice row otherwise. -/
theorem writesTo_flushInvoice {id : Id} {l a : Invoice} :
    WritesTo [.invoices] (InvoiceRepository.flush id l a) G := by
  unfold InvoiceRepository.flush
  split_ifs
  · trivial
  · exact writesTo_updateRow (.updateInvoice (by simp) (l.assign_frozen a))

/-- `add_item` inserts into the invoice items alone. -/
theorem writesTo_addItem {id i : Id} {l : PricingLine} :
    WritesTo [.items] (InvoiceRepository.addItem id i l) G :=
  writesTo_insertRow (.insertItem (by simp) _)

/-- A reload of an invoice writes nothing. -/
theorem writesTo_keepInvoice {id : Id} {i : Invoice} : WritesTo ts (InvoiceRepository.keep id i) :=
  ⟨trivial, fun _ => trivial⟩

/-- A lock of an invoice writes nothing. -/
theorem writesTo_lockInvoice {id : Id} : WritesTo ts (InvoiceRepository.lock id) G := fun _ => trivial

/-- The courier's lock of an invoice, which also reads the order, writes nothing. -/
theorem writesTo_lockForCourier {id c : Id} : WritesTo ts (InvoiceRepository.lockForCourier id c) G :=
  fun _ => trivial

/-- The count of uses is not one of the frozen columns of a promo. -/
theorem usedCount_frozen (n : ℤ) (p : Promo) :
    Promo.frozen { p with usedCount := p.usedCount + n } = p.frozen := rfl

/-- `_update_counter` writes the promos alone, whether its condition holds or not. -/
theorem writesTo_updateCounter {id : Id} {p : Promo → Bool} {n : ℤ} :
    WritesTo [.promos] (PromoRepository.updateCounter id p n) G := by
  intro d
  dsimp only
  split
  · trivial
  · exact .bind (writesTo_updateRow (.updatePromo (by simp) (usedCount_frozen n))) fun _ => trivial

/-- `insert_redemption` inserts into the redemptions alone. -/
theorem writesTo_insertRedemption {id p u i o : Id} {n : ℤ} :
    WritesTo [.redemptions] (PromoRepository.insertRedemption id p u i o n) G :=
  writesTo_insertRow (.insertRedemption (by simp) _)

/-- `set_redemption_status` updates the redemption alone. -/
theorem writesTo_setRedemptionStatus {id : Id} {r : PromoRedemption} {x : PromoRedemptionStatus} :
    WritesTo [.redemptions] (PromoRepository.setRedemptionStatus id r x now) G :=
  writesTo_updateRow (.updateRedemption (by simp) (r.assign_frozen _))

/-- `create_intent` inserts into the payment intents alone. -/
theorem writesTo_createIntent {id : Id} {p : PaymentIntent} :
    WritesTo [.intents] (PaymentRepository.createIntent id p) G :=
  writesTo_insertRow (.insertIntent (by simp) p)

/-- A flush of an intent writes nothing if no column changed, and the intent row otherwise. -/
theorem writesTo_flushIntent {names : List Row} {id : Id} {l a : PaymentIntent} :
    WritesTo [.intents] (PaymentRepository.flush names id l a) G := by
  unfold PaymentRepository.flush
  split_ifs
  · trivial
  · exact writesTo_updateRow (.updateIntent (by simp) (l.assign_frozen a))

/-- `PaymentRepository.create_topup` inserts into the top-ups alone. -/
theorem writesTo_createTopupRow {id : Id} {t : WalletTopup} :
    WritesTo [.topups] (PaymentRepository.createTopup id t) G :=
  writesTo_insertRow (.insertTopup (by simp) t)

/-- The lock of the intent of a payment link writes nothing. -/
theorem writesTo_lockByLink {id : Id} :
    WritesTo ts (PaymentRepository.lockIntentByPaymentLink id) G := fun _ => trivial

/-- A lock of an intent writes nothing. -/
theorem writesTo_lockIntent {id : Id} : WritesTo ts (PaymentRepository.lockIntent id) G :=
  fun _ => trivial

/-- A lock of a withdrawal writes nothing. -/
theorem writesTo_getForUpdate {id : Id} : WritesTo ts (WithdrawalRepository.getForUpdate id) G :=
  fun _ => trivial

/-- `WithdrawalRepository.set_status` updates the withdrawal alone. -/
theorem writesTo_setStatus {id a : Id} {w : Withdrawal} {x : WithdrawalStatus} {r : Option Text} :
    WritesTo [.withdrawals] (WithdrawalRepository.setStatus id w x a r) G :=
  writesTo_updateRow (.updateWithdrawal (by simp) (w.assign_frozen _))

/-! ## Wallets and the ledger -/

section Money

open WalletRepository MoneyService

/-- A wallet that is looked up by its columns is only read. -/
theorem writesTo_scalar {p : Wallet → Bool} : WritesTo ts (scalar p) := by
  refine .bind (Prog.writes_query _) fun x => ?_
  split
  · trivial
  · exact ⟨trivial, fun _ => trivial⟩

/-- `get_by_user` writes nothing. -/
theorem writesTo_getByUser {u : Id} : WritesTo ts (getByUser u) := writesTo_scalar

/-- `get_system` writes nothing. -/
theorem writesTo_getSystem {t : WalletType} : WritesTo ts (getSystem t) := by
  refine .bind writesTo_scalar fun x => ?_
  split <;> trivial

/-- A lock of one wallet writes nothing, even where it reloads the row. -/
theorem writesTo_lockWallet {id : Id} : WritesTo ts (lockWallet refresh id) := by
  intro d
  dsimp only
  split
  · trivial
  · exact ⟨trivial, fun _ => trivial⟩

/-- The locks of several wallets write nothing, by induction on the list. -/
theorem writesTo_lockEach : ∀ {ids : List Id}, WritesTo ts (lockEach refresh ids)
  | [] => trivial
  | _ :: _ => .bind writesTo_lockWallet fun _ => .bind writesTo_lockEach fun _ => trivial

/-- `lock_wallets` writes nothing. -/
theorem writesTo_lockWallets {ids : List Id} : WritesTo ts (lockWallets refresh ids) :=
  writesTo_lockEach

/-- A flush of a wallet writes the wallets alone. -/
theorem writesTo_flushWallet {id : Id} {l a : Wallet} : WritesTo [.wallets] (flushWallet id l a) := by
  refine .bind (writesTo_updateRow ?_) fun _ => ⟨trivial, fun _ => trivial⟩
  exact .updateWallet (by simp) (l.assign_frozen a) _

/-- The look for a key that exists already writes nothing, by induction on the legs. -/
theorem writesTo_anyKeyExists : ∀ {legs : List Leg}, WritesTo ts (anyKeyExists legs) G
  | [] => trivial
  | leg :: legs => by
    unfold anyKeyExists
    split
    · exact writesTo_anyKeyExists
    · refine .bind (Prog.writes_query _) fun b => ?_
      split_ifs
      · trivial
      · exact writesTo_anyKeyExists

/-- Balance, hold and sequence of a wallet are not among its frozen columns. -/
theorem written_frozen (l a : Id → Option Wallet) (id : Id) (w : Wallet) :
    (written l a id w).frozen = w.frozen := by
  unfold written
  split <;> rfl

/-- An assignment of the loaded values writes nothing. -/
theorem Wallet.assign_same (l w : Wallet) : l.assign l w = w := by
  simp [Wallet.assign, Giftly.assign]

/-- The flush of a group writes the wallets of its legs and appends its rows to the ledger. -/
theorem writesTo_flushGroup {c : Id} {legs : List Leg} {l a : Id → Option Wallet}
    {rows : List Transaction} (h : applyLegs c l legs = .ok (a, rows)) :
    WritesTo [.wallets, .transactions] (flushGroup legs l a rows) := by
  obtain ⟨hrest, hkeys⟩ := applyLegs_frame h
  refine ⟨.post (written_frozen l a) (fun id hid w => ?_) (fun key hkey => ?_),
    ⟨trivial, fun _ => trivial⟩, fun e => ?_⟩
  · have hnot : id ∉ walletIds legs := fun h' => hid (by simp [h'])
    unfold written
    rw [hrest id hnot]
    cases l id with
    | none => rfl
    | some v => exact v.assign_same w
  · rw [hkeys]
    exact fun h' => hkey (by simp [h'])
  · dsimp only
    split
    · refine ⟨trivial, fun _ => .bind writesTo_anyKeyExists fun b => ?_⟩
      split_ifs <;> trivial
    · trivial

/-- `post_group` writes wallets and ledger, on a replay neither of them. -/
theorem writesTo_postGroup {legs : List Leg} {c : Id} :
    WritesTo [.wallets, .transactions] (postGroup refresh legs c) := by
  refine .bind (Prog.writes_ofExcept _) fun _ => .bind writesTo_anyKeyExists fun b => ?_
  split_ifs
  · trivial
  · exact .bind writesTo_lockWallets fun _ => Prog.writes_ofExcept_bind fun x hx =>
      writesTo_flushGroup hx

/-- `credit_topup` writes what its group writes. -/
theorem writesTo_creditTopup {u i c : Id} {a : Decimal} :
    WritesTo [.wallets, .transactions] (creditTopup refresh u a i c) :=
  .bind writesTo_getSystem fun _ => .bind (Prog.writes_ofExcept _) fun _ =>
    .bind (Prog.writes_ofExcept _) fun _ => writesTo_postGroup

/-- `release_escrow_on_completion` writes what its group writes. -/
theorem writesTo_releaseEscrow {o i k c : Id} {p t r : Decimal} :
    WritesTo [.wallets, .transactions] (releaseEscrowOnCompletion refresh o i k p t r c) :=
  .bind (Prog.writes_ofExcept _) fun _ => .bind (Prog.writes_ofExcept _) fun _ =>
    .bind (Prog.writes_ofExcept _) fun _ => .bind (Prog.writes_ofExcept _) fun _ =>
      .bind writesTo_getSystem fun _ => .bind writesTo_getSystem fun _ =>
        .bind writesTo_getSystem fun _ => writesTo_postGroup

/-- `refund_escrow` writes what its group writes. -/
theorem writesTo_refundEscrow {o i u c : Id} {a : Decimal} :
    WritesTo [.wallets, .transactions] (refundEscrow refresh o i u a c) :=
  .bind (Prog.writes_ofExcept _) fun _ => .bind writesTo_getSystem fun _ => writesTo_postGroup

/-- `split_escrow` writes what its group writes. -/
theorem writesTo_splitEscrow {o i k u c : Id} {a b : Decimal} :
    WritesTo [.wallets, .transactions] (splitEscrow refresh o i k u a b c) :=
  .bind (Prog.writes_ofExcept _) fun _ => .bind (Prog.writes_ofExcept _) fun _ =>
    .bind (Prog.writes_ofExcept _) fun _ => .bind writesTo_getSystem fun _ => writesTo_postGroup

/-- `available_balance` writes nothing. -/
theorem writesTo_availableBalance {u : Id} : WritesTo ts (availableBalance u) := by
  refine .bind writesTo_getByUser fun x => ?_
  split
  · trivial
  · exact Prog.writes_ofExcept _

/-- `reserve_funds` locks the wallet and checks it, and writes nothing itself. -/
theorem writesTo_reserveFunds {id : Id} {a : Decimal} : WritesTo ts (reserveFunds refresh id a) := by
  refine .bind (Prog.writes_ofExcept _) fun _ => .bind writesTo_lockWallets fun x => ?_
  split
  · trivial
  · exact .bind (Prog.writes_ofExcept _) fun _ => .bind (Prog.writes_require _ _) fun _ =>
      .bind (Prog.writes_ofExcept _) fun _ => trivial

/-- `hold_funds` writes the wallets alone. -/
theorem writesTo_holdFunds {id : Id} {a : Decimal} :
    WritesTo [.wallets] (holdFunds refresh id a) :=
  .bind writesTo_reserveFunds fun _ => writesTo_flushWallet

/-- `release_hold` writes the wallets alone. -/
theorem writesTo_releaseHold {id : Id} {a : Decimal} :
    WritesTo [.wallets] (releaseHold refresh id a) := by
  refine .bind (Prog.writes_ofExcept _) fun _ => .bind writesTo_lockWallets fun x => ?_
  split
  · trivial
  · exact .bind (Prog.writes_ofExcept _) fun _ => writesTo_flushWallet

/-- `pay_withdrawal` writes its group, and then the hold of the same wallet. -/
theorem writesTo_payWithdrawal {k w c : Id} {a : Decimal} :
    WritesTo [.wallets, .transactions] (payWithdrawal refresh k a w c) :=
  .bind (Prog.writes_ofExcept _) fun _ => .bind writesTo_getSystem fun _ =>
    .bind writesTo_postGroup fun _ =>
      .bind (Prog.writes_when _ (writesTo_releaseHold.mono (by simp))) fun _ => trivial

/-- `fund_escrow_for_invoice` writes its group, and then the hold of the payer's wallet. -/
theorem writesTo_fundEscrow {u i o c : Id} {a b : Decimal} {x : Option Id} {held : Bool} :
    WritesTo [.wallets, .transactions] (fundEscrowForInvoice refresh u a b i o x held c) :=
  .bind (Prog.writes_ofExcept _) fun _ => .bind (Prog.writes_ofExcept _) fun _ =>
    .bind (Prog.writes_ofExcept _) fun _ => .bind writesTo_getSystem fun _ =>
      .bind writesTo_getSystem fun _ => .bind writesTo_postGroup fun _ =>
        .bind (Prog.writes_when _ (writesTo_releaseHold.mono (by simp))) fun _ => trivial

end Money

/-! ## Services -/

section Services

open OrderState WalletRepository MoneyService

/-- The check of a transition writes nothing. -/
theorem writesTo_assertTransition {a b : OrderStatus} : WritesTo ts (assertTransition a b) G :=
  Prog.writes_require _ _

/-- Placing an order writes the orders alone; the gate of the images is a parameter. -/
theorem writesTo_createOrder {confirm : Text → Except Err Unit} {o u : Id}
    {x : OrderService.NewOrderInput} :
    WritesTo [.orders] (OrderService.createOrder now confirm o u x) G :=
  .bind (Prog.writes_require _ _) fun _ => .bind (Prog.writes_require _ _) fun _ =>
    .bind (Prog.writes_require _ _) fun _ => .bind (Prog.writes_query _) fun _ =>
      .bind (Prog.writes_require _ _) fun _ => .bind (Prog.writes_ofExcept _) fun _ =>
        writesTo_createOrderRow

/-- An assignment writes the order and opens its conversation. -/
theorem writesTo_assignLocked {v o k : Id} :
    WritesTo [.orders, .conversations] (OrderService.assignLocked now v o k) G := by
  refine .bind writesTo_lockOrder fun x => ?_
  split
  · trivial
  · exact .bind (Prog.writes_require _ _) fun _ => .bind writesTo_assertTransition fun _ =>
      .bind (writesTo_flushOrder.mono (by simp)) fun _ =>
        .bind (writesTo_createConversation.mono (by simp)) fun _ => trivial

/-- The check of the courier writes nothing. -/
theorem writesTo_requireActiveVerifiedCourier {k : Id} :
    WritesTo ts (OrderService.requireActiveVerifiedCourier k) G :=
  .bind (Prog.writes_query _) fun _ => .bind (Prog.writes_require _ _) fun _ =>
    .bind (Prog.writes_query _) fun _ => Prog.writes_require _ _

/-- `accept_order` writes what the assignment under the lock writes. -/
theorem writesTo_acceptOrder {b : Bool} {v o k : Id} :
    WritesTo [.orders, .conversations] (OrderService.acceptOrder now b v o k) G :=
  .bind writesTo_requireActiveVerifiedCourier fun _ =>
    .bind (Prog.writes_query _) fun _ => .bind (Prog.writes_require _ _) fun _ =>
      .bind (Prog.writes_require _ _) fun _ => writesTo_assignLocked

/-- `cancel_order` writes the order alone: neither its invoice nor a redemption. -/
theorem writesTo_cancelOrder {o u : Id} {r : Option Text} :
    WritesTo [.orders] (OrderService.cancelOrder now o u r) := by
  refine .bind (Prog.writes_query _) fun x => ?_
  split
  · trivial
  · exact .bind writesTo_keepOrder fun _ => .bind writesTo_assertTransition fun _ =>
      .bind writesTo_flushOrder fun _ => trivial

/-- The choice of the promo writes nothing. -/
theorem writesTo_promoFor {u : Id} {x : InvoiceService.NewInvoiceInput} :
    WritesTo ts (InvoiceService.promoFor now u x) G := by
  unfold InvoiceService.promoFor
  split
  · trivial
  · refine .bind (Prog.writes_ofExcept _) fun _ => .bind ?_ fun _ => trivial
    refine .bind (Prog.writes_query _) fun y => ?_
    split
    · trivial
    · exact .bind (Prog.writes_require _ _) fun _ => .bind (Prog.writes_require _ _) fun _ =>
        .bind (Prog.writes_require _ _) fun _ => .bind (Prog.writes_require _ _) fun _ =>
          .bind (Prog.writes_require _ _) fun _ => .bind (Prog.writes_query _) fun _ =>
            .bind (Prog.writes_require _ _) fun _ => .bind (Prog.writes_ofExcept _) fun _ => trivial

/-- `consume` writes the redemption alone. -/
theorem writesTo_consume {i : Id} : WritesTo [.redemptions] (PromoService.consume now i) G := by
  refine .bind (Prog.writes_query _) fun x => ?_
  split
  · trivial
  · exact Prog.writes_when _ writesTo_setRedemptionStatus

/-- `release` writes the redemption and gives its slot of the promo back. -/
theorem writesTo_release {i : Id} :
    WritesTo [.promos, .redemptions] (PromoService.release now i) G := by
  refine .bind (Prog.writes_query _) fun x => ?_
  split
  · trivial
  · exact Prog.writes_when _ (.bind (writesTo_setRedemptionStatus.mono (by simp)) fun _ =>
      .bind (writesTo_updateCounter.mono (by simp)) fun _ => trivial)

/-- `reserve` takes a slot of the promo and inserts the redemption, if there is a promo. -/
theorem writesTo_reservePromo {ids : InvoiceService.NewIds} {o u : Id} {n : ℤ}
    {p : Option (Id × Promo)} :
    WritesTo [.promos, .redemptions] (InvoiceService.reservePromo now ids o u n p) G := by
  unfold InvoiceService.reservePromo
  split
  · trivial
  · exact .bind (writesTo_updateCounter.mono (by simp)) fun _ => .bind (Prog.writes_require _ _)
      fun _ => .bind (Prog.writes_query _) fun _ => .bind (Prog.writes_require _ _) fun _ =>
        writesTo_insertRedemption.mono (by simp)

/-- The loop over the lines of an invoice writes the items alone, by induction on the lines. -/
theorem writesTo_addItems {i : Id} {f : ℕ → Id} :
    ∀ {xs : List (PricingLine × ℕ)},
      WritesTo [.items] (xs.forM fun x => InvoiceRepository.addItem (f x.2) i x.1) G
  | [] => trivial
  | _ :: _ => .bind writesTo_addItem fun _ => writesTo_addItems

/-- A draft is written with its lines and its redemption. -/
theorem writesTo_writeInvoice {ids : InvoiceService.NewIds} {o k u : Id}
    {p : Option (Id × Promo)} {r : PricingResult} :
    WritesTo [.invoices, .items, .promos, .redemptions]
      (InvoiceService.writeInvoice s now ids o k u p r) G :=
  .bind (writesTo_createDraft.mono (by simp)) fun _ =>
    .bind (writesTo_addItems.mono (by simp)) fun _ =>
      .bind (writesTo_reservePromo.mono (by simp)) fun _ => writesTo_flushInvoice.mono (by simp)

/-- `create_invoice` writes the draft with all that belongs to it, and the total of the order. -/
theorem writesTo_createInvoice {ids : InvoiceService.NewIds} {o k : Id}
    {x : InvoiceService.NewInvoiceInput} :
    WritesTo [.invoices, .items, .promos, .redemptions, .orders]
      (InvoiceService.createInvoice s now ids o k x) := by
  refine .bind (Prog.writes_query _) fun y => ?_
  split
  · trivial
  · exact .bind writesTo_keepOrder fun _ => .bind writesTo_assertTransition fun _ =>
      .bind (Prog.writes_query _) fun _ => .bind (Prog.writes_require _ _) fun _ =>
        .bind (Prog.writes_ofExcept _) fun _ => .bind writesTo_promoFor fun _ =>
          .bind (Prog.writes_ofExcept _) fun _ => .bind (Prog.writes_require _ _) fun _ =>
            .bind (writesTo_writeInvoice.mono (by simp)) fun _ =>
              writesTo_flushOrder.mono (by simp)

/-- `cancel_invoice` releases the slot, reopens the order and closes the invoice. -/
theorem writesTo_cancelInvoice {i k : Id} :
    WritesTo [.promos, .redemptions, .orders, .invoices]
      (InvoiceService.cancelInvoice now i k) G := by
  refine .bind writesTo_lockForCourier fun x => ?_
  split
  · trivial
  · refine .bind (Prog.writes_require _ _) fun _ => .bind writesTo_lockOrder fun y => ?_
    split
    · trivial
    · exact .bind (writesTo_release.mono (by simp)) fun _ => .bind writesTo_assertTransition
        fun _ => .bind (writesTo_flushOrder.mono (by simp)) fun _ =>
          writesTo_flushInvoice.mono (by simp)

/-- A call of the gateway writes nothing, whatever the gateway answers. -/
theorem writesTo_createCheckout {g : PaymentService.Gateway} {i u : Id}
    {xs : List PaymentService.StreamPayItem} :
    WritesTo ts (PaymentService.createCheckout g i u xs) G :=
  .bind (Prog.writes_query _) fun _ => .bind (Prog.writes_require _ _) fun _ =>
    Prog.writes_ofExcept _

/-- `create_topup` writes the intent and the top-up that refers to it. -/
theorem writesTo_createTopup {g : PaymentService.Gateway} {i t u : Id} {a : Decimal} :
    WritesTo [.intents, .topups] (PaymentService.createTopup s now g i t u a) := by
  refine .bind (Prog.writes_ofExcept _) fun _ => .bind (Prog.writes_require _ _) fun _ =>
    .bind writesTo_getByUser fun x => ?_
  split
  · trivial
  · exact .bind (writesTo_createIntent.mono (by simp)) fun _ =>
      .bind (writesTo_createTopupRow.mono (by simp)) fun _ => .bind writesTo_createCheckout
        fun _ => .bind (writesTo_flushIntent.mono (by simp)) fun _ => trivial

/-- `settle_invoice_record` writes the order, the invoice and the redemption. -/
theorem writesTo_settleInvoiceRecord {i o : Id} {x : Invoice} {y : Order} {m : PaymentMethod}
    {a b : ℤ} : WritesTo [.orders, .invoices, .redemptions]
      (PaymentService.settleInvoiceRecord now i x o y m a b) G :=
  .bind (Prog.writes_ofExcept _) fun _ => .bind (Prog.writes_ofExcept _) fun _ =>
    .bind writesTo_assertTransition fun _ => .bind (writesTo_flushOrder.mono (by simp)) fun _ =>
      .bind (writesTo_flushInvoice.mono (by simp)) fun _ => writesTo_consume.mono (by simp)

/-- The wallet-only branch of `pay_invoice` posts its group and settles the invoice. -/
theorem writesTo_payFromWallet {x : PaymentService.PayInput} {i w : Id} {v : Invoice} {o : Order}
    {n : ℤ} : WritesTo [.wallets, .transactions, .orders, .invoices, .redemptions]
      (PaymentService.payFromWallet refresh now x i v o w n) :=
  .bind (writesTo_fundEscrow.mono (by simp)) fun _ =>
    .bind (writesTo_settleInvoiceRecord.mono (by simp)) fun _ => trivial

/-- The gateway branch, once it has a link, holds the wallet's part and stores the intent. -/
theorem writesTo_startGateway {x : PaymentService.PayInput} {i u w : Id} {v : Invoice} {a b : ℤ} :
    WritesTo [.wallets, .invoices, .intents]
      (PaymentService.startGateway refresh s now x i v u w a b) :=
  .bind (Prog.writes_when _ (writesTo_holdFunds.mono (by simp))) fun _ =>
    .bind (writesTo_flushInvoice.mono (by simp)) fun _ =>
      .bind (writesTo_createIntent.mono (by simp)) fun _ => .bind (Prog.writes_query _) fun _ =>
        .bind writesTo_createCheckout fun _ => .bind (writesTo_flushIntent.mono (by simp))
          fun _ => trivial

/-- The gateway branch writes the same tables if it first replaces an open intent. -/
theorem writesTo_payThroughGateway {x : PaymentService.PayInput} {i u w : Id} {v : Invoice}
    {a b : ℤ} : WritesTo [.wallets, .invoices, .intents]
      (PaymentService.payThroughGateway refresh s now x i v u w a b) := by
  refine .bind (Prog.writes_query _) fun y => ?_
  split
  · trivial
  · exact writesTo_startGateway

/-- `pay_invoice` writes what one of its two branches writes. -/
theorem writesTo_payInvoice {x : PaymentService.PayInput} {i u : Id} :
    WritesTo [.wallets, .transactions, .orders, .invoices, .redemptions, .intents]
      (PaymentService.payInvoice refresh s now x i u) := by
  refine .bind (Prog.writes_query _) fun v => ?_
  split
  · trivial
  · refine .bind writesTo_keepInvoice fun _ => .bind (Prog.writes_require _ _) fun _ =>
      .bind (Prog.writes_require _ _) fun _ => .bind writesTo_lockOrder fun y => ?_
    split
    · trivial
    · refine .bind (Prog.writes_require _ _) fun _ => .bind writesTo_getByUser fun z => ?_
      split
      · trivial
      · refine .bind (Prog.writes_ofExcept _) fun _ => .bind writesTo_availableBalance fun _ =>
          .bind (Prog.writes_ofExcept _) fun _ => ?_
        split_ifs
        · exact writesTo_payFromWallet.mono (by simp)
        · exact writesTo_payThroughGateway.mono (by simp)

/-- The settlement of a top-up posts a group and nothing else. -/
theorem writesTo_settleTopup {c i : Id} {p : PaymentIntent} :
    WritesTo [.wallets, .transactions] (PaymentService.settleTopup refresh c i p) := by
  refine .bind writesTo_getByUser fun x => ?_
  split
  · trivial
  · exact .bind writesTo_creditTopup fun _ => trivial

/-- The settlement of an invoice posts its group and settles the record. -/
theorem writesTo_settleInvoice {c i : Id} {p : PaymentIntent} :
    WritesTo [.wallets, .transactions, .orders, .invoices, .redemptions]
      (PaymentService.settleInvoice refresh now c i p) := by
  unfold PaymentService.settleInvoice
  split
  · trivial
  · refine .bind writesTo_lockInvoice fun x => ?_
    split
    · trivial
    · split_ifs
      · trivial
      · refine .bind writesTo_lockOrder fun y => ?_
        split
        · trivial
        · refine .bind writesTo_getByUser fun z => ?_
          split
          · trivial
          · exact .bind (writesTo_fundEscrow.mono (by simp)) fun _ =>
              writesTo_settleInvoiceRecord.mono (by simp)

/-- The settlement of an intent is the one of its purpose. -/
theorem writesTo_settleIntent {c i : Id} {p : PaymentIntent} :
    WritesTo [.wallets, .transactions, .orders, .invoices, .redemptions]
      (PaymentService.settleIntent refresh now c i p) := by
  unfold PaymentService.settleIntent
  split
  · exact writesTo_settleTopup.mono (by simp)
  · exact writesTo_settleInvoice

/-- A webhook under the intent's lock settles it or marks it failed. -/
theorem writesTo_settleLocked {c : Id} {e : PaymentService.WebhookEvent} :
    WritesTo [.wallets, .transactions, .orders, .invoices, .redemptions, .intents]
      (PaymentService.settleLocked refresh now c e) := by
  refine .bind writesTo_lockByLink fun x => ?_
  split
  · trivial
  · split_ifs
    · trivial
    · exact .bind (writesTo_flushIntent.mono (by simp)) fun _ => trivial
    · exact .bind (Prog.writes_ofExcept _) fun _ => .bind (Prog.writes_ofExcept _) fun _ =>
        .bind (Prog.writes_require _ _) fun _ => .bind (writesTo_settleIntent.mono (by simp))
          fun _ => .bind (writesTo_flushIntent.mono (by simp)) fun _ => trivial

/-- `handle_webhook` writes what it does under the lock, and nothing if it has no lock. -/
theorem writesTo_handleWebhook {a b : Bool} {c : Id}
    {e : Except Err PaymentService.WebhookEvent} :
    WritesTo [.wallets, .transactions, .orders, .invoices, .redemptions, .intents]
      (PaymentService.handleWebhook refresh now a b c e) :=
  .bind (Prog.writes_require _ _) fun _ => .bind (Prog.writes_ofExcept _) fun _ =>
    .bind (Prog.writes_require _ _) fun _ => writesTo_settleLocked

/-- The expiry of an intent returns its hold and closes it. -/
theorem writesTo_expireIntent {v : Invoice} {x : Option (Id × PaymentIntent)} :
    WritesTo [.wallets, .intents] (Expiry.expireIntent refresh v x) := by
  unfold Expiry.expireIntent
  split
  · trivial
  · refine .bind (Prog.writes_when _ ?_) fun _ => writesTo_flushIntent.mono (by simp)
    refine .bind writesTo_getByUser fun y => ?_
    split
    · trivial
    · exact writesTo_releaseHold.mono (by simp)

/-- `_expire_invoice` expires the intent, releases the slot, and reopens the order. -/
theorem writesTo_expireInvoice {i : Id} :
    WritesTo [.wallets, .intents, .promos, .redemptions, .invoices, .orders]
      (Expiry.expireInvoice refresh now i) := by
  refine .bind writesTo_lockInvoice fun x => ?_
  split
  · trivial
  · split_ifs
    · trivial
    · refine .bind (Prog.writes_query _) fun _ => .bind (writesTo_expireIntent.mono (by simp))
        fun _ => .bind (writesTo_release.mono (by simp)) fun _ =>
          .bind (writesTo_flushInvoice.mono (by simp)) fun _ => .bind writesTo_lockOrder fun y => ?_
      split
      · trivial
      · exact .bind (Prog.writes_when _ (.bind writesTo_assertTransition fun _ =>
          writesTo_flushOrder.mono (by simp))) fun _ => trivial

/-- `_expire_topup_intent` writes the intents alone. -/
theorem writesTo_expireTopupIntent {i : Id} :
    WritesTo [.intents] (Expiry.expireTopupIntent i) G := by
  refine .bind writesTo_lockIntent fun x => ?_
  split
  · trivial
  · split_ifs
    · trivial
    · exact .bind writesTo_flushIntent fun _ => trivial

/-- The lock of an order for one of its parties writes nothing. -/
theorem writesTo_lockForActor {o u : Id} : WritesTo ts (FulfillmentService.lockForActor o u) G := by
  refine .bind (Prog.writes_query _) fun _ => .bind (Prog.writes_require _ _) fun _ =>
    .bind writesTo_lockOrder fun x => ?_
  split <;> trivial

/-- `submit_delivery` writes the order alone. -/
theorem writesTo_submitDelivery {confirm : Text → Except Err Unit} {q : Option ℚ} {o k : Id}
    {keys : List Text} :
    WritesTo [.orders] (FulfillmentService.submitDelivery s now confirm q o k keys) G :=
  .bind writesTo_lockForActor fun _ => .bind writesTo_assertTransition fun _ =>
    .bind (Prog.writes_require _ _) fun _ => .bind (Prog.writes_require _ _) fun _ =>
      .bind (Prog.writes_require _ _) fun _ => .bind (Prog.writes_ofExcept _) fun _ =>
        writesTo_flushOrder

/-- The look-up of the paid invoice writes nothing. -/
theorem writesTo_paidInvoice {o : Id} : WritesTo ts (FulfillmentService.paidInvoice o) G := by
  refine .bind (Prog.writes_query _) fun x => ?_
  split <;> trivial

/-- A completion posts its group and writes the order. -/
theorem writesTo_completeAndRelease {c o : Id} {x : Order} :
    WritesTo [.wallets, .transactions, .orders]
      (FulfillmentService.completeAndRelease refresh s now c o x) := by
  refine .bind writesTo_assertTransition fun _ => .bind writesTo_paidInvoice fun y => ?_
  split
  split
  · trivial
  · refine .bind writesTo_getByUser fun z => ?_
    split
    · trivial
    · exact .bind (Prog.writes_ofExcept _) fun _ => .bind (writesTo_releaseEscrow.mono (by simp))
        fun _ => writesTo_flushOrder.mono (by simp)

/-- `approve_order` writes what the completion writes. -/
theorem writesTo_approveOrder {c o u : Id} :
    WritesTo [.wallets, .transactions, .orders]
      (FulfillmentService.approveOrder refresh s now c o u) :=
  .bind writesTo_lockForActor fun _ => writesTo_completeAndRelease

/-- The automatic approval writes what the completion writes. -/
theorem writesTo_autoApprove {c o : Id} :
    WritesTo [.wallets, .transactions, .orders]
      (FulfillmentService.autoApprove refresh s now c o) := by
  refine .bind writesTo_lockOrder fun x => ?_
  split
  · trivial
  · split_ifs
    · trivial
    · exact .bind writesTo_completeAndRelease fun _ => trivial

/-- `raise_dispute` writes the order and inserts the dispute. -/
theorem writesTo_raiseDispute {x o u : Id} {r : Text} :
    WritesTo [.orders, .disputes] (FulfillmentService.raiseDispute now x o u r) G :=
  .bind writesTo_lockForActor fun _ => .bind (Prog.writes_query _) fun _ =>
    .bind (Prog.writes_require _ _) fun _ => .bind writesTo_assertTransition fun _ =>
      .bind (writesTo_flushOrder.mono (by simp)) fun _ =>
        .bind (writesTo_createDispute.mono (by simp)) fun _ => trivial

/-- Each outcome of a dispute posts one group, and writes no other table. -/
theorem writesTo_applyDisputeOutcome {c o i : Id} {x : Order} {v : Invoice} {y : DisputeStatus}
    {a : Option Decimal} : WritesTo [.wallets, .transactions]
      (FulfillmentService.applyDisputeOutcome refresh s c o x i v y a) := by
  unfold FulfillmentService.applyDisputeOutcome
  split
  · trivial
  · refine .bind writesTo_getByUser fun z => .bind writesTo_getByUser fun z' => ?_
    split
    · split
      · exact .bind writesTo_refundEscrow fun _ => trivial
      · exact .bind (Prog.writes_ofExcept _) fun _ => .bind writesTo_releaseEscrow
          fun _ => trivial
      · split
        · trivial
        · exact .bind (Prog.writes_ofExcept _) fun _ => .bind (Prog.writes_ofExcept _) fun _ =>
            .bind (Prog.writes_require _ _) fun _ => .bind writesTo_splitEscrow fun _ => trivial
      · trivial
    · trivial

/-- `resolve_dispute` posts the group of the outcome and closes the order and the dispute. -/
theorem writesTo_resolveDispute {c x a : Id} {y : DisputeStatus} {n : Option Text}
    {q : Option Decimal} : WritesTo [.wallets, .transactions, .orders, .disputes]
      (FulfillmentService.resolveDispute refresh s now c x a y n q) := by
  refine .bind writesTo_lockDispute fun z => ?_
  split
  · trivial
  · refine .bind (Prog.writes_require _ _) fun _ => .bind writesTo_lockOrder fun z' => ?_
    split
    · trivial
    · exact .bind writesTo_paidInvoice fun _ =>
        .bind (writesTo_applyDisputeOutcome.mono (by simp)) fun _ =>
          .bind writesTo_assertTransition fun _ => .bind (writesTo_flushOrder.mono (by simp))
            fun _ => writesTo_resolveRow.mono (by simp)

/-- The flush of a request holds the amount and inserts the withdrawal. -/
theorem writesTo_flushRequest {x : Id} {w : Withdrawal} {k : Text} {l a : Wallet} :
    WritesTo [.wallets, .withdrawals] (WithdrawalService.flushRequest x w k l a) := by
  refine ⟨.comp (.mono (.insertWithdrawal (by simp) w) (by simp))
    (.mono (.updateWallet (by simp) (l.assign_frozen a) _) (by simp)),
    ⟨trivial, fun _ => trivial⟩, fun e => ?_⟩
  dsimp only
  split
  · refine ⟨trivial, fun _ => .bind (Prog.writes_query _) fun y => ?_⟩
    split <;> trivial
  · trivial

/-- `request_withdrawal` writes what its flush writes. -/
theorem writesTo_requestWithdrawal {x k : Id} {a : Decimal} {t : Text} :
    WritesTo [.wallets, .withdrawals]
      (WithdrawalService.requestWithdrawal refresh s x k a t) := by
  refine .bind (Prog.writes_query _) fun y => ?_
  split
  · trivial
  · refine .bind (Prog.writes_ofExcept _) fun _ => .bind (Prog.writes_require _ _) fun _ =>
      .bind writesTo_getByUser fun z => ?_
    split
    · trivial
    · exact .bind writesTo_reserveFunds fun _ => writesTo_flushRequest

/-- The lock of an open withdrawal writes nothing. -/
theorem writesTo_getLocked {x : Id} : WritesTo ts (WithdrawalService.getLocked x) G := by
  refine .bind writesTo_getForUpdate fun y => ?_
  split <;> trivial

/-- `approve` writes the withdrawal alone. -/
theorem writesTo_approveWithdrawal {x a : Id} :
    WritesTo [.withdrawals] (WithdrawalService.approve x a) G := by
  refine .bind writesTo_getLocked fun y => ?_
  split_ifs
  · trivial
  · exact .bind (Prog.writes_require _ _) fun _ => writesTo_setStatus

/-- `reject` returns the hold and closes the withdrawal. -/
theorem writesTo_rejectWithdrawal {x a : Id} {r : Text} :
    WritesTo [.wallets, .withdrawals] (WithdrawalService.reject refresh x a r) := by
  refine .bind writesTo_getLocked fun y => ?_
  split_ifs
  · trivial
  · exact .bind (Prog.writes_require _ _) fun _ => .bind (writesTo_releaseHold.mono (by simp))
      fun _ => writesTo_setStatus.mono (by simp)

/-- `mark_paid` posts the group, takes the hold and closes the withdrawal. -/
theorem writesTo_markPaid {c x a : Id} :
    WritesTo [.wallets, .transactions, .withdrawals]
      (WithdrawalService.markPaid refresh c x a) := by
  refine .bind writesTo_getLocked fun y => ?_
  split_ifs
  · trivial
  · exact .bind (Prog.writes_require _ _) fun _ => .bind (writesTo_payWithdrawal.mono (by simp))
      fun _ => .bind (Prog.writes_require _ _) fun _ => writesTo_setStatus.mono (by simp)

end Services

/-! ## Requests -/

/-- The tables that a request may write. -/
def Request.tables : Request → List Tbl
  | .createOrder .. | .cancelOrder .. | .submitDelivery .. => [.orders]
  | .acceptOrder .. => [.orders, .conversations]
  | .createInvoice .. => [.invoices, .items, .promos, .redemptions, .orders]
  | .cancelInvoice .. => [.promos, .redemptions, .orders, .invoices]
  | .createTopup .. => [.intents, .topups]
  | .payInvoice .. | .handleWebhook .. =>
    [.wallets, .transactions, .orders, .invoices, .redemptions, .intents]
  | .expireInvoice .. => [.wallets, .intents, .promos, .redemptions, .invoices, .orders]
  | .expireTopupIntent .. => [.intents]
  | .approveOrder .. | .autoApprove .. => [.wallets, .transactions, .orders]
  | .raiseDispute .. => [.orders, .disputes]
  | .resolveDispute .. => [.wallets, .transactions, .orders, .disputes]
  | .requestWithdrawal .. | .rejectWithdrawal .. => [.wallets, .withdrawals]
  | .approveWithdrawal .. => [.withdrawals]
  | .markPaid .. => [.wallets, .transactions, .withdrawals]

/-- A program whose result is dropped writes the same tables. -/
theorem writesTo_void {α : Type} {p : Tx α} (h : WritesTo ts p) : WritesTo ts p.void :=
  .bind h fun _ => trivial

/-- A request writes its tables only, and there only what its locks protect. -/
theorem Request.writesTo (refresh : Bool) (s : Settings) :
    ∀ r : Request, WritesTo r.tables (r.tx refresh s)
  | .createOrder .. => writesTo_void writesTo_createOrder
  | .acceptOrder .. => writesTo_void writesTo_acceptOrder
  | .cancelOrder .. => writesTo_void writesTo_cancelOrder
  | .createInvoice .. => writesTo_createInvoice
  | .cancelInvoice .. => writesTo_cancelInvoice
  | .createTopup .. => writesTo_void writesTo_createTopup
  | .payInvoice .. => writesTo_void writesTo_payInvoice
  | .handleWebhook .. => writesTo_void writesTo_handleWebhook
  | .expireInvoice .. => writesTo_void writesTo_expireInvoice
  | .expireTopupIntent .. => writesTo_void writesTo_expireTopupIntent
  | .submitDelivery .. => writesTo_submitDelivery
  | .approveOrder .. => writesTo_approveOrder
  | .autoApprove .. => writesTo_void writesTo_autoApprove
  | .raiseDispute .. => writesTo_raiseDispute
  | .resolveDispute .. => writesTo_resolveDispute
  | .requestWithdrawal .. => writesTo_void writesTo_requestWithdrawal
  | .approveWithdrawal .. => writesTo_approveWithdrawal
  | .rejectWithdrawal .. => writesTo_rejectWithdrawal
  | .markPaid .. => writesTo_markPaid

end Giftly
