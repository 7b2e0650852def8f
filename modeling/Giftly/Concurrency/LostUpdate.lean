import Giftly.Concurrency.Operations
import Giftly.Concurrency.Rules
import Giftly.Seed

/-!
# No lost wallet update

A wallet's balance is its initial balance and all the ledger rows of the wallet, and its held
balance is the initial one and all its holds and releases. A request reads the user's wallet or the
system wallet before `lock_wallets` locks it, and the locking read returns the session's instance
with the values that were loaded; the accounts stay right as long as every wallet lock is granted
on the row that the session has loaded (`walletCurrent`).
-/

namespace Giftly

open Store
open WalletRepository MoneyService

/-- The sum of the movements of a wallet's held balance. -/
def holdSum (id : Id) (holds : List (Id × ℤ)) : ℤ :=
  (holds.map fun h => if h.1 = id then h.2 else 0).sum

/-- The movements of two lists of holds add up. -/
theorem holdSum_append (id : Id) (hs hs' : List (Id × ℤ)) :
    holdSum id (hs ++ hs') = holdSum id hs + holdSum id hs' := by
  simp [holdSum]

/-- What a wallet's balances are apart from its ledger rows and its holds. -/
def Db.base (d : Db) (id : Id) : Option (ℤ × ℤ) :=
  (d.wallets.get? id).map fun w =>
    (w.balance - ledgerSum id d.transactions, w.heldBalance - holdSum id d.holds)

/-- A wallet lock is granted on the row that the session has loaded. -/
def walletCurrent (m : Memory) (d : Db) : Row → Prop
  | .wallet id => ∀ w ∈ m.wallets id, d.wallets.get? id = some w
  | _ => True

instance (m : Memory) (d : Db) : ∀ l : Row, Decidable (walletCurrent m d l)
  | .wallet id => inferInstanceAs (Decidable (∀ w ∈ m.wallets id, d.wallets.get? id = some w))
  | .order _ | .conversation _ | .invoice _ | .item _ | .intent _ | .topup _ | .dispute _
  | .promo _ | .redemption _ | .withdrawal _ | .idempotency _ | .activeInvoice _
  | .paymentLink _ | .disputeOf _ | .conversationOf _ | .withdrawalKey _ _ => .isTrue trivial

/-- All tables that the requests write. -/
def allTables : List Tbl :=
  [.wallets, .transactions, .orders, .conversations, .invoices, .items, .intents, .topups,
    .disputes, .promos, .redemptions, .withdrawals]

/-- There is no other table. -/
theorem mem_allTables (t : Tbl) : t ∈ allTables := by
  cases t <;> decide

/-- The policy under which the accounts of wallets stay what they were at `d₀`. -/
def accountPolicy (d₀ : Db) : Policy where
  tables := allTables
  inv d := ∀ id, d.base id = d₀.base id
  cond := walletCurrent

namespace AccountProof

variable {d₀ : Db} {v : TxView} {c : Id} {refresh : Bool}

/-- Under the policy a locked wallet is the instance that the session has loaded. -/
theorem coherently : Coherently (accountPolicy d₀) refresh :=
  .inr fun _ _ _ _ hcond hw => hcond _ hw

/-- What the transaction writes to wallets, the ledger and the holds agrees. -/
def Accounted (d₀ : Db) (v : TxView) : Prop :=
  ∀ d, (accountPolicy d₀).around.rely v.held v.last d → ∀ id, (v.pending d).base id = d.base id

/-- The instances of locked wallets are current, and the accounts agree. -/
def Sound (d₀ : Db) (v : TxView) : Prop :=
  (accountPolicy d₀).Framed v ∧ Current (accountPolicy d₀) v ∧ Accounted d₀ v

/-- A transaction begins with accounts that agree. -/
theorem sound_start {m : Memory} {d : Db} : Sound d₀ (.start m d) :=
  ⟨fun d => ⟨.refl _ d, fun l _ => .refl l d⟩, fun _ h => absurd h List.not_mem_nil,
    fun _ _ _ => rfl⟩

/-! ## Everything but wallets -/

/-- The lock of a further wallet is granted on the row that the session has loaded. -/
theorem current_held {ls : List Row} (hf : (accountPolicy d₀).Framed v)
    (hc : Current (accountPolicy d₀) v)
    (hls : ∀ l ∈ ls, l ∈ v.held ∨ walletCurrent v.mem v.seen l) :
    Current (accountPolicy d₀) { v with held := ls ++ v.held } := by
  intro id hid
  by_cases hold : .wallet id ∈ v.held
  · obtain ⟨ow, hdet, hinst⟩ := hc id hold
    exact ⟨ow, fun d hd => hdet d (Policy.rely_mono hd (List.subset_append_right ls _)), hinst⟩
  · have hcond : walletCurrent v.mem v.seen (.wallet id) :=
      (hls _ ((List.mem_append.mp hid).resolve_right hold)).resolve_left hold
    -- The transaction has not written the wallet, and the lock keeps its row.
    have hsame : ∀ d : Db, (v.pending d).wallets.get? id = d.wallets.get? id :=
      fun d => (hf d).2 (.wallet id) hold
    refine ⟨v.last.wallets.get? id, fun d hd => ?_, fun w hw => ?_⟩
    · rw [hsame]
      exact Policy.rely_wallet hd hid
    · rw [← hsame]
      exact hcond w hw

/-- Accounts that agree do so while other requests run. -/
theorem stable_sound : Stable (accountPolicy d₀).around (Sound d₀) where
  rely v d hv hd := by
    refine ⟨hv.1, hv.2.1.later (.step [] hd) rfl fun _ _ => rfl, fun d' hd' => ?_⟩
    exact hv.2.2 d' (Policy.rely_trans hd hd')
  held v ls hv hls := by
    refine ⟨Policy.robust_framed.held v ls hv.1, current_held hv.1 hv.2.1 hls, fun d hd => ?_⟩
    exact hv.2.2 d (Policy.rely_mono hd (List.subset_append_right ls _))

/-- A change of the session that leaves the wallets. -/
def LeavesWallets (f : Memory → Memory) : Prop := ∀ m, (f m).wallets = m.wallets

/-- A function that writes neither wallets nor the ledger keeps the accounts. -/
theorem keeps_of_writes {α : Type} {ts : List Tbl} {p : Tx α} (hp : WritesTo ts p LeavesWallets)
    (hw : .wallets ∉ ts) (ht : .transactions ∉ ts) :
    Keeps (accountPolicy d₀).around (Sound d₀) p := by
  refine .of_writes stable_sound (fun v ls f hf hv hls => ?_) (fun v f hf hv => ?_) hp
  · have hsame : ∀ d, (f (v.pending d)).wallets = (v.pending d).wallets ∧
        (f (v.pending d)).holds = (v.pending d).holds := fun d => (hf (v.pending d)).1.same .wallets hw
    have hrows : ∀ d, (f (v.pending d)).transactions = (v.pending d).transactions :=
      fun d => (hf (v.pending d)).1.transactions_eq ht
    have hheld := stable_sound.held v ls hv hls
    refine ⟨?_, fun id hid => ?_, fun d hd id => ?_⟩
    · exact Policy.robust_framed.patch v ls f (hf.mono fun t _ => mem_allTables t) hv.1
    · obtain ⟨ow, hdet, hinst⟩ := hheld.2.1 id hid
      refine ⟨ow, fun d hd => ?_, hinst⟩
      simp only [Function.comp_apply, hsame]
      exact hdet d hd
    · have := hheld.2.2 d hd id
      unfold Db.base at this ⊢
      simp only [Function.comp_apply, hsame, hrows]
      exact this
  · refine ⟨hv.1, fun id hid => ?_, hv.2.2⟩
    obtain ⟨ow, hdet, hinst⟩ := hv.2.1 id hid
    exact ⟨ow, hdet, fun w hw => hinst w (by rw [← hf v.mem]; exact hw)⟩

/-- What is known once the wallets were written: the accounts agree. -/
def Settled (d₀ : Db) (v : TxView) : Prop := (accountPolicy d₀).Framed v ∧ Accounted d₀ v

/-- The tables other than the wallets and the ledger. -/
def others : List Tbl :=
  [.orders, .conversations, .invoices, .items, .intents, .topups, .disputes, .promos,
    .redemptions, .withdrawals]

/-- What wallets and ledger leave of a balance does not depend on other tables. -/
theorem base_of_evolves {x y : Db} {ts : List Tbl} (h : x.Evolves ts y) (hw : .wallets ∉ ts)
    (ht : .transactions ∉ ts) (id : Id) : y.base id = x.base id := by
  obtain ⟨hwallets, hholds⟩ := h.same .wallets hw
  rw [Db.base, Db.base, hwallets, hholds, h.transactions_eq ht]

/-- Writes to other tables leave the accounts as they are. -/
theorem robust_settled : Robust (accountPolicy d₀) others (Settled d₀) :=
  (Policy.robust_framed.mono fun t _ => mem_allTables t).and
    (.ofReach (B := fun d x => ∀ id, x.base id = d.base id) fun _ _ _ hxy hx id =>
      (base_of_evolves hxy (by decide) (by decide) id).trans (hx id))

/-- A transaction whose accounts agree may commit. -/
theorem safe_of_settled (h : Settled d₀ v) : (accountPolicy d₀).Safe v := fun d hd =>
  ⟨fun id => (h.2 d hd id).trans (hd.1 id), trivial, trivial, fun _ _ => trivial⟩

/-- What is known before the wallets are written is known afterwards. -/
theorem Sound.settled (h : Sound d₀ v) : Settled d₀ v := ⟨h.1, h.2.2⟩

/-- Accounts that agree do so at a later view. -/
theorem Settled.later {v₁ : TxView} (h : Settled d₀ v) (hl : Later (accountPolicy d₀) v v₁) :
    Settled d₀ v₁ := robust_settled.later h hl

/-- Further locks and another session memory leave the accounts. -/
theorem Settled.mono {held : List Row} {m : Memory} (h : Settled d₀ v) (hs : v.held ⊆ held) :
    Settled d₀ ⟨held, v.pending, m, v.last⟩ :=
  ⟨fun d => ⟨(h.1 d).1, fun l hl => (h.1 d).2 l fun hl' => hl (hs hl')⟩,
    fun d hd => h.2 d (Policy.rely_mono hd hs)⟩

/-- Accounts that agree do so at a later view with current instances. -/
theorem Sound.later {v₁ : TxView} (h : Sound d₀ v) (hl : Later (accountPolicy d₀) v v₁)
    (hc : Current (accountPolicy d₀) v₁) : Sound d₀ v₁ :=
  ⟨(h.settled.later hl).1, hc, (h.settled.later hl).2⟩

/-! ## Wallets -/

/-- `get_by_user` writes nothing. -/
theorem keeps_getByUser {u : Id} : Keeps (accountPolicy d₀).around (Sound d₀) (getByUser u) :=
  fun v hv => wp_getByUser (fun d hd => stable_sound.rely v d hv hd) fun _ _ _ hf =>
    hv.later hf.later (hf.current hv.2.1)

/-- `available_balance` writes nothing. -/
theorem keeps_availableBalance {u : Id} :
    Keeps (accountPolicy d₀).around (Sound d₀) (availableBalance u) := by
  refine keeps_getByUser.bind fun x => ?_
  split
  · exact .ret 0
  · exact .ofExcept _

/-- A booking moves the balances by its ledger rows. -/
theorem sound_of_booking {legs : List Leg} {v₁ : TxView} {loaded assigned : Id → Option Wallet}
    {rows : List Transaction} {d : Db} (hv : Sound d₀ v)
    (hb : Booking (accountPolicy d₀) refresh c legs v v₁ loaded assigned rows d) :
    Sound d₀ (booked legs v v₁ loaded assigned rows d) := by
  refine ⟨hb.framed (mem_allTables _) (mem_allTables _) hv.1,
    hb.current coherently hv.1 hv.2.1, fun d' hd' id => ?_⟩
  rw [← hv.2.2 d' (hb.reach_start hd') id]
  simp only [booked, Function.comp_apply]
  -- A wallet of the legs moves by their amounts, any other has no new row.
  by_cases hid : id ∈ walletIds legs
  · obtain ⟨w, -, hrow⟩ := hb.row coherently hv.1 hv.2.1 hid
    obtain ⟨hbefore, hafter⟩ := hrow d' (hb.reach hd')
    rw [Db.base, Db.base, hbefore, hafter, Option.map_some, Option.map_some]
    simp only [Db.post, ledgerSum_append, creditRows, Wallet.credit]
    congr 2
    omega
  · have hzero : ledgerSum id rows = 0 := by
      refine ledgerSum_eq_zero fun t ht heq => hid ?_
      rw [← rows_walletId hb.applied.rows]
      exact List.mem_map.mpr ⟨t, ht, heq⟩
    rw [Db.base, Db.base, hb.row_outside hid]
    simp only [Db.post, ledgerSum_append, hzero, add_zero]

/-- A posting changes balances by what its rows say, since each instance is the locked row. -/
theorem sound_of_booked {legs : List Leg} {v₀ v' : TxView} (hv : Sound d₀ v)
    (hb : BookedAfter (accountPolicy d₀) refresh c legs v v₀ v') : Sound d₀ v' := by
  obtain ⟨hprep, v₁, loaded, assigned, rows, d, hb, rfl⟩ := hb
  exact sound_of_booking (hv.later hprep.later (hprep.current hv.2.1)) hb

/-- The movement of a held balance is recorded. -/
theorem settled_of_holding {id : Id} {w : Wallet} {n : ℤ} {v₁ : TxView} {d : Db} (hv : Sound d₀ v)
    (hh : Holding (accountPolicy d₀) refresh id w n v v₁ d) : Settled d₀ (heldTo id w n v v₁ d) := by
  refine ⟨hh.framed (mem_allTables _) hv.1, fun d' hd' j => ?_⟩
  have hreach := hh.reach hd'
  rw [← hv.2.2 d' (hh.later.reach hreach) j]
  simp only [heldTo, Function.comp_apply]
  by_cases hj : j = id
  · subst hj
    obtain ⟨hbefore, hafter⟩ := hh.row coherently hv.1 hv.2.1 d' hreach
    rw [Db.base, Db.base, hbefore, hafter, Option.map_some, Option.map_some]
    simp only [Db.updateWallet, Wallet.setHeld, holdSum_append]
    congr 2
    rw [show holdSum j [(j, n - w.heldBalance)] = n - w.heldBalance by simp [holdSum]]
    omega
  · have hne : ¬id = j := fun h => hj h.symm
    simp only [Db.base, Db.updateWallet, Table.get?_update_ne _ _ hj, holdSum_append]
    simp [holdSum, hne]

/-! ## Money operations -/

section Operations

variable {α : Type} {Q : α → TxView → Prop}

/-- The accounts agree after `credit_topup`. -/
theorem wp_credit {u i : Id} {a : Decimal} {Q : Bool → TxView → Prop} (hv : Sound d₀ v)
    (hQ : ∀ b v', Settled d₀ v' → Q b v') :
    wp (accountPolicy d₀).around (creditTopup refresh u a i c) Q v :=
  wp_creditTopup hv.1 (fun v₁ hl _ => hQ _ v₁ (hv.settled.later hl))
    fun _ v' _ _ _ _ hb => hQ _ v' (sound_of_booked hv hb).settled

/-- The accounts agree after `release_hold`. -/
theorem wp_releaseHold_settled {u : Id} {a : Decimal} {Q : Unit → TxView → Prop}
    (hv : Sound d₀ v) (hQ : ∀ v', Settled d₀ v' → Q () v') :
    wp (accountPolicy d₀).around (releaseHold refresh u a) Q v :=
  wp_releaseHold fun _ _ _ _ _ hh => hQ _ (settled_of_holding hv hh)

/-- The accounts agree after `hold_funds`. -/
theorem wp_holdFunds_settled {u : Id} {a : Decimal} {Q : Unit → TxView → Prop}
    (hv : Sound d₀ v) (hQ : ∀ v', Settled d₀ v' → Q () v') :
    wp (accountPolicy d₀).around (holdFunds refresh u a) Q v :=
  wp_holdFunds fun _ _ _ _ _ _ hh => hQ _ (settled_of_holding hv hh)

/-- The accounts agree after `fund_escrow_for_invoice`. -/
theorem wp_fund {u i o : Id} {x : Option Id} {held : Bool} {a b : Decimal}
    {Q : Bool → TxView → Prop} (hv : Sound d₀ v) (hQ : ∀ b v', Settled d₀ v' → Q b v') :
    wp (accountPolicy d₀).around (fundEscrowForInvoice refresh u a b i o x held c) Q v :=
  wp_fundEscrow hv.1 (fun v₁ hl _ => hQ _ v₁ (hv.settled.later hl))
    fun _ v' _ _ _ _ _ _ _ _ _ _ hb => ⟨fun _ => hQ _ v' (sound_of_booked hv hb).settled,
      fun _ _ => wp_releaseHold_settled (sound_of_booked hv hb) (hQ true)⟩

/-- The accounts agree after `pay_withdrawal`. -/
theorem wp_withdrawal {k w : Id} {a : Decimal} {Q : Bool → TxView → Prop} (hv : Sound d₀ v)
    (hQ : ∀ b v', Settled d₀ v' → Q b v') :
    wp (accountPolicy d₀).around (payWithdrawal refresh k a w c) Q v :=
  wp_payWithdrawal hv.1 (fun v₁ hl _ => hQ _ v₁ (hv.settled.later hl))
    fun _ _ _ _ _ _ _ hb => wp_releaseHold_settled (sound_of_booked hv hb) (hQ true)

end Operations

/-! ## Requests -/

section Requests

variable {s : Settings} {now : Time}

/-- Statements between two money operations, or before the first. -/
theorem wp_before {α β : Type} {ts : List Tbl} {p : Tx α} {g : α → Tx β} {Q : β → TxView → Prop}
    (hp : WritesTo ts p LeavesWallets) (hw : .wallets ∉ ts) (ht : .transactions ∉ ts)
    (hv : Sound d₀ v) (hg : ∀ a v', Sound d₀ v' → wp (accountPolicy d₀).around (g a) Q v') :
    wp (accountPolicy d₀).around (p >>= g) Q v :=
  (keeps_of_writes hp hw ht).wp_bind hv hg

/-- Statements after the money operation. -/
theorem wp_after {α β : Type} {ts : List Tbl} {p : Tx α} {g : α → Tx β} {Q : β → TxView → Prop}
    (hp : WritesTo ts p) (hs : ts ⊆ others) (hv : Settled d₀ v)
    (hg : ∀ a v', Settled d₀ v' → wp (accountPolicy d₀).around (g a) Q v') :
    wp (accountPolicy d₀).around (p >>= g) Q v := robust_settled.wp_bind hp hs hv hg

/-- Once the wallets are written, the rest of a request writes other tables. -/
theorem wp_end {α : Type} {ts : List Tbl} {p : Tx α} (hp : WritesTo ts p) (hs : ts ⊆ others)
    (hv : Settled d₀ v) :
    wp (accountPolicy d₀).around p (fun _ v => Settled d₀ v) v := robust_settled.keeps hp hs v hv

/-- The gateway branch of `pay_invoice` holds the wallet's part. -/
theorem wp_startGateway {x : PaymentService.PayInput} {i u w : Id} {l : Invoice} {a b : ℤ}
    (hv : Sound d₀ v) :
    wp (accountPolicy d₀).around (PaymentService.startGateway refresh s now x i l u w a b)
      (fun _ v => Settled d₀ v) v := by
  unfold PaymentService.startGateway
  -- What follows the hold, from the update of the invoice on, writes no wallet.
  have hrest : ∀ v, Settled d₀ v → wp (accountPolicy d₀).around (do
      InvoiceRepository.flush i l { l with
        amountFromWallet := a, amountFromGateway := b
        paymentMethod := some (if 0 < a then PaymentMethod.split else .gatewayOnly) }
      let intent := PaymentRepository.newIntent u .orderInvoice b (some i)
        (PaymentService.expiry s now)
      PaymentRepository.createIntent x.intentId intent
      let items ← InvoiceRepository.listItems i
      let checkout ← PaymentService.createCheckout x.gateway x.intentId u
        (PaymentService.invoiceCheckoutItems i b items)
      PaymentRepository.attachStreampay x.intentId intent checkout.paymentLinkId
        checkout.paymentUrl
      return { invoiceId := i, status := .pending, amountFromWallet := a, amountFromGateway := b
               paymentUrl := some checkout.paymentUrl : PaymentService.PayResult })
      (fun _ v => Settled d₀ v) v := by
    intro v hv
    refine wp_after writesTo_flushInvoice (by decide) hv fun _ v hv => ?_
    refine wp_after writesTo_createIntent (by decide) hv fun _ v hv => ?_
    refine robust_settled.query_bind hv fun _ v hv _ _ => ?_
    refine wp_after writesTo_createCheckout (List.nil_subset _) hv fun _ v hv => ?_
    exact wp_after writesTo_flushIntent (by decide) hv fun _ _ h => h
  rw [wp_bind, wp_when]
  exact ⟨fun _ => wp_holdFunds_settled hv hrest, fun _ => hrest v hv.settled⟩

/-- The accounts agree after either branch of `pay_invoice`. -/
theorem wp_payInvoice {x : PaymentService.PayInput} {i u : Id} (hv : Sound d₀ v) :
    wp (accountPolicy d₀).around (PaymentService.payInvoice refresh s now x i u)
      (fun _ v => Settled d₀ v) v := by
  unfold PaymentService.payInvoice
  refine wp_before (Prog.writes_query _) List.not_mem_nil List.not_mem_nil hv fun y v hv => ?_
  split
  · trivial
  rename_i l
  have hkeep : WritesTo [] (InvoiceRepository.keep i l) LeavesWallets :=
    ⟨fun _ => rfl, fun _ => trivial⟩
  refine wp_before hkeep List.not_mem_nil List.not_mem_nil hv fun _ v hv => ?_
  refine wp_require_bind fun _ => wp_require_bind fun _ => ?_
  refine wp_before writesTo_lockOrder List.not_mem_nil List.not_mem_nil hv fun z v hv => ?_
  split
  · trivial
  refine wp_require_bind fun _ => keeps_getByUser.wp_bind hv fun _ v hv => ?_
  split
  · trivial
  refine wp_ofExcept_bind fun _ _ => keeps_availableBalance.wp_bind hv fun _ v hv => ?_
  refine wp_ofExcept_bind fun _ _ => ?_
  rw [wp_ite]
  constructor
  · -- The wallet pays all of it.
    intro _
    unfold PaymentService.payFromWallet
    rw [wp_bind]
    refine wp_fund hv fun _ v hv => ?_
    exact wp_after writesTo_settleInvoiceRecord (by decide) hv fun _ _ h => h
  · -- The rest goes through the gateway, unless an intent is already open.
    intro _
    unfold PaymentService.payThroughGateway
    refine wp_before (Prog.writes_query _) List.not_mem_nil List.not_mem_nil hv fun _ v hv => ?_
    split
    · exact hv.settled
    · exact wp_startGateway hv

/-- The accounts agree after the settlement of an intent. -/
theorem wp_settleIntent {i : Id} {p : PaymentIntent} (hv : Sound d₀ v) :
    wp (accountPolicy d₀).around (PaymentService.settleIntent refresh now c i p)
      (fun _ v => Settled d₀ v) v := by
  unfold PaymentService.settleIntent
  split
  · -- A top-up is credited to the user's wallet.
    unfold PaymentService.settleTopup
    refine keeps_getByUser.wp_bind hv fun _ v hv => ?_
    split
    · trivial
    · rw [wp_bind]
      exact wp_credit hv fun _ _ h => h
  · -- An invoice funds its escrow.
    unfold PaymentService.settleInvoice
    split
    · trivial
    refine wp_before writesTo_lockInvoice List.not_mem_nil List.not_mem_nil hv fun y v hv => ?_
    split
    · trivial
    rw [wp_ite]
    refine ⟨fun _ => hv.settled, fun _ => ?_⟩
    refine wp_before writesTo_lockOrder List.not_mem_nil List.not_mem_nil hv fun z v hv => ?_
    split
    · trivial
    refine keeps_getByUser.wp_bind hv fun _ v hv => ?_
    split
    · trivial
    · rw [wp_bind]
      exact wp_fund hv fun _ v hv => wp_end writesTo_settleInvoiceRecord (by decide) hv

/-- The accounts agree after a webhook. -/
theorem wp_handleWebhook {a b : Bool} {e : Except Err PaymentService.WebhookEvent}
    (hv : Sound d₀ v) :
    wp (accountPolicy d₀).around (PaymentService.handleWebhook refresh now a b c e)
      (fun _ v => Settled d₀ v) v := by
  refine wp_require_bind fun _ => wp_ofExcept_bind fun event _ => wp_require_bind fun _ => ?_
  unfold PaymentService.settleLocked
  refine wp_before writesTo_lockByLink List.not_mem_nil List.not_mem_nil hv fun y v hv => ?_
  split
  · trivial
  rw [wp_ite]
  refine ⟨fun _ => hv.settled, fun _ => ?_⟩
  rw [wp_ite]
  constructor
  · exact fun _ => wp_after writesTo_flushIntent (by decide) hv.settled fun _ _ h => h
  · intro _
    refine wp_ofExcept_bind fun _ _ => wp_ofExcept_bind fun _ _ => wp_require_bind fun _ => ?_
    rw [wp_bind]
    refine wp_mono (fun _ v hv => ?_) (wp_settleIntent hv)
    exact wp_after writesTo_flushIntent (by decide) hv fun _ _ h => h

/-- The accounts agree after an invoice has expired. -/
theorem wp_expireInvoice {i : Id} (hv : Sound d₀ v) :
    wp (accountPolicy d₀).around (Expiry.expireInvoice refresh now i)
      (fun _ v => Settled d₀ v) v := by
  unfold Expiry.expireInvoice
  refine wp_before writesTo_lockInvoice List.not_mem_nil List.not_mem_nil hv fun y v hv => ?_
  split
  · exact hv.settled
  rename_i l
  rw [wp_ite]
  refine ⟨fun _ => hv.settled, fun _ => ?_⟩
  refine wp_before (Prog.writes_query _) List.not_mem_nil List.not_mem_nil hv fun x v hv => ?_
  -- Only releasing the hold touches a wallet; the intent's row has none.
  have hexpire : wp (accountPolicy d₀).around (Expiry.expireIntent refresh l x)
      (fun _ v => Settled d₀ v) v := by
    unfold Expiry.expireIntent
    split
    · exact hv.settled
    rw [wp_bind, wp_when]
    refine ⟨fun _ => keeps_getByUser.wp_bind hv fun _ v hv => ?_, fun _ => ?_⟩
    · split
      · exact wp_end writesTo_flushIntent (by decide) hv.settled
      · exact wp_releaseHold_settled hv fun v hv => wp_end writesTo_flushIntent (by decide) hv
    · exact wp_end writesTo_flushIntent (by decide) hv.settled
  rw [wp_bind]
  refine wp_mono (fun _ v hv => ?_) hexpire
  -- What follows writes the promo, the invoice and the order.
  refine wp_after writesTo_release (by decide) hv fun _ v hv => ?_
  refine wp_after writesTo_flushInvoice (by decide) hv fun _ v hv => ?_
  refine wp_after writesTo_lockOrder (List.nil_subset _) hv fun z v hv => ?_
  split
  · exact hv
  · exact wp_after (Prog.writes_when _ (.bind writesTo_assertTransition fun _ =>
      writesTo_flushOrder)) (by decide) hv fun _ _ h => h

/-- The accounts agree after `release_escrow_on_completion`. -/
theorem wp_release {o i k : Id} {x : Settlement} {Q : Bool → TxView → Prop} (hv : Sound d₀ v)
    (hQ : ∀ b v', Settled d₀ v' → Q b v') :
    wp (accountPolicy d₀).around (FulfillmentService.releaseFor refresh o i k x c) Q v :=
  wp_releaseEscrow hv.1 (fun v₁ hl _ => hQ _ v₁ (hv.settled.later hl))
    fun _ v' _ _ _ _ _ _ _ _ _ _ _ _ _ hb => hQ _ v' (sound_of_booked hv hb).settled

/-- The accounts agree after a completion. -/
theorem wp_completeAndRelease {o : Id} {y : Order} (hv : Sound d₀ v) :
    wp (accountPolicy d₀).around (FulfillmentService.completeAndRelease refresh s now c o y)
      (fun _ v => Settled d₀ v) v := by
  refine wp_assertTransition_bind fun _ => ?_
  refine wp_before writesTo_paidInvoice List.not_mem_nil List.not_mem_nil hv fun x v hv => ?_
  dsimp only
  split
  · trivial
  refine keeps_getByUser.wp_bind hv fun _ v hv => ?_
  split
  · trivial
  refine wp_ofExcept_bind fun _ _ => ?_
  rw [wp_bind]
  exact wp_release hv fun _ v hv => wp_end writesTo_flushOrder (by decide) hv

/-- The accounts agree after `approve_order`. -/
theorem wp_approveOrder {o u : Id} (hv : Sound d₀ v) :
    wp (accountPolicy d₀).around (FulfillmentService.approveOrder refresh s now c o u)
      (fun _ v => Settled d₀ v) v :=
  wp_before writesTo_lockForActor List.not_mem_nil List.not_mem_nil hv
    fun _ _ hv => wp_completeAndRelease hv

/-- The accounts agree after the automatic approval. -/
theorem wp_autoApprove {o : Id} (hv : Sound d₀ v) :
    wp (accountPolicy d₀).around (FulfillmentService.autoApprove refresh s now c o)
      (fun _ v => Settled d₀ v) v := by
  refine wp_before writesTo_lockOrder List.not_mem_nil List.not_mem_nil hv fun x v hv => ?_
  split
  · exact hv.settled
  rw [wp_ite]
  refine ⟨fun _ => hv.settled, fun _ => ?_⟩
  rw [wp_bind]
  exact wp_completeAndRelease hv

/-- The accounts agree after each outcome of a dispute. -/
theorem wp_applyDisputeOutcome {o i : Id} {y : Order} {l : Invoice} {x : DisputeStatus}
    {q : Option Decimal} {Q : Order × OrderStatus → TxView → Prop} (hv : Sound d₀ v)
    (hQ : ∀ a v', Settled d₀ v' → Q a v') :
    wp (accountPolicy d₀).around
      (FulfillmentService.applyDisputeOutcome refresh s c o y i l x q) Q v := by
  unfold FulfillmentService.applyDisputeOutcome
  split
  · trivial
  refine keeps_getByUser.wp_bind hv fun _ v hv => keeps_getByUser.wp_bind hv fun _ v hv => ?_
  split
  · split
    · rw [wp_bind]
      -- Each outcome posts one group, unless its key is there already.
      exact wp_refundEscrow hv.1 (fun v₁ hl _ => hQ _ v₁ (hv.settled.later hl))
        fun _ v' _ _ _ _ _ hb => hQ _ v' (sound_of_booked hv hb).settled
    · refine wp_ofExcept_bind fun _ _ => ?_
      rw [wp_bind]
      exact wp_release hv fun _ v hv => hQ _ v hv
    · split
      · trivial
      · refine wp_ofExcept_bind fun _ _ => wp_ofExcept_bind fun _ _ => wp_require_bind fun _ => ?_
        rw [wp_bind]
        exact wp_splitEscrow hv.1 (fun v₁ hl _ => hQ _ v₁ (hv.settled.later hl))
          fun _ v' _ _ _ _ _ _ _ hb => hQ _ v' (sound_of_booked hv hb).settled
    · trivial
  · trivial

/-- The accounts agree after `resolve_dispute`. -/
theorem wp_resolveDispute {x a : Id} {y : DisputeStatus} {n : Option Text} {q : Option Decimal}
    (hv : Sound d₀ v) :
    wp (accountPolicy d₀).around (FulfillmentService.resolveDispute refresh s now c x a y n q)
      (fun _ v => Settled d₀ v) v := by
  refine wp_before writesTo_lockDispute List.not_mem_nil List.not_mem_nil hv fun z v hv => ?_
  split
  · trivial
  refine wp_require_bind fun _ => ?_
  refine wp_before writesTo_lockOrder List.not_mem_nil List.not_mem_nil hv fun o v hv => ?_
  split
  · trivial
  refine wp_before writesTo_paidInvoice List.not_mem_nil List.not_mem_nil hv fun i v hv => ?_
  rw [wp_bind]
  refine wp_applyDisputeOutcome hv fun r v hv => wp_assertTransition_bind fun _ => ?_
  refine wp_after writesTo_flushOrder (by decide) hv fun _ v hv => ?_
  exact wp_end writesTo_resolveRow (by decide) hv

/-- The accounts agree after a withdrawal was requested. -/
theorem wp_requestWithdrawal {x k : Id} {a : Decimal} {t : Text} (hv : Sound d₀ v) :
    wp (accountPolicy d₀).around (WithdrawalService.requestWithdrawal refresh s x k a t)
      (fun _ v => Settled d₀ v) v := by
  unfold WithdrawalService.requestWithdrawal
  refine wp_before (Prog.writes_query _) List.not_mem_nil List.not_mem_nil hv fun _ v hv => ?_
  split
  · exact hv.settled
  refine wp_ofExcept_bind fun _ _ => wp_require_bind fun _ => ?_
  refine keeps_getByUser.wp_bind hv fun _ v hv => ?_
  split
  · trivial
  rw [wp_bind]
  refine wp_reserveFunds fun v₁ loaded w n _ hl hw _ => ?_
  refine wp_flushRequest hl hw rfl (fun d hh => ?_) fun v₂ _ hl₂ => hv.settled.later hl₂
  refine Settled.mono (robust_settled.patch _ [.withdrawal x, .withdrawalKey k t] _
    (.mono (.insertWithdrawal (by simp) _) (by decide)) (settled_of_holding hv hh)) fun l hl => ?_
  simp only [heldTo, List.mem_append, List.mem_cons, List.not_mem_nil, or_false] at hl ⊢
  tauto

/-- The accounts agree after a withdrawal was rejected. -/
theorem wp_rejectWithdrawal {x a : Id} {r : Text} (hv : Sound d₀ v) :
    wp (accountPolicy d₀).around (WithdrawalService.reject refresh x a r)
      (fun _ v => Settled d₀ v) v := by
  refine wp_before writesTo_getLocked List.not_mem_nil List.not_mem_nil hv fun _ v hv => ?_
  rw [wp_ite]
  refine ⟨fun _ => hv.settled, fun _ => wp_require_bind fun _ => ?_⟩
  rw [wp_bind]
  exact wp_releaseHold_settled hv fun v hv => wp_end writesTo_setStatus (by decide) hv

/-- The accounts agree after a withdrawal was paid. -/
theorem wp_markPaid {x a : Id} (hv : Sound d₀ v) :
    wp (accountPolicy d₀).around (WithdrawalService.markPaid refresh c x a)
      (fun _ v => Settled d₀ v) v := by
  refine wp_before writesTo_getLocked List.not_mem_nil List.not_mem_nil hv fun _ v hv => ?_
  rw [wp_ite]
  refine ⟨fun _ => hv.settled, fun _ => wp_require_bind fun _ => ?_⟩
  rw [wp_bind]
  exact wp_withdrawal hv fun _ v hv => wp_require_bind fun _ =>
    wp_end writesTo_setStatus (by decide) hv

end Requests

end AccountProof

/-! ## Runs -/

/-- Every request follows the policy. -/
theorem AccountProof.follows {d₀ : Db} {refresh : Bool} {s : Settings} {p : Tx Unit}
    (hp : Requested refresh s (fun _ => True) p) :
    (accountPolicy d₀).discipline.Follows .empty p := by
  obtain ⟨r, -, rfl⟩ := hp
  have hsettled : ∀ d, wp (accountPolicy d₀).around (r.tx refresh s) (fun _ v => Settled d₀ v)
      (.start .empty d) := by
    intro d
    have hv : Sound d₀ (.start .empty d) := sound_start
    cases r with
    | payInvoice => exact wp_void (wp_payInvoice hv)
    | handleWebhook => exact wp_void (wp_handleWebhook hv)
    | expireInvoice => exact wp_void (wp_expireInvoice hv)
    | approveOrder => exact wp_approveOrder hv
    | autoApprove => exact wp_void (wp_autoApprove hv)
    | resolveDispute => exact wp_resolveDispute hv
    | requestWithdrawal => exact wp_void (wp_requestWithdrawal hv)
    | rejectWithdrawal => exact wp_rejectWithdrawal hv
    | markPaid => exact wp_markPaid hv
    -- These requests write neither wallets nor the ledger.
    | createOrder | acceptOrder | cancelOrder | createInvoice | cancelInvoice | createTopup
    | expireTopupIntent | submitDelivery | raiseDispute | approveWithdrawal =>
      exact wp_end (Request.writesTo refresh s _) (by simp [Request.tables, others]) hv.settled
  exact Policy.follows (r.writesTo refresh s) (fun t _ => mem_allTables t) fun d _ =>
    wp_mono (fun _ _ h => safe_of_settled h) (hsettled d)

/-- In every run of requests whose wallet locks are granted on the rows that the sessions have
loaded, every balance is the initial one and the ledger rows of the wallet since then, and every
held balance is the initial one and its holds and releases since then. -/
theorem no_wallet_update_lost (refresh : Bool) (s : Settings) (d₀ : Db)
    (sys : System Db Row Err Memory Unit)
    (hrun : System.Run (Requested refresh s fun _ => True) walletCurrent .empty d₀ sys)
    (id : Id) (w₀ w : Wallet) (hw₀ : d₀.wallets.get? id = some w₀)
    (hw : sys.db.wallets.get? id = some w) :
    w.balance = w₀.balance + (ledgerSum id sys.db.transactions - ledgerSum id d₀.transactions) ∧
    w.heldBalance = w₀.heldBalance + (holdSum id sys.db.holds - holdSum id d₀.holds) := by
  have hinv : ∀ id, sys.db.base id = d₀.base id := Discipline.inv_of_run
    (S := (accountPolicy d₀).discipline) (fun p hp => AccountProof.follows hp) (fun _ => rfl) hrun
  have h := hinv id
  rw [Db.base, Db.base, hw, hw₀, Option.map_some, Option.map_some, Option.some.injEq,
    Prod.mk.injEq] at h
  omega

/-- Two top-ups of the customer that the gateway has not confirmed yet. -/
def Sample.twoTopups : Db :=
  { accounts (wallets 0 0 0) with
    intents := ⟨[(301, intent .walletTopup 10000 .new none 801),
      (302, intent .walletTopup 10000 .new none 802)], by simp⟩ }

/-- The gateway's event that a payment of 100.00 was made. -/
def Sample.confirmed (link correlationId : Id) : Tx Unit :=
  Request.tx false settings (.handleWebhook 0 true true correlationId
    (.ok ⟨link, ['P', 'A', 'I', 'D'], some 10000⟩))

/-- The webhook is one of the requests. -/
theorem Sample.requested_confirmed (link c : Id) :
    Requested false settings (fun _ => True) (confirmed link c) :=
  ⟨.handleWebhook 0 true true c (.ok ⟨link, ['P', 'A', 'I', 'D'], some 10000⟩), trivial, rfl⟩

/-- Two top-ups at once. The second one reads its intent, then the first one is settled, and the second
one loads the gateway's wallet after the first has committed: both debits of 100.00 are in the balance. -/
theorem no_wallet_update_lost_topup :
    ∃ sys : System Db Row Err Memory Unit,
      System.Run (Requested false Sample.settings fun _ => True) walletCurrent .empty
        Sample.twoTopups sys ∧
      ∃ w, sys.db.wallets.get? 23 = some w ∧ w.balance = -20000 ∧
        w.balance = ledgerSum 23 sys.db.transactions := by
  obtain ⟨sys, hrun, hq⟩ := System.Run.exists_of_play
    (Requested false Sample.settings fun _ => True) walletCurrent .empty Sample.twoTopups
    ([.start (Sample.confirmed 801 101), .start (Sample.confirmed 802 102), .step 1] ++
      -- The first runs to its end between the second's first step and its others.
      List.replicate 14 (.step 0) ++ List.replicate 13 (.step 1))
    (fun sys => (sys.db.wallets.get? 23).any fun w => w.balance = -20000)
    (by
      intro p hp
      simp only [List.mem_append, List.mem_cons, List.mem_replicate, System.Event.start.injEq,
        List.not_mem_nil, reduceCtorEq, and_false, or_false] at hp
      rcases hp with rfl | rfl
      · exact Sample.requested_confirmed 801 101
      · exact Sample.requested_confirmed 802 102)
    (by decide +kernel)
  simp only [decide_eq_true_eq, Option.any_eq_true] at hq
  obtain ⟨w, hw, hb⟩ := hq
  have h := no_wallet_update_lost false Sample.settings Sample.twoTopups sys hrun 23
    ⟨none, .systemGateway, 0, 0, 0⟩ w rfl hw
  refine ⟨sys, hrun, w, hw, hb, ?_⟩
  simpa [Sample.twoTopups, Sample.accounts] using h.1

/-- Two top-ups load the gateway's wallet before either of them locks it. The second one is granted
the lock after the first has committed, and writes the balance that it computes from the loaded one:
two debits of 100.00 are in the ledger, and one in the balance. -/
theorem concurrent_topups_lose_update :
    ∃ sys : System Db Row Err Memory Unit,
      System.Run (Requested false Sample.settings fun _ => True) (System.always Db Row Memory) .empty
        Sample.twoTopups sys ∧
      ∃ w, sys.db.wallets.get? 23 = some w ∧ w.balance = -10000 ∧
        ledgerSum 23 sys.db.transactions = -20000 := by
  obtain ⟨sys, hrun, hq⟩ := System.Run.exists_of_play
    (Requested false Sample.settings fun _ => True) (System.always Db Row Memory) .empty
    Sample.twoTopups
    ([.start (Sample.confirmed 801 101), .start (Sample.confirmed 802 102)] ++
      -- The second goes on until it has loaded the wallet, and waits there.
      List.replicate 6 (.step 1) ++ List.replicate 14 (.step 0) ++ List.replicate 8 (.step 1))
    (fun sys => (sys.db.wallets.get? 23).any fun w =>
      w.balance = -10000 && ledgerSum 23 sys.db.transactions = -20000)
    (by
      intro p hp
      simp only [List.mem_append, List.mem_cons, List.mem_replicate, System.Event.start.injEq,
        List.not_mem_nil, reduceCtorEq, and_false, or_false] at hp
      rcases hp with rfl | rfl
      · exact Sample.requested_confirmed 801 101
      · exact Sample.requested_confirmed 802 102)
    (by decide +kernel)
  simp only [Bool.and_eq_true, decide_eq_true_eq, Option.any_eq_true] at hq
  obtain ⟨w, hw, hb, hl⟩ := hq
  exact ⟨sys, hrun, w, hw, hb, hl⟩

end Giftly
