import Giftly.Schema

/-!
# Statements that write rows

The writes of a flush, one row at a time: `INSERT` under the primary key and the unique indexes,
and `UPDATE` of a row that must still be there. Postgres locks the row that a statement writes, and
a statement that writes an entry of a unique index waits for another transaction that wrote the
same entry.

`Db.Evolves ts d d'` is what a statement on the tables `ts` does to the database. Whatever follows
from it holds between any two states of any run, and each repository function is proved to write in
this way once.
-/

namespace Giftly

open Store (Table Prog)

/-! ## Patches -/

namespace Db

/-- The ledger posting of a group: the wallets as the session has them, and the new rows. -/
def post (f : Id → Wallet → Wallet) (rows : List Transaction) (d : Db) : Db :=
  { d with wallets := d.wallets.mapRows f, transactions := d.transactions ++ rows }

/-- A change of one wallet, with the movement of its held balance. -/
def updateWallet (id : Id) (f : Wallet → Wallet) (moved : ℤ) (d : Db) : Db :=
  { d with wallets := d.wallets.update id f, holds := d.holds ++ [(id, moved)] }

def insertOrder (id : Id) (o : Order) (d : Db) : Db := { d with orders := d.orders.insert id o }

def updateOrder (id : Id) (f : Order → Order) (d : Db) : Db :=
  { d with orders := d.orders.update id f }

def insertConversation (id : Id) (c : Conversation) (d : Db) : Db :=
  { d with conversations := d.conversations.insert id c }

def insertInvoice (id : Id) (i : Invoice) (d : Db) : Db :=
  { d with invoices := d.invoices.insert id i }

def updateInvoice (id : Id) (f : Invoice → Invoice) (d : Db) : Db :=
  { d with invoices := d.invoices.update id f }

def insertItem (id : Id) (t : InvoiceItem) (d : Db) : Db := { d with items := d.items.insert id t }

def insertIntent (id : Id) (p : PaymentIntent) (d : Db) : Db :=
  { d with intents := d.intents.insert id p }

def updateIntent (id : Id) (f : PaymentIntent → PaymentIntent) (d : Db) : Db :=
  { d with intents := d.intents.update id f }

def insertTopup (id : Id) (t : WalletTopup) (d : Db) : Db := { d with topups := d.topups.insert id t }

def insertDispute (id : Id) (s : Dispute) (d : Db) : Db :=
  { d with disputes := d.disputes.insert id s }

def updateDispute (id : Id) (f : Dispute → Dispute) (d : Db) : Db :=
  { d with disputes := d.disputes.update id f }

def updatePromo (id : Id) (f : Promo → Promo) (d : Db) : Db :=
  { d with promos := d.promos.update id f }

def insertRedemption (id : Id) (r : PromoRedemption) (d : Db) : Db :=
  { d with redemptions := d.redemptions.insert id r }

def updateRedemption (id : Id) (f : PromoRedemption → PromoRedemption) (d : Db) : Db :=
  { d with redemptions := d.redemptions.update id f }

def insertWithdrawal (id : Id) (w : Withdrawal) (d : Db) : Db :=
  { d with withdrawals := d.withdrawals.insert id w }

def updateWithdrawal (id : Id) (f : Withdrawal → Withdrawal) (d : Db) : Db :=
  { d with withdrawals := d.withdrawals.update id f }

end Db

/-- An `INSERT`: the key must be free, and the row must meet its constraints. -/
def insertRow {V : Type} (names : List Row) (get : Db → Option V) (patch : Db → Db)
    (check : Db → Option Err) : Tx Unit :=
  .flush names patch fun d => if (get d).isSome then some (.integrity .primaryKey) else check d

/-- An `UPDATE` of one row by `f`: the row must be there, and meet its constraints afterwards. -/
def updateRow {V : Type} (names : List Row) (get : Db → Option V) (patch : (V → V) → Db → Db)
    (f : V → V) (check : Db → V → Option Err) : Tx Unit :=
  .flush names (patch f) fun d =>
    match get d with
    | none => some .staleData
    | some v => check d (f v)

/-! ## What statements leave alone -/

/-- The tables that the modelled statements write. -/
inductive Tbl
  | wallets
  | transactions
  | orders
  | conversations
  | invoices
  | items
  | intents
  | topups
  | disputes
  | promos
  | redemptions
  | withdrawals
  deriving DecidableEq

/-- Two states of the database agree on a table. -/
def Db.Same (d d' : Db) : Tbl → Prop
  | .wallets => d'.wallets = d.wallets ∧ d'.holds = d.holds
  | .transactions => d'.transactions = d.transactions
  | .orders => d'.orders = d.orders
  | .conversations => d'.conversations = d.conversations
  | .invoices => d'.invoices = d.invoices
  | .items => d'.items = d.items
  | .intents => d'.intents = d.intents
  | .topups => d'.topups = d.topups
  | .disputes => d'.disputes = d.disputes
  | .promos => d'.promos = d.promos
  | .redemptions => d'.redemptions = d.redemptions
  | .withdrawals => d'.withdrawals = d.withdrawals

/-- The owner and the type of a wallet. -/
def Wallet.frozen (w : Wallet) : Option Id × WalletType := (w.userId, w.type)

/-- The database after statements on the tables `ts`. -/
structure Db.Evolves (ts : List Tbl) (d d' : Db) : Prop where
  same : ∀ t, t ∉ ts → d.Same d' t
  users : d'.users = d.users
  couriers : d'.couriers = d.couriers
  wallets : ∀ id, (d'.wallets.get? id).map Wallet.frozen = (d.wallets.get? id).map Wallet.frozen
  transactions : d.transactions <+: d'.transactions
  orders : d.orders.Extends Order.frozen d'.orders
  conversations : d.conversations.Extends id d'.conversations
  invoices : d.invoices.Extends Invoice.frozen d'.invoices
  items : d.items.Extends id d'.items
  intents : d.intents.Extends PaymentIntent.frozen d'.intents
  topups : d.topups.Extends id d'.topups
  disputes : d.disputes.Extends Dispute.frozen d'.disputes
  promos : d.promos.Extends Promo.frozen d'.promos
  redemptions : d.redemptions.Extends PromoRedemption.frozen d'.redemptions
  withdrawals : d.withdrawals.Extends Withdrawal.frozen d'.withdrawals

namespace Db

/-- A table is the same as itself. -/
theorem Same.refl (d : Db) (t : Tbl) : d.Same d t := by
  cases t <;> simp [Same]

/-- A table that stays over two steps stays over both. -/
theorem Same.trans {d₁ d₂ d₃ : Db} {t : Tbl} (h₁ : d₁.Same d₂ t) (h₂ : d₂.Same d₃ t) :
    d₁.Same d₃ t := by
  cases t <;> simp_all [Same]

namespace Evolves

/-- Nothing happens, and no table is said to change. -/
theorem refl (ts : List Tbl) (d : Db) : d.Evolves ts d where
  same t _ := .refl d t
  users := rfl
  couriers := rfl
  wallets _ := rfl
  transactions := List.prefix_rfl
  orders := .refl
  conversations := .refl
  invoices := .refl
  items := .refl
  intents := .refl
  topups := .refl
  disputes := .refl
  promos := .refl
  redemptions := .refl
  withdrawals := .refl

/-- Two steps that write the same tables are one, and the frozen columns stay over both. -/
theorem trans {ts : List Tbl} {d₁ d₂ d₃ : Db} (h₁ : d₁.Evolves ts d₂) (h₂ : d₂.Evolves ts d₃) :
    d₁.Evolves ts d₃ where
  same t ht := (h₁.same t ht).trans (h₂.same t ht)
  users := h₂.users.trans h₁.users
  couriers := h₂.couriers.trans h₁.couriers
  wallets id := (h₂.wallets id).trans (h₁.wallets id)
  transactions := h₁.transactions.trans h₂.transactions
  orders := h₁.orders.trans h₂.orders
  conversations := h₁.conversations.trans h₂.conversations
  invoices := h₁.invoices.trans h₂.invoices
  items := h₁.items.trans h₂.items
  intents := h₁.intents.trans h₂.intents
  topups := h₁.topups.trans h₂.topups
  disputes := h₁.disputes.trans h₂.disputes
  promos := h₁.promos.trans h₂.promos
  redemptions := h₁.redemptions.trans h₂.redemptions
  withdrawals := h₁.withdrawals.trans h₂.withdrawals

/-- A step that writes some tables may be said to write more. -/
theorem mono {ts ts' : List Tbl} {d d' : Db} (h : d.Evolves ts d') (hs : ts ⊆ ts') :
    d.Evolves ts' d' :=
  { h with same := fun t ht => h.same t fun h' => ht (hs h') }

/-- The wallets stay where they are not written. -/
theorem wallets_eq {ts : List Tbl} {d d' : Db} (h : d.Evolves ts d') (ht : .wallets ∉ ts) :
    d'.wallets = d.wallets := (h.same .wallets ht).1

/-- The ledger stays where it is not written. -/
theorem transactions_eq {ts : List Tbl} {d d' : Db} (h : d.Evolves ts d')
    (ht : .transactions ∉ ts) : d'.transactions = d.transactions := h.same .transactions ht

/-- The orders stay where they are not written. -/
theorem orders_eq {ts : List Tbl} {d d' : Db} (h : d.Evolves ts d') (ht : .orders ∉ ts) :
    d'.orders = d.orders := h.same .orders ht

/-- The invoices stay where they are not written. -/
theorem invoices_eq {ts : List Tbl} {d d' : Db} (h : d.Evolves ts d') (ht : .invoices ∉ ts) :
    d'.invoices = d.invoices := h.same .invoices ht

/-- The lines stay where they are not written. -/
theorem items_eq {ts : List Tbl} {d d' : Db} (h : d.Evolves ts d') (ht : .items ∉ ts) :
    d'.items = d.items := h.same .items ht

/-- The payment intents stay where they are not written. -/
theorem intents_eq {ts : List Tbl} {d d' : Db} (h : d.Evolves ts d') (ht : .intents ∉ ts) :
    d'.intents = d.intents := h.same .intents ht

/-- A posting changes wallets, but not their frozen columns, and appends to the ledger. -/
theorem post {f : Id → Wallet → Wallet} (hf : ∀ id w, (f id w).frozen = w.frozen)
    (rows : List Transaction) (d : Db) :
    d.Evolves [.wallets, .transactions] (d.post f rows) :=
  { refl [.wallets, .transactions] d with
    same := fun t ht => by cases t <;> simp_all [Same, Db.post]
    wallets := fun id => by simp [Db.post, Function.comp_def, hf]
    transactions := List.prefix_append _ _ }

/-- An `UPDATE` of a wallet that leaves its frozen columns writes the wallets alone. -/
theorem updateWallet (id : Id) {f : Wallet → Wallet} (hf : ∀ w, (f w).frozen = w.frozen) (n : ℤ)
    (d : Db) : d.Evolves [.wallets] (d.updateWallet id f n) :=
  { refl [.wallets] d with
    same := fun t ht => by cases t <;> simp_all [Same, Db.updateWallet]
    wallets := fun j => by
      simp only [Db.updateWallet, Table.get?_update]
      split_ifs
      · simp [Function.comp_def, hf]
      · rfl }

/-- An `INSERT` of an order writes the orders alone. -/
theorem insertOrder (id : Id) (o : Order) (d : Db) : d.Evolves [.orders] (d.insertOrder id o) :=
  { refl [.orders] d with
    same := fun t ht => by cases t <;> simp_all [Same, Db.insertOrder]
    orders := .insert id o }

/-- An `UPDATE` of an order that leaves its frozen columns writes the orders alone. -/
theorem updateOrder (id : Id) {f : Order → Order} (hf : ∀ o, (f o).frozen = o.frozen) (d : Db) :
    d.Evolves [.orders] (d.updateOrder id f) :=
  { refl [.orders] d with
    same := fun t ht => by cases t <;> simp_all [Same, Db.updateOrder]
    orders := .update id hf }

/-- An `INSERT` of a conversation writes the conversations alone. -/
theorem insertConversation (id : Id) (c : Conversation) (d : Db) :
    d.Evolves [.conversations] (d.insertConversation id c) :=
  { refl [.conversations] d with
    same := fun t ht => by cases t <;> simp_all [Same, Db.insertConversation]
    conversations := .insert id c }

/-- An `INSERT` of an invoice writes the invoices alone. -/
theorem insertInvoice (id : Id) (i : Invoice) (d : Db) :
    d.Evolves [.invoices] (d.insertInvoice id i) :=
  { refl [.invoices] d with
    same := fun t ht => by cases t <;> simp_all [Same, Db.insertInvoice]
    invoices := .insert id i }

/-- An `UPDATE` of an invoice that leaves its frozen columns writes the invoices alone. -/
theorem updateInvoice (id : Id) {f : Invoice → Invoice} (hf : ∀ i, (f i).frozen = i.frozen)
    (d : Db) : d.Evolves [.invoices] (d.updateInvoice id f) :=
  { refl [.invoices] d with
    same := fun t ht => by cases t <;> simp_all [Same, Db.updateInvoice]
    invoices := .update id hf }

/-- An `INSERT` of a line writes the lines alone. -/
theorem insertItem (id : Id) (i : InvoiceItem) (d : Db) : d.Evolves [.items] (d.insertItem id i) :=
  { refl [.items] d with
    same := fun t ht => by cases t <;> simp_all [Same, Db.insertItem]
    items := .insert id i }

/-- An `INSERT` of a payment intent writes the intents alone. -/
theorem insertIntent (id : Id) (p : PaymentIntent) (d : Db) :
    d.Evolves [.intents] (d.insertIntent id p) :=
  { refl [.intents] d with
    same := fun t ht => by cases t <;> simp_all [Same, Db.insertIntent]
    intents := .insert id p }

/-- An `UPDATE` of an intent that leaves its frozen columns writes the intents alone. -/
theorem updateIntent (id : Id) {f : PaymentIntent → PaymentIntent}
    (hf : ∀ p, (f p).frozen = p.frozen) (d : Db) : d.Evolves [.intents] (d.updateIntent id f) :=
  { refl [.intents] d with
    same := fun t ht => by cases t <;> simp_all [Same, Db.updateIntent]
    intents := .update id hf }

/-- An `INSERT` of a top-up writes the top-ups alone. -/
theorem insertTopup (id : Id) (p : WalletTopup) (d : Db) : d.Evolves [.topups] (d.insertTopup id p) :=
  { refl [.topups] d with
    same := fun t ht => by cases t <;> simp_all [Same, Db.insertTopup]
    topups := .insert id p }

/-- An `INSERT` of a dispute writes the disputes alone. -/
theorem insertDispute (id : Id) (s : Dispute) (d : Db) :
    d.Evolves [.disputes] (d.insertDispute id s) :=
  { refl [.disputes] d with
    same := fun t ht => by cases t <;> simp_all [Same, Db.insertDispute]
    disputes := .insert id s }

/-- An `UPDATE` of a dispute that leaves its frozen columns writes the disputes alone. -/
theorem updateDispute (id : Id) {f : Dispute → Dispute} (hf : ∀ s, (f s).frozen = s.frozen)
    (d : Db) : d.Evolves [.disputes] (d.updateDispute id f) :=
  { refl [.disputes] d with
    same := fun t ht => by cases t <;> simp_all [Same, Db.updateDispute]
    disputes := .update id hf }

/-- An `UPDATE` of a promo that leaves its frozen columns writes the promos alone. -/
theorem updatePromo (id : Id) {f : Promo → Promo} (hf : ∀ p, (f p).frozen = p.frozen) (d : Db) :
    d.Evolves [.promos] (d.updatePromo id f) :=
  { refl [.promos] d with
    same := fun t ht => by cases t <;> simp_all [Same, Db.updatePromo]
    promos := .update id hf }

/-- An `INSERT` of a redemption writes the redemptions alone. -/
theorem insertRedemption (id : Id) (r : PromoRedemption) (d : Db) :
    d.Evolves [.redemptions] (d.insertRedemption id r) :=
  { refl [.redemptions] d with
    same := fun t ht => by cases t <;> simp_all [Same, Db.insertRedemption]
    redemptions := .insert id r }

/-- An `UPDATE` of a redemption that leaves its frozen columns writes the redemptions alone. -/
theorem updateRedemption (id : Id) {f : PromoRedemption → PromoRedemption}
    (hf : ∀ r, (f r).frozen = r.frozen) (d : Db) :
    d.Evolves [.redemptions] (d.updateRedemption id f) :=
  { refl [.redemptions] d with
    same := fun t ht => by cases t <;> simp_all [Same, Db.updateRedemption]
    redemptions := .update id hf }

/-- An `INSERT` of a withdrawal writes the withdrawals alone. -/
theorem insertWithdrawal (id : Id) (w : Withdrawal) (d : Db) :
    d.Evolves [.withdrawals] (d.insertWithdrawal id w) :=
  { refl [.withdrawals] d with
    same := fun t ht => by cases t <;> simp_all [Same, Db.insertWithdrawal]
    withdrawals := .insert id w }

/-- An `UPDATE` of a withdrawal that leaves its frozen columns writes the withdrawals alone. -/
theorem updateWithdrawal (id : Id) {f : Withdrawal → Withdrawal}
    (hf : ∀ w, (f w).frozen = w.frozen) (d : Db) :
    d.Evolves [.withdrawals] (d.updateWithdrawal id f) :=
  { refl [.withdrawals] d with
    same := fun t ht => by cases t <;> simp_all [Same, Db.updateWithdrawal]
    withdrawals := .update id hf }

end Evolves

end Db

/-! The columns that an `UPDATE` never writes. -/

/-- No session assigns a frozen column of a wallet. -/
theorem Wallet.assign_frozen (l a w : Wallet) : (l.assign a w).frozen = w.frozen := rfl

/-- No session assigns a frozen column of an order. -/
theorem Order.assign_frozen (l a o : Order) : (l.assign a o).frozen = o.frozen := rfl

/-- No session assigns a frozen column of an invoice. -/
theorem Invoice.assign_frozen (l a i : Invoice) : (l.assign a i).frozen = i.frozen := rfl

/-- No session assigns a frozen column of a payment intent. -/
theorem PaymentIntent.assign_frozen (l a p : PaymentIntent) : (l.assign a p).frozen = p.frozen := rfl

/-- No session assigns a frozen column of a dispute. -/
theorem Dispute.assign_frozen (l a s : Dispute) : (l.assign a s).frozen = s.frozen := rfl

/-- No session assigns a frozen column of a redemption. -/
theorem PromoRedemption.assign_frozen (l a r : PromoRedemption) :
    (l.assign a r).frozen = r.frozen := rfl

/-- No session assigns a frozen column of a withdrawal. -/
theorem Withdrawal.assign_frozen (l a w : Withdrawal) : (l.assign a w).frozen = w.frozen := rfl

/-! ## What locks protect -/

/-- Two states of the database agree on what a lock protects: the row, or whether an idempotency
key is in the ledger. The other index entries only make a writer wait. -/
def Row.Same (d d' : Db) : Row → Prop
  | .wallet id => d'.wallets.get? id = d.wallets.get? id
  | .order id => d'.orders.get? id = d.orders.get? id
  | .conversation id => d'.conversations.get? id = d.conversations.get? id
  | .invoice id => d'.invoices.get? id = d.invoices.get? id
  | .item id => d'.items.get? id = d.items.get? id
  | .intent id => d'.intents.get? id = d.intents.get? id
  | .topup id => d'.topups.get? id = d.topups.get? id
  | .dispute id => d'.disputes.get? id = d.disputes.get? id
  | .promo id => d'.promos.get? id = d.promos.get? id
  | .redemption id => d'.redemptions.get? id = d.redemptions.get? id
  | .withdrawal id => d'.withdrawals.get? id = d.withdrawals.get? id
  | .idempotency key => key ∈ ledgerKeys d'.transactions ↔ key ∈ ledgerKeys d.transactions
  | .activeInvoice _ | .paymentLink _ | .disputeOf _ | .conversationOf _ | .withdrawalKey _ _ => True

/-- A row is the same as itself. -/
theorem Row.Same.refl (l : Row) (d : Db) : l.Same d d := by
  cases l <;> simp [Row.Same]

/-- A row that stays over two steps stays over both. -/
theorem Row.Same.trans {l : Row} {d₁ d₂ d₃ : Db} (h₁ : l.Same d₁ d₂) (h₂ : l.Same d₂ d₃) :
    l.Same d₁ d₃ := by
  cases l <;> simp_all [Row.Same]

/-- A write under the locks `ls` that only writes the tables `ts`, and there only what the locks
protect. -/
def Framed (ts : List Tbl) (ls : List Row) (f : Db → Db) : Prop :=
  ∀ d : Db, d.Evolves ts (f d) ∧ ∀ l, l ∉ ls → l.Same d (f d)

namespace Framed

variable {ls : List Row} {id : Id}

/-- A patch that is framed by some tables is framed by more. -/
theorem mono {ts ts' : List Tbl} {f : Db → Db} (h : Framed ts ls f) (hs : ts ⊆ ts') :
    Framed ts' ls f := fun d => ⟨(h d).1.mono hs, (h d).2⟩

/-- Two framed patches, one after the other, are framed. -/
theorem comp {ts : List Tbl} {f g : Db → Db} (hg : Framed ts ls g) (hf : Framed ts ls f) :
    Framed ts ls (g ∘ f) := fun d =>
  ⟨(hf d).1.trans (hg (f d)).1, fun l hl => ((hf d).2 l hl).trans ((hg (f d)).2 l hl)⟩

/-- A posting is framed by the wallets it changes and the keys of its rows. -/
theorem post {f : Id → Wallet → Wallet} {rows : List Transaction}
    (hf : ∀ id w, (f id w).frozen = w.frozen)
    (hw : ∀ id, .wallet id ∉ ls → ∀ w, f id w = w)
    (hk : ∀ key, .idempotency key ∉ ls → key ∉ ledgerKeys rows) :
    Framed [.wallets, .transactions] ls (Db.post f rows) := by
  refine fun d => ⟨.post hf rows d, fun l hl => ?_⟩
  cases l <;> simp only [Row.Same, Db.post]
  case wallet id =>
    rw [Table.get?_mapRows]
    cases d.wallets.get? id with
    | none => rfl
    | some w => rw [Option.map_some, hw id hl]
  case idempotency key =>
    have hkey := hk key hl
    simp only [ledgerKeys, List.filterMap_append, List.mem_append] at hkey ⊢
    exact ⟨fun h => h.resolve_right hkey, .inl⟩

/-- An `UPDATE` of a wallet is framed by the lock of that wallet. -/
theorem updateWallet (hl : .wallet id ∈ ls) {f : Wallet → Wallet}
    (hf : ∀ w, (f w).frozen = w.frozen) (n : ℤ) :
    Framed [.wallets] ls (Db.updateWallet id f n) := by
  refine fun d => ⟨.updateWallet id hf n d, fun l hl' => ?_⟩
  cases l <;> simp only [Row.Same, Db.updateWallet]
  case wallet j => exact Table.get?_update_ne _ _ fun h => hl' (h ▸ hl)

/-- An `INSERT` of an order is framed by the lock of the new row. -/
theorem insertOrder (hl : .order id ∈ ls) (o : Order) :
    Framed [.orders] ls (Db.insertOrder id o) := by
  refine fun d => ⟨.insertOrder id o d, fun l hl' => ?_⟩
  cases l <;> simp only [Row.Same, Db.insertOrder]
  case order j => exact Table.get?_insert_ne _ _ fun h => hl' (h ▸ hl)

/-- An `UPDATE` of an order is framed by the lock of that order. -/
theorem updateOrder (hl : .order id ∈ ls) {f : Order → Order} (hf : ∀ o, (f o).frozen = o.frozen) :
    Framed [.orders] ls (Db.updateOrder id f) := by
  refine fun d => ⟨.updateOrder id hf d, fun l hl' => ?_⟩
  cases l <;> simp only [Row.Same, Db.updateOrder]
  case order j => exact Table.get?_update_ne _ _ fun h => hl' (h ▸ hl)

/-- An `INSERT` of a conversation is framed by the lock of the new row. -/
theorem insertConversation (hl : .conversation id ∈ ls) (c : Conversation) :
    Framed [.conversations] ls (Db.insertConversation id c) := by
  refine fun d => ⟨.insertConversation id c d, fun l hl' => ?_⟩
  cases l <;> simp only [Row.Same, Db.insertConversation]
  case conversation j => exact Table.get?_insert_ne _ _ fun h => hl' (h ▸ hl)

/-- An `INSERT` of an invoice is framed by the lock of the new row. -/
theorem insertInvoice (hl : .invoice id ∈ ls) (i : Invoice) :
    Framed [.invoices] ls (Db.insertInvoice id i) := by
  refine fun d => ⟨.insertInvoice id i d, fun l hl' => ?_⟩
  cases l <;> simp only [Row.Same, Db.insertInvoice]
  case invoice j => exact Table.get?_insert_ne _ _ fun h => hl' (h ▸ hl)

/-- An `UPDATE` of an invoice is framed by the lock of that invoice. -/
theorem updateInvoice (hl : .invoice id ∈ ls) {f : Invoice → Invoice}
    (hf : ∀ i, (f i).frozen = i.frozen) :
    Framed [.invoices] ls (Db.updateInvoice id f) := by
  refine fun d => ⟨.updateInvoice id hf d, fun l hl' => ?_⟩
  cases l <;> simp only [Row.Same, Db.updateInvoice]
  case invoice j => exact Table.get?_update_ne _ _ fun h => hl' (h ▸ hl)

/-- An `INSERT` of a line is framed by the lock of the new row. -/
theorem insertItem (hl : .item id ∈ ls) (i : InvoiceItem) :
    Framed [.items] ls (Db.insertItem id i) := by
  refine fun d => ⟨.insertItem id i d, fun l hl' => ?_⟩
  cases l <;> simp only [Row.Same, Db.insertItem]
  case item j => exact Table.get?_insert_ne _ _ fun h => hl' (h ▸ hl)

/-- An `INSERT` of a payment intent is framed by the lock of the new row. -/
theorem insertIntent (hl : .intent id ∈ ls) (p : PaymentIntent) :
    Framed [.intents] ls (Db.insertIntent id p) := by
  refine fun d => ⟨.insertIntent id p d, fun l hl' => ?_⟩
  cases l <;> simp only [Row.Same, Db.insertIntent]
  case intent j => exact Table.get?_insert_ne _ _ fun h => hl' (h ▸ hl)

/-- An `UPDATE` of a payment intent is framed by the lock of that intent. -/
theorem updateIntent (hl : .intent id ∈ ls) {f : PaymentIntent → PaymentIntent}
    (hf : ∀ p, (f p).frozen = p.frozen) :
    Framed [.intents] ls (Db.updateIntent id f) := by
  refine fun d => ⟨.updateIntent id hf d, fun l hl' => ?_⟩
  cases l <;> simp only [Row.Same, Db.updateIntent]
  case intent j => exact Table.get?_update_ne _ _ fun h => hl' (h ▸ hl)

/-- An `INSERT` of a top-up is framed by the lock of the new row. -/
theorem insertTopup (hl : .topup id ∈ ls) (t : WalletTopup) :
    Framed [.topups] ls (Db.insertTopup id t) := by
  refine fun d => ⟨.insertTopup id t d, fun l hl' => ?_⟩
  cases l <;> simp only [Row.Same, Db.insertTopup]
  case topup j => exact Table.get?_insert_ne _ _ fun h => hl' (h ▸ hl)

/-- An `INSERT` of a dispute is framed by the lock of the new row. -/
theorem insertDispute (hl : .dispute id ∈ ls) (s : Dispute) :
    Framed [.disputes] ls (Db.insertDispute id s) := by
  refine fun d => ⟨.insertDispute id s d, fun l hl' => ?_⟩
  cases l <;> simp only [Row.Same, Db.insertDispute]
  case dispute j => exact Table.get?_insert_ne _ _ fun h => hl' (h ▸ hl)

/-- An `UPDATE` of a dispute is framed by the lock of that dispute. -/
theorem updateDispute (hl : .dispute id ∈ ls) {f : Dispute → Dispute}
    (hf : ∀ s, (f s).frozen = s.frozen) :
    Framed [.disputes] ls (Db.updateDispute id f) := by
  refine fun d => ⟨.updateDispute id hf d, fun l hl' => ?_⟩
  cases l <;> simp only [Row.Same, Db.updateDispute]
  case dispute j => exact Table.get?_update_ne _ _ fun h => hl' (h ▸ hl)

/-- An `UPDATE` of a promo is framed by the lock of that promo. -/
theorem updatePromo (hl : .promo id ∈ ls) {f : Promo → Promo} (hf : ∀ p, (f p).frozen = p.frozen) :
    Framed [.promos] ls (Db.updatePromo id f) := by
  refine fun d => ⟨.updatePromo id hf d, fun l hl' => ?_⟩
  cases l <;> simp only [Row.Same, Db.updatePromo]
  case promo j => exact Table.get?_update_ne _ _ fun h => hl' (h ▸ hl)

/-- An `INSERT` of a redemption is framed by the lock of the new row. -/
theorem insertRedemption (hl : .redemption id ∈ ls) (r : PromoRedemption) :
    Framed [.redemptions] ls (Db.insertRedemption id r) := by
  refine fun d => ⟨.insertRedemption id r d, fun l hl' => ?_⟩
  cases l <;> simp only [Row.Same, Db.insertRedemption]
  case redemption j => exact Table.get?_insert_ne _ _ fun h => hl' (h ▸ hl)

/-- An `UPDATE` of a redemption is framed by the lock of that redemption. -/
theorem updateRedemption (hl : .redemption id ∈ ls) {f : PromoRedemption → PromoRedemption}
    (hf : ∀ r, (f r).frozen = r.frozen) :
    Framed [.redemptions] ls (Db.updateRedemption id f) := by
  refine fun d => ⟨.updateRedemption id hf d, fun l hl' => ?_⟩
  cases l <;> simp only [Row.Same, Db.updateRedemption]
  case redemption j => exact Table.get?_update_ne _ _ fun h => hl' (h ▸ hl)

/-- An `INSERT` of a withdrawal is framed by the lock of the new row. -/
theorem insertWithdrawal (hl : .withdrawal id ∈ ls) (w : Withdrawal) :
    Framed [.withdrawals] ls (Db.insertWithdrawal id w) := by
  refine fun d => ⟨.insertWithdrawal id w d, fun l hl' => ?_⟩
  cases l <;> simp only [Row.Same, Db.insertWithdrawal]
  case withdrawal j => exact Table.get?_insert_ne _ _ fun h => hl' (h ▸ hl)

/-- An `UPDATE` of a withdrawal is framed by the lock of that withdrawal. -/
theorem updateWithdrawal (hl : .withdrawal id ∈ ls) {f : Withdrawal → Withdrawal}
    (hf : ∀ w, (f w).frozen = w.frozen) :
    Framed [.withdrawals] ls (Db.updateWithdrawal id f) := by
  refine fun d => ⟨.updateWithdrawal id hf d, fun l hl' => ?_⟩
  cases l <;> simp only [Row.Same, Db.updateWithdrawal]
  case withdrawal j => exact Table.get?_update_ne _ _ fun h => hl' (h ▸ hl)

end Framed

/-- Every flush of a transaction only writes the tables `ts`, under the locks of what it writes,
and every change of the session memory is of the kind `G`. -/
abbrev WritesTo {α : Type} (ts : List Tbl) (p : Tx α)
    (G : (Memory → Memory) → Prop := fun _ => True) : Prop := p.Writes (Framed ts) G

variable {α β : Type} {ts ts' : List Tbl} {G : (Memory → Memory) → Prop}

/-- What two programs write, one after the other. -/
theorem WritesTo.bind {p : Tx α} {g : α → Tx β} (hp : WritesTo ts p G)
    (hg : ∀ a, WritesTo ts (g a) G) : WritesTo ts (p >>= g) G := Prog.Writes.bind hp hg

/-- A program that writes some tables may be said to write more. -/
theorem WritesTo.mono {p : Tx α} (h : WritesTo ts p G) (hs : ts ⊆ ts') : WritesTo ts' p G :=
  Prog.Writes.mono h fun _ _ hf => hf.mono hs

/-! ## Constraints that no statement can break -/

/-- The constraints of the wallets table on the columns that never change:
`chk_user_wallet_pairing`, `uq_wallets_user`, and one index for each type of system wallet. -/
structure WalletIndex (d : Db) : Prop where
  pairing : ∀ id w, d.wallets.get? id = some w →
    (w.userId.isSome = true ↔ w.type = .customer ∨ w.type = .courier)
  user : ∀ id id' w w' u, d.wallets.get? id = some w → d.wallets.get? id' = some w' →
    w.userId = some u → w'.userId = some u → id = id'
  system : ∀ id id' w w', d.wallets.get? id = some w → d.wallets.get? id' = some w' →
    w.userId = none → w'.userId = none → w.type = w'.type → id = id'

/-- The constraints, as a check of all pairs of rows. -/
theorem WalletIndex.of_rows {d : Db} (h : ∀ r ∈ d.wallets.rows, ∀ r' ∈ d.wallets.rows,
    (r.2.userId.isSome = true ↔ r.2.type = .customer ∨ r.2.type = .courier) ∧
      (r.2.userId = r'.2.userId → r.2.userId.isSome = true ∨ r.2.type = r'.2.type → r.1 = r'.1)) :
    WalletIndex d where
  pairing id w hw := (h _ (Table.get?_eq_some.mp hw) _ (Table.get?_eq_some.mp hw)).1
  user id id' w w' u hw hw' hu hu' :=
    (h _ (Table.get?_eq_some.mp hw) _ (Table.get?_eq_some.mp hw')).2 (hu.trans hu'.symm)
      (.inl (by rw [hu]; rfl))
  system id id' w w' hw hw' hu hu' ht :=
    (h _ (Table.get?_eq_some.mp hw) _ (Table.get?_eq_some.mp hw')).2 (hu.trans hu'.symm) (.inr ht)

/-- No statement changes these columns. -/
theorem WalletIndex.evolves {ts : List Tbl} {d d' : Db} (h : WalletIndex d) (hev : d.Evolves ts d') :
    WalletIndex d' := by
  -- Every row was there before, with the same owner and type.
  have hback : ∀ id w', d'.wallets.get? id = some w' →
      ∃ w, d.wallets.get? id = some w ∧ w.userId = w'.userId ∧ w.type = w'.type := by
    intro id w' hw'
    have hk := hev.wallets id
    rw [hw', Option.map_some] at hk
    obtain ⟨w, hw, hf⟩ := Option.map_eq_some_iff.mp hk.symm
    simp only [Wallet.frozen, Prod.mk.injEq] at hf
    exact ⟨w, hw, hf.1, hf.2⟩
  refine ⟨fun id w' hw' => ?_, fun id id' w₁ w₂ u h₁ h₂ => ?_, fun id id' w₁ w₂ h₁ h₂ => ?_⟩
  · obtain ⟨w, hw, hu, ht⟩ := hback id w' hw'
    rw [← hu, ← ht]
    exact h.pairing id w hw
  · obtain ⟨x₁, hx₁, hu₁, -⟩ := hback id w₁ h₁
    obtain ⟨x₂, hx₂, hu₂, -⟩ := hback id' w₂ h₂
    rw [← hu₁, ← hu₂]
    exact h.user id id' x₁ x₂ u hx₁ hx₂
  · obtain ⟨x₁, hx₁, hu₁, ht₁⟩ := hback id w₁ h₁
    obtain ⟨x₂, hx₂, hu₂, ht₂⟩ := hback id' w₂ h₂
    rw [← hu₁, ← hu₂, ← ht₁, ← ht₂]
    exact h.system id id' x₁ x₂ hx₁ hx₂

end Giftly
