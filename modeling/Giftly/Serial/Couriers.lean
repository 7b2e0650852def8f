import Giftly.Serial.Closings
import Giftly.Serial.Holds

/-!
# The wallets of couriers over serial runs

Nothing but a payout takes money from the wallet of a courier or holds it there: the requests about
orders, invoices and payments only credit such a wallet, with the courier's part of an escrow or with
a top-up. The payer of an invoice is a customer, as the route demands. A payout is not negative,
because the constraint on the order's `courier_payout_amount` is checked after the group.
-/

namespace Giftly

open Store OrderState
open WalletRepository MoneyService

namespace Books

/-- A wallet is a courier's. -/
def OfCourier (b : Books) (id : Id) : Prop :=
  ∃ w u v, b.wallets.get? id = some w ∧ w.userId = some u ∧ b.users.get? u = some v ∧
    v.role = .courier

/-- Nothing was taken from the wallet of a courier or held there, and nothing was posted for a
withdrawal. -/
structure Spares (b b' : Books) : Prop where
  wallets : ∀ id w, b.OfCourier id → b.wallets.get? id = some w →
    ∃ w', b'.wallets.get? id = some w' ∧ w'.heldBalance = w.heldBalance ∧ w.balance ≤ w'.balance
  rows : ∃ ts, b'.transactions = b.transactions ++ ts ∧ (∀ id, .paid id ∉ ledgerKeys ts) ∧
    ∀ t ∈ ts, b.OfCourier t.walletId → 0 ≤ t.amount
  keys : (ledgerKeys b.transactions).Nodup → (ledgerKeys b'.transactions).Nodup

/-- The balances fit their column. -/
def Fits (b : Books) : Prop := ∀ id w, b.wallets.get? id = some w → fitsMoney w.balance = true

section Parts

variable {b b' b₁ : Books} {c wid : Id} {legs : List Leg} {n : ℤ}

/-- A system wallet is nobody's. -/
theorem IsSystem.not_ofCourier {t : WalletType} {g : Id} (h : b.IsSystem t g) : ¬b.OfCourier g := by
  rintro ⟨w, u, v, hw, hu, -, -⟩
  exact h.ne_user hw hu rfl

/-- The wallet of a customer is not a courier's. -/
theorem not_ofCourier {u : Id} {w : Wallet} {v : User} (hw : b.walletOf u = some (wid, w))
    (hv : b.users.get? u = some v) (hrole : v.role = .customer) : ¬b.OfCourier wid := by
  rintro ⟨w', u', v', hw', hu', hv', hrole'⟩
  obtain ⟨hrow, howner⟩ := Table.find?_eq_some hw
  obtain rfl : w = w' := Option.some.inj (hrow.symm.trans hw')
  have huser : w.userId = some u := by simpa using howner
  obtain rfl : u = u' := Option.some.inj (huser.symm.trans hu')
  obtain rfl : v = v' := Option.some.inj (hv.symm.trans hv')
  rw [hrole] at hrole'
  cases hrole'

/-- Nothing is taken where wallets and ledger stay. -/
theorem Spares.of_eq (hw : b'.wallets = b.wallets) (ht : b'.transactions = b.transactions) :
    b.Spares b' where
  wallets id w _ hget := ⟨w, hw ▸ hget, rfl, le_refl _⟩
  rows := ⟨[], by rw [ht, List.append_nil], by simp [ledgerKeys], by simp⟩
  keys h := by rwa [ht]

/-- The tables that a change leaves alone do not matter. -/
theorem Spares.congr (h : b.Spares b₁) (hw : b'.wallets = b₁.wallets)
    (ht : b'.transactions = b₁.transactions) : b.Spares b' where
  wallets id w hid hget := by
    rw [hw]
    exact h.wallets id w hid hget
  rows := by
    rw [ht]
    exact h.rows
  keys := by
    rw [ht]
    exact h.keys

/-- A hold on the wallet of somebody else. -/
theorem Spares.setHeld (h : b.Spares b₁) (hnot : ¬b.OfCourier wid) :
    b.Spares (b₁.setHeld wid n) where
  wallets id w hid hget := by
    have hne : id ≠ wid := by
      rintro rfl
      exact hnot hid
    obtain ⟨w', hw', hheld, hle⟩ := h.wallets id w hid hget
    refine ⟨w', ?_, hheld, hle⟩
    simp only [Books.setHeld, Table.get?_update_ne _ _ hne, hw']
  rows := h.rows
  keys := h.keys

/-- A group whose legs on the wallets of couriers are credits. -/
theorem Spares.of_posts (h : Posts c legs b b') {key : IdempotencyKey}
    (hlegs : ∀ leg ∈ legs, b.OfCourier leg.walletId → 0 ≤ leg.amount.coeff)
    (hkey : legKeys legs = [key]) (hnot : ∀ id, key ≠ .paid id) : b.Spares b' where
  -- No leg takes from a courier's wallet.
  wallets id w hid hget := by
    have hsome : (b'.wallets.get? id).isSome = true := by
      obtain ⟨ts, -, rfl, -⟩ := h
      simp [Table.get?_mapRows, hget]
    obtain ⟨w', hw'⟩ := Option.isSome_iff_exists.mp hsome
    obtain ⟨v, hv, -, hheld, hbalance⟩ := h.wallet hw'
    obtain rfl : w = v := Option.some.inj (hget.symm.trans hv)
    have hsum : 0 ≤ (legs.map fun l => if l.walletId = id then l.amount.coeff else 0).sum := by
      apply List.sum_nonneg
      intro x hx
      obtain ⟨leg, hleg, rfl⟩ := List.mem_map.mp hx
      split_ifs with heq
      · exact hlegs leg hleg (heq ▸ hid)
      · exact le_refl 0
    exact ⟨w', hw', hheld, by omega⟩
  -- The group has one key, which is no withdrawal's.
  rows := by
    obtain ⟨ts, hrows, rfl, -⟩ := h
    refine ⟨ts, rfl, ?_, ?_⟩
    · intro id
      rw [rows_keys hrows, hkey, List.mem_singleton]
      exact (hnot id).symm
    · intro t ht hid
      obtain ⟨leg, hleg, hrow⟩ := exists_leg_of_mem hrows ht
      rw [hrow.amount]
      exact hlegs leg hleg (hrow.walletId ▸ hid)
  keys hnodup := by
    obtain ⟨ts, hrows, rfl, -, hfresh, -⟩ := h
    rw [ledgerKeys_append, rows_keys hrows, hkey, List.nodup_append]
    refine ⟨hnodup, List.nodup_singleton key, fun k hk k' hk' => ?_⟩
    rintro rfl
    exact hfresh k (hkey ▸ hk') hk

/-- The balances fit where the wallets stay. -/
theorem Fits.of_eq (h : b.Fits) (hw : b'.wallets = b.wallets) : b'.Fits := by
  intro id w hget
  exact h id w (hw ▸ hget)

/-- A new hold leaves the balances. -/
theorem Fits.setHeld (h : b.Fits) : (b.setHeld wid n).Fits := by
  intro id w hget
  simp only [Books.setHeld, Table.get?_update] at hget
  split_ifs at hget with hid
  · obtain ⟨v, hv, rfl⟩ := Option.map_eq_some_iff.mp hget
    exact h id v (hid ▸ hv)
  · exact h id w hget

/-- The constraints let no balance grow too long. -/
theorem Fits.of_posts (hf : b.Fits) (h : Posts c legs b b') : b'.Fits := by
  obtain ⟨ts, hrows, rfl, -, -, hcheck⟩ := h
  intro id w hget
  by_cases hid : id ∈ walletIds legs
  · exact (Wallet.check_eq_none.mp (hcheck id hid w hget)).1
  · rw [Table.get?_mapRows, Option.map_eq_some_iff] at hget
    obtain ⟨v, hv, rfl⟩ := hget
    rw [creditRows_of_notMem hrows hid]
    exact hf id v hv

/-- A payment from the wallet of a customer. -/
theorem Funded.spares {iid oid : Id} {x : Option Id} {k : ℤ} {held : Bool}
    (h : b.Funded c wid iid oid x n k held b') (hnot : ¬b.OfCourier wid) :
    b.Spares b' ∧ (b.Fits → b'.Fits) := by
  rcases h with ⟨-, rfl⟩ | ⟨g, e, b₁, -, -, he, hg, hp, hheld⟩
  · exact ⟨.of_eq rfl rfl, id⟩
  have hlegs : ∀ leg ∈ fundingLegs wid g e iid oid x (n + k) n k, ¬b.OfCourier leg.walletId := by
    intro leg hleg
    unfold fundingLegs at hleg
    simp only [List.mem_append, List.mem_ite_nil_right, List.mem_singleton] at hleg
    rcases hleg with (⟨-, rfl⟩ | ⟨-, rfl⟩) | rfl
    · exact hnot
    · exact hg.not_ofCourier
    · exact he.not_ofCourier
  have hposted : b.Spares b₁ :=
    .of_posts hp (fun leg hleg hid => absurd hid (hlegs leg hleg)) legKeys_fundingLegs
      fun _ heq => IdempotencyKey.noConfusion heq
  rcases hheld with ⟨-, rfl⟩ | ⟨-, -, v, -, rfl⟩
  · exact ⟨hposted, fun hf => hf.of_posts hp⟩
  · exact ⟨hposted.setHeld hnot, fun hf => (hf.of_posts hp).setHeld⟩

/-- A top-up. -/
theorem Credited.spares {jid : Id} (h : b.Credited c wid jid n b') (hn : 0 < n) :
    b.Spares b' ∧ (b.Fits → b'.Fits) := by
  rcases h with ⟨-, rfl⟩ | ⟨g, hg, hp⟩
  · exact ⟨.of_eq rfl rfl, id⟩
  have hlegs : ∀ leg ∈ topupLegs wid g jid n (-n), b.OfCourier leg.walletId →
      0 ≤ leg.amount.coeff := by
    intro leg hleg hid
    simp only [topupLegs, List.mem_cons, List.not_mem_nil, or_false] at hleg
    rcases hleg with rfl | rfl
    · exact hn.le
    · exact absurd hid hg.not_ofCourier
  exact ⟨.of_posts hp hlegs legKeys_topupLegs fun _ heq => IdempotencyKey.noConfusion heq,
    fun hf => hf.of_posts hp⟩

end Parts

end Books

/-! ## Who pays -/

/-- The roles that the routes demand of the payer of an invoice and of who asks for a withdrawal. -/
def Request.asRouted : Request → Db → Prop
  | .payInvoice _ _ _ customerId, d => ∃ v, d.users.get? customerId = some v ∧ v.role = .customer
  | .requestWithdrawal _ courierId _ _, d =>
    ∃ v, d.users.get? courierId = some v ∧ v.role = .courier
  | _, _ => True

/-- A request that can pay out the escrow of an order. -/
def Request.paysOut : Request → Bool
  | .approveOrder .. | .autoApprove .. | .resolveDispute .. => true
  | _ => false

/-- An intent for an invoice is a customer's, and intents are of positive amounts. -/
structure PayersOk (b : Books) : Prop where
  role : ∀ jid p iid, b.intents.get? jid = some p → p.referenceInvoiceId = some iid →
    ∃ v, b.users.get? p.userId = some v ∧ v.role = .customer
  amount : ∀ jid p, b.intents.get? jid = some p → 0 < p.amount

namespace PayersOk

variable {b b' : Books} {jid : Id} {p : PaymentIntent}

/-- Who pays which invoice depends on the users and the intents alone. -/
theorem congr (h : PayersOk b) (hu : b'.users = b.users) (hp : b'.intents = b.intents) :
    PayersOk b' where
  role jid p iid hget href := by
    rw [hp] at hget
    rw [hu]
    exact h.role jid p iid hget href
  amount jid p hget := by
    rw [hp] at hget
    exact h.amount jid p hget

/-- A write of an intent of a customer, of a positive amount. -/
theorem setIntent (h : PayersOk b)
    (hrole : ∀ iid, p.referenceInvoiceId = some iid →
      ∃ v, b.users.get? p.userId = some v ∧ v.role = .customer)
    (hamount : 0 < p.amount) : PayersOk (b.setIntent jid p) where
  role k q iid hget href := by
    simp only [Books.setIntent, Table.get?_set] at hget
    split_ifs at hget with hk
    · obtain rfl := Option.some.inj hget
      exact hrole iid href
    · exact h.role k q iid hget href
  amount k q hget := by
    simp only [Books.setIntent, Table.get?_set] at hget
    split_ifs at hget with hk
    · obtain rfl := Option.some.inj hget
      exact hamount
    · exact h.amount k q hget

/-- A write of an intent that keeps its user, its amount and its invoice. -/
theorem move (h : PayersOk b) {q : PaymentIntent} (hp : b.intents.get? jid = some p)
    (hq : q.userId = p.userId ∧ q.amount = p.amount ∧ q.referenceInvoiceId = p.referenceInvoiceId) :
    PayersOk (b.setIntent jid q) := by
  apply h.setIntent
  · intro iid href
    rw [hq.1]
    exact h.role jid p iid hp (hq.2.2 ▸ href)
  · rw [hq.2.1]
    exact h.amount jid p hp

end PayersOk

/-- The intents after an effect, and the wallets of couriers after one that settles no order. -/
theorem PayersOk.step {s : Settings} {r : Request} {d : Db} {b' : Books} (h : PayersOk d.books)
    (hr : r.asRouted d) (heff : Effect s d.books r b') :
    PayersOk b' ∧ (d.books.Fits → b'.Fits) ∧ (r.paysOut = false → d.books.Spares b') := by
  cases heff with
  | idle => exact ⟨h, id, fun _ => .of_eq rfl rfl⟩
  | createOrder | acceptOrder | cancelOrder | submitDelivery | raiseDispute | cancelInvoice =>
    exact ⟨h.congr rfl rfl, fun hf => hf.of_eq rfl, fun _ => .of_eq rfl rfl⟩
  | @createInvoice now ids oid k x o o' i promo b₁ ho ht hfree hsole hi hcheck hpromo =>
    have hsame : b₁.users = d.books.users ∧ b₁.intents = d.books.intents ∧
        b₁.wallets = d.books.wallets ∧ b₁.transactions = d.books.transactions := by
      cases hpromo <;> exact ⟨rfl, rfl, rfl, rfl⟩
    exact ⟨h.congr hsame.1 hsame.2.1, fun hf => hf.of_eq hsame.2.2.1,
      fun _ => .of_eq hsame.2.2.1 hsame.2.2.2⟩
  | @expireInvoice now iid i hi hst =>
    -- The hold that lapses is of the payer of an invoice.
    have hexpired : PayersOk (d.books.expiredIntent iid i) ∧
        (d.books.Fits → (d.books.expiredIntent iid i).Fits) ∧
        d.books.Spares (d.books.expiredIntent iid i) := by
      unfold Books.expiredIntent
      split
      · exact ⟨h, id, .of_eq rfl rfl⟩
      rename_i jid p hopen
      obtain ⟨hp, hmatch⟩ := Table.find?_eq_some hopen
      have href : p.referenceInvoiceId = some iid := by simp at hmatch; exact hmatch.1
      obtain ⟨v, hv, hrole⟩ := h.role jid p iid hp href
      have hmove : ∀ {b₁ : Books}, b₁.users = d.books.users → b₁.intents = d.books.intents →
          PayersOk (b₁.setIntent jid { p with status := .expired }) := by
        intro b₁ hu hintents
        have h₁ : PayersOk b₁ := h.congr hu hintents
        have hp₁ : b₁.intents.get? jid = some p := by
          rw [hintents]
          exact hp
        exact h₁.move hp₁ ⟨rfl, rfl, rfl⟩
      dsimp only
      split
      · exact ⟨hmove rfl rfl, fun hf => hf.of_eq rfl, .of_eq rfl rfl⟩
      rename_i wid w hw
      have hnot : ¬d.books.OfCourier wid := Books.not_ofCourier hw hv hrole
      split_ifs
      · have hspares : d.books.Spares
            (d.books.setHeld wid (max 0 (w.heldBalance - i.amountFromWallet))) :=
          Books.Spares.setHeld (.of_eq rfl rfl) hnot
        exact ⟨hmove rfl rfl, fun hf => hf.setHeld.of_eq rfl, hspares.congr rfl rfl⟩
      · exact ⟨hmove rfl rfl, fun hf => hf.of_eq rfl, .of_eq rfl rfl⟩
    obtain ⟨h₁, hfits, hspares⟩ := hexpired
    rcases Books.reopened_cases (((d.books.expiredIntent iid i).released now iid).setInvoice iid
      { i with status := .expired }) i.orderId with ⟨heq, -⟩ | ⟨o, -, -, heq⟩ <;> rw [heq]
    · exact ⟨h₁.congr rfl rfl, fun hf => (hfits hf).of_eq rfl, fun _ => hspares.congr rfl rfl⟩
    · exact ⟨h₁.congr rfl rfl, fun hf => (hfits hf).of_eq rfl, fun _ => hspares.congr rfl rfl⟩
  | @createTopup now gw jid tid u n p hfree hp hamount =>
    refine ⟨h.setIntent (fun iid href => ?_) hamount, fun hf => hf.of_eq rfl, fun _ => .of_eq rfl rfl⟩
    rw [hp.2.2] at href
    cases href
  | @payWallet now x iid u i o wid w b₁ hi hst ho hwait hu hw hle hf =>
    obtain ⟨v, hv, hrole⟩ := hr
    obtain ⟨hspares, hfits⟩ := hf.spares (Books.not_ofCourier hw hv hrole)
    have hsame := hf.same
    exact ⟨h.congr hsame.users hsame.intents, fun hf => (hfits hf).of_eq rfl,
      fun _ => hspares.congr rfl rfl⟩
  | @payGateway now x iid u i i' o wid w p n b₁ hi hst ho hwait hu hw hn hlt hopen hfree hp hb₁ hi' =>
    obtain ⟨v, hv, hrole⟩ := hr
    have hnot := Books.not_ofCourier hw hv hrole
    have hpart : PayersOk b₁ ∧ (d.books.Fits → b₁.Fits) ∧ d.books.Spares b₁ ∧
        b₁.users = d.books.users := by
      rw [hb₁]
      split_ifs
      · exact ⟨h.congr rfl rfl, fun hf => hf.setHeld, Books.Spares.setHeld (.of_eq rfl rfl) hnot, rfl⟩
      · exact ⟨h, id, .of_eq rfl rfl, rfl⟩
    obtain ⟨h₁, hfits, hspares, husers⟩ := hpart
    have h₂ : PayersOk (b₁.setInvoice iid i') := h₁.congr rfl rfl
    refine ⟨h₂.setIntent (fun _ _ => ?_) ?_, fun hf => (hfits hf).of_eq rfl,
      fun _ => hspares.congr rfl rfl⟩
    · refine ⟨v, ?_, hrole⟩
      rw [hp.2.2.2.2.1]
      change b₁.users.get? u = some v
      rw [husers]
      exact hv
    · rw [hp.2.2.2.1]
      omega
  | webhookFailed hp =>
    exact ⟨h.move hp ⟨rfl, rfl, rfl⟩, fun hf => hf.of_eq rfl, fun _ => .of_eq rfl rfl⟩
  | @webhookTopup now v g c e jid p wid w b₁ hp hnew hlink hev hpurpose hw hb =>
    obtain ⟨hspares, hfits⟩ := hb.spares (h.amount jid p hp)
    have hsame := hb.same
    have h₁ : PayersOk b₁ := h.congr hsame.users hsame.intents
    have hp₁ : b₁.intents.get? jid = some p := by
      rw [hsame.intents]
      exact hp
    exact ⟨h₁.move hp₁ ⟨rfl, rfl, rfl⟩, fun hf => (hfits hf).of_eq rfl,
      fun _ => hspares.congr rfl rfl⟩
  | webhookPaid hp => exact ⟨h.move hp ⟨rfl, rfl, rfl⟩, fun hf => hf.of_eq rfl, fun _ => .of_eq rfl rfl⟩
  | @webhookSettle now v g c e jid p iid i o wid w b₁ hp hnew hlink hev hpurpose href hi hst ho ht hw
      hf hsole method hcheck =>
    obtain ⟨y, hy, hrole⟩ := h.role jid p iid hp href
    obtain ⟨hspares, hfits⟩ := hf.spares (Books.not_ofCourier hw hy hrole)
    have hsame := hf.same
    have h₁ : PayersOk (b₁.settled now iid i o method i.amountFromWallet p.amount) :=
      h.congr hsame.users hsame.intents
    have hp₁ : (b₁.settled now iid i o method i.amountFromWallet p.amount).intents.get? jid =
        some p := by
      change b₁.intents.get? jid = some p
      rw [hsame.intents]
      exact hp
    exact ⟨h₁.move hp₁ ⟨rfl, rfl, rfl⟩, fun hf => (hfits hf).of_eq rfl, fun _ => hspares.congr rfl rfl⟩
  | expireTopup hp => exact ⟨h.move hp ⟨rfl, rfl, rfl⟩, fun hf => hf.of_eq rfl, fun _ => .of_eq rfl rfl⟩
  | @settle r oid st c o o' iid i b₁ xs hset ho ht hi hio hst hpay =>
    have hsame := hpay.same
    refine ⟨h.congr hsame.users hsame.intents, fun hf => ?_, fun hno => ?_⟩
    · rcases hpay with ⟨-, rfl⟩ | ⟨legs, -, hp⟩
      · exact hf.of_eq rfl
      · exact (hf.of_posts hp).of_eq rfl
    · cases hset <;> cases hno

/-! ## Payouts -/

section Payouts

variable {b b' : Books}

/-- A payout of the escrow only credits the wallets of couriers. -/
theorem Books.Closes.spares {c oid iid : Id} {o : Order} {i : Invoice} {outcome : DisputeStatus}
    (h : b.Closes c oid iid o i outcome b') (htotal : 0 ≤ i.totalAmount) : b.Spares b' := by
  rcases h with ⟨-, rfl⟩ | ⟨legs, hlegs, hp⟩
  · exact .of_eq rfl rfl
  obtain ⟨key, hkey, hkeys⟩ := hlegs.keys
  apply Books.Spares.of_posts hp _ hkeys
  · rintro id rfl
    simp [Books.payoutKeys] at hkey
  · intro leg hleg hid
    cases hlegs with
    | released _ _ _ he ht hr hn =>
      -- Three of the four wallets are system wallets.
      unfold releaseLegs at hleg
      simp only [List.mem_append, List.mem_ite_nil_right, List.mem_cons, List.not_mem_nil,
        or_false] at hleg
      rcases hleg with ((rfl | rfl) | ⟨-, rfl⟩) | ⟨-, rfl⟩
      · exact absurd hid he.not_ofCourier
      · exact hn
      · exact absurd hid ht.not_ofCourier
      · exact absurd hid hr.not_ofCourier
    | refunded _ _ he =>
      simp only [refundLegs, List.mem_cons, List.not_mem_nil, or_false] at hleg
      rcases hleg with rfl | rfl
      · exact absurd hid he.not_ofCourier
      · exact htotal
    | split _ _ _ _ he hn =>
      unfold splitLegs at hleg
      simp only [List.mem_append, List.mem_ite_nil_right, List.mem_singleton] at hleg
      rcases hleg with (rfl | ⟨-, rfl⟩) | ⟨-, rfl⟩
      · exact absurd hid he.not_ofCourier
      · exact hn.1
      · have hrest := hn.2
        change 0 ≤ i.totalAmount - o.courierPayoutAmount
        omega

/-- A request that closes an order only credits the wallets of couriers. -/
theorem Closing.spares {r : Request} (h : Closing b r b') (hd : DealsOk b) : b.Spares b' := by
  have htotal : ∀ {iid i}, b.invoices.get? iid = some i → 0 ≤ i.totalAmount := fun hi =>
    (Invoice.total_nonneg (hd.row _ _ hi).1).1
  cases h with
  | idle => exact .of_eq rfl rfl
  | raised => exact .of_eq rfl rfl
  | completed _ _ _ hi _ _ hpay => exact (hpay.spares (htotal hi)).congr rfl rfl
  | resolved _ _ _ _ hi _ _ hpay => exact (hpay.spares (htotal hi)).congr rfl rfl

/-- A request that can pay out an order is one that opens or closes its case. -/
theorem Request.closes_of_paysOut {r : Request} (h : r.paysOut = true) : r.closes = true := by
  cases r <;> first | rfl | cases h

end Payouts

/-! ## Runs -/

/-- What a request that is not about withdrawals leaves to the couriers. -/
theorem PayersOk.exec {refresh : Bool} {s : Settings} {r : Request} {d : Db} (h : PayersOk d.books)
    (hd : DealsOk d.books) (hr : r.asRouted d) (ht : r.trades = true) :
    PayersOk (r.exec refresh s d).books ∧ (d.books.Fits → (r.exec refresh s d).books.Fits) ∧
      d.books.Spares (r.exec refresh s d).books := by
  have heff : Effect s d.books r (r.exec refresh s d).books := Request.exec_effect ht
  obtain ⟨hpayers, hfits, hspares⟩ := h.step hr heff
  refine ⟨hpayers, hfits, ?_⟩
  cases hpays : r.paysOut with
  | true => exact (Request.exec_closing (Request.closes_of_paysOut hpays) hd).spares hd
  | false => exact hspares hpays

end Giftly
