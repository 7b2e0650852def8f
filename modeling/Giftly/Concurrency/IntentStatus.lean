import Giftly.Concurrency.Rules
import Giftly.Seed
import Giftly.Store.Tagged

/-!
# Outcomes of payment intents

A payment intent is `NEW` until the gateway's webhook settles it as `PAID` or `FAILED`, or a sweep
lets it expire. The webhook reads the status under the lock of the intent. The sweep does not:
`_expire_topup_intent` locks the intent and does not look at its status, and `_expire_invoice` reads
the status before its `UPDATE` takes the lock. `intentOpen` asks that the lock finds an intent that has
no other outcome yet, and depends on the request that takes the lock, so the transactions are tagged
with their requests.
-/

namespace Giftly

open Store

/-- An intent is `PAID` exactly when its settlement time is set. -/
def PaymentIntent.Stamped (p : PaymentIntent) : Prop := p.status = .paid ↔ p.paidAt.isSome = true

instance (p : PaymentIntent) : Decidable p.Stamped := by
  unfold PaymentIntent.Stamped
  infer_instance

/-- A request is a verified webhook at `now` that reports the payment of a link. -/
def Request.Pays (r : Request) (now : Time) (linkId : Option Id) : Prop :=
  ∃ c event, r = .handleWebhook now true true c (.ok event) ∧
    PaymentService.isPaid event.status = true ∧ linkId = some event.paymentLinkId

/-- What a commit of a request does to a payment intent. -/
inductive PaymentIntent.Moves (r : Request) (p p' : PaymentIntent) : Prop
  | stays : p'.status = p.status → p'.paidAt = p.paidAt → Moves r p p'
  | paid (now : Time) : p.status = .new → p'.status = .paid → p'.paidAt = some now →
      r.Pays now p.streampayPaymentLinkId → Moves r p p'
  | closed : p.status = .new → p'.status = .failed ∨ p'.status = .expired →
      p'.paidAt = p.paidAt → Moves r p p'

/-- The settlement time is set with the status `PAID`, and by nothing else. -/
theorem PaymentIntent.Moves.stamped {r : Request} {p p' : PaymentIntent} (h : p.Moves r p')
    (hp : p.Stamped) : p'.Stamped := by
  unfold Stamped at *
  cases h with
  | stays hs ht =>
    rw [hs, ht]
    exact hp
  | paid now _ hs ht => simp [hs, ht]
  | closed hs ht hpaid =>
    have hnone : p.paidAt.isSome = false := by
      rw [hs] at hp
      simpa using hp
    rw [hpaid, hnone]
    rcases ht with ht | ht <;> simp [ht]

/-- Every intent is stamped. -/
def PaidStamped (d : Db) : Prop := ∀ id p, d.intents.get? id = some p → p.Stamped

/-- What a commit of a request does to the payment intents: none disappears, and a new one is
`NEW`. -/
structure IntentMoves (r : Request) (d d' : Db) : Prop where
  moved : ∀ id p, d.intents.get? id = some p → ∃ p', d'.intents.get? id = some p' ∧ p.Moves r p'
  opened : ∀ id p', d'.intents.get? id = some p' → d.intents.get? id = none →
    p'.status = .new ∧ p'.paidAt = none

/-- Nothing happens to the intents. -/
theorem IntentMoves.refl (r : Request) (d : Db) : IntentMoves r d d where
  moved _ p hp := ⟨p, hp, .stays rfl rfl⟩
  opened _ _ hp hn := by
    rw [hn] at hp
    cases hp

/-- All intents stay stamped over a commit. -/
theorem IntentMoves.stamped {r : Request} {d d' : Db} (h : IntentMoves r d d')
    (hd : PaidStamped d) : PaidStamped d' := by
  intro id p' hp'
  cases hp : d.intents.get? id with
  | none =>
    obtain ⟨hs, ht⟩ := h.opened id p' hp' hp
    simp [PaymentIntent.Stamped, hs, ht]
  | some p =>
    obtain ⟨q, hq, hm⟩ := h.moved id p hp
    obtain rfl : q = p' := Option.some.inj (hq.symm.trans hp')
    exact hm.stamped (hd id p hp)

/-- An intent without an outcome, or one that expired. -/
def PaymentIntent.Lapses (p : PaymentIntent) : Prop := p.status = .new ∨ p.status = .expired

instance (p : PaymentIntent) : Decidable p.Lapses := by
  unfold PaymentIntent.Lapses
  infer_instance

/-- No lock on an intent is granted to a sweep that will expire it when it is `PAID` or `FAILED`. -/
def intentOpen (r : Request) (_ : Memory) (d : Db) (l : Row) : Prop :=
  match r, l with
  | .expireTopupIntent _, .intent id =>
    ∀ p ∈ d.intents.get? id, p.purpose = .walletTopup → p.Lapses
  | .expireInvoice _ _, .intent id => ∀ p ∈ d.intents.get? id, p.Lapses
  | _, _ => True

instance (r : Request) (m : Memory) (d : Db) (l : Row) : Decidable (intentOpen r m d l) := by
  unfold intentOpen
  split <;> infer_instance

/-- The policy under which the intents of a run develop. -/
def intentPolicy : Policy where
  tables := [.wallets, .transactions, .orders, .conversations, .invoices, .items, .intents, .topups,
    .disputes, .promos, .redemptions, .withdrawals]
  inv := PaidStamped
  guar d d' := ∃ r, IntentMoves r d d'
  guar_refl d := ⟨.expireTopupIntent 0, .refl _ d⟩

/-- The part of the policy that one request has. -/
def intentPolicyOf (r : Request) : Policy :=
  { intentPolicy with
    cond := intentOpen r
    guar := IntentMoves r
    guar_refl := .refl r }

namespace IntentProof

/-- The tables that the policy does not read. -/
def others : List Tbl :=
  [.wallets, .transactions, .orders, .conversations, .invoices, .items, .topups, .disputes, .promos,
    .redemptions, .withdrawals]

/-! ## Assertions -/

/-- Whatever is committed meanwhile, the transaction moves intents as its request may. -/
def Moving (r : Request) (v : TxView) : Prop :=
  ∀ d, (intentPolicyOf r).around.rely v.held v.last d → IntentMoves r d (v.pending d)

section Assertions

variable {r : Request} {id : Id} {p : PaymentIntent} {v : TxView}

/-- Writes to other tables move no intent. -/
theorem robust_moving : Robust (intentPolicyOf r) others (Moving r) :=
  .ofReach (B := IntentMoves r) fun _ x y hxy hx => by
    have h : y.intents = x.intents := hxy.intents_eq (by decide)
    exact ⟨by rw [h]; exact hx.moved, by rw [h]; exact hx.opened⟩

/-- A transaction that has not written the intents moves none. -/
theorem moving_of_clean (h : IntentsClean v) : Moving r v := by
  intro d _
  have hrefl := IntentMoves.refl r d
  exact ⟨by rw [h d]; exact hrefl.moved, by rw [h d]; exact hrefl.opened⟩

/-- A transaction that moves intents as its request may can commit. -/
theorem safe_of_moving (h : Moving r v) : (intentPolicyOf r).Safe v := by
  intro d hd
  have hm := h d hd
  exact ⟨hm.stamped hd.1, trivial, hm, fun _ _ => trivial⟩

/-! ## Steps -/

/-- A flush that leaves the outcome of an intent alone. -/
theorem wp_flushIntent_same {names : List Row} {l a : PaymentIntent} {Q : Unit → TxView → Prop}
    (hv : Moving r v) (hs : a.status = l.status) (ht : a.paidAt = l.paidAt)
    (hQ : ∀ v', Moving r v' → Q () v') :
    wp (intentPolicyOf r).around (PaymentRepository.flush names id l a) Q v := by
  refine wp_flushIntent (fun _ => hQ v hv) fun d p hd hp => hQ _ fun d' hd' => ?_
  have hm := hv d' (Policy.rely_after _ hd hd')
  -- The assignment of the columns that changed leaves the status and the settlement time.
  have hsame : ∀ q : PaymentIntent, (l.assign a q).status = q.status ∧
      (l.assign a q).paidAt = q.paidAt := by
    intro q
    simp [PaymentIntent.assign, Giftly.assign, hs, ht]
  refine ⟨fun j q hq => ?_, fun j q' hq' hq => ?_⟩
  · obtain ⟨q', hq', hmove⟩ := hm.moved j q hq
    simp only [Function.comp_apply, Db.updateIntent, Table.get?_update, hq']
    split_ifs
    · refine ⟨_, rfl, ?_⟩
      obtain ⟨h₁, h₂⟩ := hsame q'
      cases hmove with
      | stays a b => exact .stays (h₁.trans a) (h₂.trans b)
      | paid now a b c e => exact .paid now a (h₁.trans b) (h₂.trans c) e
      | closed a b c => exact .closed a (by rwa [h₁]) (h₂.trans c)
    · exact ⟨q', rfl, hmove⟩
  · simp only [Function.comp_apply, Db.updateIntent, Table.get?_update] at hq'
    split_ifs at hq' with hj
    · obtain ⟨q₀, hq₀, rfl⟩ := Option.map_eq_some_iff.mp hq'
      obtain ⟨h₁, h₂⟩ := hm.opened j q₀ hq₀ hq
      exact ⟨(hsame q₀).1.trans h₁, (hsame q₀).2.trans h₂⟩
    · exact hm.opened j q' hq' hq

/-- A flush that moves the row of an intent, whose lock the transaction has then. -/
theorem wp_flushIntent_moved {names : List Row} {l a : PaymentIntent} {Q : Unit → TxView → Prop}
    (hc : IntentsClean v)
    (hrow : ∀ d q, (intentPolicyOf r).around.rely v.held v.last d →
      (.intent id ∈ v.held ∨ intentOpen r v.mem (v.pending d) (.intent id)) →
      d.intents.get? id = some q → q.Moves r (l.assign a q))
    (hQ : ∀ v', Moving r v' → Q () v') :
    wp (intentPolicyOf r).around (PaymentRepository.flush names id l a) Q v := by
  unfold PaymentRepository.flush
  split_ifs with hs
  · exact hQ v (moving_of_clean hc)
  refine wp_updateRow fun d q hd hl hq _ => hQ _ fun d' hd' => ?_
  rw [hc d] at hq
  have hmove := hrow d q hd (hl _ List.mem_cons_self) hq
  -- The lock keeps the row until the commit.
  have hq' : d'.intents.get? id = some q := (Policy.rely_intent hd' (by simp)).trans hq
  refine ⟨fun j x hx => ?_, fun j x' hx' hx => ?_⟩
  · simp only [Function.comp_apply, Db.updateIntent, Table.get?_update, hc d']
    split_ifs with hj
    · subst hj
      obtain rfl : q = x := Option.some.inj (hq'.symm.trans hx)
      exact ⟨_, by rw [hx]; rfl, hmove⟩
    · exact ⟨x, hx, .stays rfl rfl⟩
  · simp only [Function.comp_apply, Db.updateIntent, Table.get?_update, hc d', hx] at hx'
    simp at hx'

/-- A flush that moves a locked intent. -/
theorem wp_flushIntent_held {names : List Row} {a : PaymentIntent} {Q : Unit → TxView → Prop}
    (hc : IntentsClean v) (hh : HeldIntent id p v) (hm : p.Moves r (p.assign a p))
    (hQ : ∀ v', Moving r v' → Q () v') :
    wp (intentPolicyOf r).around (PaymentRepository.flush names id p a) Q v := by
  refine wp_flushIntent_moved hc (fun d q hd _ hq => ?_) hQ
  rw [Policy.rely_intent hd hh.1, hh.2] at hq
  obtain rfl := Option.some.inj hq
  exact hm

/-- The insertion of an intent that is `NEW`. -/
theorem wp_createIntent {Q : Unit → TxView → Prop} (hc : IntentsClean v) (hs : p.status = .new)
    (ht : p.paidAt = none) (hQ : ∀ v', Moving r v' → Q () v') :
    wp (intentPolicyOf r).around (PaymentRepository.createIntent id p) Q v := by
  unfold PaymentRepository.createIntent
  refine wp_insertRow fun d hd hnone _ => hQ _ fun d' hd' => ?_
  have hrow : d'.intents.get? id = none := by
    rw [Policy.rely_intent hd' List.mem_cons_self, ← hc d]
    exact hnone
  refine ⟨fun j x hx => ?_, fun j x' hx' hx => ?_⟩
  · refine ⟨x, ?_, .stays rfl rfl⟩
    simp only [Function.comp_apply, Db.insertIntent, Table.get?_insert, hc d', hx, Option.some_or]
  · simp only [Function.comp_apply, Db.insertIntent, Table.get?_insert, hc d', hx,
      Option.none_or] at hx'
    split_ifs at hx'
    obtain rfl := Option.some.inj hx'
    exact ⟨hs, ht⟩

end Assertions

/-! ## Requests -/

section Requests

variable {id iid : Id} {p : PaymentIntent} {v : TxView} {α : Type} {now : Time} {refresh : Bool}
  {s : Settings} {r : Request}

/-- Writes to other tables leave the intents unwritten. -/
theorem robust_clean : Robust (intentPolicyOf r) others IntentsClean :=
  robust_intentsClean (by decide)

/-- A locked intent stays as it was read over writes to other tables. -/
theorem robust_heldClean :
    Robust (intentPolicyOf r) others fun v => HeldIntent id p v ∧ IntentsClean v :=
  (robust_heldIntent p).and robust_clean

/-- A transaction begins with nothing written. -/
theorem clean_start {m : Memory} {d : Db} : IntentsClean (.start m d) := fun _ => rfl

/-- The payment link of a new intent is written at the end of its request. -/
theorem wp_attachStreampay {x : Id} {url : Text} {g : Tx α} {Q : α → TxView → Prop}
    (hv : Moving r v) (hg : ∀ v', Moving r v' → wp (intentPolicyOf r).around g Q v') :
    wp (intentPolicyOf r).around (PaymentRepository.attachStreampay id p x url >>= fun _ => g) Q v := by
  rw [wp_bind]
  unfold PaymentRepository.attachStreampay
  exact wp_flushIntent_same hv rfl rfl hg

/-- A top-up adds an intent that is `NEW`. -/
theorem wp_createTopup {g : PaymentService.Gateway} {x u : Id} {a : Decimal} (hc : IntentsClean v) :
    wp (intentPolicyOf r).around (PaymentService.createTopup s now g id x u a)
      (fun _ v => Moving r v) v := by
  refine wp_ofExcept_bind fun amount _ => wp_require_bind fun _ => ?_
  refine robust_clean.wp_bind writesTo_getByUser (List.Subset.refl _) hc fun y v hc => ?_
  split
  · trivial
  · rw [wp_bind]
    refine wp_createIntent hc rfl rfl fun v hv => ?_
    refine robust_moving.wp_bind writesTo_createTopupRow (by decide) hv fun _ v hv => ?_
    refine robust_moving.wp_bind writesTo_createCheckout (List.Subset.refl _) hv fun c v hv => ?_
    exact wp_attachStreampay hv fun _ h => h

/-- The gateway branch adds an intent that is `NEW`. -/
theorem wp_startGateway {x : PaymentService.PayInput} {i : Invoice} {u w : Id} {a b : ℤ}
    (hc : IntentsClean v) :
    wp (intentPolicyOf r).around (PaymentService.startGateway refresh s now x iid i u w a b)
      (fun _ v => Moving r v) v := by
  unfold PaymentService.startGateway
  refine robust_clean.wp_bind (Prog.writes_when _ writesTo_holdFunds) (by decide) hc
    fun _ v hc => ?_
  refine robust_clean.wp_bind writesTo_flushInvoice (by decide) hc fun _ v hc => ?_
  rw [wp_bind]
  refine wp_createIntent hc rfl rfl fun v hv => ?_
  refine robust_moving.query_bind hv fun _ v hv _ _ => ?_
  refine robust_moving.wp_bind writesTo_createCheckout (List.Subset.refl _) hv fun _ v hv => ?_
  exact wp_attachStreampay hv fun _ h => h

/-- `pay_invoice` adds an intent that is `NEW`, or none. -/
theorem wp_payInvoice {x : PaymentService.PayInput} {u : Id} (hc : IntentsClean v) :
    wp (intentPolicyOf r).around (PaymentService.payInvoice refresh s now x iid u)
      (fun _ v => Moving r v) v := by
  unfold PaymentService.payInvoice
  refine robust_clean.wp_bind (Prog.writes_query _) (List.Subset.refl _) hc fun y v hc => ?_
  split
  · trivial
  refine robust_clean.wp_bind writesTo_keepInvoice (List.Subset.refl _) hc fun _ v hc => ?_
  refine wp_require_bind fun _ => wp_require_bind fun _ => ?_
  refine robust_clean.wp_bind writesTo_lockOrder (List.Subset.refl _) hc fun z v hc => ?_
  split
  · trivial
  refine wp_require_bind fun _ => ?_
  refine robust_clean.wp_bind writesTo_getByUser (List.Subset.refl _) hc fun _ v hc => ?_
  split
  · trivial
  refine wp_ofExcept_bind fun total _ => ?_
  refine robust_clean.wp_bind writesTo_availableBalance (List.Subset.refl _) hc fun _ v hc => ?_
  refine wp_ofExcept_bind fun gatewayAmount _ => ?_
  rw [wp_ite]
  constructor
  · -- The wallet's branch writes no intent.
    intro _
    exact robust_clean.wp_last writesTo_payFromWallet (by decide) hc fun _ _ h => moving_of_clean h
  · intro _
    unfold PaymentService.payThroughGateway
    refine robust_clean.query_bind hc fun _ v hc _ _ => ?_
    split
    · exact moving_of_clean hc
    · exact wp_startGateway hc

/-- The webhook settles an intent that it has locked and that it has found `NEW`. -/
theorem wp_handleWebhook {a b : Bool} {c : Id} {e : Except Err PaymentService.WebhookEvent}
    (hr : r = .handleWebhook now a b c e) (hc : IntentsClean v) :
    wp (intentPolicyOf r).around (PaymentService.handleWebhook refresh now a b c e)
      (fun _ v => Moving r v) v := by
  unfold PaymentService.handleWebhook
  refine wp_require_bind fun ha => wp_ofExcept_bind fun event he => wp_require_bind fun hb => ?_
  unfold PaymentService.settleLocked
  rw [wp_bind]
  -- The intent is locked, and its row is loaded under the lock.
  refine wp_lockByLink (fun _ _ => trivial) fun d id p hd hp hlink => ?_
  have hc' : IntentsClean { v with held := .intent id :: v.held, last := d } := hc
  have hh : HeldIntent id p { v with held := .intent id :: v.held, last := d } :=
    ⟨List.mem_cons_self, by rw [← hc d]; exact hp⟩
  dsimp only
  rw [wp_ite]
  -- An intent that is not new is answered `already_processed`.
  refine ⟨fun _ => moving_of_clean hc', fun hnew => ?_⟩
  have hnew : p.status = .new := not_not.mp hnew
  rw [wp_ite]
  constructor
  · -- The event is a failure: the intent is closed.
    intro _
    rw [wp_bind]
    refine wp_flushIntent_held hc' hh (.closed hnew (.inl ?_) ?_) fun _ h => h
    · simp [PaymentIntent.assign, Giftly.assign, hnew]
    · simp [PaymentIntent.assign, Giftly.assign]
  · -- The event is a payment: the money is settled, then the intent becomes PAID.
    intro hpaid
    have hpays : r.Pays now p.streampayPaymentLinkId :=
      ⟨c, event, by rw [hr, ha, hb, he], by simpa using hpaid, hlink⟩
    refine wp_ofExcept_bind fun _ _ => wp_ofExcept_bind fun _ _ => wp_require_bind fun _ => ?_
    refine robust_heldClean.wp_bind writesTo_settleIntent (by decide) ⟨hh, hc'⟩ fun _ v hv => ?_
    rw [wp_bind]
    refine wp_flushIntent_held hv.2 hv.1 (.paid now hnew ?_ ?_ hpays) fun _ h => h
    · simp [PaymentIntent.assign, Giftly.assign, hnew]
    · by_cases ht : some now = p.paidAt
      · simp [PaymentIntent.assign, Giftly.assign, ← ht]
      · simp [PaymentIntent.assign, Giftly.assign, ht]

/-- The row that an expiry leaves of an intent that lapses. -/
theorem moves_of_lapses {q : PaymentIntent} (hq : q.Lapses) :
    q.Moves r (p.assign { p with status := .expired } q) := by
  have ht : (p.assign { p with status := .expired } q).paidAt = q.paidAt := by
    simp [PaymentIntent.assign, Giftly.assign]
  rcases hq with hq | hq
  · by_cases hp : p.status = .expired
    · refine .stays ?_ ht
      simp [PaymentIntent.assign, Giftly.assign, hp]
    · refine .closed hq (.inr ?_) ht
      simp [PaymentIntent.assign, Giftly.assign, Ne.symm hp]
  · refine .stays ?_ ht
    simp only [PaymentIntent.assign, Giftly.assign]
    split_ifs <;> simp [hq]

/-- The sweep expires the top-up intent that it has locked. -/
theorem wp_expireTopupIntent (hr : r = .expireTopupIntent id) (hc : IntentsClean v)
    (hheld : .intent id ∉ v.held) :
    wp (intentPolicyOf r).around (Expiry.expireTopupIntent id) (fun _ v => Moving r v) v := by
  unfold Expiry.expireTopupIntent
  rw [wp_bind]
  refine wp_lockFind (fun d hd => moving_of_clean hc) fun d p hd hl hp => ?_
  have hc' : IntentsClean { v with held := .intent id :: v.held, last := d } := hc
  have hh : HeldIntent id p { v with held := .intent id :: v.held, last := d } :=
    ⟨List.mem_cons_self, by rw [← hc d]; exact hp⟩
  have hopen : intentOpen r v.mem (v.pending d) (.intent id) := hl.resolve_left hheld
  dsimp only
  rw [wp_ite]
  refine ⟨fun _ => moving_of_clean hc', fun htopup => ?_⟩
  have hlapses : p.Lapses := by
    subst hr
    exact hopen p hp (not_not.mp htopup)
  rw [wp_bind]
  exact wp_flushIntent_held hc' hh (moves_of_lapses hlapses) fun _ h => h

/-- The sweep has read an intent without a lock. Once the intent is locked, it lapses. -/
def Seen (id : Id) (v : TxView) : Prop :=
  IntentsClean v ∧
    (.intent id ∈ v.held → ∀ p, v.last.intents.get? id = some p → p.Lapses)

/-- What the sweep has read of an intent stays true while other requests run. -/
theorem stable_seen (hr : r = .expireInvoice now iid) :
    Stable (intentPolicyOf r).around (Seen id) where
  rely v d hv hd :=
    ⟨hv.1, fun hl p hp => hv.2 hl p (by rwa [Policy.rely_intent hd hl] at hp)⟩
  held v ls hv hcond := by
    refine ⟨hv.1, fun hl p hp => ?_⟩
    rcases List.mem_append.mp hl with hl | hl
    · rcases hcond _ hl with hl | hopen
      · exact hv.2 hl p hp
      · subst hr
        exact hopen p (by rw [hv.1]; exact hp)
    · exact hv.2 hl p hp

/-- A function that leaves the intents alone. -/
theorem keeps_seen (hr : r = .expireInvoice now iid) {f : Tx α} {ts : List Tbl}
    (hf : WritesTo ts f) (hs : ts ⊆ others) : Keeps (intentPolicyOf r).around (Seen id) f := by
  refine .of_writes (stable_seen hr) (fun v ls g hg hv hcond => ?_) (fun _ _ _ h => h) hf
  obtain ⟨hc, hl⟩ := (stable_seen hr).held v ls hv hcond
  exact ⟨(robust_clean (r := r)).patch v ls g (hg.mono hs) hc, hl⟩

/-- The sweep expires the open intent of an invoice. -/
theorem wp_expireIntent (hr : r = .expireInvoice now iid) {i : Invoice}
    {x : Option (Id × PaymentIntent)} (hv : ∀ j ∈ x, Seen j.1 v) (hc : IntentsClean v) :
    wp (intentPolicyOf r).around (Expiry.expireIntent refresh i x) (fun _ v => Moving r v) v := by
  unfold Expiry.expireIntent
  split
  · exact moving_of_clean hc
  rename_i id p
  have hothers : [Tbl.wallets] ⊆ others := by decide
  refine (keeps_seen hr (Prog.writes_when _ ?release) hothers).wp_bind (hv (id, p) rfl)
    fun _ v hseen => ?_
  case release =>
    refine .bind writesTo_getByUser fun y => ?_
    split
    · trivial
    · exact writesTo_releaseHold
  refine wp_flushIntent_moved hseen.1 (fun d q hd hl hq => moves_of_lapses ?_) fun _ h => h
  rcases hl with hl | hopen
  · exact hseen.2 hl q (by rwa [Policy.rely_intent hd hl] at hq)
  · subst hr
    exact hopen q (by rw [hseen.1]; exact hq)

/-- `_expire_invoice` expires the intent that it has read, which lapses once it is locked. -/
theorem wp_expireInvoice (hr : r = .expireInvoice now iid) (hc : IntentsClean v)
    (hheld : ∀ id, .intent id ∉ v.held) :
    wp (intentPolicyOf r).around (Expiry.expireInvoice refresh now iid)
      (fun _ v => Moving r v) v := by
  unfold Expiry.expireInvoice
  rw [wp_bind]
  refine wp_lockInvoice (fun d hd => moving_of_clean hc) fun d i hd _ => ?_
  have hc' : IntentsClean { v with held := .invoice iid :: v.held, last := d } := hc
  dsimp only
  rw [wp_ite]
  refine ⟨fun _ => moving_of_clean hc', fun _ => ?_⟩
  -- The open intent is read without its lock, which is what the condition is about.
  refine wp_query_bind fun d' hd' => ?_
  rw [wp_bind]
  refine wp_mono (fun _ v hv => ?_) (wp_expireIntent hr (fun j hj => ⟨hc, fun hl => ?_⟩) hc)
  · refine robust_moving.wp_bind writesTo_release (by decide) hv fun _ v hv => ?_
    refine robust_moving.wp_bind writesTo_flushInvoice (by decide) hv fun _ v hv => ?_
    refine robust_moving.wp_bind writesTo_lockOrder (List.Subset.refl _) hv fun y v hv => ?_
    split
    · exact hv
    · exact robust_moving.wp_bind (Prog.writes_when _ (.bind writesTo_assertTransition fun _ =>
        writesTo_flushOrder)) (by decide) hv fun _ _ h => h
  · -- So far the sweep has locked its invoice only.
    refine absurd hl ?_
    simpa using hheld j.1

/-- Every request moves the intents as it may. -/
theorem wp_request (refresh : Bool) (s : Settings) (r : Request) (d : Db) :
    wp (intentPolicyOf r).around (r.tx refresh s) (fun _ v => Moving r v) (.start .empty d) := by
  have hother : r.tables ⊆ others → wp (intentPolicyOf r).around (r.tx refresh s)
      (fun _ v => Moving r v) (.start .empty d) := fun h =>
    robust_clean.wp_last ((r.writesTo refresh s).mono h) (List.Subset.refl _) clean_start
      fun _ _ h => moving_of_clean h
  cases r with
  | createOrder | acceptOrder | cancelOrder | createInvoice | cancelInvoice | submitDelivery
  | approveOrder | autoApprove | raiseDispute | resolveDispute | requestWithdrawal
  | approveWithdrawal | rejectWithdrawal | markPaid => exact hother (by simp [Request.tables, others])
  | createTopup => exact wp_void (wp_createTopup clean_start)
  | payInvoice => exact wp_void (wp_payInvoice clean_start)
  | handleWebhook => exact wp_void (wp_handleWebhook rfl clean_start)
  | expireInvoice => exact wp_void (wp_expireInvoice rfl clean_start fun _ => List.not_mem_nil)
  | expireTopupIntent => exact wp_void (wp_expireTopupIntent rfl clean_start List.not_mem_nil)

end Requests

end IntentProof

/-! ## Runs -/

/-- The transactions of requests, tagged with their requests. -/
def Tracked (refresh : Bool) (s : Settings)
    (p : Prog Db Row Err (Memory × List Request) Request) : Prop :=
  ∃ r : Request, p = (r.logged refresh s).tagged r

/-- Every transaction of a run moves intents as its request may. -/
theorem IntentProof.ensures {refresh : Bool} {s : Settings}
    {p : Prog Db Row Err (Memory × List Request) Request} (hp : Tracked refresh s p) :
    (intentPolicy.discipline.tagged intentOpen).Ensures IntentMoves (.empty, []) p := by
  obtain ⟨r, rfl⟩ := hp
  refine Discipline.Ensures.tagged fun d hd => ?_
  have hensures : (intentPolicyOf r).discipline.Ensures IntentMoves .empty (r.logged refresh s) := by
    refine Policy.ensures (r.writesTo refresh s) (fun t _ => ?_) fun d _ => ?_
    · show t ∈ intentPolicy.tables
      cases t <;> decide
    · exact wp_mono (fun _ v hv => ⟨IntentProof.safe_of_moving hv, hv⟩)
        (IntentProof.wp_request refresh s r d)
  refine wp_mono (fun r' v hv => ⟨fun d' hd' => ?_, hv.2⟩) (hensures d hd)
  obtain ⟨hinv, hgrows, hguar, hsame⟩ := hv.1 d' hd'
  exact ⟨hinv, hgrows, ⟨r, hguar⟩, hsame⟩

/-- In every run in which no sweep is granted the lock of a `PAID` or `FAILED` intent that it will
expire, every commit moves intents from `NEW` to an outcome or leaves them alone, an outcome is never
left, and an intent is `PAID` exactly when its settlement time is set, which a commit of the webhook
for its payment link does. -/
theorem intent_outcomes_final (refresh : Bool) (s : Settings) (d₀ : Db) (h₀ : PaidStamped d₀)
    (sys : System Db Row Err (Memory × List Request) Request)
    (hrun : System.Run (Tracked refresh s) (Discipline.tagCond intentOpen) (.empty, []) d₀ sys) :
    PaidStamped sys.db ∧
    ∀ i sys', sys.Grants (Discipline.tagCond intentOpen) i → sys.step i = some sys' →
      (∀ id p, sys.db.intents.get? id = some p → ∃ p', sys'.db.intents.get? id = some p' ∧
        (p.status ≠ .new → p'.status = p.status ∧ p'.paidAt = p.paidAt) ∧
        (p'.status = p.status ∨ p'.status = .paid ∨ p'.status = .failed ∨ p'.status = .expired) ∧
        (p'.paidAt ≠ p.paidAt → ∃ now r, p'.paidAt = some now ∧
          sys'.slots[i]? = some (.committed r) ∧ r.Pays now p.streampayPaymentLinkId)) ∧
      ∀ id p', sys'.db.intents.get? id = some p' → sys.db.intents.get? id = none →
        p'.status = .new := by
  have hgood := Discipline.good_of_run (fun p hp => IntentProof.ensures hp) h₀ hrun
  refine ⟨hgood.inv, fun i sys' hg hs => ?_⟩
  obtain ⟨t, x, ht, hset, hstay | ⟨r, -, rfl, -, hmoves⟩⟩ := (hgood.step hg hs).2
  · -- The step commits nothing, so every intent stays.
    rw [hstay.1]
    refine ⟨fun id p hp => ⟨p, hp, fun _ => ⟨rfl, rfl⟩, .inl rfl, fun h => absurd rfl h⟩, ?_⟩
    intro id p' hp' hnone
    rw [hnone] at hp'
    cases hp'
  · -- The step commits, and each intent moved as its request may move it.
    refine ⟨fun id p hp => ?_, fun id p' hp' hnone => (hmoves.opened id p' hp' hnone).1⟩
    obtain ⟨p', hp', hm⟩ := hmoves.moved id p hp
    refine ⟨p', hp', ?_⟩
    cases hm with
    | stays hstatus hpaid =>
      exact ⟨fun _ => ⟨hstatus, hpaid⟩, .inl hstatus, fun h => absurd hpaid h⟩
    | paid now hnew hstatus hpaid hpays =>
      -- The payment was made by the request that this step committed.
      have hslot : sys'.slots[i]? = some (.committed r) := by
        rw [hset, List.getElem?_set_self (List.getElem?_eq_some_iff.mp ht).1]
      exact ⟨fun h => absurd hnew h, .inr (.inl hstatus), fun _ => ⟨now, r, hpaid, hslot, hpays⟩⟩
    | closed hnew hstatus hpaid =>
      exact ⟨fun h => absurd hnew h, .inr (.inr hstatus), fun h => absurd hpaid h⟩

namespace Sample

/-- A top-up intent whose time is over, with nothing else. -/
def lapsedTopup : Db :=
  { accounts (wallets 0 0 0) with
    intents := ⟨[(302, intent .walletTopup 10000 .new none 802)], by simp⟩ }

/-- An invoice whose time is over, with its open intent. -/
def lapsedInvoice : Db :=
  { ordered (wallets 0 0 0) (order .waitingPayment) (invoice .issued 0 10000) with
    intents := invoiceIntent }

/-- The intent of the run is `NEW` and has no settlement time. -/
theorem lapsedTopup_stamped : PaidStamped lapsedTopup := by
  refine Table.forall_get?.mpr fun r hr => ?_
  obtain rfl : r = (302, intent .walletTopup 10000 .new none 802) := by
    simpa [lapsedTopup] using hr
  decide

/-- The intent of the run is `NEW` and has no settlement time. -/
theorem lapsedInvoice_stamped : PaidStamped lapsedInvoice := by
  refine Table.forall_get?.mpr fun r hr => ?_
  obtain rfl : r = (302, intent .orderInvoice 10000 .new (some 601) 802) := by
    simpa [lapsedInvoice, invoiceIntent] using hr
  decide

/-- The transaction of a request, with the request as its tag. -/
def tracked (r : Request) : Prog Db Row Err (Memory × List Request) Request :=
  (r.logged false settings).tagged r

/-- The transaction of a request is tagged with the request. -/
theorem tracked_tracked (r : Request) : Tracked false settings (tracked r) := ⟨r, rfl⟩

/-- The gateway's event for the payment link of the intent. -/
def gatewayEvent (status : Text) : Request :=
  .handleWebhook 180000 true true 102 (.ok ⟨802, status, some 10000⟩)

/-- The outcome of the intent. -/
def outcomeOf (sys : System Db Row Err (Memory × List Request) Request) :
    Option (PaymentIntentStatus × Option Time) :=
  (sys.db.intents.get? 302).map fun p => (p.status, p.paidAt)

end Sample

/-- The webhook of a lapsed top-up reads the intent, the sweep expires it, and the webhook commits
afterwards: the intent stays `EXPIRED`. -/
theorem intent_outcomes_final_topup :
    ∃ sys sys' : System Db Row Err (Memory × List Request) Request,
      System.Run (Tracked false Sample.settings) (Discipline.tagCond intentOpen) (.empty, [])
        Sample.lapsedTopup sys ∧
      sys.step 0 = some sys' ∧ sys'.slots.length = 2 ∧
      Sample.outcomeOf sys = some (.expired, none) ∧
      Sample.outcomeOf sys' = some (.expired, none) ∧ PaidStamped sys.db := by
  obtain ⟨sys, hrun, hq⟩ := System.Run.exists_of_play (Tracked false Sample.settings)
    (Discipline.tagCond intentOpen) (.empty, []) Sample.lapsedTopup
    ([.start (Sample.tracked (Sample.gatewayEvent ['P', 'A', 'I', 'D'])),
      .start (Sample.tracked (.expireTopupIntent 302)), .step 0] ++
      List.replicate 4 (.step 1) ++ [.step 0])
    (fun sys => Sample.outcomeOf sys = some (.expired, none) &&
      (sys.stepIf (Discipline.tagCond intentOpen) 0).any fun sys' => sys'.slots.length = 2)
    (by
      intro p hp
      simp only [List.mem_append, List.mem_cons, List.mem_replicate, System.Event.start.injEq,
        List.not_mem_nil, reduceCtorEq, and_false, or_false] at hp
      rcases hp with rfl | rfl <;> exact Sample.tracked_tracked _)
    (by decide +kernel)
  simp only [Bool.and_eq_true, decide_eq_true_eq, Option.any_eq_true] at hq
  obtain ⟨hexpired, sys', hs, htwo⟩ := hq
  obtain ⟨hg, hstep⟩ := System.step_of_stepIf hs
  have h := intent_outcomes_final false Sample.settings Sample.lapsedTopup
    Sample.lapsedTopup_stamped sys hrun
  -- The step of the webhook finds an outcome, which it leaves.
  obtain ⟨p, hp, heq⟩ := Option.map_eq_some_iff.mp hexpired
  obtain ⟨p', hp', hfinal, -⟩ := (h.2 0 sys' hg hstep).1 302 p hp
  obtain ⟨hstatus, hpaidAt⟩ := Prod.mk.inj heq
  obtain ⟨hstatus', hpaidAt'⟩ := hfinal (by rw [hstatus]; decide)
  have houtcome : Sample.outcomeOf sys' = some (.expired, none) := by
    unfold Sample.outcomeOf
    rw [hp', Option.map_some, hstatus', hpaidAt', hstatus, hpaidAt]
  exact ⟨sys, sys', hrun, hstep, htwo, hexpired, houtcome, h.1⟩

/-- The sweep lists a lapsed top-up, the webhook settles it, and the sweep expires it: `EXPIRED` over
`PAID`. In the same way it expires the intent of a lapsed invoice over `FAILED`, when the webhook comes
between its read and its `UPDATE`. -/
theorem sweep_overwrites_outcome :
    PaidStamped Sample.lapsedTopup ∧
    ((Expiry.candidates 180000 200).run .empty Sample.lapsedTopup).toOption.map Prod.fst =
      some ([], [302]) ∧
    (∃ sys sys' : System Db Row Err (Memory × List Request) Request,
      System.Run (Tracked false Sample.settings)
        (System.always Db Row (Memory × List Request)) (.empty, []) Sample.lapsedTopup sys ∧
      sys.step 1 = some sys' ∧ Sample.outcomeOf sys = some (.paid, some 180000) ∧
      Sample.outcomeOf sys' = some (.expired, some 180000)) ∧
    PaidStamped Sample.lapsedInvoice ∧
    ∃ sys sys' : System Db Row Err (Memory × List Request) Request,
      System.Run (Tracked false Sample.settings)
        (System.always Db Row (Memory × List Request)) (.empty, []) Sample.lapsedInvoice sys ∧
      sys.step 0 = some sys' ∧ Sample.outcomeOf sys = some (.failed, none) ∧
      Sample.outcomeOf sys' = some (.expired, none) := by
  refine ⟨Sample.lapsedTopup_stamped, by decide +kernel, ?_, Sample.lapsedInvoice_stamped, ?_⟩
  · obtain ⟨sys, hrun, hq⟩ := System.Run.exists_of_play (Tracked false Sample.settings)
      (System.always Db Row (Memory × List Request)) (.empty, []) Sample.lapsedTopup
      -- The webhook commits the top-up's payment; the sweep then expires the intent it listed
      -- before.
      (.start (Sample.tracked (Sample.gatewayEvent ['P', 'A', 'I', 'D'])) ::
        List.replicate 15 (.step 0) ++ .start (Sample.tracked (.expireTopupIntent 302)) ::
        List.replicate 3 (.step 1))
      (fun sys => Sample.outcomeOf sys = some (.paid, some 180000) &&
        (sys.step 1).any fun sys' => Sample.outcomeOf sys' = some (.expired, some 180000))
      (by
        intro p hp
        simp only [List.mem_append, List.mem_cons, List.mem_replicate, System.Event.start.injEq,
          reduceCtorEq, and_false, or_false] at hp
        rcases hp with rfl | rfl <;> exact Sample.tracked_tracked _)
      (by decide +kernel)
    simp only [Bool.and_eq_true, decide_eq_true_eq, Option.any_eq_true] at hq
    obtain ⟨hpaid, sys', hs, hexpired⟩ := hq
    exact ⟨sys, sys', hrun, hs, hpaid, hexpired⟩
  · obtain ⟨sys, hrun, hq⟩ := System.Run.exists_of_play (Tracked false Sample.settings)
      (System.always Db Row (Memory × List Request)) (.empty, []) Sample.lapsedInvoice
      -- The sweep holds the invoice, a failure event closes the intent, and the sweep expires it.
      ([.start (Sample.tracked (.expireInvoice 180000 601)),
        .start (Sample.tracked (Sample.gatewayEvent ['F']))] ++ List.replicate 3 (.step 0) ++
        List.replicate 4 (.step 1) ++ List.replicate 5 (.step 0))
      (fun sys => Sample.outcomeOf sys = some (.failed, none) &&
        (sys.step 0).any fun sys' => Sample.outcomeOf sys' = some (.expired, none))
      (by
        intro p hp
        simp only [List.mem_append, List.mem_cons, List.mem_replicate, System.Event.start.injEq,
          List.not_mem_nil, reduceCtorEq, and_false, or_false] at hp
        rcases hp with rfl | rfl <;> exact Sample.tracked_tracked _)
      (by decide +kernel)
    simp only [Bool.and_eq_true, decide_eq_true_eq, Option.any_eq_true] at hq
    obtain ⟨hfailed, sys', hs, hexpired⟩ := hq
    exact ⟨sys, sys', hrun, hs, hfailed, hexpired⟩

end Giftly
