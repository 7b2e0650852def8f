import Giftly.Serial.Deals

/-!
# What a sweep gets done

`expire_stale` and `auto_approve_delivered` look at the oldest candidates only, as many as the limit
says. `list_expired_new` counts the intents of invoices among them, which the pass does not expire, and
`list_auto_approve_due` the orders that cannot be completed. A pass expires a lapsed top-up exactly when
one is among the intents that it lists, and completes an order exactly when one of the orders that it
lists can be completed (`sweeps_iff`).
-/

namespace Giftly

open Store

variable {refresh : Bool} {s : Settings} {now : Time} {limit : ℕ} {clock : Id → Time}
  {correlationIds : Id → Id} {d d' : Db} {m : Memory}

/-! ## Lapsed top-ups -/

/-- `NEW` payment intents meet their constraints, and no two intents have one payment link. -/
structure Books.IntentsOk (b : Books) : Prop where
  row : ∀ jid p, b.intents.get? jid = some p → p.status = .new → p.check = none
  link : ∀ jid kid p q, b.intents.get? jid = some p → b.intents.get? kid = some q →
    p.streampayPaymentLinkId = q.streampayPaymentLinkId → p.streampayPaymentLinkId.isSome →
    jid = kid

/-- A `NEW` intent of a top-up that has lapsed. -/
def LapsedTopup (now : Time) (d : Db) (jid : Id) : Prop :=
  ∃ p, d.intents.get? jid = some p ∧ p.status = .new ∧ p.expiresAt < now ∧
    p.purpose = .walletTopup

/-- The intents that `list_expired_new` returns. -/
def lapsedIntents (now : Time) (limit : ℕ) (d : Db) : List (Id × PaymentIntent) :=
  ((d.intents.rows.filter fun r =>
    r.2.status = .new && r.2.expiresAt < now).insertionSort fun a b =>
      a.2.expiresAt ≤ b.2.expiresAt).take limit

/-- `list_expired_new` is the query for the lapsed intents. -/
theorem listExpiredNew_eq :
    PaymentRepository.listExpiredNew now limit = Prog.query (lapsedIntents now limit) := rfl

/-- The intents listed are `NEW` and have lapsed. -/
theorem of_mem_lapsedIntents {jid : Id} {p : PaymentIntent}
    (h : (jid, p) ∈ lapsedIntents now limit d) :
    d.intents.get? jid = some p ∧ p.status = .new ∧ p.expiresAt < now := by
  have hsorted := List.mem_of_mem_take h
  rw [List.mem_insertionSort, List.mem_filter] at hsorted
  obtain ⟨hrow, hlapsed⟩ := hsorted
  simp only [Bool.and_eq_true, decide_eq_true_eq] at hlapsed
  exact ⟨Table.get?_eq_some.mpr hrow, hlapsed⟩

/-- A payment intent has expired. -/
def Db.Expired (d : Db) (jid : Id) : Prop :=
  ∃ p, d.intents.get? jid = some p ∧ p.status = .expired

/-- A pass of `expire_stale` expires a lapsed top-up. -/
def ExpiresTopup (refresh : Bool) (now : Time) (limit : ℕ) (clock : Id → Time) (d : Db) : Prop :=
  ∃ n d' jid, Expiry.expireStale refresh now limit clock d = .ok (n, d') ∧
    LapsedTopup now d jid ∧ d'.Expired jid

/-! ## One item -/

/-- What is known of the intents depends on the intents alone. -/
theorem Books.IntentsOk.congr {b b' : Books} (h : b.IntentsOk) (hp : b'.intents = b.intents) :
    b'.IntentsOk where
  row jid p hj hnew := h.row jid p (hp ▸ hj) hnew
  link jid kid p q hj hk := h.link jid kid p q (hp ▸ hj) (hp ▸ hk)

/-- An intent that is no longer `NEW`, and has the link that it had. -/
theorem Books.IntentsOk.leave {b b' : Books} (h : b.IntentsOk) {jid : Id} {p p' : PaymentIntent}
    (hp : b.intents.get? jid = some p) (hst : p'.status ≠ .new)
    (hlink : p'.streampayPaymentLinkId = p.streampayPaymentLinkId)
    (hb : b'.intents = b.intents) : (b'.setIntent jid p').IntentsOk where
  row k q hq hnew := by
    simp only [setIntent, Table.get?_set, hb] at hq
    split_ifs at hq
    · obtain rfl := Option.some.inj hq
      exact absurd hnew hst
    · exact h.row k q hq hnew
  link k l q r hq hr heq hsome := by
    -- Every row has the link that one had before.
    have hold : ∀ k q, (b'.setIntent jid p').intents.get? k = some q →
        ∃ q₀, b.intents.get? k = some q₀ ∧
          q₀.streampayPaymentLinkId = q.streampayPaymentLinkId := by
      intro k q hq
      simp only [setIntent, Table.get?_set, hb] at hq
      split_ifs at hq with hk
      · obtain rfl := Option.some.inj hq
        exact ⟨p, hk ▸ hp, hlink.symm⟩
      · exact ⟨q, hq, rfl⟩
    obtain ⟨q₀, hq₀, hqlink⟩ := hold k q hq
    obtain ⟨r₀, hr₀, hrlink⟩ := hold l r hr
    apply h.link k l q₀ r₀ hq₀ hr₀
    · rw [hqlink, hrlink, heq]
    · rw [hqlink]
      exact hsome

/-- A new intent with a link of its own. -/
theorem Books.IntentsOk.insert {b b' : Books} (h : b.IntentsOk) {jid : Id} {p : PaymentIntent}
    (hrow : b.OwnLink p) (hb : b'.intents = b.intents) : (b'.setIntent jid p).IntentsOk where
  row k q hq hnew := by
    simp only [setIntent, Table.get?_set, hb] at hq
    split_ifs at hq
    · obtain rfl := Option.some.inj hq
      exact hrow.1
    · exact h.row k q hq hnew
  link k l q r hq hr heq hsome := by
    simp only [setIntent, Table.get?_set, hb] at hq hr
    split_ifs at hq hr with hk hl hl
    · rw [hk, hl]
    · obtain rfl := Option.some.inj hq
      exact absurd heq.symm (hrow.2 l r hr)
    · obtain rfl := Option.some.inj hr
      exact absurd heq (hrow.2 k q hq)
    · exact h.link k l q r hq hr heq hsome

/-- What the expiry of an invoice does to the payment intents: one of the invoice's expires, or
nothing. -/
theorem Books.expiredInvoice_intents (b : Books) (iid : Id) (i : Invoice) :
    ((((b.expiredIntent iid i).released now iid).setInvoice iid
        { i with status := .expired }).reopened i.orderId).intents = b.intents ∨
      ∃ jid p, b.intents.get? jid = some p ∧ p.referenceInvoiceId = some iid ∧ p.status = .new ∧
        ((((b.expiredIntent iid i).released now iid).setInvoice iid
          { i with status := .expired }).reopened i.orderId).intents =
            (b.setIntent jid { p with status := .expired }).intents := by
  have hintents : ((((b.expiredIntent iid i).released now iid).setInvoice iid
      { i with status := .expired }).reopened i.orderId).intents =
        (b.expiredIntent iid i).intents := by
    rcases (((b.expiredIntent iid i).released now iid).setInvoice iid
      { i with status := .expired }).reopened_cases i.orderId with ⟨heq, -⟩ | ⟨o, -, -, heq⟩ <;>
      rw [heq] <;> rfl
  rw [hintents]
  rcases b.expiredIntent_cases iid i with ⟨heq, -⟩ | ⟨jid, p, b₁, hp, href, hnew, heq, hb₁⟩
  · exact .inl (congrArg Books.intents heq)
  · refine .inr ⟨jid, p, hp, href, hnew, ?_⟩
    rw [heq]
    rcases hb₁ with ⟨rfl, -⟩ | ⟨wid, w, -, -, rfl⟩ <;> rfl

/-- Whatever a request does, the constraints hold. -/
theorem Books.IntentsOk.step {b b' : Books} {r : Request} (h : b.IntentsOk)
    (heff : Effect s b r b') : b'.IntentsOk := by
  cases heff with
  -- Only a top-up and a payment through the gateway insert an intent.
  | createTopup hfree hp hamount hrow hu => exact h.insert hrow rfl
  | payGateway hi hst ho hwait hu hw hn hlt hopen hfree hp hb₁ hi' hcheck hrow =>
    refine h.insert hrow ?_
    rw [hb₁]
    split_ifs <;> rfl
  | webhookFailed hp => exact h.leave hp nofun rfl rfl
  | webhookTopup hp hnew hlink hev hpurpose hw hb =>
    exact h.leave hp nofun rfl hb.same.intents
  | webhookPaid hp => exact h.leave hp nofun rfl rfl
  | webhookSettle hp hnew hlink hev hpurpose href hi hst ho ht hw hf =>
    exact h.leave hp nofun rfl hf.same.intents
  | expireTopup hp => exact h.leave hp nofun rfl rfl
  | expireInvoice hi hst =>
    rcases b.expiredInvoice_intents _ _ with heq | ⟨jid, p, hp, -, -, heq⟩
    · exact h.congr heq
    · have hok : (b.setIntent jid { p with status := .expired }).IntentsOk :=
        h.leave hp nofun rfl rfl
      exact hok.congr heq
  | createInvoice ho ht hfree hsole hi hcheck hpromo =>
    cases hpromo <;> exact h.congr rfl
  | payWallet hi hst ho hwait hu hw hle hf => exact h.congr hf.same.intents
  | settle hr ho ht hi hio hst hpay => exact h.congr hpay.same.intents
  | _ => exact h.congr rfl

/-- The constraints hold in every state of a run. -/
theorem SerialRun.intentsOk {cond : Request → Db → Prop} {d₀ : Db}
    (hrun : SerialRun refresh s cond d₀ d) (hcond : ∀ r d, cond r d → r.trades = true)
    (h₀ : Opening d₀) : d.books.IntentsOk := by
  have hstart : d₀.books.IntentsOk := by
    have hnone : ∀ id, d₀.books.intents.get? id = none := fun id => by
      change d₀.intents.get? id = none
      rw [h₀.intents, Table.get?_empty]
    constructor <;> simp [hnone]
  exact hrun.inv (I := fun d => d.books.IntentsOk) hstart fun r _ hr h =>
    h.step (Request.exec_effect (hcond r _ hr))

/-- The constraints hold, and the top-ups are as they were. -/
structure KeepsTopups (d d' : Db) : Prop where
  ok : d'.books.IntentsOk
  topup : ∀ jid p, d.intents.get? jid = some p → p.purpose = .walletTopup →
    d'.intents.get? jid = some p

/-- The expiry of an invoice leaves the top-ups alone. -/
theorem KeepsTopups.expireInvoice {d₀ : Db} {iid : Id} (s : Settings) (h : KeepsTopups d₀ d) :
    KeepsTopups d₀ ((Expiry.expireInvoice refresh now iid).commit .empty d) := by
  refine commit_of_ends (I := KeepsTopups d₀) h ?_
  have heffect : Ends (Expiry.expireInvoice refresh now iid)
      (fun _ _ d' => Effect s d.books (.expireInvoice now iid) d'.books) .empty d :=
    expireInvoice_effect (.empty d)
  refine heffect.mono fun _ _ d' heff => ?_
  have hintents : d'.intents = d.intents ∨ ∃ jid p, d.intents.get? jid = some p ∧
      p.referenceInvoiceId = some iid ∧ p.status = .new ∧
        d'.books.intents = (d.books.setIntent jid { p with status := .expired }).intents := by
    generalize hb : d'.books = b' at heff
    change d'.books.intents = _ ∨ _
    rw [hb]
    cases heff with
    | idle => exact .inl rfl
    | expireInvoice hi hst => exact d.books.expiredInvoice_intents iid _
    | settle hr => nomatch hr
  rcases hintents with heq | ⟨jid, p, hp, href, hnew, heq⟩
  · constructor
    · exact h.ok.congr heq
    · intro j p hj hpurpose
      rw [heq]
      exact h.topup j p hj hpurpose
  · constructor
    · have hok : (d.books.setIntent jid { p with status := .expired }).IntentsOk :=
        h.ok.leave hp nofun rfl rfl
      exact hok.congr heq
    · intro j q hj hpurpose
      have hq := h.topup j q hj hpurpose
      -- the intent that has expired is no top-up, since it is for an invoice
      have hne : j ≠ jid := by
        rintro rfl
        obtain rfl : q = p := Option.some.inj (hq.symm.trans hp)
        have hcheck := h.ok.row j q hq hnew
        simp [PaymentIntent.check, violated_eq_none, hpurpose, href] at hcheck
      change d'.books.intents.get? j = some q
      rw [heq, Books.setIntent, Table.get?_set, if_neg hne]
      exact hq

/-- The expiry of a top-up: nothing, or its intent expires. -/
theorem expireTopupIntent_ends {jid : Id} :
    Ends (Expiry.expireTopupIntent jid) (fun done _ d' => (done = false → d' = d) ∧
      (done = true → d'.Expired jid) ∧ ∀ kid, d.Expired kid → d'.Expired kid) m d := by
  unfold Expiry.expireTopupIntent PaymentRepository.lockIntent
  simp only [ends_bind, ends_lock, ends_ret]
  cases hp : d.intents.get? jid with
  | none => exact ⟨fun _ => rfl, by simp, fun _ h => h⟩
  | some p =>
    simp only [ends_ite, ends_bind, Prog.pure_eq, ends_ret]
    -- The purpose is checked again under the lock.
    refine ⟨fun _ => ⟨fun _ => trivial, by simp, fun _ h => h⟩, fun _ => ?_⟩
    unfold PaymentRepository.markExpired
    refine flushIntent_ends hp (by simp [PaymentIntent.assign]) fun _ d₁ hd₁ => ?_
    have hintents : d₁.intents = d.intents.set jid { p with status := .expired } :=
      congrArg Books.intents hd₁
    have hself : d₁.Expired jid := by
      rw [Db.Expired, hintents, Table.get?_set, if_pos rfl]
      exact ⟨_, rfl, rfl⟩
    refine ⟨by simp, fun _ => hself, fun kid hkid => ?_⟩
    -- Another intent that was expired stays so.
    by_cases hk : kid = jid
    · exact hk ▸ hself
    · rw [Db.Expired, hintents, Table.get?_set, if_neg hk]
      exact hkid

/-- A top-up can be expired. -/
theorem expireTopupIntent_succeeds {jid : Id} {p : PaymentIntent} (h : d.books.IntentsOk)
    (hp : d.intents.get? jid = some p) (hnew : p.status = .new)
    (hpurpose : p.purpose = .walletTopup) :
    (Expiry.expireTopupIntent jid).succeeds m d = true := by
  -- The update is accepted: every check of the row, its unique link too, holds of the new row.
  have hcheck : ({ p with status := .expired } : PaymentIntent).check = none := h.row jid p hp hnew
  have hlink : ({ p with status := .expired } : PaymentIntent).soleLink d jid = true := by
    unfold PaymentIntent.soleLink
    cases hnone : p.streampayPaymentLinkId.isNone with
    | true => rfl
    | false =>
      have hsome : p.streampayPaymentLinkId.isSome := by
        rw [← Option.not_isNone, hnone]
        rfl
      rw [Bool.false_or, Option.isNone_iff_eq_none, Table.find?_eq_none]
      intro k q hq
      by_contra hne
      simp only [Bool.not_eq_false, Bool.and_eq_true, decide_eq_true_eq] at hne
      exact hne.1 (h.link jid k p q hp hq hne.2.symm hsome).symm
  have hassign : p.assign { p with status := .expired } p = { p with status := .expired } := by
    simp [PaymentIntent.assign]
  have hflush : Returns (PaymentRepository.markExpired jid p) m d := by
    unfold PaymentRepository.markExpired PaymentRepository.flush
    split_ifs
    · exact ⟨_, rfl⟩
    · unfold updateRow
      rw [returns_flush]
      dsimp only
      rw [hp]
      dsimp only
      rw [hassign, hcheck, hlink]
      rfl
  refine Prog.succeeds_of_returns ?_ ?_ <;>
    simp only [Expiry.expireTopupIntent, PaymentRepository.lockIntent, Prog.lock_bind, Prog.ret_bind,
      returns_lock, ends_lock, hp, hpurpose, ne_eq, not_true_eq_false, if_false]
  · exact returns_bind_of_forall hflush fun _ _ _ => ⟨_, rfl⟩
  · simp

/-! ## A pass over the lapsed intents -/

/-- The database after the invoices of a pass. -/
def afterInvoices (refresh : Bool) (now : Time) (limit : ℕ) (clock : Id → Time) (d : Db) : Db :=
  (pass .empty (fun id => Expiry.expireInvoice refresh (clock id) id)
    ((((d.invoices.rows.filter fun r =>
      r.2.status = .issued && (r.2.expiresAt.any fun t => t < now)).insertionSort fun a b =>
        a.2.expiresAt.getD 0 ≤ b.2.expiresAt.getD 0).take limit).map Prod.fst) d).2

/-- The top-ups that a pass lists. -/
def topupIds (now : Time) (limit : ℕ) (d : Db) : List Id :=
  ((lapsedIntents now limit d).filter fun r => r.2.purpose = .walletTopup).map Prod.fst

/-- A pass returns, and its second loop is over the top-ups that it lists. -/
theorem expireStale_eq (refresh : Bool) (now : Time) (limit : ℕ) (clock : Id → Time) (d : Db) :
    ∃ n, Expiry.expireStale refresh now limit clock d =
    .ok (n, (pass .empty Expiry.expireTopupIntent (topupIds now limit d)
      (afterInvoices refresh now limit clock d)).2) := by
  unfold Expiry.expireStale Expiry.candidates
  rw [listExpiredNew_eq]
  exact ⟨_, rfl⟩

/-- The first loop of a pass leaves the intents of top-ups. -/
theorem keepsTopups_afterInvoices (s : Settings) (h : d.books.IntentsOk) :
    KeepsTopups d (afterInvoices refresh now limit clock d) :=
  pass_inv (J := KeepsTopups d) (fun _ _ _ => KeepsTopups.expireInvoice s) ⟨h, fun _ _ hp _ => hp⟩

/-- The expiry of an intent that does nothing leaves the tables. -/
theorem traceless_expireTopupIntent (jid : Id) : (Expiry.expireTopupIntent jid).Traceless m :=
  .of_ends fun _ => expireTopupIntent_ends.mono fun _ _ _ h => h.1

/-- A pass of `expire_stale` expires a lapsed top-up exactly when it lists one. -/
theorem expiresTopup_iff (s : Settings) (h : d.books.IntentsOk) :
    ExpiresTopup refresh now limit clock d ↔
      ∃ r ∈ lapsedIntents now limit d, r.2.purpose = .walletTopup := by
  obtain ⟨n, hpass⟩ := expireStale_eq refresh now limit clock d
  have hkeeps : KeepsTopups d (afterInvoices refresh now limit clock d) :=
    keepsTopups_afterInvoices s h
  constructor
  · rintro ⟨n', d', jid, hd', ⟨p, hp, hnew, -, hpurpose⟩, q, hq, hexpired⟩
    by_contra hnone
    have hids : topupIds now limit d = [] := by
      rw [topupIds, List.map_eq_nil_iff, List.filter_eq_nil_iff]
      intro r hr htopup
      exact hnone ⟨r, hr, of_decide_eq_true htopup⟩
    rw [hpass, hids] at hd'
    obtain rfl := (Prod.mk.inj (Except.ok.inj hd')).2
    have hsame := hkeeps.topup jid p hp hpurpose
    obtain rfl : p = q := Option.some.inj (hsame.symm.trans hq)
    rw [hnew] at hexpired
    nomatch hexpired
  · rintro ⟨⟨jid, p⟩, hmem, hpurpose⟩
    have hlisted : jid ∈ topupIds now limit d :=
      List.mem_map.mpr ⟨(jid, p), List.mem_filter.mpr ⟨hmem, decide_eq_true hpurpose⟩, rfl⟩
    obtain ⟨hp, hnew, -⟩ := of_mem_lapsedIntents hmem
    have hkept := hkeeps.topup jid p hp hpurpose
    have hsucceeds := expireTopupIntent_succeeds (m := .empty) hkeeps.ok hkept hnew hpurpose
    -- some listed top-up is the first that succeeds, and what follows leaves it expired
    obtain ⟨kid, hkid, hfirst, rest, -, hstate⟩ :=
      pass_first (fun k _ => traceless_expireTopupIntent k) ⟨jid, hlisted, hsucceeds⟩
    have hexpired := Prog.commit_of_succeeds (Q := fun d : Db => d.Expired kid) hfirst
      (expireTopupIntent_ends.mono fun _ _ _ h => h.2.1)
    have hlast : ((pass .empty Expiry.expireTopupIntent rest
        ((Expiry.expireTopupIntent kid).commit .empty
          (afterInvoices refresh now limit clock d))).2).Expired kid := by
      refine pass_inv (J := fun d : Db => d.Expired kid) (fun k _ d₁ hd₁ => ?_) hexpired
      refine commit_of_ends (I := fun d : Db => d.Expired kid) hd₁ ?_
      exact expireTopupIntent_ends.mono fun _ _ _ h => h.2.2 kid hd₁
    obtain ⟨⟨kid', q⟩, hq, rfl⟩ := List.mem_map.mp hkid
    obtain ⟨hq, htopup⟩ := List.mem_filter.mp hq
    obtain ⟨hrow, hnew, hlapsed⟩ := of_mem_lapsedIntents hq
    exact ⟨n, _, kid', hpass, ⟨q, hrow, hnew, hlapsed, of_decide_eq_true htopup⟩, hstate ▸ hlast⟩

/-! ## A pass over the delivered orders -/

/-- A `DELIVERED` order past the cutoff whose approval succeeds on its own. -/
structure Completable (refresh : Bool) (s : Settings) (cutoff : Time) (clock : Id → Time)
    (correlationIds : Id → Id) (d : Db) (oid : Id) : Prop where
  due : ∃ o, d.orders.get? oid = some o ∧ o.status = .delivered ∧
    ∃ t, o.deliveredAt = some t ∧ t ≤ cutoff
  succeeds : (FulfillmentService.autoApprove refresh s (clock oid) (correlationIds oid)
    oid).succeeds .empty d = true

/-- The orders that `list_auto_approve_due` returns. -/
def dueOrders (cutoff : Time) (limit : ℕ) (d : Db) : List Id :=
  (((d.orders.rows.filter fun r =>
    r.2.status = .delivered && (r.2.deliveredAt.any fun t => t ≤ cutoff)).insertionSort fun a b =>
      a.2.deliveredAt.getD 0 ≤ b.2.deliveredAt.getD 0).take limit).map Prod.fst

/-- `list_auto_approve_due` is the query for the orders that are due. -/
theorem listAutoApproveDue_eq {cutoff : Time} :
    OrderRepository.listAutoApproveDue cutoff limit = Prog.query (dueOrders cutoff limit) := rfl

/-- The orders listed are due. -/
theorem of_mem_dueOrders {cutoff : Time} {oid : Id} (h : oid ∈ dueOrders cutoff limit d) :
    ∃ o, d.orders.get? oid = some o ∧ o.status = .delivered ∧
      ∃ t, o.deliveredAt = some t ∧ t ≤ cutoff := by
  obtain ⟨⟨oid', o⟩, hmem, rfl⟩ := List.mem_map.mp h
  have hsorted := List.mem_of_mem_take hmem
  rw [List.mem_insertionSort, List.mem_filter] at hsorted
  obtain ⟨hrow, hdue⟩ := hsorted
  simp only [Bool.and_eq_true, decide_eq_true_eq, Option.any_eq_true] at hdue
  obtain ⟨t, ht, hle⟩ := hdue.2
  exact ⟨o, Table.get?_eq_some.mpr hrow, hdue.1, t, ht, hle⟩

/-- An order is completed. -/
def Db.Completed (d : Db) (oid : Id) : Prop :=
  ∃ o, d.orders.get? oid = some o ∧ o.status = .completed

/-- A pass of `auto_approve_delivered` completes an order that can be completed. -/
def CompletesOrder (refresh : Bool) (s : Settings) (now : Time) (limit : ℕ) (clock : Id → Time)
    (correlationIds : Id → Id) (d : Db) : Prop :=
  ∃ n d' oid, autoApproveDelivered refresh s now limit clock correlationIds d = .ok (n, d') ∧
    Completable refresh s (FulfillmentService.autoApproveCutoff s now) clock correlationIds d oid ∧
      d'.Completed oid

/-- The approval of an order: nothing, or the order is completed. -/
theorem autoApprove_ends {c oid : Id} :
    Ends (FulfillmentService.autoApprove refresh s now c oid)
      (fun done _ d' => (done = false → d' = d) ∧ (done = true → d'.Completed oid)) .empty d := by
  unfold FulfillmentService.autoApprove OrderRepository.lock
  simp only [ends_bind, ends_lock, ends_ret]
  cases ho : d.orders.get? oid with
  | none => exact ⟨fun _ => rfl, by simp⟩
  | some o =>
    simp only [ends_ite, ends_bind, Prog.pure_eq, ends_ret]
    refine ⟨fun _ => ⟨fun _ => trivial, by simp⟩, fun _ => ?_⟩
    have hsettles : (Request.autoApprove now c oid).Settles d.books oid .completed := .auto
    refine (completeAndRelease_effect (.empty d) hsettles ho).mono fun _ _ _ h => ?_
    exact ⟨by simp, fun _ => h.2⟩

/-- Other orders stay completed. -/
theorem completed_autoApprove {c oid kid : Id} (h : d.Completed kid) :
    ((FulfillmentService.autoApprove refresh s now c oid).commit .empty d).Completed kid := by
  refine commit_of_ends (I := fun d : Db => d.Completed kid) h ?_
  refine (autoApprove_effect (.empty d)).mono fun _ _ d' heff => ?_
  -- The unit closes its own order or writes none.
  have horders : d'.orders = d.orders ∨
      ∃ o', d'.orders = d.orders.set oid o' ∧ o'.status = .completed := by
    generalize hb : d'.books = b' at heff
    change d'.books.orders = _ ∨ ∃ o', d'.books.orders = _ ∧ _
    rw [hb]
    cases heff with
    | idle => exact .inl rfl
    | settle hr ho ht hi hio hst hpay ho' =>
      cases hr with
      | auto =>
        refine .inr ⟨_, ?_, ho'.1⟩
        change Table.set _ oid _ = _
        rw [hpay.same.orders]
        rfl
  obtain ⟨o, ho, hst⟩ := h
  rcases horders with heq | ⟨o', heq, hst'⟩
  · exact ⟨o, heq ▸ ho, hst⟩
  · rw [Db.Completed, heq, Table.get?_set]
    split_ifs
    · exact ⟨o', rfl, hst'⟩
    · exact ⟨o, ho, hst⟩

/-- A pass of `auto_approve_delivered` completes an order exactly when it lists one that can be. -/
theorem completesOrder_iff : CompletesOrder refresh s now limit clock correlationIds d ↔
    ∃ oid ∈ dueOrders (FulfillmentService.autoApproveCutoff s now) limit d,
      Completable refresh s (FulfillmentService.autoApproveCutoff s now) clock correlationIds d
        oid := by
  have hpass : autoApproveDelivered refresh s now limit clock correlationIds d =
      .ok (pass .empty (fun oid => FulfillmentService.autoApprove refresh s (clock oid)
        (correlationIds oid) oid) (dueOrders (FulfillmentService.autoApproveCutoff s now) limit d)
          d) := by
    unfold autoApproveDelivered
    dsimp only
    rw [listAutoApproveDue_eq]
    rfl
  -- A unit that fails leaves no trace in the session, so the next one starts as if alone.
  have htrace : ∀ oid, (FulfillmentService.autoApprove refresh s (clock oid) (correlationIds oid)
      oid).Traceless .empty := fun _ =>
    .of_ends fun _ => autoApprove_ends.mono fun _ _ _ h => h.1
  constructor
  · -- If no listed order could be completed, the pass would change nothing.
    rintro ⟨n, d', oid, hd', ⟨⟨o, ho, hst, -⟩, -⟩, o', ho', hcompleted⟩
    by_contra hnone
    have hfail : ∀ kid ∈ dueOrders (FulfillmentService.autoApproveCutoff s now) limit d,
        (FulfillmentService.autoApprove refresh s (clock kid) (correlationIds kid) kid).succeeds
          .empty d = false := by
      intro kid hkid
      by_contra hsucceeds
      exact hnone ⟨kid, hkid, of_mem_dueOrders hkid, Bool.not_eq_false _ ▸ hsucceeds⟩
    rw [hpass, pass_idle (fun kid _ => htrace kid) hfail] at hd'
    obtain rfl := (Prod.mk.inj (Except.ok.inj hd')).2
    obtain rfl : o = o' := Option.some.inj (ho.symm.trans ho')
    rw [hst] at hcompleted
    nomatch hcompleted
  · -- The first order that can be is completed, and stays so.
    rintro ⟨oid, hlisted, hoid⟩
    obtain ⟨kid, hkid, hfirst, rest, -, hstate⟩ :=
      pass_first (fun kid _ => htrace kid) ⟨oid, hlisted, hoid.succeeds⟩
    have hcompleted := Prog.commit_of_succeeds (Q := fun d : Db => d.Completed kid) hfirst
      (autoApprove_ends.mono fun _ _ _ h => h.2)
    refine ⟨_, _, kid, hpass, ⟨of_mem_dueOrders hkid, hfirst⟩, ?_⟩
    rw [hstate]
    exact pass_inv (J := fun d : Db => d.Completed kid)
      (fun _ _ _ hd₁ => completed_autoApprove hd₁) hcompleted

/-! ## Both sweeps -/

/-- No sweep is starved: a pass gets something done when there is something to do. -/
structure NotStarved (refresh : Bool) (s : Settings) (now : Time) (limit : ℕ) (clock : Id → Time)
    (correlationIds : Id → Id) (d : Db) : Prop where
  topups : (∃ jid, LapsedTopup now d jid) → ExpiresTopup refresh now limit clock d
  orders : (∃ oid, Completable refresh s (FulfillmentService.autoApproveCutoff s now) clock
    correlationIds d oid) → CompletesOrder refresh s now limit clock correlationIds d

/-- Something that can be done is among the oldest candidates. -/
structure ListsWork (refresh : Bool) (s : Settings) (now : Time) (limit : ℕ) (clock : Id → Time)
    (correlationIds : Id → Id) (d : Db) : Prop where
  topups : (∃ jid, LapsedTopup now d jid) →
    ∃ r ∈ lapsedIntents now limit d, r.2.purpose = .walletTopup
  orders : (∃ oid, Completable refresh s (FulfillmentService.autoApproveCutoff s now) clock
    correlationIds d oid) → ∃ oid ∈ dueOrders (FulfillmentService.autoApproveCutoff s now) limit d,
      Completable refresh s (FulfillmentService.autoApproveCutoff s now) clock correlationIds d oid

/-- The sweeps are not starved exactly when the oldest candidates, as many as the limit says, have a
top-up among them, and an order that can be completed. -/
theorem sweeps_iff (refresh : Bool) (s : Settings) (now : Time) (limit : ℕ) (clock : Id → Time)
    (correlationIds : Id → Id) (h : d.books.IntentsOk) :
    NotStarved refresh s now limit clock correlationIds d ↔
      ListsWork refresh s now limit clock correlationIds d := by
  have htopups : ExpiresTopup refresh now limit clock d ↔ _ := expiresTopup_iff s h
  constructor
  · intro hserved
    constructor
    · exact fun hsome => htopups.mp (hserved.topups hsome)
    · exact fun hsome => completesOrder_iff.mp (hserved.orders hsome)
  · intro hlists
    constructor
    · exact fun hsome => htopups.mpr (hlists.topups hsome)
    · exact fun hsome => completesOrder_iff.mpr (hlists.orders hsome)

namespace Sample

/-- An order is placed, accepted, billed, paid through the gateway and delivered. -/
def fulfil (orderId invoiceId intentId : Id) (deliveryDate : ℤ) (deliveredAt : Time) : List Request :=
  [.createOrder 0 (fun _ => .ok ()) orderId 1 ⟨24, 46, deliveryDate, []⟩,
    .acceptOrder 0 true (orderId + 100) orderId 2,
    .createInvoice 0 ⟨invoiceId, invoiceId + 100, fun n => invoiceId + 200 + n⟩ orderId 2
      ⟨[⟨['g'], ⟨10000, -2⟩, 1, ⟨15, -2⟩, none⟩], ⟨500, -2⟩, none⟩,
    checkOut invoiceId intentId, report intentId paid 12679,
    .submitDelivery deliveredAt (fun _ => .ok ()) (some 0) orderId 2 [['k']]]

/-- An invoice that is cancelled with its payment open, and a top-up after it; and two orders that are
delivered one after the other, of which the first has the earlier delivery date. -/
def backlog : Db :=
  ([place, take, bill 601 none, checkOut 601 101, .cancelInvoice 0 601 2,
    .createTopup 10 gateway 102 202 1 (.finite ⟨10000, -2⟩)] ++
      fulfil 402 602 103 10 691200 ++ fulfil 403 603 104 20 691201).foldl
        (Request.exec false settings) opening

/-- The requests of the sample are a run. -/
theorem backlog_run : SerialRun false settings (fun r _ => r.trades = true) opening backlog := by
  apply SerialRun.start.foldl
  intro r hr d
  simp only [fulfil, List.cons_append, List.nil_append, List.mem_cons, List.not_mem_nil,
    or_false] at hr
  rcases hr with rfl | rfl | rfl | rfl | rfl | rfl | rfl | rfl | rfl | rfl | rfl | rfl | rfl | rfl |
    rfl | rfl | rfl | rfl <;> rfl

/-- The intents of the sample meet their constraints. -/
theorem backlog_ok : backlog.books.IntentsOk := backlog_run.intentsOk (fun _ _ h => h) opening_ok

/-- The top-up has lapsed four days after the deliveries. -/
theorem backlog_topup : LapsedTopup 1036800 backlog 102 := by
  have hany : (backlog.intents.get? 102).any (fun p => p.status = .new && p.expiresAt < 1036800 &&
      p.purpose = .walletTopup) = true := by decide +kernel
  obtain ⟨p, hp, hlapsed⟩ := (Option.any_eq_true _ _).mp hany
  simp only [Bool.and_eq_true, decide_eq_true_eq] at hlapsed
  exact ⟨p, hp, hlapsed.1.1, hlapsed.1.2, hlapsed.2⟩

/-- The second order can then be completed. -/
theorem backlog_order :
    Completable false settings (FulfillmentService.autoApproveCutoff settings 1036800)
      (fun _ => 1036800) id backlog 403 := by
  have hlisted : 403 ∈ dueOrders (FulfillmentService.autoApproveCutoff settings 1036800) 2
      backlog := by decide +kernel
  have hsucceeds : (FulfillmentService.autoApprove false settings 1036800 403 403).succeeds .empty
      backlog = true := by decide +kernel
  exact ⟨of_mem_dueOrders hlisted, hsucceeds⟩

end Sample

/-- A limit of two reaches the top-up and the second order. -/
theorem sweeps_limit_two :
    NotStarved false Sample.settings 1036800 2 (fun _ => 1036800) id Sample.backlog := by
  refine (sweeps_iff false Sample.settings 1036800 2 _ id Sample.backlog_ok).mpr ?_
  constructor
  · have hany : (lapsedIntents 1036800 2 Sample.backlog).any
        (fun r => r.2.purpose = .walletTopup) = true := by decide +kernel
    obtain ⟨r, hr, hpurpose⟩ := List.any_eq_true.mp hany
    exact fun _ => ⟨r, hr, of_decide_eq_true hpurpose⟩
  · exact fun _ => ⟨403, by decide +kernel, Sample.backlog_order⟩

/-- A limit of one reaches neither: the open intent of the cancelled invoice is older than the top-up,
and the order whose delivery date is over was delivered before the other. -/
theorem sweeps_starved : ∃ d,
    SerialRun false Sample.settings (fun r _ => r.trades = true) Sample.opening d ∧
    ((∃ jid, LapsedTopup 1036800 d jid) ∧ ¬ExpiresTopup false 1036800 1 (fun _ => 1036800) d) ∧
    ((∃ oid, Completable false Sample.settings
        (FulfillmentService.autoApproveCutoff Sample.settings 1036800) (fun _ => 1036800) id d oid) ∧
      ¬CompletesOrder false Sample.settings 1036800 1 (fun _ => 1036800) id d) ∧
    ¬NotStarved false Sample.settings 1036800 1 (fun _ => 1036800) id d := by
  -- The only listed intent is that of the cancelled invoice.
  have htopup : ¬ExpiresTopup false 1036800 1 (fun _ => 1036800) Sample.backlog := by
    rw [expiresTopup_iff Sample.settings Sample.backlog_ok]
    rintro ⟨r, hr, hpurpose⟩
    have hall : (lapsedIntents 1036800 1 Sample.backlog).all
        (fun r => r.2.purpose = .orderInvoice) = true := by decide +kernel
    have hinvoice := of_decide_eq_true (List.all_eq_true.mp hall r hr)
    rw [hpurpose] at hinvoice
    nomatch hinvoice
  -- The only listed order cannot be completed.
  have horder : ¬CompletesOrder false Sample.settings 1036800 1 (fun _ => 1036800) id
      Sample.backlog := by
    rw [completesOrder_iff]
    rintro ⟨oid, hoid, hcompletable⟩
    have hall : (dueOrders (FulfillmentService.autoApproveCutoff Sample.settings 1036800) 1
        Sample.backlog).all (fun oid => !(FulfillmentService.autoApprove false Sample.settings 1036800
          oid oid).succeeds .empty Sample.backlog) = true := by decide +kernel
    have hfail := List.all_eq_true.mp hall oid hoid
    have hsucceeds := hcompletable.succeeds
    dsimp only [id] at hsucceeds
    rw [hsucceeds] at hfail
    nomatch hfail
  exact ⟨Sample.backlog, Sample.backlog_run, ⟨⟨102, Sample.backlog_topup⟩, htopup⟩,
    ⟨⟨403, Sample.backlog_order⟩, horder⟩, fun h => htopup (h.topups ⟨102, Sample.backlog_topup⟩)⟩

end Giftly
