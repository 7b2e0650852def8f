import Giftly.Concurrency.Rules
import Giftly.Seed

/-!
# Promo slots under concurrency

The counter of a promo is the number of its redemptions that are not `RELEASED`. A reservation
raises it by one conditional `UPDATE`, which locks the promo's row, and counts the customer's
redemptions after that: whoever changes the redemptions of a promo that take a slot holds the lock
of the promo until the commit (`promoKeeps`). A settlement and a cancellation read the redemption of
their invoice without a lock, but they hold the lock of the invoice, and only its holder writes the
redemptions of an invoice.
-/

namespace Giftly

open Store

/-- The number of those that belong to a user. -/
def Db.takenBy (d : Db) (promoId userId : Id) : ℕ :=
  d.redemptions.count fun _ r => r.takes promoId && r.userId = userId

/-- It is what `count_user_redemptions` counts. -/
theorem Db.takenBy_eq (d : Db) (promoId userId : Id) :
    d.takenBy promoId userId = d.redemptions.count fun _ r =>
      r.promoId = promoId && r.userId = userId && r.status ≠ .released := by
  unfold Db.takenBy PromoRedemption.takes
  congr
  funext _ r
  exact Bool.and_right_comm _ _ _

/-- Counters and caps of the promos. -/
structure PromoOk (d : Db) : Prop where
  /-- The counter is the number of slots taken. -/
  used : ∀ pid p, d.promos.get? pid = some p → p.usedCount = d.taken pid
  /-- The global cap. -/
  cap : ∀ pid p n, d.promos.get? pid = some p → p.maxTotalUsages = some n → p.usedCount ≤ n
  /-- The cap for each user. -/
  user : ∀ pid p u, d.promos.get? pid = some p → (d.takenBy pid u : ℤ) ≤ p.maxUsagesPerUser
  /-- A redemption is of a promo that exists. -/
  promo : ∀ rid r, d.redemptions.get? rid = some r → ∃ p, d.promos.get? r.promoId = some p

/-- A redemption that is no longer `RESERVED` keeps its status. -/
def StatusFinal (d d' : Db) : Prop :=
  ∀ rid r, d.redemptions.get? rid = some r → r.status ≠ .reserved →
    ∃ r', d'.redemptions.get? rid = some r' ∧ r'.status = r.status

/-- What the locks of promos and invoices protect: no redemption takes a slot of the promo anew, and
the redemptions of the invoice stay. -/
def promoKeeps : Row → Db → Db → Prop
  | .promo pid, d, d' => ∀ rid r', d'.redemptions.get? rid = some r' → r'.takes pid = true →
    ∃ r, d.redemptions.get? rid = some r ∧ r.takes pid = true ∧ r.userId = r'.userId
  | .invoice iid, d, d' => ∀ rid r, r.invoiceId = iid →
    (d'.redemptions.get? rid = some r ↔ d.redemptions.get? rid = some r)
  | _, _, _ => True

/-- Nothing changes, which every lock allows. -/
theorem promoKeeps_refl (l : Row) (d : Db) : promoKeeps l d d := by
  cases l <;> simp only [promoKeeps]
  case promo pid => exact fun _ r' hr' ht => ⟨r', hr', ht, rfl⟩
  case invoice iid => exact fun _ _ _ => trivial

/-- What a lock protects is kept over two steps. -/
theorem promoKeeps_trans {l : Row} {d₁ d₂ d₃ : Db} (h₁ : promoKeeps l d₁ d₂)
    (h₂ : promoKeeps l d₂ d₃) : promoKeeps l d₁ d₃ := by
  cases l <;> simp only [promoKeeps] at *
  case promo pid =>
    intro rid r₃ hr₃ ht₃
    obtain ⟨r₂, hr₂, ht₂, hu₂⟩ := h₂ rid r₃ hr₃ ht₃
    obtain ⟨r₁, hr₁, ht₁, hu₁⟩ := h₁ rid r₂ hr₂ ht₂
    exact ⟨r₁, hr₁, ht₁, hu₁.trans hu₂⟩
  case invoice iid => exact fun rid r hr => (h₂ rid r hr).trans (h₁ rid r hr)

/-- The policy under which the promos keep their caps. -/
def promoPolicy : Policy where
  tables := [.wallets, .transactions, .orders, .conversations, .invoices, .items, .intents, .topups,
    .disputes, .promos, .redemptions, .withdrawals]
  inv := PromoOk
  keeps := promoKeeps
  keeps_refl := promoKeeps_refl
  keeps_trans := promoKeeps_trans
  guar := StatusFinal
  guar_refl _ _ r hr _ := ⟨r, hr, rfl⟩

namespace PromoProof

/-! ## Commits -/

section Commits

variable {d y : Db} {rid : Id} {r r' : PromoRedemption} {f : PromoRedemption → PromoRedemption}

/-- The columns of a redemption that its status does not touch. -/
def Kin (r r' : PromoRedemption) : Prop :=
  r'.promoId = r.promoId ∧ r'.userId = r.userId ∧ r'.invoiceId = r.invoiceId

/-- The database after a change of one redemption's status. -/
structure Rewrites (rid : Id) (r r' : PromoRedemption) (d y : Db) : Prop where
  row : d.redemptions.get? rid = some r
  table : ∃ f, f r = r' ∧ y.redemptions = d.redemptions.update rid f
  kin : Kin r r'
  reserved : r.status = .reserved

/-- The redemptions after one status was changed. -/
theorem Rewrites.get (h : Rewrites rid r r' d y) (j : Id) :
    y.redemptions.get? j = if j = rid then some r' else d.redemptions.get? j := by
  obtain ⟨f, hf, hy⟩ := h.table
  rw [hy, Table.get?_update]
  split_ifs with hj
  · rw [hj, h.row, Option.map_some, hf]
  · rfl

/-- The slots taken, after the change. -/
theorem Rewrites.count (h : Rewrites rid r r' d y) (p : Id → PromoRedemption → Bool) :
    (y.redemptions.count p : ℤ) =
      d.redemptions.count p - (if p rid r then 1 else 0) + if p rid r' then 1 else 0 := by
  obtain ⟨f, hf, hy⟩ := h.table
  rw [hy, Table.count_update _ _ f h.row, hf]

/-- A status that is changed was `RESERVED` before. -/
theorem Rewrites.final (h : Rewrites rid r r' d y) : StatusFinal d y := by
  intro j s hs hne
  by_cases hj : j = rid
  · subst hj
    obtain rfl : r = s := Option.some.inj (h.row.symm.trans hs)
    exact absurd h.reserved hne
  · exact ⟨s, by rw [h.get, if_neg hj]; exact hs, rfl⟩

/-- No other lock than that of the invoice protects what was changed, since no slot is taken
anew. -/
theorem Rewrites.keeps (h : Rewrites rid r r' d y) {l : Row} (hl : l ≠ .invoice r.invoiceId) :
    promoKeeps l d y := by
  cases l <;> simp only [promoKeeps]
  -- The promo's lock protects against new slots, and this one was taken before.
  case promo pid =>
    intro j s hs ht
    rw [h.get] at hs
    split_ifs at hs with hj
    · obtain rfl := Option.some.inj hs
      refine ⟨r, by rw [hj]; exact h.row, ?_, h.kin.2.1.symm⟩
      simp only [PromoRedemption.takes, Bool.and_eq_true, decide_eq_true_eq] at ht ⊢
      exact ⟨h.kin.1 ▸ ht.1, by rw [h.reserved]; decide⟩
    · exact ⟨s, hs, ht, rfl⟩
  case invoice iid =>
    intro j s hs
    have hne : r.invoiceId ≠ iid := fun heq => hl (by rw [heq])
    rw [h.get]
    split_ifs with hj
    · -- The redemption is of another invoice, before and after.
      subst hj
      constructor
      · intro heq
        obtain rfl := Option.some.inj heq
        exact absurd (h.kin.2.2.symm.trans hs) hne
      · intro heq
        rw [h.row] at heq
        obtain rfl := Option.some.inj heq
        exact absurd hs hne
    · rfl

/-- The promo of every redemption is there after the change. -/
theorem Rewrites.promo (h : Rewrites rid r r' d y) (hok : PromoOk d)
    (hp : ∀ pid p, d.promos.get? pid = some p → ∃ p', y.promos.get? pid = some p') :
    ∀ j s, y.redemptions.get? j = some s → ∃ p, y.promos.get? s.promoId = some p := by
  intro j s hs
  rw [h.get] at hs
  split_ifs at hs with hj
  · obtain rfl := Option.some.inj hs
    obtain ⟨p, hpr⟩ := hok.promo rid r h.row
    rw [h.kin.1]
    exact hp _ p hpr
  · obtain ⟨p, hpr⟩ := hok.promo j s hs
    exact hp _ p hpr

/-- A reservation is used up. -/
theorem ok_of_consume (h : Rewrites rid r r' d y) (hok : PromoOk d) (hp : y.promos = d.promos)
    (hc : r'.status = .consumed) : PromoOk y := by
  -- A consumed redemption counts as a reserved one does.
  have hsame : ∀ pid, r'.takes pid = r.takes pid := by
    intro pid
    simp only [PromoRedemption.takes, h.kin.1, hc, h.reserved]
    simp
  have htaken : ∀ pid, y.taken pid = d.taken pid := by
    intro pid
    have := h.count fun _ r => r.takes pid
    simp only [hsame] at this
    unfold Db.taken
    omega
  have htakenBy : ∀ pid u, y.takenBy pid u = d.takenBy pid u := by
    intro pid u
    have := h.count fun _ r => r.takes pid && r.userId = u
    simp only [hsame, h.kin.2.1] at this
    unfold Db.takenBy
    omega
  refine ⟨fun pid p hpr => ?_, fun pid p n hpr => ?_, fun pid p u hpr => ?_, ?_⟩
  · rw [hp] at hpr
    rw [htaken]
    exact hok.used pid p hpr
  · rw [hp] at hpr
    exact hok.cap pid p n hpr
  · rw [hp] at hpr
    rw [htakenBy]
    exact hok.user pid p u hpr
  · exact h.promo hok fun pid p hpr => ⟨p, by rw [hp]; exact hpr⟩

/-- A slot returns to the pool. -/
theorem ok_of_release (h : Rewrites rid r r' d y) (hok : PromoOk d)
    (hp : y.promos = d.promos.update r.promoId (Promo.counted (-1)))
    (hc : r'.status = .released) : PromoOk y := by
  -- The redemption counts for its promo before the release and for none after it.
  have hgone : ∀ pid, r'.takes pid = false := by
    intro pid
    simp [PromoRedemption.takes, hc]
  have htakes : ∀ pid, r.takes pid = decide (r.promoId = pid) := by
    intro pid
    simp [PromoRedemption.takes, h.reserved]
  have htaken : ∀ pid, (y.taken pid : ℤ) = d.taken pid - if r.promoId = pid then 1 else 0 := by
    intro pid
    have := h.count fun _ r => r.takes pid
    simp only [hgone, htakes, decide_eq_true_eq, Bool.false_eq_true, if_false, add_zero] at this
    exact this
  have htakenBy : ∀ pid u, (y.takenBy pid u : ℤ) ≤ d.takenBy pid u := by
    intro pid u
    have := h.count fun _ r => r.takes pid && r.userId = u
    simp only [hgone, Bool.false_and, Bool.false_eq_true, if_false, add_zero] at this
    unfold Db.takenBy
    split_ifs at this <;> omega
  -- Every promo row comes from one before, with its counter moved alike.
  have hback : ∀ pid p', y.promos.get? pid = some p' → ∃ p, d.promos.get? pid = some p ∧
      p'.usedCount = p.usedCount - (if r.promoId = pid then 1 else 0) ∧
      p'.maxTotalUsages = p.maxTotalUsages ∧ p'.maxUsagesPerUser = p.maxUsagesPerUser := by
    intro pid p' hp'
    rw [hp, Table.get?_update] at hp'
    split_ifs at hp' with hpid
    · obtain ⟨p, hpr, rfl⟩ := Option.map_eq_some_iff.mp hp'
      refine ⟨p, hpr, ?_, rfl, rfl⟩
      simp only [hpid, if_true, Promo.counted]
      omega
    · refine ⟨p', hp', ?_, rfl, rfl⟩
      rw [if_neg fun heq => hpid heq.symm]
      omega
  refine ⟨fun pid p' hp' => ?_, fun pid p' n hp' hn => ?_, fun pid p' u hp' => ?_, ?_⟩
  · obtain ⟨p, hpr, hused, -, -⟩ := hback pid p' hp'
    rw [hused, htaken, hok.used pid p hpr]
  · obtain ⟨p, hpr, hused, hmax, -⟩ := hback pid p' hp'
    have hcap := hok.cap pid p n hpr (hmax ▸ hn)
    split_ifs at hused <;> omega
  · obtain ⟨p, hpr, -, -, hmax⟩ := hback pid p' hp'
    have huser := hok.user pid p u hpr
    have hle := htakenBy pid u
    omega
  · refine h.promo hok fun pid p hpr => ?_
    rw [hp, Table.get?_update]
    split_ifs
    · exact ⟨_, by rw [hpr]; rfl⟩
    · exact ⟨p, hpr⟩

/-- A slot is taken, below both caps. -/
theorem ok_of_reserve {pid u : Id} {p : Promo} (hok : PromoOk d)
    (hrow : d.promos.get? pid = some p) (hfree : d.redemptions.get? rid = none)
    (hr : y.redemptions = d.redemptions.insert rid r)
    (hp : y.promos = d.promos.update pid (Promo.counted 1))
    (htakes : r.promoId = pid ∧ r.userId = u ∧ r.status = .reserved)
    (hcap : ∀ n, p.maxTotalUsages = some n → p.usedCount < n)
    (huser : (d.takenBy pid u : ℤ) < p.maxUsagesPerUser) : PromoOk y := by
  obtain ⟨hpid, hu, hst⟩ := htakes
  -- The new redemption counts for its own promo and user.
  have htake : ∀ q, r.takes q = decide (pid = q) := by
    intro q
    simp [PromoRedemption.takes, hpid, hst]
  have htaken : ∀ q, (y.taken q : ℤ) = d.taken q + if pid = q then 1 else 0 := by
    intro q
    unfold Db.taken
    rw [hr, Table.count_insert _ _ _ hfree]
    simp only [htake, decide_eq_true_eq]
  have htakenBy : ∀ q w, (y.takenBy q w : ℤ) =
      d.takenBy q w + if pid = q ∧ u = w then 1 else 0 := by
    intro q w
    unfold Db.takenBy
    rw [hr, Table.count_insert _ _ _ hfree]
    simp only [htake, hu, Bool.and_eq_true, decide_eq_true_eq]
  -- Every promo row comes from one before, with its counter moved alike.
  have hback : ∀ q p', y.promos.get? q = some p' → ∃ p₀, d.promos.get? q = some p₀ ∧
      p'.usedCount = p₀.usedCount + (if pid = q then 1 else 0) ∧
      p'.maxTotalUsages = p₀.maxTotalUsages ∧ p'.maxUsagesPerUser = p₀.maxUsagesPerUser := by
    intro q p' hp'
    rw [hp, Table.get?_update] at hp'
    split_ifs at hp' with hq
    · obtain ⟨p₀, hp₀, rfl⟩ := Option.map_eq_some_iff.mp hp'
      exact ⟨p₀, hp₀, by rw [if_pos hq.symm, Promo.counted], rfl, rfl⟩
    · refine ⟨p', hp', ?_, rfl, rfl⟩
      rw [if_neg fun heq => hq heq.symm, add_zero]
  refine ⟨fun q p' hp' => ?_, fun q p' n hp' hn => ?_, fun q p' w hp' => ?_, fun j s hs => ?_⟩
  · obtain ⟨p₀, hp₀, hused, -, -⟩ := hback q p' hp'
    rw [hused, htaken, hok.used q p₀ hp₀]
  · obtain ⟨p₀, hp₀, hused, hmax, -⟩ := hback q p' hp'
    have hold := hok.cap q p₀ n hp₀ (hmax ▸ hn)
    split_ifs at hused with hq
    · subst hq
      obtain rfl : p = p₀ := Option.some.inj (hrow.symm.trans hp₀)
      -- The promo of the redemption: the guard of the counter left room for one more.
      have := hcap n (hmax ▸ hn)
      omega
    · omega
  · obtain ⟨p₀, hp₀, -, -, hmax⟩ := hback q p' hp'
    have hold := hok.user q p₀ w hp₀
    have hby := htakenBy q w
    split_ifs at hby with hq
    · obtain ⟨rfl, rfl⟩ := hq
      obtain rfl : p = p₀ := Option.some.inj (hrow.symm.trans hp₀)
      omega
    · omega
  · have hexists : ∀ q p₀, d.promos.get? q = some p₀ → ∃ p', y.promos.get? q = some p' := by
      intro q p₀ hp₀
      rw [hp, Table.get?_update]
      split_ifs
      · exact ⟨_, by rw [hp₀]; rfl⟩
      · exact ⟨p₀, hp₀⟩
    rw [hr, Table.get?_insert] at hs
    cases hold : d.redemptions.get? j with
    | some s₀ =>
      rw [hold, Option.some_or, Option.some.injEq] at hs
      obtain ⟨p₀, hp₀⟩ := hok.promo j s₀ hold
      rw [← hs]
      exact hexists _ p₀ hp₀
    | none =>
      rw [hold, Option.none_or] at hs
      split_ifs at hs
      obtain rfl := Option.some.inj hs
      rw [hpid]
      exact hexists pid p hrow

/-- A redemption that takes a slot is Promo.counted. -/
theorem taken_pos (pid : Id) (hr : d.redemptions.get? rid = some r) (ht : r.takes pid = true) :
    0 < d.taken pid :=
  List.countP_pos_iff.mpr ⟨(rid, r), Table.get?_eq_some.mp hr, ht⟩

end Commits

/-! ## Assertions -/

/-- The tables other than the promos and the redemptions. -/
def others : List Tbl :=
  [.wallets, .transactions, .orders, .conversations, .invoices, .items, .intents, .topups,
    .disputes, .withdrawals]

/-- The policy reads promos and redemptions only. -/
theorem promoPolicy_reads : promoPolicy.Reads [.promos, .redemptions] where
  inv d d' h hinv := by
    have hp : d'.promos = d.promos := h .promos (by simp)
    have hr : d'.redemptions = d.redemptions := h .redemptions (by simp)
    obtain ⟨hused, hcap, huser, hpromo⟩ := hinv
    refine ⟨fun pid p hpr => ?_, fun pid p n hpr => ?_, fun pid p u hpr => ?_, fun rid r hrr => ?_⟩
    · rw [hp] at hpr
      rw [Db.taken, hr]
      exact hused pid p hpr
    · rw [hp] at hpr
      exact hcap pid p n hpr
    · rw [hp] at hpr
      rw [Db.takenBy, hr]
      exact huser pid p u hpr
    · rw [hr] at hrr
      rw [hp]
      exact hpromo rid r hrr
  grow _ _ _ _ _ := trivial
  guar d₀ d d' h hguar := by
    have hr : d'.redemptions = d.redemptions := h .redemptions (by simp)
    change StatusFinal d₀ d'
    unfold StatusFinal
    rw [hr]
    exact hguar
  keeps l d₀ d d' h hkeeps := by
    have hr : d'.redemptions = d.redemptions := h .redemptions (by simp)
    cases l <;> simp only [promoPolicy, promoKeeps] at hkeeps ⊢
    case promo pid => rwa [hr]
    case invoice iid => rwa [hr]

/-- A transaction that may commit may still do so after writes to other tables. -/
theorem robust_safe : Robust promoPolicy others promoPolicy.Safe :=
  Policy.robust_safe promoPolicy_reads (by decide)

/-- The transaction has written no promo and no redemption. -/
def Clean (v : TxView) : Prop :=
  ∀ d, (v.pending d).promos = d.promos ∧ (v.pending d).redemptions = d.redemptions

/-- Writes to other tables leave promos and redemptions unwritten. -/
theorem robust_clean : Robust promoPolicy others Clean :=
  .ofPending (B := fun d x => x.promos = d.promos ∧ x.redemptions = d.redemptions)
    fun _ x y hxy hx => by
      have hp : y.promos = x.promos := hxy.same .promos (by decide)
      have hr : y.redemptions = x.redemptions := hxy.same .redemptions (by decide)
      rw [hp, hr]
      exact hx

variable {v : TxView} {iid : Id} {now : Time} {s : Settings} {refresh : Bool}

/-- A transaction that has written neither promos nor redemptions may commit. -/
theorem safe_of_clean (h : Clean v) : promoPolicy.Safe v := by
  intro d hd
  have hsame : ∀ t ∈ [Tbl.promos, .redemptions], d.Same (v.pending d) t := by
    simpa [Db.Same] using h d
  refine ⟨promoPolicy_reads.inv d _ hsame hd.1, trivial, ?_, fun l _ => ?_⟩
  · exact promoPolicy_reads.guar d d _ hsame (promoPolicy.guar_refl d)
  · exact promoPolicy_reads.keeps l d d _ hsame (promoKeeps_refl l d)

/-- The transaction has written neither, and holds the lock of an invoice. -/
def Ready (iid : Id) (v : TxView) : Prop := Clean v ∧ .invoice iid ∈ v.held

/-- A locked invoice stays locked over writes to other tables. -/
theorem robust_ready : Robust promoPolicy others (Ready iid) :=
  robust_clean.and
    ⟨fun _ _ h _ => h, fun _ ls h => List.mem_append_right ls h, fun _ _ h => h,
      fun _ ls _ _ h => List.mem_append_right ls h⟩

/-- The transaction has seen the row of a promo. -/
def SeenPromo (pid : Id) (p : Promo) (v : TxView) : Prop :=
  ∃ row, v.last.promos.get? pid = some row ∧ row.frozen = p.frozen

/-- The row of a promo that was seen stays there, with its frozen columns, over any write. -/
theorem robust_seenPromo {pid : Id} {p : Promo} (ts : List Tbl) :
    Robust promoPolicy ts (SeenPromo pid p) :=
  .lasting (A := fun d => ∃ row, d.promos.get? pid = some row ∧ row.frozen = p.frozen)
    fun _ _ _ hev _ ⟨row, hrow, hfrozen⟩ => by
      obtain ⟨row', hrow', hfrozen'⟩ := hev.promos pid row hrow
      exact ⟨row', hrow', hfrozen'.trans hfrozen⟩

/-- The redemptions of an invoice stay while its lock is held. -/
theorem redemption_of_rely {held : List Row} {d d' : Db} {rid : Id} {r : PromoRedemption}
    (h : promoPolicy.around.rely held d d') (hl : .invoice iid ∈ held) (hi : r.invoiceId = iid)
    (hr : d.redemptions.get? rid = some r) : d'.redemptions.get? rid = some r := by
  have hkeeps : promoKeeps (.invoice iid) d d' := Policy.rely_keeps h hl
  exact (hkeeps rid r hi).mpr hr

/-- The status of a redemption is changed in the committed row. -/
theorem wp_setRedemptionStatus {rid : Id} {r : PromoRedemption} {st : PromoRedemptionStatus}
    {Q : Unit → TxView → Prop}
    (h : ∀ d, promoPolicy.around.rely v.held v.last d →
      Q () { v with
        held := .redemption rid :: v.held
        pending := Db.updateRedemption rid (r.assign (r.marked st now)) ∘ v.pending, last := d }) :
    wp promoPolicy.around (PromoRepository.setRedemptionStatus rid r st now) Q v :=
  wp_updateRow fun d _ hd _ _ _ => h d hd

/-- The `UPDATE` of a redemption that is as it was read. -/
theorem rewrites_of_update {rid : Id} {r : PromoRedemption} (st : PromoRedemptionStatus)
    (now : Time) {d x : Db} (hr : d.redemptions.get? rid = some r) (hreserved : r.status = .reserved)
    (hx : x.redemptions = d.redemptions.update rid (r.assign (r.marked st now))) :
    Rewrites rid r (r.marked st now) d x := by
  refine ⟨hr, ⟨r.assign (r.marked st now), ?_, hx⟩, ⟨rfl, rfl, rfl⟩, hreserved⟩
  simp [PromoRedemption.assign, PromoRedemption.marked]

/-- A commit that rewrote a redemption of a locked invoice. -/
theorem safe_of_rewrites (rid : Id) {r : PromoRedemption} (r' : PromoRedemption) (hi : r.invoiceId = iid)
    (hl : .invoice iid ∈ v.held)
    (h : ∀ d, promoPolicy.around.rely v.held v.last d →
      Rewrites rid r r' d (v.pending d) ∧ PromoOk (v.pending d)) : promoPolicy.Safe v := by
  intro d hd
  obtain ⟨hrewrites, hok⟩ := h d hd
  refine ⟨hok, trivial, hrewrites.final, fun l hl' => hrewrites.keeps ?_⟩
  rintro rfl
  rw [hi] at hl'
  exact hl' hl

/-! ## The promo service -/

/-- `consume` changes a `RESERVED` redemption to `CONSUMED`, and leaves the counter. -/
theorem wp_consume (hv : Ready iid v) :
    wp promoPolicy.around (PromoService.consume now iid) (fun _ v => promoPolicy.Safe v) v := by
  unfold PromoService.consume PromoRepository.getRedemptionByInvoice
  refine wp_query_bind fun d₁ hd₁ => ?_
  have hv₁ := robust_ready.rely v d₁ hv hd₁
  split
  · exact safe_of_clean hv₁.1
  rename_i rid r hfind
  obtain ⟨hr, hi⟩ := Table.find?_eq_some hfind
  rw [(hv.1 d₁).2] at hr
  have hi : r.invoiceId = iid := of_decide_eq_true hi
  rw [wp_when]
  refine ⟨fun hreserved => ?_, fun _ => safe_of_clean hv₁.1⟩
  refine wp_setRedemptionStatus fun d₂ hd₂ => ?_
  have hr₂ := redemption_of_rely hd₂ hv.2 hi hr
  refine safe_of_rewrites rid (r.marked .consumed now) hi (by simp [hv.2]) fun d hd => ?_
  -- The lock of the invoice has been held since the redemption was read.
  have hr₃ : d.redemptions.get? rid = some r := redemption_of_rely hd (by simp [hv.2]) hi hr₂
  have hrewrites := rewrites_of_update .consumed now
    (x := Db.updateRedemption rid (r.assign (r.marked .consumed now)) (v.pending d)) hr₃ hreserved
    (by simp only [Db.updateRedemption, (hv.1 d).2])
  exact ⟨hrewrites, ok_of_consume hrewrites hd.1 (hv.1 d).1 rfl⟩

/-- A conditional `UPDATE` of a promo's counter: the lock is granted on a row that meets the
condition, or there is none. -/
theorem wp_updateCounter {pid : Id} {cond : Promo → Bool} {n : ℤ} {Q : Option ℤ → TxView → Prop}
    (hnone : ∀ d, promoPolicy.around.rely v.held v.last d →
      ((v.pending d).promos.get? pid).filter cond = none → Q none { v with last := d })
    (hsome : ∀ d p d', promoPolicy.around.rely v.held v.last d →
      ((v.pending d).promos.get? pid).filter cond = some p →
      promoPolicy.around.rely (.promo pid :: v.held) d d' →
      Q (some (p.usedCount + n)) { v with
        held := .promo pid :: .promo pid :: v.held
        pending := Db.updatePromo pid (Promo.counted n) ∘ v.pending, last := d' }) :
    wp promoPolicy.around (PromoRepository.updateCounter pid cond n) Q v := by
  intro d hd
  refine ⟨fun htarget => ?_, fun l htarget _ => ?_⟩
  · have hfind := Option.map_eq_none_iff.mp htarget
    simp only [hfind, wp_ret]
    exact hnone d hd hfind
  · obtain ⟨p, hfind, rfl⟩ := Option.map_eq_some_iff.mp htarget
    simp only [hfind]
    rw [wp_bind]
    exact wp_updateRow fun d' _ hd' _ _ _ => hsome d p d' hd hfind hd'

/-- `release` changes a `RESERVED` redemption to `RELEASED`, and takes one off the counter. -/
theorem wp_release (hv : Ready iid v) :
    wp promoPolicy.around (PromoService.release now iid) (fun _ v => promoPolicy.Safe v) v := by
  unfold PromoService.release PromoRepository.getRedemptionByInvoice
  refine wp_query_bind fun d₁ hd₁ => ?_
  have hv₁ := robust_ready.rely v d₁ hv hd₁
  split
  · -- The invoice has no promo.
    exact safe_of_clean hv₁.1
  rename_i rid r hfind
  obtain ⟨hr, hi⟩ := Table.find?_eq_some hfind
  rw [(hv.1 d₁).2] at hr
  have hi : r.invoiceId = iid := of_decide_eq_true hi
  rw [wp_when]
  refine ⟨fun hreserved => ?_, fun _ => safe_of_clean hv₁.1⟩
  rw [wp_bind]
  -- The redemption is marked first, then the counter goes down.
  refine wp_setRedemptionStatus fun d₂ hd₂ => ?_
  have hr₂ := redemption_of_rely hd₂ hv.2 hi hr
  unfold PromoRepository.atomicRelease
  rw [wp_bind]
  refine wp_updateCounter (fun d₃ hd₃ hnone => ?_) fun d₃ p d₄ hd₃ _ hd₄ => ?_
  · -- The counter is positive, since the reservation is Promo.counted.
    have hr₃ : d₃.redemptions.get? rid = some r := redemption_of_rely hd₃ (by simp [hv.2]) hi hr₂
    obtain ⟨p, hp⟩ := hd₃.1.promo rid r hr₃
    have hpositive : 0 < p.usedCount := by
      have htaken := taken_pos r.promoId hr₃ (by simp [PromoRedemption.takes, hreserved])
      rw [hd₃.1.used r.promoId p hp]
      omega
    simp [Function.comp_apply, Db.updateRedemption, (hv.1 d₃).1, hp] at hnone
    omega
  · have hr₃ : d₃.redemptions.get? rid = some r := redemption_of_rely hd₃ (by simp [hv.2]) hi hr₂
    have hr₄ : d₄.redemptions.get? rid = some r := redemption_of_rely hd₄ (by simp [hv.2]) hi hr₃
    refine safe_of_rewrites rid (r.marked .released now) hi (by simp [hv.2]) fun d hd => ?_
    have hr₅ : d.redemptions.get? rid = some r := redemption_of_rely hd (by simp [hv.2]) hi hr₄
    have hrewrites := rewrites_of_update .released now
      (x := Db.updatePromo r.promoId (Promo.counted (-1))
        (Db.updateRedemption rid (r.assign (r.marked .released now)) (v.pending d))) hr₅ hreserved
      (by simp only [Db.updatePromo, Db.updateRedemption, (hv.1 d).2])
    refine ⟨hrewrites, ok_of_release hrewrites hd.1 ?_ rfl⟩
    change (v.pending d).promos.update r.promoId (Promo.counted (-1)) = _
    rw [(hv.1 d).1]

/-- The takers of a promo whose lock is held only leave. -/
theorem takenBy_of_rely {held : List Row} {d d' : Db} {pid : Id} (u : Id)
    (h : promoPolicy.around.rely held d d') (hl : .promo pid ∈ held) :
    d'.takenBy pid u ≤ d.takenBy pid u := by
  have hkeeps : promoKeeps (.promo pid) d d' := Policy.rely_keeps h hl
  have hle : d'.takenBy pid u ≤ d.takenBy pid u + ([] : List Id).length := by
    refine Table.count_le fun j r hr ht => ?_
    simp only [Bool.and_eq_true, decide_eq_true_eq] at ht ⊢
    obtain ⟨r₀, hr₀, ht₀, hu₀⟩ := hkeeps j r hr ht.1
    exact .inr ⟨r₀, hr₀, ht₀, hu₀.trans ht.2⟩
  simpa using hle

/-- A commit that took a slot, under the locks of the promo and the invoice. -/
theorem safe_of_reserve (rid : Id) {pid u : Id} {r : PromoRedemption} (hi : .invoice r.invoiceId ∈ v.held)
    (hl : .promo pid ∈ v.held) (htakes : r.promoId = pid ∧ r.userId = u ∧ r.status = .reserved)
    (hfree : ∀ d, promoPolicy.around.rely v.held v.last d → d.redemptions.get? rid = none)
    (htables : ∀ d, (v.pending d).redemptions = d.redemptions.insert rid r ∧
      (v.pending d).promos = d.promos.update pid (Promo.counted 1))
    (hroom : ∀ d, promoPolicy.around.rely v.held v.last d → ∃ p, d.promos.get? pid = some p ∧
      (∀ n, p.maxTotalUsages = some n → p.usedCount < n) ∧
      (d.takenBy pid u : ℤ) < p.maxUsagesPerUser) : promoPolicy.Safe v := by
  intro d hd
  obtain ⟨hr, hp⟩ := htables d
  obtain ⟨p, hrow, hcap, huser⟩ := hroom d hd
  have hget : ∀ j, (v.pending d).redemptions.get? j =
      if j = rid then some r else d.redemptions.get? j := by
    intro j
    rw [hr, Table.get?_insert]
    split_ifs with hj
    · rw [hj, hfree d hd, Option.none_or]
    · rw [Option.or_none]
  -- What the reservation must respect: the invariant, the redemptions there, and the locks of
  -- others.
  refine ⟨ok_of_reserve hd.1 hrow (hfree d hd) hr hp htakes hcap huser, trivial, ?_, ?_⟩
  · intro j s hs _
    refine ⟨s, ?_, rfl⟩
    rw [hget, if_neg]
    · exact hs
    · rintro rfl
      rw [hfree d hd] at hs
      cases hs
  · intro l hl'
    cases l <;> simp only [promoPolicy, promoKeeps]
    case promo q =>
      intro j s hs ht
      rw [hget] at hs
      split_ifs at hs with hj
      · -- The new redemption is of the promo whose lock is held.
        obtain rfl := Option.some.inj hs
        simp only [PromoRedemption.takes, htakes.1, Bool.and_eq_true, decide_eq_true_eq] at ht
        rw [← ht.1] at hl'
        exact absurd hl hl'
      · exact ⟨s, hs, ht, rfl⟩
    case invoice j =>
      intro k s hs
      rw [hget]
      split_ifs with hk
      · rw [hk, hfree d hd]
        constructor
        · intro heq
          obtain rfl := Option.some.inj heq
          rw [hs] at hi
          exact absurd hi hl'
        · intro heq
          cases heq
      · rfl

/-- `reserve` takes a slot while the counter is below the cap, and inserts one redemption. -/
theorem wp_reserve {rid pid u oid : Id} {p : Promo} {n : ℤ} (hv : Ready iid v)
    (hseen : SeenPromo pid p v) :
    wp promoPolicy.around (PromoService.reserve now rid pid p u iid oid n)
      (fun _ v => promoPolicy.Safe v) v := by
  unfold PromoService.reserve PromoRepository.atomicReserve
  rw [wp_bind]
  refine wp_updateCounter (fun _ _ _ => wp_require_bind fun h => absurd h Bool.false_ne_true)
    fun d₁ row d₂ hd₁ hfind hd₂ => ?_
  obtain ⟨hget, hclaim⟩ := Option.filter_eq_some_iff.mp hfind
  rw [(hv.1 d₁).1] at hget
  refine wp_require_bind fun _ => wp_query_bind fun d₃ hd₃ => wp_require_bind fun hlt => ?_
  refine wp_insertRow fun d₄ hd₄ hfree _ => ?_
  -- The lock of the promo was granted at `d₁`, so its row stays, and its takers only leave.
  have hpromo : ∀ {held : List Row} {a b : Db}, promoPolicy.around.rely held a b →
      .promo pid ∈ held → b.promos.get? pid = a.promos.get? pid := fun h hl => Policy.rely_same h hl
  have h₂ := (hpromo hd₂ (by simp)).trans hget
  have h₃ := (hpromo hd₃ (by simp)).trans h₂
  have h₄ := (hpromo hd₄ (by simp)).trans h₃
  have hmax : row.maxUsagesPerUser = p.maxUsagesPerUser := by
    obtain ⟨row₀, hrow₀, hfrozen⟩ := (robust_seenPromo []).rely v d₁ hseen hd₁
    obtain rfl : row₀ = row := Option.some.inj (hrow₀.symm.trans hget)
    have hmax : row₀.frozen.maxUsagesPerUser = p.frozen.maxUsagesPerUser := by rw [hfrozen]
    exact hmax
  have hcount : (d₃.takenBy pid u : ℤ) < row.maxUsagesPerUser := by
    rw [hmax, Db.takenBy_eq, ← (hv.1 d₃).2]
    exact hlt
  have hcap : ∀ m, row.maxTotalUsages = some m → row.usedCount < m := by
    intro m hm
    simp only [PromoRepository.claimable, hm, Option.all_some, Bool.and_eq_true,
      decide_eq_true_eq] at hclaim
    exact hclaim.2
  have hmine : .invoice iid ∈ v.held := hv.2
  refine safe_of_reserve rid (r := ⟨pid, u, iid, oid, n, .reserved, none, none⟩) (by simp [hmine])
    (by simp) ⟨rfl, rfl, rfl⟩ (fun d hd => ?_) (fun d => ?_) fun d hd => ?_
  · have hsame : d.redemptions.get? rid = d₄.redemptions.get? rid :=
      Policy.rely_same hd (l := .redemption rid) (by simp)
    rw [hsame]
    simpa only [Function.comp_apply, Db.updatePromo, (hv.1 d₄).2] using hfree
  · simp only [Function.comp_apply, Db.insertRedemption, Db.updatePromo, hv.1 d, and_self]
  · refine ⟨row, (hpromo hd (by simp)).trans h₄, hcap, ?_⟩
    change (d.takenBy pid u : ℤ) < row.maxUsagesPerUser
    have hle₄ : d₄.takenBy pid u ≤ d₃.takenBy pid u := takenBy_of_rely u hd₄ (by simp)
    have hle : d.takenBy pid u ≤ d₄.takenBy pid u := takenBy_of_rely u hd (by simp)
    omega

/-! ## Requests -/

/-- The promo that a new invoice uses was read. -/
def Chosen (x : Option (Id × Promo)) (v : TxView) : Prop :=
  ∀ pid p, x = some (pid, p) → SeenPromo pid p v

/-- The promo that was chosen stays there over any write. -/
theorem robust_chosen {ts : List Tbl} (x : Option (Id × Promo)) :
    Robust promoPolicy ts (Chosen x) :=
  .all fun _ => .all fun _ => .all fun _ => robust_seenPromo ts

/-- The promo that a new invoice uses was read, and nothing was written. -/
theorem wp_promoFor {u : Id} {x : InvoiceService.NewInvoiceInput} (hv : Clean v) :
    wp promoPolicy.around (InvoiceService.promoFor now u x) (fun y v => Clean v ∧ Chosen y v) v := by
  unfold InvoiceService.promoFor
  split
  · exact ⟨hv, fun _ _ h => by cases h⟩
  refine wp_ofExcept_bind fun base _ => ?_
  unfold PromoService.validate PromoRepository.getByCode PromoRepository.countUserRedemptions
  rw [wp_bind]
  refine wp_query_bind fun d hd => ?_
  have hv' := robust_clean.rely v d hv hd
  split
  · trivial
  rename_i pid p hfind
  have hrow := (Table.find?_eq_some hfind).1
  rw [(hv d).1] at hrow
  -- The row is the one that the tables had at that read.
  have hseen : SeenPromo pid p { v with last := d } := ⟨p, hrow, rfl⟩
  refine wp_require_bind fun _ => wp_require_bind fun _ => wp_require_bind fun _ => ?_
  refine wp_require_bind fun _ => wp_require_bind fun _ => ?_
  refine (robust_clean.and (robust_seenPromo others)).query_bind ⟨hv', hseen⟩
    fun _ v'' hv'' _ _ => wp_require_bind fun _ => wp_ofExcept_bind fun _ _ => ?_
  refine ⟨hv''.1, fun q p' heq => ?_⟩
  obtain ⟨rfl, rfl⟩ : pid = q ∧ p = p' := by simpa using heq
  exact hv''.2

/-- The rows of a new invoice. The lock of the invoice is that of its `INSERT`. -/
theorem wp_writeInvoice {ids : InvoiceService.NewIds} {o k u : Id} {x : Option (Id × Promo)}
    {y : PricingResult} (hv : Clean v) (hx : Chosen x v) :
    wp promoPolicy.around (InvoiceService.writeInvoice s now ids o k u x y)
      (fun _ v => promoPolicy.Safe v) v := by
  unfold InvoiceService.writeInvoice
  rw [wp_bind]
  refine wp_insertRow fun d hd _ _ => ?_
  -- The insert locks the id of the new invoice, which nobody else can know.
  have hready : Ready ids.invoiceId { v with
      held := [.invoice ids.invoiceId, .activeInvoice o] ++ v.held
      pending := Db.insertInvoice ids.invoiceId
        (InvoiceRepository.draft o k y (x.map (·.1)) (x.map (·.2.code))) ∘ v.pending
      last := d } := ⟨fun d => hv d, by simp⟩
  have hrobust : Robust promoPolicy others (Chosen x) := robust_chosen x
  have hstable : Robust promoPolicy others (Ready ids.invoiceId) := robust_ready
  have hchosen := hrobust.rely v d hx hd
  have hboth := hstable.and hrobust
  refine hboth.wp_bind writesTo_addItems (by decide) ⟨hready, hchosen⟩ fun _ v' hv' => ?_
  rw [wp_bind]
  refine wp_mono (fun _ v hv => robust_safe.wp_last writesTo_flushInvoice (by decide) hv
    fun _ _ h => h) ?_
  unfold InvoiceService.reservePromo
  split
  · exact safe_of_clean hv'.1.1
  · exact wp_reserve hv'.1 (hv'.2 _ _ rfl)

/-- `create_invoice` commits a state within the caps. -/
theorem wp_createInvoice {ids : InvoiceService.NewIds} {o k : Id}
    {x : InvoiceService.NewInvoiceInput} (hv : Clean v) :
    wp promoPolicy.around (InvoiceService.createInvoice s now ids o k x)
      (fun _ v => promoPolicy.Safe v) v := by
  unfold InvoiceService.createInvoice OrderRepository.getForActor
  refine robust_clean.query_bind hv fun _ v hv _ _ => ?_
  split
  · trivial
  refine robust_clean.wp_bind writesTo_keepOrder (List.Subset.refl _) hv fun _ v hv => ?_
  refine wp_assertTransition_bind fun _ => robust_clean.query_bind hv fun _ v hv _ _ => ?_
  refine wp_require_bind fun _ => wp_ofExcept_bind fun _ _ => ?_
  rw [wp_bind]
  refine wp_mono (fun promo v hv => ?_) (wp_promoFor hv)
  refine wp_ofExcept_bind fun result _ => wp_require_bind fun _ => ?_
  rw [wp_bind]
  refine wp_mono (fun _ v hv => ?_) (wp_writeInvoice hv.1 hv.2)
  exact robust_safe.wp_last writesTo_flushOrder (by decide) hv fun _ _ h => h

/-- `cancel_invoice` commits a state within the caps. -/
theorem wp_cancelInvoice {k : Id} (hv : Clean v) :
    wp promoPolicy.around (InvoiceService.cancelInvoice now iid k)
      (fun _ v => promoPolicy.Safe v) v := by
  unfold InvoiceService.cancelInvoice
  rw [wp_bind]
  refine wp_lockForCourier (fun _ _ => trivial) fun d i hd _ => wp_require_bind fun _ => ?_
  have hready : Ready iid { v with held := .invoice iid :: v.held, last := d } := ⟨hv, by simp⟩
  refine robust_ready.wp_bind writesTo_lockOrder (List.Subset.refl _) hready fun x v hv => ?_
  split
  · trivial
  rw [wp_bind]
  refine wp_mono (fun _ v hv => ?_) (wp_release hv)
  refine wp_assertTransition_bind fun _ => ?_
  refine robust_safe.wp_bind writesTo_flushOrder (by decide) hv fun _ v hv => ?_
  exact robust_safe.wp_last writesTo_flushInvoice (by decide) hv fun _ _ h => h

/-- `_expire_invoice` commits a state within the caps. -/
theorem wp_expireInvoice (hv : Clean v) :
    wp promoPolicy.around (Expiry.expireInvoice refresh now iid)
      (fun _ v => promoPolicy.Safe v) v := by
  unfold Expiry.expireInvoice
  rw [wp_bind]
  refine wp_lockInvoice (fun _ _ => safe_of_clean hv) fun d i hd _ => ?_
  have hready : Ready iid { v with held := .invoice iid :: v.held, last := d } := ⟨hv, by simp⟩
  rw [wp_ite]
  refine ⟨fun _ => safe_of_clean hready.1, fun _ => ?_⟩
  refine robust_ready.query_bind hready fun _ v hv _ _ => ?_
  refine robust_ready.wp_bind writesTo_expireIntent (by decide) hv fun _ v hv => ?_
  rw [wp_bind]
  refine wp_mono (fun _ v hv => ?_) (wp_release hv)
  refine robust_safe.wp_bind writesTo_flushInvoice (by decide) hv fun _ v hv => ?_
  refine robust_safe.wp_bind writesTo_lockOrder (List.Subset.refl _) hv fun x v hv => ?_
  split
  · exact hv
  refine robust_safe.wp_bind (Prog.writes_when _ (.bind writesTo_assertTransition fun _ =>
    writesTo_flushOrder)) (by decide) hv fun _ _ h => h

/-- The flush of the settled invoice takes its lock, when the caller has not locked it. -/
theorem wp_settleInvoiceRecord {i : Invoice} {o : Id} {y : Order} {m : PaymentMethod} {a b : ℤ}
    (hv : Clean v) (hne : i.status ≠ .paid) :
    wp promoPolicy.around (PaymentService.settleInvoiceRecord now iid i o y m a b)
      (fun _ v => promoPolicy.Safe v) v := by
  unfold PaymentService.settleInvoiceRecord
  refine wp_ofExcept_bind fun _ _ => wp_ofExcept_bind fun _ _ => wp_assertTransition_bind fun _ => ?_
  refine robust_clean.wp_bind writesTo_flushOrder (by decide) hv fun _ v hv => ?_
  rw [wp_bind]
  refine wp_flushInvoice (fun heq => ?_) fun d _ hd _ => ?_
  · exact absurd (congrArg Invoice.status heq).symm hne
  · exact wp_consume ⟨fun d => hv d, by simp⟩

/-- `pay_invoice` commits a state within the caps. -/
theorem wp_payInvoice {x : PaymentService.PayInput} {u : Id} (hv : Clean v) :
    wp promoPolicy.around (PaymentService.payInvoice refresh s now x iid u)
      (fun _ v => promoPolicy.Safe v) v := by
  unfold PaymentService.payInvoice InvoiceRepository.getForActor
  refine robust_clean.query_bind hv fun _ v hv _ _ => ?_
  split
  · trivial
  rename_i i _
  refine robust_clean.wp_bind writesTo_keepInvoice (List.Subset.refl _) hv fun _ v hv => ?_
  refine wp_require_bind fun hissued => wp_require_bind fun _ => ?_
  refine robust_clean.wp_bind writesTo_lockOrder (List.Subset.refl _) hv fun y v hv => ?_
  split
  · trivial
  refine wp_require_bind fun _ => ?_
  refine robust_clean.wp_bind writesTo_getByUser (List.Subset.refl _) hv fun z v hv => ?_
  split
  · trivial
  refine wp_ofExcept_bind fun _ _ => ?_
  refine robust_clean.wp_bind writesTo_availableBalance (List.Subset.refl _) hv fun _ v hv => ?_
  refine wp_ofExcept_bind fun _ _ => ?_
  rw [wp_ite]
  constructor
  · -- Only a payment from the wallet settles the invoice and consumes its redemption.
    intro _
    unfold PaymentService.payFromWallet
    refine robust_clean.wp_bind writesTo_fundEscrow (by decide) hv fun _ v hv => ?_
    rw [wp_bind]
    exact wp_settleInvoiceRecord hv (by rw [hissued]; decide)
  · intro _
    exact robust_clean.wp_last writesTo_payThroughGateway (by decide) hv
      fun _ _ h => safe_of_clean h

/-- The settlement of an intent commits a state within the caps. -/
theorem wp_settleIntent {c id : Id} {p : PaymentIntent} (hv : Clean v) :
    wp promoPolicy.around (PaymentService.settleIntent refresh now c id p)
      (fun _ v => promoPolicy.Safe v) v := by
  unfold PaymentService.settleIntent
  split
  · exact robust_clean.wp_last writesTo_settleTopup (by decide) hv fun _ _ h => safe_of_clean h
  unfold PaymentService.settleInvoice
  split
  · trivial
  refine robust_clean.wp_bind writesTo_lockInvoice (List.Subset.refl _) hv fun x v hv => ?_
  split
  · trivial
  rename_i i
  rw [wp_ite]
  -- An invoice that is paid already is left alone.
  refine ⟨fun _ => safe_of_clean hv, fun hne => ?_⟩
  refine robust_clean.wp_bind writesTo_lockOrder (List.Subset.refl _) hv fun y v hv => ?_
  split
  · trivial
  refine robust_clean.wp_bind writesTo_getByUser (List.Subset.refl _) hv fun z v hv => ?_
  split
  · trivial
  refine robust_clean.wp_bind writesTo_fundEscrow (by decide) hv fun _ v hv => ?_
  exact wp_settleInvoiceRecord hv hne

/-- `handle_webhook` commits a state within the caps. -/
theorem wp_handleWebhook {a b : Bool} {c : Id} {e : Except Err PaymentService.WebhookEvent}
    (hv : Clean v) :
    wp promoPolicy.around (PaymentService.handleWebhook refresh now a b c e)
      (fun _ v => promoPolicy.Safe v) v := by
  refine wp_require_bind fun _ => wp_ofExcept_bind fun event _ => wp_require_bind fun _ => ?_
  unfold PaymentService.settleLocked
  refine robust_clean.wp_bind writesTo_lockByLink (List.Subset.refl _) hv fun x v hv => ?_
  split
  · trivial
  rw [wp_ite]
  refine ⟨fun _ => safe_of_clean hv, fun _ => ?_⟩
  rw [wp_ite]
  constructor
  · intro _
    exact robust_clean.wp_bind writesTo_flushIntent (by decide) hv fun _ v hv => safe_of_clean hv
  · intro _
    refine wp_ofExcept_bind fun _ _ => wp_ofExcept_bind fun _ _ => wp_require_bind fun _ => ?_
    rw [wp_bind]
    refine wp_mono (fun _ v hv => ?_) (wp_settleIntent hv)
    exact robust_safe.wp_bind writesTo_flushIntent (by decide) hv fun _ _ hv => hv

/-- Every request is safe. -/
theorem wp_request (refresh : Bool) (s : Settings) (r : Request) (d : Db) :
    wp promoPolicy.around (r.tx refresh s) (fun _ v => promoPolicy.Safe v) (.start .empty d) := by
  have hclean : Clean (.start .empty d) := fun _ => ⟨rfl, rfl⟩
  have hother : r.tables ⊆ others → wp promoPolicy.around (r.tx refresh s)
      (fun _ v => promoPolicy.Safe v) (.start .empty d) := fun h =>
    Policy.wp_safe_of_writesTo promoPolicy_reads (by decide) ((r.writesTo refresh s).mono h)
  cases r with
  | createInvoice => exact wp_createInvoice hclean
  | cancelInvoice => exact wp_cancelInvoice hclean
  | payInvoice => exact wp_void (wp_payInvoice hclean)
  | handleWebhook => exact wp_void (wp_handleWebhook hclean)
  | expireInvoice => exact wp_void (wp_expireInvoice hclean)
  | _ => exact hother (by simp [Request.tables, others])

/-- Every request follows the policy. -/
theorem follows {p : Tx Unit} (hp : Requested refresh s (fun _ => True) p) :
    promoPolicy.discipline.Follows .empty p := by
  obtain ⟨r, -, rfl⟩ := hp
  refine Policy.follows (r.writesTo refresh s) (fun t _ => ?_) fun d _ => wp_request refresh s r d
  cases t <;> decide

end PromoProof

/-! ## Runs -/

/-- In every run of requests, whatever is interleaved and rolled back: the counter of a promo is the
number of its `RESERVED` and `CONSUMED` redemptions, it is within the global cap, no user has more
redemptions than the promo allows, and no step changes the status of a redemption that is `CONSUMED`
or `RELEASED`. -/
theorem promo_caps_hold (refresh : Bool) (s : Settings) (d₀ : Db) (h₀ : PromoOk d₀)
    (sys : System Db Row Err Memory Unit)
    (hrun : System.Run (Requested refresh s fun _ => True) (System.always Db Row Memory) .empty d₀
      sys) :
    (∀ pid p, sys.db.promos.get? pid = some p →
      p.usedCount = (sys.db.redemptions.count fun _ r =>
        r.promoId = pid && (r.status = .reserved || r.status = .consumed)) ∧
      (∀ n, p.maxTotalUsages = some n → p.usedCount ≤ n) ∧
      ∀ u, ((sys.db.redemptions.count fun _ r =>
        r.promoId = pid && r.userId = u && r.status ≠ .released : ℕ) : ℤ) ≤ p.maxUsagesPerUser) ∧
    ∀ i sys' rid r, sys.step i = some sys' → sys.db.redemptions.get? rid = some r →
      (r.status = .consumed ∨ r.status = .released) →
      ∃ r', sys'.db.redemptions.get? rid = some r' ∧ r'.status = r.status := by
  have hfollows := fun p (hp : Requested refresh s (fun _ => True) p) => PromoProof.follows hp
  have hok : PromoOk sys.db := Discipline.inv_of_run hfollows h₀ hrun
  refine ⟨fun pid p hp => ⟨?_, fun n hn => hok.cap pid p n hp hn, fun u => ?_⟩, ?_⟩
  · rw [hok.used pid p hp, Db.taken]
    congr
    funext _ r
    unfold PromoRedemption.takes
    cases r.status <;> rfl
  · rw [← Db.takenBy_eq]
    exact hok.user pid p u hp
  · intro i sys' rid r hstep hr hfinal
    rcases Discipline.guar_of_run hfollows h₀ hrun (fun _ _ _ _ => trivial) hstep with h | h
    · exact ⟨r, h ▸ hr, rfl⟩
    · refine h rid r hr ?_
      rcases hfinal with hst | hst <;> rw [hst] <;> decide

/-- A promo of 10.00 with one slot, and two customers whose orders a courier has accepted. -/
def Sample.lastSlot : Db :=
  { accounts (wallets 0 0 0) with
    orders := ⟨[(401, order .assigned), (402, { order .assigned with customerId := 4 })], by simp⟩
    promos := onePromo }

/-- No slot of the promo is taken yet. -/
theorem Sample.lastSlot_promoOk : PromoOk lastSlot where
  used := Table.forall_get?.mpr (by decide)
  cap pid p n hp hn := by
    have hused : ∀ r ∈ lastSlot.promos.rows, r.2.usedCount = 0 ∧ r.2.maxTotalUsages = some 1 := by
      decide
    obtain ⟨hzero, hone⟩ := hused (pid, p) (Table.get?_eq_some.mp hp)
    obtain rfl : n = 1 := Option.some.inj (hn.symm.trans hone)
    exact hzero.trans_le (by decide)
  user pid p u hp := by
    have hmax : ∀ r ∈ lastSlot.promos.rows, r.2.maxUsagesPerUser = 1 := by decide
    have hone : p.maxUsagesPerUser = 1 := hmax (pid, p) (Table.get?_eq_some.mp hp)
    simp [Db.takenBy, Table.count, lastSlot, accounts, Table.empty, hone]
  promo rid r hr := by simp [lastSlot, accounts] at hr

/-- The courier issues an invoice of one line, with the promo. -/
def Sample.issue (invoiceId orderId : Id) : Tx Unit :=
  Request.tx true settings (.createInvoice 0
    ⟨invoiceId, invoiceId + 100, fun n => invoiceId + 200 + n⟩ orderId 2
    ⟨[⟨['g'], ⟨10000, -2⟩, 1, ⟨15, -2⟩, none⟩], ⟨500, -2⟩, some ['P']⟩)

/-- The issue of an invoice is one of the requests. -/
theorem Sample.requested_issue (invoiceId orderId : Id) :
    Requested true settings (fun _ => True) (issue invoiceId orderId) := ⟨_, trivial, rfl⟩

/-- Two invoices ask for the last slot at once. Both validations succeed, the second reservation
takes the slot, and the first finds none. -/
theorem promo_caps_hold_race :
    ∃ sys : System Db Row Err Memory Unit,
      System.Run (Requested true Sample.settings fun _ => True) (System.always Db Row Memory)
        .empty Sample.lastSlot sys ∧
      (sys.db.promos.get? 801).map (·.usedCount) = some 1 ∧
      ∀ p, sys.db.promos.get? 801 = some p → ∀ n, p.maxTotalUsages = some n → p.usedCount ≤ n := by
  obtain ⟨sys, hrun, hq⟩ := System.Run.exists_of_play
    (Requested true Sample.settings fun _ => True) (System.always Db Row Memory) .empty
    Sample.lastSlot
    ([.start (Sample.issue 601 401), .start (Sample.issue 602 402)] ++
      List.replicate 7 (.step 0) ++ List.replicate 14 (.step 1) ++ List.replicate 2 (.step 0))
    (fun sys => (sys.db.promos.get? 801).map (·.usedCount) = some 1)
    (by
      intro p hp
      simp only [List.mem_append, List.mem_cons, List.mem_replicate, System.Event.start.injEq,
        List.not_mem_nil, reduceCtorEq, and_false, or_false] at hp
      -- Both transactions are of the kind that the theorem is about.
      rcases hp with rfl | rfl <;> exact Sample.requested_issue _ _)
    (by decide +kernel)
  have h := promo_caps_hold true Sample.settings Sample.lastSlot Sample.lastSlot_promoOk sys hrun
  exact ⟨sys, hrun, of_decide_eq_true hq, fun p hp => (h.1 801 p hp).2.1⟩

end Giftly
