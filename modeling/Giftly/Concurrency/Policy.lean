import Giftly.Frames

/-!
# Policies for concurrent requests

A policy says what the requests of a run owe to each other: an invariant of the committed database,
what a lock protects besides its own row, how the database develops, and what a single commit may
do. It is a lock discipline in which every lock protects its row, and a request follows it when it
writes only its tables under their locks and is safe at its commit (`Policy.follows`).

An assertion is robust against tables when the surroundings, the session memory, further locks and
writes to these tables leave it true; then every function that writes nothing else keeps it
(`Robust.keeps`).
-/

namespace Giftly

open Store

/-- What the requests of a run owe to each other. -/
structure Policy where
  /-- The tables that the requests write. -/
  tables : List Tbl
  /-- The invariant of every committed state. -/
  inv : Db → Prop
  /-- What a lock protects besides its row. -/
  keeps : Row → Db → Db → Prop := fun _ _ _ => True
  keeps_refl : ∀ l d, keeps l d d := by exact fun _ _ => trivial
  keeps_trans : ∀ {l d₁ d₂ d₃}, keeps l d₁ d₂ → keeps l d₂ d₃ → keeps l d₁ d₃ := by
    exact fun _ _ => trivial
  /-- How the committed state develops. -/
  grow : Db → Db → Prop := fun _ _ => True
  grow_refl : ∀ d, grow d d := by exact fun _ => trivial
  grow_trans : ∀ {d₁ d₂ d₃}, grow d₁ d₂ → grow d₂ d₃ → grow d₁ d₃ := by exact fun _ _ => trivial
  /-- What holds when a lock is granted. -/
  cond : Memory → Db → Row → Prop := fun _ _ _ => True
  /-- What a single commit may do. -/
  guar : Db → Db → Prop := fun _ _ => True
  guar_refl : ∀ d, guar d d := by exact fun _ => trivial

/-- What a transaction knows. -/
abbrev TxView := View Db Row Memory

namespace Policy

/-- The lock discipline of a policy. -/
def discipline (P : Policy) : Discipline Db Row Memory where
  inv := P.inv
  same l d d' := l.Same d d' ∧ P.keeps l d d'
  same_refl l d := ⟨.refl l d, P.keeps_refl l d⟩
  same_trans h₁ h₂ := ⟨h₁.1.trans h₂.1, P.keeps_trans h₁.2 h₂.2⟩
  grows d d' := d.Evolves P.tables d' ∧ P.grow d d'
  grows_refl d := ⟨.refl P.tables d, P.grow_refl d⟩
  grows_trans h₁ h₂ := ⟨h₁.1.trans h₂.1, P.grow_trans h₁.2 h₂.2⟩
  cond := P.cond
  guar := P.guar

/-- What other requests may do to a request under the policy. -/
abbrev around (P : Policy) : Surroundings Db Row Memory := P.discipline.surroundings

/-- A commit at the view `v` does what the policy asks for, besides keeping to the locks. -/
def Safe (P : Policy) (v : TxView) : Prop :=
  ∀ d, P.around.rely v.held v.last d →
    P.inv (v.pending d) ∧ P.grow d (v.pending d) ∧ P.guar d (v.pending d) ∧
      ∀ l, l ∉ v.held → P.keeps l d (v.pending d)

variable {P : Policy}

/-- What the surroundings may do in two steps they may do at once. -/
theorem rely_trans {held : List Row} {d₁ d₂ d₃ : Db} (h₁ : P.around.rely held d₁ d₂)
    (h₂ : P.around.rely held d₂ d₃) : P.around.rely held d₁ d₃ := P.discipline.rely_trans h₁ h₂

/-- With fewer locks held, the surroundings may do more. -/
theorem rely_mono {held held' : List Row} {d d' : Db} (h : P.around.rely held' d d')
    (hs : held ⊆ held') : P.around.rely held d d' :=
  ⟨h.1, h.2.1, fun l hl => h.2.2 l (hs hl)⟩

/-- What may happen after a statement that took further locks may have happened before it. -/
theorem rely_after (ls : List Row) {held : List Row} {d₁ d₂ d₃ : Db}
    (h₁ : P.around.rely held d₁ d₂) (h₂ : P.around.rely (ls ++ held) d₂ d₃) :
    P.around.rely held d₁ d₃ :=
  rely_trans h₁ (rely_mono h₂ (List.subset_append_right ls held))

/-- The surroundings write the tables of the policy, and no frozen column. -/
theorem rely_evolves {held : List Row} {d d' : Db} (h : P.around.rely held d d') :
    d.Evolves P.tables d' := h.2.1.1

/-- The surroundings only let the committed state grow. -/
theorem rely_grow {held : List Row} {d d' : Db} (h : P.around.rely held d d') : P.grow d d' :=
  h.2.1.2

/-- A locked row stays as it is. -/
theorem rely_same {held : List Row} {d d' : Db} (h : P.around.rely held d d') {l : Row}
    (hl : l ∈ held) : l.Same d d' := (h.2.2 l hl).1

/-- What the policy keeps for a locked row is kept. -/
theorem rely_keeps {held : List Row} {d d' : Db} (h : P.around.rely held d d') {l : Row}
    (hl : l ∈ held) : P.keeps l d d' := (h.2.2 l hl).2

/-- A locked order stays as it is. -/
theorem rely_order {held : List Row} {d d' : Db} {id : Id} (h : P.around.rely held d d')
    (hl : .order id ∈ held) : d'.orders.get? id = d.orders.get? id := rely_same h hl

/-- A locked invoice stays as it is. -/
theorem rely_invoice {held : List Row} {d d' : Db} {id : Id} (h : P.around.rely held d d')
    (hl : .invoice id ∈ held) : d'.invoices.get? id = d.invoices.get? id := rely_same h hl

/-- A locked intent stays as it is. -/
theorem rely_intent {held : List Row} {d d' : Db} {id : Id} (h : P.around.rely held d d')
    (hl : .intent id ∈ held) : d'.intents.get? id = d.intents.get? id := rely_same h hl

/-- A locked wallet stays as it is. -/
theorem rely_wallet {held : List Row} {d d' : Db} {id : Id} (h : P.around.rely held d d')
    (hl : .wallet id ∈ held) : d'.wallets.get? id = d.wallets.get? id := rely_same h hl

/-- A locked idempotency key is known to the ledger exactly if it was before. -/
theorem rely_key {held : List Row} {d d' : Db} {key : IdempotencyKey}
    (h : P.around.rely held d d') (hl : .idempotency key ∈ held) :
    key ∈ ledgerKeys d'.transactions ↔ key ∈ ledgerKeys d.transactions := rely_same h hl

/-- A transaction that has written nothing is safe. -/
theorem safe_of_pending_id {v : TxView} (h : v.pending = id) : P.Safe v := by
  intro d hd
  rw [h]
  exact ⟨hd.1, P.grow_refl d, P.guar_refl d, fun l _ => P.keeps_refl l d⟩

end Policy

/-- An assertion that writes to the tables `ts` leave true, as do the surroundings, the session
memory and further locks. -/
structure Robust (P : Policy) (ts : List Tbl) (J : TxView → Prop) : Prop where
  rely : ∀ v d, J v → P.around.rely v.held v.last d → J { v with last := d }
  held : ∀ v ls, J v → J { v with held := ls ++ v.held }
  mem : ∀ v m, J v → J { v with mem := m }
  patch : ∀ v ls f, Framed ts ls f → J v →
    J { v with held := ls ++ v.held, pending := f ∘ v.pending }

namespace Robust

variable {P : Policy} {ts ts' : List Tbl} {J J' : TxView → Prop} {α β : Type}

/-- A robust assertion is stable under the surroundings. -/
theorem stable (h : Robust P ts J) : Stable P.around J := ⟨h.rely, fun v ls hv _ => h.held v ls hv⟩

/-- A function that writes nothing but these tables keeps a robust assertion. -/
theorem keeps (h : Robust P ts J) {p : Tx α} (hp : WritesTo ts' p) (hs : ts' ⊆ ts) :
    Keeps P.around J p :=
  .of_writes h.stable (fun v ls f hf hv _ => h.patch v ls f (hf.mono hs) hv)
    (fun v _ _ => h.mem v _) hp

/-- Such a function in front of another program. -/
theorem wp_bind (h : Robust P ts J) {p : Tx α} {g : α → Tx β} {Q : β → TxView → Prop} {v : TxView}
    (hp : WritesTo ts' p) (hs : ts' ⊆ ts) (hv : J v)
    (hg : ∀ a v', J v' → wp P.around (g a) Q v') : wp P.around (p >>= g) Q v :=
  (h.keeps hp hs).wp_bind hv hg

/-- A read in front of another program. -/
theorem query_bind (h : Robust P ts J) {f : Db → α} {g : α → Tx β} {Q : β → TxView → Prop}
    {v : TxView} (hv : J v)
    (hg : ∀ d v', J v' → v'.pending = v.pending → v'.last = d → wp P.around (g (f (v.pending d))) Q v') :
    wp P.around (Prog.query f >>= g) Q v :=
  wp_query_bind fun d hd => hg d _ (h.rely v d hv hd) rfl rfl

/-- Such a function at the end of a program. -/
theorem wp_last (h : Robust P ts J) {p : Tx α} {Q : α → TxView → Prop} {v : TxView}
    (hp : WritesTo ts' p) (hs : ts' ⊆ ts) (hv : J v) (hQ : ∀ a v', J v' → Q a v') :
    wp P.around p Q v :=
  wp_mono hQ (h.keeps hp hs v hv)

/-- Two robust assertions together. -/
theorem and (h : Robust P ts J) (h' : Robust P ts J') : Robust P ts fun v => J v ∧ J' v where
  rely v d hv hd := ⟨h.rely v d hv.1 hd, h'.rely v d hv.2 hd⟩
  held v ls hv := ⟨h.held v ls hv.1, h'.held v ls hv.2⟩
  mem v m hv := ⟨h.mem v m hv.1, h'.mem v m hv.2⟩
  patch v ls f hf hv := ⟨h.patch v ls f hf hv.1, h'.patch v ls f hf hv.2⟩

/-- One of two robust assertions. -/
theorem or (h : Robust P ts J) (h' : Robust P ts J') : Robust P ts fun v => J v ∨ J' v where
  rely v d hv hd := hv.imp (fun hv => h.rely v d hv hd) fun hv => h'.rely v d hv hd
  held v ls hv := hv.imp (h.held v ls) (h'.held v ls)
  mem v m hv := hv.imp (h.mem v m) (h'.mem v m)
  patch v ls f hf hv := hv.imp (h.patch v ls f hf) (h'.patch v ls f hf)

/-- A robust assertion of some index. -/
theorem any {ι : Type} {K : ι → TxView → Prop} (h : ∀ i, Robust P ts (K i)) :
    Robust P ts fun v => ∃ i, K i v where
  rely v d hv hd := hv.imp fun i hv => (h i).rely v d hv hd
  held v ls hv := hv.imp fun i => (h i).held v ls
  mem v m hv := hv.imp fun i => (h i).mem v m
  patch v ls f hf hv := hv.imp fun i => (h i).patch v ls f hf

/-- A robust assertion of every index. -/
theorem all {ι : Sort*} {K : ι → TxView → Prop} (h : ∀ i, Robust P ts (K i)) :
    Robust P ts fun v => ∀ i, K i v where
  rely v d hv hd i := (h i).rely v d (hv i) hd
  held v ls hv i := (h i).held v ls (hv i)
  mem v m hv i := (h i).mem v m (hv i)
  patch v ls f hf hv i := (h i).patch v ls f hf (hv i)

/-- What does not depend on the transaction stays known. -/
theorem const (A : Prop) : Robust P ts fun _ => A :=
  ⟨fun _ _ h _ => h, fun _ _ h => h, fun _ _ h => h, fun _ _ _ _ h => h⟩

/-- An assertion that is robust for some tables is so for fewer. -/
theorem mono (h : Robust P ts J) (hs : ts' ⊆ ts) : Robust P ts' J where
  rely := h.rely
  held := h.held
  mem := h.mem
  patch v ls f hf := h.patch v ls f (hf.mono hs)

/-- What is known of the committed state under a lock stays known. -/
theorem pinned {l : Row} {A : Db → Prop}
    (hA : ∀ d d', l.Same d d' → P.keeps l d d' → A d → A d') :
    Robust P ts fun v => l ∈ v.held ∧ A v.last where
  rely _ _ hv hd := ⟨hv.1, hA _ _ (Policy.rely_same hd hv.1) (Policy.rely_keeps hd hv.1) hv.2⟩
  held _ ls hv := ⟨List.mem_append_right ls hv.1, hv.2⟩
  mem _ _ hv := hv
  patch _ ls _ _ hv := ⟨List.mem_append_right ls hv.1, hv.2⟩

/-- What is known of the committed state whatever happens to it stays known. -/
theorem lasting {A : Db → Prop}
    (hA : ∀ d d', P.inv d' → d.Evolves P.tables d' → P.grow d d' → A d → A d') :
    Robust P ts fun v => A v.last where
  rely _ _ hv hd := hA _ _ hd.1 (Policy.rely_evolves hd) (Policy.rely_grow hd) hv
  held _ _ hv := hv
  mem _ _ hv := hv
  patch _ _ _ _ hv := hv

/-- What is known of the transaction's own writes, whatever they are applied to, stays known when
other tables are written. -/
theorem ofPending {B : Db → Db → Prop}
    (hB : ∀ d x y, x.Evolves ts y → B d x → B d y) :
    Robust P ts fun v => ∀ d, B d (v.pending d) where
  rely _ _ hv _ := hv
  held _ _ hv := hv
  mem _ _ hv := hv
  patch v _ _ hf hv d := hB d _ _ (hf (v.pending d)).1 (hv d)

/-- What is known of the transaction's own writes, over every state that the surroundings may
reach, stays known when other tables are written. -/
theorem ofReach {B : Db → Db → Prop} (hB : ∀ d x y, x.Evolves ts y → B d x → B d y) :
    Robust P ts fun v => ∀ d, P.around.rely v.held v.last d → B d (v.pending d) where
  rely _ _ hv hd d hd' := hv d (Policy.rely_trans hd hd')
  held _ ls hv d hd := hv d (Policy.rely_mono hd (List.subset_append_right ls _))
  mem _ _ hv := hv
  patch v ls _ hf hv d hd :=
    hB d _ _ (hf (v.pending d)).1 (hv d (Policy.rely_mono hd (List.subset_append_right ls _)))

end Robust

/-- A later view of the same transaction, after statements that wrote nothing. -/
structure Later (P : Policy) (v v' : TxView) : Prop where
  pending : v'.pending = v.pending
  held : ∃ ls, v'.held = ls ++ v.held
  last : v'.last = v.last ∨ P.around.rely v.held v.last v'.last

namespace Later

variable {P : Policy} {v v₁ v₂ : TxView}

/-- No statement is executed. -/
theorem refl (v : TxView) : Later P v v := ⟨rfl, ⟨[], rfl⟩, .inl rfl⟩

/-- No lock is given up before the commit. -/
theorem subset (h : Later P v v₁) : v.held ⊆ v₁.held := by
  obtain ⟨ls, hls⟩ := h.held
  rw [hls]
  exact List.subset_append_right ls _

/-- What the surroundings may reach later they may reach now. -/
theorem reach (h : Later P v v₁) {d : Db} (hd : P.around.rely v₁.held v₁.last d) :
    P.around.rely v.held v.last d := by
  have hd' := Policy.rely_mono hd h.subset
  rcases h.last with hl | hl
  · rwa [hl] at hd'
  · exact Policy.rely_trans hl hd'

/-- A view after a later one is later. -/
theorem trans (h₁ : Later P v v₁) (h₂ : Later P v₁ v₂) : Later P v v₂ where
  pending := h₂.pending.trans h₁.pending
  held := by
    obtain ⟨ls₁, h₁⟩ := h₁.held
    obtain ⟨ls₂, h₂⟩ := h₂.held
    exact ⟨ls₂ ++ ls₁, by rw [h₂, h₁, List.append_assoc]⟩
  last := by
    rcases h₂.last with h | h
    · rw [h]
      exact h₁.last
    · exact .inr (h₁.reach h)

/-- A statement that writes nothing. -/
theorem step (ls : List Row) {m : Memory} {d : Db} (hd : P.around.rely v.held v.last d) :
    Later P v { v with held := ls ++ v.held, mem := m, last := d } := ⟨rfl, ⟨ls, rfl⟩, .inr hd⟩

/-- A change of the session memory. -/
theorem remember (m : Memory) : Later P v { v with mem := m } := ⟨rfl, ⟨[], rfl⟩, .inl rfl⟩

end Later

/-- A robust assertion still holds later. -/
theorem Robust.later {P : Policy} {ts : List Tbl} {J : TxView → Prop} (hJ : Robust P ts J)
    {v v' : TxView} (hv : J v) (h : Later P v v') : J v' := by
  obtain ⟨held', pending', mem', last'⟩ := v'
  obtain ⟨hp, ⟨ls, hls⟩, hl⟩ := h
  dsimp only at hp hls hl
  subst hp hls
  refine hJ.mem _ mem' (hJ.held { v with last := last' } ls ?_)
  rcases hl with rfl | hl
  · exact hv
  · exact hJ.rely v last' hv hl

namespace Policy

variable {P : Policy} {m : Memory}

/-- The transaction keeps to the tables of the policy and to its locks. -/
def Framed (P : Policy) (v : TxView) : Prop :=
  ∀ d : Db, d.Evolves P.tables (v.pending d) ∧ ∀ l, l ∉ v.held → l.Same d (v.pending d)

/-- Being framed does not depend on what the tables hold. -/
theorem robust_framed : Robust P P.tables P.Framed where
  rely _ _ hv _ := hv
  held v ls hv d := ⟨(hv d).1, fun l hl => (hv d).2 l fun h => hl (List.mem_append_right ls h)⟩
  mem _ _ hv := hv
  patch v ls f hf hv d := by
    refine ⟨(hv d).1.trans (hf (v.pending d)).1, fun l hl => ?_⟩
    rw [List.mem_append, not_or] at hl
    exact ((hv d).2 l hl.2).trans ((hf (v.pending d)).2 l hl.1)

/-- A request that writes only the policy's tables and is safe at its commit follows the policy. -/
theorem follows {α : Type} {p : Tx α} {ts : List Tbl} (hw : WritesTo ts p) (hs : ts ⊆ P.tables)
    (h : ∀ d, P.inv d → wp P.around p (fun _ v => P.Safe v) (.start m d)) :
    P.discipline.Follows m p := by
  intro d hd
  have hframe : wp P.around p (fun _ v => P.Framed v) (.start m d) :=
    robust_framed.keeps hw hs _ fun d => ⟨.refl _ d, fun l _ => .refl l d⟩
  refine wp_mono (fun _ v hv => ?_) (wp_and (h d hd) hframe)
  intro d' hd'
  obtain ⟨hinv, hgrow, hguar, hkeeps⟩ := hv.1 d' hd'
  exact ⟨hinv, ⟨(hv.2 d').1, hgrow⟩, hguar, fun l hl => ⟨(hv.2 d').2 l hl, hkeeps l hl⟩⟩

/-- A transaction that does the same and whose commits do what the result says ensures it. -/
theorem ensures_of_wp {α : Type} {p : Tx α} {ts : List Tbl} {post : α → Db → Db → Prop}
    (hw : WritesTo ts p) (hs : ts ⊆ P.tables)
    (h : ∀ d, P.inv d → wp P.around p (fun a v => P.Safe v ∧
      ∀ d, P.around.rely v.held v.last d → post a d (v.pending d)) (.start m d)) :
    P.discipline.Ensures post m p := by
  intro d hd
  have hfollows : P.discipline.Follows m p :=
    follows hw hs fun d hd => wp_mono (fun _ _ hv => hv.1) (h d hd)
  exact wp_mono (fun _ v hv => ⟨hv.1, hv.2.2⟩) (wp_and (hfollows d hd) (h d hd))

/-- A request that does the same and whose commits do what the request promises ensures it. -/
theorem ensures {refresh : Bool} {s : Settings} {r : Request} {ts : List Tbl}
    {post : Request → Db → Db → Prop} (hw : WritesTo ts (r.tx refresh s)) (hs : ts ⊆ P.tables)
    (h : ∀ d, P.inv d → wp P.around (r.tx refresh s) (fun _ v => P.Safe v ∧
      ∀ d, P.around.rely v.held v.last d → post r d (v.pending d)) (.start m d)) :
    P.discipline.Ensures post m (r.logged refresh s) := by
  intro d hd
  have hensures : P.discipline.Ensures (fun _ => post r) m (r.tx refresh s) := ensures_of_wp hw hs h
  unfold Request.logged
  rw [wp_bind]
  exact wp_mono (fun _ v hv => hv) (hensures d hd)

/-- The policy asks for nothing about tables other than `ts`. -/
structure Reads (P : Policy) (ts : List Tbl) : Prop where
  inv : ∀ d d' : Db, (∀ t ∈ ts, d.Same d' t) → P.inv d → P.inv d'
  grow : ∀ d₀ d d' : Db, (∀ t ∈ ts, d.Same d' t) → P.grow d₀ d → P.grow d₀ d'
  guar : ∀ d₀ d d' : Db, (∀ t ∈ ts, d.Same d' t) → P.guar d₀ d → P.guar d₀ d'
  keeps : ∀ (l : Row) (d₀ d d' : Db), (∀ t ∈ ts, d.Same d' t) → P.keeps l d₀ d → P.keeps l d₀ d'

/-- Writes to other tables leave a transaction safe. -/
theorem robust_safe {ts ts' : List Tbl} (hr : P.Reads ts) (hs : ∀ t ∈ ts, t ∉ ts') :
    Robust P ts' P.Safe where
  rely _ _ hv hd d hd' := hv d (rely_trans hd hd')
  held v ls hv d hd := by
    obtain ⟨hinv, hgrow, hguar, hkeeps⟩ := hv d (rely_mono hd (List.subset_append_right ls _))
    exact ⟨hinv, hgrow, hguar, fun l hl => hkeeps l fun h => hl (List.mem_append_right ls h)⟩
  mem _ _ hv := hv
  patch v ls f hf hv d hd := by
    obtain ⟨hinv, hgrow, hguar, hkeeps⟩ := hv d (rely_mono hd (List.subset_append_right ls _))
    have hsame : ∀ t ∈ ts, (v.pending d).Same (f (v.pending d)) t :=
      fun t ht => (hf (v.pending d)).1.same t (hs t ht)
    exact ⟨hr.inv _ _ hsame hinv, hr.grow _ _ _ hsame hgrow, hr.guar _ _ _ hsame hguar,
      fun l hl => hr.keeps l _ _ _ hsame (hkeeps l fun h => hl (List.mem_append_right ls h))⟩

/-- A request that never touches what the policy reads is safe. -/
theorem wp_safe_of_writesTo {ts ts' : List Tbl} (hr : P.Reads ts) (hs : ∀ t ∈ ts, t ∉ ts')
    {α : Type} {p : Tx α} (hp : WritesTo ts' p) {d : Db} :
    wp P.around p (fun _ v => P.Safe v) (.start m d) :=
  (robust_safe hr hs).keeps hp (List.Subset.refl ts') _ (safe_of_pending_id rfl)

end Policy

end Giftly
