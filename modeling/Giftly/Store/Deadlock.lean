import Giftly.Store.Tagged
import Mathlib.Logic.Relation

/-!
# Lock order

A transaction whose next statement needs a lock of another transaction waits for it. When every lock
that is waited for ranks above all the locks that its transaction holds, the ranks rise along every
path of waiting transactions, and no transaction waits for itself (`not_cycle`).

`asks` says of a program, whatever it reads, which locks it requests beside which others, and
`not_cycle_of_run` is the rule for runs: the programs request their locks in the order of the ranks,
except for the requests that are `early`, and none of these waits for a transaction that waits.
-/

namespace Giftly.Store

variable {D L E M V R α β ρ : Type}

namespace Prog

/-- Whatever the program reads, each lock that it requests is held by then or is one that `P` allows
beside the locks held. When it returns, its result, the session memory and the locks are in `Q`. -/
def asks (P : M → List L → L → Prop) :
    Prog D L E M α → (α → M → List L → Prop) → M → List L → Prop
  | ret a, Q, m, held => Q a m held
  | raise _, _, _, _ => True
  | orm f k, Q, m, held => (k (f m)).asks P Q (f m) held
  | select k, Q, m, held => ∀ d, (k d).asks P Q m held
  | lock target k, Q, m, held => ∀ d, (target d = none → (k d).asks P Q m held) ∧
    ∀ l, target d = some l → (l ∈ held ∨ P m held l) ∧ (k d).asks P Q m (l :: held)
  | write ls _ _ next failed, Q, m, held => (∀ l ∈ ls, l ∈ held ∨ P m held l) ∧
    next.asks P Q m (ls ++ held) ∧ ∀ e, (failed e).asks P Q m (ls ++ held)

section Rules

variable {P : M → List L → L → Prop} {Q Q' : α → M → List L → Prop} {m : M} {held : List L}

/-- A result is returned with the locks held. -/
@[simp]
theorem asks_ret (a : α) : (ret a : Prog D L E M α).asks P Q m held ↔ Q a m held := Iff.rfl

/-- The same for `pure`. -/
@[simp]
theorem asks_pure (a : α) : (pure a : Prog D L E M α).asks P Q m held ↔ Q a m held := Iff.rfl

/-- A program that raises asks for no further lock. -/
@[simp]
theorem asks_raise (e : E) : (raise e : Prog D L E M α).asks P Q m held ↔ True := Iff.rfl

/-- A step of the session asks for no lock. -/
@[simp]
theorem asks_orm (f : M → M) (k : M → Prog D L E M α) :
    (orm f k).asks P Q m held ↔ (k (f m)).asks P Q (f m) held := Iff.rfl

/-- What is allowed may be weakened. -/
theorem asks_imp {P' : M → List L → L → Prop} {p : Prog D L E M α}
    (h : ∀ m held l, P m held l → P' m held l) (hp : p.asks P Q m held) : p.asks P' Q m held := by
  induction p generalizing m held with
  | ret a => exact hp
  | raise e => trivial
  | orm f k ih => exact ih _ hp
  | select k ih => exact fun d => ih d (hp d)
  | lock target k ih =>
    exact fun d => ⟨fun ht => ih d ((hp d).1 ht),
      fun l hl => ⟨((hp d).2 l hl).1.imp_right (h _ _ l), ih d ((hp d).2 l hl).2⟩⟩
  | write ls p c next failed ihn ihf =>
    exact ⟨fun l hl => (hp.1 l hl).imp_right (h _ _ l), ihn hp.2.1, fun e => ihf e (hp.2.2 e)⟩

/-- What follows from a postcondition is one as well. -/
theorem asks_mono {p : Prog D L E M α} (h : ∀ a m held, Q a m held → Q' a m held)
    (hp : p.asks P Q m held) : p.asks P Q' m held := by
  induction p generalizing m held with
  | ret a => exact h a m held hp
  | raise e => trivial
  | orm f k ih => exact ih _ hp
  | select k ih => exact fun d => ih d (hp d)
  | lock target k ih =>
    exact fun d => ⟨fun ht => ih d ((hp d).1 ht),
      fun l hl => ⟨((hp d).2 l hl).1, ih d ((hp d).2 l hl).2⟩⟩
  | write ls p c next failed ihn ihf => exact ⟨hp.1, ihn hp.2.1, fun e => ihf e (hp.2.2 e)⟩

/-- What a sequence requests: what its first part does, and then the second one. -/
theorem asks_bind (p : Prog D L E M β) (g : β → Prog D L E M α) :
    (p >>= g).asks P Q m held ↔ p.asks P (fun b m' held' => (g b).asks P Q m' held') m held := by
  induction p generalizing m held with
  | ret a => rfl
  | raise e => rfl
  | orm f k ih => exact ih _
  | select k ih => exact forall_congr' fun d => ih d
  | lock target k ih =>
    refine forall_congr' fun d => and_congr (imp_congr_right fun _ => ih d) ?_
    exact forall_congr' fun l => imp_congr_right fun _ => and_congr Iff.rfl (ih d)
  | write ls p c next failed ihn ihf =>
    exact and_congr Iff.rfl (and_congr ihn (forall_congr' fun e => ihf e))

/-- A query asks for no lock, and its result may be anything. -/
@[simp]
theorem asks_query (f : D → α) :
    (query f : Prog D L E M α).asks P Q m held ↔ ∀ d, Q (f d) m held := Iff.rfl

/-- A pure computation asks for no lock. -/
@[simp]
theorem asks_ofExcept (x : Except E α) :
    (ofExcept x : Prog D L E M α).asks P Q m held ↔ ∀ a, x = .ok a → Q a m held := by
  cases x <;> simp [ofExcept]

/-- A computation outside the store, and what follows it. -/
theorem asks_ofExcept_bind {x : Except E β} {g : β → Prog D L E M α}
    (h : ∀ b, x = .ok b → (g b).asks P Q m held) : (ofExcept x >>= g).asks P Q m held := by
  rw [asks_bind, asks_ofExcept]
  exact h

/-- A check asks for no lock. -/
@[simp]
theorem asks_require (c : Prop) [Decidable c] (e : E) (Q : Unit → M → List L → Prop) :
    (require c e : Prog D L E M Unit).asks P Q m held ↔ (c → Q () m held) := by
  unfold require
  split_ifs with h <;> simp [h]

/-- A conditional program is run, or nothing is. -/
@[simp]
theorem asks_when (c : Prop) [Decidable c] (p : Prog D L E M Unit)
    (Q : Unit → M → List L → Prop) :
    (p.when c).asks P Q m held ↔ (c → p.asks P Q m held) ∧ (¬c → Q () m held) := by
  unfold when
  split_ifs with h <;> simp [h]

/-- A check, and what follows it. -/
theorem asks_require_bind {c : Prop} [Decidable c] {e : E} {g : Unit → Prog D L E M α}
    (h : c → (g ()).asks P Q m held) : (require c e >>= g).asks P Q m held := by
  rw [asks_bind, asks_require]
  exact h

/-- A flush whose locks are held or allowed. -/
theorem asks_flush {ls : List L} {p : D → D} {c : D → Option E} {Q : Unit → M → List L → Prop}
    (h : ∀ l ∈ ls, l ∈ held ∨ P m held l) (hQ : Q () m (ls ++ held)) :
    (flush ls p c : Prog D L E M Unit).asks P Q m held := ⟨h, hQ, fun _ => trivial⟩

/-- Every lock that the program requests satisfies `F`. -/
def Requests (F : L → Prop) : Prog D L E M α → Prop
  | ret _ => True
  | raise _ => True
  | orm _ k => ∀ m, (k m).Requests F
  | select k => ∀ d, (k d).Requests F
  | lock target k => ∀ d, (∀ l, target d = some l → F l) ∧ (k d).Requests F
  | write ls _ _ next failed => (∀ l ∈ ls, F l) ∧ next.Requests F ∧ ∀ e, (failed e).Requests F

section Requests

variable {F : L → Prop}

/-- A result requests no lock. -/
@[simp]
theorem requests_ret (a : α) : (ret a : Prog D L E M α).Requests F := trivial

/-- The same for `pure`. -/
@[simp]
theorem requests_pure (a : α) : (pure a : Prog D L E M α).Requests F := trivial

/-- Raising requests no lock. -/
@[simp]
theorem requests_raise (e : E) : (raise e : Prog D L E M α).Requests F := trivial

/-- A query requests no lock. -/
@[simp]
theorem requests_query (f : D → α) : (query f : Prog D L E M α).Requests F := fun _ => trivial

/-- A pure computation requests no lock. -/
@[simp]
theorem requests_ofExcept (x : Except E α) : (ofExcept x : Prog D L E M α).Requests F := by
  cases x <;> trivial

/-- A check requests no lock. -/
@[simp]
theorem requests_require (c : Prop) [Decidable c] (e : E) :
    (require c e : Prog D L E M Unit).Requests F := by
  unfold require
  split_ifs <;> trivial

/-- A conditional program requests what the program requests. -/
theorem requests_when {c : Prop} [Decidable c] {p : Prog D L E M Unit} (h : p.Requests F) :
    (p.when c).Requests F := by
  unfold when
  split_ifs
  · exact h
  · trivial

/-- A flush requests the locks it names. -/
theorem requests_flush {ls : List L} {p : D → D} {c : D → Option E} (h : ∀ l ∈ ls, F l) :
    (flush ls p c : Prog D L E M Unit).Requests F := ⟨h, trivial, fun _ => trivial⟩

/-- The locks of two programs, one after the other. -/
theorem Requests.bind {p : Prog D L E M β} {g : β → Prog D L E M α} (hp : p.Requests F)
    (hg : ∀ b, (g b).Requests F) : (p >>= g).Requests F := by
  induction p with
  | ret a => exact hg a
  | raise e => trivial
  | orm f k ih => exact fun m => ih m (hp m)
  | select k ih => exact fun d => ih d (hp d)
  | lock target k ih => exact fun d => ⟨(hp d).1, ih d (hp d).2⟩
  | write ls p c next failed ihn ihf => exact ⟨hp.1, ihn hp.2.1, fun e => ihf e (hp.2.2 e)⟩

/-- A program whose requests are always allowed, whatever is held. -/
theorem Requests.asks {p : Prog D L E M α} (hp : p.Requests F)
    (h : ∀ m held l, F l → P m held l) :
    p.asks P (fun _ _ held' => held ⊆ held' ∧ ∀ l ∈ held', l ∈ held ∨ F l) m held := by
  -- what the program adds to the locks that it starts with
  suffices hgen : ∀ held', held ⊆ held' → (∀ l ∈ held', l ∈ held ∨ F l) →
      p.asks P (fun _ _ held' => held ⊆ held' ∧ ∀ l ∈ held', l ∈ held ∨ F l) m held' from
    hgen held (List.Subset.refl _) fun _ hl => .inl hl
  intro held' hsub hnew
  induction p generalizing m held' with
  | ret a => exact ⟨hsub, hnew⟩
  | raise e => trivial
  | orm f k ih => exact ih _ (hp _) held' hsub hnew
  | select k ih => exact fun d => ih d (hp d) held' hsub hnew
  | lock target k ih =>
    refine fun d => ⟨fun _ => ih d (hp d).2 held' hsub hnew, fun l hl => ?_⟩
    have hF : F l := (hp d).1 l hl
    refine ⟨.inr (h _ _ l hF), ih d (hp d).2 _ (List.subset_cons_of_subset l hsub) ?_⟩
    rintro l' (_ | ⟨_, hl'⟩)
    · exact .inr hF
    · exact hnew l' hl'
  | write ls p c next failed ihn ihf =>
    have hadd : ∀ l ∈ ls ++ held', l ∈ held ∨ F l := by
      intro l hl
      rcases List.mem_append.mp hl with hl | hl
      · exact .inr (hp.1 l hl)
      · exact hnew l hl
    have hsub' : held ⊆ ls ++ held' := List.subset_append_of_subset_right ls hsub
    exact ⟨fun l hl => .inr (h _ _ l (hp.1 l hl)), ihn hp.2.1 _ hsub' hadd,
      fun e => ihf e (hp.2.2 e) _ hsub' hadd⟩

end Requests

/-- What a silent program requests, in a session with an outbox. -/
theorem asks_silent {P : M × List V → List L → L → Prop} {xs : List V} {p : Prog D L E M α}
    (h : p.asks (fun m => P (m, xs)) Q m held) :
    p.silent.asks P (fun a m' held' => Q a m'.1 held' ∧ m'.2 = xs) (m, xs) held := by
  induction p generalizing m held with
  | ret a => exact ⟨h, rfl⟩
  | raise e => trivial
  | orm f k ih => exact ih _ h
  | select k ih => exact fun d => ih d (h d)
  | lock target k ih =>
    exact fun d => ⟨fun ht => ih d ((h d).1 ht),
      fun l hl => ⟨((h d).2 l hl).1, ih d ((h d).2 l hl).2⟩⟩
  | write ls p c next failed ihn ihf => exact ⟨h.1, ihn h.2.1, fun e => ihf e (h.2.2 e)⟩

end Rules

end Prog

/-- What is left of a transaction after a statement requests what was left before. -/
theorem Session.Goes.asks {P : M → List L → L → Prop} {Q : R → M → List L → Prop}
    {free : L → Prop} {d : D} {t u : Session D L E M R} (h : t.Goes free d u)
    (ht : t.prog.asks P Q t.mem t.held) : u.prog.asks P Q u.mem u.held := by
  -- One case for each kind of statement.
  cases h with
  | orm hp =>
    rw [hp] at ht
    exact ht
  | select hp =>
    rw [hp] at ht
    exact ht _
  | missing hp hl =>
    rw [hp] at ht
    exact (ht _).1 hl
  | locked hp hl _ =>
    rw [hp] at ht
    exact ((ht _).2 _ hl).2
  | written hp _ _ =>
    rw [hp] at ht
    exact ht.2.1
  | failed hp _ _ =>
    rw [hp] at ht
    exact ht.2.2 _

namespace System

variable [DecidableEq L] {s : System D L E M R}

/-- The locks of the next statement are requested as the program may. -/
theorem of_mem_acquires {P : M → List L → L → Prop} {Q : R → M → List L → Prop}
    {t : Session D L E M R} (ht : t.prog.asks P Q t.mem t.held) {l : L} (hl : l ∈ s.acquires t) :
    P t.mem t.held l := by
  unfold acquires at hl
  split at hl
  · rename_i target k hp
    rw [hp] at ht
    obtain ⟨htarget, hnew⟩ := List.mem_filter.mp hl
    rw [Option.mem_toList] at htarget
    exact (((ht _).2 l htarget).1).resolve_left (by simpa using hnew)
  · rename_i ls p c next failed hp
    rw [hp] at ht
    obtain ⟨hmem, hnew⟩ := List.mem_filter.mp hl
    exact (ht.1 l hmem).resolve_left (by simpa using hnew)
  · exact absurd hl List.not_mem_nil

/-- In a run of programs that request their locks as `P` allows, what is left of every transaction
does so. -/
theorem Run.asks {P : M → List L → L → Prop} {Q : R → M → List L → Prop}
    {Allowed : Prog D L E M R → Prop} {cond : M → D → L → Prop} {m : M} {d : D}
    (hA : ∀ p, Allowed p → p.asks P Q m []) (h : Run Allowed cond m d s) (i : ℕ)
    (t : Session D L E M R) (ht : s.slots[i]? = some (.running t)) :
    t.prog.asks P Q t.mem t.held := by
  induction h generalizing i t with
  | init => simp at ht
  | begin _ hp ih =>
    rcases begin_cases ht with ht | rfl
    · exact ih i t ht
    · exact hA _ hp
  -- A step ends a transaction or goes on with what is left of it.
  | step j _ _ hs ih =>
    obtain ⟨u, hu, ⟨r, -, rfl⟩ | ⟨e, -, rfl⟩ | ⟨w, hw, rfl⟩⟩ := step_cases hs
    all_goals rcases getElem?_set_cases ht with ⟨-, ht⟩ | ⟨-, hx⟩
    · exact ih i t ht
    · cases hx
    · exact ih i t ht
    · cases hx
    · exact ih i t ht
    · cases hx
      exact hw.asks (ih j u hu)
  | abort j _ _ ih =>
    rcases getElem?_set_cases ht with ⟨-, ht⟩ | ⟨-, hx⟩
    · exact ih i t ht
    · cases hx

/-- The `i`-th transaction waits for the `j`-th: its next statement needs a lock that `sel` selects
for its session memory, and the `j`-th holds it. -/
def waitsFor (sel : M → L → Bool) (s : System D L E M R) (i j : ℕ) : Bool :=
  match s.slots[i]?, s.slots[j]? with
  | some (.running t), some x => i ≠ j && (s.acquires t).any fun l => sel t.mem l && x.holds l
  | _, _ => false

/-- The locks that `watched` selects, for every session. -/
def onLock (watched : L → Bool) : M → L → Bool := fun _ l => watched l

/-- A cycle of transactions each of which waits for the next one. -/
def Cycle (watched : L → Bool) (s : System D L E M R) : Prop :=
  ∃ i, Relation.TransGen (fun i j => s.waitsFor (onLock watched) i j = true) i i

variable {watched : L → Bool} {sel : M → L → Bool}

/-- What one transaction that waits for another asks for, and the other holds. -/
theorem waitsFor_eq_true {i j : ℕ} (h : s.waitsFor sel i j = true) :
    i ≠ j ∧ ∃ t u l, s.slots[i]? = some (.running t) ∧ s.slots[j]? = some (.running u) ∧
      l ∈ s.acquires t ∧ l ∈ u.held ∧ sel t.mem l = true := by
  unfold waitsFor at h
  split at h
  · rename_i t x ht hx
    simp only [ne_eq, Bool.and_eq_true, decide_eq_true_eq, List.any_eq_true] at h
    obtain ⟨hij, l, hl, hsel, hholds⟩ := h
    cases x with
    | running u => exact ⟨hij, t, u, l, ht, hx, hl, of_decide_eq_true hholds, hsel⟩
    | committed r => cases hholds
    | rolledBack e => cases hholds
  · cases h

/-- A transaction that asks for a lock of another one waits for it. -/
theorem waitsFor_of {i j : ℕ} {t u : Session D L E M R} {l : L} (hij : i ≠ j)
    (ht : s.slots[i]? = some (.running t)) (hu : s.slots[j]? = some (.running u))
    (hl : l ∈ s.acquires t) (hheld : l ∈ u.held) (hsel : sel t.mem l = true) :
    s.waitsFor sel i j = true := by
  unfold waitsFor
  rw [ht, hu]
  simp only [ne_eq, Bool.and_eq_true, decide_eq_true_eq, List.any_eq_true]
  exact ⟨hij, l, hl, hsel, decide_eq_true hheld⟩

/-- A transaction that waits is a slot. -/
theorem lt_length_of_waitsFor {i j : ℕ} (h : s.waitsFor sel i j = true) :
    i < s.slots.length ∧ j < s.slots.length := by
  obtain ⟨-, t, u, l, ht, hu, -⟩ := waitsFor_eq_true h
  exact ⟨(List.getElem?_eq_some_iff.mp ht).1, (List.getElem?_eq_some_iff.mp hu).1⟩

/-- When every transaction that waits for one that waits in turn waits for a lock that ranks above
those that it holds, no transaction waits for itself. -/
theorem not_cycle [Preorder ρ] (rank : L → ρ)
    (h : ∀ (i j k : ℕ) (t u : Session D L E M R) (l : L), s.slots[i]? = some (.running t) →
      s.slots[j]? = some (.running u) → i ≠ j → l ∈ s.acquires t → l ∈ u.held →
      watched l = true → s.waitsFor (onLock watched) j k = true →
      ∀ l' ∈ t.held, watched l' = true → rank l' < rank l) : ¬s.Cycle watched := by
  rintro ⟨i, hcycle⟩
  -- along a path the ranks rise from the lock waited for first to a lock held by the last one
  have hpath : ∀ j k, Relation.TransGen (fun i j => s.waitsFor (onLock watched) i j = true) i j →
      s.waitsFor (onLock watched) j k = true →
      ∃ t u l l', s.slots[i]? = some (.running t) ∧ s.slots[j]? = some (.running u) ∧
        l' ∈ u.held ∧ watched l' = true ∧ rank l ≤ rank l' ∧
        ∀ l₂ ∈ t.held, watched l₂ = true → rank l₂ < rank l := by
    intro j k hj hk
    induction hj generalizing k with
    | single hwait =>
      obtain ⟨hij, t, u, l, ht, hu, hl, hheld, hwatched⟩ := waitsFor_eq_true hwait
      exact ⟨t, u, l, l, ht, hu, hheld, hwatched, le_refl _,
        h _ _ k t u l ht hu hij hl hheld hwatched hk⟩
    | tail _ hwait ih =>
      obtain ⟨t, u, l, l', ht, hu, hl', hwatched', hle, hfirst⟩ := ih _ hwait
      obtain ⟨hij, u', w, l₂, hu', hw, hl₂, hheld, hwatched₂⟩ := waitsFor_eq_true hwait
      obtain rfl : u = u' := by simpa [hu] using hu'
      have hlt : rank l' < rank l₂ :=
        h _ _ k u w l₂ hu hw hij hl₂ hheld hwatched₂ hk l' hl' hwatched'
      exact ⟨t, w, l, l₂, ht, hw, hheld, hwatched₂, hle.trans hlt.le, hfirst⟩
  obtain ⟨k, hk, -⟩ := Relation.TransGen.head'_iff.mp hcycle
  obtain ⟨t, u, l, l', ht, hu, hl', hwatched', hle, hfirst⟩ := hpath i k hcycle hk
  obtain rfl : t = u := by simpa [ht] using hu
  exact absurd (hfirst l' hl' hwatched') (not_lt_of_ge hle)

/-- The locks are requested in the order of their ranks, apart from the early ones. -/
def Ascending [Preorder ρ] (watched : L → Bool) (rank : L → ρ) (early : M → L → Bool) (m : M)
    (held : List L) (l : L) : Prop :=
  watched l = true → early m l = true ∨ ∀ l' ∈ held, watched l' = true → rank l' < rank l

/-- In every run of programs that request their locks in the order of the ranks, apart from early
requests, a cycle contains an early request that waits for a transaction that waits in turn. -/
theorem not_cycle_of_run [Preorder ρ] {rank : L → ρ} {early : M → L → Bool}
    {Q : R → M → List L → Prop} {Allowed : Prog D L E M R → Prop} {cond : M → D → L → Prop} {m : M}
    {d : D} (hA : ∀ p, Allowed p → p.asks (Ascending watched rank early) Q m [])
    (h : Run Allowed cond m d s)
    (hearly : ∀ i j k, s.waitsFor early i j = true → s.waitsFor (onLock watched) j k = false) :
    ¬s.Cycle watched := by
  refine not_cycle rank fun i j k t u l ht hu hij hl hheld hwatched hk => ?_
  rcases of_mem_acquires (h.asks hA i t ht) hl hwatched with hfirst | hrank
  · rw [hearly i j k (waitsFor_of hij ht hu hl hheld hfirst)] at hk
    cases hk
  · exact hrank

end System

end Giftly.Store
