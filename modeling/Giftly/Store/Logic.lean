import Giftly.Store.Schedule
import Mathlib.Algebra.Order.BigOperators.Group.List
import Mathlib.Algebra.Order.Ring.Nat

/-!
# Reasoning about transactions

`wp` is the weakest precondition of a program against an environment that may change the committed
state between any two statements. What the environment may do is the relation `rely`, which depends
on the locks that the program holds, and `cond` is what is known of the state when a lock is
granted. Under a lock discipline (`Discipline`), other transactions keep an invariant and leave
alone what the held locks protect, and `inv_of_run` is the rule: when every transaction, at its
commit, keeps the invariant and changes only what its own locks protect, the invariant holds in
every state of every run. `Ends` is the counterpart for a transaction that runs alone, and `Returns`
says that it does not raise.
-/

namespace Giftly.Store

variable {D L E M R α β : Type}

/-- What a transaction knows at some point: the locks it holds, its own writes, its session memory,
and the committed state at its last statement. -/
structure View (D L M : Type) where
  /-- The locks held. -/
  held : List L
  /-- The transaction's own writes. -/
  pending : D → D
  /-- The session memory. -/
  mem : M
  /-- The committed state at the last statement. -/
  last : D

/-- What the transaction saw at its last statement. -/
abbrev View.seen (v : View D L M) : D := v.pending v.last

/-- A transaction that has not executed a statement. -/
abbrev View.start (m : M) (d : D) : View D L M := ⟨[], id, m, d⟩

/-- What the surroundings of a transaction may do: the changes of the committed state between two
statements, given the locks held, and what holds when a lock is granted. -/
structure Surroundings (D L M : Type) where
  /-- The committed state may change from the one to the other. -/
  rely : List L → D → D → Prop
  /-- What holds of the session memory and the view when a lock is granted. -/
  cond : M → D → L → Prop

/-- The weakest precondition: from the view `v`, whatever the surroundings do, the program either
raises or returns with a result and a view in `Q`. -/
def wp (C : Surroundings D L M) : Prog D L E M α → (α → View D L M → Prop) → View D L M → Prop
  | .ret a, Q, v => Q a v
  | .raise _, _, _ => True
  | .orm f k, Q, v => wp C (k (f v.mem)) Q { v with mem := f v.mem }
  | .select k, Q, v => ∀ d, C.rely v.held v.last d → wp C (k (v.pending d)) Q { v with last := d }
  | .lock target k, Q, v => ∀ d, C.rely v.held v.last d →
    (target (v.pending d) = none → wp C (k (v.pending d)) Q { v with last := d }) ∧
    ∀ l, target (v.pending d) = some l → (l ∈ v.held ∨ C.cond v.mem (v.pending d) l) →
      wp C (k (v.pending d)) Q { v with held := l :: v.held, last := d }
  | .write ls p c next failed, Q, v => ∀ d, C.rely v.held v.last d →
    (∀ l ∈ ls, l ∈ v.held ∨ C.cond v.mem (v.pending d) l) →
    (c (v.pending d) = none →
      wp C next Q { v with held := ls ++ v.held, pending := p ∘ v.pending, last := d }) ∧
    ∀ e, c (v.pending d) = some e →
      wp C (failed e) Q { v with held := ls ++ v.held, last := d }

section Rules

variable {C : Surroundings D L M} {Q Q' : α → View D L M → Prop} {v : View D L M}

/-- A result is returned in the view as it is. -/
@[simp]
theorem wp_ret (a : α) : wp C (.ret a : Prog D L E M α) Q v ↔ Q a v := Iff.rfl

/-- A program that raises meets every postcondition: its transaction is rolled back. -/
@[simp]
theorem wp_raise (e : E) : wp C (.raise e : Prog D L E M α) Q v ↔ True := Iff.rfl

/-- A step of the session changes the session memory alone. -/
@[simp]
theorem wp_orm (f : M → M) (k : M → Prog D L E M α) :
    wp C (.orm f k) Q v ↔ wp C (k (f v.mem)) Q { v with mem := f v.mem } := Iff.rfl

/-- A query sees the transaction's writes on a state that the surroundings may have reached. -/
theorem wp_select (k : D → Prog D L E M α) : wp C (.select k) Q v ↔
    ∀ d, C.rely v.held v.last d → wp C (k (v.pending d)) Q { v with last := d } := Iff.rfl

/-- The precondition is monotone in the postcondition. -/
theorem wp_mono {p : Prog D L E M α} (h : ∀ a v, Q a v → Q' a v) (hp : wp C p Q v) :
    wp C p Q' v := by
  induction p generalizing v with
  | ret a => exact h a v hp
  | raise e => trivial
  | orm f k ih => exact ih _ hp
  | select k ih => exact fun d hd => ih _ (hp d hd)
  | lock target k ih =>
    exact fun d hd => ⟨fun ht => ih _ ((hp d hd).1 ht), fun l hl hc => ih _ ((hp d hd).2 l hl hc)⟩
  | write ls p c next failed ihn ihf =>
    exact fun d hd hl =>
      ⟨fun hc => ihn ((hp d hd hl).1 hc), fun e he => ihf e ((hp d hd hl).2 e he)⟩

/-- The precondition of a sequence is the precondition of its first part for that of the second. -/
theorem wp_bind (p : Prog D L E M β) (g : β → Prog D L E M α) :
    wp C (p >>= g) Q v ↔ wp C p (fun b v' => wp C (g b) Q v') v := by
  induction p generalizing v with
  | ret a => rfl
  | raise e => rfl
  | orm f k ih => exact ih _
  | select k ih => exact forall_congr' fun d => imp_congr_right fun _ => ih _
  | lock target k ih =>
    refine forall_congr' fun d => imp_congr_right fun _ => and_congr ?_ ?_
    · exact imp_congr_right fun _ => ih _
    · exact forall_congr' fun l => imp_congr_right fun _ => imp_congr_right fun _ => ih _
  | write ls p c next failed ihn ihf =>
    refine forall_congr' fun d => imp_congr_right fun _ => imp_congr_right fun _ => and_congr ?_ ?_
    · exact imp_congr_right fun _ => ihn
    · exact forall_congr' fun e => imp_congr_right fun _ => ihf e

/-- A pure computation returns its value and leaves the view. -/
@[simp]
theorem wp_ofExcept (x : Except E α) :
    wp C (.ofExcept x : Prog D L E M α) Q v ↔ ∀ a, x = .ok a → Q a v := by
  cases x <;> simp [Prog.ofExcept]

/-- After a check, what is checked is known. -/
@[simp]
theorem wp_require (c : Prop) [Decidable c] (e : E) (Q : Unit → View D L M → Prop) :
    wp C (.require c e : Prog D L E M Unit) Q v ↔ (c → Q () v) := by
  unfold Prog.require
  split_ifs with h <;> simp [h]

/-- A conditional program is run, or nothing is. -/
@[simp]
theorem wp_when (c : Prop) [Decidable c] (p : Prog D L E M Unit) (Q : Unit → View D L M → Prop) :
    wp C (p.when c) Q v ↔ (c → wp C p Q v) ∧ (¬c → Q () v) := by
  unfold Prog.when
  split_ifs with h <;> simp [h]

/-- The two branches of a condition. -/
@[simp]
theorem wp_ite (c : Prop) [Decidable c] (p q : Prog D L E M α) :
    wp C (if c then p else q) Q v ↔ (c → wp C p Q v) ∧ (¬c → wp C q Q v) := by
  split_ifs with h <;> simp [h]

/-- A query returns what it reads, and its state is the last one seen. -/
theorem wp_query (f : D → α) : wp C (.query f : Prog D L E M α) Q v ↔
    ∀ d, C.rely v.held v.last d → Q (f (v.pending d)) { v with last := d } := Iff.rfl

/-- A flush holds the locks it asks for, and its patch is among the transaction's writes. -/
theorem wp_flush (ls : List L) (p : D → D) (c : D → Option E) (Q : Unit → View D L M → Prop) :
    wp C (.flush ls p c : Prog D L E M Unit) Q v ↔
      ∀ d, C.rely v.held v.last d → (∀ l ∈ ls, l ∈ v.held ∨ C.cond v.mem (v.pending d) l) →
        c (v.pending d) = none →
          Q () { v with held := ls ++ v.held, pending := p ∘ v.pending, last := d } := by
  refine forall_congr' fun d => imp_congr_right fun _ => imp_congr_right fun _ => ?_
  simp [wp]

/-- A check in front of a program. -/
theorem wp_require_bind {c : Prop} [Decidable c] {e : E} {g : Unit → Prog D L E M α}
    (h : c → wp C (g ()) Q v) : wp C (.require c e >>= g) Q v := by
  rw [wp_bind, wp_require]
  exact h

/-- A pure computation in front of a program. -/
theorem wp_ofExcept_bind {x : Except E β} {g : β → Prog D L E M α}
    (h : ∀ b, x = .ok b → wp C (g b) Q v) : wp C (.ofExcept x >>= g) Q v := by
  rw [wp_bind, wp_ofExcept]
  exact h

/-- A query in front of a program. -/
theorem wp_query_bind {f : D → β} {g : β → Prog D L E M α}
    (h : ∀ d, C.rely v.held v.last d → wp C (g (f (v.pending d))) Q { v with last := d }) :
    wp C (.query f >>= g) Q v := h

/-- A flush at the end of a program, in the direction that the proofs use. -/
theorem wp_flush_intro {ls : List L} {p : D → D} {c : D → Option E}
    {Q : Unit → View D L M → Prop}
    (h : ∀ d, C.rely v.held v.last d → (∀ l ∈ ls, l ∈ v.held ∨ C.cond v.mem (v.pending d) l) →
      c (v.pending d) = none →
        Q () { v with held := ls ++ v.held, pending := p ∘ v.pending, last := d }) :
    wp C (.flush ls p c : Prog D L E M Unit) Q v := (wp_flush ls p c Q).mpr h

/-- What is said of the view alone is kept when the result is dropped. -/
theorem wp_void {p : Prog D L E M α} {S : View D L M → Prop} (h : wp C p (fun _ v => S v) v) :
    wp C p.void (fun _ v => S v) v := (wp_bind _ _).mpr h

/-- A program keeps an assertion when it returns with the assertion from every view that has it. -/
def Keeps (C : Surroundings D L M) (J : View D L M → Prop) (p : Prog D L E M α) : Prop :=
  ∀ v, J v → wp C p (fun _ v' => J v') v

/-- A result keeps every assertion. -/
theorem Keeps.ret {J : View D L M → Prop} (a : α) : Keeps C J (.ret a : Prog D L E M α) :=
  fun _ h => h

/-- Raising keeps every assertion. -/
theorem Keeps.raise {J : View D L M → Prop} (e : E) : Keeps C J (.raise e : Prog D L E M α) :=
  fun _ _ => trivial

/-- Two programs that keep an assertion keep it one after the other. -/
theorem Keeps.bind {J : View D L M → Prop} {p : Prog D L E M β} {g : β → Prog D L E M α}
    (hp : Keeps C J p) (hg : ∀ b, Keeps C J (g b)) : Keeps C J (p >>= g) := fun v hv => by
  rw [wp_bind]
  exact wp_mono (fun b v' hv' => hg b v' hv') (hp v hv)

/-- A pure computation keeps every assertion. -/
theorem Keeps.ofExcept {J : View D L M → Prop} (x : Except E α) :
    Keeps C J (.ofExcept x : Prog D L E M α) := fun v hv => by
  rw [wp_ofExcept]
  exact fun _ _ => hv

/-- A check keeps every assertion. -/
theorem Keeps.require {J : View D L M → Prop} (c : Prop) [Decidable c] (e : E) :
    Keeps C J (.require c e : Prog D L E M Unit) := fun v hv => by
  rw [wp_require]
  exact fun _ => hv

/-- An assertion that the surroundings and further locks leave true. -/
structure Stable (C : Surroundings D L M) (J : View D L M → Prop) : Prop where
  rely : ∀ v d, J v → C.rely v.held v.last d → J { v with last := d }
  held : ∀ v ls, J v → (∀ l ∈ ls, l ∈ v.held ∨ C.cond v.mem v.seen l) →
    J { v with held := ls ++ v.held }

/-- A program keeps a stable assertion that its flushes and its changes of the session memory leave
true. -/
theorem Keeps.of_writes {J : View D L M → Prop} {F : List L → (D → D) → Prop}
    {G : (M → M) → Prop} (hJ : Stable C J)
    (hpatch : ∀ v ls p, F ls p → J v → (∀ l ∈ ls, l ∈ v.held ∨ C.cond v.mem v.seen l) →
      J { v with held := ls ++ v.held, pending := p ∘ v.pending })
    (hmem : ∀ v f, G f → J v → J { v with mem := f v.mem })
    {p : Prog D L E M α} (hp : p.Writes F G) : Keeps C J p := by
  -- Induction on the program; only its flushes and its changes of the memory matter.
  induction p with
  | ret a => exact fun v hv => hv
  | raise e => exact fun v hv => trivial
  | orm f k ih => exact fun v hv => ih _ (hp.2 _) _ (hmem v f hp.1 hv)
  | select k ih => exact fun v hv d hd => ih _ (hp _) _ (hJ.rely v d hv hd)
  | lock target k ih =>
    intro v hv d hd
    have hv' := hJ.rely v d hv hd
    refine ⟨fun _ => ih _ (hp _) _ hv', fun l _ hl => ih _ (hp _) _ (hJ.held _ [l] hv' ?_)⟩
    simpa using hl
  | write ls p c next failed ihn ihf =>
    intro v hv d hd hl
    have hv' := hJ.rely v d hv hd
    exact ⟨fun _ => ihn hp.2.1 _ (hpatch _ ls p hp.1 hv' hl),
      fun e _ => ihf e (hp.2.2 e) _ (hJ.held _ ls hv' hl)⟩

/-- What two analyses of a program establish holds together. -/
theorem wp_and {p : Prog D L E M α} (h : wp C p Q v) (h' : wp C p Q' v) :
    wp C p (fun a v => Q a v ∧ Q' a v) v := by
  induction p generalizing v with
  | ret a => exact ⟨h, h'⟩
  | raise e => trivial
  | orm f k ih => exact ih _ h h'
  | select k ih => exact fun d hd => ih _ (h d hd) (h' d hd)
  | lock target k ih =>
    exact fun d hd => ⟨fun ht => ih _ ((h d hd).1 ht) ((h' d hd).1 ht),
      fun l hl hc => ih _ ((h d hd).2 l hl hc) ((h' d hd).2 l hl hc)⟩
  | write ls p c next failed ihn ihf =>
    exact fun d hd hl => ⟨fun hc => ihn ((h d hd hl).1 hc) ((h' d hd hl).1 hc),
      fun e he => ihf e ((h d hd hl).2 e he) ((h' d hd hl).2 e he)⟩

/-- A postcondition that always holds. -/
theorem wp_of_forall {p : Prog D L E M α} (h : ∀ a v, Q a v) : wp C p Q v := by
  induction p generalizing v with
  | ret a => exact h a v
  | raise e => trivial
  | orm f k ih => exact ih _
  | select k ih => exact fun d _ => ih _
  | lock target k ih => exact fun d _ => ⟨fun _ => ih _, fun l _ _ => ih _⟩
  | write ls p c next failed ihn ihf => exact fun d _ _ => ⟨fun _ => ihn, fun e _ => ihf e⟩

/-- A program that keeps an assertion, in front of another program. -/
theorem Keeps.wp_bind {J : View D L M → Prop} {p : Prog D L E M β} {g : β → Prog D L E M α}
    (hp : Keeps C J p) (hv : J v) (hg : ∀ b v', J v' → wp C (g b) Q v') :
    wp C (p >>= g) Q v := by
  rw [Store.wp_bind]
  exact wp_mono hg (hp v hv)

end Rules

/-! ## A transaction alone -/

/-- Executed alone, the program raises or ends in a result, a session memory and a state in `Q`. -/
def Ends (p : Prog D L E M α) (Q : α → M → D → Prop) (m : M) (d : D) : Prop :=
  match p.run m d with
  | .ok (a, m', d') => Q a m' d'
  | .error _ => True

section Ends

variable {Q Q' : α → M → D → Prop} {m : M} {d : D}

/-- A result ends where it is returned. -/
@[simp]
theorem ends_ret (a : α) : Ends (.ret a : Prog D L E M α) Q m d ↔ Q a m d := Iff.rfl

/-- A program that raises never ends. -/
@[simp]
theorem ends_raise (e : E) : Ends (.raise e : Prog D L E M α) Q m d ↔ True := Iff.rfl

/-- A step of the session changes the session memory alone. -/
@[simp]
theorem ends_orm (f : M → M) (k : M → Prog D L E M α) :
    Ends (.orm f k) Q m d ↔ Ends (k (f m)) Q (f m) d := Iff.rfl

/-- A query alone reads the database as it is. -/
@[simp]
theorem ends_select (k : D → Prog D L E M α) : Ends (.select k) Q m d ↔ Ends (k d) Q m d := Iff.rfl

/-- A lock is granted to a transaction alone. -/
@[simp]
theorem ends_lock (t : D → Option L) (k : D → Prog D L E M α) :
    Ends (.lock t k) Q m d ↔ Ends (k d) Q m d := Iff.rfl

/-- A write alone is made if the constraints hold, and raises otherwise. -/
theorem ends_write (ls : List L) (p : D → D) (c : D → Option E) (next : Prog D L E M α)
    (failed : E → Prog D L E M α) : Ends (.write ls p c next failed) Q m d ↔
      (c d = none → Ends next Q m (p d)) ∧ ∀ e, c d = some e → Ends (failed e) Q m d := by
  unfold Ends
  cases hc : c d <;> simp [Prog.run, hc]

/-- A flush alone ends with its patch, if the constraints hold. -/
@[simp]
theorem ends_flush (ls : List L) (p : D → D) (c : D → Option E) (Q : Unit → M → D → Prop) :
    Ends (.flush ls p c : Prog D L E M Unit) Q m d ↔ (c d = none → Q () m (p d)) := by
  simp [Prog.flush, ends_write]

/-- A query alone ends with what it reads. -/
@[simp]
theorem ends_query (f : D → α) : Ends (.query f : Prog D L E M α) Q m d ↔ Q (f d) m d := Iff.rfl

/-- A pure computation ends with its value. -/
@[simp]
theorem ends_ofExcept (x : Except E α) :
    Ends (.ofExcept x : Prog D L E M α) Q m d ↔ ∀ a, x = .ok a → Q a m d := by
  cases x <;> simp [Prog.ofExcept]

/-- After a check, what is checked is known. -/
@[simp]
theorem ends_require (c : Prop) [Decidable c] (e : E) (Q : Unit → M → D → Prop) :
    Ends (.require c e : Prog D L E M Unit) Q m d ↔ (c → Q () m d) := by
  unfold Prog.require
  split_ifs with h <;> simp [h]

/-- A conditional program is run, or nothing is. -/
@[simp]
theorem ends_when (c : Prop) [Decidable c] (p : Prog D L E M Unit) (Q : Unit → M → D → Prop) :
    Ends (p.when c) Q m d ↔ (c → Ends p Q m d) ∧ (¬c → Q () m d) := by
  unfold Prog.when
  split_ifs with h <;> simp [h]

/-- The two branches of a condition. -/
@[simp]
theorem ends_ite (c : Prop) [Decidable c] (p q : Prog D L E M α) :
    Ends (if c then p else q) Q m d ↔ (c → Ends p Q m d) ∧ (¬c → Ends q Q m d) := by
  split_ifs with h <;> simp [h]

/-- What holds when a program ends holds after a run that has ended. -/
theorem Ends.of_run {p : Prog D L E M α} {a : α} {m' : M} {d' : D} (h : Ends p Q m d)
    (hrun : p.run m d = .ok (a, m', d')) : Q a m' d' := by
  unfold Ends at h
  rwa [hrun] at h

/-- What follows from a postcondition is one as well. -/
theorem Ends.mono {p : Prog D L E M α} (h : ∀ a m d, Q a m d → Q' a m d) (hp : Ends p Q m d) :
    Ends p Q' m d := by
  unfold Ends at *
  split
  · rename_i hr
    rw [hr] at hp
    exact h _ _ _ hp
  · trivial

/-- Nothing is said of a program by the postcondition that is always true. -/
@[simp]
theorem ends_true (p : Prog D L E M α) : Ends p (fun _ _ _ => True) m d ↔ True := by
  unfold Ends
  split <;> simp

/-- A sequence executed alone. -/
theorem Prog.run_bind (p : Prog D L E M β) (g : β → Prog D L E M α) (m : M) (d : D) :
    (p >>= g).run m d = match p.run m d with
      | .ok (b, m', d') => (g b).run m' d'
      | .error e => .error e := by
  induction p generalizing m d with
  | ret a => rfl
  | raise e => rfl
  | orm f k ih => exact ih _ _ _
  | select k ih => exact ih _ _ _
  | lock t k ih => exact ih _ _ _
  | write ls p c next failed ihn ihf =>
    simp only [Prog.write_bind, Prog.run]
    cases c d with
    | none => exact ihn _ _
    | some e => exact ihf e _ _

/-- A program ends where its second part ends, from where the first part ended. -/
@[simp]
theorem ends_bind (p : Prog D L E M β) (g : β → Prog D L E M α) :
    Ends (p >>= g) Q m d ↔ Ends p (fun b m' d' => Ends (g b) Q m' d') m d := by
  unfold Ends
  rw [Prog.run_bind]
  cases p.run m d <;> rfl

/-- A relation that every flush of a program makes holds between its first state and its last. -/
theorem Prog.Writes.ends {F : List L → (D → D) → Prop} {G : (M → M) → Prop} {R : D → D → Prop}
    {p : Prog D L E M α} (hp : p.Writes F G) (hrefl : ∀ d, R d d)
    (htrans : ∀ d₁ d₂ d₃, R d₁ d₂ → R d₂ d₃ → R d₁ d₃) (hF : ∀ ls f, F ls f → ∀ d, R d (f d)) :
    Ends p (fun _ _ d' => R d d') m d := by
  induction p generalizing m d with
  | ret a => exact hrefl d
  | raise e => trivial
  | orm f k ih => exact ih _ (hp.2 _)
  | select k ih => exact ih _ (hp _)
  | lock t k ih => exact ih _ (hp _)
  | write ls p c next failed ihn ihf =>
    unfold Ends
    simp only [Prog.run]
    cases c d with
    | none => exact (ihn hp.2.1).mono fun _ _ d' h => htrans _ _ _ (hF ls p hp.1 d) h
    | some e => exact ihf e (hp.2.2 e)

/-- A transaction executed alone keeps a property of the state when its program does. -/
theorem commit_of_ends {p : Prog D L E M α} {I : D → Prop} (hd : I d)
    (h : Ends p (fun _ _ d' => I d') m d) : I (p.commit m d) := by
  unfold Ends at h
  unfold Prog.commit
  cases hr : p.run m d with
  | error e => exact hd
  | ok r =>
    rw [hr] at h
    exact h

end Ends

/-- Executed alone, the program does not raise. What it then returns is the business of `Ends`. -/
def Returns (p : Prog D L E M α) (m : M) (d : D) : Prop := ∃ x, p.run m d = .ok x

section Returns

variable {Q : α → M → D → Prop} {m : M} {d : D}

/-- A result is returned. -/
@[simp]
theorem returns_ret (a : α) : Returns (.ret a : Prog D L E M α) m d ↔ True :=
  iff_true_intro ⟨_, rfl⟩

/-- A program that raises does not return. -/
@[simp]
theorem returns_raise (e : E) : Returns (.raise e : Prog D L E M α) m d ↔ False := by
  simp [Returns, Prog.run]

/-- A step of the session never raises. -/
@[simp]
theorem returns_orm (f : M → M) (k : M → Prog D L E M α) :
    Returns (.orm f k) m d ↔ Returns (k (f m)) (f m) d := Iff.rfl

/-- A lock is granted to a transaction alone. -/
@[simp]
theorem returns_lock (t : D → Option L) (k : D → Prog D L E M α) :
    Returns (.lock t k) m d ↔ Returns (k d) m d := Iff.rfl

/-- A write alone whose constraints hold goes on with what follows it. -/
theorem returns_write_of_none {ls : List L} {p : D → D} {c : D → Option E}
    {next : Prog D L E M α} {failed : E → Prog D L E M α} (hc : c d = none)
    (h : Returns next m (p d)) : Returns (.write ls p c next failed) m d := by
  obtain ⟨x, hx⟩ := h
  exact ⟨x, by simp only [Prog.run, hc, hx]⟩

/-- A flush alone returns exactly if the constraints hold. -/
@[simp]
theorem returns_flush (ls : List L) (p : D → D) (c : D → Option E) :
    Returns (.flush ls p c : Prog D L E M Unit) m d ↔ c d = none := by
  unfold Returns Prog.flush
  cases hc : c d <;> simp [Prog.run, hc]

/-- A query alone returns. -/
@[simp]
theorem returns_query (f : D → α) : Returns (.query f : Prog D L E M α) m d ↔ True :=
  iff_true_intro ⟨_, rfl⟩

/-- A pure computation returns exactly if it has a value. -/
@[simp]
theorem returns_ofExcept (x : Except E α) :
    Returns (.ofExcept x : Prog D L E M α) m d ↔ ∃ a, x = .ok a := by
  cases x <;> simp [Prog.ofExcept]

/-- A check returns exactly if it holds. -/
@[simp]
theorem returns_require (c : Prop) [Decidable c] (e : E) :
    Returns (.require c e : Prog D L E M Unit) m d ↔ c := by
  unfold Prog.require
  split_ifs with h <;> simp [h]

/-- A conditional program returns if it does under its condition. -/
theorem returns_when {c : Prop} [Decidable c] {p : Prog D L E M Unit}
    (h : c → Returns p m d) : Returns (p.when c) m d := by
  unfold Prog.when
  split_ifs with hc
  · exact h hc
  · exact ⟨_, rfl⟩

/-- A sequence returns when its first part does, and the rest does after it. -/
theorem returns_bind {p : Prog D L E M β} {g : β → Prog D L E M α} (hp : Returns p m d)
    (hg : Ends p (fun b m' d' => Returns (g b) m' d') m d) : Returns (p >>= g) m d := by
  obtain ⟨⟨b, m', d'⟩, hrun⟩ := hp
  unfold Ends at hg
  rw [hrun] at hg
  unfold Returns
  rw [Prog.run_bind, hrun]
  exact hg

/-- A program returns if its first part does and the second one does from everywhere. -/
theorem returns_bind_of_forall {p : Prog D L E M β} {g : β → Prog D L E M α} (hp : Returns p m d)
    (hg : ∀ b m' d', Returns (g b) m' d') : Returns (p >>= g) m d := by
  refine returns_bind hp ?_
  unfold Ends
  split
  · exact hg _ _ _
  · trivial

/-- A program that returns ends as it should. -/
theorem Returns.ends {p : Prog D L E M α} (hp : Returns p m d) (h : Ends p Q m d) :
    ∃ a m' d', p.run m d = .ok (a, m', d') ∧ Q a m' d' := by
  obtain ⟨⟨a, m', d'⟩, hrun⟩ := hp
  unfold Ends at h
  rw [hrun] at h
  exact ⟨a, m', d', hrun, h⟩

end Returns

/-! ## Lock discipline -/

/-- A lock discipline: an invariant of the committed state, what each lock protects, what is known
when a lock is granted, and what a commit may do. -/
structure Discipline (D L M : Type) where
  /-- The invariant of every committed state. -/
  inv : D → Prop
  /-- Two states agree on what a lock protects. -/
  same : L → D → D → Prop
  same_refl : ∀ l d, same l d d
  same_trans : ∀ {l d₁ d₂ d₃}, same l d₁ d₂ → same l d₂ d₃ → same l d₁ d₃
  /-- How the committed state develops over any number of commits. -/
  grows : D → D → Prop
  grows_refl : ∀ d, grows d d
  grows_trans : ∀ {d₁ d₂ d₃}, grows d₁ d₂ → grows d₂ d₃ → grows d₁ d₃
  /-- What holds when a lock is granted. -/
  cond : M → D → L → Prop
  /-- What a single commit may do to the committed state. -/
  guar : D → D → Prop

namespace Discipline

/-- What other transactions may do to a transaction under the discipline. -/
def surroundings (S : Discipline D L M) : Surroundings D L M where
  rely held d d' := S.inv d' ∧ S.grows d d' ∧ ∀ l ∈ held, S.same l d d'
  cond := S.cond

/-- A commit at the view `v` keeps the invariant, does what a commit may do, and changes only what
the transaction's locks protect. -/
def Commits (S : Discipline D L M) (v : View D L M) : Prop :=
  ∀ d, S.surroundings.rely v.held v.last d →
    S.inv (v.pending d) ∧ S.grows d (v.pending d) ∧ S.guar d (v.pending d) ∧
      ∀ l, l ∉ v.held → S.same l d (v.pending d)

/-- A transaction follows the discipline. -/
def Follows (S : Discipline D L M) (m : M) (p : Prog D L E M R) : Prop :=
  ∀ d, S.inv d → wp S.surroundings p (fun _ v => S.Commits v) (.start m d)

/-- A commit with the result `r` also relates the states before and after it as `post r` says. -/
def Delivers (S : Discipline D L M) (post : R → D → D → Prop) (r : R) (v : View D L M) : Prop :=
  S.Commits v ∧ ∀ d, S.surroundings.rely v.held v.last d → post r d (v.pending d)

/-- A transaction follows the discipline, and its commit does what its result says. -/
def Ensures (S : Discipline D L M) (post : R → D → D → Prop) (m : M) (p : Prog D L E M R) : Prop :=
  ∀ d, S.inv d → wp S.surroundings p (S.Delivers post) (.start m d)

/-- A transaction that follows the discipline ensures what is true of every result. -/
theorem Follows.ensures {S : Discipline D L M} {m : M} {p : Prog D L E M R} (h : S.Follows m p) :
    S.Ensures (fun _ _ _ => True) m p :=
  fun d hd => wp_mono (fun _ _ hv => ⟨hv, fun _ _ => trivial⟩) (h d hd)

/-- What a transaction knows stays true over a change that respects its locks. -/
theorem rely_trans (S : Discipline D L M) {held : List L} {d₁ d₂ d₃ : D}
    (h₁ : S.surroundings.rely held d₁ d₂) (h₂ : S.surroundings.rely held d₂ d₃) :
    S.surroundings.rely held d₁ d₃ :=
  ⟨h₂.1, S.grows_trans h₁.2.1 h₂.2.1, fun l hl => S.same_trans (h₁.2.2 l hl) (h₂.2.2 l hl)⟩

/-- The surroundings may do nothing. -/
theorem rely_refl (S : Discipline D L M) {held : List L} {d : D} (h : S.inv d) :
    S.surroundings.rely held d d := ⟨h, S.grows_refl d, fun l _ => S.same_refl l d⟩

/-- A transaction whose writes change nothing commits. -/
theorem commits_of_fixed (S : Discipline D L M) {v : View D L M} (hg : ∀ d, S.guar d d)
    (h : ∀ d, S.surroundings.rely v.held v.last d → v.pending d = d) : S.Commits v := by
  intro d hd
  rw [h d hd]
  exact ⟨hd.1, S.grows_refl d, hg d, fun l _ => S.same_refl l d⟩

/-- A running transaction can go on under the discipline from a committed state. -/
def CanGoOn (S : Discipline D L M) (post : R → D → D → Prop) (d : D) (t : Session D L E M R) :
    Prop :=
  ∃ last, S.surroundings.rely t.held last d ∧
    wp S.surroundings t.prog (S.Delivers post) ⟨t.held, t.pending, t.mem, last⟩

/-- What holds of a system under the discipline: the invariant, every running transaction able to
go on under the discipline, and no lock held twice. -/
structure Good (S : Discipline D L M) (post : R → D → D → Prop) (s : System D L E M R) : Prop where
  inv : S.inv s.db
  follows : ∀ (i : ℕ) (t : Session D L E M R), s.slots[i]? = some (.running t) →
    S.CanGoOn post s.db t
  disjoint : ∀ (i j : ℕ) (t u : Session D L E M R), i ≠ j → s.slots[i]? = some (.running t) →
    s.slots[j]? = some (.running u) → ∀ l ∈ t.held, l ∉ u.held

variable [DecidableEq L]

/-- A lock that is not blocked is held by no other running transaction. -/
theorem not_held_of_not_blocked {s : System D L E M R} {i j : ℕ} {u : Session D L E M R} {l : L}
    (h : s.blocked i l = false) (hij : i ≠ j) (hj : s.slots[j]? = some (.running u)) :
    l ∉ u.held := by
  intro hl
  unfold System.blocked at h
  rw [List.any_eq_false] at h
  refine h (.running u, j) ?_ ?_
  · exact List.mk_mem_zipIdx_iff_getElem?.mpr hj
  · have hne : j ≠ i := hij.symm
    simp [Slot.holds, hl, hne]

omit [DecidableEq L] in
/-- Replacing one transaction of a good system, with the committed state unchanged. -/
theorem Good.put {S : Discipline D L M} {post : R → D → D → Prop} {s : System D L E M R}
    (h : S.Good post s) (i : ℕ) (x : Slot D L E M R)
    (hf : ∀ t, x = .running t → S.CanGoOn post s.db t)
    (hd : ∀ t, x = .running t → ∀ (j : ℕ) (u : Session D L E M R), i ≠ j →
      s.slots[j]? = some (.running u) → ∀ l ∈ t.held, l ∉ u.held) : S.Good post (s.put i x) where
  inv := h.inv
  follows j t hj := by
    rcases System.getElem?_set_cases hj with ⟨-, hj⟩ | ⟨-, hx⟩
    · exact h.follows j t hj
    · exact hf t hx
  disjoint j k t u hjk hj hk := by
    rcases System.getElem?_set_cases hj with ⟨-, hj⟩ | ⟨hij, hx⟩
    · rcases System.getElem?_set_cases hk with ⟨-, hk⟩ | ⟨hik, hx⟩
      · exact h.disjoint j k t u hjk hj hk
      · exact fun l hl hl' => hd u hx j t (hik.trans_ne hjk.symm) hj l hl' hl
    · rcases System.getElem?_set_cases hk with ⟨hik, hk⟩ | ⟨hik, -⟩
      · exact hd t hx k u hik hk
      · exact absurd (hij.symm.trans hik) hjk

/-- What one statement does to a system: a running transaction goes on or is rolled back, and
nothing is committed, or it commits with a result. -/
def Advances (S : Discipline D L M) (post : R → D → D → Prop) (s s' : System D L E M R) (i : ℕ) :
    Prop :=
  ∃ t x, s.slots[i]? = some (.running t) ∧ s'.slots = s.slots.set i x ∧
    ((s'.db = s.db ∧ ∀ r, x ≠ .committed r) ∨
      ∃ r, t.prog = .ret r ∧ x = .committed r ∧ S.guar s.db s'.db ∧ post r s.db s'.db)

/-- A transaction that could go on under the discipline can go on after its next statement. -/
theorem CanGoOn.goes {S : Discipline D L M} {post : R → D → D → Prop} {s : System D L E M R}
    {i : ℕ} {t u : Session D L E M R} {free : L → Prop} (h : S.CanGoOn post s.db t)
    (hinv : S.inv s.db) (hc : s.Grants S.cond i) (ht : s.slots[i]? = some (.running t))
    (hu : t.Goes free s.db u) : S.CanGoOn post s.db u := by
  obtain ⟨last, hrely, hwp⟩ := h
  have hrefl : ∀ held, S.surroundings.rely held s.db s.db := fun _ => S.rely_refl hinv
  cases hu with
  -- A command on the session needs no state of the database.
  | orm hp =>
    rw [hp] at hwp
    exact ⟨last, hrely, hwp⟩
  | select hp =>
    rw [hp] at hwp
    exact ⟨s.db, hrefl _, hwp s.db hrely⟩
  | missing hp hl =>
    rw [hp] at hwp
    exact ⟨s.db, hrefl _, (hwp s.db hrely).1 hl⟩
  | locked hp hl _ =>
    rw [hp] at hwp
    exact ⟨s.db, hrefl _, (hwp s.db hrely).2 _ hl (hc.lock ht hp hl)⟩
  -- A write was granted its locks, so the condition of the discipline holds.
  | written hp _ hcheck =>
    rw [hp] at hwp
    exact ⟨s.db, hrefl _, (hwp s.db hrely (hc.write ht hp)).1 hcheck⟩
  | failed hp _ hcheck =>
    rw [hp] at hwp
    exact ⟨s.db, hrefl _, (hwp s.db hrely (hc.write ht hp)).2 _ hcheck⟩

/-- One statement of a good system: the system stays good, and a commit does what it may. -/
theorem Good.step {S : Discipline D L M} {post : R → D → D → Prop} {s s' : System D L E M R}
    {i : ℕ} (h : S.Good post s) (hc : s.Grants S.cond i) (hs : s.step i = some s') :
    S.Good post s' ∧ S.Advances post s s' i := by
  obtain ⟨t, ht, ⟨r, hp, rfl⟩ | ⟨e, -, rfl⟩ | ⟨u, hu, rfl⟩⟩ := System.step_cases hs
  · obtain ⟨last, hrely, hwp⟩ := h.follows i t ht
    rw [hp] at hwp
    obtain ⟨hinv, hgrows, hguar, hsame⟩ := hwp.1 s.db hrely
    refine ⟨⟨hinv, ?_, ?_⟩, t, _, ht, rfl, .inr ⟨r, hp, rfl, hguar, hwp.2 s.db hrely⟩⟩
    · -- The other transactions hold none of the locks under which the commit changed the state.
      intro j w hj
      rcases System.getElem?_set_cases hj with ⟨hij, hj⟩ | ⟨-, hx⟩
      · obtain ⟨last', hrely', hwp'⟩ := h.follows j w hj
        refine ⟨last', S.rely_trans hrely' ⟨hinv, hgrows, fun l hl => ?_⟩, hwp'⟩
        exact hsame l fun hl' => h.disjoint i j t w hij ht hj l hl' hl
      · cases hx
    · intro j k w w' hjk hj hk
      rcases System.getElem?_set_cases hj with ⟨-, hj⟩ | ⟨-, hx⟩
      · rcases System.getElem?_set_cases hk with ⟨-, hk⟩ | ⟨-, hx⟩
        · exact h.disjoint j k w w' hjk hj hk
        · cases hx
      · cases hx
  · -- A rollback commits nothing.
    exact ⟨h.put i _ (by simp) (by simp), t, _, ht, rfl, .inl ⟨rfl, by simp⟩⟩
  · -- Any other statement commits nothing, and locks only what nobody holds.
    refine ⟨h.put i _ ?_ ?_, t, _, ht, rfl, .inl ⟨rfl, by simp⟩⟩
    · rintro _ ⟨⟩
      exact (h.follows i t ht).goes h.inv hc ht hu
    · rintro _ ⟨⟩ j w hij hj l hl
      rcases hu.held hl with hl | hfree
      · exact h.disjoint i j t w hij ht hj l hl
      · exact not_held_of_not_blocked hfree hij hj

omit [DecidableEq L] in
/-- A new transaction that follows the discipline, begun over a good system. -/
theorem Good.begin {S : Discipline D L M} {post : R → D → D → Prop} {s : System D L E M R} {m : M}
    {p : Prog D L E M R} (h : S.Good post s) (hp : S.Ensures post m p) :
    S.Good post (s.begin m p) := by
  refine ⟨h.inv, ?_, ?_⟩
  · intro j t hj
    rcases System.begin_cases hj with hj | rfl
    · exact h.follows j t hj
    · exact ⟨s.db, S.rely_refl h.inv, hp s.db h.inv⟩
  · intro j k t u hjk hj hk
    rcases System.begin_cases hj with hj | rfl
    · rcases System.begin_cases hk with hk | rfl
      · exact h.disjoint j k t u hjk hj hk
      · simp [Session.start]
    · simp [Session.start]

/-- A run of transactions that follow the discipline stays good. -/
theorem good_of_run {S : Discipline D L M} {post : R → D → D → Prop}
    {Allowed : Prog D L E M R → Prop} {m : M} {d : D} (hA : ∀ p, Allowed p → S.Ensures post m p)
    (hd : S.inv d) {s : System D L E M R} (h : System.Run Allowed S.cond m d s) :
    S.Good post s := by
  induction h with
  | init => exact ⟨hd, by simp, by simp⟩
  | begin _ hp ih => exact ih.begin (hA _ hp)
  | step i _ hc hs ih => exact (ih.step hc hs).1
  | abort i _ _ ih => exact ih.put i _ (by simp) (by simp)

/-- The invariant holds in every state of every run of transactions that follow the discipline. -/
theorem inv_of_run {S : Discipline D L M} {Allowed : Prog D L E M R → Prop} {m : M} {d : D}
    (hA : ∀ p, Allowed p → S.Follows m p) (hd : S.inv d) {s : System D L E M R}
    (h : System.Run Allowed S.cond m d s) : S.inv s.db :=
  (good_of_run (fun p hp => (hA p hp).ensures) hd h).inv

/-- Every step of a run changes the committed state only as a commit may. -/
theorem guar_of_run {S : Discipline D L M} {Allowed : Prog D L E M R → Prop} {m : M} {d : D}
    (hA : ∀ p, Allowed p → S.Follows m p) (hd : S.inv d) {s s' : System D L E M R} {i : ℕ}
    (h : System.Run Allowed S.cond m d s) (hc : s.Grants S.cond i) (hs : s.step i = some s') :
    s'.db = s.db ∨ S.guar s.db s'.db := by
  have hgood := good_of_run (fun p hp => (hA p hp).ensures) hd h
  obtain ⟨t, x, -, -, hstay | ⟨r, -, -, hguar, -⟩⟩ := (hgood.step hc hs).2
  · exact .inl hstay.1
  · exact .inr hguar

omit [DecidableEq L] in
/-- The weight of a system in which a running transaction was replaced. -/
theorem weight_set {w : R → ℕ} {s s' : System D L E M R} {i : ℕ} {t : Session D L E M R}
    {x : Slot D L E M R} (ht : s.slots[i]? = some (.running t)) (hs : s'.slots = s.slots.set i x) :
    s'.weight w = s.weight w + x.weight w := by
  unfold System.weight
  rw [hs]
  clear hs
  generalize s.slots = slots at ht
  -- Induction on the slots, down to the one that is replaced.
  induction slots generalizing i with
  | nil => simp at ht
  | cons y ys ih =>
    cases i with
    | zero =>
      obtain rfl : y = .running t := by simpa using ht
      simp only [List.set_cons_zero, List.map_cons, List.sum_cons, Slot.weight]
      omega
    | succ i =>
      have hys : ys[i]? = some (.running t) := by simpa using ht
      have h := ih hys
      simp only [List.set_cons_succ, List.map_cons, List.sum_cons]
      omega

omit [DecidableEq L] in
/-- At most one committed transaction has a result that weighs something, when all together weigh
at most one. -/
theorem eq_of_weight_le_one {w : R → ℕ} {s : System D L E M R} (h : s.weight w ≤ 1) {i j : ℕ}
    {r r' : R} (hi : s.slots[i]? = some (.committed r)) (hj : s.slots[j]? = some (.committed r'))
    (hr : 0 < w r) (hr' : 0 < w r') : i = j := by
  unfold System.weight at h
  have hle : ∀ (slots : List (Slot D L E M R)) (k : ℕ) (q : R), slots[k]? = some (.committed q) →
      w q ≤ (slots.map (Slot.weight w)).sum := by
    intro slots k q hk
    have hmem : w q ∈ slots.map (Slot.weight w) :=
      List.mem_map.mpr ⟨.committed q, List.mem_of_getElem? hk, rfl⟩
    exact List.single_le_sum (fun _ _ => Nat.zero_le _) _ hmem
  -- Two slots of positive weight would already weigh two.
  generalize s.slots = slots at h hi hj
  induction slots generalizing i j with
  | nil => simp at hi
  | cons x xs ih =>
    rw [List.map_cons, List.sum_cons] at h
    cases i with
    | zero =>
      obtain rfl : x = .committed r := by simpa using hi
      cases j with
      | zero => rfl
      | succ j =>
        have hrest := hle xs j r' (by simpa using hj)
        simp only [Slot.weight] at h
        omega
    | succ i =>
      cases j with
      | zero =>
        obtain rfl : x = .committed r' := by simpa using hj
        have hrest := hle xs i r (by simpa using hi)
        simp only [Slot.weight] at h
        omega
      | succ j =>
        have hij : i = j := ih (by omega) (by simpa using hi) (by simpa using hj)
        rw [hij]

/-- When a commit with a result raises a measure of the committed state by the weight of the
result, the measure bounds the weight of all results of a run. -/
theorem weight_of_run {S : Discipline D L M} {Allowed : Prog D L E M R → Prop} {m : M} {d : D}
    {w : R → ℕ} {N : D → ℕ} (hA : ∀ p, Allowed p → S.Ensures (fun r d d' => N d + w r ≤ N d') m p)
    (hd : S.inv d) {s : System D L E M R} (h : System.Run Allowed S.cond m d s) :
    N d + s.weight w ≤ N s.db := by
  induction h with
  | init => simp [System.weight]
  | begin _ _ ih => simpa [System.weight, System.begin, Session.start, Slot.weight] using ih
  | step i hrun hc hs ih =>
    obtain ⟨t, x, ht, hset, hcases⟩ := ((good_of_run hA hd hrun).step hc hs).2
    have hweight := weight_set (w := w) ht hset
    rcases hcases with ⟨hdb, hx⟩ | ⟨r, -, rfl, -, hpost⟩
    · -- Without a commit the slot has no weight.
      have hzero : x.weight w = 0 := by
        cases x with
        | committed r => exact absurd rfl (hx r)
        | running _ => rfl
        | rolledBack _ => rfl
      rw [hdb]
      omega
    · simp only [Slot.weight] at hweight
      omega
  | @abort s t i _ ht ih =>
    have hweight : (s.put i (.rolledBack none)).weight w = s.weight w :=
      weight_set (x := .rolledBack none) ht rfl
    rw [hweight]
    exact ih

end Discipline

end Giftly.Store
