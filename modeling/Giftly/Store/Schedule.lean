import Giftly.Store.Program
import Mathlib.Algebra.Order.Ring.Nat
import Mathlib.Data.List.Basic

/-!
# Interleaved transactions

Any number of transactions run over one committed state, one statement at a time, at the isolation
level READ COMMITTED: a statement sees the committed state of that moment with the transaction's
own writes applied to it. A lock belongs to one transaction until that transaction ends, and a
statement that needs a lock of another transaction cannot take its step. A transaction may also be
rolled back at any point, by an error, a lost connection or the deadlock detector.

`Run` is every state that some interleaving reaches. It takes a condition on the moments at which
a lock is granted, so that results can speak of the runs that meet it; `play` executes a given
schedule and `Run.of_play` shows that it is a run.
-/

namespace Giftly.Store

variable {D L E M R : Type}

/-- A running transaction: what it still has to do, the locks it holds, its own writes as a
function on states, and its session memory. -/
structure Session (D L E M R : Type) where
  /-- The rest of the program. -/
  prog : Prog D L E M R
  /-- The locks held. -/
  held : List L
  /-- The transaction's own writes, not yet committed. -/
  pending : D → D
  /-- The session memory. -/
  mem : M

/-- A transaction of a system: still running, committed with a result, or rolled back. -/
inductive Slot (D L E M R : Type)
  | running (t : Session D L E M R)
  | committed (r : R)
  | rolledBack (e : Option E)

/-- A committed state and the transactions begun over it. -/
structure System (D L E M R : Type) where
  /-- The committed state. -/
  db : D
  /-- The transactions, in the order in which they began. -/
  slots : List (Slot D L E M R)

/-- Whether a transaction holds a lock. -/
def Slot.holds [DecidableEq L] (l : L) : Slot D L E M R → Bool
  | .running t => decide (l ∈ t.held)
  | _ => false

/-- The weight of a transaction: that of its result when it is committed. -/
def Slot.weight (w : R → ℕ) : Slot D L E M R → ℕ
  | .committed r => w r
  | _ => 0

/-- What a transaction sees: the committed state under its own writes. -/
def Session.view (t : Session D L E M R) (d : D) : D := t.pending d

/-- A transaction at its first statement. -/
def Session.start (m : M) (p : Prog D L E M R) : Session D L E M R := ⟨p, [], id, m⟩

/-- What a statement over the committed state `d` makes of a transaction that goes on, when the locks
that are `free` can be taken. -/
inductive Session.Goes (free : L → Prop) (d : D) :
    Session D L E M R → Session D L E M R → Prop
  | orm {t : Session D L E M R} {f k} (h : t.prog = .orm f k) :
      Goes free d t { t with prog := k (f t.mem), mem := f t.mem }
  | select {t : Session D L E M R} {k} (h : t.prog = .select k) :
      Goes free d t { t with prog := k (t.view d) }
  | missing {t : Session D L E M R} {target k} (h : t.prog = .lock target k)
      (hl : target (t.view d) = none) : Goes free d t { t with prog := k (t.view d) }
  | locked {t : Session D L E M R} {target k l} (h : t.prog = .lock target k)
      (hl : target (t.view d) = some l) (hfree : free l) :
      Goes free d t { t with prog := k (t.view d), held := l :: t.held }
  | written {t : Session D L E M R} {ls p c next failed} (h : t.prog = .write ls p c next failed)
      (hfree : ∀ l ∈ ls, free l) (hc : c (t.view d) = none) :
      Goes free d t { t with prog := next, held := ls ++ t.held, pending := p ∘ t.pending }
  | failed {t : Session D L E M R} {ls p c next failed e} (h : t.prog = .write ls p c next failed)
      (hfree : ∀ l ∈ ls, free l) (hc : c (t.view d) = some e) :
      Goes free d t { t with prog := failed e, held := ls ++ t.held }

/-- A statement takes only locks that are free. -/
theorem Session.Goes.held {free : L → Prop} {d : D} {t u : Session D L E M R}
    (h : t.Goes free d u) {l : L} (hl : l ∈ u.held) : l ∈ t.held ∨ free l := by
  cases h with
  | orm _ => exact .inl hl
  | select _ => exact .inl hl
  | missing _ _ => exact .inl hl
  | locked _ _ hfree =>
    rcases List.mem_cons.mp hl with rfl | hl
    · exact .inr hfree
    · exact .inl hl
  | written _ hfree _ => exact (List.mem_append.mp hl).symm.imp_right (hfree l)
  | failed _ hfree _ => exact (List.mem_append.mp hl).symm.imp_right (hfree l)

/-- What is left of a transaction after a statement is of the kind of what was left before. -/
theorem Session.Goes.writes {free : L → Prop} {d : D} {t u : Session D L E M R}
    {F : List L → (D → D) → Prop} {G : (M → M) → Prop} (h : t.Goes free d u)
    (hw : t.prog.Writes F G) : u.prog.Writes F G := by
  cases h with
  | orm hp =>
    rw [hp] at hw
    exact hw.2 _
  | select hp =>
    rw [hp] at hw
    exact hw _
  | missing hp _ =>
    rw [hp] at hw
    exact hw _
  | locked hp _ _ =>
    rw [hp] at hw
    exact hw _
  | written hp _ _ =>
    rw [hp] at hw
    exact hw.2.1
  | failed hp _ _ =>
    rw [hp] at hw
    exact hw.2.2 _

namespace System

/-- A slot of a system in which one transaction was replaced. -/
theorem getElem?_set_cases {slots : List (Slot D L E M R)} {i j : ℕ} {x y : Slot D L E M R}
    (h : (slots.set i x)[j]? = some y) : (i ≠ j ∧ slots[j]? = some y) ∨ (i = j ∧ x = y) := by
  rw [List.getElem?_set] at h
  split_ifs at h with hij hlt
  · exact .inr ⟨hij, Option.some.inj h⟩
  · exact .inl ⟨hij, h⟩

variable [DecidableEq L]

/-- Whether a lock is held by a transaction other than the `i`-th. -/
def blocked (s : System D L E M R) (i : ℕ) (l : L) : Bool :=
  s.slots.zipIdx.any fun x => x.2 != i && x.1.holds l

/-- The system with the `i`-th transaction replaced. -/
def put (s : System D L E M R) (i : ℕ) (x : Slot D L E M R) : System D L E M R :=
  { s with slots := s.slots.set i x }

/-- One statement of a running transaction, unless it has to wait for a lock. -/
def stepSession (s : System D L E M R) (i : ℕ) (t : Session D L E M R) :
    Option (System D L E M R) :=
  match t.prog with
  | .ret r => some { db := t.view s.db, slots := s.slots.set i (.committed r) }
  | .raise e => some (s.put i (.rolledBack (some e)))
  | .orm f k => some (s.put i (.running { t with prog := k (f t.mem), mem := f t.mem }))
  | .select k => some (s.put i (.running { t with prog := k (t.view s.db) }))
  | .lock target k =>
    match target (t.view s.db) with
    | none => some (s.put i (.running { t with prog := k (t.view s.db) }))
    | some l =>
      if s.blocked i l then none
      else some (s.put i (.running { t with prog := k (t.view s.db), held := l :: t.held }))
  | .write ls patch check next failed =>
    if ls.any (s.blocked i) then none
    else match check (t.view s.db) with
      | none => some (s.put i (.running
          { t with prog := next, held := ls ++ t.held, pending := patch ∘ t.pending }))
      | some e => some (s.put i (.running { t with prog := failed e, held := ls ++ t.held }))

/-- One statement of the `i`-th transaction. -/
def step (s : System D L E M R) (i : ℕ) : Option (System D L E M R) :=
  match s.slots[i]? with
  | some (.running t) => s.stepSession i t
  | _ => none

/-- What one statement does to a system: its transaction commits, is rolled back, or goes on. -/
theorem step_cases {s s' : System D L E M R} {i : ℕ} (hs : s.step i = some s') :
    ∃ t, s.slots[i]? = some (.running t) ∧
      ((∃ r, t.prog = .ret r ∧ s' = ⟨t.view s.db, s.slots.set i (.committed r)⟩) ∨
        (∃ e, t.prog = .raise e ∧ s' = s.put i (.rolledBack (some e))) ∨
        ∃ u, t.Goes (fun l => s.blocked i l = false) s.db u ∧ s' = s.put i (.running u)) := by
  unfold step at hs
  split at hs
  case h_2 => cases hs
  case h_1 t ht =>
    refine ⟨t, ht, ?_⟩
    unfold stepSession at hs
    split at hs
    · rename_i r hprog
      exact .inl ⟨r, hprog, (Option.some.inj hs).symm⟩
    · rename_i e hprog
      exact .inr (.inl ⟨e, hprog, (Option.some.inj hs).symm⟩)
    · rename_i f k hprog
      exact .inr (.inr ⟨_, .orm hprog, (Option.some.inj hs).symm⟩)
    · rename_i k hprog
      exact .inr (.inr ⟨_, .select hprog, (Option.some.inj hs).symm⟩)
    · -- A `SELECT ... FOR UPDATE` finds no row, or locks the one that it finds.
      rename_i target k hprog
      split at hs
      · rename_i hl
        exact .inr (.inr ⟨_, .missing hprog hl, (Option.some.inj hs).symm⟩)
      · rename_i l hl
        split_ifs at hs with hb
        exact .inr (.inr ⟨_, .locked hprog hl (by simpa using hb), (Option.some.inj hs).symm⟩)
    · -- A write takes its locks, then passes the checks of its table or fails them.
      rename_i ls p c next failed hprog
      split_ifs at hs with hb
      have hfree : ∀ l ∈ ls, s.blocked i l = false := by
        simpa [List.any_eq_true] using hb
      split at hs
      · rename_i hc
        exact .inr (.inr ⟨_, .written hprog hfree hc, (Option.some.inj hs).symm⟩)
      · rename_i e hc
        exact .inr (.inr ⟨_, .failed hprog hfree hc, (Option.some.inj hs).symm⟩)

/-- The locks that the next statement of a transaction takes and that it does not hold yet. -/
def acquires (s : System D L E M R) (t : Session D L E M R) : List L :=
  match t.prog with
  | .lock target _ => (target (t.view s.db)).toList.filter (· ∉ t.held)
  | .write ls _ _ _ _ => ls.filter (· ∉ t.held)
  | _ => []

/-- Every lock that the next statement of the `i`-th transaction takes anew is granted under the
condition. -/
def Grants (cond : M → D → L → Prop) (s : System D L E M R) (i : ℕ) : Prop :=
  ∀ t, s.slots[i]? = some (.running t) → ∀ l ∈ s.acquires t, cond t.mem (t.view s.db) l

section Grants

variable {cond : M → D → L → Prop} {s : System D L E M R} {i : ℕ} {t : Session D L E M R}

/-- The lock that a locking read takes is held already, or granted under the condition. -/
theorem Grants.lock (h : s.Grants cond i) (ht : s.slots[i]? = some (.running t))
    {target : D → Option L} {k : D → Prog D L E M R} (hp : t.prog = .lock target k) {l : L}
    (hl : target (t.view s.db) = some l) : l ∈ t.held ∨ cond t.mem (t.view s.db) l := by
  by_cases hm : l ∈ t.held
  · exact .inl hm
  · refine .inr (h t ht l ?_)
    simp [acquires, hp, hl, hm]

/-- The locks that a flush takes are held already, or granted under the condition. -/
theorem Grants.write (h : s.Grants cond i) (ht : s.slots[i]? = some (.running t)) {ls : List L}
    {p : D → D} {c : D → Option E} {next : Prog D L E M R} {failed : E → Prog D L E M R}
    (hp : t.prog = .write ls p c next failed) :
    ∀ l ∈ ls, l ∈ t.held ∨ cond t.mem (t.view s.db) l := by
  intro l hl
  by_cases hm : l ∈ t.held
  · exact .inl hm
  · refine .inr (h t ht l ?_)
    simp [acquires, hp, hl, hm]

end Grants

/-- A new transaction at its first statement. -/
def begin (s : System D L E M R) (m : M) (p : Prog D L E M R) : System D L E M R :=
  { s with slots := s.slots ++ [.running (Session.start m p)] }

omit [DecidableEq L] in
/-- A running transaction of a system in which one was begun. -/
theorem begin_cases {s : System D L E M R} {m : M} {p : Prog D L E M R} {j : ℕ}
    {t : Session D L E M R} (h : (s.begin m p).slots[j]? = some (.running t)) :
    s.slots[j]? = some (.running t) ∨ t = Session.start m p := by
  simp only [begin, List.getElem?_append] at h
  split_ifs at h
  · exact .inl h
  · rw [List.getElem?_singleton] at h
    split_ifs at h
    exact .inr (by simpa using h.symm)

/-- The states that interleavings of transactions from `Allowed` reach from a committed state, when
every lock is granted under `cond`. -/
inductive Run (Allowed : Prog D L E M R → Prop) (cond : M → D → L → Prop) (m : M) (d : D) :
    System D L E M R → Prop
  | init : Run Allowed cond m d ⟨d, []⟩
  | begin {s p} : Run Allowed cond m d s → Allowed p → Run Allowed cond m d (s.begin m p)
  | step {s s'} (i : ℕ) : Run Allowed cond m d s → s.Grants cond i → s.step i = some s' →
      Run Allowed cond m d s'
  | abort {s t} (i : ℕ) : Run Allowed cond m d s → s.slots[i]? = some (.running t) →
      Run Allowed cond m d (s.put i (.rolledBack none))

/-- The sum of a weight over the results of the committed transactions. -/
def weight (w : R → ℕ) (s : System D L E M R) : ℕ := (s.slots.map (Slot.weight w)).sum

/-- A commit that the `i`-th transaction is about to make fits the committed state. -/
def Fits (fit : R → D → Prop) (s : System D L E M R) (i : ℕ) : Prop :=
  ∀ t r, s.slots[i]? = some (.running t) → t.prog = .ret r → fit r s.db

/-- The states that interleavings reach when, besides, every commit fits the committed state that it
finds. -/
inductive RunUnder (Allowed : Prog D L E M R → Prop) (cond : M → D → L → Prop) (fit : R → D → Prop)
    (m : M) (d : D) : System D L E M R → Prop
  | init : RunUnder Allowed cond fit m d ⟨d, []⟩
  | begin {s p} : RunUnder Allowed cond fit m d s → Allowed p →
      RunUnder Allowed cond fit m d (s.begin m p)
  | step {s s'} (i : ℕ) : RunUnder Allowed cond fit m d s → s.Grants cond i → s.Fits fit i →
      s.step i = some s' → RunUnder Allowed cond fit m d s'
  | abort {s t} (i : ℕ) : RunUnder Allowed cond fit m d s → s.slots[i]? = some (.running t) →
      RunUnder Allowed cond fit m d (s.put i (.rolledBack none))

/-- Such an interleaving is a run. -/
theorem RunUnder.run {Allowed : Prog D L E M R → Prop} {cond : M → D → L → Prop}
    {fit : R → D → Prop} {m : M} {d : D} {s : System D L E M R}
    (h : RunUnder Allowed cond fit m d s) : Run Allowed cond m d s := by
  induction h with
  | init => exact .init
  | begin _ hp ih => exact ih.begin hp
  | step i _ hg _ hs ih => exact ih.step i hg hs
  | abort i _ ht ih => exact ih.abort i ht

/-- The condition that grants every lock. -/
abbrev always (D L M : Type) : M → D → L → Prop := fun _ _ _ => True

/-- An event of a schedule. -/
inductive Event (D L E M R : Type)
  | start (p : Prog D L E M R)
  | step (i : ℕ)

section Play

variable (cond : M → D → L → Prop) [∀ m d l, Decidable (cond m d l)]

/-- One statement of the `i`-th transaction, when its locks are granted under the condition. -/
def stepIf (s : System D L E M R) (i : ℕ) : Option (System D L E M R) :=
  match s.slots[i]? with
  | some (.running t) =>
    if ∀ l ∈ s.acquires t, cond t.mem (t.view s.db) l then s.stepSession i t else none
  | _ => none

/-- Execute a schedule. -/
def play (m : M) : List (Event D L E M R) → System D L E M R → Option (System D L E M R)
  | [], s => some s
  | .start p :: es, s => play m es (s.begin m p)
  | .step i :: es, s => (s.stepIf cond i).bind (play m es)

variable {cond}

/-- A conditional step is a step whose locks were granted. -/
theorem step_of_stepIf {s s' : System D L E M R} {i : ℕ} (h : s.stepIf cond i = some s') :
    s.Grants cond i ∧ s.step i = some s' := by
  unfold stepIf at h
  unfold Grants step
  split at h
  · rename_i t ht
    split_ifs at h with hg
    rw [ht]
    refine ⟨fun u hu => ?_, h⟩
    obtain rfl : t = u := by simpa using hu
    exact hg
  · cases h

/-- A schedule of allowed transactions is a run. -/
theorem Run.of_play {Allowed : Prog D L E M R → Prop} {m : M} {d : D} :
    ∀ {es : List (Event D L E M R)} {s s' : System D L E M R},
      Run Allowed cond m d s → (∀ p, Event.start p ∈ es → Allowed p) →
      play cond m es s = some s' → Run Allowed cond m d s'
  | [], s, s', hs, _, h => by
    obtain rfl : s = s' := by simpa [play] using h
    exact hs
  | .start p :: es, s, s', hs, ha, h =>
    Run.of_play (hs.begin (ha p List.mem_cons_self))
      (fun q hq => ha q (List.mem_cons_of_mem _ hq)) h
  | .step i :: es, s, s', hs, ha, h => by
    obtain ⟨s₁, h₁, h₂⟩ := Option.bind_eq_some_iff.mp h
    obtain ⟨hg, hstep⟩ := step_of_stepIf h₁
    exact Run.of_play (hs.step i hg hstep) (fun q hq => ha q (List.mem_cons_of_mem _ hq)) h₂

/-- A schedule that ends in a state with a property is a run to such a state. -/
theorem Run.exists_of_play (Allowed : Prog D L E M R → Prop) (cond : M → D → L → Prop)
    [∀ m d l, Decidable (cond m d l)] (m : M) (d : D) (es : List (Event D L E M R))
    (q : System D L E M R → Bool) (ha : ∀ p, Event.start p ∈ es → Allowed p)
    (h : (play cond m es ⟨d, []⟩).any q = true) :
    ∃ s, Run Allowed cond m d s ∧ q s = true := by
  obtain ⟨s, hs, hq⟩ := (Option.any_eq_true q _).mp h
  exact ⟨s, Run.of_play .init ha hs, hq⟩

variable (cond) (fit : R → D → Prop) [∀ r d, Decidable (fit r d)]

/-- One statement of the `i`-th transaction, when a commit fits the committed state. -/
def stepUnder (s : System D L E M R) (i : ℕ) : Option (System D L E M R) :=
  match s.slots[i]? with
  | some (.running ⟨.ret r, _, _, _⟩) => if fit r s.db then s.stepIf cond i else none
  | _ => s.stepIf cond i

/-- Execute a schedule whose commits fit. -/
def playUnder (m : M) : List (Event D L E M R) → System D L E M R → Option (System D L E M R)
  | [], s => some s
  | .start p :: es, s => playUnder m es (s.begin m p)
  | .step i :: es, s => (s.stepUnder cond fit i).bind (playUnder m es)

variable {cond fit}

/-- A step under conditions is a step that meets them. -/
theorem fits_of_stepUnder {s s' : System D L E M R} {i : ℕ}
    (h : s.stepUnder cond fit i = some s') :
    s.Fits fit i ∧ s.Grants cond i ∧ s.step i = some s' := by
  unfold stepUnder at h
  split at h
  · rename_i r held pending mem ht
    split_ifs at h with hfit
    refine ⟨fun t r' ht' hret => ?_, step_of_stepIf h⟩
    obtain rfl : (⟨.ret r, held, pending, mem⟩ : Session D L E M R) = t := by
      simpa [ht] using ht'
    obtain rfl : r = r' := by simpa using hret
    exact hfit
  · rename_i hno
    refine ⟨fun t r' ht' hret => ?_, step_of_stepIf h⟩
    obtain ⟨prog, held, pending, mem⟩ := t
    obtain rfl : prog = .ret r' := hret
    exact absurd ht' (hno r' held pending mem)

/-- A schedule of allowed transactions whose commits fit, and that ends in a state with a property,
is such a run. -/
theorem RunUnder.exists_of_play (Allowed : Prog D L E M R → Prop) (cond : M → D → L → Prop)
    [∀ m d l, Decidable (cond m d l)] (fit : R → D → Prop) [∀ r d, Decidable (fit r d)] (m : M)
    (d : D) (es : List (Event D L E M R)) (q : System D L E M R → Bool)
    (ha : ∀ p, Event.start p ∈ es → Allowed p)
    (h : (playUnder cond fit m es ⟨d, []⟩).any q = true) :
    ∃ s, RunUnder Allowed cond fit m d s ∧ q s = true := by
  -- By induction on the script, from any state of a run.
  have hplay : ∀ (es : List (Event D L E M R)) (s s' : System D L E M R),
      RunUnder Allowed cond fit m d s → (∀ p, Event.start p ∈ es → Allowed p) →
      playUnder cond fit m es s = some s' → RunUnder Allowed cond fit m d s' := by
    intro es
    induction es with
    | nil =>
      intro s s' hs _ heq
      obtain rfl : s = s' := by simpa [playUnder] using heq
      exact hs
    | cons e es ih =>
      intro s s' hs hall heq
      have hrest : ∀ p, Event.start p ∈ es → Allowed p := fun p hp =>
        hall p (List.mem_cons_of_mem _ hp)
      cases e with
      | start p => exact ih _ _ (hs.begin (hall p List.mem_cons_self)) hrest heq
      | step i =>
        obtain ⟨s₁, h₁, h₂⟩ := Option.bind_eq_some_iff.mp heq
        obtain ⟨hfits, hgrants, hstep⟩ := fits_of_stepUnder h₁
        exact ih _ _ (hs.step i hgrants hfits hstep) hrest h₂
  obtain ⟨s, hs, hq⟩ := (Option.any_eq_true q _).mp h
  exact ⟨s, hplay es _ s .init ha hs, hq⟩

end Play

end System

end Giftly.Store
