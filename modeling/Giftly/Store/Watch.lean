import Giftly.Store.Logic
import Mathlib.Data.List.Pairwise

/-!
# What a reading transaction sees

A stretch of a run, watched from one transaction: `Watch` collects the committed states at which
that transaction executes its statements, while the others go on as they like. For a program of
plain reads these states decide everything (`Watch.reader`): its result is the one that `replay`
computes from them. And when every flush of every transaction moves the state by a relation, the
states that were seen are a chain of that relation (`Watch.chain`).
-/

namespace Giftly.Store

variable {D L E M R α : Type}

namespace Prog

/-- A program of plain reads. -/
def ReadsOnly : Prog D L E M α → Prop
  | ret _ | raise _ => True
  | select k => ∀ d, (k d).ReadsOnly
  | _ => False

/-- A program of plain reads on the committed states at its statements, its end included. -/
def replay : Prog D L E M α → List D → Option (Except E α)
  | ret a, [_] => some (.ok a)
  | raise e, [_] => some (.error e)
  | select k, d :: ds => (k d).replay ds
  | _, _ => none

/-- A query only reads. -/
theorem readsOnly_query (f : D → α) : (query f : Prog D L E M α).ReadsOnly := fun _ => trivial

/-- A pure computation only reads. -/
theorem readsOnly_ofExcept (x : Except E α) : (ofExcept x : Prog D L E M α).ReadsOnly := by
  cases x <;> trivial

/-- Two programs that only read, one after the other. -/
theorem ReadsOnly.bind {β : Type} {p : Prog D L E M α} {g : α → Prog D L E M β}
    (hp : p.ReadsOnly) (hg : ∀ a, (g a).ReadsOnly) : (p >>= g).ReadsOnly := by
  induction p with
  | ret a => exact hg a
  | raise e => trivial
  | select k ih => exact fun d => ih d (hp d)
  | orm f k ih => exact hp.elim
  | lock t k ih => exact hp.elim
  | write ls q c next failed ihn ihf => exact hp.elim

/-- A check only reads. -/
theorem readsOnly_require (c : Prop) [Decidable c] (e : E) :
    (require c e : Prog D L E M Unit).ReadsOnly := by
  unfold require
  split_ifs <;> trivial

/-- A program of plain reads alone: its result, or its error, is a function of the state, which it
leaves as it is, as it does the session memory. -/
theorem ReadsOnly.exists_run {p : Prog D L E M α} (hp : p.ReadsOnly) :
    ∃ f : D → Except E α, ∀ m d, p.run m d = (f d).map fun a => (a, m, d) := by
  induction p with
  | ret a => exact ⟨fun _ => .ok a, fun _ _ => rfl⟩
  | raise e => exact ⟨fun _ => .error e, fun _ _ => rfl⟩
  | select k ih =>
    have hk := fun d => ih d (hp d)
    exact ⟨fun d => (hk d).choose d, fun m d => (hk d).choose_spec m d⟩
  | orm f k ih => exact hp.elim
  | lock t k ih => exact hp.elim
  | write ls q c next failed ihn ihf => exact hp.elim

/-- What follows a program of plain reads starts where it started. -/
theorem ReadsOnly.ends {p : Prog D L E M α} (hp : p.ReadsOnly) {Q : α → M → D → Prop} {m : M} {d : D}
    (h : ∀ a, (∀ m', p.run m' d = .ok (a, m', d)) → Q a m d) : Ends p Q m d := by
  obtain ⟨f, hf⟩ := hp.exists_run
  unfold Ends
  rw [hf m d]
  cases hfd : f d with
  | error e => trivial
  | ok a =>
    apply h a
    intro m'
    rw [hf m' d, hfd]
    rfl

/-- A program of plain reads has no flush. -/
theorem ReadsOnly.writes {p : Prog D L E M α} (hp : p.ReadsOnly) {F : List L → (D → D) → Prop}
    {G : (M → M) → Prop} : p.Writes F G := by
  induction p with
  | ret a => trivial
  | raise e => trivial
  | select k ih => exact fun d => ih d (hp d)
  | orm f k ih => exact hp.elim
  | lock t k ih => exact hp.elim
  | write ls q c next failed ihn ihf => exact hp.elim

/-- Before its first statement a program has no result. -/
theorem replay_nil (p : Prog D L E M α) : p.replay [] = none := by
  cases p <;> rfl

end Prog

namespace System

variable [DecidableEq L]

/-- From the system `s₀` on, the committed states at which the `i`-th transaction executes its
statements. The other transactions go on, begin and end in between, and every committed state has
the property `P`. -/
inductive Watch (Allowed : Prog D L E M R → Prop) (P : D → Prop) (m : M) (i : ℕ)
    (s₀ : System D L E M R) : List D → System D L E M R → Prop
  | start : P s₀.db → Watch Allowed P m i s₀ [] s₀
  | begin {ds s p} : Watch Allowed P m i s₀ ds s → Allowed p →
      Watch Allowed P m i s₀ ds (s.begin m p)
  | own {ds s s'} : Watch Allowed P m i s₀ ds s → s.step i = some s' → P s'.db →
      Watch Allowed P m i s₀ (ds ++ [s.db]) s'
  | other {ds s s'} (j : ℕ) : j ≠ i → Watch Allowed P m i s₀ ds s → s.step j = some s' →
      P s'.db → Watch Allowed P m i s₀ ds s'
  | abort {ds s t} (j : ℕ) : Watch Allowed P m i s₀ ds s → s.slots[j]? = some (.running t) →
      Watch Allowed P m i s₀ ds (s.put j (.rolledBack none))

variable {Allowed : Prog D L E M R → Prop} {P : D → Prop} {m : M} {i : ℕ}
  {s₀ s s' : System D L E M R} {ds : List D}

/-- Every state that was seen has the property, and so has the last one. -/
theorem Watch.holds (h : Watch Allowed P m i s₀ ds s) : P s.db ∧ ∀ d ∈ ds, P d := by
  induction h with
  | start h₀ => exact ⟨h₀, by simp⟩
  | begin _ _ ih => exact ih
  | own _ _ hP ih =>
    refine ⟨hP, fun d hd => ?_⟩
    rcases List.mem_append.mp hd with hd | hd
    · exact ih.2 d hd
    · rw [List.mem_singleton.mp hd]
      exact ih.1
  | other _ _ _ _ hP ih => exact ⟨hP, ih.2⟩
  | abort _ _ _ ih => exact ih

/-- A statement of another transaction leaves the `i`-th where it is. -/
theorem slot_of_step {j : ℕ} (h : s.step j = some s') (hij : j ≠ i) : s'.slots[i]? = s.slots[i]? := by
  obtain ⟨t, -, ⟨r, -, rfl⟩ | ⟨e, -, rfl⟩ | ⟨u, -, rfl⟩⟩ := step_cases h
  · exact List.getElem?_set_ne hij
  · exact List.getElem?_set_ne hij
  · exact List.getElem?_set_ne hij

/-- Where a reading transaction is, after the statements whose states were seen. -/
inductive Reader (p : Prog D L E M R) (held : List L) (m' : M) (ds : List D) :
    Slot D L E M R → Prop
  /-- It still runs, and what is left of it gives the result from the states still to come. -/
  | running (q : Prog D L E M R) : q.ReadsOnly → (∀ rest, p.replay (ds ++ rest) = q.replay rest) →
      Reader p held m' ds (.running ⟨q, held, id, m'⟩)
  | committed (r : R) : p.replay ds = some (.ok r) → Reader p held m' ds (.committed r)
  | raised (e : E) : p.replay ds = some (.error e) → Reader p held m' ds (.rolledBack (some e))
  /-- It was rolled back before its end. -/
  | aborted : p.replay ds = none → Reader p held m' ds (.rolledBack none)

/-- One statement of a reading transaction. -/
theorem Reader.step {p : Prog D L E M R} {held : List L} {m' : M} {x : Slot D L E M R}
    (h : Reader p held m' ds x) (hx : s.slots[i]? = some x) (hs : s.step i = some s') :
    s'.db = s.db ∧ ∃ y, s'.slots[i]? = some y ∧ Reader p held m' (ds ++ [s.db]) y := by
  have hlt : i < s.slots.length := (List.getElem?_eq_some_iff.mp hx).1
  have hset : ∀ y : Slot D L E M R, (s.slots.set i y)[i]? = some y := fun y =>
    List.getElem?_set_self hlt
  unfold System.step at hs
  rw [hx] at hs
  cases h with
  | committed r _ => cases hs
  | raised e _ => cases hs
  | aborted _ => cases hs
  | running q hq hreplay =>
    -- The reader is replayed on the states that it has read, and now on this one.
    have hnow := hreplay [s.db]
    cases q with
    | ret r =>
      obtain rfl := Option.some.inj hs
      exact ⟨rfl, _, hset _, .committed r hnow⟩
    | raise e =>
      obtain rfl := Option.some.inj hs
      exact ⟨rfl, _, hset _, .raised e hnow⟩
    | select k =>
      obtain rfl := Option.some.inj hs
      refine ⟨rfl, _, hset _, .running _ (hq s.db) fun rest => ?_⟩
      rw [List.append_assoc]
      exact hreplay (s.db :: rest)
    | orm f k => exact hq.elim
    | lock t k => exact hq.elim
    | write ls patch c next failed => exact hq.elim

/-- The states that a reading transaction saw decide where it is. -/
theorem Watch.reader {p : Prog D L E M R} {held : List L} {m' : M} (hp : p.ReadsOnly)
    (h₀ : s₀.slots[i]? = some (.running ⟨p, held, id, m'⟩)) (h : Watch Allowed P m i s₀ ds s) :
    ∃ x, s.slots[i]? = some x ∧ Reader p held m' ds x := by
  induction h with
  | start _ => exact ⟨_, h₀, .running p hp fun _ => rfl⟩
  | begin _ _ ih =>
    obtain ⟨x, hx, hr⟩ := ih
    exact ⟨x, (List.getElem?_append_left (List.getElem?_eq_some_iff.mp hx).1).trans hx, hr⟩
  | own _ hs _ ih =>
    obtain ⟨x, hx, hr⟩ := ih
    exact (hr.step hx hs).2
  | other j hj _ hs _ ih =>
    obtain ⟨x, hx, hr⟩ := ih
    exact ⟨x, (slot_of_step hs hj).trans hx, hr⟩
  | @abort ds s t j _ ht ih =>
    obtain ⟨x, hx, hr⟩ := ih
    by_cases hj : j = i
    · subst hj
      have hlt : j < s.slots.length := (List.getElem?_eq_some_iff.mp hx).1
      refine ⟨_, List.getElem?_set_self hlt, .aborted ?_⟩
      -- what is left of the program has no result from no further state
      obtain rfl : x = .running t := Option.some.inj (hx.symm.trans ht)
      cases hr with
      | running q _ hreplay =>
        have hend := hreplay []
        rw [List.append_nil, q.replay_nil] at hend
        exact hend
    · exact ⟨x, (List.getElem?_set_ne hj).trans hx, hr⟩

/-! ## Watching a schedule -/

/-- Execute a schedule, and collect the committed states at the statements of the `i`-th
transaction, as long as every committed state has the property. -/
def watch (P : D → Prop) [DecidablePred P] (m : M) (i : ℕ) :
    List (Event D L E M R) → List D → System D L E M R → Option (List D × System D L E M R)
  | [], ds, s => some (ds, s)
  | .start p :: es, ds, s => watch P m i es ds (s.begin m p)
  | .step j :: es, ds, s =>
    match s.step j with
    | none => none
    | some s' =>
      if P s'.db then watch P m i es (if j = i then ds ++ [s.db] else ds) s' else none

/-- A schedule of allowed transactions that is executed to its end is a stretch of a run. -/
theorem Watch.of_watch [DecidablePred P] {es : List (Event D L E M R)} {ds ds' : List D}
    (hs : Watch Allowed P m i s₀ ds s) (ha : ∀ p, Event.start p ∈ es → Allowed p)
    (h : watch P m i es ds s = some (ds', s')) : Watch Allowed P m i s₀ ds' s' := by
  induction es generalizing ds s with
  | nil =>
    obtain ⟨rfl, rfl⟩ := Prod.mk.inj (Option.some.inj h)
    exact hs
  | cons e es ih =>
    have hrest : ∀ p, Event.start p ∈ es → Allowed p := fun p hp =>
      ha p (List.mem_cons_of_mem _ hp)
    cases e with
    | start p => exact ih (hs.begin (ha p List.mem_cons_self)) hrest h
    | step j =>
      simp only [watch] at h
      split at h
      · cases h
      · rename_i s₁ hstep
        split_ifs at h with hP hj
        · -- A statement of the session that is watched, and then one of another.
          subst hj
          exact ih (hs.own hstep hP) hrest h
        · exact ih (hs.other j hj hstep hP) hrest h

/-! ## Chains of committed states -/

/-- Every flush that a transaction has made or has still to make moves the state by a relation. -/
def Moves (Q : D → D → Prop) : Slot D L E M R → Prop
  | .running t => t.prog.Writes (fun _ f => ∀ d, Q d (f d)) (fun _ => True) ∧
    ∀ d, Q d (t.pending d)
  | _ => True

variable {Q : D → D → Prop}

/-- A statement moves the committed state by the relation, when all flushes do. -/
theorem moves_of_step [Std.Refl Q] [IsTrans D Q] {j : ℕ} (h : ∀ x ∈ s.slots, Moves Q x)
    (hs : s.step j = some s') : Q s.db s'.db ∧ ∀ x ∈ s'.slots, Moves Q x := by
  have hput : ∀ y : Slot D L E M R, Moves Q y → ∀ x ∈ s.slots.set j y, Moves Q x := by
    intro y hy x hx
    rcases List.mem_or_eq_of_mem_set hx with hx | rfl
    · exact h x hx
    · exact hy
  obtain ⟨t, ht, hcases⟩ := step_cases hs
  obtain ⟨hprog, hpending⟩ : Moves Q (.running t) := h _ (List.mem_of_getElem? ht)
  -- A commit, an abort, or a statement.
  rcases hcases with ⟨r, -, rfl⟩ | ⟨e, -, rfl⟩ | ⟨u, hu, rfl⟩
  · exact ⟨hpending s.db, hput _ trivial⟩
  · exact ⟨Std.Refl.refl _, hput _ trivial⟩
  · refine ⟨Std.Refl.refl _, hput _ ⟨hu.writes hprog, ?_⟩⟩
    cases hu with
    | written hp _ _ =>
      rw [hp] at hprog
      exact fun d => IsTrans.trans _ _ _ (hpending d) (hprog.1 (t.pending d))
    | orm _ => exact hpending
    | select _ => exact hpending
    | missing _ _ => exact hpending
    | locked _ _ _ => exact hpending
    | failed _ _ _ => exact hpending

omit [DecidableEq L] in
/-- A new transaction whose flushes move the state by the relation. -/
theorem moves_begin [Std.Refl Q] {p : Prog D L E M R} (h : ∀ x ∈ s.slots, Moves Q x)
    (hp : p.Writes (fun _ f => ∀ d, Q d (f d)) fun _ => True) :
    ∀ x ∈ (s.begin m p).slots, Moves Q x := by
  intro x hx
  rcases List.mem_append.mp hx with hx | hx
  · exact h x hx
  · rw [List.mem_singleton.mp hx]
    exact ⟨hp, fun d => Std.Refl.refl d⟩

omit [DecidableEq L] in
/-- A transaction that was rolled back. -/
theorem moves_abort {j : ℕ} (h : ∀ x ∈ s.slots, Moves Q x) :
    ∀ x ∈ (s.put j (.rolledBack none)).slots, Moves Q x := by
  intro x hx
  rcases List.mem_or_eq_of_mem_set hx with hx | rfl
  · exact h x hx
  · trivial

/-- Every transaction of a run moves the state by the relation. -/
theorem Run.moves [Std.Refl Q] [IsTrans D Q] {cond : M → D → L → Prop} {d : D}
    (hA : ∀ p, Allowed p → p.Writes (fun _ f => ∀ d, Q d (f d)) fun _ => True)
    (h : Run Allowed cond m d s) : ∀ x ∈ s.slots, Moves Q x := by
  induction h with
  | init => simp
  | begin _ hp ih => exact moves_begin ih (hA _ hp)
  | step i _ _ hs ih => exact (moves_of_step ih hs).2
  | abort i _ _ ih => exact moves_abort ih

/-- The states that were seen are a chain of the relation. -/
theorem Watch.chain [Std.Refl Q] [IsTrans D Q]
    (hA : ∀ p, Allowed p → p.Writes (fun _ f => ∀ d, Q d (f d)) fun _ => True)
    (h₀ : ∀ x ∈ s₀.slots, Moves Q x) (h : Watch Allowed P m i s₀ ds s) : ds.Pairwise Q := by
  -- besides, every state seen so far is related to the present one
  suffices hall : ds.Pairwise Q ∧ (∀ d ∈ ds, Q d s.db) ∧ ∀ x ∈ s.slots, Moves Q x from hall.1
  induction h with
  | start _ => exact ⟨.nil, by simp, h₀⟩
  | begin _ hp ih => exact ⟨ih.1, ih.2.1, moves_begin ih.2.2 (hA _ hp)⟩
  | own _ hs _ ih =>
    obtain ⟨hchain, hlast, hmoves⟩ := ih
    obtain ⟨hdb, hmoves'⟩ := moves_of_step hmoves hs
    refine ⟨List.pairwise_append.mpr ⟨hchain, List.pairwise_singleton _ _, ?_⟩, ?_, hmoves'⟩
    · intro d hd e he
      rw [List.mem_singleton.mp he]
      exact hlast d hd
    · intro d hd
      rcases List.mem_append.mp hd with hd | hd
      · exact IsTrans.trans _ _ _ (hlast d hd) hdb
      · rw [List.mem_singleton.mp hd]
        exact hdb
  | other _ _ _ hs _ ih =>
    obtain ⟨hchain, hlast, hmoves⟩ := ih
    obtain ⟨hdb, hmoves'⟩ := moves_of_step hmoves hs
    exact ⟨hchain, fun d hd => IsTrans.trans _ _ _ (hlast d hd) hdb, hmoves'⟩
  | abort _ _ _ ih => exact ⟨ih.1, ih.2.1, moves_abort ih.2.2⟩

end System

end Giftly.Store
