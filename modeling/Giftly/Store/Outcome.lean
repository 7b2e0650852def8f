import Mathlib.Data.List.Forall2
import Mathlib.Tactic.SplitIfs

/-!
# Outcomes of fallible computations

What a computation returns or raises: `Outcome P E x` says that `x` returns a result in `P` or
raises an error in `E`. The rules follow the structure of the computation.
-/

namespace Giftly.Store

variable {ε α β : Type}

/-- The computation returns a result in `P` or raises an error in `E`. -/
def Outcome (P : α → Prop) (E : ε → Prop) : Except ε α → Prop
  | .ok a => P a
  | .error e => E e

namespace Outcome

variable {P P' : α → Prop} {Q : β → Prop} {E E' : ε → Prop} {x : Except ε α}

/-- The outcome of a value. -/
@[simp]
theorem ok_iff {a : α} : Outcome P E (.ok a : Except ε α) ↔ P a := Iff.rfl

/-- The outcome of an error. -/
@[simp]
theorem error_iff {e : ε} : Outcome P E (.error e : Except ε α) ↔ E e := Iff.rfl

/-- What is known of a value that was returned. -/
theorem of_eq_ok {a : α} (h : Outcome P E x) (hx : x = .ok a) : P a := by
  rwa [hx] at h

/-- What is known of an error that was raised. -/
theorem of_eq_error {e : ε} (h : Outcome P E x) (hx : x = .error e) : E e := by
  rwa [hx] at h

/-- A computation whose errors are known returns what it returns. -/
theorem of_errors (h : ∀ e, x = .error e → E e) : Outcome (fun a => x = .ok a) E x := by
  cases x with
  | ok a => rfl
  | error e => exact h e rfl

/-- What follows from an outcome, for values and for errors. -/
theorem mono (h : Outcome P E x) (hP : ∀ a, P a → P' a) (hE : ∀ e, E e → E' e) :
    Outcome P' E' x := by
  cases x with
  | ok a => exact hP a h
  | error e => exact hE e h

/-- Both of what two outcomes say. -/
theorem and (h : Outcome P E x) (h' : Outcome P' E' x) :
    Outcome (fun a => P a ∧ P' a) (fun e => E e ∧ E' e) x := by
  cases x with
  | ok a => exact ⟨h, h'⟩
  | error e => exact ⟨h, h'⟩

/-- Sequencing. -/
theorem bind {f : α → Except ε β} (h : Outcome P E x) (hf : ∀ a, P a → Outcome Q E (f a)) :
    Outcome Q E (x >>= f) := by
  cases x with
  | ok a => exact hf a h
  | error e => exact h

/-- A check that raises: what follows it may use that the check passed. -/
theorem check {c : Prop} [Decidable c] {e : ε} {f : α → Except ε β} {y : Except ε β}
    (he : c → E e) (hy : ¬c → Outcome Q E y) :
    Outcome Q E (if c then throw e >>= f else y) := by
  split_ifs with hc
  · exact he hc
  · exact hy hc

/-- A loop over a list that collects the results. -/
theorem mapM {f : α → Except ε β} {R : α → β → Prop} : ∀ {xs : List α},
    (∀ a ∈ xs, Outcome (R a) E (f a)) → Outcome (List.Forall₂ R xs) E (xs.mapM f)
  | [], _ => List.Forall₂.nil
  | a :: xs, h => by
    rw [List.mapM_cons]
    refine (h a List.mem_cons_self).bind fun b hb => ?_
    refine (mapM fun a' ha' => h a' (List.mem_cons_of_mem a ha')).bind fun bs hbs => ?_
    exact List.Forall₂.cons hb hbs

end Outcome

/-- What a computation behind a check returns, the check has let through. -/
theorem check_eq_ok {c : Prop} [Decidable c] {e : ε} {f : α → Except ε β} {y : Except ε β} {b : β} :
    (if c then throw e >>= f else y) = .ok b ↔ ¬c ∧ y = .ok b := by
  split_ifs with hc
  · exact iff_of_false (fun h => nomatch h) fun h => h.1 hc
  · exact (and_iff_right hc).symm

/-- A check alone. -/
theorem guard_eq_ok {c : Prop} [Decidable c] {e : ε} :
    (if c then throw e else pure () : Except ε PUnit) = .ok () ↔ ¬c := by
  split_ifs with hc
  · exact iff_of_false (fun h => nomatch h) (not_not.mpr hc)
  · exact iff_of_true rfl hc

/-- A value is handed on to what follows. -/
@[simp]
theorem ok_bind (a : α) (f : α → Except ε β) : (Except.ok a >>= f) = f a := rfl

/-- Two functions that agree on a list give one result, by induction on the list. -/
theorem mapM_congr {f g : α → Except ε β} : ∀ {xs : List α},
    (∀ a ∈ xs, f a = g a) → xs.mapM f = xs.mapM g
  | [], _ => rfl
  | a :: xs, h => by
    rw [List.mapM_cons, List.mapM_cons, h a List.mem_cons_self,
      mapM_congr fun a' ha' => h a' (List.mem_cons_of_mem a ha')]

/-- A loop whose steps all return. -/
theorem mapM_eq_ok {f : α → Except ε β} {g : α → β} : ∀ {xs : List α},
    (∀ a ∈ xs, f a = .ok (g a)) → xs.mapM f = .ok (xs.map g)
  | [], _ => rfl
  | a :: xs, h => by
    rw [List.mapM_cons, h a List.mem_cons_self,
      mapM_eq_ok fun a' ha' => h a' (List.mem_cons_of_mem a ha')]
    rfl

/-- A loop that returns has returned at each of its steps. -/
theorem forall₂_of_mapM_eq_ok {f : α → Except ε β} {xs : List α} {ys : List β}
    (h : xs.mapM f = .ok ys) : List.Forall₂ (fun a b => f a = .ok b) xs ys := by
  have houtcome : Outcome (List.Forall₂ (fun a b => f a = .ok b) xs) (fun _ => True)
      (xs.mapM f) := by
    apply Outcome.mapM
    intro a _
    cases hfa : f a <;> simp
  exact houtcome.of_eq_ok h

/-- A loop for its checks alone. -/
theorem forM_eq_ok {f : α → Except ε PUnit} : ∀ {xs : List α},
    xs.forM f = .ok () ↔ ∀ a ∈ xs, f a = .ok ()
  | [] => by simp [pure, Except.pure]
  | a :: xs => by
    have ih : xs.forM f = .ok () ↔ ∀ b ∈ xs, f b = .ok () := forM_eq_ok
    rw [List.forall_mem_cons, ← ih]
    change (f a >>= fun _ => xs.forM f) = _ ↔ _
    cases f a with
    | ok u => exact (and_iff_right rfl).symm
    | error e => exact iff_of_false (fun h => nomatch h) fun h => nomatch h.1

/-- Each member of the second list is related to one of the first. -/
theorem exists_of_forall₂_right {R : α → β → Prop} {xs : List α} {ys : List β}
    (h : List.Forall₂ R xs ys) {y : β} (hy : y ∈ ys) : ∃ x ∈ xs, R x y := by
  induction h with
  | nil => cases hy
  | @cons x y' xs ys hxy _ ih =>
    rcases List.mem_cons.mp hy with rfl | hmem
    · exact ⟨x, List.mem_cons_self, hxy⟩
    · obtain ⟨x', hx', hR⟩ := ih hmem
      exact ⟨x', List.mem_cons_of_mem x hx', hR⟩

end Giftly.Store
