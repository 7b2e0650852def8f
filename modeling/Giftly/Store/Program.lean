import Mathlib.Logic.Basic
import Mathlib.Tactic.SplitIfs

/-!
# Transactions as programs of statements

A transaction is a program whose steps are the statements it sends to the store: plain reads,
reads that lock a row, and flushes that write rows under the constraints of the schema. Between
them it computes, and it keeps a session memory: the object-relational mapper's identity map, from
which a later read of the same row is answered. `run` executes a program alone, in one piece, and
`commit` is the transaction around it: the program's result when it returns, the old state when it
raises. `Schedule.lean` interleaves programs.
-/

namespace Giftly.Store

/-- What a chain of two computations returned was returned by both. -/
theorem bind_eq_ok {E α β : Type} {x : Except E α} {f : α → Except E β} {b : β} :
    (x >>= f) = .ok b ↔ ∃ a, x = .ok a ∧ f a = .ok b := by
  cases x with
  | error e => exact iff_of_false (fun h => nomatch h) fun ⟨_, h, _⟩ => nomatch h
  | ok a => exact ⟨fun h => ⟨a, rfl, h⟩, fun ⟨_, ha, h⟩ => Except.ok.inj ha ▸ h⟩

/-- What a chain of two computations raised was raised by one of them. -/
theorem bind_eq_error {E α β : Type} {x : Except E α} {f : α → Except E β} {e : E} :
    (x >>= f) = .error e ↔ x = .error e ∨ ∃ a, x = .ok a ∧ f a = .error e := by
  cases x with
  | error e' =>
    constructor
    · exact fun h => .inl (congrArg _ (Except.error.inj h))
    · rintro (h | ⟨_, h, _⟩)
      · exact congrArg _ (Except.error.inj h)
      · nomatch h
  | ok a =>
    constructor
    · exact fun h => .inr ⟨a, rfl, h⟩
    · rintro (h | ⟨_, ha, h⟩)
      · nomatch h
      · exact Except.ok.inj ha ▸ h

/-- A computation that returns has returned at each of its steps. -/
theorem exists_of_bind_eq_ok {E α β : Type} {x : Except E α} {f : α → Except E β} {b : β}
    (h : (x >>= f) = .ok b) : ∃ a, x = .ok a ∧ f a = .ok b := bind_eq_ok.mp h

/-- A transaction over states `D`, with lock names `L`, errors `E` and session memory `M`. -/
inductive Prog (D L E M α : Type) : Type
  /-- Return, and commit. -/
  | ret (a : α)
  /-- Raise, and roll back. -/
  | raise (e : E)
  /-- Change the session memory and go on with its new value. -/
  | orm (f : M → M) (k : M → Prog D L E M α)
  /-- A plain read of the transaction's view of the state. -/
  | select (k : D → Prog D L E M α)
  /-- A locking read: the lock that `target` names is held to the end of the transaction, and the
  view is the one at the moment the lock is granted. -/
  | lock (target : D → Option L) (k : D → Prog D L E M α)
  /-- A flush: take the locks `ls`; when `check` finds no constraint that the write would violate,
  apply `patch` and go on with `next`. Otherwise the flush has no effect and `failed` goes on. -/
  | write (ls : List L) (patch : D → D) (check : D → Option E) (next : Prog D L E M α)
      (failed : E → Prog D L E M α)

namespace Prog

variable {D L E M α β γ : Type}

/-- Sequencing: the statements of the first program, then those of the second. -/
def bind : Prog D L E M α → (α → Prog D L E M β) → Prog D L E M β
  | ret a, g => g a
  | raise e, _ => raise e
  | orm f k, g => orm f fun m => (k m).bind g
  | select k, g => select fun d => (k d).bind g
  | lock t k, g => lock t fun d => (k d).bind g
  | write ls p c next failed, g => write ls p c (next.bind g) fun e => (failed e).bind g

instance : Monad (Prog D L E M) where
  pure := ret
  bind := bind

/-- `pure` is `ret`. -/
@[simp]
theorem pure_eq (a : α) : (pure a : Prog D L E M α) = ret a := rfl

/-- A result is handed on to what follows. -/
@[simp]
theorem ret_bind (a : α) (g : α → Prog D L E M β) : (ret a >>= g) = g a := rfl

/-- What follows a raise is not run. -/
@[simp]
theorem raise_bind (e : E) (g : α → Prog D L E M β) : (raise e >>= g) = raise e := rfl

/-- What follows a step of the session follows it. -/
@[simp]
theorem orm_bind (f : M → M) (k : M → Prog D L E M α) (g : α → Prog D L E M β) :
    (orm f k >>= g) = orm f fun m => k m >>= g := rfl

/-- What follows a query follows it. -/
@[simp]
theorem select_bind (k : D → Prog D L E M α) (g : α → Prog D L E M β) :
    (select k >>= g) = select fun d => k d >>= g := rfl

/-- What follows a lock follows it. -/
@[simp]
theorem lock_bind (t : D → Option L) (k : D → Prog D L E M α) (g : α → Prog D L E M β) :
    (lock t k >>= g) = lock t fun d => k d >>= g := rfl

/-- What follows a write follows both of its branches. -/
@[simp]
theorem write_bind (ls : List L) (p : D → D) (c : D → Option E) (next : Prog D L E M α)
    (failed : E → Prog D L E M α) (g : α → Prog D L E M β) :
    (write ls p c next failed >>= g) =
      write ls p c (next >>= g) fun e => failed e >>= g := rfl

/-- Sequencing is associative, so a sub-program can be pulled out of a longer one. -/
theorem bind_assoc (p : Prog D L E M α) (g : α → Prog D L E M β) (h : β → Prog D L E M γ) :
    (p >>= g >>= h) = p >>= fun a => g a >>= h := by
  induction p with
  | ret a => rfl
  | raise e => rfl
  | orm f k ih => simp only [orm_bind, ih]
  | select k ih => simp only [select_bind, ih]
  | lock t k ih => simp only [lock_bind, ih]
  | write ls p c next failed ihn ihf => simp only [write_bind, ihn, ihf]

/-- A read of one value from the view. -/
def query (f : D → α) : Prog D L E M α := select fun d => ret (f d)

/-- A flush whose violated constraint is an error of the transaction. -/
def flush (ls : List L) (patch : D → D) (check : D → Option E) : Prog D L E M Unit :=
  write ls patch check (ret ()) raise

/-- A computation that may raise, between two statements. -/
def ofExcept : Except E α → Prog D L E M α
  | .ok a => ret a
  | .error e => raise e

/-- A check between two statements: raise unless the condition holds. -/
def require (c : Prop) [Decidable c] (e : E) : Prog D L E M Unit :=
  if c then ret () else raise e

/-- Statements that are executed under a condition only. -/
def when (p : Prog D L E M Unit) (c : Prop) [Decidable c] : Prog D L E M Unit :=
  if c then p else ret ()

/-- A program whose result is dropped. -/
def void (p : Prog D L E M α) : Prog D L E M Unit := p >>= fun _ => ret ()

/-- The program executed alone, from a session memory and a state. -/
def run : Prog D L E M α → M → D → Except E (α × M × D)
  | ret a, m, d => .ok (a, m, d)
  | raise e, _, _ => .error e
  | orm f k, m, d => (k (f m)).run (f m) d
  | select k, m, d => (k d).run m d
  | lock _ k, m, d => (k d).run m d
  | write _ p c next failed, m, d =>
    match c d with
    | none => next.run m (p d)
    | some e => (failed e).run m d

/-- The transaction executed alone: committed when the program returns, rolled back when it
raises. -/
def commit (p : Prog D L E M α) (m : M) (d : D) : D :=
  match p.run m d with
  | .ok (_, _, d') => d'
  | .error _ => d

/-- Every flush of the program is of the kind `F`, and every change of the session memory of the
kind `G`. -/
def Writes (F : List L → (D → D) → Prop) (G : (M → M) → Prop) : Prog D L E M α → Prop
  | ret _ => True
  | raise _ => True
  | orm f k => G f ∧ ∀ m, (k m).Writes F G
  | select k => ∀ d, (k d).Writes F G
  | lock _ k => ∀ d, (k d).Writes F G
  | write ls p _ next failed => F ls p ∧ next.Writes F G ∧ ∀ e, (failed e).Writes F G

section Writes

variable {F F' : List L → (D → D) → Prop} {G G' : (M → M) → Prop}

/-- A result writes nothing. -/
@[simp]
theorem writes_ret (a : α) : (ret a : Prog D L E M α).Writes F G := trivial

/-- The same for `pure`. -/
@[simp]
theorem writes_pure (a : α) : (pure a : Prog D L E M α).Writes F G := trivial

/-- Raising writes nothing. -/
@[simp]
theorem writes_raise (e : E) : (raise e : Prog D L E M α).Writes F G := trivial

/-- A query writes nothing. -/
@[simp]
theorem writes_query (f : D → α) : (query f : Prog D L E M α).Writes F G := fun _ => trivial

/-- A pure computation writes nothing. -/
@[simp]
theorem writes_ofExcept (x : Except E α) : (ofExcept x : Prog D L E M α).Writes F G := by
  cases x <;> trivial

/-- A check writes nothing. -/
@[simp]
theorem writes_require (c : Prop) [Decidable c] (e : E) :
    (require c e : Prog D L E M Unit).Writes F G := by
  unfold require
  split_ifs <;> trivial

/-- A conditional program writes what the program writes. -/
theorem writes_when (c : Prop) [Decidable c] {p : Prog D L E M Unit} (h : p.Writes F G) :
    (p.when c).Writes F G := by
  unfold when
  split_ifs
  · exact h
  · trivial

/-- A flush writes its patch under the locks it names. -/
theorem writes_flush {ls : List L} {p : D → D} (c : D → Option E) (h : F ls p) :
    (flush ls p c : Prog D L E M Unit).Writes F G := ⟨h, trivial, fun _ => trivial⟩

/-- The writes of two programs, one after the other. -/
theorem Writes.bind {p : Prog D L E M α} {g : α → Prog D L E M β} (hp : p.Writes F G)
    (hg : ∀ a, (g a).Writes F G) : (p >>= g).Writes F G := by
  induction p with
  | ret a => exact hg a
  | raise e => trivial
  | orm f k ih => exact ⟨hp.1, fun m => ih m (hp.2 m)⟩
  | select k ih => exact fun d => ih d (hp d)
  | lock t k ih => exact fun d => ih d (hp d)
  | write ls p c next failed ihn ihf => exact ⟨hp.1, ihn hp.2.1, fun e => ihf e (hp.2.2 e)⟩

/-- The writes after a pure computation, which may be assumed to have succeeded. -/
theorem writes_ofExcept_bind {x : Except E α} {g : α → Prog D L E M β}
    (h : ∀ a, x = .ok a → (g a).Writes F G) : (ofExcept x >>= g).Writes F G := by
  cases x with
  | error e => trivial
  | ok a => exact h a rfl

/-- What the writes satisfy may be weakened. -/
theorem Writes.mono {p : Prog D L E M α} (hp : p.Writes F G) (h : ∀ ls f, F ls f → F' ls f) :
    p.Writes F' G := by
  induction p with
  | ret a => trivial
  | raise e => trivial
  | orm f k ih => exact ⟨hp.1, fun m => ih m (hp.2 m)⟩
  | select k ih => exact fun d => ih d (hp d)
  | lock t k ih => exact fun d => ih d (hp d)
  | write ls p c next failed ihn ihf =>
    exact ⟨h _ _ hp.1, ihn hp.2.1, fun e => ihf e (hp.2.2 e)⟩

/-- What a program does to the session memory does not matter. -/
theorem Writes.forget {p : Prog D L E M α} (hp : p.Writes F G) : p.Writes F fun _ => True := by
  induction p with
  | ret a => trivial
  | raise e => trivial
  | orm f k ih => exact ⟨trivial, fun m => ih m (hp.2 m)⟩
  | select k ih => exact fun d => ih d (hp d)
  | lock t k ih => exact fun d => ih d (hp d)
  | write ls p c next failed ihn ihf =>
    exact ⟨hp.1, ihn hp.2.1, fun e => ihf e (hp.2.2 e)⟩

end Writes

end Prog

end Giftly.Store
