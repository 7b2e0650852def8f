import Giftly.Store.Logic

/-!
# Passes over a list of items

A pass gives each of its items a transaction of its own, one after the other. A transaction that
raises is rolled back, and the pass goes on with the next item. It counts the transactions that
return `true`. An item that does not count should leave no trace (`Traceless`): then the items before
the first one that counts do not matter.
-/

namespace Giftly.Store

variable {D L E M I : Type}

namespace Prog

/-- Executed alone, the program returns `true`. -/
def succeeds (p : Prog D L E M Bool) (m : M) (d : D) : Bool :=
  match p.run m d with
  | .ok (done, _, _) => done
  | .error _ => false

/-- A transaction that does not return `true` leaves the state as it is. -/
def Traceless (p : Prog D L E M Bool) (m : M) : Prop :=
  ∀ d, p.succeeds m d = false → p.commit m d = d

variable {p : Prog D L E M Bool} {m : M} {d : D}

/-- A transaction is traceless if it is so wherever it ends. -/
theorem Traceless.of_ends (h : ∀ d, Ends p (fun done _ d' => done = false → d' = d) m d) :
    p.Traceless m := by
  intro d hd
  have hends := h d
  unfold succeeds at hd
  unfold commit
  unfold Ends at hends
  cases hrun : p.run m d with
  | error e => rfl
  | ok x =>
    rw [hrun] at hd hends
    exact hends hd

/-- What a program ends in when it returns `true` holds after the commit. -/
theorem commit_of_succeeds {Q : D → Prop} (hd : p.succeeds m d = true)
    (h : Ends p (fun done _ d' => done = true → Q d') m d) : Q (p.commit m d) := by
  unfold succeeds at hd
  unfold commit
  unfold Ends at h
  cases hrun : p.run m d with
  | error e =>
    rw [hrun] at hd
    nomatch hd
  | ok x =>
    rw [hrun] at hd h
    exact h hd

/-- A program succeeds when it returns, and with `true` only. -/
theorem succeeds_of_returns (h : Returns p m d) (hends : Ends p (fun done _ _ => done = true) m d) :
    p.succeeds m d = true := by
  obtain ⟨done, m', d', hrun, hdone⟩ := h.ends hends
  rw [succeeds, hrun]
  exact hdone

end Prog

/-- A pass: the number of items whose transaction returned `true`, and the state after it. -/
def pass (m : M) (tx : I → Prog D L E M Bool) : List I → D → ℕ × D
  | [], d => (0, d)
  | i :: is, d =>
    let rest := pass m tx is ((tx i).commit m d)
    (rest.1 + ((tx i).succeeds m d).toNat, rest.2)

variable {m : M} {tx : I → Prog D L E M Bool} {is : List I} {d : D}

/-- A pass treats its first item and then the others. -/
theorem pass_cons (i : I) : (pass m tx (i :: is) d).2 = (pass m tx is ((tx i).commit m d)).2 := rfl

/-- What the transaction of every item keeps, a pass keeps. -/
theorem pass_inv {J : D → Prop} (h : ∀ i ∈ is, ∀ d, J d → J ((tx i).commit m d)) (hd : J d) :
    J (pass m tx is d).2 := by
  induction is generalizing d with
  | nil => exact hd
  | cons i is ih =>
    have hcommit := h i List.mem_cons_self d hd
    exact ih (fun j hj => h j (List.mem_cons_of_mem i hj)) hcommit

/-- A pass whose items all fail leaves the state as it is. -/
theorem pass_idle (htrace : ∀ i ∈ is, (tx i).Traceless m)
    (h : ∀ i ∈ is, (tx i).succeeds m d = false) : pass m tx is d = (0, d) := by
  induction is with
  | nil => rfl
  | cons i is ih =>
    have hfail := h i List.mem_cons_self
    have hrest := ih (fun j hj => htrace j (List.mem_cons_of_mem i hj))
      fun j hj => h j (List.mem_cons_of_mem i hj)
    rw [pass, htrace i List.mem_cons_self d hfail, hrest, hfail]
    rfl

/-- A pass reaches the first item whose transaction succeeds in the state that the pass begins in,
whatever the items before it do. -/
theorem pass_first (htrace : ∀ i ∈ is, (tx i).Traceless m)
    (h : ∃ i ∈ is, (tx i).succeeds m d = true) : ∃ i ∈ is, (tx i).succeeds m d = true ∧
      ∃ rest, rest ⊆ is ∧ (pass m tx is d).2 = (pass m tx rest ((tx i).commit m d)).2 := by
  induction is with
  | nil =>
    obtain ⟨i, hi, -⟩ := h
    nomatch hi
  | cons i is ih =>
    cases hi : (tx i).succeeds m d with
    | true => exact ⟨i, List.mem_cons_self, hi, is, List.subset_cons_self i is, pass_cons i⟩
    -- The first item fails and leaves no trace, so the rest begins in the same state.
    | false =>
      obtain ⟨j, hj, hsucceeds⟩ := h
      have hmem : j ∈ is := by
        rcases List.mem_cons.mp hj with rfl | hj
        · rw [hi] at hsucceeds
          nomatch hsucceeds
        · exact hj
      obtain ⟨k, hk, hfirst, rest, hrest, heq⟩ :=
        ih (fun j hj => htrace j (List.mem_cons_of_mem i hj)) ⟨j, hmem, hsucceeds⟩
      have hcommit := htrace i List.mem_cons_self d hi
      refine ⟨k, List.mem_cons_of_mem i hk, hfirst, rest, List.subset_cons_of_subset i hrest, ?_⟩
      rw [pass_cons, hcommit, heq]

end Giftly.Store
