import Giftly.Store.Outbox

/-!
# Transactions that are told apart

A condition on the moments at which a lock is granted sees the session memory, the state and the lock.
In a run of tagged transactions it also sees what the transaction is for: the session keeps a tag
beside its memory. A discipline whose condition depends on the tag is followed by a tagged transaction
when the transaction follows the discipline with the condition of its own tag.
-/

namespace Giftly.Store

variable {D L E M V R α : Type}

/-- The program in a session that knows its tag. -/
def Prog.tagged (x : V) (p : Prog D L E M α) : Prog D L E (M × List V) α :=
  .orm (fun m => (m.1, [x])) fun _ => p.silent

/-- The surroundings of a session with given tags. -/
def Surroundings.on (C : Surroundings D L (M × List V)) (xs : List V) : Surroundings D L M where
  rely := C.rely
  cond m := C.cond (m, xs)

/-- A silent program behaves as the program does. -/
theorem wp_silent {C : Surroundings D L (M × List V)} {p : Prog D L E M α} {xs : List V}
    {Q : α → View D L (M × List V) → Prop} {v : View D L M}
    (h : wp (C.on xs) p (fun a v => Q a ⟨v.held, v.pending, (v.mem, xs), v.last⟩) v) :
    wp C p.silent Q ⟨v.held, v.pending, (v.mem, xs), v.last⟩ := by
  induction p generalizing v with
  | ret a => exact h
  | raise e => trivial
  | orm f k ih => exact ih _ h
  | select k ih => exact fun d hd => ih _ (h d hd)
  | lock t k ih =>
    exact fun d hd => ⟨fun ht => ih _ ((h d hd).1 ht), fun l hl hc => ih _ ((h d hd).2 l hl hc)⟩
  | write ls p c next failed ihn ihf =>
    exact fun d hd hl => ⟨fun hc => ihn ((h d hd hl).1 hc), fun e he => ihf e ((h d hd hl).2 e he)⟩

namespace Discipline

variable {S : Discipline D L M} {cond : V → M → D → L → Prop} {post : R → D → D → Prop}

/-- The discipline with another condition on the moments at which a lock is granted. -/
def under (S : Discipline D L M) (cond : M → D → L → Prop) : Discipline D L M :=
  { S with cond := cond }

/-- The condition of the tag of a session. -/
def tagCond (cond : V → M → D → L → Prop) (m : M × List V) (d : D) (l : L) : Prop :=
  ∀ x ∈ m.2, cond x m.1 d l

instance [∀ x m d l, Decidable (cond x m d l)] (m : M × List V) (d : D) (l : L) :
    Decidable (tagCond cond m d l) := by
  unfold tagCond
  infer_instance

/-- The discipline for sessions with tags. -/
def tagged (S : Discipline D L M) (cond : V → M → D → L → Prop) : Discipline D L (M × List V) where
  inv := S.inv
  same := S.same
  same_refl := S.same_refl
  same_trans := S.same_trans
  grows := S.grows
  grows_refl := S.grows_refl
  grows_trans := S.grows_trans
  cond := tagCond cond
  guar := S.guar

/-- A transaction under the condition of its tag. -/
theorem Ensures.tagged {p : Prog D L E M R} {m : M} {x : V} (h : (S.under (cond x)).Ensures post m p) :
    (S.tagged cond).Ensures post (m, []) (p.tagged x) := by
  intro d hd
  have hcond : ((S.tagged cond).surroundings).on [x] = (S.under (cond x)).surroundings := by
    unfold Surroundings.on surroundings Discipline.tagged tagCond under
    simp
  refine wp_silent (v := .start m d) ?_
  rw [hcond]
  exact h d hd

end Discipline

end Giftly.Store
