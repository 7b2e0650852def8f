import Giftly.Store.Logic

/-!
# Transactions that keep a note

A store may hold more than a program was written for: columns that the store fills in itself, or a
history of what was committed. `noting` runs a program over the first component of such a larger
state and adds a note of what it did to the second one, at its end, when no other transaction can
have seen its writes. A discipline of the program becomes one of the larger state (`beside`), and
what a commit does to the first component is known of the state before and after it, together with
the note.
-/

namespace Giftly.Store

variable {D T L E M R α : Type}

namespace Prog

/-- The program over the first component of a larger state. -/
def onFst : Prog D L E M α → Prog (D × T) L E M α
  | ret a => ret a
  | raise e => raise e
  | orm f k => orm f fun m => (k m).onFst
  | select k => select fun x => (k x.1).onFst
  | lock t k => lock (fun x => t x.1) fun x => (k x.1).onFst
  | write ls p c next failed =>
    write ls (Prod.map p id) (fun x => c x.1) next.onFst fun e => (failed e).onFst

/-- The program, and the note that it leaves beside the state. -/
def noting (note : α → D × T → T) (p : Prog D L E M α) : Prog (D × T) L E M α := do
  let a ← p.onFst
  flush [] (fun x => (x.1, note a x)) fun _ => none
  return a

end Prog

/-- What a transaction over the first component knows, beside the second one. -/
def View.beside (v : View D L M) (t : T) : View (D × T) L M where
  held := v.held
  pending := Prod.map v.pending id
  mem := v.mem
  last := (v.last, t)

/-- A program over the first component does there what the program does, and leaves the second
component alone. -/
theorem wp_onFst {C : Surroundings D L M} {C' : Surroundings (D × T) L M}
    (hrely : ∀ held x y, C'.rely held x y → C.rely held x.1 y.1)
    (hcond : ∀ m x l, C'.cond m x l → C.cond m x.1 l) {p : Prog D L E M α}
    {Q : α → View D L M → Prop} {v : View D L M} {t : T} (h : wp C p Q v) :
    wp C' p.onFst (fun a v' => ∃ u t', v' = u.beside t' ∧ Q a u) (v.beside t) := by
  -- Induction on the program; the second component is carried along.
  induction p generalizing v t with
  | ret a => exact ⟨v, t, rfl, h⟩
  | raise e => trivial
  | orm f k ih => exact ih _ h
  | select k ih => exact fun x hx => ih _ (h x.1 (hrely _ _ _ hx))
  | lock target k ih =>
    intro x hx
    obtain ⟨hnone, hsome⟩ := h x.1 (hrely _ _ _ hx)
    refine ⟨fun ht => ih _ (hnone ht), fun l ht hl => ih _ (hsome l ht ?_)⟩
    exact hl.imp_right (hcond _ _ _)
  | write ls p c next failed ihn ihf =>
    intro x hx hl
    have hl' : ∀ l ∈ ls, l ∈ v.held ∨ C.cond v.mem (v.pending x.1) l :=
      fun l hls => (hl l hls).imp_right (hcond _ _ _)
    obtain ⟨hnone, hsome⟩ := h x.1 (hrely _ _ _ hx) hl'
    exact ⟨fun hc => ihn (hnone hc), fun e he => ihf e (hsome e he)⟩

namespace Discipline

/-- The discipline over a larger state, whose two components agree as `J` says. -/
def beside (S : Discipline D L M) (J : D → T → Prop) : Discipline (D × T) L M where
  inv x := S.inv x.1 ∧ J x.1 x.2
  same l x y := S.same l x.1 y.1
  same_refl l x := S.same_refl l x.1
  same_trans h h' := S.same_trans h h'
  grows x y := S.grows x.1 y.1
  grows_refl x := S.grows_refl x.1
  grows_trans h h' := S.grows_trans h h'
  cond m x l := S.cond m x.1 l
  guar x y := S.guar x.1 y.1

/-- A transaction that does what its result says leaves a note of it, which keeps the two components
of the state in agreement. -/
theorem Ensures.noting {S : Discipline D L M} {J : D → T → Prop} {post : R → D → D → Prop} {m : M}
    {p : Prog D L E M R} {note : R → D × T → T} (h : S.Ensures post m p)
    (hJ : ∀ r d d' t, S.inv d → J d t → post r d d' → J d' (note r (d', t))) :
    (S.beside J).Ensures
      (fun r x y => post r x.1 y.1 ∧ y.2 = note r (y.1, x.2)) m (p.noting note) := by
  intro x hx
  unfold Prog.noting
  rw [wp_bind]
  have hrely : ∀ held y z, (S.beside J).surroundings.rely held y z →
      S.surroundings.rely held y.1 z.1 := fun _ _ _ hyz => ⟨hyz.1.1, hyz.2.1, hyz.2.2⟩
  have hbook : wp (S.beside J).surroundings p.onFst
      (fun r v' => ∃ u t', v' = View.beside u t' ∧ S.Delivers post r u) (.start m x) :=
    wp_onFst (v := .start m x.1) hrely (fun _ _ _ hc => hc) (h x.1 hx.1)
  refine wp_mono ?_ hbook
  rintro r _ ⟨u, t, rfl, hcommits, hpost⟩
  rw [wp_bind]
  refine wp_flush_intro fun y hy _ _ => ?_
  -- What the surroundings reach later, they might have reached before the note was left.
  have hreach : ∀ z, (S.beside J).surroundings.rely u.held y z →
      S.surroundings.rely u.held u.last z.1 :=
    fun z hz => hrely _ _ _ ((S.beside J).rely_trans hy hz)
  refine ⟨fun z hz => ?_, fun z hz => ⟨hpost z.1 (hreach z hz), rfl⟩⟩
  obtain ⟨hinv, hgrows, hguar, hsame⟩ := hcommits z.1 (hreach z hz)
  exact ⟨⟨hinv, hJ r z.1 _ z.2 hz.1.1 hz.1.2 (hpost z.1 (hreach z hz))⟩, hgrows, hguar, hsame⟩

end Discipline

end Giftly.Store
