import Giftly.Store.Logic

/-!
# Assertions that hold throughout

`Throughout` is `wp` with an assertion that holds at every statement of the program and not only when
it returns. `proceeds_of_run` makes it an invariant of the sessions of a run: at every moment it holds
of every running transaction.
-/

namespace Giftly.Store

variable {D L E M R α : Type}

/-- From the view `v`, whatever the surroundings do, `J` holds at every statement of the program, and
`Q` of the result and the view when it returns. -/
def Throughout (C : Surroundings D L M) (J : View D L M → Prop) (Q : α → View D L M → Prop) :
    Prog D L E M α → View D L M → Prop
  | .ret a, v => J v ∧ Q a v
  | .raise _, v => J v
  | .orm f k, v => J v ∧ Throughout C J Q (k (f v.mem)) { v with mem := f v.mem }
  | .select k, v => J v ∧ ∀ d, C.rely v.held v.last d →
    Throughout C J Q (k (v.pending d)) { v with last := d }
  | .lock target k, v => J v ∧ ∀ d, C.rely v.held v.last d →
    (target (v.pending d) = none → Throughout C J Q (k (v.pending d)) { v with last := d }) ∧
    ∀ l, target (v.pending d) = some l → (l ∈ v.held ∨ C.cond v.mem (v.pending d) l) →
      Throughout C J Q (k (v.pending d)) { v with held := l :: v.held, last := d }
  | .write ls p c next failed, v => J v ∧ ∀ d, C.rely v.held v.last d →
    (∀ l ∈ ls, l ∈ v.held ∨ C.cond v.mem (v.pending d) l) →
    (c (v.pending d) = none → Throughout C J Q next
      { v with held := ls ++ v.held, pending := p ∘ v.pending, last := d }) ∧
    ∀ e, c (v.pending d) = some e →
      Throughout C J Q (failed e) { v with held := ls ++ v.held, last := d }

section Throughout

variable {C : Surroundings D L M} {J J' : View D L M → Prop} {Q Q' : α → View D L M → Prop}
  {p : Prog D L E M α} {v : View D L M}

/-- What holds throughout holds at the start. -/
theorem Throughout.holds (h : Throughout C J Q p v) : J v := by
  cases p with
  | raise e => exact h
  | _ => exact h.1

/-- What holds of the result in all cases is a weakest precondition. -/
theorem Throughout.wp (h : Throughout C J Q p v) : wp C p Q v := by
  induction p generalizing v with
  | ret a => exact h.2
  | raise e => trivial
  | orm f k ih => exact ih _ h.2
  | select k ih => exact fun d hd => ih _ (h.2 d hd)
  | lock t k ih =>
    exact fun d hd => ⟨fun ht => ih _ ((h.2 d hd).1 ht), fun l hl hc => ih _ ((h.2 d hd).2 l hl hc)⟩
  | write ls p c next failed ihn ihf =>
    exact fun d hd hl => ⟨fun hc => ihn ((h.2 d hd hl).1 hc), fun e he => ihf e ((h.2 d hd hl).2 e he)⟩

/-- Both assertions may be weakened, the second one with the help of the first. -/
theorem Throughout.mono (h : Throughout C J Q p v) (hJ : ∀ v, J v → J' v)
    (hQ : ∀ a v, J v → Q a v → Q' a v) : Throughout C J' Q' p v := by
  induction p generalizing v with
  | ret a => exact ⟨hJ v h.1, hQ a v h.1 h.2⟩
  | raise e => exact hJ v h
  | orm f k ih => exact ⟨hJ v h.1, ih _ h.2⟩
  | select k ih => exact ⟨hJ v h.1, fun d hd => ih _ (h.2 d hd)⟩
  | lock t k ih =>
    exact ⟨hJ v h.1, fun d hd =>
      ⟨fun ht => ih _ ((h.2 d hd).1 ht), fun l hl hc => ih _ ((h.2 d hd).2 l hl hc)⟩⟩
  | write ls p c next failed ihn ihf =>
    exact ⟨hJ v h.1, fun d hd hl =>
      ⟨fun hc => ihn ((h.2 d hd hl).1 hc), fun e he => ihf e ((h.2 d hd hl).2 e he)⟩⟩

/-- Sequencing. -/
theorem Throughout.bind {β : Type} {p : Prog D L E M β} {g : β → Prog D L E M α}
    (h : Throughout C J (fun b v => Throughout C J Q (g b) v) p v) :
    Throughout C J Q (p >>= g) v := by
  induction p generalizing v with
  | ret b => exact h.2
  | raise e => exact h
  | orm f k ih => exact ⟨h.1, ih _ h.2⟩
  | select k ih => exact ⟨h.1, fun d hd => ih _ (h.2 d hd)⟩
  | lock t k ih =>
    exact ⟨h.1, fun d hd =>
      ⟨fun ht => ih _ ((h.2 d hd).1 ht), fun l hl hc => ih _ ((h.2 d hd).2 l hl hc)⟩⟩
  | write ls p c next failed ihn ihf =>
    exact ⟨h.1, fun d hd hl =>
      ⟨fun hc => ihn ((h.2 d hd hl).1 hc), fun e he => ihf e ((h.2 d hd hl).2 e he)⟩⟩

/-- A stable assertion holds throughout a program whose flushes and changes of the session memory
leave it true. -/
theorem Throughout.of_writes {F : List L → (D → D) → Prop} {G : (M → M) → Prop} (hJ : Stable C J)
    (hpatch : ∀ v ls p, F ls p → J v → J { v with held := ls ++ v.held, pending := p ∘ v.pending })
    (hmem : ∀ v f, G f → J v → J { v with mem := f v.mem })
    (hp : p.Writes F G) (hv : J v) : Throughout C J (fun _ v => J v) p v := by
  induction p generalizing v with
  | ret a => exact ⟨hv, hv⟩
  | raise e => exact hv
  | orm f k ih => exact ⟨hv, ih _ (hp.2 _) (hmem v f hp.1 hv)⟩
  | select k ih => exact ⟨hv, fun d hd => ih _ (hp _) (hJ.rely v d hv hd)⟩
  | lock t k ih =>
    refine ⟨hv, fun d hd => ?_⟩
    have hv' := hJ.rely v d hv hd
    refine ⟨fun _ => ih _ (hp _) hv', fun l _ hl => ih _ (hp _) (hJ.held _ [l] hv' ?_)⟩
    simpa using hl
  | write ls p c next failed ihn ihf =>
    refine ⟨hv, fun d hd hl => ?_⟩
    have hv' := hJ.rely v d hv hd
    exact ⟨fun _ => ihn hp.2.1 (hpatch _ ls p hp.1 hv'),
      fun e _ => ihf e (hp.2.2 e) (hJ.held _ ls hv' hl)⟩

end Throughout

namespace Discipline

variable {S : Discipline D L M} {J : View D L M → Prop} {Q : R → View D L M → Prop}

/-- A running transaction can go on from a committed state, and `J` holds throughout. -/
def Proceeds (S : Discipline D L M) (J : View D L M → Prop) (Q : R → View D L M → Prop) (d : D)
    (t : Session D L E M R) : Prop :=
  ∃ last, S.surroundings.rely t.held last d ∧
    Throughout S.surroundings J Q t.prog ⟨t.held, t.pending, t.mem, last⟩

/-- The assertion holds at the committed state. -/
theorem Proceeds.holds {d : D} {t : Session D L E M R} (hJ : Stable S.surroundings J)
    (h : S.Proceeds J Q d t) : J ⟨t.held, t.pending, t.mem, d⟩ := by
  obtain ⟨last, hrely, ht⟩ := h
  exact hJ.rely _ d ht.holds hrely

/-- A transaction proceeds after whatever the surroundings did. -/
theorem Proceeds.rely {d d' : D} {t : Session D L E M R} (h : S.Proceeds J Q d t)
    (hd : S.surroundings.rely t.held d d') : S.Proceeds J Q d' t := by
  obtain ⟨last, hrely, ht⟩ := h
  exact ⟨last, S.rely_trans hrely hd, ht⟩

/-- A commit under the discipline leaves the other transactions what they know. -/
theorem Good.rely_commit {post : R → D → D → Prop} {s : System D L E M R} {i j : ℕ}
    {t u : Session D L E M R} {r : R} (h : S.Good post s) (ht : s.slots[i]? = some (.running t))
    (hr : t.prog = .ret r) (hij : i ≠ j) (hu : s.slots[j]? = some (.running u)) :
    S.surroundings.rely u.held s.db (t.view s.db) := by
  obtain ⟨last, hrely, hwp⟩ := h.follows i t ht
  rw [hr] at hwp
  obtain ⟨hinv, hgrows, -, hsame⟩ := hwp.1 s.db hrely
  exact ⟨hinv, hgrows, fun l hl => hsame l fun hl' => h.disjoint i j t u hij ht hu l hl' hl⟩

variable [DecidableEq L]

/-- What is left of a transaction after one of its statements. -/
theorem Proceeds.goes {s : System D L E M R} {i : ℕ} {t u : Session D L E M R} {free : L → Prop}
    (h : S.Proceeds J Q s.db t) (hinv : S.inv s.db) (hc : s.Grants S.cond i)
    (ht : s.slots[i]? = some (.running t)) (hu : t.Goes free s.db u) :
    S.Proceeds J Q s.db u := by
  obtain ⟨last, hrely, hthrough⟩ := h
  have hrefl : ∀ held, S.surroundings.rely held s.db s.db := fun _ => S.rely_refl hinv
  cases hu with
  -- A command on the session needs no state of the database.
  | orm hp =>
    rw [hp] at hthrough
    exact ⟨last, hrely, hthrough.2⟩
  | select hp =>
    rw [hp] at hthrough
    exact ⟨s.db, hrefl _, hthrough.2 s.db hrely⟩
  | missing hp hl =>
    rw [hp] at hthrough
    exact ⟨s.db, hrefl _, (hthrough.2 s.db hrely).1 hl⟩
  | locked hp hl _ =>
    rw [hp] at hthrough
    exact ⟨s.db, hrefl _, (hthrough.2 s.db hrely).2 _ hl (hc.lock ht hp hl)⟩
  -- A write was granted its locks, so the condition of the discipline holds.
  | written hp _ hcheck =>
    rw [hp] at hthrough
    exact ⟨s.db, hrefl _, (hthrough.2 s.db hrely (hc.write ht hp)).1 hcheck⟩
  | failed hp _ hcheck =>
    rw [hp] at hthrough
    exact ⟨s.db, hrefl _, (hthrough.2 s.db hrely (hc.write ht hp)).2 _ hcheck⟩

/-- In a run of transactions for which `J` holds throughout, it holds of every session. -/
theorem proceeds_of_run {Allowed : Prog D L E M R → Prop} {m : M} {d : D}
    (hA : ∀ p, Allowed p → ∀ d, S.inv d → Throughout S.surroundings J Q p (.start m d))
    (hQ : ∀ r v, Q r v → S.Commits v) (hd : S.inv d) {s : System D L E M R}
    (h : System.Run Allowed S.cond m d s) (i : ℕ) (t : Session D L E M R)
    (ht : s.slots[i]? = some (.running t)) : S.Proceeds J Q s.db t := by
  have hfollows : ∀ p, Allowed p → S.Ensures (fun _ _ _ => True) m p := fun p hp =>
    Follows.ensures fun d hd => wp_mono hQ (hA p hp d hd).wp
  induction h generalizing i t with
  | init => simp at ht
  -- A transaction starts in any state of the run.
  | @begin s p hrun hp ih =>
    have hgood := good_of_run hfollows hd hrun
    rcases System.begin_cases ht with ht | rfl
    · exact ih i t ht
    · exact ⟨s.db, S.rely_refl hgood.inv, hA p hp s.db hgood.inv⟩
  | @step s s' j hrun hc hs ih =>
    have hgood := good_of_run hfollows hd hrun
    obtain ⟨u, hu, ⟨r, hr, rfl⟩ | ⟨e, -, rfl⟩ | ⟨w, hw, rfl⟩⟩ := System.step_cases hs
    · -- Another transaction commits, which this one relies on.
      rcases System.getElem?_set_cases ht with ⟨hij, ht⟩ | ⟨-, hx⟩
      · exact (ih i t ht).rely (hgood.rely_commit hu hr hij ht)
      · cases hx
    · rcases System.getElem?_set_cases ht with ⟨-, ht⟩ | ⟨-, hx⟩
      · exact ih i t ht
      · cases hx
    · rcases System.getElem?_set_cases ht with ⟨-, ht⟩ | ⟨-, hx⟩
      · exact ih i t ht
      · cases hx
        -- This one takes a step.
        exact (ih j u hu).goes hgood.inv hc hu hw
  | abort j _ _ ih =>
    rcases System.getElem?_set_cases ht with ⟨-, ht⟩ | ⟨-, hx⟩
    · exact ih i t ht
    · cases hx

end Discipline

end Giftly.Store
