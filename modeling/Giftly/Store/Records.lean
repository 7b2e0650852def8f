import Giftly.Store.Table

/-!
# Rows that record

Some rows of a table record for good that something happened: once such a row meets a condition it
stays as it is. `keysWhere` lists the keys of the rows that meet the condition, and `Gains` says what
one step may do to them: none goes or changes, and one key at most is new.
-/

namespace Giftly.Store.Table

variable {K V : Type} [DecidableEq K] {t t' : Table K V} {k : K} {v : V}

section Keys

variable {p : K → V → Bool}

/-- The keys of the rows that meet a condition. -/
def keysWhere (t : Table K V) (p : K → V → Bool) : List K :=
  (t.rows.filter fun r => p r.1 r.2).map Prod.fst

/-- The keys of the rows that meet a condition. -/
@[simp]
theorem mem_keysWhere : k ∈ t.keysWhere p ↔ ∃ v, t.get? k = some v ∧ p k v = true := by
  simp [keysWhere, get?_eq_some]

omit [DecidableEq K] in
/-- No key is listed twice. -/
theorem nodup_keysWhere (t : Table K V) (p : K → V → Bool) : (t.keysWhere p).Nodup := by
  unfold keysWhere
  exact List.Nodup.sublist ((List.filter_sublist).map Prod.fst) t.nodup

/-- A sum over the listed keys is a sum over the table of a column that is zero elsewhere. -/
theorem sum_keysWhere (f : K → V → ℤ) {g : K → ℤ}
    (h : ∀ k v, t.get? k = some v → p k v = true → g k = f k v)
    (hzero : ∀ k v, t.get? k = some v → p k v = false → f k v = 0) :
    ((t.keysWhere p).map g).sum = t.sum f := by
  have hrows : ∀ r ∈ t.rows, if p r.1 r.2 = true then g r.1 = f r.1 r.2 else f r.1 r.2 = 0 := by
    intro r hr
    have hget := get?_eq_some.mpr hr
    split_ifs with hp
    · exact h r.1 r.2 hget hp
    · exact hzero r.1 r.2 hget (by simpa using hp)
  unfold keysWhere sum
  generalize t.rows = rows at hrows
  induction rows with
  | nil => rfl
  | cons r rows ih =>
    have hfirst := hrows r List.mem_cons_self
    have hrest := ih fun x hx => hrows x (List.mem_cons_of_mem r hx)
    rw [List.map_cons, List.sum_cons, ← hrest]
    -- A row that is listed counts, and any other is zero.
    by_cases hp : p r.1 r.2 = true
    · rw [if_pos hp] at hfirst
      simp [hp, hfirst]
    · rw [if_neg hp] at hfirst
      simp [hp, hfirst]

end Keys

section Gains

variable {p : V → Bool}

/-- From `t` to `t'` the rows that meet `p` stay as they are, and no row comes to meet it but the one
under `new`. -/
structure Gains (p : V → Bool) (new : Option K) (t t' : Table K V) : Prop where
  keeps : ∀ k v, t.get? k = some v → p v = true → t'.get? k = some v
  gains : ∀ k v, t'.get? k = some v → p v = true → t.get? k = some v ∨ new = some k

namespace Gains

variable {new : Option K}

/-- Nothing changes, so no row comes to meet the condition. -/
theorem refl (t : Table K V) : Gains p new t t := ⟨fun _ _ h _ => h, fun _ _ h _ => .inl h⟩

/-- A write over a row that does not meet the condition. -/
theorem set (hold : ∀ w, t.get? k = some w → p w = false) (hnew : p v = true → new = some k) :
    Gains p new t (t.set k v) where
  keeps j w hw hp := by
    have hj : j ≠ k := by
      rintro rfl
      rw [hold w hw] at hp
      cases hp
    rw [get?_set, if_neg hj]
    exact hw
  gains j w hw hp := by
    rw [get?_set] at hw
    split_ifs at hw with hj
    · obtain rfl := Option.some.inj hw
      rw [hj]
      exact .inr (hnew hp)
    · exact .inl hw

/-- The keys that are listed afterwards. -/
theorem mem_keysWhere (h : Gains p new t t')
    (hnew : ∀ k, new = some k → ∃ v, t'.get? k = some v ∧ p v = true) :
    k ∈ t'.keysWhere (fun _ => p) ↔ k ∈ t.keysWhere (fun _ => p) ∨ new = some k := by
  simp only [Table.mem_keysWhere]
  constructor
  · rintro ⟨v, hv, hp⟩
    rcases h.gains k v hv hp with hv₀ | heq
    · exact .inl ⟨v, hv₀, hp⟩
    · exact .inr heq
  · rintro (⟨v, hv, hp⟩ | heq)
    · exact ⟨v, h.keeps k v hv hp, hp⟩
    · exact hnew k heq

end Gains

end Gains

end Giftly.Store.Table
