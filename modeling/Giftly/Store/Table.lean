import Mathlib.Algebra.BigOperators.Group.List.Basic
import Mathlib.Algebra.Order.BigOperators.Group.List
import Mathlib.Algebra.Order.Group.Int
import Mathlib.Data.List.Nodup
import Mathlib.Tactic.Ring

/-!
# Keyed tables

A table is a finite list of rows under distinct keys, as a relation with a primary key is. The
operations are the ones a row store offers: read a row by its key (`get?`), rewrite one row in
place (`update`) or all of them (`mapRows`), append a row (`insert`), and scan (`find?`, `sum`).
The lemmas state each operation through `get?`, and `sum_update` and `sum_insert` say how one write
moves an aggregate over the whole table.
-/

namespace Giftly.Store

/-- A finite relation with a primary key: rows in insertion order, under distinct keys. -/
structure Table (K V : Type) where
  /-- The rows, each with its key. -/
  rows : List (K × V)
  /-- No two rows share a key. -/
  nodup : (rows.map Prod.fst).Nodup

namespace Table

variable {K V : Type} [DecidableEq K]

/-- The table without rows. -/
def empty : Table K V := ⟨[], List.nodup_nil⟩

/-- The row under a key. -/
def get? (t : Table K V) (k : K) : Option V := (t.rows.find? fun r => r.1 = k).map Prod.snd

/-- Rewrite every row. -/
def mapRows (t : Table K V) (f : K → V → V) : Table K V where
  rows := t.rows.map fun r => (r.1, f r.1 r.2)
  nodup := by
    rw [List.map_map]
    exact t.nodup

/-- Rewrite the row under a key, if there is one. -/
def update (t : Table K V) (k : K) (f : V → V) : Table K V :=
  t.mapRows fun j v => if j = k then f v else v

/-- Append a row under a fresh key; a taken key leaves the table as it is. -/
def insert (t : Table K V) (k : K) (v : V) : Table K V :=
  if h : k ∈ t.rows.map Prod.fst then t
  else ⟨t.rows ++ [(k, v)], by
    rw [List.map_append, List.nodup_append]
    refine ⟨t.nodup, List.nodup_singleton _, ?_⟩
    rintro a ha b hb rfl
    simp only [List.map_cons, List.map_nil, List.mem_singleton] at hb
    exact h (hb ▸ ha)⟩

/-- The first row that satisfies a condition. -/
def find? (t : Table K V) (p : K → V → Bool) : Option (K × V) := t.rows.find? fun r => p r.1 r.2

/-- The sum of a column over all rows. -/
def sum (t : Table K V) (f : K → V → ℤ) : ℤ := (t.rows.map fun r => f r.1 r.2).sum

/-- The number of rows that satisfy a condition. -/
def count (t : Table K V) (p : K → V → Bool) : ℕ := t.rows.countP fun r => p r.1 r.2

/-- A row is under its key exactly when it is among the rows. -/
theorem get?_eq_some {t : Table K V} {k : K} {v : V} : t.get? k = some v ↔ (k, v) ∈ t.rows := by
  obtain ⟨rows, nodup⟩ := t
  simp only [get?]
  induction rows with
  | nil => simp
  | cons r rows ih =>
    obtain ⟨j, w⟩ := r
    rw [List.map_cons, List.nodup_cons] at nodup
    -- The first row has the key, or the search goes on.
    by_cases hj : j = k
    · subst hj
      simp only [List.find?_cons, decide_true, Option.map_some, Option.some.injEq,
        List.mem_cons, Prod.mk.injEq, true_and]
      constructor
      · exact fun h => .inl h.symm
      · rintro (h | h)
        · exact h.symm
        · exact absurd (List.mem_map_of_mem h) nodup.1
    · simp only [List.find?_cons, hj, decide_false, List.mem_cons, Prod.mk.injEq]
      rw [ih nodup.2]
      exact ⟨.inr, fun h => h.resolve_left fun h => hj h.1.symm⟩

/-- No row is under a key exactly when the key is not among the keys. -/
theorem get?_eq_none {t : Table K V} {k : K} : t.get? k = none ↔ k ∉ t.rows.map Prod.fst := by
  constructor
  · intro h hk
    obtain ⟨⟨j, v⟩, hv, rfl⟩ := List.mem_map.mp hk
    rw [get?_eq_some.mpr hv] at h
    exact Option.some_ne_none _ h
  · intro h
    rw [Option.eq_none_iff_forall_ne_some]
    exact fun v hv => h (List.mem_map.mpr ⟨_, get?_eq_some.mp hv, rfl⟩)

/-- A property of every row under its key is a property of every row in the list. -/
theorem forall_get? {t : Table K V} {P : K → V → Prop} :
    (∀ k v, t.get? k = some v → P k v) ↔ ∀ r ∈ t.rows, P r.1 r.2 := by
  simp only [get?_eq_some, Prod.forall]

/-- The empty table has no rows. -/
@[simp]
theorem get?_empty (k : K) : (empty : Table K V).get? k = none := rfl

/-- A row after all rows were rewritten. -/
@[simp]
theorem get?_mapRows (t : Table K V) (f : K → V → V) (k : K) :
    (t.mapRows f).get? k = (t.get? k).map (f k) := by
  obtain ⟨rows, nodup⟩ := t
  simp only [get?, mapRows]
  clear nodup
  induction rows with
  | nil => rfl
  | cons r rows ih =>
    by_cases hr : r.1 = k
    · simp [hr]
    · simpa [List.find?_cons, hr] using ih

/-- Rewritings that agree on every row of a table give the same table. -/
theorem mapRows_congr {t : Table K V} {f g : K → V → V}
    (h : ∀ k v, t.get? k = some v → f k v = g k v) : t.mapRows f = t.mapRows g := by
  unfold mapRows
  congr 1
  refine List.map_congr_left ?_
  rintro ⟨k, v⟩ hr
  exact congrArg (Prod.mk k) (h k v (get?_eq_some.mpr hr))

/-- A row after an update, whichever key was updated. -/
theorem get?_update (t : Table K V) (j k : K) (f : V → V) :
    (t.update j f).get? k = if k = j then (t.get? k).map f else t.get? k := by
  rw [update, get?_mapRows]
  split_ifs with h
  · rfl
  · simp

/-- The row that was updated. -/
@[simp]
theorem get?_update_self (t : Table K V) (k : K) (f : V → V) :
    (t.update k f).get? k = (t.get? k).map f := by
  rw [get?_update, if_pos rfl]

/-- A row beside the one that was updated. -/
@[simp]
theorem get?_update_ne (t : Table K V) {j k : K} (f : V → V) (h : k ≠ j) :
    (t.update j f).get? k = t.get? k := by
  rw [get?_update, if_neg h]

/-- The row that was inserted under a free key. -/
@[simp]
theorem get?_insert_self (t : Table K V) {k : K} (v : V) (h : t.get? k = none) :
    (t.insert k v).get? k = some v := by
  have hk := get?_eq_none.mp h
  rw [get?_eq_some]
  simp [insert, hk]

/-- A row beside the one that was inserted. -/
@[simp]
theorem get?_insert_ne (t : Table K V) {j k : K} (v : V) (h : k ≠ j) :
    (t.insert j v).get? k = t.get? k := by
  have hne : j ≠ k := h.symm
  unfold insert
  split_ifs with hj
  · rfl
  · simp [get?, List.find?_append, hne]

/-- A row after an insertion, whichever key was inserted: a taken key keeps its row. -/
theorem get?_insert (t : Table K V) (j k : K) (v : V) :
    (t.insert j v).get? k = (t.get? k).or (if k = j then some v else none) := by
  split_ifs with hk
  · subst hk
    cases hv : t.get? k with
    | none => exact get?_insert_self t v hv
    | some w =>
      have hmem : k ∈ t.rows.map Prod.fst := List.mem_map.mpr ⟨_, get?_eq_some.mp hv, rfl⟩
      rw [insert, dif_pos hmem, hv]
      rfl
  · rw [get?_insert_ne t v hk, Option.or_none]

/-- Write the row under a key, whether there is one or not. -/
def set (t : Table K V) (k : K) (v : V) : Table K V :=
  if (t.get? k).isSome then t.update k fun _ => v else t.insert k v

/-- The row under a key after one row was set. -/
@[simp]
theorem get?_set (t : Table K V) (j k : K) (v : V) :
    (t.set j v).get? k = if k = j then some v else t.get? k := by
  unfold set
  split_ifs with hj hk hk
  · subst hk
    obtain ⟨w, hw⟩ := Option.isSome_iff_exists.mp hj
    rw [get?_update_self, hw, Option.map_some]
  · exact get?_update_ne t _ hk
  · subst hk
    exact get?_insert_self t v (by simpa using hj)
  · exact get?_insert_ne t v hk

/-- A rewriting of one row, when its new value is known. -/
theorem update_eq_set {t : Table K V} {k : K} {v w : V} {f : V → V} (h : t.get? k = some v)
    (hf : f v = w) : t.update k f = t.set k w := by
  rw [set, h, Option.isSome_some, if_pos rfl]
  refine mapRows_congr fun j x hx => ?_
  split_ifs with hj
  · obtain rfl : v = x := Option.some.inj (h.symm.trans (hj ▸ hx))
    exact hf
  · rfl

/-- A row under a fresh key is the last one. -/
theorem rows_insert {t : Table K V} {k : K} (v : V) (h : t.get? k = none) :
    (t.insert k v).rows = t.rows ++ [(k, v)] := by
  rw [insert, dif_neg (get?_eq_none.mp h)]

/-- A row under a fresh key. -/
theorem insert_eq_set {t : Table K V} {k : K} (v : V) (h : t.get? k = none) :
    t.insert k v = t.set k v := by
  rw [set, h, Option.isSome_none]
  rfl

/-- The value that a row has is written again. -/
theorem set_self {t : Table K V} {k : K} {v : V} (h : t.get? k = some v) : t.set k v = t := by
  rw [set, h, Option.isSome_some, if_pos rfl]
  have hid : t.mapRows (fun _ w => w) = t := by
    simp [mapRows]
  conv_rhs => rw [← hid]
  refine mapRows_congr fun j x hx => ?_
  split_ifs with hj
  · exact Option.some.inj (h.symm.trans (hj ▸ hx))
  · rfl

/-- Two writes of one row. -/
theorem set_set (t : Table K V) (k : K) (v w : V) : (t.set k v).set k w = t.set k w := by
  have hsome : ((t.set k v).get? k).isSome = true := by simp
  rw [set, if_pos hsome]
  by_cases hk : (t.get? k).isSome
  · simp only [set, hk, if_true, update, mapRows, List.map_map]
    congr 1
    refine List.map_congr_left fun r _ => ?_
    by_cases hr : r.1 = k <;> simp [hr]
  · have hmem : k ∉ t.rows.map Prod.fst := get?_eq_none.mp (by simpa using hk)
    have hne : ∀ r ∈ t.rows, r.1 ≠ k := by
      rintro r hr rfl
      exact hmem (List.mem_map_of_mem hr)
    simp only [set, hk, Bool.false_eq_true, if_false, insert, dif_neg hmem, update, mapRows,
      List.map_append, List.map_cons, List.map_nil, if_true]
    congr 1
    rw [List.map_congr_left (g := id) fun r hr => by simp [hne r hr], List.map_id]

/-- Keep the rows that satisfy a condition. -/
def filter (t : Table K V) (p : K → V → Bool) : Table K V where
  rows := t.rows.filter fun r => p r.1 r.2
  nodup := t.nodup.sublist (List.filter_sublist.map _)

/-- Remove the row under a key, if there is one. -/
def erase (t : Table K V) (k : K) : Table K V := t.filter fun j _ => j ≠ k

/-- The row under a key among the selected rows. -/
@[simp]
theorem get?_filter (t : Table K V) (p : K → V → Bool) (k : K) :
    (t.filter p).get? k = (t.get? k).filter (p k) := by
  ext v
  rw [Option.filter_eq_some_iff, get?_eq_some, get?_eq_some]
  exact List.mem_filter

/-- The row under a key after one row was deleted. -/
@[simp]
theorem get?_erase (t : Table K V) (j k : K) :
    (t.erase j).get? k = if k = j then none else t.get? k := by
  rw [erase, get?_filter]
  split_ifs with h
  · subst h
    simp
  · -- the condition holds of every row under the key
    have htrue : (fun _ : V => decide (k ≠ j)) = fun _ => true := by simp [h]
    rw [htrue]
    cases t.get? k <;> rfl

/-- A row found by a scan is a row of the table that satisfies the condition. -/
theorem find?_eq_some {t : Table K V} {p : K → V → Bool} {k : K} {v : V}
    (h : t.find? p = some (k, v)) : t.get? k = some v ∧ p k v = true :=
  ⟨get?_eq_some.mpr (List.mem_of_find?_eq_some h), by simpa using List.find?_some h⟩

/-- A scan that finds nothing rules out every row. -/
theorem find?_eq_none {t : Table K V} {p : K → V → Bool} :
    t.find? p = none ↔ ∀ k v, t.get? k = some v → p k v = false := by
  simp only [find?, List.find?_eq_none, Bool.not_eq_true, Prod.forall, get?_eq_some]

/-- A scan finds a row as soon as one satisfies the condition. -/
theorem find?_isSome {t : Table K V} {p : K → V → Bool} {k : K} {v : V}
    (hv : t.get? k = some v) (hp : p k v = true) : ∃ r, t.find? p = some r := by
  cases h : t.find? p with
  | some r => exact ⟨r, rfl⟩
  | none =>
    rw [find?_eq_none.mp h k v hv] at hp
    exact absurd hp Bool.false_ne_true

/-- The number of rows with a property grows by at most the number of keys that may have gained
it. -/
theorem count_le {t t' : Table K V} {p : K → V → Bool} {ks : List K}
    (h : ∀ k v, t'.get? k = some v → p k v = true →
      k ∈ ks ∨ ∃ w, t.get? k = some w ∧ p k w = true) : t'.count p ≤ t.count p + ks.length := by
  have hkeys : ∀ x : Table K V,
      x.count p = ((x.rows.filter fun r => p r.1 r.2).map Prod.fst).length := by
    intro x
    rw [List.length_map, count, List.countP_eq_length_filter]
  have hnodup : ((t'.rows.filter fun r => p r.1 r.2).map Prod.fst).Nodup :=
    t'.nodup.sublist (List.filter_sublist.map _)
  -- A row with the property had it before, or its key may have gained it.
  have hsub : (t'.rows.filter fun r => p r.1 r.2).map Prod.fst ⊆
      (t.rows.filter fun r => p r.1 r.2).map Prod.fst ++ ks := by
    intro k hk
    obtain ⟨r, hr, rfl⟩ := List.mem_map.mp hk
    obtain ⟨hrow, hp⟩ := List.mem_filter.mp hr
    rcases h r.1 r.2 (get?_eq_some.mpr hrow) hp with hk | ⟨w, hw, hpw⟩
    · exact List.mem_append_right _ hk
    · refine List.mem_append_left _ (List.mem_map.mpr ⟨(r.1, w), ?_, rfl⟩)
      exact List.mem_filter.mpr ⟨get?_eq_some.mp hw, hpw⟩
  have hlength := (List.subperm_of_subset hnodup hsub).length_le
  rw [List.length_append] at hlength
  rw [hkeys, hkeys]
  exact hlength

/-- Tables with the same rows of a kind have as many of them. -/
theorem count_congr {t t' : Table K V} {p : K → V → Bool}
    (h : ∀ k v, p k v = true → (t'.get? k = some v ↔ t.get? k = some v)) :
    t'.count p = t.count p := by
  apply le_antisymm
  · simpa using count_le fun k v hv hp => Or.inr (a := k ∈ []) ⟨v, (h k v hp).mp hv, hp⟩
  · simpa using count_le fun k v hv hp => Or.inr (a := k ∈ []) ⟨v, (h k v hp).mpr hv, hp⟩

/-- Sums of columns that agree on every row are equal. -/
theorem sum_congr {t : Table K V} {f g : K → V → ℤ}
    (h : ∀ k v, t.get? k = some v → f k v = g k v) : t.sum f = t.sum g := by
  unfold sum
  congr 1
  refine List.map_congr_left ?_
  rintro ⟨k, v⟩ hr
  exact h k v (get?_eq_some.mpr hr)

/-- A column that is zero on every row sums to zero. -/
theorem sum_eq_zero {t : Table K V} {f : K → V → ℤ}
    (h : ∀ k v, t.get? k = some v → f k v = 0) : t.sum f = 0 := by
  rw [sum_congr (g := fun _ _ => 0) h]
  simp [sum]

omit [DecidableEq K] in
/-- The sum of two columns is the sum of their sums. -/
theorem sum_add (t : Table K V) (f g : K → V → ℤ) :
    t.sum (fun k v => f k v + g k v) = t.sum f + t.sum g := by
  unfold sum
  induction t.rows with
  | nil => rfl
  | cons r rows ih =>
    simp only [List.map_cons, List.sum_cons, ih]
    ring

/-- The sum of a column over a table with one row more. -/
theorem sum_insert (t : Table K V) (g : K → V → ℤ) {k : K} (v : V) (h : t.get? k = none) :
    (t.insert k v).sum g = t.sum g + g k v := by
  have hk := get?_eq_none.mp h
  simp [sum, insert, hk]

/-- A column that is zero away from one row sums to its value there. -/
theorem sum_single (t : Table K V) (f : K → V → ℤ) {k : K} {v : V} (h : t.get? k = some v)
    (hne : ∀ j w, t.get? j = some w → j ≠ k → f j w = 0) : t.sum f = f k v := by
  have hv := get?_eq_some.mp h
  replace hne : ∀ r ∈ t.rows, r.1 ≠ k → f r.1 r.2 = 0 :=
    fun r hr => hne r.1 r.2 (get?_eq_some.mpr hr)
  obtain ⟨rows, nodup⟩ := t
  simp only [sum] at *
  clear h
  -- By induction on the rows: the key is that of the head, or is in the tail.
  induction rows with
  | nil => simp at hv
  | cons r rows ih =>
    obtain ⟨j, w⟩ := r
    rw [List.map_cons, List.nodup_cons] at nodup
    have hrest := fun r hr => hne r (List.mem_cons_of_mem _ hr)
    rw [List.map_cons, List.sum_cons]
    rcases List.mem_cons.mp hv with hr | hr
    · obtain ⟨rfl, rfl⟩ := Prod.mk.inj hr
      have hzero : (rows.map fun r => f r.1 r.2).sum = 0 := by
        refine List.sum_eq_zero ?_
        intro x hx
        obtain ⟨r, hr, rfl⟩ := List.mem_map.mp hx
        exact hrest r hr fun h => nodup.1 (List.mem_map.mpr ⟨r, hr, h⟩)
      rw [hzero, add_zero]
    · have hj : j ≠ k := fun h => nodup.1 (List.mem_map.mpr ⟨_, hr, h.symm⟩)
      rw [hne (j, w) List.mem_cons_self hj, zero_add]
      exact ih nodup.2 hr hrest

/-- Two columns that differ on one row only have sums that differ by that row. -/
theorem sum_change (t : Table K V) (f g : K → V → ℤ) {k : K} {v : V} (h : t.get? k = some v)
    (hne : ∀ j w, t.get? j = some w → j ≠ k → f j w = g j w) :
    t.sum g = t.sum f - f k v + g k v := by
  have hsub : t.sum g = t.sum f + t.sum (fun j w => g j w - f j w) := by
    rw [← sum_add]
    simp
  have hone := sum_single t (fun j w => g j w - f j w) h fun j w hw hj => by
    rw [hne j w hw hj, sub_self]
  omega

omit [DecidableEq K] in
/-- The sum of a column over a rewritten table. -/
theorem sum_mapRows (t : Table K V) (f : K → V → V) (g : K → V → ℤ) :
    (t.mapRows f).sum g = t.sum fun k v => g k (f k v) := by
  simp only [sum, mapRows, List.map_map]
  rfl

/-- The sum of a column after one row was rewritten. -/
theorem sum_update (t : Table K V) (g : K → V → ℤ) {k : K} {v : V} (f : V → V)
    (h : t.get? k = some v) : (t.update k f).sum g = t.sum g - g k v + g k (f v) := by
  rw [update, sum_mapRows, sum_change t g _ h]
  · rw [if_pos rfl]
  · intro j w _ hj
    rw [if_neg hj]

/-- The sum of a column after one row was written. -/
theorem sum_set (t : Table K V) (g : K → V → ℤ) (k : K) (v : V) :
    (t.set k v).sum g = t.sum g - ((t.get? k).map (g k)).getD 0 + g k v := by
  unfold set
  cases hk : t.get? k with
  | none => simp [sum_insert t g v hk]
  | some w => simp [sum_update t g _ hk]

/-- A sum without negative terms is at least each term. -/
theorem le_sum {t : Table K V} {f : K → V → ℤ}
    (hf : ∀ k v, t.get? k = some v → 0 ≤ f k v) {k : K} {v : V} (h : t.get? k = some v) :
    f k v ≤ t.sum f := by
  refine List.single_le_sum (fun x hx => ?_) _ (List.mem_map.mpr ⟨(k, v), get?_eq_some.mp h, rfl⟩)
  obtain ⟨r, hr, rfl⟩ := List.mem_map.mp hx
  exact hf r.1 r.2 (get?_eq_some.mpr hr)

/-- A sum over the rows is at most another one, if each summand is. -/
theorem sum_le_sum {t : Table K V} {f g : K → V → ℤ}
    (h : ∀ k v, t.get? k = some v → f k v ≤ g k v) : t.sum f ≤ t.sum g := by
  refine List.sum_le_sum ?_
  rintro ⟨k, v⟩ hr
  exact h k v (get?_eq_some.mpr hr)

/-- A sum of nonnegative summands is nonnegative. -/
theorem sum_nonneg {t : Table K V} {f : K → V → ℤ}
    (hf : ∀ k v, t.get? k = some v → 0 ≤ f k v) : 0 ≤ t.sum f := by
  refine List.sum_nonneg fun x hx => ?_
  obtain ⟨r, hr, rfl⟩ := List.mem_map.mp hx
  exact hf r.1 r.2 (get?_eq_some.mpr hr)

/-- The sum of columns that agree away from the row that was written. -/
theorem sum_set_change (t : Table K V) (f g : K → V → ℤ) (k : K) (v : V)
    (hne : ∀ j w, t.get? j = some w → j ≠ k → f j w = g j w) :
    (t.set k v).sum g = t.sum f - ((t.get? k).map (f k)).getD 0 + g k v := by
  rw [sum_set]
  cases hk : t.get? k with
  | none =>
    have heq : t.sum g = t.sum f := sum_congr fun j w hw => by
      refine (hne j w hw ?_).symm
      rintro rfl
      rw [hk] at hw
      cases hw
    simp [heq]
  | some w =>
    have hsum := sum_change t f g hk hne
    simp only [Option.map_some, Option.getD_some]
    omega

omit [DecidableEq K] in
/-- The number of rows with a property is the sum of its indicator. -/
theorem count_eq_sum (t : Table K V) (p : K → V → Bool) :
    (t.count p : ℤ) = t.sum fun k v => if p k v then 1 else 0 := by
  unfold count sum
  induction t.rows with
  | nil => rfl
  | cons r rows ih =>
    rw [List.countP_cons, List.map_cons, List.sum_cons]
    dsimp only at ih ⊢
    split_ifs <;> push_cast <;> omega

/-- The number of rows with a property, after one row was rewritten. -/
theorem count_update (t : Table K V) (p : K → V → Bool) {k : K} {v : V} (f : V → V)
    (h : t.get? k = some v) : ((t.update k f).count p : ℤ) =
      t.count p - (if p k v then 1 else 0) + if p k (f v) then 1 else 0 := by
  rw [count_eq_sum, count_eq_sum, sum_update t _ f h]

/-- The number of rows with a property, in a table with one row more. -/
theorem count_insert (t : Table K V) (p : K → V → Bool) {k : K} (v : V) (h : t.get? k = none) :
    ((t.insert k v).count p : ℤ) = t.count p + if p k v then 1 else 0 := by
  rw [count_eq_sum, count_eq_sum, sum_insert t _ v h]

/-- The number of rows with a property, after one row was written. -/
theorem count_set (t : Table K V) (p : K → V → Bool) (k : K) (v : V) :
    ((t.set k v).count p : ℤ) =
      t.count p - (if (t.get? k).any (p k) then 1 else 0) + if p k v then 1 else 0 := by
  rw [count_eq_sum, count_eq_sum, sum_set]
  cases t.get? k <;> simp

/-- A row with a property is counted. -/
theorem count_pos {t : Table K V} {p : K → V → Bool} {k : K} {v : V} (h : t.get? k = some v)
    (hp : p k v = true) : 0 < t.count p :=
  List.countP_pos_iff.mpr ⟨(k, v), get?_eq_some.mp h, hp⟩

/-- A later version of a table: every row is still there, with the same value of the columns that
`core` selects. -/
def Extends {A : Type} (core : V → A) (t t' : Table K V) : Prop :=
  ∀ k v, t.get? k = some v → ∃ v', t'.get? k = some v' ∧ core v' = core v

namespace Extends

variable {A : Type} {core : V → A} {t t₁ t₂ t₃ : Table K V}

/-- A table has the core columns of its own rows. -/
theorem refl : Extends core t t := fun _ v h => ⟨v, h, rfl⟩

/-- Core columns that are kept over two steps. -/
theorem trans (h₁ : Extends core t₁ t₂) (h₂ : Extends core t₂ t₃) : Extends core t₁ t₃ := by
  intro k v hv
  obtain ⟨v₂, hv₂, hc₂⟩ := h₁ k v hv
  obtain ⟨v₃, hv₃, hc₃⟩ := h₂ k v₂ hv₂
  exact ⟨v₃, hv₃, hc₃.trans hc₂⟩

/-- Rewriting rows without their core columns. -/
theorem mapRows {f : K → V → V} (h : ∀ k v, core (f k v) = core v) :
    Extends core t (t.mapRows f) := fun k v hv => ⟨f k v, by simp [hv], h k v⟩

/-- Rewriting one row without its core columns. -/
theorem update {f : V → V} (k : K) (h : ∀ v, core (f v) = core v) :
    Extends core t (t.update k f) := by
  refine mapRows fun j v => ?_
  split_ifs
  · exact h v
  · rfl

/-- An insert keeps the rows that were there, also if the key was taken. -/
theorem insert (k : K) (v : V) : Extends core t (t.insert k v) := by
  intro j w hw
  by_cases hj : j = k
  · subst hj
    refine ⟨w, ?_, rfl⟩
    have hmem : j ∈ t.rows.map Prod.fst := by
      by_contra hmem
      rw [get?_eq_none.mpr hmem] at hw
      exact Option.some_ne_none _ hw.symm
    rw [Table.insert, dif_pos hmem]
    exact hw
  · exact ⟨w, by rw [get?_insert_ne t v hj]; exact hw, rfl⟩

end Extends

end Table

end Giftly.Store
