import Mathlib.Data.List.Chain
import Mathlib.Data.List.Sort

/-!
# Keyset pagination

A history is read in pages: the newest rows first, each page after the last row of the page before it,
until a page is not full. The history may grow while it is read. A cursor names a row, and every page
looks up the key of that row in the history as it then is; what a traversal needs of a growing history
is that rows keep their keys and that cursors still find them (`Grows`).

`traverse` is the client, of any list that is read by cursors. The rows of a traversal descend in their
keys (`follow_descending`), they include every row that was there at the start (`follow_complete`), and
a history that has stopped growing is read to its end (`follow_terminates`).
-/

namespace Giftly.Store

variable {D R C K E I : Type}

/-- Follow the cursors: each page is read from the next state of the history. The second component
tells whether a page without a cursor was reached. -/
def traverse (get : D → Option C → Except E (List I × Option C)) :
    List D → Option C → Except E (List I × Bool)
  | [], _ => .ok ([], false)
  | d :: ds, cursor =>
    match get d cursor with
    | .error e => .error e
    | .ok (items, none) => .ok (items, true)
    | .ok (items, some next) =>
      match traverse get ds (some next) with
      | .error e => .error e
      | .ok (rest, done) => .ok (items ++ rest, done)

/-- A history, the key that its rows are sorted by, the cursor of a row, and the key that is looked up
for a cursor. -/
structure Keyset (D R C K : Type) where
  rows : D → List R
  key : R → K
  cursor : R → C
  anchor : D → C → Option K

namespace Keyset

variable [LinearOrder K] (h : Keyset D R C K)

/-- Rows by their keys, the newest first. -/
def newest (rs : List R) : List R := rs.insertionSort fun a b => h.key b ≤ h.key a

/-- A page after the row of a cursor. Without a cursor, or when its row is not found, it is the first
page. -/
def page (limit : ℕ) (d : D) (before : Option C) : List R :=
  match before.bind (h.anchor d) with
  | none => (h.newest (h.rows d)).take limit
  | some k => (h.newest ((h.rows d).filter fun r => h.key r < k)).take limit

/-- The cursor that is given with a page. -/
def next (limit : ℕ) (rs : List R) : Option C :=
  if rs.length = limit then rs.getLast?.map h.cursor else none

/-- The rows of a traversal, and whether it came to its end. -/
def follow (limit : ℕ) : List D → Option C → List R × Bool
  | [], _ => ([], false)
  | d :: ds, before =>
    match h.next limit (h.page limit d before) with
    | none => (h.page limit d before, true)
    | some c =>
      let rest := follow limit ds (some c)
      (h.page limit d before ++ rest.1, rest.2)

/-- The keys are distinct, and the cursor of every row finds its key. -/
structure Keyed (d : D) : Prop where
  nodup : ((h.rows d).map h.key).Nodup
  found : ∀ r ∈ h.rows d, h.anchor d (h.cursor r) = some (h.key r)

/-- Rows keep their keys and their cursors, and cursors go on to find them. -/
structure Grows (d d' : D) : Prop where
  kept : ∀ r ∈ h.rows d, ∃ r' ∈ h.rows d', h.key r' = h.key r ∧ h.cursor r' = h.cursor r
  anchored : ∀ c k, h.anchor d c = some k → h.anchor d' c = some k

/-- The states of a history that grows. -/
structure History (ds : List D) : Prop where
  keyed : ∀ d ∈ ds, h.Keyed d
  grows : ds.IsChain h.Grows

/-! ## One page -/

variable {h} {d d' : D} {ds : List D} {limit : ℕ} {before : Option C} {k : K} {c : C} {r : R}

/-- The rows after a bound, the newest first. -/
def after (h : Keyset D R C K) (d : D) (bound : Option K) : List R :=
  h.newest ((h.rows d).filter fun r => bound.all fun k => h.key r < k)

/-- A page is the first rows after the bound that its cursor stands for. -/
theorem page_eq : h.page limit d before = (h.after d (before.bind (h.anchor d))).take limit := by
  unfold page after
  cases before.bind (h.anchor d) with
  | none => simp
  | some k => rfl

/-- The rows after a bound are the rows of smaller keys. -/
theorem mem_after {bound : Option K} : r ∈ h.after d bound ↔
    r ∈ h.rows d ∧ ∀ k ∈ bound, h.key r < k := by
  unfold after newest
  rw [List.mem_insertionSort, List.mem_filter]
  cases bound <;> simp

/-- The rows after a bound have falling keys. -/
theorem after_descending (hd : h.Keyed d) (bound : Option K) :
    (h.after d bound).Pairwise fun a b => h.key b < h.key a := by
  have hsorted : (h.after d bound).Pairwise fun a b => h.key b ≤ h.key a :=
    List.pairwise_insertionSort _ _
  have hnodup : ((h.after d bound).map h.key).Nodup := by
    have hfilter : (((h.rows d).filter fun r => bound.all fun k => h.key r < k).map h.key).Nodup :=
      hd.nodup.sublist (List.filter_sublist.map h.key)
    exact ((List.perm_insertionSort _ _).map h.key).nodup_iff.mpr hfilter
  have hne : (h.after d bound).Pairwise fun a b => h.key a ≠ h.key b := by
    rw [List.nodup_iff_pairwise_ne, List.pairwise_map] at hnodup
    exact hnodup
  exact (hsorted.and hne).imp fun hab => lt_of_le_of_ne hab.1 hab.2.symm

/-- No row is twice among the rows after a bound. -/
theorem after_nodup (hd : h.Keyed d) (bound : Option K) : (h.after d bound).Nodup := by
  rw [List.nodup_iff_pairwise_ne]
  apply (after_descending hd bound).imp
  intro a b hlt heq
  rw [heq] at hlt
  exact lt_irrefl _ hlt

/-- A row is not after itself, so fewer rows come after it. -/
theorem length_after_lt (hd : h.Keyed d) {bound : Option K} (hr : r ∈ h.after d bound) :
    (h.after d (some (h.key r))).length < (h.after d bound).length := by
  have hsub : r :: h.after d (some (h.key r)) ⊆ h.after d bound := by
    intro a ha
    rcases List.mem_cons.mp ha with rfl | ha
    · exact hr
    · obtain ⟨hrow, hlt⟩ := mem_after.mp ha
      refine mem_after.mpr ⟨hrow, ?_⟩
      intro k hk
      exact (hlt _ rfl).trans ((mem_after.mp hr).2 k hk)
  have hnot : r ∉ h.after d (some (h.key r)) := by
    intro hin
    exact lt_irrefl _ ((mem_after.mp hin).2 _ rfl)
  have hnodup : (r :: h.after d (some (h.key r))).Nodup :=
    List.nodup_cons.mpr ⟨hnot, after_nodup hd _⟩
  exact (List.subperm_of_subset hnodup hsub).length_le

/-- A page that is not full is the rest of the history. -/
theorem page_of_next_none (hlimit : 0 < limit)
    (hn : h.next limit (h.page limit d before) = none) :
    h.page limit d before = h.after d (before.bind (h.anchor d)) := by
  unfold next at hn
  rw [page_eq] at hn ⊢
  split_ifs at hn with hfull
  · rw [Option.map_eq_none_iff, List.getLast?_eq_none_iff] at hn
    rw [hn, List.length_nil] at hfull
    omega
  · apply List.take_of_length_le
    rw [List.length_take] at hfull
    omega

/-- A cursor is that of the last row of its page, and everything else is on the page or after it. -/
theorem page_of_next_some (hd : h.Keyed d) (hn : h.next limit (h.page limit d before) = some c) :
    ∃ last ∈ h.page limit d before, h.cursor last = c ∧
      (∀ r ∈ h.page limit d before, h.key last ≤ h.key r) ∧
      ∀ r ∈ h.after d (before.bind (h.anchor d)), r ∈ h.page limit d before ∨
        h.key r < h.key last := by
  unfold next at hn
  split_ifs at hn
  obtain ⟨last, hlast, hc⟩ := Option.map_eq_some_iff.mp hn
  have hmem : last ∈ h.page limit d before := List.mem_of_getLast? hlast
  refine ⟨last, hmem, hc, ?_, ?_⟩
  · -- The last row of a descending list has the least key.
    have hdesc : (h.page limit d before).Pairwise fun a b => h.key b < h.key a := by
      rw [page_eq]
      exact (after_descending hd _).take
    obtain ⟨init, hinit⟩ := List.getLast?_eq_some_iff.mp hlast
    rw [hinit] at hdesc ⊢
    intro r hr
    rcases List.mem_append.mp hr with hr | hr
    · exact ((List.pairwise_append.mp hdesc).2.2 r hr last (List.mem_singleton_self last)).le
    · rw [List.mem_singleton.mp hr]
  · -- What follows the cursor is on the page or in the part that was cut off.
    intro r hr
    rw [page_eq] at hmem ⊢
    have hdesc := after_descending hd (before.bind (h.anchor d))
    rw [← List.take_append_drop limit (h.after d (before.bind (h.anchor d)))] at hr hdesc
    rcases List.mem_append.mp hr with hr | hr
    · exact .inl hr
    · exact .inr ((List.pairwise_append.mp hdesc).2.2 last hmem r hr)

/-! ## A traversal -/

omit [LinearOrder K] in
/-- What follows the first state of a history is a history. -/
theorem History.tail (hs : h.History (d :: ds)) : h.History ds :=
  ⟨fun d' hd' => hs.keyed d' (List.mem_cons_of_mem d hd'), hs.grows.of_cons⟩

omit [LinearOrder K] in
/-- A cursor that finds a key goes on to find it. -/
theorem History.anchored (hs : h.History (d :: ds)) (hc : h.anchor d c = some k) :
    ∀ d' ∈ ds.head?, h.anchor d' c = some k := by
  intro d' hd'
  cases ds with
  | nil => nomatch hd'
  | cons d₁ ds =>
    obtain rfl := Option.some.inj hd'
    exact (List.isChain_cons_cons.mp hs.grows).1.anchored c k hc

/-- The bound that a cursor gives in the first of some states. -/
def Bounds (h : Keyset D R C K) (ds : List D) (before : Option C) (bound : Option K) : Prop :=
  ∀ d ∈ ds.head?, before.bind (h.anchor d) = bound

/-- Where a page that is full leaves the traversal. -/
theorem History.bounds_next (hs : h.History (d :: ds))
    (hn : h.next limit (h.page limit d before) = some c) :
    ∃ last ∈ h.page limit d before, h.Bounds ds (some c) (some (h.key last)) ∧
      (∀ r ∈ h.page limit d before, h.key last ≤ h.key r) ∧
      ∀ r ∈ h.after d (before.bind (h.anchor d)), r ∈ h.page limit d before ∨
        h.key r < h.key last := by
  have hd := hs.keyed d List.mem_cons_self
  obtain ⟨last, hmem, hc, hleast, hrest⟩ := page_of_next_some hd hn
  have hrow : last ∈ h.rows d := by
    rw [page_eq] at hmem
    exact (mem_after.mp (List.mem_of_mem_take hmem)).1
  have hfound : h.anchor d c = some (h.key last) := by
    rw [← hc]
    exact hd.found last hrow
  exact ⟨last, hmem, hs.anchored hfound, hleast, hrest⟩

/-- The rows of a traversal come after its bound. -/
theorem follow_lt (hs : h.History ds) {bound : Option K} (hb : h.Bounds ds before bound) :
    ∀ r ∈ (h.follow limit ds before).1, ∀ k ∈ bound, h.key r < k := by
  induction ds generalizing before bound with
  | nil => exact fun r hr => absurd hr List.not_mem_nil
  | cons d ds ih =>
    have hpage : ∀ r ∈ h.page limit d before, ∀ k ∈ bound, h.key r < k := by
      intro r hr
      rw [page_eq, hb d rfl] at hr
      exact (mem_after.mp (List.mem_of_mem_take hr)).2
    rw [follow]
    split
    · exact hpage
    · rename_i c hn
      obtain ⟨last, hmem, hnext, -, -⟩ := hs.bounds_next hn
      intro r hr k hk
      rcases List.mem_append.mp hr with hr | hr
      · exact hpage r hr k hk
      · have hafter := ih hs.tail hnext r hr (h.key last) rfl
        exact hafter.trans (hpage last hmem k hk)

/-- The keys of a traversal descend. -/
theorem follow_descending (hs : h.History ds) :
    ((h.follow limit ds before).1).Pairwise fun a b => h.key b < h.key a := by
  induction ds generalizing before with
  | nil => exact .nil
  | cons d ds ih =>
    have hpage : (h.page limit d before).Pairwise fun a b => h.key b < h.key a := by
      rw [page_eq]
      exact (after_descending (hs.keyed d List.mem_cons_self) _).take
    rw [follow]
    split
    · exact hpage
    · rename_i c hn
      obtain ⟨last, hmem, hnext, hleast, -⟩ := hs.bounds_next hn
      refine List.pairwise_append.mpr ⟨hpage, ih hs.tail, ?_⟩
      intro a ha b hb
      have hafter := follow_lt hs.tail hnext b hb (h.key last) rfl
      exact hafter.trans_le (hleast a ha)

/-- A traversal that came to its end has every row that was there at its start. -/
theorem follow_complete (hlimit : 0 < limit) (hs : h.History (d :: ds))
    (hdone : (h.follow limit (d :: ds) before).2 = true) :
    ∀ r ∈ h.after d (before.bind (h.anchor d)),
      ∃ r' ∈ (h.follow limit (d :: ds) before).1, h.key r' = h.key r := by
  -- By induction on the states that are still to come: a row is on this page or below its last.
  induction ds generalizing d before with
  | nil =>
    intro r hr
    rw [follow] at hdone ⊢
    split at hdone
    · rename_i hn
      have hall := page_of_next_none hlimit hn
      rw [← hall] at hr
      exact ⟨r, hr, rfl⟩
    · nomatch hdone
  | cons d₁ ds ih =>
    intro r hr
    rw [follow] at hdone ⊢
    split at hdone
    · rename_i hn
      have hall := page_of_next_none hlimit hn
      rw [← hall] at hr
      exact ⟨r, hr, rfl⟩
    · rename_i c hn
      obtain ⟨last, hmem, hnext, -, hrest⟩ := hs.bounds_next hn
      rcases hrest r hr with hpage | hlt
      · exact ⟨r, List.mem_append_left _ hpage, rfl⟩
      · -- The row is still there, after the cursor, when the next page is read.
        obtain ⟨r₁, hr₁, hkey, -⟩ :=
          (List.isChain_cons_cons.mp hs.grows).1.kept r (mem_after.mp hr).1
        have hafter : r₁ ∈ h.after d₁ ((some c).bind (h.anchor d₁)) := by
          rw [hnext d₁ rfl, mem_after]
          refine ⟨hr₁, ?_⟩
          intro k hk
          obtain rfl := Option.some.inj hk
          rw [hkey]
          exact hlt
        obtain ⟨r', hr', hkey'⟩ := ih hs.tail hdone r₁ hafter
        exact ⟨r', List.mem_append_right _ hr', hkey'.trans hkey⟩

/-- A history that does not grow is read to its end in as many pages as it has rows. -/
theorem follow_replicate {n : ℕ} (hs : h.History (List.replicate n d))
    (hn : (h.after d (before.bind (h.anchor d))).length < n) :
    (h.follow limit (List.replicate n d) before).2 = true := by
  induction n generalizing before with
  | zero => exact absurd hn (Nat.not_lt_zero _)
  | succ n ih =>
    rw [List.replicate_succ] at hs ⊢
    rw [follow]
    split
    · rfl
    · rename_i c hnext
      obtain ⟨last, hmem, hbounds, -, -⟩ := hs.bounds_next hnext
      cases n with
      | zero =>
        -- There is no row after the bound, so the page is empty and not full.
        have hempty : h.after d (before.bind (h.anchor d)) = [] :=
          List.length_eq_zero_iff.mp (by omega)
        rw [page_eq, hempty] at hmem
        exact absurd (List.mem_of_mem_take hmem) List.not_mem_nil
      | succ n =>
        have hbound : (some c).bind (h.anchor d) = some (h.key last) :=
          hbounds d (by rw [List.replicate_succ]; rfl)
        rw [page_eq] at hmem
        have hfewer := length_after_lt (hs.keyed d List.mem_cons_self) (List.mem_of_mem_take hmem)
        apply ih hs.tail
        rw [hbound]
        omega

/-- A traversal comes to its end when the history stops growing. -/
theorem follow_terminates {n : ℕ} (hs : h.History (ds ++ List.replicate n d))
    (hn : (h.rows d).length < n) : (h.follow limit (ds ++ List.replicate n d) before).2 = true := by
  induction ds generalizing before with
  | nil =>
    apply follow_replicate hs
    calc (h.after d (before.bind (h.anchor d))).length
        = ((h.rows d).filter fun r => (before.bind (h.anchor d)).all fun k => h.key r < k).length :=
          List.length_insertionSort _ _
      _ ≤ (h.rows d).length := List.length_filter_le _ _
      _ < n := hn
  | cons d₁ ds ih =>
    rw [List.cons_append] at hs ⊢
    rw [follow]
    split
    · rfl
    · exact ih hs.tail

/-- A client of the pages reads what the traversal does. -/
theorem traverse_eq_follow {get : D → Option C → Except E (List I × Option C)} {f : R → I}
    (hget : ∀ d ∈ ds, ∀ before, get d before =
      .ok ((h.page limit d before).map f, h.next limit (h.page limit d before))) :
    traverse get ds before =
      .ok ((h.follow limit ds before).1.map f, (h.follow limit ds before).2) := by
  induction ds generalizing before with
  | nil => rfl
  | cons d ds ih =>
    have hrest := fun before => @ih before fun d' hd' => hget d' (List.mem_cons_of_mem d hd')
    rw [traverse, hget d List.mem_cons_self, follow]
    cases h.next limit (h.page limit d before) with
    | none => rfl
    | some c =>
      dsimp only
      rw [hrest (some c), List.map_append]

/-- What a client gets that follows the cursors from the first page on, when the history had some keys
at the start. -/
structure Covered (get : D → Option C → Except E (List I × Option C)) (place : I → K)
    (present : List K) (ds : List D) : Prop where
  /-- The rows descend in their keys. -/
  descending : ∀ items done, traverse get ds none = .ok (items, done) →
    items.Pairwise fun a b => place b < place a
  /-- No row appears twice. -/
  nodup : ∀ items done, traverse get ds none = .ok (items, done) → (items.map place).Nodup
  /-- At the end, every row that was there at the start has appeared exactly once. -/
  complete : ∀ items, traverse get ds none = .ok (items, true) →
    ∀ k ∈ present, (items.map place).count k = 1
  /-- The end is reached once the history has stopped growing. -/
  terminates : ∀ d ∈ ds.getLast?, ∃ n₀, ∀ n ≥ n₀, ∃ items,
    traverse get (ds ++ List.replicate n d) none = .ok (items, true)

omit [LinearOrder K] in
/-- A history goes on in its last state for as long as one likes. -/
theorem History.append_replicate (hs : h.History ds) (hd : d ∈ ds.getLast?) (n : ℕ) :
    h.History (ds ++ List.replicate n d) := by
  have hmem : d ∈ ds := List.mem_of_getLast? hd
  -- Nothing grows between a state and itself.
  have hself : h.Grows d d := ⟨fun r hr => ⟨r, hr, rfl, rfl⟩, fun _ _ hc => hc⟩
  constructor
  · intro d' hd'
    rcases List.mem_append.mp hd' with hd' | hd'
    · exact hs.keyed d' hd'
    · rw [List.eq_of_mem_replicate hd']
      exact hs.keyed d hmem
  · apply hs.grows.append
    · induction n with
      | zero => exact .nil
      | succ n ih =>
        rw [List.replicate_succ]
        refine ih.cons ?_
        intro d' hd'
        rw [List.eq_of_mem_replicate (List.mem_of_head? hd')]
        exact hself
    · intro a ha b hb
      obtain rfl : d = a := Option.some.inj (hd.symm.trans ha)
      rw [List.eq_of_mem_replicate (List.mem_of_head? hb)]
      exact hself

/-- A history that is read by its pages is covered. -/
theorem covered {get : D → Option C → Except E (List I × Option C)} {f : R → I} {place : I → K}
    (hlimit : 0 < limit) (hs : h.History (d :: ds)) (hplace : ∀ r, place (f r) = h.key r)
    (hget : ∀ d' ∈ d :: ds, ∀ before, get d' before =
      .ok ((h.page limit d' before).map f, h.next limit (h.page limit d' before))) :
    Covered get place ((h.rows d).map h.key) (d :: ds) := by
  have hread : traverse get (d :: ds) none = .ok ((h.follow limit (d :: ds) none).1.map f,
      (h.follow limit (d :: ds) none).2) := traverse_eq_follow hget
  have hkeys : ∀ rs : List R, (rs.map f).map place = rs.map h.key := by
    intro rs
    rw [List.map_map]
    exact List.map_congr_left fun r _ => hplace r
  -- Descending, hence without repetition.
  have hdescending : ∀ items done, traverse get (d :: ds) none = .ok (items, done) →
      items.Pairwise fun a b => place b < place a := by
    intro items done heq
    obtain ⟨rfl, -⟩ := Prod.mk.inj (Except.ok.inj (hread.symm.trans heq))
    rw [List.pairwise_map]
    simp only [hplace]
    exact follow_descending hs
  have hnodup : ∀ items done, traverse get (d :: ds) none = .ok (items, done) →
      (items.map place).Nodup := by
    intro items done heq
    rw [List.nodup_iff_pairwise_ne, List.pairwise_map]
    exact (hdescending items done heq).imp fun hlt => (ne_of_lt hlt).symm
  constructor
  · exact hdescending
  · exact hnodup
  · intro items heq k hk
    apply List.count_eq_one_of_mem (hnodup items true heq)
    obtain ⟨rfl, hdone⟩ := Prod.mk.inj (Except.ok.inj (hread.symm.trans heq))
    obtain ⟨r, hr, rfl⟩ := List.mem_map.mp hk
    have hafter : r ∈ h.after d ((none : Option C).bind (h.anchor d)) :=
      mem_after.mpr ⟨hr, nofun⟩
    obtain ⟨r', hr', hkey⟩ := follow_complete hlimit hs hdone r hafter
    rw [hkeys, ← hkey]
    exact List.mem_map_of_mem hr'
  · intro d' hd'
    refine ⟨(h.rows d').length + 1, ?_⟩
    intro n hn
    -- After the last state no row is added, so each page shortens what is left.
    have hlonger := hs.append_replicate hd' n
    have hdone := @follow_terminates _ _ _ _ _ h d' (d :: ds) limit none n hlonger (by omega)
    have hread' := @traverse_eq_follow _ _ _ _ _ _ _ h (d :: ds ++ List.replicate n d') limit none get f
      fun d₁ hd₁ => by
        rcases List.mem_append.mp hd₁ with h₁ | h₁
        · exact hget d₁ h₁
        · rw [List.eq_of_mem_replicate h₁]
          exact hget d' (List.mem_of_getLast? hd')
    rw [hdone] at hread'
    exact ⟨_, hread'⟩

end Keyset

end Giftly.Store
