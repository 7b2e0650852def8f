import Giftly.Regex.Occurs

/-!
# Matching and replacing

A regular expression here is a sequence of pieces: a word boundary, or a run of characters of one
class whose length has a lower and perhaps an upper bound. `matchLength` finds the match that a
backtracking engine finds: every run is as long as the pieces after it allow. `sub` replaces the
matches from left to right, and goes on after each. An empty match replaces nothing; no expression
that asks for at least one character has one.

Two kinds of expressions have a match that can be said without backtracking: a sequence of runs of
fixed lengths (`matchLength_fixed`), and a run between two word boundaries
(`matchLength_delimited`).
-/

namespace Regex

variable {α : Type}

/-- A piece of a regular expression. -/
inductive Piece (α : Type)
  /-- `\b`. -/
  | boundary
  /-- A class of characters with `{least,most}`. -/
  | run (test : α → Bool) (least : ℕ) (most : Option ℕ)

/-- One character of a class. -/
def Piece.one (test : α → Bool) : Piece α := .run test 1 (some 1)

/-- The length of the match at the start of a text, after the given character. -/
def matchLength (word : α → Bool) : List (Piece α) → Option α → List α → Option ℕ
  | [], _, _ => some 0
  | .boundary :: pieces, before, s =>
    if before.any word != s.head?.any word then matchLength word pieces before s else none
  | .run test least most :: pieces, before, s =>
    let available := (s.takeWhile test).length
    let longest := most.elim available (min available)
    (List.range (longest + 1 - least)).findSome? fun i =>
      (matchLength word pieces ((s.take (longest - i)).getLast?.or before)
        (s.drop (longest - i))).map (longest - i + ·)

/-- The text with its matches replaced, from the place after the given character on; the next so
many characters belong to the last match. -/
def subFrom (find : Option α → List α → Option ℕ) (replace : List α → List α) :
    ℕ → Option α → List α → List α
  | _, _, [] => []
  | skip + 1, _, c :: s => subFrom find replace skip (some c) s
  | 0, before, c :: s =>
    match find before (c :: s) with
    | some (n + 1) =>
      replace ((c :: s).take (n + 1)) ++ subFrom find replace n (some c) s
    | _ => c :: subFrom find replace 0 (some c) s

/-- `pattern.sub(replace, text)`. -/
def sub (word : α → Bool) (pieces : List (Piece α)) (replace : List α → List α) (s : List α) :
    List α :=
  subFrom (matchLength word pieces) replace 0 none s

section SubFrom

variable {find : Option α → List α → Option ℕ} {replace : List α → List α}

/-- The characters of a match are passed over. -/
theorem subFrom_skip (b : List α) : ∀ (a : List α) (before : Option α),
    subFrom find replace a.length before (a ++ b) =
      subFrom find replace 0 (a.getLast?.or before) b
  | [], _ => rfl
  | c :: a, before => by
    have hlast : (c :: a).getLast?.or before = a.getLast?.or (some c) := by
      cases a <;> simp [List.getLast?_cons]
    rw [hlast, List.length_cons, List.cons_append, subFrom, subFrom_skip b a]

/-- A match is replaced, and the search goes on behind it. -/
theorem subFrom_match {before : Option α} {c : α} {a b : List α}
    (h : find before (c :: a ++ b) = some (a.length + 1)) :
    subFrom find replace 0 before (c :: a ++ b) =
      replace (c :: a) ++ subFrom find replace 0 ((c :: a).getLast?.or before) b := by
  have hlast : (c :: a).getLast?.or before = a.getLast?.or (some c) := by
    cases a <;> simp [List.getLast?_cons]
  rw [List.cons_append] at h ⊢
  rw [subFrom, h]
  simp only
  rw [subFrom_skip b a, hlast, List.take_succ_cons, List.take_left]

/-- A character at which nothing matches stays. -/
theorem subFrom_cons {before : Option α} {c : α} {s : List α} (h : find before (c :: s) = none) :
    subFrom find replace 0 before (c :: s) = c :: subFrom find replace 0 (some c) s := by
  rw [subFrom, h]

/-- A stretch in which nothing matches stays. -/
theorem subFrom_append (b : List α) : ∀ (a : List α) (before : Option α),
    (∀ x c y, a = x ++ c :: y → find (x.getLast?.or before) (c :: y ++ b) = none) →
      subFrom find replace 0 before (a ++ b) =
        a ++ subFrom find replace 0 (a.getLast?.or before) b
  | [], _, _ => rfl
  | c :: a, before, h => by
    have hlast : ∀ x : List α, (c :: x).getLast?.or before = x.getLast?.or (some c) := by
      intro x
      cases x <;> simp [List.getLast?_cons]
    have hhead : find before (c :: (a ++ b)) = none := h [] c a rfl
    rw [List.cons_append, subFrom_cons hhead, subFrom_append b a (some c), hlast,
      List.cons_append]
    intro x d y hxy
    rw [← hlast x]
    exact h (c :: x) d y (by rw [hxy, List.cons_append])

variable {p : α → Bool} {ps : List (α → Bool)}

/-- A replacement that starts with a character that fails every test makes no start of an
occurrence. -/
theorem heads_of_subFrom (hreplace : ∀ before s n, find before s = some (n + 1) →
      ∃ x t, replace (s.take (n + 1)) = x :: t ∧ Stops ps x) :
    ∀ {qs : List (α → Bool)} {before : Option α} {s : List α}, (∀ q ∈ qs, q ∈ ps) →
      heads qs (subFrom find replace 0 before s) = true → heads qs s = true
  | [], _, _, _, _ => by simp [heads]
  | _ :: _, _, [], _, h => h
  | q :: qs, before, c :: s, hqs, h => by
    rw [subFrom] at h
    split at h
    · -- The replacement would have to pass the first test.
      rename_i n hn
      obtain ⟨x, t, hx, hstops⟩ := hreplace before (c :: s) n hn
      rw [hx, List.cons_append] at h
      simp [heads, hstops q (hqs q List.mem_cons_self)] at h
    · simp only [heads, Bool.and_eq_true] at h ⊢
      exact ⟨h.1, heads_of_subFrom hreplace (fun r hr => hqs r (List.mem_cons_of_mem q hr)) h.2⟩

/-- Replacements that start with such a character and never pass the first test add no
occurrence. -/
theorem occurs_of_subFrom (hreplace : ∀ m, ∃ x t, replace m = x :: t ∧ Stops (p :: ps) x)
    (hfirst : ∀ m, ∀ x ∈ replace m, p x = false) {s : List α} :
    ∀ {skip : ℕ} {before : Option α},
      occurs (p :: ps) (subFrom find replace skip before s) = true → occurs (p :: ps) s = true := by
  induction s with
  | nil => exact fun {skip before} h => h
  | cons c s ih =>
    intro skip before h
    rw [occurs, Bool.or_eq_true]
    cases skip with
    -- Inside a match every character is passed over.
    | succ skip => exact .inr (ih h)
    | zero =>
      have hheads : heads (p :: ps) (subFrom find replace 0 before (c :: s)) = true →
          heads (p :: ps) (c :: s) = true :=
        heads_of_subFrom (fun _ s n _ => hreplace (s.take (n + 1))) fun q hq => hq
      -- No match, an empty match, or a match of some length.
      rcases hfind : find before (c :: s) with _ | _ | n <;>
        rw [subFrom, hfind] at h hheads <;> simp only at h hheads
      · rw [occurs, Bool.or_eq_true] at h
        exact h.imp hheads ih
      · rw [occurs, Bool.or_eq_true] at h
        exact h.imp hheads ih
      · rw [occurs_append_of_first (hfirst _)] at h
        exact .inr (ih h)

/-- No occurrence is left when each is replaced, and a replacement starts with a character that
fails the tests after the first, passes the first nowhere else, and fails a test further on. -/
theorem not_occurs_subFrom
    (hfind : ∀ before s, heads (p :: ps) s = true → ∃ n, find before s = some (n + 1))
    (hreplace : ∀ before s n, find before s = some (n + 1) → ∃ x t,
      replace (s.take (n + 1)) = x :: t ∧ Stops ps x ∧ (∀ y ∈ t, p y = false) ∧
        ∀ u, heads ps (t ++ u) = false) {s : List α} :
    ∀ {skip : ℕ} {before : Option α},
      occurs (p :: ps) (subFrom find replace skip before s) = false := by
  induction s with
  | nil => exact fun {skip before} => rfl
  | cons c s ih =>
    intro skip before
    cases skip with
    | succ skip => exact ih
    | zero =>
      -- Nothing is replaced at `c`: a match here was one before the pass, which `find` had found.
      have hstays : (∀ n, find before (c :: s) ≠ some (n + 1)) →
          occurs (p :: ps) (c :: subFrom find replace 0 (some c) s) = false := by
        intro hno
        rw [occurs, ih, Bool.or_false, ← Bool.not_eq_true]
        intro h
        simp only [heads, Bool.and_eq_true] at h
        have htail : heads ps s = true := by
          apply heads_of_subFrom _ (fun q hq => hq) h.2
          intro before s n hn
          obtain ⟨x, t, hx, hstops, -⟩ := hreplace before s n hn
          exact ⟨x, t, hx, hstops⟩
        obtain ⟨n, hn⟩ := hfind before (c :: s) (by simp [heads, h.1, htail])
        exact hno n hn
      rcases hn : find before (c :: s) with _ | _ | n <;> rw [subFrom, hn] <;> simp only
      · exact hstays fun n hn' => by simp [hn] at hn'
      · exact hstays fun n hn' => by simp [hn] at hn'
      · -- A replacement stands here, and no match starts in it or runs out of it.
        obtain ⟨x, t, hx, -, hfirst, hfails⟩ := hreplace before (c :: s) n hn
        have hheads : heads (p :: ps) (x :: (t ++ subFrom find replace n (some c) s)) = false := by
          simp [heads, hfails]
        rw [hx, List.cons_append, occurs, hheads, occurs_append_of_first hfirst, ih, Bool.or_false]

end SubFrom

/-! ## Runs of fixed lengths -/

/-- The pieces for so many characters of each class. -/
def fixed (runs : List (ℕ × (α → Bool))) : List (Piece α) :=
  runs.map fun r => .run r.2 r.1 (some r.1)

/-- The tests of these characters. -/
def tests (runs : List (ℕ × (α → Bool))) : List (α → Bool) :=
  runs.flatMap fun r => List.replicate r.1 r.2

/-- A text starts with so many of a class and more if its run is that long and the rest starts with
the others. -/
theorem heads_replicate_append {p : α → Bool} {ps : List (α → Bool)} : ∀ {n : ℕ} {s : List α},
    heads (List.replicate n p ++ ps) s =
      (decide (n ≤ (s.takeWhile p).length) && heads ps (s.drop n))
  | 0, _ => by simp
  | n + 1, [] => by simp [heads, List.replicate_succ]
  | n + 1, c :: s => by
    rw [List.replicate_succ, List.cons_append, heads, heads_replicate_append]
    cases hc : p c <;> simp [hc]

/-- Runs of fixed lengths match exactly where their tests hold. -/
theorem matchLength_fixed (word : α → Bool) : ∀ (runs : List (ℕ × (α → Bool)))
    (before : Option α) (s : List α), matchLength word (fixed runs) before s =
      if heads (tests runs) s = true then some (tests runs).length else none
  | [], _, _ => by simp [fixed, tests, matchLength, heads]
  | (n, p) :: runs, before, s => by
    have ih := matchLength_fixed word runs
    unfold fixed tests at ih
    simp only [fixed, tests, List.map_cons, List.flatMap_cons, matchLength, Option.elim_some,
      heads_replicate_append, ih]
    by_cases hn : n ≤ (s.takeWhile p).length
    · rw [Nat.min_eq_right hn, show n + 1 - n = 1 by omega]
      simp [hn, List.range_succ]
    · have hlt : min (s.takeWhile p).length n + 1 - n = 0 := by omega
      rw [hlt]
      simp [hn]

/-! ## A run between boundaries -/

section Delimited

variable {word p : α → Bool} {least : ℕ} {run rest : List α}

/-- The pieces of `\b`, a run, `\b`. -/
def delimited (p : α → Bool) (least : ℕ) : List (Piece α) :=
  [.boundary, .run p least none, .boundary]

/-- The run at the start of a text. -/
theorem takeWhile_run (hrun : ∀ c ∈ run, p c = true) (hrest : rest.head?.any p = false) :
    (run ++ rest).takeWhile p = run := by
  have h : rest.takeWhile p = [] := by
    cases rest with
    | nil => rfl
    | cons c rest =>
      have hc : p c = false := hrest
      rw [List.takeWhile_cons, hc]
      rfl
  rw [List.takeWhile_append_of_pos hrun, h, List.append_nil]

/-- Inside a run, and at its end, the character before is one of the run. -/
theorem any_before (hword : ∀ c, p c = true → word c = true) (hrun : ∀ c ∈ run, p c = true)
    (before : Option α) {n : ℕ} (hpos : 0 < n) (hn : n ≤ run.length) :
    (((run ++ rest).take n).getLast?.or before).any word = true := by
  rw [List.take_append_of_le_length hn]
  have hne : run.take n ≠ [] := by
    rw [← List.length_pos_iff, List.length_take]
    omega
  have hlast : (run.take n).getLast hne ∈ run :=
    List.mem_of_mem_take (List.getLast_mem hne)
  rw [List.getLast?_eq_some_getLast hne, Option.some_or]
  exact hword _ (hrun _ hlast)

/-- A word character follows within a run, as long as there is more of it. -/
theorem any_after (hword : ∀ c, p c = true → word c = true) (hrun : ∀ c ∈ run, p c = true)
    {n : ℕ} (hn : n < run.length) : ((run ++ rest).drop n).head?.any word = true := by
  have hget : ((run ++ rest).drop n).head? = some run[n] := by
    rw [List.head?_drop, List.getElem?_append_left hn, List.getElem?_eq_getElem hn]
  rw [hget]
  exact hword _ (hrun _ (List.getElem_mem hn))

/-- The whole run matches, when it is long enough and no word character touches it. -/
theorem matchLength_delimited (hword : ∀ c, p c = true → word c = true) (hleast : 0 < least)
    (hrun : ∀ c ∈ run, p c = true) (hrest : rest.head?.any p = false) (before : Option α) :
    matchLength word (delimited p least) before (run ++ rest) =
      if least ≤ run.length ∧ before.any word = false ∧ rest.head?.any word = false then
        some run.length
      else none := by
  simp only [delimited, matchLength, Option.elim_none, takeWhile_run hrun hrest]
  by_cases hlen : least ≤ run.length
  · have hhead : (run ++ rest).head?.any word = true := by
      have hzero : ((run ++ rest).drop 0).head?.any word = true :=
        any_after hword hrun (by omega)
      rwa [List.drop_zero] at hzero
    have hrange : run.length + 1 - least = (run.length - least) + 1 := by omega
    rw [hhead, hrange, List.range_succ_eq_map, List.findSome?_cons, Nat.sub_zero,
      any_before hword hrun before (by omega) (Nat.le_refl _), List.drop_left]
    cases hbefore : before.any word with
    | true => simp
    | false =>
      cases hafter : rest.head?.any word with
      | false => simp [hlen]
      | true =>
        -- A shorter run ends between two characters of the class.
        have hnone : ((List.range (run.length - least)).map Nat.succ).findSome? (fun i =>
            (if (((run ++ rest).take (run.length - i)).getLast?.or before).any word !=
                ((run ++ rest).drop (run.length - i)).head?.any word then some 0
              else none).map (run.length - i + ·)) = none := by
          rw [List.findSome?_eq_none_iff]
          intro i hi
          obtain ⟨j, hj, rfl⟩ := List.mem_map.mp hi
          rw [List.mem_range] at hj
          rw [any_before hword hrun before (by omega) (by omega),
            any_after hword hrun (by omega)]
          rfl
        simpa [hafter] using hnone
  · have hrange : run.length + 1 - least = 0 := by omega
    simp [hlen, hrange]

end Delimited

/-! ## What is left of the runs -/

section Exposed

variable {word p : α → Bool} {least : ℕ} {ps : List (α → Bool)}

/-- In the text after the given character, a run of the class starts that contains the pattern and
that a word character touches. -/
def exposed (word p : α → Bool) (ps : List (α → Bool)) : Option α → List α → Bool
  | _, [] => false
  | before, c :: s =>
    (!before.any p && occurs ps ((c :: s).takeWhile p) &&
        (before.any word || ((c :: s).dropWhile p).head?.any word)) ||
      exposed word p ps (some c) s

/-- No run starts inside a run. -/
theorem exposed_run {before : Option α} (hbefore : before.any p = true) (rest : List α) :
    ∀ {run : List α}, (∀ c ∈ run, p c = true) →
      exposed word p ps before (run ++ rest) =
        exposed word p ps (run.getLast?.or before) rest
  | [], _ => rfl
  | c :: run, hrun => by
    have hlast : (c :: run).getLast?.or before = run.getLast?.or (some c) := by
      cases run <;> simp [List.getLast?_cons]
    have hc : (some c).any p = true := hrun c List.mem_cons_self
    rw [hlast, ← exposed_run hc rest fun d hd => hrun d (List.mem_cons_of_mem c hd),
      List.cons_append, exposed, hbefore]
    rfl

/-- A run is exposed when it contains the pattern and a word character touches it, and the search
goes on behind it. -/
theorem exposed_append {before : Option α} {c : α} {run rest : List α}
    (hrun : ∀ d ∈ c :: run, p d = true) (hrest : rest.head?.any p = false)
    (hbefore : before.any p = false) :
    exposed word p ps before (c :: run ++ rest) =
      (occurs ps (c :: run) && (before.any word || rest.head?.any word) ||
        exposed word p ps ((c :: run).getLast?.or before) rest) := by
  have hlast : (c :: run).getLast?.or before = run.getLast?.or (some c) := by
    cases run <;> simp [List.getLast?_cons]
  have hc : (some c).any p = true := hrun c List.mem_cons_self
  have hdrop : (c :: run ++ rest).dropWhile p = rest := by
    have happend := List.takeWhile_append_dropWhile (p := p) (l := c :: run ++ rest)
    rw [takeWhile_run hrun hrest] at happend
    exact List.append_cancel_left happend
  rw [hlast, ← exposed_run hc rest fun d hd => hrun d (List.mem_cons_of_mem c hd)]
  rw [List.cons_append] at hdrop ⊢
  rw [exposed, hdrop, ← List.cons_append, takeWhile_run hrun hrest, hbefore, Bool.not_false,
    Bool.true_and]

/-- Every text starts with a run, perhaps an empty one. -/
theorem exists_run (s : List α) : ∃ run rest, s = run ++ rest ∧ (∀ c ∈ run, p c = true) ∧
    rest.head?.any p = false := by
  refine ⟨s.takeWhile p, s.dropWhile p, List.takeWhile_append_dropWhile.symm,
    List.all_eq_true.mp List.all_takeWhile, ?_⟩
  have h := List.head?_dropWhile_not p s
  cases hhead : (s.dropWhile p).head? with
  | none => rfl
  | some c =>
    rw [hhead] at h
    simpa using h

/-- When the runs between word boundaries are replaced by a text without the pattern, what is left of
the pattern stands in the runs that a word character touches. -/
theorem occurs_sub_delimited (hword : ∀ c, p c = true → word c = true) (hleast : 0 < least)
    (hlen : least ≤ ps.length) (hp : ∀ c, p c = false → Stops ps c) {text : List α}
    (htext : ∀ c ∈ text, Stops ps c) (s : List α) :
    ∀ {before : Option α}, (s.head?.any p = true → before.any p = false) →
      occurs ps (subFrom (matchLength word (delimited p least)) (fun _ => text) 0 before s) =
        exposed word p ps before s := by
  have hps : ps ≠ [] := by
    rintro rfl
    rw [List.length_nil] at hlen
    omega
  -- The induction takes a whole run at a time, and the character after it.
  induction hn : s.length using Nat.strongRecOn generalizing s with
  | ind n ih =>
    intro before hbefore
    obtain ⟨run, rest, rfl, hrun, hrest⟩ := exists_run (p := p) s
    have hfind := matchLength_delimited hword hleast hrun hrest
    cases run with
    | nil =>
      cases rest with
      | nil => exact occurs_nil hps
      | cons c rest =>
        have hc : p c = false := hrest
        have hnone : matchLength word (delimited p least) before (c :: rest) = none := by
          rw [← List.nil_append (c :: rest), hfind before, if_neg]
          simp
          omega
        have hstays : exposed word p ps before (c :: rest) = exposed word p ps (some c) rest := by
          rw [exposed, List.takeWhile_cons, hc]
          simp [occurs_nil hps]
        rw [List.nil_append, subFrom_cons hnone, occurs_cons hps (hp c hc), hstays]
        exact ih rest.length (by simp [← hn]) rest rfl fun _ => hc
    | cons c run =>
      have hb : before.any p = false := hbefore (hrun c List.mem_cons_self)
      have hih : occurs ps (subFrom (matchLength word (delimited p least)) (fun _ => text) 0
          ((c :: run).getLast?.or before) rest) =
            exposed word p ps ((c :: run).getLast?.or before) rest := by
        have hlt : rest.length < n := by
          rw [← hn, List.length_append, List.length_cons]
          omega
        apply ih rest.length hlt rest rfl
        intro h
        rw [hrest] at h
        cases h
      rw [exposed_append hrun hrest hb, ← hih]
      by_cases hmatch : least ≤ (c :: run).length ∧ before.any word = false ∧
          rest.head?.any word = false
      · -- The run is replaced.
        have hfound := hfind before
        rw [if_pos hmatch, List.length_cons] at hfound
        rw [subFrom_match hfound, occurs_append hps htext, hmatch.2.1, hmatch.2.2]
        simp
      · have hnone : ∀ x d y, c :: run = x ++ d :: y →
            matchLength word (delimited p least) (x.getLast?.or before) (d :: y ++ rest) = none := by
          intro x d y hxy
          have hmem : ∀ e ∈ d :: y, p e = true := fun e he =>
            hrun e (by rw [hxy]; exact List.mem_append_right x he)
          rw [matchLength_delimited hword hleast hmem hrest, if_neg]
          rintro ⟨hlong, hfree, hafter⟩
          cases x with
          | nil =>
            rw [List.nil_append] at hxy
            exact hmatch ⟨hxy ▸ hlong, hfree, hafter⟩
          | cons e x =>
            -- Further inside, the character before is one of the run.
            have htake : (c :: run ++ rest).take (e :: x).length = e :: x := by
              rw [hxy, List.append_assoc, List.take_left]
            have hinside : (((c :: run ++ rest).take (e :: x).length).getLast?.or before).any
                word = true := by
              apply any_before hword hrun before (by simp)
              rw [hxy, List.length_append]
              omega
            rw [htake, hfree] at hinside
            cases hinside
        have htouched : occurs ps (c :: run) =
            (occurs ps (c :: run) && (before.any word || rest.head?.any word)) := by
          cases ho : occurs ps (c :: run) with
          | false => rfl
          | true =>
            have hlong := length_le_of_occurs ho
            by_contra htouch
            rw [Bool.true_and, eq_comm, Bool.not_eq_true, Bool.or_eq_false_iff] at htouch
            exact hmatch ⟨by omega, htouch⟩
        rw [subFrom_append rest (c :: run) before hnone, ← htouched]
        cases rest with
        | nil => simp [subFrom, occurs_nil hps]
        | cons d rest =>
          have hd : Stops ps d := hp d hrest
          have hstop : matchLength word (delimited p least) ((c :: run).getLast?.or before)
              (d :: rest) = none := by
            rw [← List.nil_append (d :: rest),
              matchLength_delimited hword hleast (by simp) hrest, if_neg]
            simp
            omega
          rw [subFrom_cons hstop, occurs_sep hd, occurs_cons hps hd]

end Exposed

end Regex
