import Mathlib.Data.List.Basic

/-!
# Patterns of fixed length

A pattern is a list of tests, one for each character. `occurs` says that a text contains characters
in a row that pass them. A character that fails every test separates what stands before it from
what comes after it (`occurs_sep`), so that a text of separated parts contains a pattern only inside
one of them, and an encoding that writes such characters for some others changes nothing
(`occurs_flatMap`).
-/

namespace Regex

variable {α β : Type}

/-- A text starts with characters that pass the tests. -/
def heads : List (α → Bool) → List α → Bool
  | [], _ => true
  | _ :: _, [] => false
  | p :: ps, c :: s => p c && heads ps s

/-- Somewhere in a text there are characters in a row that pass the tests. -/
def occurs (ps : List (α → Bool)) : List α → Bool
  | [] => heads ps []
  | c :: s => heads ps (c :: s) || occurs ps s

/-- A character fails every test. -/
def Stops (ps : List (α → Bool)) (x : α) : Prop := ∀ p ∈ ps, p x = false

instance (ps : List (α → Bool)) (x : α) : Decidable (Stops ps x) :=
  inferInstanceAs (Decidable (∀ p ∈ ps, p x = false))

variable {ps : List (α → Bool)}

/-- An empty text contains no pattern but the empty one. -/
theorem occurs_nil (hps : ps ≠ []) : occurs ps [] = false := by
  cases ps with
  | nil => exact absurd rfl hps
  | cons p ps => rfl

/-- A text contains a pattern exactly when a rest of it starts with one. -/
theorem occurs_iff {s : List α} :
    occurs ps s = true ↔ ∃ a b, s = a ++ b ∧ heads ps b = true := by
  induction s with
  | nil =>
    constructor
    · exact fun h => ⟨[], [], rfl, h⟩
    · rintro ⟨a, b, hs, h⟩
      obtain ⟨-, rfl⟩ := List.append_eq_nil_iff.mp hs.symm
      exact h
  | cons c s ih =>
    rw [occurs, Bool.or_eq_true, ih]
    constructor
    · rintro (h | ⟨a, b, rfl, h⟩)
      · exact ⟨[], c :: s, rfl, h⟩
      · exact ⟨c :: a, b, rfl, h⟩
    · rintro ⟨a, b, hs, h⟩
      -- The occurrence starts here, or in the rest.
      cases a with
      | nil => exact .inl (by rwa [hs])
      | cons x a =>
        obtain ⟨-, rfl⟩ := List.cons.inj hs
        exact .inr ⟨a, b, rfl, h⟩

/-- A text starts with a pattern if its first character passes the first test and the rest starts
with the others. -/
theorem heads_cons_iff {p : α → Bool} {s : List α} : heads (p :: ps) s = true ↔
    ∃ c t, s = c :: t ∧ p c = true ∧ heads ps t = true := by
  cases s with
  | nil => simp [heads]
  | cons c s => simp [heads]

/-! ## Separators -/

/-- What stands after a separator does not matter to the start. -/
theorem heads_sep {x : α} {b : List α} : ∀ {ps : List (α → Bool)} {a : List α}, Stops ps x →
    heads ps (a ++ x :: b) = heads ps a
  | [], _, _ => by simp [heads]
  | p :: ps, [], hx => by simp [heads, hx p List.mem_cons_self]
  | p :: ps, c :: a, hx => by
    have hrest : Stops ps x := fun q hq => hx q (List.mem_cons_of_mem p hq)
    simp [heads, heads_sep hrest]

/-- No occurrence goes across a character that fails every test. -/
theorem occurs_sep {x : α} {a b : List α} (hx : Stops ps x) :
    occurs ps (a ++ x :: b) = (occurs ps a || occurs ps b) := by
  induction a with
  | nil =>
    have hhead : heads ps (x :: b) = heads ps [] := heads_sep (a := []) hx
    simp [occurs, hhead]
  | cons c a ih =>
    have hhead : heads ps (c :: a ++ x :: b) = heads ps (c :: a) := heads_sep hx
    simp only [List.cons_append, occurs] at hhead ⊢
    rw [hhead, ih, Bool.or_assoc]

/-- A separator at the start of a text does not matter. -/
theorem occurs_cons {x : α} {b : List α} (hps : ps ≠ []) (hx : Stops ps x) :
    occurs ps (x :: b) = occurs ps b := by
  have h := occurs_sep (a := []) (b := b) hx
  rwa [occurs_nil hps, Bool.false_or] at h

/-- Nothing occurs among such characters. -/
theorem occurs_append {a b : List α} (hps : ps ≠ []) (ha : ∀ x ∈ a, Stops ps x) :
    occurs ps (a ++ b) = occurs ps b := by
  induction a with
  | nil => rfl
  | cons x a ih =>
    rw [List.cons_append, occurs_cons hps (ha x List.mem_cons_self)]
    exact ih fun y hy => ha y (List.mem_cons_of_mem x hy)

/-- A text of separators contains no pattern. -/
theorem occurs_stops {a : List α} (hps : ps ≠ []) (ha : ∀ x ∈ a, Stops ps x) :
    occurs ps a = false := by
  rw [← List.append_nil a, occurs_append hps ha, occurs_nil hps]

/-- A text after which a separator comes. -/
theorem occurs_end {x : α} {a : List α} (hps : ps ≠ []) (hx : Stops ps x) :
    occurs ps (a ++ [x]) = occurs ps a := by
  rw [occurs_sep hx, occurs_nil hps, Bool.or_false]

/-- Texts with separators between them. -/
theorem occurs_intercalate {x : α} {sep : List α} (hps : ps ≠ []) (hx : Stops ps x)
    (hsep : ∀ y ∈ sep, Stops ps y) :
    ∀ texts : List (List α), occurs ps ((x :: sep).intercalate texts) = texts.any (occurs ps)
  | [] => by simp [occurs_nil hps]
  | [text] => by simp
  | text :: next :: texts => by
    rw [List.intercalate_cons_cons, List.append_assoc, List.cons_append, occurs_sep hx,
      occurs_append hps hsep, occurs_intercalate hps hx hsep (next :: texts)]
    rfl

/-- An occurrence starts at a character that passes the first test. -/
theorem occurs_append_of_first {p : α → Bool} {a b : List α} (ha : ∀ x ∈ a, p x = false) :
    occurs (p :: ps) (a ++ b) = occurs (p :: ps) b := by
  induction a with
  | nil => rfl
  | cons x a ih =>
    have hx : p x = false := ha x List.mem_cons_self
    simp only [List.cons_append, occurs, heads, hx, Bool.false_and, Bool.false_or]
    exact ih fun y hy => ha y (List.mem_cons_of_mem x hy)

/-! ## Encodings -/

/-- The start of a text whose characters are mapped, by induction on the tests. -/
theorem heads_map (f : β → α) : ∀ (ps : List (α → Bool)) (s : List β),
    heads ps (s.map f) = heads (ps.map (· ∘ f)) s
  | [], _ => by simp [heads]
  | _ :: _, [] => by simp [heads]
  | p :: ps, c :: s => by simp [heads, heads_map f ps s]

/-- A pattern in a text whose characters are mapped. -/
theorem occurs_map (f : β → α) (s : List β) :
    occurs ps (s.map f) = occurs (ps.map (· ∘ f)) s := by
  induction s with
  | nil => exact heads_map f ps []
  | cons c s ih => simp only [List.map_cons, occurs, ih, ← heads_map f ps (c :: s)]

/-- A character is written as it is, or as characters of which the first fails every test and the
others fail the first; it fails every test itself then. -/
def Encodes (p : β → Bool) (ps : List (β → Bool)) (f : α → β) (enc : α → List β) (c : α) : Prop :=
  enc c = [f c] ∨ Stops (p :: ps) (f c) ∧
    ∃ y ys, enc c = y :: ys ∧ Stops (p :: ps) y ∧ ∀ z ∈ ys, p z = false

section Encoding

variable {p : β → Bool} {ps qs : List (β → Bool)} {f : α → β} {enc : α → List β}

/-- The start of an encoded text is that of the text itself, by induction on the tests. -/
theorem heads_flatMap (henc : ∀ c, Encodes p ps f enc c) :
    ∀ {qs : List (β → Bool)} {s : List α}, (∀ q ∈ qs, q ∈ p :: ps) →
      heads qs (s.flatMap enc) = heads qs (s.map f)
  | [], _, _ => by simp [heads]
  | _ :: _, [], _ => rfl
  | q :: qs, c :: s, hqs => by
    have hq : q ∈ p :: ps := hqs q List.mem_cons_self
    have ih : heads qs (s.flatMap enc) = heads qs (s.map f) :=
      heads_flatMap henc fun r hr => hqs r (List.mem_cons_of_mem q hr)
    rcases henc c with hplain | ⟨hstops, y, ys, hescape, hy, -⟩
    · simp [hplain, heads, ih]
    · simp [hescape, heads, hy q hq, hstops q hq]

/-- An encoding neither makes an occurrence nor hides one. -/
theorem occurs_flatMap (henc : ∀ c, Encodes p ps f enc c) (s : List α) :
    occurs (p :: ps) (s.flatMap enc) = occurs ((p :: ps).map (· ∘ f)) s := by
  rw [← occurs_map]
  induction s with
  | nil => rfl
  | cons c s ih =>
    have hheads := heads_flatMap (s := c :: s) henc fun q hq => hq
    rcases henc c with hplain | ⟨hstops, y, ys, hescape, hy, hys⟩
    · rw [List.flatMap_cons, hplain, List.singleton_append] at hheads ⊢
      rw [List.map_cons] at hheads ⊢
      rw [occurs, occurs, hheads, ih]
    · rw [List.flatMap_cons, hescape, List.cons_append, List.map_cons,
        occurs_cons (List.cons_ne_nil p ps) hy, occurs_append_of_first hys,
        occurs_cons (List.cons_ne_nil p ps) hstops, ih]

end Encoding

/-! ## Stronger tests -/

/-- Weaker tests pass where stronger ones do. -/
theorem heads_mono : ∀ {ps qs : List (α → Bool)} {s : List α},
    List.Forall₂ (fun p q => ∀ c, p c = true → q c = true) ps qs →
      heads ps s = true → heads qs s = true
  | _, _, _, .nil, _ => by simp [heads]
  | _, _, [], .cons _ _, h => by simp [heads] at h
  | _, _, c :: s, .cons hpq hrest, h => by
    simp only [heads, Bool.and_eq_true] at h ⊢
    exact ⟨hpq c h.1, heads_mono hrest h.2⟩

/-- A text that passes stronger tests passes the weaker ones. -/
theorem occurs_mono {qs : List (α → Bool)} {s : List α}
    (hpq : List.Forall₂ (fun p q => ∀ c, p c = true → q c = true) ps qs)
    (h : occurs ps s = true) : occurs qs s = true := by
  obtain ⟨a, b, rfl, hb⟩ := occurs_iff.mp h
  exact occurs_iff.mpr ⟨a, b, rfl, heads_mono hpq hb⟩

/-- A text that starts with a pattern is as long as it. -/
theorem length_le_of_heads : ∀ {ps : List (α → Bool)} {s : List α}, heads ps s = true →
    ps.length ≤ s.length
  | [], _, _ => Nat.zero_le _
  | _ :: _, [], h => by simp [heads] at h
  | _ :: ps, _ :: s, h => by
    simp only [heads, Bool.and_eq_true] at h
    exact Nat.succ_le_succ (length_le_of_heads h.2)

/-- A text that contains a pattern is as long as it. -/
theorem length_le_of_occurs {s : List α} (h : occurs ps s = true) : ps.length ≤ s.length := by
  obtain ⟨a, b, rfl, hb⟩ := occurs_iff.mp h
  have hlen := length_le_of_heads hb
  rw [List.length_append]
  omega

/-- A text of one class starts with so many of them exactly if it is that long. -/
theorem heads_replicate {p : α → Bool} : ∀ {n : ℕ} {s : List α}, (∀ c ∈ s, p c = true) →
    heads (List.replicate n p) s = decide (n ≤ s.length)
  | 0, _, _ => by simp [heads]
  | n + 1, [], _ => by simp [heads, List.replicate_succ]
  | n + 1, c :: s, h => by
    have ih := heads_replicate (n := n) fun d hd => h d (List.mem_cons_of_mem c hd)
    simp [heads, List.replicate_succ, h c List.mem_cons_self, ih]

/-- A text whose characters all pass a test has as many in a row as it is long. -/
theorem occurs_replicate {p : α → Bool} {n : ℕ} {s : List α} (h : ∀ c ∈ s, p c = true) :
    occurs (List.replicate n p) s = decide (n ≤ s.length) := by
  rw [Bool.eq_iff_iff, decide_eq_true_iff]
  constructor
  · intro ho
    simpa using length_le_of_occurs ho
  · intro hn
    exact occurs_iff.mpr ⟨[], s, rfl, by rw [heads_replicate h, decide_eq_true_iff]; exact hn⟩

end Regex
