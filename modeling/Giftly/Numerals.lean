import Giftly.Rounding

/-!
# Numerals in strings

How `Decimal(s)` reads a string. White space around it is removed, underscores are dropped, and decimal
digits of any script stand for the ASCII ones (`numericAsAscii`); what is left is a numeral of
the documented grammar (`Spells`), an infinity, a NaN, or no number at all. `readNumeral` reads exactly
the numerals of the grammar (`readNumeral_iff`).

A string is a list of code points, surrogates included, and the tables are those of Unicode 15.
-/

namespace Giftly

/-- A code point of a Python string. -/
abbrev CodePoint := Fin 0x110000

instance neZero_codePoints : NeZero 0x110000 := ⟨Nat.succ_ne_zero _⟩

/-- A Python string. -/
abbrev PyStr := List CodePoint

/-- A character is a code point. -/
theorem toNat_lt (c : Char) : c.toNat < 0x110000 := by
  rcases c.valid with h | ⟨-, h⟩
  · exact h.trans (by decide)
  · exact h

/-- The code point of a character. -/
def codePoint (c : Char) : CodePoint := ⟨c.toNat, toNat_lt c⟩

namespace Numerals

/-! ## The characters of a numeral -/

/-- `str.isspace` of one character. -/
def isSpace (c : CodePoint) : Bool :=
  (9 ≤ c.val && c.val ≤ 13) || (28 ≤ c.val && c.val ≤ 32) || (0x2000 ≤ c.val && c.val ≤ 0x200a) ||
    [0x85, 0xa0, 0x1680, 0x2028, 0x2029, 0x202f, 0x205f, 0x3000].contains c.val

/-- The zeros of the scripts that have decimal digits; the other digits follow them. -/
def decimalZeros : List ℕ :=
  [0x30, 0x660, 0x6f0, 0x7c0, 0x966, 0x9e6, 0xa66, 0xae6, 0xb66, 0xbe6, 0xc66, 0xce6, 0xd66, 0xde6,
    0xe50, 0xed0, 0xf20, 0x1040, 0x1090, 0x17e0, 0x1810, 0x1946, 0x19d0, 0x1a80, 0x1a90, 0x1b50,
    0x1bb0, 0x1c40, 0x1c50, 0xa620, 0xa8d0, 0xa900, 0xa9d0, 0xa9f0, 0xaa50, 0xabf0, 0xff10, 0x104a0,
    0x10d30, 0x11066, 0x110f0, 0x11136, 0x111d0, 0x112f0, 0x11450, 0x114d0, 0x11650, 0x116c0,
    0x11730, 0x118e0, 0x11950, 0x11c50, 0x11d50, 0x11da0, 0x11f50, 0x16a60, 0x16ac0, 0x16b50,
    0x1d7ce, 0x1d7d8, 0x1d7e2, 0x1d7ec, 0x1d7f6, 0x1e140, 0x1e2f0, 0x1e4f0, 0x1e950, 0x1fbf0]

/-- The value of a decimal digit. -/
def toDecimal (c : CodePoint) : Option ℕ :=
  (decimalZeros.find? fun z => z ≤ c.val && c.val < z + 10).map fun z => c.val - z

/-- The ASCII character that a character stands for. -/
def asciiOf (c : CodePoint) : Option Char :=
  if 0 < c.val ∧ c.val ≤ 127 then some (Char.ofNat c.val)
  else if isSpace c then some ' '
  else (toDecimal c).map Nat.digitChar

/-- `str.strip()`. -/
def strip (s : PyStr) : PyStr := ((s.dropWhile isSpace).reverse.dropWhile isSpace).reverse

/-- The text of a number in ASCII; `none` when there is a character that no number has. -/
def numericAsAscii (s : PyStr) : Option (List Char) :=
  ((strip s).filter fun c => c ≠ codePoint '_').mapM asciiOf

/-! ## The grammar -/

/-- A numeral: a sign, the digits before and after the point, and an exponent. -/
structure Numeral where
  negative : Bool
  int : List Char
  frac : List Char
  exponent : ℤ

namespace Numeral

/-- The coefficient, without a sign. -/
def coeff (n : Numeral) : ℕ := Nat.ofDigitChars 10 (n.int ++ n.frac) 0

/-- The power of ten that the coefficient is multiplied by. -/
def exp (n : Numeral) : ℤ := n.exponent - n.frac.length

/-- The number that is written. -/
def toDec (n : Numeral) : Dec := ⟨if n.negative then -n.coeff else n.coeff, n.exp⟩

/-- The number of digits of the coefficient, without leading zeros. -/
def digits (n : Numeral) : ℕ := (Nat.toDigits 10 n.coeff).length

/-- The exponent of the first digit. -/
def adjusted (n : Numeral) : ℤ := n.exp + n.digits - 1

end Numeral

/-- `[sign]`. -/
inductive Sign : List Char → Bool → Prop
  | none : Sign [] false
  | plus : Sign ['+'] false
  | minus : Sign ['-'] true

/-- A list of digits. -/
def Digits (ds : List Char) : Prop := ∀ c ∈ ds, c.isDigit = true

/-- `[indicator [sign] digits]`. -/
inductive ExponentPart : List Char → ℤ → Prop
  | absent : ExponentPart [] 0
  | given {indicator : Char} {sign ds : List Char} {negative : Bool}
      (hindicator : indicator = 'e' ∨ indicator = 'E') (hsign : Sign sign negative)
      (hne : ds ≠ []) (hds : Digits ds) :
      ExponentPart (indicator :: (sign ++ ds))
        (if negative then -(Nat.ofDigitChars 10 ds 0 : ℤ) else Nat.ofDigitChars 10 ds 0)

/-- A text is written as the grammar says: a sign, digits with a point among them, an exponent. -/
structure Spells (t : List Char) (n : Numeral) : Prop where
  int : Digits n.int
  frac : Digits n.frac
  nonempty : n.int ≠ [] ∨ n.frac ≠ []
  parts : ∃ sign point exponent, t = sign ++ (n.int ++ (point ++ (n.frac ++ exponent))) ∧
    Sign sign n.negative ∧ (point = ['.'] ∨ point = [] ∧ n.frac = []) ∧
    ExponentPart exponent n.exponent

/-! ## The reader -/

/-- Read a sign. -/
def readSign : List Char → Bool × List Char
  | '+' :: t => (false, t)
  | '-' :: t => (true, t)
  | t => (false, t)

/-- Read what follows the digits. -/
def readExponent : List Char → Option ℤ
  | [] => some 0
  | indicator :: t =>
    if indicator = 'e' ∨ indicator = 'E' then
      let (negative, ds) := readSign t
      if ds ≠ [] ∧ ds.all Char.isDigit then
        some (if negative then -(Nat.ofDigitChars 10 ds 0 : ℤ) else Nat.ofDigitChars 10 ds 0)
      else none
    else none

/-- Read the digits after a point, if there is one. -/
def readFraction : List Char → List Char × List Char
  | '.' :: t => (t.takeWhile Char.isDigit, t.dropWhile Char.isDigit)
  | t => ([], t)

/-- Read a numeral after its sign. -/
def readUnsigned (negative : Bool) (t : List Char) : Option Numeral :=
  let int := t.takeWhile Char.isDigit
  let (frac, rest) := readFraction (t.dropWhile Char.isDigit)
  if int = [] ∧ frac = [] then none
  else (readExponent rest).map fun exponent => ⟨negative, int, frac, exponent⟩

/-- Read a numeral. -/
def readNumeral (t : List Char) : Option Numeral := readUnsigned (readSign t).1 (readSign t).2

/-! ## The reader reads the grammar -/

variable {t : List Char} {n : Numeral} {ds rest : List Char} {e : ℤ} {negative : Bool}

/-- A text does not begin with a digit. -/
def NoDigit (t : List Char) : Prop := ∀ c ∈ t.head?, c.isDigit = false

/-- The digits at the start of a text. -/
theorem takeWhile_digits (hds : Digits ds) (hrest : NoDigit rest) :
    (ds ++ rest).takeWhile Char.isDigit = ds ∧ (ds ++ rest).dropWhile Char.isDigit = rest := by
  rw [List.takeWhile_append_of_pos hds, List.dropWhile_append_of_pos hds]
  cases rest with
  | nil => simp
  | cons c rest =>
    have hc := hrest c rfl
    rw [List.takeWhile_cons_of_neg (by simp [hc]), List.dropWhile_cons_of_neg (by simp [hc]),
      List.append_nil]
    exact ⟨rfl, rfl⟩

/-- What is taken while there are digits is digits. -/
theorem digits_takeWhile (t : List Char) : Digits (t.takeWhile Char.isDigit) :=
  List.all_eq_true.mp List.all_takeWhile

/-- A sign is read from the start of a text. -/
theorem readSign_spec (t : List Char) : ∃ sign, t = sign ++ (readSign t).2 ∧
    Sign sign (readSign t).1 := by
  unfold readSign
  split
  · exact ⟨['+'], rfl, .plus⟩
  · exact ⟨['-'], rfl, .minus⟩
  · exact ⟨[], rfl, .none⟩

/-- A text that does not begin with a sign is read after any sign. -/
theorem readSign_append {sign : List Char} (h : Sign sign negative)
    (ht : ∀ c ∈ t.head?, c ≠ '+' ∧ c ≠ '-') : readSign (sign ++ t) = (negative, t) := by
  cases h with
  | plus => rfl
  | minus => rfl
  | none =>
    rw [List.nil_append]
    unfold readSign
    split
    · exact absurd rfl (ht '+' rfl).1
    · exact absurd rfl (ht '-' rfl).2
    · rfl

/-- A digit is no sign. -/
theorem digit_ne_sign {c : Char} (h : c.isDigit = true) : c ≠ '+' ∧ c ≠ '-' := by
  constructor
  · rintro rfl
    exact absurd h (by decide)
  · rintro rfl
    exact absurd h (by decide)

/-- A text that starts with digits starts with a digit. -/
theorem head_digit (hne : ds ≠ []) (hds : Digits ds) (rest : List Char) :
    ∀ c ∈ (ds ++ rest).head?, c.isDigit = true := by
  cases ds with
  | nil => exact absurd rfl hne
  | cons d ds =>
    intro c hc
    obtain rfl := Option.some.inj hc
    exact hds d List.mem_cons_self

/-- An exponent is read exactly from what the grammar calls one. -/
theorem readExponent_iff : readExponent t = some e ↔ ExponentPart t e := by
  constructor
  · intro h
    cases t with
    | nil =>
      obtain rfl := Option.some.inj h
      exact .absent
    | cons indicator t =>
      rw [readExponent] at h
      -- After the indicator come a sign, if any, and digits.
      obtain ⟨sign, ht, hsign⟩ := readSign_spec t
      split_ifs at h with hindicator
      dsimp only at h
      split_ifs at h with hds hnegative
      all_goals
        obtain rfl := Option.some.inj h
        have hpart := ExponentPart.given hindicator hsign hds.1 (List.all_eq_true.mp hds.2)
        rw [← ht] at hpart
        simpa only [hnegative, if_true, Bool.false_eq_true, if_false] using hpart
  · intro h
    cases h with
    | absent => rfl
    | given hindicator hsign hne hds =>
      rw [readExponent, if_pos hindicator]
      -- Digits do not start with a sign, so the sign is read alone.
      have hread := readSign_append hsign fun c hc =>
        digit_ne_sign (head_digit hne hds [] c (by rwa [List.append_nil]))
      rw [hread]
      exact if_pos ⟨hne, List.all_eq_true.mpr hds⟩

/-- An exponent part does not begin with a digit or with a point. -/
theorem ExponentPart.head (h : ExponentPart t e) :
    ∀ c ∈ t.head?, c.isDigit = false ∧ c ≠ '.' := by
  cases h with
  | absent => nofun
  | given hindicator =>
    intro c hc
    obtain rfl := Option.some.inj hc
    rcases hindicator with rfl | rfl <;> decide

/-- The digits after a point are read, if there is one. -/
theorem readFraction_spec (t : List Char) : ∃ point, t = point ++ ((readFraction t).1 ++
      (readFraction t).2) ∧ (point = ['.'] ∨ point = [] ∧ (readFraction t).1 = []) ∧
    Digits (readFraction t).1 := by
  unfold readFraction
  split
  · rename_i t
    exact ⟨['.'], by simp, .inl rfl, digits_takeWhile t⟩
  · exact ⟨[], rfl, .inr ⟨rfl, rfl⟩, fun _ hc => absurd hc List.not_mem_nil⟩

/-- The digits after a point, and what follows them. -/
theorem readFraction_append {point : List Char} (hpoint : point = ['.'] ∨ point = [] ∧ ds = [])
    (hds : Digits ds) (hrest : ∀ c ∈ rest.head?, c.isDigit = false ∧ c ≠ '.') :
    readFraction (point ++ (ds ++ rest)) = (ds, rest) := by
  rcases hpoint with rfl | ⟨rfl, rfl⟩
  · obtain ⟨htake, hdrop⟩ := takeWhile_digits hds fun c hc => (hrest c hc).1
    show ((ds ++ rest).takeWhile _, (ds ++ rest).dropWhile _) = (ds, rest)
    rw [htake, hdrop]
  · rw [List.nil_append, List.nil_append]
    unfold readFraction
    split
    · exact absurd rfl (hrest '.' rfl).2
    · rfl

/-- The reader accepts exactly the numerals of the grammar. -/
theorem readNumeral_iff : readNumeral t = some n ↔ Spells t n := by
  constructor
  · intro h
    unfold readNumeral readUnsigned at h
    dsimp only at h
    split_ifs at h with hempty
    obtain ⟨exponent, hexponent, rfl⟩ := Option.map_eq_some_iff.mp h
    obtain ⟨sign, ht, hsign⟩ := readSign_spec t
    obtain ⟨point, hrest, hpoint, hfrac⟩ :=
      readFraction_spec ((readSign t).2.dropWhile Char.isDigit)
    refine ⟨digits_takeWhile _, hfrac, ?_, sign, point, _, ?_, hsign, hpoint,
      readExponent_iff.mp hexponent⟩
    · by_contra hnone
      exact hempty ⟨by_contra fun hi => hnone (.inl hi), by_contra fun hf => hnone (.inr hf)⟩
    · dsimp only
      rw [← hrest, List.takeWhile_append_dropWhile]
      exact ht
  · rintro ⟨hint, hfrac, hne, sign, point, exponent, rfl, hsign, hpoint, hexponent⟩
    obtain ⟨negative, int, frac, e⟩ := n
    dsimp only at *
    have hrest := hexponent.head
    -- What follows the sign begins with a digit or with a point.
    have hbody : ∀ c ∈ (int ++ (point ++ (frac ++ exponent))).head?, c ≠ '+' ∧ c ≠ '-' := by
      intro c hc
      cases int with
      | cons d int =>
        obtain rfl := Option.some.inj hc
        exact digit_ne_sign (hint _ List.mem_cons_self)
      | nil =>
        rcases hpoint with rfl | ⟨-, rfl⟩
        · obtain rfl := Option.some.inj hc
          decide
        · exact absurd rfl (hne.resolve_left fun h => h rfl)
    have hafter : NoDigit (point ++ (frac ++ exponent)) := by
      intro c hc
      rcases hpoint with rfl | ⟨rfl, rfl⟩
      · obtain rfl := Option.some.inj hc
        decide
      · exact (hrest c hc).1
    obtain ⟨htake, hdrop⟩ := takeWhile_digits hint hafter
    unfold readNumeral
    rw [readSign_append hsign hbody]
    unfold readUnsigned
    dsimp only
    rw [htake, hdrop, readFraction_append hpoint hfrac hrest]
    dsimp only
    rw [if_neg fun h => hne.elim (fun hi => hi h.1) (fun hf => hf h.2), readExponent_iff.mpr hexponent]
    rfl

end Numerals

end Giftly
