import Giftly.Numerals

/-!
# Parsing money and rates

`parse_money`, `parse_rate` and `money_str` of `core/money.py`, for strings. `Decimal(value)` is read by
`Giftly.Numerals`, and a number that it cannot hold exactly is no number. The rounding to two or four
decimals raises when its result has more than 28 digits, and it stands outside of the `try`: this is the
one way in which a string raises anything but `MoneyError`.
-/

namespace Giftly

open Numerals

/-- A finite `Decimal`, with the sign of its zero. -/
structure SignedDec where
  negative : Bool
  coeff : ℕ
  exp : ℤ
  deriving DecidableEq, Repr

/-- What `Decimal(s)` returns. -/
inductive PyDecimal
  | finite (x : SignedDec)
  | infinite (negative : Bool)
  | nan
  deriving DecidableEq, Repr

/-- `MoneyError`. -/
inductive MoneyError
  /-- The message ends with the `repr` of the value. -/
  | invalid (message : String) (value : PyStr)
  | notFinite (message : String)
  deriving DecidableEq

/-- What a parser raises. -/
inductive ParseError
  | money (e : MoneyError)
  /-- `decimal.InvalidOperation`. -/
  | invalidOperation
  deriving DecidableEq

namespace SignedDec

/-- The number without the sign of a zero. -/
def toDec (x : SignedDec) : Dec := ⟨if x.negative then -x.coeff else x.coeff, x.exp⟩

/-- `quantize` to some decimals, `ROUND_HALF_UP`; `none` is an `InvalidOperation`. -/
def quantize (x : SignedDec) (places : ℕ) : Option SignedDec :=
  (x.toDec.quantize (-places)).map fun y => ⟨x.negative, y.coeff.natAbs, y.exp⟩

/-- `f"{x:.2f}"`, for a number with two decimals. -/
def format2 (x : SignedDec) : List Char :=
  (if x.negative then ['-'] else []) ++ Nat.toDigits 10 (x.coeff / 100) ++
    ['.', Nat.digitChar (x.coeff % 100 / 10), Nat.digitChar (x.coeff % 10)]

end SignedDec

/-! ## `Decimal(value)` -/

/-- `MAX_PREC`. -/
def maxPrec : ℤ := 999999999999999999

/-- `MAX_EMAX`. -/
def maxEmax : ℤ := 999999999999999999

/-- `MIN_EMIN`. -/
def minEmin : ℤ := -999999999999999999

/-- `MIN_ETINY`. -/
def minEtiny : ℤ := minEmin - (maxPrec - 1)

namespace Numerals

/-- The number of a numeral. -/
def Numeral.number (n : Numeral) : SignedDec := ⟨n.negative, n.coeff, n.exp⟩

/-- A numeral is held exactly by a `Decimal`. -/
def Numeral.convertible (n : Numeral) : Bool :=
  n.digits ≤ maxPrec && n.frac.length ≤ maxPrec && n.adjusted ≤ maxEmax &&
    (minEmin ≤ n.adjusted || minEtiny ≤ n.exp)

/-- The payload of a NaN. -/
def readNan (t : List Char) : Option (List Char) :=
  if (t.take 3).map Char.toLower = ['n', 'a', 'n'] then some (t.drop 3)
  else if (t.take 4).map Char.toLower = ['s', 'n', 'a', 'n'] then some (t.drop 4)
  else none

/-- Whether a text is an infinity. -/
def isInfinity (t : List Char) : Bool :=
  t.map Char.toLower = ['i', 'n', 'f'] ||
    t.map Char.toLower = ['i', 'n', 'f', 'i', 'n', 'i', 't', 'y']

end Numerals

/-- `Decimal(value)`; `none` is an `InvalidOperation`. -/
def decimal (value : PyStr) : Option PyDecimal :=
  (numericAsAscii value).bind fun t =>
    let (negative, u) := readSign t
    match readNan u with
    | some payload =>
      if payload.all Char.isDigit && (payload.dropWhile (· = '0')).length ≤ maxPrec then some .nan
      else none
    | none =>
      if isInfinity u then some (.infinite negative)
      else (readNumeral t).bind fun n => if n.convertible then some (.finite n.number) else none

/-! ## `core/money.py` -/

/-- A parser: `Decimal(value)`, a check that it is finite, and the rounding. -/
def parseDecimal (places : ℕ) (invalid notFinite : String) (value : PyStr) :
    Except ParseError SignedDec :=
  match decimal value with
  | none => .error (.money (.invalid invalid value))
  | some (.finite x) =>
    match x.quantize places with
    | some y => .ok y
    | none => .error .invalidOperation
  | some _ => .error (.money (.notFinite notFinite))

/-- `parse_money`. -/
def parseMoney : PyStr → Except ParseError SignedDec :=
  parseDecimal 2 "Not a valid money amount: " "Money amount must be finite."

/-- `parse_rate`. -/
def parseRate : PyStr → Except ParseError SignedDec :=
  parseDecimal 4 "Not a valid rate: " "Rate must be finite."

/-- `money_str`; `none` is an `InvalidOperation`. -/
def moneyStr (x : SignedDec) : Option PyStr := (x.quantize 2).map fun y => y.format2.map codePoint

/-! ## What is claimed of the parsers -/

/-- A string is written as a numeral. -/
def Reads (s : PyStr) (n : Numeral) : Prop := ∃ t, numericAsAscii s = some t ∧ Spells t n

/-- A parser is total: it returns the number that is written, rounded half up, or a `MoneyError`. -/
def Parsed (places : ℕ) (s : PyStr) (result : Except ParseError SignedDec) : Prop :=
  (∃ x n, result = .ok x ∧ Reads s n ∧ x.exp = -places ∧
    x.toDec.val = halfUp (n.toDec.val * 10 ^ places) / 10 ^ places) ∨
  ∃ e, result = .error (.money e)

/-- `parse_money` is total at a string, and gives an amount back from its text. -/
structure MoneyTotal (s : PyStr) : Prop where
  parsed : Parsed 2 s (parseMoney s)
  reparsed : ∀ x, parseMoney s = .ok x → ∃ t, moneyStr x = some t ∧ parseMoney t = .ok x

/-- A string is written as a number that `decimal` holds, and that has more than 28 digits when it is
rounded to some decimals. -/
def Overlong (places : ℕ) (s : PyStr) : Prop :=
  ∃ n, Reads s n ∧ n.convertible = true ∧ (10 : ℚ) ^ 28 - 1 / 2 ≤ |n.toDec.val| * 10 ^ places

/-! ## Rounding -/

variable {x y : SignedDec} {n : Numeral} {places : ℕ} {s : PyStr} {t : List Char} {c : Char}

/-- A rounded number is short exactly when the number is below the bound of its digits. -/
theorem natAbs_halfUp_lt_iff (q : ℚ) :
    (halfUp q).natAbs < Dec.limit ↔ ¬(10 : ℚ) ^ 28 - 1 / 2 ≤ |q| := by
  have hround : ((halfUp q).natAbs : ℤ) = ⌊|q| + 1 / 2⌋ := by
    unfold halfUp
    split_ifs with h
    · have hnonneg : 0 ≤ round q := by
        have := halfUp_nonneg h
        rwa [halfUp_of_nonneg h] at this
      rw [Int.natAbs_of_nonneg hnonneg, abs_of_nonneg h, round_eq]
    · have hneg : 0 ≤ -q := by linarith
      have hnonneg : 0 ≤ round (-q) := by
        have := halfUp_nonneg hneg
        rwa [halfUp_of_nonneg hneg] at this
      rw [Int.natAbs_neg, Int.natAbs_of_nonneg hnonneg, abs_of_nonpos (by linarith), round_eq]
  rw [not_le, ← Int.ofNat_lt, hround, Int.floor_lt]
  push_cast
  constructor <;> intro h <;> linarith

/-- `quantize` rounds half up, when 28 digits are enough. -/
theorem SignedDec.quantize_eq (x : SignedDec) (places : ℕ) :
    x.quantize places =
      if (halfUp (x.toDec.val * 10 ^ places)).natAbs < Dec.limit then
        some ⟨x.negative, (halfUp (x.toDec.val * 10 ^ places)).natAbs, -places⟩
      else none := by
  have h := rescaled_eq x.toDec places
  unfold SignedDec.quantize Dec.quantize
  dsimp only
  rw [h]
  split_ifs <;> rfl

/-- The sign of a rounded number. -/
theorem SignedDec.signed_natAbs (x : SignedDec) (places : ℕ) :
    (if x.negative then -((halfUp (x.toDec.val * 10 ^ places)).natAbs : ℤ)
      else (halfUp (x.toDec.val * 10 ^ places)).natAbs) = halfUp (x.toDec.val * 10 ^ places) := by
  obtain ⟨negative, coeff, exp⟩ := x
  have hpos : (0 : ℚ) ≤ coeff * 10 ^ exp * 10 ^ places :=
    mul_nonneg (mul_nonneg (Nat.cast_nonneg coeff) (Dec.ten_zpow_pos exp).le) (by positivity)
  have hnonneg := halfUp_nonneg hpos
  cases negative with
  | false =>
    have hval : (SignedDec.toDec ⟨false, coeff, exp⟩).val = coeff * 10 ^ exp := by
      simp [SignedDec.toDec, Dec.val]
    rw [hval]
    simp only [Bool.false_eq_true, if_false]
    omega
  | true =>
    have hval : (SignedDec.toDec ⟨true, coeff, exp⟩).val = -(coeff * 10 ^ exp) := by
      simp [SignedDec.toDec, Dec.val]
    rw [hval, neg_mul, halfUp_neg, Int.natAbs_neg]
    simp only [if_true]
    omega

/-- The value of a rounded number. -/
theorem SignedDec.val_quantize (h : x.quantize places = some y) : y.exp = -places ∧
    y.toDec.val = halfUp (x.toDec.val * 10 ^ places) / 10 ^ places := by
  rw [SignedDec.quantize_eq] at h
  split_ifs at h
  obtain rfl := Option.some.inj h
  refine ⟨rfl, ?_⟩
  have hsigned := x.signed_natAbs places
  have hdec : (SignedDec.toDec ⟨x.negative, (halfUp (x.toDec.val * 10 ^ places)).natAbs,
      -places⟩) = ⟨halfUp (x.toDec.val * 10 ^ places), -places⟩ := by
    rw [SignedDec.toDec]
    dsimp only
    rw [hsigned]
  rw [hdec, Dec.val]
  dsimp only
  rw [zpow_neg, zpow_natCast, div_eq_mul_inv]

/-! ## What a string is read as -/

/-- The code points of the digits. -/
theorem digit_range (h : c.isDigit = true) : 48 ≤ c.toNat ∧ c.toNat ≤ 57 := by
  simp only [Char.isDigit, Bool.and_eq_true, decide_eq_true_eq, ge_iff_le,
    UInt32.le_iff_toNat_le] at h
  exact h

/-- A digit is no letter. -/
theorem toLower_digit (h : c.isDigit = true) : c.toLower = c := by
  unfold Char.toLower
  rw [dif_neg]
  rintro ⟨hupper, -⟩
  have hlow : 65 ≤ c.toNat := UInt32.le_iff_toNat_le.mp hupper
  have hhigh := (digit_range h).2
  omega

/-- The first character of a numeral after its sign. -/
theorem Numerals.Spells.head (h : Spells t n) : ∃ sign u, t = sign ++ u ∧ Sign sign n.negative ∧
    readSign t = (n.negative, u) ∧ ∃ c u', u = c :: u' ∧ (c.isDigit = true ∨ c = '.') := by
  obtain ⟨hint, hfrac, hne, sign, point, exponent, rfl, hsign, hpoint, -⟩ := h
  -- A digit of the whole part, or the point if there is none.
  have hfirst : ∃ c u', n.int ++ (point ++ (n.frac ++ exponent)) = c :: u' ∧
      (c.isDigit = true ∨ c = '.') := by
    cases hi : n.int with
    | cons d ds =>
      refine ⟨d, _, rfl, .inl ?_⟩
      rw [hi] at hint
      exact hint d List.mem_cons_self
    | nil =>
      rcases hpoint with rfl | ⟨-, hf⟩
      · exact ⟨'.', _, rfl, .inr rfl⟩
      · exact absurd hf (hne.resolve_left fun h => h hi)
  refine ⟨sign, _, rfl, hsign, readSign_append hsign ?_, hfirst⟩
  obtain ⟨c, u', hu, hc⟩ := hfirst
  intro c' hc'
  rw [hu] at hc'
  obtain rfl := Option.some.inj hc'
  rcases hc with hdigit | rfl
  · exact digit_ne_sign hdigit
  · decide

/-- A numeral is neither a NaN nor an infinity. -/
theorem not_special {u u' : List Char} (hu : u = c :: u') (hc : c.isDigit = true ∨ c = '.') :
    readNan u = none ∧ isInfinity u = false := by
  have hlower : c.toLower ≠ 'n' ∧ c.toLower ≠ 's' ∧ c.toLower ≠ 'i' := by
    rcases hc with hdigit | rfl
    · rw [toLower_digit hdigit]
      refine ⟨?_, ?_, ?_⟩ <;> rintro rfl <;> exact absurd hdigit (by decide)
    · decide
  subst hu
  constructor
  · unfold readNan
    rw [if_neg, if_neg]
    · exact fun h => hlower.2.1 (List.cons.inj h).1
    · exact fun h => hlower.1 (List.cons.inj h).1
  · unfold isInfinity
    rw [Bool.or_eq_false_iff, decide_eq_false_iff_not, decide_eq_false_iff_not]
    exact ⟨fun h => hlower.2.2 (List.cons.inj h).1, fun h => hlower.2.2 (List.cons.inj h).1⟩

/-- A numeral is read as its number, when a `Decimal` holds it. -/
theorem decimal_of_reads (h : Reads s n) :
    decimal s = if n.convertible then some (.finite n.number) else none := by
  obtain ⟨t, ht, hspells⟩ := h
  obtain ⟨sign, u, -, -, hsign, c, u', hu, hc⟩ := hspells.head
  obtain ⟨hnan, hinf⟩ := not_special hu hc
  unfold decimal
  rw [ht, Option.bind_some, hsign]
  dsimp only
  rw [hnan, hinf, readNumeral_iff.mpr hspells]
  rfl

/-- A finite number was written as a numeral. -/
theorem reads_of_decimal {x : SignedDec} (h : decimal s = some (.finite x)) :
    ∃ n, Reads s n ∧ n.convertible = true ∧ x = n.number := by
  unfold decimal at h
  obtain ⟨t, ht, h⟩ := Option.bind_eq_some_iff.mp h
  dsimp only at h
  split at h
  · split_ifs at h
    nomatch Option.some.inj h
  · split_ifs at h with hinf
    · nomatch Option.some.inj h
    · obtain ⟨n, hn, h⟩ := Option.bind_eq_some_iff.mp h
      split_ifs at h with hconvertible
      refine ⟨n, ⟨t, ht, readNumeral_iff.mp hn⟩, hconvertible, ?_⟩
      exact (PyDecimal.finite.inj (Option.some.inj h)).symm

/-- A string is written as one numeral at most. -/
theorem Reads.unique {n' : Numeral} (h : Reads s n) (h' : Reads s n') : n = n' := by
  obtain ⟨t, ht, hspells⟩ := h
  obtain ⟨t', ht', hspells'⟩ := h'
  obtain rfl := Option.some.inj (ht.symm.trans ht')
  have heq := (readNumeral_iff.mpr hspells).symm.trans (readNumeral_iff.mpr hspells')
  exact Option.some.inj heq

/-! ## When a parser is total -/

variable {invalid notFinite : String}

/-- A parser raises `InvalidOperation` exactly on the numbers that are too long. -/
theorem overlong_iff : Overlong places s ↔
    parseDecimal places invalid notFinite s = .error .invalidOperation := by
  constructor
  · -- The number is read, and `quantize` refuses it.
    rintro ⟨n, hreads, hconvertible, hlong⟩
    have hnone : n.number.quantize places = none := by
      rw [SignedDec.quantize_eq, if_neg]
      rw [natAbs_halfUp_lt_iff, not_not, abs_mul, abs_of_pos (by positivity : (0 : ℚ) < 10 ^ places)]
      exact hlong
    unfold parseDecimal
    rw [decimal_of_reads hreads, if_pos hconvertible]
    dsimp only
    rw [hnone]
  · -- Conversely, the other outcomes of the parser raise `MoneyError` or return.
    intro h
    unfold parseDecimal at h
    split at h
    · nomatch Except.error.inj h
    · rename_i x hx
      obtain ⟨n, hreads, hconvertible, rfl⟩ := reads_of_decimal hx
      split at h
      · nomatch h
      · rename_i hnone
        refine ⟨n, hreads, hconvertible, ?_⟩
        rw [SignedDec.quantize_eq] at hnone
        split_ifs at hnone with hlt
        rw [natAbs_halfUp_lt_iff, not_not, abs_mul,
          abs_of_pos (by positivity : (0 : ℚ) < 10 ^ places)] at hlt
        exact hlt
    · nomatch Except.error.inj h

/-- A parser is total exactly at the strings that it does not find too long. -/
theorem parsed_iff : Parsed places s (parseDecimal places invalid notFinite s) ↔
    ¬Overlong places s := by
  rw [@overlong_iff _ _ invalid notFinite]
  constructor
  · rintro (⟨x, n, h, -⟩ | ⟨e, h⟩) hlong
    · rw [h] at hlong
      nomatch hlong
    · rw [h] at hlong
      nomatch Except.error.inj hlong
  · intro hnot
    unfold parseDecimal at hnot ⊢
    split at hnot
    · exact .inr ⟨_, rfl⟩
    · rename_i x hx
      obtain ⟨n, hreads, -, rfl⟩ := reads_of_decimal hx
      -- A number that is too long to be rounded is the excluded case.
      cases hy : n.number.quantize places with
      | none =>
        rw [hy] at hnot
        exact absurd rfl hnot
      | some y =>
        obtain ⟨hexp, hval⟩ := SignedDec.val_quantize hy
        exact .inl ⟨y, n, rfl, hreads, hexp, hval⟩
    · exact .inr ⟨_, rfl⟩

/-! ## The text of an amount -/

/-- The characters that `money_str` writes. -/
def Plain (c : Char) : Prop := c.isDigit = true ∨ c = '-' ∨ c = '.'

/-- The code points of the characters of an amount. -/
theorem Plain.range (h : Plain c) : 45 ≤ c.toNat ∧ c.toNat ≤ 57 := by
  rcases h with hdigit | rfl | rfl
  · have := digit_range hdigit
    omega
  · decide
  · decide

/-- No character of an amount is a space. -/
theorem Plain.notSpace (h : Plain c) : isSpace (codePoint c) = false := by
  obtain ⟨hlow, hhigh⟩ := h.range
  have hval : (codePoint c).val = c.toNat := rfl
  simp only [isSpace, hval, Bool.or_eq_false_iff, Bool.and_eq_false_iff, decide_eq_false_iff_not,
    List.contains_eq_mem, List.mem_cons, List.not_mem_nil, or_false]
  omega

/-- A character of an amount is read as itself. -/
theorem Plain.asciiOf (h : Plain c) : asciiOf (codePoint c) = some c := by
  obtain ⟨hlow, hhigh⟩ := h.range
  have hval : (codePoint c).val = c.toNat := rfl
  rw [Numerals.asciiOf, if_pos (by omega), hval, Char.ofNat_toNat]

/-- No character of an amount is an underscore. -/
theorem Plain.ne_underscore (h : Plain c) : codePoint c ≠ codePoint '_' := by
  intro heq
  have hval : c.toNat = 95 := congrArg Fin.val heq
  have hhigh := h.range.2
  omega

/-- Nothing is stripped from the text of an amount. -/
theorem dropWhile_plain (ht : ∀ c ∈ t, Plain c) :
    (t.map codePoint).dropWhile isSpace = t.map codePoint := by
  cases t with
  | nil => rfl
  | cons c t =>
    have hc := (ht c List.mem_cons_self).notSpace
    rw [List.map_cons, List.dropWhile_cons_of_neg (by rw [hc]; exact Bool.false_ne_true)]

/-- A text of such characters is read as it is. -/
theorem numericAsAscii_plain (ht : ∀ c ∈ t, Plain c) :
    numericAsAscii (t.map codePoint) = some t := by
  have hstrip : strip (t.map codePoint) = t.map codePoint := by
    have hreverse := dropWhile_plain fun c hc => ht c (List.mem_reverse.mp hc)
    rw [strip, dropWhile_plain ht, ← List.map_reverse, hreverse, ← List.map_reverse,
      List.reverse_reverse]
  have hfilter : (t.map codePoint).filter (fun c => c ≠ codePoint '_') = t.map codePoint := by
    rw [List.filter_eq_self]
    intro p hp
    obtain ⟨c, hc, rfl⟩ := List.mem_map.mp hp
    exact decide_eq_true (ht c hc).ne_underscore
  rw [numericAsAscii, hstrip, hfilter]
  clear hstrip hfilter
  induction t with
  | nil => rfl
  | cons c t ih =>
    rw [List.map_cons, List.mapM_cons, (ht c List.mem_cons_self).asciiOf,
      ih fun c' hc' => ht c' (List.mem_cons_of_mem c hc')]
    rfl

/-- The numeral that `money_str` writes. -/
def SignedDec.numeral (x : SignedDec) : Numeral where
  negative := x.negative
  int := Nat.toDigits 10 (x.coeff / 100)
  frac := [Nat.digitChar (x.coeff % 100 / 10), Nat.digitChar (x.coeff % 10)]
  exponent := 0

/-- The character of a decimal digit is one. -/
theorem isDigit_digitChar {d : ℕ} (h : d < 10) : d.digitChar.isDigit = true := by
  rw [Nat.isDigit_digitChar]
  exact decide_eq_true h

/-- The decimals of an amount are digits. -/
theorem SignedDec.digits_frac (x : SignedDec) : Digits x.numeral.frac := by
  intro c hc
  simp only [SignedDec.numeral, List.mem_cons, List.not_mem_nil, or_false] at hc
  rcases hc with rfl | rfl
  · exact isDigit_digitChar (by omega)
  · exact isDigit_digitChar (by omega)

/-- What stands before the point is digits. -/
theorem SignedDec.digits_int (x : SignedDec) : Digits x.numeral.int :=
  fun _ hc => Nat.isDigit_of_mem_toDigits (by omega) (by omega) hc

/-- The text of an amount spells its numeral. -/
theorem SignedDec.spells_format2 (x : SignedDec) : Spells x.format2 x.numeral where
  int := x.digits_int
  frac := x.digits_frac
  nonempty := .inl Nat.toDigits_ne_nil
  parts := by
    refine ⟨if x.negative then ['-'] else [], ['.'], [], ?_, ?_, .inl rfl, .absent⟩
    · rw [SignedDec.format2, List.append_nil, List.append_assoc]
      rfl
    · unfold SignedDec.numeral
      cases x.negative with
      | false => exact .none
      | true => exact .minus

/-- The text of an amount has only characters of an amount. -/
theorem SignedDec.plain_format2 (x : SignedDec) : ∀ c ∈ x.format2, Plain c := by
  intro c hc
  rw [SignedDec.format2, List.mem_append, List.mem_append] at hc
  rcases hc with (hsign | hint) | hfrac
  · cases hneg : x.negative with
    | false =>
      rw [hneg] at hsign
      exact absurd hsign List.not_mem_nil
    | true =>
      rw [hneg] at hsign
      exact .inr (.inl (List.mem_singleton.mp hsign))
  · exact .inl (x.digits_int c hint)
  · rcases List.mem_cons.mp hfrac with rfl | hfrac
    · exact .inr (.inr rfl)
    · exact .inl (x.digits_frac c hfrac)

/-- The coefficient is written with its last two digits after the point. -/
theorem SignedDec.coeff_numeral (x : SignedDec) : x.numeral.coeff = x.coeff := by
  have htens : x.coeff % 100 / 10 < 10 := by omega
  have hunits : x.coeff % 10 < 10 := by omega
  rw [Numeral.coeff, SignedDec.numeral]
  dsimp only
  rw [Nat.ofDigitChars_append, Nat.ofDigitChars_ten_toDigits,
    Nat.ofDigitChars_cons_digitChar_of_lt_ten htens, Nat.ofDigitChars_cons_digitChar_of_lt_ten hunits,
    Nat.ofDigitChars_nil]
  omega

/-- The numeral of an amount has two decimals. -/
theorem SignedDec.exp_numeral (x : SignedDec) : x.numeral.exp = -2 := rfl

/-- An amount of at most 28 digits is a `Decimal`. -/
theorem SignedDec.convertible_numeral (h : x.coeff < Dec.limit) : x.numeral.convertible = true := by
  have hlong : x.numeral.digits ≤ 28 := by
    rw [Numeral.digits, x.coeff_numeral]
    exact (Nat.length_toDigits_le_iff (by omega) (by omega)).mpr h
  have hshort : 0 < x.numeral.digits := Nat.length_toDigits_pos
  have hfrac : x.numeral.frac.length = 2 := rfl
  have hadjusted : x.numeral.adjusted = -2 + x.numeral.digits - 1 := by
    rw [Numeral.adjusted, x.exp_numeral]
  unfold Numeral.convertible
  rw [hadjusted, hfrac]
  simp only [Bool.and_eq_true, Bool.or_eq_true, decide_eq_true_eq]
  unfold maxPrec maxEmax minEmin
  omega

/-- A rounded amount is short. -/
theorem SignedDec.coeff_lt_of_quantize (h : x.quantize places = some y) : y.coeff < Dec.limit := by
  rw [SignedDec.quantize_eq] at h
  split_ifs at h with hlt
  obtain rfl := Option.some.inj h
  exact hlt

/-- An amount with two decimals is rounded to itself. -/
theorem SignedDec.quantize_self (hexp : x.exp = -2) (h : x.coeff < Dec.limit) :
    x.quantize 2 = some x := by
  obtain ⟨negative, coeff, exp⟩ := x
  obtain rfl : exp = -2 := hexp
  have hdec : (SignedDec.toDec ⟨negative, coeff, -2⟩) =
      .cents (if negative then -(coeff : ℤ) else coeff) := rfl
  have hcoeff : (if negative then -(coeff : ℤ) else coeff).natAbs = coeff := by
    cases negative <;> simp
  unfold SignedDec.quantize
  rw [hdec, show (-((2 : ℕ) : ℤ)) = -2 from rfl, Dec.quantize_cents, hcoeff, if_pos h, Option.map_some]
  simp only [Dec.cents, hcoeff]

/-- What a parser returns was rounded. -/
theorem quantize_of_parseDecimal (h : parseDecimal places invalid notFinite s = .ok x) :
    ∃ w : SignedDec, w.quantize places = some x := by
  unfold parseDecimal at h
  split at h
  · nomatch h
  · rename_i w _
    cases hw : w.quantize places with
    | none =>
      rw [hw] at h
      nomatch h
    | some y =>
      rw [hw] at h
      obtain rfl := Except.ok.inj h
      exact ⟨w, hw⟩
  · nomatch h

/-- A rate that was parsed has four decimals. -/
theorem toDec_of_parseRate (h : parseRate s = .ok x) : ∃ n, x.toDec = ⟨n, -4⟩ := by
  obtain ⟨w, hw⟩ := quantize_of_parseDecimal h
  exact ⟨_, congrArg (Dec.mk _) (SignedDec.val_quantize hw).1⟩

/-- An amount that was parsed is parsed from its text again. -/
theorem reparsed (h : parseMoney s = .ok x) :
    ∃ t, moneyStr x = some t ∧ parseMoney t = .ok x := by
  obtain ⟨w, hw⟩ := quantize_of_parseDecimal h
  have hexp : x.exp = -2 := (SignedDec.val_quantize hw).1
  have hshort := SignedDec.coeff_lt_of_quantize hw
  have hself := SignedDec.quantize_self hexp hshort
  refine ⟨x.format2.map codePoint, ?_, ?_⟩
  · rw [moneyStr, hself]
    rfl
  · have hreads : Reads (x.format2.map codePoint) x.numeral :=
      ⟨x.format2, numericAsAscii_plain x.plain_format2, x.spells_format2⟩
    have hnumber : x.numeral.number = x := by
      rw [Numeral.number, x.coeff_numeral, x.exp_numeral, ← hexp]
      rfl
    unfold parseMoney parseDecimal
    rw [decimal_of_reads hreads, if_pos (SignedDec.convertible_numeral hshort), hnumber]
    dsimp only
    rw [hself]

/-- `parse_money` and `parse_rate` are total exactly at the strings that are not a number of more than
28 digits, once it is rounded. -/
theorem parsing_total_iff (s : PyStr) : (MoneyTotal s ↔ ¬Overlong 2 s) ∧
    (Parsed 4 s (parseRate s) ↔ ¬Overlong 4 s) := by
  constructor
  · constructor
    · intro h
      exact parsed_iff.mp h.parsed
    · intro h
      exact ⟨parsed_iff.mpr h, fun x hx => reparsed hx⟩
  · exact parsed_iff

/-- An amount of 1e30 is no `MoneyError`. -/
theorem exponent_not_total : parseMoney ("1e30".toList.map codePoint) = .error .invalidOperation ∧
    ¬MoneyTotal ("1e30".toList.map codePoint) := by
  have hraises : parseMoney ("1e30".toList.map codePoint) = .error .invalidOperation := by
    decide +kernel
  refine ⟨hraises, ?_⟩
  intro h
  rcases h.parsed with ⟨x, n, hok, -⟩ | ⟨e, he⟩
  · rw [hraises] at hok
    nomatch hok
  · rw [hraises] at he
    nomatch Except.error.inj he

end Giftly
