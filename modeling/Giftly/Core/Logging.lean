import Giftly.Json
import Giftly.Regex.Sub

/-!
# The scrubbing formatter

`ScrubbingJsonFormatter.format` replaces tokens, phone numbers and long digit runs in the message and
in the strings of the payload, drops the values under sensitive keys, and writes a line of JSON. Four
expressions are applied one after the other, and the last asks for a word boundary on either side.

A line is a list of characters that say where they come from: a character of the message or of a value
of the payload that is written as it is, or one that `json.dumps` adds, in an escape too, and one of a
key or of another field of the record. `log_clean_iff` says when no nine digits in a row come from the
values and no phone number stands in the line: no run of digits that is left before the last expression
touches a word character and has nine ASCII digits in a row, every integer that is shown has eight
digits at most, and what is not scrubbed holds no phone number.
-/

namespace Giftly

namespace Logging

open Regex (Piece Stops fixed tests delimited matchLength subFrom sub heads occurs exposed)

/-- The tables of the interpreter: `str.isalnum` of one character, and `str.lower`. -/
structure Unicode where
  isalnum : CodePoint → Bool
  lower : PyStr → PyStr

/-! ## The expressions -/

/-- `\d`. -/
def isDecimal (c : CodePoint) : Bool := (Numerals.toDecimal c).isSome

/-- `\w`. -/
def Unicode.isWord (u : Unicode) (c : CodePoint) : Bool :=
  isDecimal c || c == codePoint '_' || u.isalnum c

/-- A class of some characters. -/
def oneOf (chars : String) (c : CodePoint) : Bool := (py chars).contains c

/-- `[0-9]`. -/
def isAsciiDigit (c : CodePoint) : Bool := 48 ≤ c.val && c.val ≤ 57

/-- `[A-Za-z0-9]`. -/
def isAsciiAlnum (c : CodePoint) : Bool :=
  (65 ≤ c.val && c.val ≤ 90) || (97 ≤ c.val && c.val ≤ 122) || isAsciiDigit c

/-- `[A-Za-z0-9_-]`. -/
def isJwtPart (c : CodePoint) : Bool := isAsciiAlnum c || oneOf "_-" c

/-- `[A-Za-z0-9._-]` without regard to case: four other characters have an ASCII letter as their
other case. -/
def isBearerPart (c : CodePoint) : Bool :=
  isAsciiAlnum c || oneOf "._-" c || [0x130, 0x131, 0x17f, 0x212a].contains c.val

/-- `_JWT_RE`. -/
def jwtRe : List (Piece CodePoint) :=
  [.boundary, .one (oneOf "e"), .one (oneOf "y"), .one (oneOf "J"), .run isJwtPart 5 none,
    .one (oneOf "."), .run isJwtPart 5 none, .one (oneOf "."), .run isJwtPart 5 none, .boundary]

/-- `_BEARER_RE`. -/
def bearerRe : List (Piece CodePoint) :=
  [.one (oneOf "bB"), .one (oneOf "eE"), .one (oneOf "aA"), .one (oneOf "rR"), .one (oneOf "eE"),
    .one (oneOf "rR"), .run Numerals.isSpace 1 none, .run isBearerPart 1 none]

/-- `+9665` and eight digits. -/
def phoneRuns (isDigit : CodePoint → Bool) : List (ℕ × (CodePoint → Bool)) :=
  [(1, oneOf "+"), (1, oneOf "9"), (2, oneOf "6"), (1, oneOf "5"), (8, isDigit)]

/-- `_PHONE_RE`. -/
def phoneRe : List (Piece CodePoint) := fixed (phoneRuns isDecimal)

/-- `_LONG_DIGITS_RE`. -/
def longDigitsRe : List (Piece CodePoint) := delimited isDecimal 9

/-- `_REDACTED`. -/
def redacted : PyStr := py "***REDACTED***"

/-- `_mask_phone`. -/
def maskPhone (phone : PyStr) : PyStr :=
  phone.take 5 ++ List.replicate 5 0x2022 ++ phone.drop (phone.length - 2)

/-- What the first three expressions make of a text. -/
def masked (u : Unicode) (text : PyStr) : PyStr :=
  let text := sub u.isWord jwtRe (fun _ => redacted) text
  let text := sub u.isWord bearerRe (fun _ => redacted) text
  sub u.isWord phoneRe maskPhone text

/-- `scrub_text`. -/
def scrubText (u : Unicode) (text : PyStr) : PyStr :=
  sub u.isWord longDigitsRe (fun _ => redacted) (masked u text)

/-! ## Payloads -/

/-- What is passed as `extra_fields`. -/
inductive Payload
  | str (s : PyStr)
  | int (n : ℤ)
  | list (items : List Payload)
  | tuple (items : List Payload)
  | dict (fields : List (PyStr × Payload))

/-- `_SENSITIVE_KEYS`. -/
def sensitiveKeys : List String :=
  ["otp", "password", "secret", "token", "authorization", "jwt", "refresh", "national_id",
    "passport", "iban", "encryption", "api_key", "webhook_secret", "content_encrypted",
    "session_token", "pepper"]

/-- `_is_sensitive_key`. -/
def isSensitiveKey (u : Unicode) (key : PyStr) : Bool :=
  let lowered := u.lower key
  sensitiveKeys.any fun token => lowered.tails.any (py token).isPrefixOf

section Scrub

variable (u : Unicode)

mutual

/-- `scrub_value`. -/
def scrubValue : Payload → Payload
  | .dict fields => .dict (scrubFields fields)
  | .list items => .list (scrubItems items)
  | .tuple items => .list (scrubItems items)
  | .str s => .str (scrubText u s)
  | .int n => .int n

/-- The items of a list or tuple. -/
def scrubItems : List Payload → List Payload
  | [] => []
  | item :: items => scrubValue item :: scrubItems items

/-- The items of a dictionary. -/
def scrubFields : List (PyStr × Payload) → List (PyStr × Payload)
  | [] => []
  | (key, value) :: fields =>
    (key, if isSensitiveKey u key then .str redacted else scrubValue value) :: scrubFields fields

end

end Scrub

/-! ## Lines -/

/-- Where a character of a line comes from. -/
inductive Origin
  /-- What stands around the values, keys and escapes among it. -/
  | frame
  /-- A character of the message or of a value, written as it is. -/
  | value
  deriving DecidableEq

/-- A character of a line. -/
structure Glyph where
  char : CodePoint
  origin : Origin

abbrev Line := List Glyph

/-- Characters around the values. -/
def framed (s : PyStr) : Line := s.map (⟨·, .frame⟩)

/-- The escape of a character that is not written as it is. -/
def escapeText (c : CodePoint) : PyStr :=
  if c = Json.quotation ∨ c = Json.backslash then [Json.backslash, c]
  else if c = 8 then py "\\b"
  else if c = 9 then py "\\t"
  else if c = 10 then py "\\n"
  else if c = 12 then py "\\f"
  else if c = 13 then py "\\r"
  else if c.val ≤ 0xffff then py "\\u" ++ Json.hex 4 c.val
  else
    let v := c.val - 0x10000
    py "\\u" ++ Json.hex 4 (0xd800 + v / 0x400) ++ (py "\\u" ++ Json.hex 4 (0xdc00 + v % 0x400))

/-- A printable ASCII character other than the quotation mark and the backslash. -/
def isPlain (c : CodePoint) : Bool :=
  32 ≤ c.val && c.val ≤ 126 && c != Json.quotation && c != Json.backslash

/-- A character of a string, with `ensure_ascii`. -/
def encodeChar (origin : Origin) (c : CodePoint) : Line :=
  if isPlain c then [⟨c, origin⟩] else framed (escapeText c)

/-- A string. -/
def quoted (origin : Origin) (s : PyStr) : Line :=
  ⟨Json.quotation, .frame⟩ :: (s.flatMap (encodeChar origin) ++ [⟨Json.quotation, .frame⟩])

/-- The characters of an integer. -/
def intLine (text : PyStr) : Line := text.map (⟨·, .value⟩)

/-- Lines in brackets, with commas between them. -/
def bracketed (left right : CodePoint) (lines : List Line) : Line :=
  ⟨left, .frame⟩ :: ((framed (py ", ")).intercalate lines ++ [⟨right, .frame⟩])

/-- An item of a dictionary. -/
def keyed (key : PyStr) (line : Line) : Line := quoted .frame key ++ (framed (py ": ") ++ line)

mutual

/-- `json.dumps`; `none` is the `ValueError` of an integer that is too long. -/
def dumps : Payload → Option Line
  | .str s => some (quoted .value s)
  | .int n => (Json.strInt n).map intLine
  | .list items => (dumpsItems items).map (bracketed 91 93)
  | .tuple items => (dumpsItems items).map (bracketed 91 93)
  | .dict fields => (dumpsFields fields).map (bracketed 123 125)

/-- The items of a list. -/
def dumpsItems : List Payload → Option (List Line)
  | [] => some []
  | item :: items => (dumps item).bind fun line => (dumpsItems items).map (line :: ·)

/-- The items of a dictionary. -/
def dumpsFields : List (PyStr × Payload) → Option (List Line)
  | [] => some []
  | (key, value) :: fields =>
    (dumps value).bind fun line => (dumpsFields fields).map (keyed key line :: ·)

end

/-- A log record; the message has its arguments in it. -/
structure LogRecord where
  levelname : PyStr
  name : PyStr
  message : PyStr
  requestId : Option PyStr
  extraFields : Option Payload

/-- The item of the payload that `extra_fields` becomes, when it is a dictionary. -/
def fieldLines (u : Unicode) : Option Payload → Option (List Line)
  | some (.dict extra) =>
    (dumps (scrubValue u (.dict extra))).map fun line => [keyed (py "fields") line]
  | _ => some []

/-- `ScrubbingJsonFormatter.format`. -/
def format (u : Unicode) (record : LogRecord) : Option Line :=
  let payload :=
    [keyed (py "level") (quoted .frame record.levelname),
      keyed (py "logger") (quoted .frame record.name),
      keyed (py "message") (quoted .value (scrubText u record.message))] ++
      (record.requestId.map fun id => keyed (py "request_id") (quoted .frame id)).toList
  (fieldLines u record.extraFields).map fun fields => bracketed 123 125 (payload ++ fields)

/-! ## What a line shows -/

mutual

/-- The payload without the values under sensitive keys. -/
def hide (u : Unicode) : Payload → Payload
  | .str s => .str s
  | .int n => .int n
  | .list items => .list (hideItems u items)
  | .tuple items => .tuple (hideItems u items)
  | .dict fields => .dict (hideFields u fields)

@[inherit_doc hide]
def hideItems (u : Unicode) : List Payload → List Payload
  | [] => []
  | item :: items => hide u item :: hideItems u items

@[inherit_doc hide]
def hideFields (u : Unicode) : List (PyStr × Payload) → List (PyStr × Payload)
  | [] => []
  | (key, value) :: fields =>
    (key, if isSensitiveKey u key then .list [] else hide u value) :: hideFields u fields

end

/-- A part of a record that its line shows. -/
inductive Shown
  /-- A key, or a field of the record that is not scrubbed. -/
  | frame (s : PyStr)
  /-- The message, or a string of the payload. -/
  | text (s : PyStr)
  /-- An integer of the payload. -/
  | int (n : ℤ)

mutual

/-- The parts of a payload that are not under a sensitive key. -/
def shown (u : Unicode) : Payload → List Shown
  | .str s => [.text s]
  | .int n => [.int n]
  | .list items => shownItems u items
  | .tuple items => shownItems u items
  | .dict fields => shownFields u fields

@[inherit_doc shown]
def shownItems (u : Unicode) : List Payload → List Shown
  | [] => []
  | item :: items => shown u item ++ shownItems u items

@[inherit_doc shown]
def shownFields (u : Unicode) : List (PyStr × Payload) → List Shown
  | [] => []
  | (key, value) :: fields =>
    .frame key :: ((if isSensitiveKey u key then [] else shown u value) ++ shownFields u fields)

end

/-- The parts of a record. -/
def LogRecord.shown (u : Unicode) (record : LogRecord) : List Shown :=
  [.frame record.levelname, .frame record.name, .text record.message] ++
    (record.requestId.map Shown.frame).toList ++
      match record.extraFields with
      | some (.dict extra) => Logging.shown u (.dict extra)
      | _ => []

/-- An ASCII digit that comes from the message or a value. -/
def isValueDigit (g : Glyph) : Bool := g.origin = .value && isAsciiDigit g.char

/-- Nine of them in a row. -/
def nineDigits : List (Glyph → Bool) := List.replicate 9 isValueDigit

/-- A phone number in ASCII. -/
def phone : List (CodePoint → Bool) := tests (phoneRuns isAsciiDigit)

@[inherit_doc phone]
def phoneGlyphs : List (Glyph → Bool) := phone.map (· ∘ Glyph.char)

/-- A line of the formatter carries no long identifier, and it is the same whatever the values under
sensitive keys are. -/
structure Clean (u : Unicode) (record : LogRecord) : Prop where
  digits : ∀ line ∈ format u record, occurs nineDigits line = false
  phones : ∀ line ∈ format u record, occurs phoneGlyphs line = false
  hidden : ∀ extra, extra.map (hide u) = record.extraFields.map (hide u) →
    format u { record with extraFields := extra } = format u record

/-- A digit run of a text is left to the line: when the last expression is applied, the run has nine
ASCII digits in a row and touches a word character. -/
def Exposed (u : Unicode) (text : PyStr) : Prop :=
  exposed u.isWord isDecimal (List.replicate 9 isAsciiDigit) none (masked u text) = true

/-- A part shows no long identifier. -/
def Shown.Harmless (u : Unicode) : Shown → Prop
  | .frame s => occurs phone s = false
  | .text s => ¬Exposed u s
  | .int n => n.natAbs < 10 ^ 8

/-- An integer that has no text. -/
def Shown.TooLong : Shown → Prop
  | .int n => 10 ^ 4300 ≤ n.natAbs
  | _ => False

/-! ## Texts -/

section Texts

variable {u : Unicode}

/-- A decimal digit is a word character. -/
theorem isWord_of_isDecimal (c : CodePoint) (h : isDecimal c = true) : u.isWord c = true := by
  simp [Unicode.isWord, h]

/-- An ASCII digit is a decimal digit. -/
theorem isDecimal_of_isAsciiDigit (c : CodePoint) (h : isAsciiDigit c = true) :
    isDecimal c = true := by
  simp only [isAsciiDigit, Bool.and_eq_true, decide_eq_true_eq] at h
  have hzero : Numerals.decimalZeros.find? (fun z => z ≤ c.val && c.val < z + 10) = some 0x30 := by
    apply List.find?_cons_of_pos
    simp only [Bool.and_eq_true, decide_eq_true_eq]
    omega
  rw [isDecimal, Numerals.toDecimal, hzero]
  rfl

/-- The code points of `_REDACTED`. -/
theorem redacted_eq :
    redacted = [42, 42, 42, 82, 69, 68, 65, 67, 84, 69, 68, 42, 42, 42] := rfl

/-- The only character of a string of one. -/
theorem eq_of_oneOf {s : String} {c d : CodePoint} (hs : py s = [d]) (h : oneOf s c = true) :
    c = d := by
  rw [oneOf, hs] at h
  simpa using h

/-- The last expression leaves nine ASCII digits in a row exactly in the runs that are exposed. -/
theorem occurs_scrubText (text : PyStr) :
    occurs (List.replicate 9 isAsciiDigit) (scrubText u text) = true ↔ Exposed u text := by
  -- No character outside the digits lies within such a run.
  have hstops : ∀ c : CodePoint, isAsciiDigit c = false →
      Stops (List.replicate 9 isAsciiDigit) c := by
    intro c hc p hp
    rw [List.eq_of_mem_replicate hp, hc]
  have hsub : occurs (List.replicate 9 isAsciiDigit) (scrubText u text) =
      exposed u.isWord isDecimal (List.replicate 9 isAsciiDigit) none (masked u text) := by
    apply Regex.occurs_sub_delimited isWord_of_isDecimal (by omega) (by simp)
    · intro c hc
      apply hstops
      cases hd : isAsciiDigit c with
      | false => rfl
      | true => rw [isDecimal_of_isAsciiDigit c hd] at hc; cases hc
    · intro c hc
      have hall : redacted.all (fun c => !isAsciiDigit c) = true := rfl
      have hdigit := List.all_eq_true.mp hall c hc
      exact hstops c (by simpa using hdigit)
    · exact fun _ => rfl
  rw [hsub, Exposed]

/-- A mask starts with a plus sign; the other characters of it are none, and after the five that are
kept a bullet comes. -/
theorem maskPhone_shape {s : PyStr} (h : heads (tests (phoneRuns isDecimal)) s = true) :
    ∃ x t, maskPhone (s.take 13) = x :: t ∧ Stops (tests (phoneRuns isDecimal)).tail x ∧
      (∀ y ∈ t, oneOf "+" y = false) ∧
        ∀ rest, heads (tests (phoneRuns isDecimal)).tail (t ++ rest) = false := by
  have htests : tests (phoneRuns isDecimal) = [oneOf "+", oneOf "9", oneOf "6", oneOf "6",
    oneOf "5", isDecimal, isDecimal, isDecimal, isDecimal, isDecimal, isDecimal, isDecimal,
    isDecimal] := rfl
  rw [htests] at h ⊢
  simp only [Regex.heads_cons_iff] at h
  obtain ⟨c₀, _, rfl, h₀, c₁, _, rfl, h₁, c₂, _, rfl, h₂, c₃, _, rfl, h₃, c₄, _, rfl, h₄,
    _, _, rfl, -, _, _, rfl, -, _, _, rfl, -, _, _, rfl, -, _, _, rfl, -, _, _, rfl, -,
    d, _, rfl, hd, e, rest, rfl, he, -⟩ := h
  obtain rfl := eq_of_oneOf (d := 43) rfl h₀
  obtain rfl := eq_of_oneOf (d := 57) rfl h₁
  obtain rfl := eq_of_oneOf (d := 54) rfl h₂
  obtain rfl := eq_of_oneOf (d := 54) rfl h₃
  obtain rfl := eq_of_oneOf (d := 53) rfl h₄
  -- A digit is not a plus sign, so no new number starts inside the mask.
  have hplus : ∀ c, isDecimal c = true → oneOf "+" c = false := by
    intro c hc
    cases ho : oneOf "+" c with
    | false => rfl
    | true =>
      rw [eq_of_oneOf (d := 43) rfl ho] at hc
      exact absurd hc (by decide)
  refine ⟨43, [57, 54, 54, 53] ++ List.replicate 5 0x2022 ++ [d, e], rfl, ?_, ?_, ?_⟩
  · decide +kernel
  · intro y hy
    simp only [List.mem_append, List.mem_cons, List.not_mem_nil, or_false, List.mem_replicate] at hy
    rcases hy with ((rfl | rfl | rfl | rfl) | ⟨-, rfl⟩) | rfl | rfl
    · decide
    · decide
    · decide
    · decide
    · decide
    · exact hplus _ hd
    · exact hplus _ he
  · intro rest
    -- After the country code comes a bullet, which is not a digit.
    have hbullet : isDecimal 0x2022 = false := by decide +kernel
    simp [heads, List.replicate, hbullet]

/-- No phone number is left after the third expression. -/
theorem masked_phone (text : PyStr) :
    occurs (tests (phoneRuns isDecimal)) (masked u text) = false := by
  have hfind : ∀ (before : Option CodePoint) (s : PyStr) (n : ℕ),
      matchLength u.isWord phoneRe before s = some (n + 1) ↔
        heads (tests (phoneRuns isDecimal)) s = true ∧ n = 12 := by
    intro before s n
    rw [phoneRe, Regex.matchLength_fixed]
    have hlen : (tests (phoneRuns isDecimal)).length = 13 := rfl
    rw [hlen]
    split_ifs with h
    · simp [h]
    · simp [h]
  change occurs (oneOf "+" :: (tests (phoneRuns isDecimal)).tail) _ = false
  apply Regex.not_occurs_subFrom
  · intro before s h
    exact ⟨12, (hfind before s 12).mpr ⟨h, rfl⟩⟩
  · intro before s n hn
    obtain ⟨h, rfl⟩ := (hfind before s n).mp hn
    exact maskPhone_shape h

/-- A scrubbed text holds no phone number. -/
theorem scrubText_phone (text : PyStr) : occurs phone (scrubText u text) = false := by
  rw [← Bool.not_eq_true]
  intro h
  have hdecimal : occurs (tests (phoneRuns isDecimal)) (scrubText u text) = true := by
    apply Regex.occurs_mono _ h
    have hdigit := isDecimal_of_isAsciiDigit
    repeat' first | exact .nil | apply List.Forall₂.cons
    all_goals first | exact fun c hc => hc | exact hdigit
  -- The replacement has no plus sign, so the number was in the text before.
  have hmasked : occurs (tests (phoneRuns isDecimal)) (masked u text) = true := by
    change occurs (oneOf "+" :: (tests (phoneRuns isDecimal)).tail) _ = true at hdecimal ⊢
    apply Regex.occurs_of_subFrom _ _ hdecimal
    · intro m
      refine ⟨42, _, redacted_eq, ?_⟩
      decide +kernel
    · intro m c hc
      have hall : redacted.all (fun c => !oneOf "+" c) = true := rfl
      have hplus := List.all_eq_true.mp hall c hc
      simpa using hplus
  rw [masked_phone] at hmasked
  cases hmasked

end Texts

/-! ## Lines of characters -/

/-- The tests tell the characters around the values apart: those fail every test, as do the characters
that are escaped, nothing in an escape passes the first test, and no key of the formatter and no
redaction contains the pattern. -/
structure Apart (p : Glyph → Bool) (ps : List (Glyph → Bool)) : Prop where
  marks : ∀ c ∈ [34, 44, 91, 92, 93, 123, 125], Stops (p :: ps) ⟨c, .frame⟩
  spaced : ∀ g ∈ framed (py ", ") ++ framed (py ": "), Stops (p :: ps) g
  escaped : ∀ origin c, isPlain c = false → Stops (p :: ps) ⟨c, origin⟩
  first : ∀ c, c ≠ codePoint '+' → p ⟨c, .frame⟩ = false
  keys : ∀ key ∈ ["level", "logger", "message", "request_id", "fields"],
    occurs (p :: ps) (quoted .frame (py key)) = false
  redaction : occurs (p :: ps) (quoted .value redacted) = false

/-- No hexadecimal digit is a plus. -/
theorem digitChar_ne_plus : ∀ d < 16, Nat.digitChar d ≠ '+' := by decide

/-- No escape contains a plus. -/
theorem hex_ne_plus {width n : ℕ} : ∀ c ∈ Json.hex width n, c ≠ codePoint '+' := by
  -- By strong induction on the number whose digits are written.
  have hdigits : ∀ n, ∀ d ∈ Nat.toDigits 16 n, d ≠ '+' := by
    intro n
    induction n using Nat.strongRecOn with
    | ind n ih =>
      rw [Nat.toDigits_eq_if (by omega)]
      split
      · intro d hd
        rw [List.mem_singleton.mp hd]
        exact digitChar_ne_plus n ‹_›
      · intro d hd
        rcases List.mem_append.mp hd with hrest | hlast
        · exact ih (n / 16) (by omega) d hrest
        · rw [List.mem_singleton.mp hlast]
          exact digitChar_ne_plus (n % 16) (by omega)
  have hinj : ∀ d : Char, d ≠ '+' → codePoint d ≠ codePoint '+' := by
    intro d hd h
    apply hd
    have hval : (codePoint d).val = (codePoint '+').val := congrArg Fin.val h
    exact Char.toNat_inj.mp hval
  intro c hc
  obtain ⟨d, hd, rfl⟩ := List.mem_map.mp hc
  apply hinj
  rcases List.mem_append.mp hd with hzero | hdigit
  · rw [List.eq_of_mem_replicate hzero]
    decide
  · exact hdigits n d hdigit

/-- An escape starts with a backslash, and has no plus sign. -/
theorem escapeText_shape (c : CodePoint) :
    ∃ t, escapeText c = Json.backslash :: t ∧ ∀ d ∈ t, d ≠ codePoint '+' := by
  have hone : ∀ d : CodePoint, d ≠ codePoint '+' → ∀ e ∈ [d], e ≠ codePoint '+' := fun d hd =>
    List.forall_mem_singleton.mpr hd
  have hu : ∀ n, ∀ d ∈ codePoint 'u' :: Json.hex 4 n, d ≠ codePoint '+' := fun n =>
    List.forall_mem_cons.mpr ⟨by decide, hex_ne_plus⟩
  unfold escapeText
  split_ifs with hquote
  · refine ⟨[c], rfl, hone c ?_⟩
    rcases hquote with rfl | rfl <;> decide
  · -- The two-character escapes.
    exact ⟨[98], rfl, hone 98 (by decide)⟩
  · exact ⟨[116], rfl, hone 116 (by decide)⟩
  · exact ⟨[110], rfl, hone 110 (by decide)⟩
  · exact ⟨[102], rfl, hone 102 (by decide)⟩
  · exact ⟨[114], rfl, hone 114 (by decide)⟩
  · -- One code unit, and below it a pair of surrogates.
    exact ⟨_, rfl, hu c.val⟩
  · refine ⟨_, rfl, ?_⟩
    intro d hd
    rcases List.mem_append.mp hd with hhigh | hlow
    · exact hu _ d hhigh
    · rcases List.mem_cons.mp hlow with rfl | hlow
      · decide
      · exact hu _ d hlow

variable {p : Glyph → Bool} {ps : List (Glyph → Bool)}

/-- A string in a line contains what its characters contain. -/
theorem Apart.occurs_quoted (h : Apart p ps) (origin : Origin) (s : PyStr) :
    occurs (p :: ps) (quoted origin s) = occurs ((p :: ps).map (· ∘ (⟨·, origin⟩))) s := by
  have hquote : Stops (p :: ps) ⟨Json.quotation, .frame⟩ := h.marks 34 (by simp)
  have henc : ∀ c, Regex.Encodes p ps (⟨·, origin⟩) (encodeChar origin) c := by
    intro c
    cases hc : isPlain c with
    | true => exact .inl (by simp [encodeChar, hc])
    | false =>
      obtain ⟨t, ht, hplus⟩ := escapeText_shape c
      refine .inr ⟨h.escaped origin c hc, ⟨Json.backslash, .frame⟩, framed t, ?_, ?_, ?_⟩
      · simp [encodeChar, hc, ht, framed]
      · exact h.marks 92 (by simp)
      · intro g hg
        obtain ⟨d, hd, rfl⟩ := List.mem_map.mp hg
        exact h.first d (hplus d hd)
  rw [quoted, Regex.occurs_cons (List.cons_ne_nil p ps) hquote,
    Regex.occurs_end (List.cons_ne_nil p ps) hquote, Regex.occurs_flatMap henc]

/-- The pattern occurs in an item of a dictionary if it does in the key or in the value, not across
the colon. -/
theorem Apart.occurs_keyed (h : Apart p ps) (key : PyStr) (line : Line) :
    occurs (p :: ps) (keyed key line) =
      (occurs (p :: ps) (quoted .frame key) || occurs (p :: ps) line) := by
  have hps := List.cons_ne_nil p ps
  have hquote : Stops (p :: ps) ⟨Json.quotation, .frame⟩ := h.marks 34 (by simp)
  have hcolon : occurs (p :: ps) (framed (py ": ") ++ line) = occurs (p :: ps) line :=
    Regex.occurs_append hps fun g hg => h.spaced g (List.mem_append_right _ hg)
  rw [keyed, quoted, List.cons_append, Regex.occurs_cons hps hquote,
    Regex.occurs_cons hps hquote, List.append_assoc, List.singleton_append,
    Regex.occurs_sep hquote, hcolon, Regex.occurs_end hps hquote]

/-- The pattern occurs in a list if it does in one of its items, not across the commas. -/
theorem Apart.occurs_bracketed (h : Apart p ps) {left right : CodePoint} {lines : List Line}
    (hleft : left ∈ [34, 44, 91, 92, 93, 123, 125])
    (hright : right ∈ [34, 44, 91, 92, 93, 123, 125]) :
    occurs (p :: ps) (bracketed left right lines) = lines.any (occurs (p :: ps)) := by
  have hps := List.cons_ne_nil p ps
  have hcomma : ∀ g ∈ framed (py ", "), Stops (p :: ps) g := fun g hg =>
    h.spaced g (List.mem_append_left _ hg)
  have hsplit : framed (py ", ") = ⟨44, .frame⟩ :: [⟨32, .frame⟩] := rfl
  rw [bracketed, Regex.occurs_cons hps (h.marks left hleft),
    Regex.occurs_end hps (h.marks right hright)]
  rw [hsplit] at hcomma ⊢
  exact Regex.occurs_intercalate hps (hcomma _ List.mem_cons_self)
    (fun g hg => hcomma g (List.mem_cons_of_mem _ hg)) lines

/-! ## What a payload shows -/

section Renders

variable {β γ : Type} (u : Unicode) (ps : List (Glyph → Bool))

/-- A part has a text. -/
def Shown.fits : Shown → Bool
  | .int n => (Json.strInt n).isSome
  | _ => true

/-- What is written for a part contains a pattern. -/
def Shown.shows : Shown → Bool
  | .frame s => occurs ps (quoted .frame s)
  | .text s => occurs ps (quoted .value (scrubText u s))
  | .int n => (Json.strInt n).any fun text => occurs ps (intLine text)

/-- Something is written when every part has a text, and it contains the pattern when a part does. -/
structure Renders (contains : β → Bool) (out : Option β) (parts : List Shown) : Prop where
  isSome : out.isSome = parts.all Shown.fits
  contains : ∀ b ∈ out, contains b = parts.any (Shown.shows u ps)

variable {u ps} {contains : β → Bool} {more : γ → Bool} {out : Option β} {parts : List Shown}

/-- What is written may be put into something that contains the pattern no more often. -/
theorem Renders.map (h : Renders u ps contains out parts) {f : β → γ}
    (hf : ∀ b, more (f b) = contains b) : Renders u ps more (out.map f) parts where
  isSome := by rw [Option.isSome_map, h.isSome]
  contains := by
    intro c hc
    obtain ⟨b, hb, rfl⟩ := Option.map_eq_some_iff.mp hc
    rw [hf, h.contains b hb]

/-- A part is written before others. -/
theorem Renders.cons {rest : Option (List β)} {others : List Shown}
    (h : Renders u ps contains out parts) (hrest : Renders u ps (List.any · contains) rest others) :
    Renders u ps (List.any · contains) (out.bind fun b => rest.map (b :: ·)) (parts ++ others) where
  isSome := by
    rw [List.all_append, ← h.isSome, ← hrest.isSome]
    cases out <;> simp
  contains := by
    intro bs hbs
    obtain ⟨b, hb, hbs⟩ := Option.bind_eq_some_iff.mp hbs
    obtain ⟨cs, hcs, rfl⟩ := Option.map_eq_some_iff.mp hbs
    rw [List.any_cons, List.any_append, h.contains b hb, hrest.contains cs hcs]

/-- Nothing is written for no part. -/
theorem renders_nil : Renders u ps (List.any · contains) (some ([] : List β)) [] where
  isSome := rfl
  contains := by simp

variable {p : Glyph → Bool} {ps : List (Glyph → Bool)}

/-- An item of a dictionary is written for its key and the parts of its value. -/
theorem Apart.keyed (h : Apart p ps) {out : Option Line} {parts : List Shown}
    (hout : Renders u (p :: ps) (occurs (p :: ps)) out parts) (key : PyStr) :
    Renders u (p :: ps) (occurs (p :: ps)) (out.map (keyed key)) (.frame key :: parts) where
  isSome := by
    rw [Option.isSome_map, hout.isSome]
    rfl
  contains := by
    intro line hline
    obtain ⟨l, hl, rfl⟩ := Option.map_eq_some_iff.mp hline
    rw [h.occurs_keyed, hout.contains l hl]
    rfl

/-- The redaction is written for no part. -/
theorem Apart.redacted (h : Apart p ps) :
    Renders u (p :: ps) (occurs (p :: ps)) (dumps (.str redacted)) [] where
  isSome := rfl
  contains := by
    intro line hline
    obtain rfl := Option.some.inj hline
    exact h.redaction

mutual

/-- A scrubbed payload is written with its parts, and nothing else that matters. -/
theorem Apart.dumps (h : Apart p ps) : ∀ v : Payload,
    Renders u (p :: ps) (occurs (p :: ps)) (dumps (scrubValue u v)) (shown u v)
  | .str s => ⟨rfl, by simp [scrubValue, Logging.dumps, shown, Shown.shows]⟩
  | .int n => by
    constructor
    · simp [scrubValue, Logging.dumps, shown, Shown.fits]
    · intro line hline
      obtain ⟨text, ht, rfl⟩ := Option.map_eq_some_iff.mp hline
      simp [shown, Shown.shows, ht]
  | .list items => (h.dumpsItems items).map fun _ => h.occurs_bracketed (by simp) (by simp)
  | .tuple items => (h.dumpsItems items).map fun _ => h.occurs_bracketed (by simp) (by simp)
  | .dict fields => (h.dumpsFields fields).map fun _ => h.occurs_bracketed (by simp) (by simp)

/-- The items of a list are written for their parts, by induction on the list. -/
theorem Apart.dumpsItems (h : Apart p ps) : ∀ items : List Payload,
    Renders u (p :: ps) (List.any · (occurs (p :: ps))) (dumpsItems (scrubItems u items))
      (shownItems u items)
  | [] => renders_nil
  | item :: items => (h.dumps item).cons (h.dumpsItems items)

/-- The items of a dictionary are written for their parts, by induction on the dictionary. -/
theorem Apart.dumpsFields (h : Apart p ps) : ∀ fields : List (PyStr × Payload),
    Renders u (p :: ps) (List.any · (occurs (p :: ps))) (dumpsFields (scrubFields u fields))
      (shownFields u fields)
  | [] => renders_nil
  | (key, value) :: fields => by
    have hvalue : Renders u (p :: ps) (occurs (p :: ps))
        (Logging.dumps (if isSensitiveKey u key then .str Logging.redacted else scrubValue u value))
        (if isSensitiveKey u key then [] else shown u value) := by
      split
      · exact h.redacted
      · exact h.dumps value
    have hcons := (h.keyed hvalue key).cons (h.dumpsFields fields)
    rw [Option.bind_map] at hcons
    exact hcons

end

end Renders

/-! ## What a record shows -/

section Records

variable {u : Unicode} {p : Glyph → Bool} {ps : List (Glyph → Bool)}

/-- The item of `extra_fields` is written for the parts of a dictionary, and for none otherwise. -/
theorem Apart.fieldLines (h : Apart p ps) (extra : Option Payload) :
    Renders u (p :: ps) (List.any · (occurs (p :: ps))) (fieldLines u extra)
      (match extra with | some (.dict fields) => shown u (.dict fields) | _ => []) := by
  have hkey : occurs (p :: ps) (quoted .frame (py "fields")) = false := h.keys "fields" (by simp)
  unfold Logging.fieldLines
  split
  · apply (h.dumps (.dict _)).map
    intro line
    simp [h.occurs_keyed, hkey]
  · exact renders_nil

/-- A line contains a pattern when a part of the record does. -/
theorem Apart.format (h : Apart p ps) (record : LogRecord) :
    Renders u (p :: ps) (occurs (p :: ps)) (format u record) (record.shown u) := by
  have hkeys := h.keys
  simp only [List.forall_mem_cons, List.not_mem_nil, false_implies, implies_true,
    and_true] at hkeys
  obtain ⟨hlevel, hlogger, hmessage, hid, -⟩ := hkeys
  have hfields := h.fieldLines (u := u) record.extraFields
  constructor
  · simp only [Logging.format, Option.isSome_map, hfields.isSome, LogRecord.shown, List.all_append]
    cases record.requestId <;> simp [Shown.fits]
  · intro line hline
    obtain ⟨fields, hf, rfl⟩ := Option.map_eq_some_iff.mp hline
    rw [h.occurs_bracketed (by simp) (by simp), List.any_append, hfields.contains fields hf]
    simp only [LogRecord.shown, List.any_append]
    cases record.requestId <;> simp [h.occurs_keyed, hlevel, hlogger, hmessage, hid, Shown.shows]

/-! ## The two patterns -/

/-- A character that is no digit of a value stands in no run of nine of them. -/
theorem stops_nineDigits {g : Glyph} (hg : isValueDigit g = false) : Stops nineDigits g := by
  intro q hq
  rw [List.eq_of_mem_replicate hq, hg]

/-- An ASCII digit is written as it is. -/
theorem isPlain_of_isAsciiDigit {c : CodePoint} (h : isAsciiDigit c = true) : isPlain c = true := by
  simp only [isAsciiDigit, Bool.and_eq_true, decide_eq_true_eq] at h
  have hquote : c ≠ Json.quotation := by
    rintro rfl
    exact absurd h.1 (by decide)
  have hslash : c ≠ Json.backslash := by
    rintro rfl
    exact absurd h.2 (by decide)
  simp only [isPlain, Bool.and_eq_true, decide_eq_true_eq, bne_iff_ne, ne_eq]
  exact ⟨⟨⟨by omega, by omega⟩, hquote⟩, hslash⟩

/-- A string of the frame is written with characters of the frame. -/
theorem origin_quoted {s : PyStr} : ∀ g ∈ quoted .frame s, g.origin = .frame := by
  intro g hg
  rcases List.mem_cons.mp hg with rfl | hg
  · rfl
  rcases List.mem_append.mp hg with hg | hg
  · obtain ⟨c, -, hc⟩ := List.mem_flatMap.mp hg
    unfold encodeChar at hc
    split at hc
    · rw [List.mem_singleton.mp hc]
    · obtain ⟨d, -, rfl⟩ := List.mem_map.mp hc
      rfl
  · rw [List.mem_singleton.mp hg]

/-- No string of the frame has nine digits of a value. -/
theorem nineDigits_frame (s : PyStr) : occurs nineDigits (quoted .frame s) = false := by
  apply Regex.occurs_stops (by simp [nineDigits])
  intro g hg
  apply stops_nineDigits
  simp [isValueDigit, origin_quoted g hg]

/-- Nine digits of a value do not stretch over the characters around the values. -/
theorem apart_nineDigits : Apart isValueDigit (List.replicate 8 isValueDigit) where
  marks c _ := stops_nineDigits rfl
  spaced := by
    intro g hg
    apply stops_nineDigits
    rcases List.mem_append.mp hg with hg | hg
    · obtain ⟨c, -, rfl⟩ := List.mem_map.mp hg
      rfl
    · obtain ⟨c, -, rfl⟩ := List.mem_map.mp hg
      rfl
  escaped := by
    intro origin c hc
    apply stops_nineDigits
    cases hd : isAsciiDigit c with
    | false => simp [isValueDigit, hd]
    | true => rw [isPlain_of_isAsciiDigit hd] at hc; cases hc
  first _ _ := rfl
  keys key _ := nineDigits_frame (py key)
  redaction := by decide +kernel

/-- Every character of a phone number is written as it is. -/
theorem isPlain_of_phone {q : CodePoint → Bool} (hq : q ∈ phone) {c : CodePoint}
    (hc : q c = true) : isPlain c = true := by
  obtain ⟨r, hr, hq⟩ := List.mem_flatMap.mp hq
  rw [List.eq_of_mem_replicate hq] at hc
  simp only [phoneRuns, List.mem_cons, List.not_mem_nil, or_false] at hr
  rcases hr with rfl | rfl | rfl | rfl | rfl
  · rw [eq_of_oneOf (d := 43) rfl hc]
    rfl
  · rw [eq_of_oneOf (d := 57) rfl hc]
    rfl
  · rw [eq_of_oneOf (d := 54) rfl hc]
    rfl
  · rw [eq_of_oneOf (d := 53) rfl hc]
    rfl
  · exact isPlain_of_isAsciiDigit hc

/-- A phone number does not stretch over the characters around the values. -/
theorem apart_phone :
    Apart (oneOf "+" ∘ Glyph.char) (phone.tail.map (· ∘ Glyph.char)) where
  marks := by
    intro c hc
    simp only [List.mem_cons, List.not_mem_nil, or_false] at hc
    rcases hc with rfl | rfl | rfl | rfl | rfl | rfl | rfl <;> decide +kernel
  spaced := by decide +kernel
  escaped := by
    intro origin c hc q hq
    obtain ⟨r, hr, rfl⟩ := List.mem_map.mp (show q ∈ phone.map (· ∘ Glyph.char) from hq)
    cases hd : r c with
    | false => exact hd
    | true => rw [isPlain_of_phone hr hd] at hc; cases hc
  first := by
    intro c hc
    cases ho : oneOf "+" c with
    | false => exact ho
    | true => exact absurd (eq_of_oneOf rfl ho) hc
  keys := by decide +kernel
  redaction := by decide +kernel

/-! ## Parts -/

/-- An integer has a text when it has at most 4300 digits. -/
theorem fits_int {n : ℤ} : Shown.fits (.int n) = true ↔ n.natAbs < 10 ^ 4300 := by
  rw [← Nat.length_toDigits_le_iff (by omega) (by omega), Shown.fits, Json.strInt]
  split_ifs with h
  · exact iff_of_true rfl h
  · exact iff_of_true rfl h
  · exact iff_of_false (by simp) h

/-- A part has a text unless it is an integer that is too long. -/
theorem fits_iff {part : Shown} : part.fits = true ↔ ¬part.TooLong := by
  cases part with
  | frame s => exact iff_of_true rfl fun h => h
  | text s => exact iff_of_true rfl fun h => h
  | int n => rw [fits_int, Shown.TooLong, Nat.not_le]

/-- The characters of an integer: a sign, which is no digit, and its digits. -/
theorem exists_intLine {n : ℤ} {text : PyStr} (h : Json.strInt n = some text) :
    ∃ sign : Line, intLine text = sign ++ (Nat.toDigits 10 n.natAbs).map
        (fun c => (⟨codePoint c, .value⟩ : Glyph)) ∧
      ∀ g ∈ sign, isValueDigit g = false ∧ oneOf "+" g.char = false := by
  rw [Json.strInt] at h
  split_ifs at h with hlen hneg
  · obtain rfl := Option.some.inj h
    refine ⟨[⟨codePoint '-', .value⟩], by simp [intLine], ?_⟩
    intro g hg
    rw [List.mem_singleton.mp hg]
    decide
  · obtain rfl := Option.some.inj h
    exact ⟨[], by simp [intLine], by simp⟩

/-- The digits of an integer are ASCII digits. -/
theorem isAsciiDigit_codePoint {c : Char} (h : c.isDigit = true) :
    isAsciiDigit (codePoint c) = true := by
  rw [Char.isDigit, Bool.and_eq_true, decide_eq_true_eq, decide_eq_true_eq] at h
  have hlow : 48 ≤ c.toNat := UInt32.le_iff_toNat_le.mp h.1
  have hhigh : c.toNat ≤ 57 := UInt32.le_iff_toNat_le.mp h.2
  rw [isAsciiDigit, Bool.and_eq_true, decide_eq_true_eq, decide_eq_true_eq]
  exact ⟨hlow, hhigh⟩

/-- An integer shows nine digits exactly when it has them. -/
theorem nineDigits_int {n : ℤ} {text : PyStr} (h : Json.strInt n = some text) :
    occurs nineDigits (intLine text) = false ↔ n.natAbs < 10 ^ 8 := by
  obtain ⟨sign, hsplit, hsign⟩ := exists_intLine h
  have hstops : ∀ g ∈ sign, Stops nineDigits g := fun g hg => stops_nineDigits (hsign g hg).1
  have hdigits : ∀ g ∈ (Nat.toDigits 10 n.natAbs).map
      (fun c => (⟨codePoint c, .value⟩ : Glyph)), isValueDigit g = true := by
    intro g hg
    obtain ⟨c, hc, rfl⟩ := List.mem_map.mp hg
    exact isAsciiDigit_codePoint (Nat.isDigit_of_mem_toDigits (by omega) (by omega) hc)
  rw [hsplit, Regex.occurs_append (by simp [nineDigits]) hstops, nineDigits,
    Regex.occurs_replicate hdigits, decide_eq_false_iff_not, List.length_map, Nat.not_le,
    Nat.lt_succ_iff, Nat.length_toDigits_le_iff (by omega) (by omega)]

/-- No integer shows a phone number, which begins with a plus. -/
theorem phone_int {n : ℤ} {text : PyStr} (h : Json.strInt n = some text) :
    occurs phoneGlyphs (intLine text) = false := by
  obtain ⟨sign, hsplit, hsign⟩ := exists_intLine h
  have hplus : ∀ g ∈ intLine text, (oneOf "+" ∘ Glyph.char) g = false := by
    intro g hg
    rw [hsplit] at hg
    rcases List.mem_append.mp hg with hg | hg
    · exact (hsign g hg).2
    · obtain ⟨c, hc, rfl⟩ := List.mem_map.mp hg
      cases ho : oneOf "+" (codePoint c) with
      | false => exact ho
      | true =>
        have hdigit := isAsciiDigit_codePoint (Nat.isDigit_of_mem_toDigits (by omega) (by omega) hc)
        rw [eq_of_oneOf rfl ho] at hdigit
        exact absurd hdigit (by decide)
  have hnil : occurs phoneGlyphs (intLine text ++ []) =
      occurs phoneGlyphs [] := Regex.occurs_append_of_first hplus
  rw [List.append_nil] at hnil
  exact hnil

/-- A part with a text is harmless when what is written for it contains neither pattern. -/
theorem harmless_iff {part : Shown} (hfits : part.fits = true) : part.Harmless u ↔
    part.shows u nineDigits = false ∧ part.shows u phoneGlyphs = false := by
  have hphone : ∀ origin, phoneGlyphs.map (· ∘ fun c => ⟨c, origin⟩) = phone := by
    intro origin
    simp [phoneGlyphs, Function.comp_def]
  cases part with
  -- The frame is not scrubbed, and no nine digits are in it.
  | frame s =>
    have hshows : occurs phoneGlyphs (quoted .frame s) = occurs phone s := by
      rw [← hphone .frame]
      exact apart_phone.occurs_quoted .frame s
    simp only [Shown.Harmless, Shown.shows, nineDigits_frame, hshows, true_and]
  -- A text is scrubbed, so no phone number is left in it.
  | text s =>
    have hvalue : nineDigits.map (· ∘ fun c => ⟨c, .value⟩) = List.replicate 9 isAsciiDigit := by
      rw [nineDigits, List.map_replicate]
      congr 1
    have hnine : occurs nineDigits (quoted .value (scrubText u s)) =
        occurs (List.replicate 9 isAsciiDigit) (scrubText u s) := by
      rw [← hvalue]
      exact apart_nineDigits.occurs_quoted .value _
    have hshows : occurs phoneGlyphs (quoted .value (scrubText u s)) = false := by
      rw [← scrubText_phone (u := u) s, ← hphone .value]
      exact apart_phone.occurs_quoted .value _
    rw [Shown.Harmless, ← occurs_scrubText, Shown.shows, Shown.shows, hnine, hshows]
    simp
  | int n =>
    rw [Shown.fits] at hfits
    obtain ⟨text, ht⟩ := Option.isSome_iff_exists.mp hfits
    simp only [Shown.Harmless, Shown.shows, ht, Option.any_some, nineDigits_int ht, phone_int ht,
      and_true]

/-! ## Hidden values -/

mutual

/-- The values under sensitive keys make no difference. -/
theorem scrubValue_hide : ∀ v : Payload, scrubValue u (hide u v) = scrubValue u v
  | .str _ => rfl
  | .int _ => rfl
  | .list items => congrArg Payload.list (scrubItems_hide items)
  | .tuple items => congrArg Payload.list (scrubItems_hide items)
  | .dict fields => congrArg Payload.dict (scrubFields_hide fields)

/-- The scrubbed items of a list do not depend on what is hidden. -/
theorem scrubItems_hide : ∀ items : List Payload,
    scrubItems u (hideItems u items) = scrubItems u items
  | [] => rfl
  | item :: items => by
    rw [hideItems, scrubItems, scrubItems, scrubValue_hide item, scrubItems_hide items]

/-- The scrubbed items of a dictionary do not depend on what is hidden. -/
theorem scrubFields_hide : ∀ fields : List (PyStr × Payload),
    scrubFields u (hideFields u fields) = scrubFields u fields
  | [] => rfl
  | (key, value) :: fields => by
    rw [hideFields, scrubFields, scrubFields, scrubFields_hide fields]
    split_ifs with h
    · rfl
    · rw [scrubValue_hide value]

end

/-- The item of `extra_fields` does not depend on what is hidden. -/
theorem fieldLines_hide (extra : Option Payload) :
    fieldLines u (extra.map (hide u)) = fieldLines u extra := by
  match extra with
  | none => rfl
  | some (.dict fields) =>
    rw [Option.map_some, hide, fieldLines, ← hide, scrubValue_hide, fieldLines]
  | some (.str _) => rfl
  | some (.int _) => rfl
  | some (.list _) => rfl
  | some (.tuple _) => rfl

/-- The line of a record does not depend on what is hidden. -/
theorem format_hide {record : LogRecord} {extra : Option Payload}
    (h : extra.map (hide u) = record.extraFields.map (hide u)) :
    format u { record with extraFields := extra } = format u record := by
  have hfields : fieldLines u extra = fieldLines u record.extraFields := by
    rw [← fieldLines_hide extra, h, fieldLines_hide]
  simp only [format, hfields]

/-- A line of the formatter carries no long identifier exactly when there is no line, since an integer
has no text, or every part of the record that it shows is harmless. -/
theorem log_clean_iff (u : Unicode) (record : LogRecord) : Clean u record ↔
    (∃ part ∈ record.shown u, part.TooLong) ∨ ∀ part ∈ record.shown u, part.Harmless u := by
  have hnine : Renders u nineDigits (occurs nineDigits) (format u record) (record.shown u) :=
    apart_nineDigits.format record
  have hphone : Renders u phoneGlyphs (occurs phoneGlyphs) (format u record) (record.shown u) :=
    apart_phone.format record
  cases hline : format u record with
  | none =>
    -- A part is too long for Python's digit limit, so no line is written at all.
    have hlong : ∃ part ∈ record.shown u, part.TooLong := by
      have hall := hnine.isSome
      rw [hline, Option.isSome_none, eq_comm, List.all_eq_false] at hall
      obtain ⟨part, hpart, hfits⟩ := hall
      exact ⟨part, hpart, not_not.mp (mt fits_iff.mpr hfits)⟩
    refine iff_of_true ⟨?_, ?_, fun _ => format_hide⟩ (.inl hlong)
    · simp [hline]
    · simp [hline]
  | some line =>
    have hfits : ∀ part ∈ record.shown u, part.fits = true := by
      have hall := hnine.isSome
      rw [hline, Option.isSome_some, eq_comm, List.all_eq_true] at hall
      exact hall
    constructor
    · -- What the line does not contain, none of its parts contains.
      rintro ⟨hdigits, hphones, -⟩
      refine .inr fun part hpart => (harmless_iff (hfits part hpart)).mpr ⟨?_, ?_⟩
      · have hnone := hdigits line hline
        rw [hnine.contains line hline, List.any_eq_false] at hnone
        exact Bool.not_eq_true _ ▸ hnone part hpart
      · have hnone := hphones line hline
        rw [hphone.contains line hline, List.any_eq_false] at hnone
        exact Bool.not_eq_true _ ▸ hnone part hpart
    · -- Conversely the line contains only what some part does.
      rintro (⟨part, hpart, hlong⟩ | hsafe)
      · exact absurd hlong (fits_iff.mp (hfits part hpart))
      · have hparts := fun part hpart => (harmless_iff (hfits part hpart)).mp (hsafe part hpart)
        refine ⟨?_, ?_, fun _ => format_hide⟩
        · intro l hl
          rw [hnine.contains l hl, List.any_eq_false]
          exact fun part hpart => by simp [(hparts part hpart).1]
        · intro l hl
          rw [hphone.contains l hl, List.any_eq_false]
          exact fun part hpart => by simp [(hparts part hpart).2]

end Records

/-- ASCII letters and digits, and the lower case of ASCII letters. -/
def ascii : Unicode where
  isalnum := isAsciiAlnum
  lower s := s.map fun c => if 65 ≤ c.val ∧ c.val ≤ 90 then c + 32 else c

/-- The digits of an IBAN follow its country code, so that no word boundary stands before them; and an
integer is not scrubbed. -/
theorem log_leaks :
    ¬Clean ascii
      ⟨py "INFO", py "app", py "IBAN SA0380000000608010167519", none, none⟩ ∧
    ¬Clean ascii
      ⟨py "INFO", py "app", py "ok", none, some (.dict [(py "user", .int 1234567890)])⟩ := by
  constructor
  · intro h
    obtain ⟨line, hline, hshows⟩ : ∃ line ∈ format ascii
        ⟨py "INFO", py "app", py "IBAN SA0380000000608010167519", none, none⟩,
          occurs nineDigits line = true := ⟨_, rfl, by decide +kernel⟩
    rw [h.digits line hline] at hshows
    cases hshows
  · intro h
    obtain ⟨line, hline, hshows⟩ : ∃ line ∈ format ascii
        ⟨py "INFO", py "app", py "ok", none, some (.dict [(py "user", .int 1234567890)])⟩,
          occurs nineDigits line = true := ⟨_, rfl, by decide +kernel⟩
    rw [h.digits line hline] at hshows
    cases hshows

end Logging

end Giftly
