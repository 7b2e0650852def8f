import Giftly.Numerals

/-!
# JSON values and their texts

What `json.loads` returns, and what Python's `str` and `repr` make of it. A float is a value of a type
that is a parameter, and so are its text and the table of the printable characters. The text of an
integer of more than 4300 digits is a `ValueError`.
-/

namespace Giftly

/-- A value of a JSON document. -/
inductive Json (F : Type)
  | null
  | bool (b : Bool)
  | int (n : ℤ)
  | float (x : F)
  | str (s : PyStr)
  | arr (items : List (Json F))
  | obj (fields : List (PyStr × Json F))

/-- How the interpreter prints floats, and which characters it prints as they are. -/
structure Printing (F : Type) where
  floatRepr : F → PyStr
  isPrintable : CodePoint → Bool

/-- A text of the source. -/
def py (s : String) : PyStr := s.toList.map codePoint

namespace Json

variable {F : Type}

/-- `dict.get(key)`. -/
def get (fields : List (PyStr × Json F)) (key : String) : Option (Json F) :=
  (fields.find? fun f => f.1 = py key).map Prod.snd

/-- The text of an integer; `none` is a `ValueError`. -/
def strInt (n : ℤ) : Option PyStr :=
  let digits := Nat.toDigits 10 n.natAbs
  if digits.length ≤ 4300 then some (((if n < 0 then ['-'] else []) ++ digits).map codePoint)
  else none

/-- A number in hexadecimal digits, of a width. -/
def hex (width n : ℕ) : PyStr :=
  let digits := Nat.toDigits 16 n
  (List.replicate (width - digits.length) '0' ++ digits).map codePoint

/-- The apostrophe, the quotation mark and the backslash. -/
def apostrophe : CodePoint := 39

@[inherit_doc apostrophe]
def quotation : CodePoint := 34

@[inherit_doc apostrophe]
def backslash : CodePoint := 92

/-- A character of a string between quotes. -/
def escape (isPrintable : CodePoint → Bool) (quote c : CodePoint) : PyStr :=
  if c = quote ∨ c = backslash then [backslash, c]
  else if c = 9 then py "\\t"
  else if c = 10 then py "\\n"
  else if c = 13 then py "\\r"
  else if 32 ≤ c.val ∧ c.val < 127 ∨ 127 < c.val ∧ isPrintable c = true then [c]
  else if c.val ≤ 0xff then py "\\x" ++ hex 2 c.val
  else if c.val ≤ 0xffff then py "\\u" ++ hex 4 c.val
  else py "\\U" ++ hex 8 c.val

/-- `repr` of a string. -/
def reprStr (isPrintable : CodePoint → Bool) (s : PyStr) : PyStr :=
  let quote := if apostrophe ∈ s ∧ quotation ∉ s then quotation else apostrophe
  quote :: (s.flatMap (escape isPrintable quote) ++ [quote])

/-- Texts in brackets, with commas between them. -/
def bracketed (left right : CodePoint) (texts : List PyStr) : PyStr :=
  left :: ((py ", ").intercalate texts ++ [right])

mutual

/-- `repr`; `none` is a `ValueError`. -/
def repr (p : Printing F) : Json F → Option PyStr
  | null => some (py "None")
  | bool b => some (py (if b then "True" else "False"))
  | int n => strInt n
  | float x => some (p.floatRepr x)
  | str s => some (reprStr p.isPrintable s)
  | arr items => (reprItems p items).map (bracketed 91 93)
  | obj fields => (reprFields p fields).map (bracketed 123 125)

/-- The items of a list. -/
def reprItems (p : Printing F) : List (Json F) → Option (List PyStr)
  | [] => some []
  | item :: items =>
    (repr p item).bind fun text => (reprItems p items).map (text :: ·)

/-- The items of a dictionary. -/
def reprFields (p : Printing F) : List (PyStr × Json F) → Option (List PyStr)
  | [] => some []
  | (key, value) :: fields =>
    (repr p value).bind fun text =>
      (reprFields p fields).map ((reprStr p.isPrintable key ++ py ": " ++ text) :: ·)

end

/-- `str`: a string is its own text. -/
def toStr (p : Printing F) : Json F → Option PyStr
  | str s => some s
  | value => repr p value

end Json

end Giftly
