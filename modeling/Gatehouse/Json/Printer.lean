import Gatehouse.Json.Basic
import Gatehouse.Text.Hex
import Gatehouse.Text.Utf8

/-!
# Writing JSON

Values are written without blanks, members in their order.  In a text, quotation marks and
backslashes are escaped, control characters below U+0020 are escaped by name where they have
one and by number otherwise, and every other character stands as it is.
-/

namespace Gatehouse.Json

open Text

/-! ## Texts -/

/-- The letter that names a control character behind a backslash, for those that have one. -/
def controlNames : List (Char × Char) :=
  [(Char.ofNat 8, 'b'), (Char.ofNat 9, 't'), (Char.ofNat 10, 'n'), (Char.ofNat 12, 'f'),
    (Char.ofNat 13, 'r')]

/-- One character inside quotation marks. -/
def escape (c : Char) : List Char :=
  if c = '"' ∨ c = '\\' then ['\\', c]
  else match controlNames.lookup c with
    | some name => ['\\', name]
    | none => if c.toNat < 32 then '\\' :: 'u' :: Hex.digits 4 c.toNat else [c]

/-- A text in quotation marks. -/
def quote (cs : List Char) : List Char := '"' :: cs.flatMap escape ++ ['"']

/-! ## Values -/

/-- A number as it is spelled. -/
def numeralChars (n : Numeral) : List Char :=
  (if n.negative then ['-'] else []) ++ Decimal.natural n.whole ++
    (if n.fraction = [] then [] else '.' :: n.fraction.map fun d => Decimal.digit d.val) ++
    (match n.exponent with
      | none => []
      | some e => 'e' :: Decimal.signed e)

mutual

/-- A value as text. -/
def toChars : Json → List Char
  | .null => ['n', 'u', 'l', 'l']
  | .bool true => ['t', 'r', 'u', 'e']
  | .bool false => ['f', 'a', 'l', 's', 'e']
  | .number n => numeralChars n
  | .text s => quote s.toList
  | .array items => '[' :: itemChars items ++ [']']
  | .object members => '{' :: memberChars members ++ ['}']

/-- The items of an array, with commas between them. -/
def itemChars : List Json → List Char
  | [] => []
  | [j] => j.toChars
  | j :: rest => j.toChars ++ ',' :: itemChars rest

/-- The members of an object, with commas between them. -/
def memberChars : List (String × Json) → List Char
  | [] => []
  | [(name, j)] => quote name.toList ++ ':' :: j.toChars
  | (name, j) :: rest => quote name.toList ++ ':' :: j.toChars ++ ',' :: memberChars rest

end

/-- A value as a string. -/
def render (j : Json) : String := String.ofList j.toChars

/-- A value as bytes. -/
def bytes (j : Json) : List UInt8 := Utf8.encode j.render

end Gatehouse.Json
