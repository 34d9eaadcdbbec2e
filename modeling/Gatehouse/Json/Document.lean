import Gatehouse.Json.Basic
import Gatehouse.Text.Hex
import Gatehouse.Text.Utf8

/-!
# Reading JSON

`Document.read` turns bytes into the tree of what stands there, up to the first place where the
bytes stop being JSON; that place is a leaf of its own, so a reader of the tree meets it in the
order of the text.  Whether a tree is acceptable is for its reader to say: an answer that looks
only at some members never needs the others to be more than well spelled.  In particular a text
may be spelled correctly and still spell nothing, by half of a surrogate pair or by bytes that
are not UTF-8; it is kept with the place where that comes to light.
-/

namespace Gatehouse

/-- Where it comes to light that characters between quotation marks spell no text. -/
inductive Garble where
  /-- at a surrogate that is not followed by its other half -/
  | within
  /-- at the closing mark, which stands in place of the other half or ends what is not UTF-8 -/
  | atEnd
deriving DecidableEq

/-- What stands in a text that is meant to be JSON. -/
inductive Document where
  | null
  | bool (b : Bool)
  | number (n : Numeral)
  | text (s : Except Garble String)
  /-- `closed` when the closing bracket is there -/
  | array (items : List Document) (closed : Bool)
  /-- a name is `none` when it spells no text; `closed` when the closing brace is there -/
  | object (members : List (Option String × Document)) (closed : Bool)
  /-- no JSON stands here -/
  | malformed

namespace Document

open Text

/-! ## Blanks and digits -/

/-- The four bytes that may stand between the parts of a value. -/
def isSpace (b : UInt8) : Bool := b == 0x20 || b == 0x09 || b == 0x0A || b == 0x0D

/-- The bytes behind any blanks. -/
def skipSpace (bytes : List UInt8) : List UInt8 := bytes.dropWhile isSpace

/-- Whether a byte is one of the ten digits. -/
def isDigit (b : UInt8) : Bool := 0x30 ≤ b && b ≤ 0x39

/-- The number a digit stands for. -/
def digitValue (b : UInt8) : Fin 10 := Fin.ofNat 10 (b.toNat - 48)

/-- The number that digits spell. -/
def readNat (digits : List UInt8) : Nat := digits.foldl (fun n b => n * 10 + (digitValue b).val) 0

/-! ## Numbers -/

/-- A whole part: a single zero, or digits that do not begin with one. -/
def readWhole (bytes : List UInt8) : Option (Nat × List UInt8) :=
  let digits := bytes.takeWhile isDigit
  if digits.isEmpty ∨ (digits.head? = some 0x30 ∧ digits.length ≠ 1) then none
  else some (readNat digits, bytes.drop digits.length)

/-- A fraction, when a point announces one. -/
def readFraction (bytes : List UInt8) : Option (List (Fin 10) × List UInt8) :=
  match bytes with
  | 0x2E :: rest =>
    let digits := rest.takeWhile isDigit
    if digits.isEmpty then none else some (digits.map digitValue, rest.drop digits.length)
  | _ => some ([], bytes)

/-- A power of ten, when an `e` announces one. -/
def readExponent (bytes : List UInt8) : Option (Option Int × List UInt8) :=
  match bytes with
  | [] => some (none, [])
  | e :: rest =>
    if e = 0x65 ∨ e = 0x45 then
      let (negative, rest) := match rest with
        | 0x2D :: rest => (true, rest)
        | 0x2B :: rest => (false, rest)
        | rest => (false, rest)
      let digits := rest.takeWhile isDigit
      if digits.isEmpty then none
      else
        let n : Int := readNat digits
        some (some (if negative then -n else n), rest.drop digits.length)
    else some (none, bytes)

/-- A number behind its sign. -/
def readUnsigned (negative : Bool) (bytes : List UInt8) : Option (Numeral × List UInt8) := do
  let (whole, bytes) ← readWhole bytes
  let (fraction, bytes) ← readFraction bytes
  let (exponent, bytes) ← readExponent bytes
  some (⟨negative, whole, fraction, exponent⟩, bytes)

/-- A number. -/
def readNumeral (bytes : List UInt8) : Option (Numeral × List UInt8) :=
  match bytes with
  | 0x2D :: rest => readUnsigned true rest
  | _ => readUnsigned false bytes

/-! ## Texts -/

/-- One step of a text: a byte that stands for itself, or a UTF-16 unit given by number. -/
inductive Unit16 where
  | byte (b : UInt8)
  | unit (n : Nat)

/-- The byte that a letter names behind a backslash. -/
def escapeByte? (b : UInt8) : Option UInt8 :=
  match b with
  | 0x22 => some 0x22
  | 0x5C => some 0x5C
  | 0x2F => some 0x2F
  | 0x62 => some 0x08
  | 0x66 => some 0x0C
  | 0x6E => some 0x0A
  | 0x72 => some 0x0D
  | 0x74 => some 0x09
  | _ => none

/-- The unit that four hexadecimal digits spell. -/
def unit? (a b c d : UInt8) : Option Nat :=
  Hex.read? ([a, b, c, d].map fun x => Char.ofNat x.toNat)

/-- The steps of a text up to its closing quotation mark, and the bytes behind it.  Control
characters do not stand for themselves. -/
def readSteps : List UInt8 → Option (List Unit16 × List UInt8)
  | [] => none
  | 0x22 :: rest => some ([], rest)
  | 0x5C :: 0x75 :: a :: b :: c :: d :: rest =>
    (unit? a b c d).bind fun n =>
      (readSteps rest).map fun (steps, rest) => (.unit n :: steps, rest)
  | 0x5C :: e :: rest =>
    (escapeByte? e).bind fun b =>
      (readSteps rest).map fun (steps, rest) => (.byte b :: steps, rest)
  | b :: rest =>
    if b < 0x20 ∨ b = 0x5C then none
    else (readSteps rest).map fun (steps, rest) => (.byte b :: steps, rest)

/-- The bytes that the steps of a text spell, unless a surrogate stands alone. -/
def spell : List Unit16 → Except Garble (List UInt8)
  | [] => .ok []
  | .byte b :: steps => (spell steps).map (b :: ·)
  | .unit hi :: .unit lo :: steps =>
    if 0xD800 ≤ hi ∧ hi < 0xDC00 ∧ 0xDC00 ≤ lo ∧ lo < 0xE000 then
      (spell steps).map (String.utf8EncodeChar
        (Char.ofNat (0x10000 + (hi - 0xD800) * 0x400 + (lo - 0xDC00))) ++ ·)
    else if 0xD800 ≤ hi ∧ hi < 0xE000 then .error .within
    else (spell (.unit lo :: steps)).map (String.utf8EncodeChar (Char.ofNat hi) ++ ·)
  | .unit n :: steps =>
    if 0xD800 ≤ n ∧ n < 0xDC00 ∧ steps.isEmpty then .error .atEnd
    else if 0xD800 ≤ n ∧ n < 0xE000 then .error .within
    else (spell steps).map (String.utf8EncodeChar (Char.ofNat n) ++ ·)

/-- The text that the steps of a text spell. -/
def spellText (steps : List Unit16) : Except Garble String :=
  match spell steps with
  | .error garble => .error garble
  | .ok bytes =>
    match Utf8.decode? bytes with
    | none => .error .atEnd
    | some s => .ok s

/-- The text behind an opening quotation mark, and the bytes behind it. -/
def readText (bytes : List UInt8) : Option (Except Garble String × List UInt8) :=
  (readSteps bytes).map fun (steps, rest) => (spellText steps, rest)

/-! ## Values -/

/-- The bytes behind a word, when they begin with it. -/
def readWord (word bytes : List UInt8) : Option (List UInt8) :=
  if bytes.take word.length = word then some (bytes.drop word.length) else none

/-- Nothing can be read: the rest is not JSON. -/
def stop : Document × List UInt8 := (.malformed, [])

mutual

/-- A value at the front of the bytes and what is left behind it; nothing is left behind a
place that is not JSON.  `fuel` bounds how often a value or an item is begun. -/
def readValue : Nat → List UInt8 → Document × List UInt8
  | 0, _ => stop
  | fuel + 1, bytes =>
    match skipSpace bytes with
    | [] => stop
    | 0x22 :: rest =>
      match readText rest with
      | some (s, rest) => (.text s, rest)
      | none => stop
    | 0x5B :: rest =>
      match skipSpace rest with
      | 0x5D :: rest => (.array [] true, rest)
      | rest =>
        let (items, closed, rest) := readItems fuel rest
        (.array items closed, rest)
    | 0x7B :: rest =>
      match skipSpace rest with
      | 0x7D :: rest => (.object [] true, rest)
      | rest =>
        let (members, closed, rest) := readMembers fuel rest
        (.object members closed, rest)
    | 0x6E :: rest =>
      match readWord [0x75, 0x6C, 0x6C] rest with
      | some rest => (.null, rest)
      | none => stop
    | 0x74 :: rest =>
      match readWord [0x72, 0x75, 0x65] rest with
      | some rest => (.bool true, rest)
      | none => stop
    | 0x66 :: rest =>
      match readWord [0x61, 0x6C, 0x73, 0x65] rest with
      | some rest => (.bool false, rest)
      | none => stop
    | bytes =>
      match readNumeral bytes with
      | some (n, rest) => (.number n, rest)
      | none => stop

/-- The items of an array that is not empty. -/
def readItems : Nat → List UInt8 → List Document × Bool × List UInt8
  | 0, _ => ([], false, [])
  | fuel + 1, bytes =>
    let (item, rest) := readValue fuel bytes
    match skipSpace rest with
    | 0x2C :: rest =>
      let (items, closed, rest) := readItems fuel rest
      (item :: items, closed, rest)
    | 0x5D :: rest => ([item], true, rest)
    | _ => ([item], false, [])

/-- The members of an object that is not empty. -/
def readMembers : Nat → List UInt8 → List (Option String × Document) × Bool × List UInt8
  | 0, _ => ([], false, [])
  | fuel + 1, bytes =>
    match skipSpace bytes with
    | 0x22 :: rest =>
      match readText rest with
      | none => ([], false, [])
      | some (name, rest) =>
        match skipSpace rest with
        | 0x3A :: rest =>
          let (value, rest) := readValue fuel rest
          match skipSpace rest with
          | 0x2C :: rest =>
            let (members, closed, rest) := readMembers fuel rest
            ((name.toOption, value) :: members, closed, rest)
          | 0x7D :: rest => ([(name.toOption, value)], true, rest)
          | _ => ([(name.toOption, value)], false, [])
        | _ => ([(name.toOption, .malformed)], false, [])
    | _ => ([], false, [])

end

/-- What stands at the front of the bytes, and the bytes behind it. -/
def read (bytes : List UInt8) : Document × List UInt8 := readValue (2 * bytes.length + 2) bytes

/-- What the bytes hold when nothing but blanks may follow it. -/
def readWhole? (bytes : List UInt8) : Document :=
  let (document, rest) := read bytes
  if (skipSpace rest).isEmpty then document else .malformed

mutual

/-- The document that a value is read back as. -/
def ofJson : Json → Document
  | .null => .null
  | .bool b => .bool b
  | .number n => .number n
  | .text s => .text (.ok s)
  | .array items => .array (ofItems items) true
  | .object members => .object (ofMembers members) true

/-- The items of an array, each as it is read back. -/
def ofItems : List Json → List Document
  | [] => []
  | j :: rest => ofJson j :: ofItems rest

/-- The members of an object, each as it is read back. -/
def ofMembers : List (String × Json) → List (Option String × Document)
  | [] => []
  | (name, j) :: rest => (some name, ofJson j) :: ofMembers rest

end

end Document

end Gatehouse
