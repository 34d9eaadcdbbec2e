import Gatehouse.Text.Blank
import Gatehouse.Text.Decimal
import Gatehouse.Time.Calendar
import Gatehouse.Time.Instant

/-!
# Times as text

Times are written as RFC 3339 prescribes, in UTC: `2024-01-01T00:00:00Z`.  A fraction is written
with three, six or nine digits, the fewest that hold it, and not at all when it is zero.  Years
outside 0 to 9999 carry a sign.

Reading is more generous.  Any offset below a day is converted to UTC, its colon may be missing,
and `UTC` may stand for it; numbers may lack their leading zeros, years outside four digits
carry a sign, blanks may stand between the parts, and a space may stand for the `T`.  Digits of
a fraction beyond the ninth are dropped.  The second 60 is a leap second.  A time is read only if
there is such an instant in UTC both before and after the offset is applied.
-/

namespace Gatehouse.Time

open Text

/-! ## Writing -/

/-- The form in which times are written. -/
structure TimeFormat where
  /-- how many digits a year has at least -/
  yearDigits : Nat
  /-- the last year that is written without a sign -/
  lastPlainYear : Int
  /-- the mark for UTC -/
  zone : Char

/-- Years have four digits, those after 9999 carry a sign like the negative ones, and `Z` marks
UTC. -/
def TimeFormat.standard : TimeFormat := ⟨4, 9999, 'Z'⟩

/-- A year, with a sign when it is outside the plain range. -/
def yearChars (f : TimeFormat) (year : Int) : List Char :=
  let digits := Decimal.padded f.yearDigits year.natAbs
  if year < 0 then '-' :: digits
  else if f.lastPlainYear < year then '+' :: digits
  else digits

/-- A fraction of a second in nanoseconds, with its point: no digits, three, six or nine. -/
def fractionChars (nano : Nat) : List Char :=
  if nano = 0 then []
  else if nano % 1000000 = 0 then '.' :: Decimal.digits 3 (nano / 1000000)
  else if nano % 1000 = 0 then '.' :: Decimal.digits 6 (nano / 1000)
  else '.' :: Decimal.digits 9 nano

namespace Instant

/-- The date that an instant falls on. -/
def date (t : Instant) : Date := Date.ofDayNumber (t.second / 86400)

/-- The second that an instant falls in, counted from the beginning of its day. -/
def secondOfDay (t : Instant) : Nat := (t.second % 86400).toNat

/-- The instant as text of a given form. -/
def format (f : TimeFormat) (t : Instant) : List Char :=
  let date := t.date
  let leap := if t.nano < 1000000000 then 0 else 1
  yearChars f date.year ++ '-' :: Decimal.digits 2 date.month ++
    '-' :: Decimal.digits 2 date.day ++
    'T' :: Decimal.digits 2 (t.secondOfDay / 3600) ++
    ':' :: Decimal.digits 2 (t.secondOfDay / 60 % 60) ++
    ':' :: Decimal.digits 2 (t.secondOfDay % 60 + leap) ++
    fractionChars (t.nano % 1000000000) ++ [f.zone]

/-- The instant as text. -/
def toChars (t : Instant) : List Char := t.format TimeFormat.standard

/-- `toChars` as a string. -/
def text (t : Instant) : String := String.ofList t.toChars

end Instant

/-! ## Reading

Each reader takes its part from the front of a text and leaves the rest. -/

/-- A number of at least one and at most `most` digits. -/
def readNumber (most : Nat) (cs : List Char) : Option (Nat × List Char) :=
  let digits := (cs.takeWhile Decimal.isDigit).take most
  if digits.isEmpty then none else some (Decimal.read digits, cs.drop digits.length)

/-- A number of one or two digits behind any blanks. -/
def readPart (cs : List Char) : Option (Nat × List Char) := readNumber 2 (trimStart cs)

/-- A mark behind any blanks. -/
def readMark (mark : Char) (cs : List Char) : Option (List Char) :=
  match trimStart cs with
  | c :: rest => if c = mark then some rest else none
  | [] => none

/-- A year: up to four digits, or any number of them behind a sign. -/
def readYear (cs : List Char) : Option (Int × List Char) :=
  match trimStart cs with
  | '-' :: rest => (readNumber rest.length rest).map fun (n, rest) => (-(n : Int), rest)
  | '+' :: rest => (readNumber rest.length rest).map fun (n, rest) => ((n : Int), rest)
  | rest => (readNumber 4 rest).map fun (n, rest) => ((n : Int), rest)

/-- A date, as its day number. -/
def readDate (cs : List Char) : Option (Int × List Char) := do
  let (year, cs) ← readYear cs
  let (month, cs) ← readPart (← readMark '-' cs)
  let (day, cs) ← readPart (← readMark '-' cs)
  let date : Date := ⟨year, month, day⟩
  if date.Exists then some (date.dayNumber, cs) else none

/-- Nanoseconds behind a point; without a point there are none. -/
def readFraction (cs : List Char) : Option (Nat × List Char) :=
  match cs with
  | '.' :: rest =>
    let digits := rest.takeWhile Decimal.isDigit
    if digits.isEmpty then none
    else
      let kept := digits.take 9
      some (Decimal.read kept * Nat.pow 10 (9 - kept.length), rest.drop digits.length)
  | _ => some (0, cs)

/-- A time of day, as its second and nanoseconds; the second 60 continues the one before it. -/
def readTimeOfDay (cs : List Char) : Option ((Nat × Nat) × List Char) := do
  let (hour, cs) ← readPart cs
  let (minute, cs) ← readPart (← readMark ':' cs)
  let (second, cs) ← readPart (← readMark ':' cs)
  let (nano, cs) ← readFraction cs
  if hour < 24 ∧ minute < 60 ∧ second ≤ 60 then
    if second = 60 then some ((hour * 3600 + minute * 60 + 59, nano + 1000000000), cs)
    else some ((hour * 3600 + minute * 60 + second, nano), cs)
  else none

/-- Two digits. -/
def readPair (cs : List Char) : Option (Nat × List Char) :=
  match cs with
  | a :: b :: rest =>
    if Decimal.isDigit a && Decimal.isDigit b then some (Decimal.read [a, b], rest) else none
  | _ => none

/-- An offset from UTC in seconds; its sign may be the typographic minus sign U+2212. -/
def readOffset (cs : List Char) : Option (Int × List Char) :=
  if (cs.take 3).map Char.toUpper = ['U', 'T', 'C'] then some (0, cs.drop 3)
  else match cs with
    | [] => none
    | sign :: rest =>
      if sign = 'Z' ∨ sign = 'z' then some (0, rest)
      else if sign = '+' ∨ sign = '-' ∨ sign = Char.ofNat 0x2212 then do
        let (hours, rest) ← readPair rest
        let (minutes, rest) ← readPair (rest.dropWhile fun c => c == ':' || isBlank c)
        let seconds : Int := hours * 3600 + minutes * 60
        if hours < 24 ∧ minutes < 60 then
          some (if sign = '+' then seconds else -seconds, rest)
        else none
      else none

/-- The instant that a text spells, when it spells one. -/
def Instant.ofChars? (cs : List Char) : Option Instant := do
  let (day, cs) ← readDate cs
  match cs with
  | separator :: cs =>
    if separator = 'T' ∨ separator = 't' ∨ separator = ' ' then
      let ((second, nano), cs) ← readTimeOfDay cs
      let (offset, cs) ← readOffset (trimStart cs)
      let unshifted ← make? (day * 86400 + second) nano
      if (trimStart cs).isEmpty then make? (unshifted.second - offset) nano else none
    else none
  | [] => none

/-- `ofChars?` on strings. -/
def Instant.ofText? (s : String) : Option Instant := Instant.ofChars? s.toList

end Gatehouse.Time
