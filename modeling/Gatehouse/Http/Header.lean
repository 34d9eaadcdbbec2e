import Gatehouse.Http.Name
import Gatehouse.Text.Blank
import Gatehouse.Text.Utf8

/-!
# Header fields

A field has a name and some bytes.  The bytes may be anything but control characters, of which
only the tab is let through; where a text is asked for, they must be visible ASCII, spaces and
tabs.  A field may be given several times, and then the first one counts.
-/

namespace Gatehouse.Http

/-- A header field; the name is in small letters. -/
structure Header where
  name : String
  value : List UInt8
deriving DecidableEq

/-- Whether a byte may stand in the value of a field. -/
def isValueByte (b : UInt8) : Bool := b == 0x09 || (0x20 ≤ b && b != 0x7F)

/-- Whether a byte is visible ASCII, a space or a tab. -/
def isPlainByte (b : UInt8) : Bool := b == 0x09 || (0x20 ≤ b && b ≤ 0x7E)

/-- The characters of a value that is visible ASCII, spaces and tabs throughout. -/
def plainText? (value : List UInt8) : Option (List Char) :=
  if value.all isPlainByte then some (value.map fun b => Char.ofNat b.toNat) else none

namespace Header

/-- The field of a given name and value, when there can be one. -/
def make? (name value : String) : Option Header :=
  if isToken name.toList && (Text.Utf8.encode value).all isValueByte then
    some ⟨Text.lowerAscii name, Text.Utf8.encode value⟩
  else none

/-- The value of the first field of a name given in small letters. -/
def first? (headers : List Header) (name : String) : Option (List UInt8) :=
  (headers.find? fun h => h.name == name).map Header.value

end Header

end Gatehouse.Http
