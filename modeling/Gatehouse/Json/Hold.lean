import Gatehouse.Json.Document
import Gatehouse.Json.Magnitude

/-!
# Holding values

A value that nobody asks for is passed over and has only to be well spelled.  One that may turn
out to be of several kinds is held as a whole before it is looked at.  That can fail though the
value is well spelled: some text in it spells nothing, some number is too large, or its brackets
are nested too deep.

Where a value may be missing, failing to hold it is no fault in itself.  But reading goes on at
the very place where holding stopped, so it gets past the value only if the value ends there;
closing brackets are still read.
-/

namespace Gatehouse

/-- How holding a value ends. -/
inductive Hold where
  /-- with the whole value -/
  | whole
  /-- without it, at its end -/
  | past
  /-- without it, somewhere inside -/
  | caught
deriving DecidableEq

namespace Hold

/-- Holding one value of several and then those that follow it, if any do. -/
def andThen (first : Hold) (isLast : Bool) (following : Hold) : Hold :=
  match first with
  | whole => following
  | past => if isLast then past else caught
  | caught => caught

end Hold

namespace Document

/-- How holding a number ends. -/
def holdNumber (n : Numeral) : Hold :=
  if n.fits then .whole else if n.powerIsCounted then .past else .caught

/-- How holding a text ends. -/
def holdText : Except Garble String → Hold
  | .ok _ => .whole
  | .error .atEnd => .past
  | .error .within => .caught

mutual

/-- How holding a value ends whose brackets may be nested `depth` deep. -/
def hold : Nat → Document → Hold
  | _, .null => .whole
  | _, .bool _ => .whole
  | _, .number n => holdNumber n
  | _, .text s => holdText s
  | 0, .array _ _ => .caught
  | depth + 1, .array ds closed => if closed then holdItems depth ds else .caught
  | 0, .object _ _ => .caught
  | depth + 1, .object ms closed => if closed then holdMembers depth ms else .caught
  | _, .malformed => .caught

/-- `hold` for the items of an array. -/
def holdItems : Nat → List Document → Hold
  | _, [] => .whole
  | depth, d :: ds => (hold depth d).andThen ds.isEmpty (holdItems depth ds)

/-- `hold` for the members of an object; their names are held too, and a name is never the end. -/
def holdMembers : Nat → List (Option String × Document) → Hold
  | _, [] => .whole
  | _, (none, _) :: _ => .caught
  | depth, (some _, d) :: ms => (hold depth d).andThen ms.isEmpty (holdMembers depth ms)

end

/-- How deep the brackets of a member may be nested when it is held. -/
def maxDepth : Nat := 126

end Document

end Gatehouse
