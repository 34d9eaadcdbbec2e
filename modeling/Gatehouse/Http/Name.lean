/-!
# Names in HTTP

Methods and header fields are named by tokens: one or more letters, digits or marks of a fixed
set, all of them ASCII.  Methods are compared with letter case and header fields without it, so a
field is kept under its name in small letters.
-/

namespace Gatehouse.Http

/-! ## Tokens -/

/-- The marks that may stand in a token. -/
def tokenMarks : List Char :=
  ['!', '#', '$', '%', '&', '\'', '*', '+', '-', '.', '^', '_', Char.ofNat 0x60, '|', '~']

/-- Whether a character may stand in a token. -/
def isTokenChar (c : Char) : Bool := c.isAlphanum || tokenMarks.contains c

/-- Whether a text is a token. -/
def isToken (cs : List Char) : Bool := !cs.isEmpty && cs.all isTokenChar

/-! ## Methods -/

/-- What a request wants done. -/
structure Method where
  name : String
  isToken : isToken name.toList = true
deriving DecidableEq

namespace Method

/-- The method of a given name, when there can be one. -/
def ofText? (name : String) : Option Method :=
  if h : Http.isToken name.toList = true then some ⟨name, h⟩ else none

/-- Reads a resource. -/
def get : Method := ⟨"GET", by decide⟩

/-- Reads a resource without its content. -/
def head : Method := ⟨"HEAD", by decide⟩

/-- Adds to a resource. -/
def post : Method := ⟨"POST", by decide⟩

/-- Asks what may be done. -/
def options : Method := ⟨"OPTIONS", by decide⟩

end Method

end Gatehouse.Http
