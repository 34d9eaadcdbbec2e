import Gatehouse.Text.Blank
import Gatehouse.Text.Utf8

/-!
# Addresses

Of the address that a request is sent to, only the path and the query count.  It may be given
as a path, as a full address with scheme and authority, as an authority alone, which has no path
at all, or as a lone star.  What follows a `#` is no part of it.

Paths and queries are kept as they were sent: escapes are not resolved here.
-/

namespace Gatehouse.Http

/-- The part of an address that counts; the query is empty where there is none. -/
structure Uri where
  path : String
  query : String
deriving DecidableEq

namespace Uri

/-! ## Path and query -/

/-- How many bytes an address may have. -/
def maxBytes : Nat := 65534

/-- Whether a character is neither a space nor one of the control characters of ASCII. -/
def isVisible (c : Char) : Bool := decide (0x20 < c.toNat) && c.toNat != 0x7F

/-- The visible characters that may not stand in a path. -/
def notInPath : List Char := ['#', '<', '>', '?', Char.ofNat 0x60]

/-- The visible characters that may not stand in a query. -/
def notInQuery : List Char := ['"', '#', '<', '>']

/-- Whether a character may stand in a path. -/
def isPathChar (c : Char) : Bool := isVisible c && !notInPath.contains c

/-- Whether a character may stand in a query. -/
def isQueryChar (c : Char) : Bool := isVisible c && !notInQuery.contains c

/-- The address whose path and query are given, without a fragment. -/
def ofTail? (cs : List Char) : Option Uri :=
  let cs := cs.takeWhile (· != '#')
  let path := cs.takeWhile (· != '?')
  let query := (cs.dropWhile (· != '?')).drop 1
  if path.all isPathChar && query.all isQueryChar then
    some ⟨String.ofList (if path.isEmpty then ['/'] else path), String.ofList query⟩
  else none

/-! ## Authorities -/

/-- Whether a character may stand in an authority. -/
def isAuthorityChar (c : Char) : Bool :=
  c.isAlphanum || ['!', '$', '%', '&', '\'', '(', ')', '*', '+', ',', '-', '.', ':', ';', '=', '@',
    '[', ']', '_', '~'].contains c

/-- Whether a character ends an authority. -/
def endsAuthority (c : Char) : Bool := c == '/' || c == '?' || c == '#'

/-- What has been seen of an authority. -/
structure Host where
  /-- colons since the last `@` or `]` -/
  colons : Nat
  /-- a percent sign since the last `@` or `]` -/
  percent : Bool
  opened : Bool
  closed : Bool

/-- How many colons may stand together; an address of eight groups has seven. -/
def maxColons : Nat := 8

/-- One more character of an authority. -/
def Host.read (host : Host) (c : Char) : Option Host :=
  if c = ':' then
    if host.colons < maxColons then some { host with colons := host.colons + 1 } else none
  else if c = '[' then
    if host.percent || host.opened then none else some { host with opened := true }
  else if c = ']' then
    if host.opened && !host.closed then some ⟨0, false, true, true⟩ else none
  else if c = '@' then some { host with colons := 0, percent := false }
  else if c = '%' then some { host with percent := true }
  else if isAuthorityChar c then some host
  else none

/-- Whether a text is an authority: brackets are closed, at most one colon stands before the
port, no escape is left in the host, and something follows the `@`. -/
def isAuthority (cs : List Char) : Bool :=
  match cs.foldlM Host.read ⟨0, false, false, false⟩ with
  | none => false
  | some host =>
    host.opened == host.closed && decide (host.colons ≤ 1) && !host.percent &&
      cs.getLast? != some '@'

/-! ## Whole addresses -/

/-- Whether a character may stand in a scheme. -/
def isSchemeChar (c : Char) : Bool := c.isAlphanum || ['+', '-', '.', '~'].contains c

/-- How many characters a scheme may have. -/
def maxScheme : Nat := 64

/-- The address given with or without a scheme, but not as a path. -/
def ofFull? (cs : List Char) : Option Uri :=
  let scheme := cs.takeWhile isSchemeChar
  match cs.drop scheme.length with
  | ':' :: '/' :: '/' :: rest =>
    let authority := rest.takeWhile fun c => !endsAuthority c
    if scheme.length ≤ maxScheme ∧ !authority.isEmpty ∧ isAuthority authority then
      ofTail? (rest.drop authority.length)
    else none
  | _ => if isAuthority cs then some ⟨"", ""⟩ else none

/-- The address that a text spells. -/
def ofText? (s : String) : Option Uri :=
  if maxBytes < s.utf8ByteSize then none
  else match s.toList with
    | [] => none
    | ['*'] => some ⟨"*", ""⟩
    | '/' :: rest => ofTail? ('/' :: rest)
    | cs => ofFull? cs

end Uri

end Gatehouse.Http
