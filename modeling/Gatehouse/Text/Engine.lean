import Gatehouse.Text.Pattern

/-!
# Engines

Patterns are compared with texts by an engine that is no part of this library.  It takes a pattern
to mean what `Pattern.Finds` says, but it compiles the pattern first, and refuses one that would
become too large; a refused pattern matches nothing.  Which patterns these are is the engine's own
affair, so whatever is asked of permissions takes an engine as given, and a statement that needs a
pattern to be compiled says so.
-/

namespace Gatehouse.Text

/-- What compares patterns with texts. -/
class Engine where
  /-- whether a pattern is compiled, and not refused as too large -/
  compiles : List Char → Bool

namespace Engine

/-- About how many bytes a piece of a pattern is compiled to.  A character takes a state for each of
its bytes; a run of any characters is told byte by byte from ill-formed text, which takes about a
kilobyte. -/
def estimate : Pattern.Piece → Nat
  | .once (.exactly c) => 32 * c.utf8Size
  | .once .any => 1000
  | .run _ => 1041
  | .start => 32
  | .finish => 32

/-- The engine that stands in where none is given: it compiles to ten mebibytes at most, as far as
that can be estimated.  Only concrete runs use it; what is said of all inputs is said of every
engine. -/
instance (priority := low) standIn : Engine where
  compiles pattern :=
    match Pattern.read? pattern with
    | some pieces =>
      decide (pieces.foldr (fun piece size => estimate piece + size) 0 ≤ 10 * 1024 * 1024)
    | none => false

end Engine

end Gatehouse.Text
