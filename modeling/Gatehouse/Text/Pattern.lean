/-!
# Patterns

A pattern is a regular expression written as a text.  Only as much of that language is read here
as a glob is written in: characters that stand for themselves, with a backslash before those that
would mean something else; a dot for any character but a line feed; a star for a run of what is
before it; and the two anchors.  A text that uses more than this is not read at all.

`ofGlob` writes a glob as a pattern without looking at its structure: every character is escaped,
and each escaped star is then replaced by the pattern of a run.
-/

namespace Gatehouse.Text.Pattern

/-! ## Writing -/

/-- The characters that mean something of their own in a pattern. -/
def specials : List Char :=
  ['\\', '.', '+', '*', '?', '(', ')', '|', '[', ']', '{', '}', '^', '$', '#', '&', '-', '~']

/-- The pattern of a text that stands for itself. -/
def escape : List Char → List Char
  | [] => []
  | c :: rest => if c ∈ specials then '\\' :: c :: escape rest else c :: escape rest

/-- The pattern with each escaped star replaced by a run of any characters, from left to right. -/
def loosen : List Char → List Char
  | '\\' :: '*' :: rest => '.' :: '*' :: loosen rest
  | c :: rest => c :: loosen rest
  | [] => []

/-- The pattern that a glob is compared by, as a whole. -/
def ofGlob (glob : List Char) : List Char := '^' :: (loosen (escape glob) ++ ['$'])

/-! ## Reading -/

/-- What may stand at one place of a text. -/
inductive Atom where
  | exactly (c : Char)
  /-- any character but a line feed -/
  | any
deriving DecidableEq

/-- Whether a character may stand there. -/
def Atom.admits : Atom → Char → Bool
  | exactly c, x => x == c
  | any, x => x != '\n'

/-- The smallest parts of a pattern. -/
inductive Token where
  | start
  | finish
  | star
  | atom (a : Atom)
deriving DecidableEq

/-- What a character means that has no backslash before it. -/
def token? (c : Char) : Option Token :=
  if c = '^' then some .start
  else if c = '$' then some .finish
  else if c = '*' then some .star
  else if c = '.' then some (.atom .any)
  else if c ∈ specials then none
  else some (.atom (.exactly c))

/-- The parts of a pattern in order. -/
def tokens? : List Char → Option (List Token)
  | [] => some []
  | '\\' :: c :: rest =>
    if c ∈ specials then (tokens? rest).map (.atom (.exactly c) :: ·) else none
  | c :: rest => (token? c).bind fun t => (tokens? rest).map (t :: ·)

/-- What a pattern asks for, piece by piece. -/
inductive Piece where
  /-- the text begins here -/
  | start
  /-- the text ends here -/
  | finish
  | once (a : Atom)
  | run (a : Atom)
deriving DecidableEq

/-- The pieces that tokens make up; a star has to follow what it repeats. -/
def pieces? : List Token → Option (List Piece)
  | [] => some []
  | .atom a :: .star :: rest => (pieces? rest).map (.run a :: ·)
  | .atom a :: rest => (pieces? rest).map (.once a :: ·)
  | .start :: rest => (pieces? rest).map (.start :: ·)
  | .finish :: rest => (pieces? rest).map (.finish :: ·)
  | .star :: _ => none

/-- The pieces of a pattern. -/
def read? (pattern : List Char) : Option (List Piece) := (tokens? pattern).bind pieces?

/-! ## Meaning -/

/-- `Matches before pieces rest`: the pieces match what the rest of a text begins with, when
`before` is the text in front of it. -/
inductive Matches : List Char → List Piece → List Char → Prop
  | nil {before rest : List Char} : Matches before [] rest
  | start {pieces : List Piece} {rest : List Char} :
      Matches [] pieces rest → Matches [] (.start :: pieces) rest
  | finish {before : List Char} {pieces : List Piece} :
      Matches before pieces [] → Matches before (.finish :: pieces) []
  | once {before : List Char} {a : Atom} {pieces : List Piece} {x : Char} {rest : List Char} :
      a.admits x = true → Matches (before ++ [x]) pieces rest →
      Matches before (.once a :: pieces) (x :: rest)
  | run {before : List Char} {a : Atom} {pieces : List Piece} {run rest : List Char} :
      (∀ x ∈ run, a.admits x = true) → Matches (before ++ run) pieces rest →
      Matches before (.run a :: pieces) (run ++ rest)

/-- The pattern can be read, and matches somewhere in the text. -/
def Finds (pattern text : List Char) : Prop :=
  ∃ pieces before rest,
    read? pattern = some pieces ∧ text = before ++ rest ∧ Matches before pieces rest

end Gatehouse.Text.Pattern
