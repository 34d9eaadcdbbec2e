/-!
# Globs

A glob is a text in which every `*` stands for any run of characters other than a line feed and
every other character stands for itself.  A glob is compared with a text as a whole.

`Covers` says what that means: the literals between the stars occur in the text in order, with
a run of the allowed characters in each gap.  `accepts` decides it in time proportional to the
product of the two lengths, by computing for each tail of the glob which tails of the text it
covers, so no choice of gaps is ever tried twice.
-/

namespace Gatehouse.Text.Glob

/-- The literals of a glob: the texts between its stars, one more than there are stars. -/
def literals (glob : List Char) : List (List Char) := glob.splitOn '*'

/-- `Covers ls text`: the text is the literals `ls` in order with a run free of line feeds
between each two of them. -/
inductive Covers : List (List Char) → List Char → Prop
  | last (l : List Char) : Covers [l] l
  | next {l run : List Char} {ls : List (List Char)} {rest : List Char} :
      '\n' ∉ run → Covers ls rest → Covers (l :: ls) (l ++ run ++ rest)

/-! ## Deciding coverage -/

/-- One literal character: a tail is covered when it starts with `c` and the tail after that is
covered by what follows `c` in the glob. -/
def matchChar (c : Char) : List Char → List Bool → List Bool
  | x :: text, _ :: later => (x == c && later.headD false) :: matchChar c text later
  | _, _ => [false]

/-- One star: a tail is covered when what follows the star covers it, or when it starts with a
character a star may stand for and the tail after that is covered. -/
def matchStar : List Char → List Bool → List Bool
  | x :: text, b :: later =>
    let shorter := matchStar text later
    (b || (x != '\n' && shorter.headD false)) :: shorter
  | _, later => later

/-- For each tail of the text, longest first, whether the glob covers it. -/
def coveredTails : List Char → List Char → List Bool
  | [], text => text.map (fun _ => false) ++ [true]
  | c :: glob, text =>
    let later := coveredTails glob text
    if c = '*' then matchStar text later else matchChar c text later

/-- Whether the glob covers the text. -/
def accepts (glob text : List Char) : Bool := (coveredTails glob text).headD false

end Gatehouse.Text.Glob
