/-!
# Blanks, words and letter case

Settings, names and header values arrive as free text.  What counts as a blank, what is left of
a text once the blanks around it are gone, and how letter case is folded is settled here for
the whole library.

A blank is a character with the Unicode property White_Space.  The zero-width space and the
byte order mark do not have it, so they belong to a word like any letter.
-/

namespace Gatehouse.Text

/-! ## Blanks -/

/-- Whether a character has the Unicode property White_Space: twenty-five characters do. -/
def isBlank (c : Char) : Bool :=
  let n := c.toNat
  (9 ≤ n && n ≤ 13) || n == 0x20 || n == 0x85 || n == 0xA0 || n == 0x1680 ||
    (0x2000 ≤ n && n ≤ 0x200A) || n == 0x2028 || n == 0x2029 || n == 0x202F ||
    n == 0x205F || n == 0x3000

/-- The text without the blanks it begins with. -/
def trimStart (cs : List Char) : List Char := cs.dropWhile isBlank

/-- The text without the blanks it ends with. -/
def trimEnd (cs : List Char) : List Char := (cs.reverse.dropWhile isBlank).reverse

/-- The text without the blanks around it. -/
def trim (cs : List Char) : List Char := trimEnd (trimStart cs)

/-- `trim` on strings. -/
def trimmed (s : String) : String := String.ofList (trim s.toList)

@[simp] theorem toList_trimmed (s : String) : (trimmed s).toList = trim s.toList :=
  String.toList_ofList

/-- The words of a text: its longest runs without a blank, in order. -/
def words (cs : List Char) : List (List Char) :=
  (cs.splitOnP isBlank).filter (fun w => !w.isEmpty)

/-! ## Letter case

Letter case is folded for ASCII letters only; every other character stands for itself. -/

/-- The text with its ASCII capitals made small. -/
def lowerAscii (s : String) : String := String.ofList (s.toList.map Char.toLower)

/-- The text with its small ASCII letters made capitals. -/
def upperAscii (s : String) : String := String.ofList (s.toList.map Char.toUpper)

end Gatehouse.Text
