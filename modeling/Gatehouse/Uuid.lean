import Gatehouse.Text.Hex

/-!
# UUIDs

Users, roles and permissions are named by 128-bit numbers.  They are written as five groups of
small hexadecimal digits joined by hyphens, and read in any letter case in that form, without
the hyphens, in braces, or behind `urn:uuid:`; only the hyphenated form may be wrapped.
-/

namespace Gatehouse

/-- A 128-bit identifier. -/
structure Uuid where
  val : Nat
  isLt : val < Nat.pow 2 128
deriving DecidableEq

namespace Uuid

/-- The identifier with the given number, reduced to 128 bits. -/
def ofNat (n : Nat) : Uuid := ⟨n % Nat.pow 2 128, Nat.mod_lt n (by decide)⟩

instance : Inhabited Uuid := ⟨ofNat 0⟩

/-! ## Writing -/

/-- How many digits each group of the hyphenated form has. -/
def groupSizes : List Nat := [8, 4, 4, 4, 12]

/-- A list cut into consecutive groups of the given sizes. -/
def cut : List Nat → List Char → List (List Char)
  | [], _ => []
  | n :: sizes, cs => cs.take n :: cut sizes (cs.drop n)

/-- The hyphenated form, as characters. -/
def toChars (u : Uuid) : List Char :=
  ['-'].intercalate (cut groupSizes (Text.Hex.digits 32 u.val))

/-- The hyphenated form. -/
def text (u : Uuid) : String := String.ofList u.toChars

/-! ## Reading -/

/-- The identifier that thirty-two digits spell. -/
def ofDigits? (cs : List Char) : Option Uuid :=
  if cs.length = 32 then
    (Text.Hex.read? cs).bind fun n => if h : n < Nat.pow 2 128 then some ⟨n, h⟩ else none
  else none

/-- The identifier in hyphenated form. -/
def ofHyphenated? (cs : List Char) : Option Uuid :=
  let groups := cs.splitOn '-'
  if groups.map List.length = groupSizes then ofDigits? groups.flatten else none

/-- What a name for the UUID namespace begins with. -/
def urnScheme : List Char := "urn:uuid:".toList

/-- The identifier that a text spells in one of the accepted forms. -/
def ofChars? (cs : List Char) : Option Uuid :=
  if cs.length = 32 then ofDigits? cs
  else if cs.length = 36 then ofHyphenated? cs
  else if cs.length = 38 ∧ cs.head? = some '{' ∧ cs.getLast? = some '}' then
    ofHyphenated? (cs.drop 1).dropLast
  else if cs.length = 45 ∧ (cs.take 9).map Char.toLower = urnScheme then
    ofHyphenated? (cs.drop 9)
  else none

/-- `ofChars?` on strings. -/
def ofText? (s : String) : Option Uuid := ofChars? s.toList

/-! ## Reading what was written -/

theorem mem_of_mem_cut {sizes : List Nat} {cs group : List Char} {c : Char}
    (h : group ∈ cut sizes cs) (hc : c ∈ group) : c ∈ cs := by
  induction sizes generalizing cs with
  | nil => exact absurd h List.not_mem_nil
  | cons n sizes ih =>
    rcases List.mem_cons.1 h with rfl | h
    · exact List.mem_of_mem_take hc
    · exact List.mem_of_mem_drop (ih h)

theorem flatten_cut {sizes : List Nat} {cs : List Char} (h : cs.length ≤ sizes.foldr (· + ·) 0) :
    (cut sizes cs).flatten = cs := by
  induction sizes generalizing cs with
  | nil =>
    rw [List.foldr_nil] at h
    rw [List.eq_nil_of_length_eq_zero (Nat.le_zero.1 h)]
    rfl
  | cons n sizes ih =>
    rw [List.foldr_cons] at h
    have hrest : (cs.drop n).length ≤ sizes.foldr (· + ·) 0 := by
      rw [List.length_drop]
      omega
    rw [cut, List.flatten_cons, ih hrest, List.take_append_drop]

theorem map_length_cut {sizes : List Nat} {cs : List Char} (h : sizes.foldr (· + ·) 0 ≤ cs.length) :
    (cut sizes cs).map List.length = sizes := by
  induction sizes generalizing cs with
  | nil => rfl
  | cons n sizes ih =>
    rw [List.foldr_cons] at h
    have hfirst : (cs.take n).length = n := by
      rw [List.length_take]
      omega
    have hrest : sizes.foldr (· + ·) 0 ≤ (cs.drop n).length := by
      rw [List.length_drop]
      omega
    rw [cut, List.map_cons, ih hrest, hfirst]

theorem ofDigits?_digits (u : Uuid) : ofDigits? (Text.Hex.digits 32 u.val) = some u := by
  have hread := Text.Hex.read?_digits (show u.val < Nat.pow 16 32 from u.isLt)
  rw [ofDigits?, if_pos (Text.Hex.length_digits ..), hread, Option.bind_some, dif_pos u.isLt]

/-- The groups of the hyphenated form. -/
theorem splitOn_toChars (u : Uuid) :
    u.toChars.splitOn '-' = cut groupSizes (Text.Hex.digits 32 u.val) := by
  refine List.splitOn_intercalate '-' (fun group hgroup hhyphen => ?_) (by simp [cut, groupSizes])
  exact Text.Hex.hyphen_not_mem_digits 32 u.val (mem_of_mem_cut hgroup hhyphen)

theorem length_toChars (u : Uuid) : u.toChars.length = 36 := by
  simp [toChars, cut, groupSizes, List.intercalate, List.intersperse]

/-- An identifier is read back from its text. -/
@[simp] theorem ofText?_text (u : Uuid) : ofText? u.text = some u := by
  have hlen : (Text.Hex.digits 32 u.val).length = groupSizes.foldr (· + ·) 0 :=
    Text.Hex.length_digits ..
  rw [ofText?, text, String.toList_ofList, ofChars?, length_toChars, if_neg (by decide), if_pos rfl]
  simp only [ofHyphenated?, splitOn_toChars]
  rw [if_pos (map_length_cut (Nat.le_of_eq hlen.symm)), flatten_cut (Nat.le_of_eq hlen),
    ofDigits?_digits]

end Uuid

end Gatehouse
