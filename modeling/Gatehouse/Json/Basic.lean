import Gatehouse.Text.Decimal

/-!
# JSON values

The values that are written into tokens and answers.  A number keeps the parts it is spelled
with, so that whole numbers of any size are exact and tell themselves apart from `1.0`.
-/

namespace Gatehouse

/-- A number as JSON spells it: an optional minus sign, a whole part without leading zeros, the
digits of a fraction, and an optional power of ten. -/
structure Numeral where
  negative : Bool
  whole : Nat
  fraction : List (Fin 10)
  exponent : Option Int
deriving DecidableEq

namespace Numeral

/-- A whole number. -/
def ofInt (i : Int) : Numeral := ⟨i < 0, i.natAbs, [], none⟩

/-- The whole number that a numeral spells.  One with a fraction or a power of ten spells none,
whatever its value, and neither does a zero with a minus sign. -/
def toInt? (n : Numeral) : Option Int :=
  if n.fraction = [] ∧ n.exponent = none then
    if n.negative then (if n.whole = 0 then none else some (-(n.whole : Int))) else some n.whole
  else none

@[simp] theorem toInt?_ofInt (i : Int) : (ofInt i).toInt? = some i := by
  by_cases h : i < 0
  · have h0 : i.natAbs ≠ 0 := by omega
    simp only [toInt?, ofInt, h, decide_true, and_self, if_true, if_neg h0, Option.some.injEq]
    omega
  · simp only [toInt?, ofInt, h, decide_false, and_self, if_true, Bool.false_eq_true, if_false,
      Option.some.injEq]
    omega

end Numeral

/-- A JSON value; the members of an object keep their order. -/
inductive Json where
  | null
  | bool (b : Bool)
  | number (n : Numeral)
  | text (s : String)
  | array (items : List Json)
  | object (members : List (String × Json))

namespace Json

/-- A whole number. -/
def int (i : Int) : Json := .number (Numeral.ofInt i)

end Json

end Gatehouse
