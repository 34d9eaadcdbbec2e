import Gatehouse.Json.Basic

/-!
# The size of numbers

A number in JSON may be of any size, but a reader that has to name its value holds it as a
double and gives up on one that is too large.  The value is then the product of two rounded
factors, a whole number below 2⁶⁴ and a power of ten, and it is too large when that product
rounds to infinity.  Whether it is shows when all of it has been read, unless its power of ten
alone has too many digits.
-/

namespace Gatehouse.Numeral

/-- The largest whole number of sixty-four bits. -/
def maxWord : Nat := Nat.pow 2 64 - 1

/-- The whole number that leading digits spell while it stays below 2⁶⁴, and how many digits are
left over from the first that would take it further. -/
def leading : Nat → List Nat → Nat × Nat
  | n, [] => (n, 0)
  | n, d :: ds => if n * 10 + d ≤ maxWord then leading (n * 10 + d) ds else (n, (d :: ds).length)

/-- The digits of a number, most significant first. -/
def digitsOf (n : Nat) : List Nat := (Nat.toDigits 10 n).map fun c => c.toNat - 48

/-- The whole factor of a numeral and the power of ten it is multiplied by. -/
def scaled (n : Numeral) : Nat × Int :=
  let (whole, beyond) := leading 0 (digitsOf n.whole)
  let (factor, dropped) := leading whole (n.fraction.map Fin.val)
  (factor, beyond - ((n.fraction.length - dropped : Nat) : Int) + n.exponent.getD 0)

/-- A number rounded to fifty-three significant bits, a half to the even neighbour. -/
def roundToDouble (n : Nat) : Nat :=
  let unit := Nat.pow 2 (n.log2 - 52)
  let quotient := n / unit
  let rest := n % unit
  if unit < 2 * rest ∨ (unit = 2 * rest ∧ quotient % 2 = 1) then (quotient + 1) * unit
  else quotient * unit

/-- Below this number, and only there, a product rounds to a finite double. -/
def overflowBound : Nat := Nat.pow 2 1024 - Nat.pow 2 970

/-- Whether the number can be held as a double. -/
def fits (n : Numeral) : Bool :=
  let (factor, power) := n.scaled
  factor == 0 || decide (power ≤ 0) ||
    (decide (power ≤ 308) &&
      decide (roundToDouble factor * roundToDouble (Nat.pow 10 power.toNat) < overflowBound))

/-- The largest power of ten that is counted. -/
def maxPower : Int := 2147483647

/-- Whether the digits of the power of ten are read to the last: counting stops at the first digit
that takes it beyond `maxPower`. -/
def powerIsCounted (n : Numeral) : Bool := decide (n.exponent.getD 0 ≤ maxPower * 10 + 9)

end Gatehouse.Numeral
