/-!
# Decimal digits

Numbers written in base ten, at their natural width or filled with zeros, and read back digit
by digit.
-/

namespace Gatehouse.Text.Decimal

/-- The digit for a number below ten. -/
def digit (n : Nat) : Char := Char.ofNat (48 + n)

/-- Whether a character is one of the ten ASCII digits. -/
def isDigit (c : Char) : Bool := '0' ≤ c && c ≤ '9'

/-- The number a digit stands for. -/
def value (c : Char) : Nat := c.toNat - 48

theorem isDigit_digit {n : Nat} (h : n < 10) : isDigit (digit n) = true := by
  revert h; revert n; decide

theorem value_digit {n : Nat} (h : n < 10) : value (digit n) = n := by
  revert h; revert n; decide

/-- The last `width` digits of a number, most significant first. -/
def digits : Nat → Nat → List Char
  | 0, _ => []
  | width + 1, n => digits width (n / 10) ++ [digit (n % 10)]

@[simp] theorem length_digits (width n : Nat) : (digits width n).length = width := by
  induction width generalizing n with
  | zero => rfl
  | succ width ih => simp [digits, ih]

/-- How many digits a number has, at least one. -/
def width (n : Nat) : Nat := if n < 10 then 1 else width (n / 10) + 1

theorem lt_pow_width (n : Nat) : n < Nat.pow 10 (width n) := by
  induction n using width.induct with
  | case1 n h => rw [width, if_pos h]; omega
  | case2 n h ih =>
    rw [width, if_neg h]
    have hs : Nat.pow 10 (width (n / 10) + 1) = Nat.pow 10 (width (n / 10)) * 10 := rfl
    omega

/-- A number in its natural width. -/
def natural (n : Nat) : List Char := digits (width n) n

/-- A number filled with zeros to at least `least` digits. -/
def padded (least n : Nat) : List Char := digits (max least (width n)) n

/-- An integer, with a minus sign when it is negative. -/
def signed (i : Int) : List Char :=
  if i < 0 then '-' :: natural i.natAbs else natural i.natAbs

/-- The number that digits spell behind the number `acc`. -/
def readFrom (acc : Nat) (cs : List Char) : Nat := cs.foldl (fun n c => n * 10 + value c) acc

/-- The number that digits spell. -/
def read (cs : List Char) : Nat := readFrom 0 cs

theorem readFrom_digits (acc width n : Nat) (h : n < Nat.pow 10 width) :
    readFrom acc (digits width n) = acc * Nat.pow 10 width + n := by
  induction width generalizing n with
  | zero => simp [digits, readFrom] at *; omega
  | succ width ih =>
    have hq : n / 10 < Nat.pow 10 width := by
      rw [Nat.div_lt_iff_lt_mul (by decide)]; exact h
    have hi := ih _ hq
    simp only [readFrom] at hi ⊢
    have hs : Nat.pow 10 (width + 1) = Nat.pow 10 width * 10 := rfl
    rw [digits, List.foldl_append, hi, List.foldl_cons, List.foldl_nil,
      value_digit (Nat.mod_lt n (by decide : 0 < 10)), hs, Nat.add_mul, Nat.mul_assoc,
      Nat.add_assoc, Nat.div_add_mod' n 10]

/-- A number in its natural width spells itself. -/
theorem read_natural (n : Nat) : read (natural n) = n := by
  simp [read, natural, readFrom_digits 0 _ n (lt_pow_width n)]

theorem all_isDigit_digits (width n : Nat) : (digits width n).all isDigit = true := by
  induction width generalizing n with
  | zero => rfl
  | succ width ih =>
    simp [digits, ih, isDigit_digit (Nat.mod_lt n (by decide : 0 < 10))]

/-! ## The first digit -/

theorem natural_of_lt {n : Nat} (h : n < 10) : natural n = [digit n] := by
  rw [natural, width, if_pos h, digits, digits, Nat.mod_eq_of_lt h]
  rfl

theorem natural_of_ge {n : Nat} (h : 10 ≤ n) :
    natural n = natural (n / 10) ++ [digit (n % 10)] := by
  rw [natural, width, if_neg (Nat.not_lt.2 h), digits]
  rfl

/-- A number has no leading zeros. -/
theorem head?_natural {n : Nat} (h : 0 < n) :
    ∃ d, 0 < d ∧ d < 10 ∧ (natural n).head? = some (digit d) := by
  induction n using width.induct with
  | case1 n hn => exact ⟨n, h, hn, by rw [natural_of_lt hn]; rfl⟩
  | case2 n hn ih =>
    have hge : 10 ≤ n := Nat.not_lt.1 hn
    obtain ⟨d, hpos, hlt, hhead⟩ := ih (by omega)
    refine ⟨d, hpos, hlt, ?_⟩
    rw [natural_of_ge hge, List.head?_append, hhead]
    rfl

end Gatehouse.Text.Decimal
