/-!
# Hexadecimal digits

Numbers written in base sixteen at a fixed width, and read back in either letter case.
-/

namespace Gatehouse.Text.Hex

/-- The small digit for a number below sixteen. -/
def digit (n : Nat) : Char :=
  if n < 10 then Char.ofNat (48 + n) else Char.ofNat (87 + n)

/-- The number a digit stands for, in either letter case. -/
def value? (c : Char) : Option Nat :=
  if '0' ≤ c ∧ c ≤ '9' then some (c.toNat - 48)
  else if 'a' ≤ c ∧ c ≤ 'f' then some (c.toNat - 87)
  else if 'A' ≤ c ∧ c ≤ 'F' then some (c.toNat - 55)
  else none

theorem value?_digit {n : Nat} (h : n < 16) : value? (digit n) = some n := by
  revert h; revert n; decide

/-- The last `width` digits of a number, most significant first. -/
def digits : Nat → Nat → List Char
  | 0, _ => []
  | width + 1, n => digits width (n / 16) ++ [digit (n % 16)]

@[simp] theorem length_digits (width n : Nat) : (digits width n).length = width := by
  induction width generalizing n with
  | zero => rfl
  | succ width ih => simp [digits, ih]

theorem digit_ne_hyphen {n : Nat} (h : n < 16) : digit n ≠ '-' := by
  revert h; revert n; decide

theorem hyphen_not_mem_digits (width n : Nat) : '-' ∉ digits width n := by
  induction width generalizing n with
  | zero => exact List.not_mem_nil
  | succ width ih =>
    rw [digits, List.mem_append, List.mem_singleton]
    rintro (h | h)
    · exact ih _ h
    · exact digit_ne_hyphen (Nat.mod_lt n (by decide : 0 < 16)) h.symm

/-- The number that digits spell behind the number `acc`. -/
def readFrom? : Nat → List Char → Option Nat
  | acc, [] => some acc
  | acc, c :: cs => (value? c).bind fun d => readFrom? (acc * 16 + d) cs

/-- The number that digits spell. -/
def read? (cs : List Char) : Option Nat := readFrom? 0 cs

theorem readFrom?_append (acc : Nat) (xs ys : List Char) :
    readFrom? acc (xs ++ ys) = (readFrom? acc xs).bind fun n => readFrom? n ys := by
  induction xs generalizing acc with
  | nil => rfl
  | cons x xs ih =>
    simp only [List.cons_append, readFrom?]
    cases value? x with
    | none => rfl
    | some d => exact ih _

theorem readFrom?_digits (acc width n : Nat) (h : n < Nat.pow 16 width) :
    readFrom? acc (digits width n) = some (acc * Nat.pow 16 width + n) := by
  induction width generalizing n with
  | zero => simp [digits, readFrom?] at *; omega
  | succ width ih =>
    have hq : n / 16 < Nat.pow 16 width := by
      rw [Nat.div_lt_iff_lt_mul (by decide)]; exact h
    rw [digits, readFrom?_append, ih _ hq]
    simp only [Option.bind_some, readFrom?, value?_digit (Nat.mod_lt n (by decide : 0 < 16))]
    have hs : Nat.pow 16 (width + 1) = Nat.pow 16 width * 16 := rfl
    rw [hs, Nat.add_mul, Nat.mul_assoc, Nat.add_assoc, Nat.div_add_mod' n 16]

/-- Digits wide enough for a number spell that number. -/
theorem read?_digits {width n : Nat} (h : n < Nat.pow 16 width) :
    read? (digits width n) = some n := by
  simp [read?, readFrom?_digits 0 width n h]

end Gatehouse.Text.Hex
