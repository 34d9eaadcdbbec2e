import Gatehouse.Json.Document
import Gatehouse.Json.Printer
import Mathlib.Tactic.Lemma

/-!
# Numbers in JSON, written and read

A number is written digit by digit and read back by taking digits for as long as there are any.
So reading gives back the number only if what follows would not make it longer (`EndsNumber`), and
each part of a number has to end where the next one begins: a whole part at a point or an `e`, a
fraction at an `e`.  The lemmas follow the parts from the last to the first.
-/

namespace Gatehouse

open Text Text.Utf8

namespace Document

/-! ## Digits -/

section Digits

variable {c : Char} {cs : List Char} {rest : List UInt8}

lemma digit_bounds (h : Decimal.isDigit c = true) : 48 ≤ c.toNat ∧ c.toNat ≤ 57 := by
  simp only [Decimal.isDigit, Bool.and_eq_true, decide_eq_true_eq] at h
  exact h

lemma utf8EncodeChar_digit (h : Decimal.isDigit c = true) :
    ∃ b : UInt8, String.utf8EncodeChar c = [b] ∧ isDigit b = true ∧
      (digitValue b).val = Decimal.value c := by
  obtain ⟨hlo, hhi⟩ := digit_bounds h
  have hb : (UInt8.ofNat c.toNat).toNat = c.toNat := by
    rw [UInt8.toNat_ofNat']
    omega
  refine ⟨UInt8.ofNat c.toNat, utf8EncodeChar_ascii (by omega), ?_, ?_⟩
  · simp only [isDigit, Bool.and_eq_true, decide_eq_true_eq, UInt8.le_iff_toNat_le, hb]
    exact ⟨hlo, hhi⟩
  · simp only [digitValue, Fin.ofNat, hb, Decimal.value]
    omega

lemma all_isDigit_encodeChars (h : cs.all Decimal.isDigit = true) :
    ∀ b ∈ encodeChars cs, isDigit b = true := by
  intro b hb
  obtain ⟨c, hc, hbc⟩ := List.mem_flatMap.1 hb
  obtain ⟨d, hd, hdigit, -⟩ := utf8EncodeChar_digit (List.all_eq_true.1 h c hc)
  rw [hd, List.mem_singleton] at hbc
  rwa [hbc]

lemma readNat_encodeChars (h : cs.all Decimal.isDigit = true) :
    readNat (encodeChars cs) = Decimal.read cs := by
  -- Stated for any number read so far, which is what grows along the digits.
  have hfrom : ∀ acc, (encodeChars cs).foldl (fun n b => n * 10 + (digitValue b).val) acc =
      Decimal.readFrom acc cs := by
    induction cs with
    | nil => exact fun acc => rfl
    | cons c cs ih =>
      intro acc
      obtain ⟨hc, hcs⟩ := Bool.and_eq_true_iff.1 h
      obtain ⟨d, hd, -, hvalue⟩ := utf8EncodeChar_digit hc
      rw [encodeChars_cons, hd, List.singleton_append, List.foldl_cons, hvalue]
      exact ih hcs _
  exact hfrom 0

/-- No digit stands at the front of the bytes. -/
def NoDigit (bytes : List UInt8) : Prop := ∀ b ∈ bytes.head?, isDigit b = false

lemma NoDigit.takeWhile (h : NoDigit rest) {ds : List UInt8} (hds : ∀ b ∈ ds, isDigit b = true) :
    (ds ++ rest).takeWhile isDigit = ds := by
  rw [List.takeWhile_append_of_pos hds]
  cases rest with
  | nil => simp
  | cons b bs =>
    rw [List.takeWhile_cons_of_neg (by simp [h b rfl]), List.append_nil]

lemma encodeChars_natural_ne_nil (n : Nat) : encodeChars (Decimal.natural n) ≠ [] := by
  rcases Nat.lt_or_ge n 10 with h | h
  · rw [Decimal.natural_of_lt h, encodeChars_cons]
    exact List.append_ne_nil_of_left_ne_nil String.utf8EncodeChar_ne_nil _
  · rw [Decimal.natural_of_ge h, encodeChars_append, encodeChars_cons]
    exact List.append_ne_nil_of_right_ne_nil _
      (List.append_ne_nil_of_left_ne_nil String.utf8EncodeChar_ne_nil _)

lemma isDigit_of_mem_natural (n : Nat) :
    ∀ b ∈ encodeChars (Decimal.natural n), isDigit b = true :=
  all_isDigit_encodeChars (Decimal.all_isDigit_digits _ n)

@[simp] lemma readNat_natural (n : Nat) : readNat (encodeChars (Decimal.natural n)) = n := by
  have hall : (Decimal.natural n).all Decimal.isDigit = true := Decimal.all_isDigit_digits _ n
  rw [readNat_encodeChars hall, Decimal.read_natural]

end Digits

/-! ## Numbers -/

section Numbers

variable {rest : List UInt8}

lemma readWhole_natural (n : Nat) (hrest : NoDigit rest) :
    readWhole (encodeChars (Decimal.natural n) ++ rest) = some (n, rest) := by
  have hdigits := hrest.takeWhile (isDigit_of_mem_natural n)
  -- A whole part is refused where no digit stands, and where a zero leads further digits.
  have hfew : ¬((encodeChars (Decimal.natural n)).isEmpty ∨
      ((encodeChars (Decimal.natural n)).head? = some 0x30 ∧
        (encodeChars (Decimal.natural n)).length ≠ 1)) := by
    rintro (hempty | ⟨hzero, hmany⟩)
    · exact encodeChars_natural_ne_nil n (List.isEmpty_iff.1 hempty)
    · rcases Nat.eq_zero_or_pos n with rfl | hpos
      · rw [Decimal.natural_of_lt (by decide : 0 < 10)] at hmany
        exact hmany rfl
      · obtain ⟨d, hd, hlt, hhead⟩ := Decimal.head?_natural hpos
        obtain ⟨tail, htail⟩ : ∃ tail, Decimal.natural n = Decimal.digit d :: tail :=
          List.head?_eq_some_iff.1 hhead
        obtain ⟨b, hb, -, hvalue⟩ := utf8EncodeChar_digit (Decimal.isDigit_digit hlt)
        rw [htail, encodeChars_cons, hb] at hzero
        obtain rfl : b = 0x30 := Option.some.inj hzero
        rw [Decimal.value_digit hlt] at hvalue
        exact Nat.ne_of_lt hd hvalue
  simp only [readWhole, hdigits]
  rw [if_neg hfew, readNat_natural, List.drop_left]

lemma map_digitValue_encodeChars (ds : List (Fin 10)) :
    (encodeChars (ds.map fun d => Decimal.digit d.val)).map digitValue = ds := by
  induction ds with
  | nil => rfl
  | cons d ds ih =>
    obtain ⟨b, hb, -, hvalue⟩ := utf8EncodeChar_digit (Decimal.isDigit_digit d.isLt)
    rw [Decimal.value_digit d.isLt] at hvalue
    rw [List.map_cons, encodeChars_cons, hb, List.singleton_append, List.map_cons, ih,
      Fin.ext hvalue]

/-- The digits of a fraction behind their point, where there are any. -/
def fractionChars (ds : List (Fin 10)) : List Char :=
  if ds = [] then [] else '.' :: ds.map fun d => Decimal.digit d.val

/-- A power of ten behind its letter, where there is one. -/
def exponentChars : Option Int → List Char
  | none => []
  | some e => 'e' :: Decimal.signed e

lemma readFraction_fractionChars (ds : List (Fin 10)) (hrest : NoDigit rest)
    (hpoint : rest.head? ≠ some 0x2E) :
    readFraction (encodeChars (fractionChars ds) ++ rest) = some (ds, rest) := by
  unfold fractionChars
  split
  · next h =>
    subst h
    cases rest with
    | nil => rfl
    | cons b bs =>
      have hb : b ≠ 0x2E := fun h => hpoint (congrArg some h)
      simp only [encodeChars_nil, List.nil_append]
      unfold readFraction
      split
      · next h => exact absurd (List.cons.inj h).1 hb
      · rfl
  · next h =>
    have hall : (ds.map fun d => Decimal.digit d.val).all Decimal.isDigit = true := by
      simp [Decimal.isDigit_digit]
    have hvalues := map_digitValue_encodeChars ds
    have hpointByte : String.utf8EncodeChar '.' = [0x2E] := rfl
    have hne : (encodeChars (ds.map fun d => Decimal.digit d.val)).isEmpty = false := by
      cases hds : encodeChars (ds.map fun d => Decimal.digit d.val) with
      | nil =>
        rw [hds] at hvalues
        exact absurd hvalues.symm h
      | cons b bs => rfl
    rw [encodeChars_cons, hpointByte, List.singleton_append, List.cons_append]
    simp only [readFraction]
    rw [hrest.takeWhile (all_isDigit_encodeChars hall), hne, hvalues, List.drop_left]
    rfl

lemma readExponent_none (h : ∀ b ∈ rest.head?, b ≠ 0x65 ∧ b ≠ 0x45) :
    readExponent rest = some (none, rest) := by
  cases rest with
  | nil => rfl
  | cons b bs =>
    obtain ⟨hsmall, hlarge⟩ := h b rfl
    simp only [readExponent]
    rw [if_neg (not_or.2 ⟨hsmall, hlarge⟩)]

/-- A power of ten whose digits follow an optional minus sign. -/
lemma readExponent_digits (negative : Bool) {ds : List UInt8} (hne : ds ≠ [])
    (hds : ∀ b ∈ ds, isDigit b = true) (hrest : NoDigit rest) :
    readExponent (0x65 :: ((if negative then [0x2D] else []) ++ ds ++ rest)) =
      some (some (if negative then -(readNat ds : Int) else readNat ds), rest) := by
  have hdigits := hrest.takeWhile hds
  have hempty : ds.isEmpty = false := List.isEmpty_eq_false_iff.2 hne
  cases negative with
  | true =>
    simp only [if_true, List.cons_append, List.nil_append, readExponent, true_or, hdigits,
      hempty, Bool.false_eq_true, if_false, List.drop_left]
  | false =>
    obtain ⟨b, bs, rfl⟩ := List.exists_cons_of_ne_nil hne
    have hb := hds b List.mem_cons_self
    have hminus : b ≠ 0x2D := by
      rintro rfl
      exact absurd hb (by decide)
    have hplus : b ≠ 0x2B := by
      rintro rfl
      exact absurd hb (by decide)
    rw [List.cons_append] at hdigits
    simp [readExponent, hminus, hplus, hdigits]

lemma readExponent_exponentChars (e : Int) (hrest : NoDigit rest) :
    readExponent (encodeChars (exponentChars (some e)) ++ rest) = some (some e, rest) := by
  have hletter : String.utf8EncodeChar 'e' = [0x65] := rfl
  have hminus : String.utf8EncodeChar '-' = [0x2D] := rfl
  have hread := readExponent_digits (decide (e < 0)) (encodeChars_natural_ne_nil e.natAbs)
    (isDigit_of_mem_natural e.natAbs) hrest
  rw [exponentChars, encodeChars_cons, hletter, List.singleton_append, List.cons_append,
    Decimal.signed]
  by_cases he : e < 0
  · have hvalue : -((e.natAbs : Nat) : Int) = e := by omega
    simp only [he, decide_true, if_true, readNat_natural, hvalue, List.cons_append,
      List.nil_append] at hread ⊢
    rwa [encodeChars_cons, hminus]
  · have hvalue : ((e.natAbs : Nat) : Int) = e := by omega
    simp only [he, decide_false, Bool.false_eq_true, if_false, readNat_natural, hvalue,
      List.nil_append] at hread ⊢
    exact hread

/-- What may follow a number: nothing that would make it longer. -/
def EndsNumber (bytes : List UInt8) : Prop :=
  ∀ b ∈ bytes.head?, isDigit b = false ∧ b ≠ 0x2E ∧ b ≠ 0x65 ∧ b ≠ 0x45

lemma EndsNumber.noDigit (h : EndsNumber rest) : NoDigit rest := fun b hb => (h b hb).1

lemma readExponent_append (e : Option Int) (hrest : EndsNumber rest) :
    readExponent (encodeChars (exponentChars e) ++ rest) = some (e, rest) := by
  cases e with
  | none => exact readExponent_none fun b hb => (hrest b hb).2.2
  | some e => exact readExponent_exponentChars e hrest.noDigit

/-- No digit and no point stand in front of what follows a fraction. -/
lemma exponentChars_head (e : Option Int) (hrest : EndsNumber rest) :
    NoDigit (encodeChars (exponentChars e) ++ rest) ∧
      (encodeChars (exponentChars e) ++ rest).head? ≠ some 0x2E := by
  cases e with
  | none => exact ⟨hrest.noDigit, fun h => (hrest _ h).2.1 rfl⟩
  | some e =>
    have hletter : String.utf8EncodeChar 'e' = [0x65] := rfl
    rw [exponentChars, encodeChars_cons, hletter]
    refine ⟨fun b hb => ?_, fun h => ?_⟩
    · obtain rfl : (0x65 : UInt8) = b := Option.some.inj hb
      decide
    · exact absurd (Option.some.inj h) (by decide)

lemma fractionChars_head (ds : List (Fin 10)) (hrest : NoDigit rest) :
    NoDigit (encodeChars (fractionChars ds) ++ rest) := by
  unfold fractionChars
  split
  · exact hrest
  · have hpoint : String.utf8EncodeChar '.' = [0x2E] := rfl
    rw [encodeChars_cons, hpoint]
    intro b hb
    obtain rfl : (0x2E : UInt8) = b := Option.some.inj hb
    decide

lemma readUnsigned_append (negative : Bool) (n : Numeral) (hrest : EndsNumber rest) :
    readUnsigned negative (encodeChars (Decimal.natural n.whole) ++
      (encodeChars (fractionChars n.fraction) ++
        (encodeChars (exponentChars n.exponent) ++ rest))) =
      some (⟨negative, n.whole, n.fraction, n.exponent⟩, rest) := by
  obtain ⟨hdigit, hpoint⟩ := exponentChars_head n.exponent hrest
  have hwhole := readWhole_natural n.whole (fractionChars_head n.fraction hdigit)
  have hfraction := readFraction_fractionChars n.fraction hdigit hpoint
  have hexponent := readExponent_append n.exponent hrest
  simp only [readUnsigned, hwhole, hfraction, hexponent, Option.bind_eq_bind, Option.bind_some]

lemma numeralChars_eq (n : Numeral) :
    Json.numeralChars n = (if n.negative then ['-'] else []) ++ Decimal.natural n.whole ++
      fractionChars n.fraction ++ exponentChars n.exponent := by
  unfold Json.numeralChars fractionChars exponentChars
  cases n.exponent <;> rfl

/-- A number is read back as it was written, whatever follows that would not make it longer. -/
lemma readNumeral_numeralChars (n : Numeral) (hrest : EndsNumber rest) :
    readNumeral (encodeChars (Json.numeralChars n) ++ rest) = some (n, rest) := by
  have hread := readUnsigned_append n.negative n hrest
  rw [numeralChars_eq]
  simp only [encodeChars_append, List.append_assoc]
  cases hsign : n.negative with
  | true =>
    have hminus : encodeChars ['-'] = [0x2D] := rfl
    rw [hsign] at hread
    simp only [if_true, hminus, List.singleton_append, readNumeral, hread]
    rw [← hsign]
  | false =>
    rw [hsign] at hread
    simp only [Bool.false_eq_true, if_false, encodeChars_nil, List.nil_append]
    -- A whole part begins with a digit, so no sign is read where none was written.
    obtain ⟨b, bs, hbytes⟩ := List.exists_cons_of_ne_nil (encodeChars_natural_ne_nil n.whole)
    have hb := isDigit_of_mem_natural n.whole b (hbytes ▸ List.mem_cons_self)
    rw [hbytes] at hread ⊢
    unfold readNumeral
    split
    · next h =>
      rw [(List.cons.inj h).1] at hb
      exact absurd hb (by decide)
    · rw [hread, ← hsign]

end Numbers

end Document

end Gatehouse
