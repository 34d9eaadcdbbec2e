import Gatehouse.Proofs.Trimming
import Gatehouse.Time.Rfc3339

/-!
# Times are read back as they were written

A time is written part by part, and each part is read from the front of what was written with the
rest left over: numbers because no digit follows them (`readNumber_digits`), a year because its
sign tells a reader that it may have more than four digits, a fraction because the zeros that were
left out are put back.  What is read of a date is its day number, and a date that was made from a
day number has that one again (`Date.dayNumber_ofDayNumber`).

A leap second is told as nanoseconds that have run on past a second.  At the end of a minute it is
written as second 60, and the reader takes that for second 59 and puts the nanoseconds back.  At
any other second what has run on is written as the second after it, and nothing in the text tells
that it was not that (`Instant.text_carried`): a time with such a leap second is read as the one
with the leap second carried over, and every other time as it is (`Instant.ofText?_text`).
-/

namespace Gatehouse

open Text

/-! ## Digits -/

namespace Text.Decimal

lemma isDigit_of_mem_digits {width n : Nat} {c : Char} (h : c ∈ digits width n) :
    isDigit c = true :=
  List.all_eq_true.1 (all_isDigit_digits width n) c h

lemma read_digits {width n : Nat} (h : n < Nat.pow 10 width) : read (digits width n) = n := by
  rw [read, readFrom_digits 0 width n h, Nat.zero_mul, Nat.zero_add]

lemma width_le {n k : Nat} (h : n < Nat.pow 10 (k + 1)) : width n ≤ k + 1 := by
  induction k generalizing n with
  | zero =>
    rw [width, if_pos (by simpa using h)]
  | succ k ih =>
    unfold width
    split
    · omega
    · have hdiv : n / 10 < Nat.pow 10 (k + 1) := by
        rw [Nat.div_lt_iff_lt_mul (by decide)]
        exact h
      have hrest := ih hdiv
      omega

/-- A digit is no blank. -/
lemma isBlank_of_isDigit {c : Char} (h : isDigit c = true) : isBlank c = false := by
  obtain ⟨hlo, hhi⟩ := Bool.and_eq_true_iff.1 h
  have hlo : 48 ≤ c.toNat := of_decide_eq_true hlo
  have hhi : c.toNat ≤ 57 := of_decide_eq_true hhi
  unfold isBlank
  generalize c.toNat = n at *
  simp only [Bool.or_eq_false_iff, Bool.and_eq_false_iff, decide_eq_false_iff_not,
    beq_eq_false_iff_ne]
  omega

end Text.Decimal

namespace Time

/-! ## Parts -/

/-- The text does not begin with a digit. -/
def NoDigitFirst (cs : List Char) : Prop := ∀ c, cs.head? = some c → Decimal.isDigit c = false

lemma NoDigitFirst.cons {c : Char} (h : Decimal.isDigit c = false) (cs : List Char) :
    NoDigitFirst (c :: cs) := by
  intro d hd
  rwa [← Option.some.inj hd]

section Parts

variable {width n : Nat} {rest : List Char}

lemma takeWhile_digits (hrest : NoDigitFirst rest) :
    (Decimal.digits width n ++ rest).takeWhile Decimal.isDigit = Decimal.digits width n := by
  rw [List.takeWhile_append_of_pos fun c hc => Decimal.isDigit_of_mem_digits hc]
  cases rest with
  | nil => exact List.append_nil _
  | cons c cs =>
    rw [List.takeWhile_cons_of_neg (Bool.eq_false_iff.1 (hrest c rfl)), List.append_nil]

lemma digits_ne_nil (hwidth : 0 < width) : (Decimal.digits width n).isEmpty = false := by
  rw [List.isEmpty_eq_false_iff, ← List.length_pos_iff, Decimal.length_digits]
  exact hwidth

/-- Digits are read as the number that was written with them, when no more of them follow. -/
lemma readNumber_digits {most : Nat} (hwidth : 0 < width) (hmost : width ≤ most)
    (h : n < Nat.pow 10 width) (hrest : NoDigitFirst rest) :
    readNumber most (Decimal.digits width n ++ rest) = some (n, rest) := by
  have htake : (Decimal.digits width n).take most = Decimal.digits width n :=
    List.take_of_length_le (by rwa [Decimal.length_digits])
  simp only [readNumber, takeWhile_digits hrest, htake, digits_ne_nil hwidth, Bool.false_eq_true,
    if_false, Decimal.read_digits h, List.drop_left]

lemma trimStart_digits (hwidth : 0 < width) :
    trimStart (Decimal.digits width n ++ rest) = Decimal.digits width n ++ rest := by
  refine trimStart_eq_self fun c hc => ?_
  rw [List.head?_append_of_ne_nil _ (List.isEmpty_eq_false_iff.1 (digits_ne_nil hwidth))] at hc
  exact Decimal.isBlank_of_isDigit (Decimal.isDigit_of_mem_digits (List.mem_of_mem_head? hc))

lemma readPart_digits (h : n < 100) (hrest : NoDigitFirst rest) :
    readPart (Decimal.digits 2 n ++ rest) = some (n, rest) := by
  rw [readPart, trimStart_digits (by decide)]
  exact readNumber_digits (by decide) (by decide) h hrest

lemma readMark_cons {mark : Char} (h : isBlank mark = false) (rest : List Char) :
    readMark mark (mark :: rest) = some rest := by
  rw [readMark, trimStart_eq_self fun c hc => by rwa [← Option.some.inj hc]]
  exact if_pos rfl

lemma exists_head_digits (hwidth : 0 < width) (n : Nat) :
    ∃ c cs, Decimal.digits width n = c :: cs ∧ Decimal.isDigit c = true := by
  cases hdigits : Decimal.digits width n with
  | nil =>
    have hne := digits_ne_nil (n := n) hwidth
    rw [hdigits] at hne
    exact nomatch hne
  | cons c cs =>
    exact ⟨c, cs, rfl, Decimal.isDigit_of_mem_digits (hdigits ▸ List.mem_cons_self)⟩

/-- A year that begins with a digit has no sign. -/
lemma readYear_cons_digit {c : Char} (hc : Decimal.isDigit c = true) (cs : List Char) :
    readYear (c :: cs) = (readNumber 4 (c :: cs)).map fun (n, rest) => ((n : Int), rest) := by
  have htrim : trimStart (c :: cs) = c :: cs := trimStart_eq_self fun d hd => by
    rw [← Option.some.inj hd]
    exact Decimal.isBlank_of_isDigit hc
  unfold readYear
  rw [htrim]
  split
  · next heq =>
    rw [(List.cons.inj heq).1] at hc
    exact absurd hc (by decide)
  · next heq =>
    rw [(List.cons.inj heq).1] at hc
    exact absurd hc (by decide)
  · rfl

/-- A year behind a sign may have any number of digits. -/
lemma readNumber_padded (hrest : NoDigitFirst rest) :
    readNumber (Decimal.padded 4 n ++ rest).length (Decimal.padded 4 n ++ rest) =
      some (n, rest) := by
  have hpow : n < Nat.pow 10 (max 4 (Decimal.width n)) :=
    Nat.lt_of_lt_of_le (Decimal.lt_pow_width n)
      (Nat.pow_le_pow_right (by decide) (Nat.le_max_right _ _))
  refine readNumber_digits (by omega) ?_ hpow hrest
  rw [Decimal.padded, List.length_append, Decimal.length_digits]
  exact Nat.le_add_right _ _

/-- A year is read as it was written, with a sign or without. -/
lemma readYear_yearChars (year : Int) (hrest : NoDigitFirst rest) :
    readYear (yearChars .standard year ++ rest) = some (year, rest) := by
  have hminus : trimStart ('-' :: (Decimal.padded 4 year.natAbs ++ rest)) =
      '-' :: (Decimal.padded 4 year.natAbs ++ rest) := rfl
  have hplus : trimStart ('+' :: (Decimal.padded 4 year.natAbs ++ rest)) =
      '+' :: (Decimal.padded 4 year.natAbs ++ rest) := rfl
  have hyear : yearChars .standard year =
      if year < 0 then '-' :: Decimal.padded 4 year.natAbs
      else if 9999 < year then '+' :: Decimal.padded 4 year.natAbs
      else Decimal.padded 4 year.natAbs := rfl
  rw [hyear]
  by_cases hneg : year < 0
  · rw [if_pos hneg, List.cons_append]
    simp only [readYear, hminus, readNumber_padded hrest, Option.map_some, Option.some.injEq,
      Prod.mk.injEq, and_true]
    omega
  · rw [if_neg hneg]
    by_cases hlate : 9999 < year
    · rw [if_pos hlate, List.cons_append]
      simp only [readYear, hplus, readNumber_padded hrest, Option.map_some, Option.some.injEq,
        Prod.mk.injEq, and_true]
      omega
    · have hlt : year.natAbs < Nat.pow 10 4 := show year.natAbs < 10000 by omega
      have hwidth : max 4 (Decimal.width year.natAbs) = 4 :=
        Nat.max_eq_left (Decimal.width_le hlt)
      obtain ⟨c, cs, hdigits, hc⟩ := exists_head_digits (show 0 < 4 by decide) year.natAbs
      have hread := readNumber_digits (by decide) (show 4 ≤ 4 by decide) hlt hrest
      rw [if_neg hlate, Decimal.padded, hwidth]
      rw [hdigits] at hread ⊢
      rw [List.cons_append] at hread ⊢
      rw [readYear_cons_digit hc, hread]
      simp only [Option.map_some, Option.some.injEq, Prod.mk.injEq, and_true]
      omega

end Parts

/-! ## Dates -/

/-- The month and the day of a date have two digits at most. -/
lemma Date.ofDayNumber_lt (n : Int) :
    (Date.ofDayNumber n).month < 100 ∧ (Date.ofDayNumber n).day < 100 := by
  obtain ⟨hlo, hhi⟩ := dayOfYear_bounds n
  unfold Date.ofDayNumber
  generalize dayOfYear n = d at *
  dsimp only
  -- January and February belong to the year before, which is why their months are told apart.
  split
  · constructor
    · show ((5 * d + 2) / 153 + 3).toNat < 100
      omega
    · show (d - (153 * ((5 * d + 2) / 153) + 2) / 5 + 1).toNat < 100
      omega
  · constructor
    · show ((5 * d + 2) / 153 - 9).toNat < 100
      omega
    · show (d - (153 * ((5 * d + 2) / 153) + 2) / 5 + 1).toNat < 100
      omega

/-- A date is read as its day number. -/
lemma readDate_date {date : Date} (hexists : date.Exists) (hmonth : date.month < 100)
    (hday : date.day < 100) {rest : List Char} (hrest : NoDigitFirst rest) :
    readDate (yearChars .standard date.year ++ '-' :: (Decimal.digits 2 date.month ++
      '-' :: (Decimal.digits 2 date.day ++ rest))) = some (date.dayNumber, rest) := by
  have hdash : ∀ cs, NoDigitFirst ('-' :: cs) := NoDigitFirst.cons (by decide)
  have hmark : ∀ cs, readMark '-' ('-' :: cs) = some cs := readMark_cons (by decide)
  have hyear := readYear_yearChars date.year (hdash (Decimal.digits 2 date.month ++
    '-' :: (Decimal.digits 2 date.day ++ rest)))
  have hreadMonth := readPart_digits hmonth (hdash (Decimal.digits 2 date.day ++ rest))
  have hreadDay := readPart_digits hday hrest
  simp only [readDate, hyear, hmark, hreadMonth, hreadDay, Option.bind_eq_bind, Option.bind_some,
    if_pos hexists]

/-! ## Times of day -/

/-- Digits behind a point are read as nanoseconds: the zeros that were left out are put back. -/
lemma readFraction_digits {width kept : Nat} (hpos : 0 < width) (hmost : width ≤ 9)
    (hkept : kept < Nat.pow 10 width) {rest : List Char} (hrest : NoDigitFirst rest) :
    readFraction ('.' :: Decimal.digits width kept ++ rest) =
      some (kept * Nat.pow 10 (9 - width), rest) := by
  have htake : (Decimal.digits width kept).take 9 = Decimal.digits width kept :=
    List.take_of_length_le (by rwa [Decimal.length_digits])
  have hdrop : (Decimal.digits width kept ++ rest).drop width = rest :=
    List.drop_left' (Decimal.length_digits width kept)
  simp only [List.cons_append, readFraction, takeWhile_digits hrest, digits_ne_nil hpos,
    Bool.false_eq_true, if_false, htake, Decimal.read_digits hkept, Decimal.length_digits, hdrop]

/-- A fraction is read as the nanoseconds that were written. -/
lemma readFraction_fractionChars {nano : Nat} (h : nano < 1000000000) (rest : List Char) :
    readFraction (fractionChars nano ++ 'Z' :: rest) = some (nano, 'Z' :: rest) := by
  have hzone : NoDigitFirst ('Z' :: rest) := .cons (by decide) rest
  unfold fractionChars
  by_cases hzero : nano = 0
  · rw [if_pos hzero, hzero]
    rfl
  · rw [if_neg hzero]
    by_cases hmilli : nano % 1000000 = 0
    · have hkept : nano / 1000000 < Nat.pow 10 3 := show nano / 1000000 < 1000 by omega
      have hnano : nano / 1000000 * Nat.pow 10 (9 - 3) = nano :=
        show nano / 1000000 * 1000000 = nano by omega
      rw [if_pos hmilli, readFraction_digits (by decide) (by decide) hkept hzone, hnano]
    · rw [if_neg hmilli]
      by_cases hmicro : nano % 1000 = 0
      · have hkept : nano / 1000 < Nat.pow 10 6 := show nano / 1000 < 1000000 by omega
        have hnano : nano / 1000 * Nat.pow 10 (9 - 6) = nano :=
          show nano / 1000 * 1000 = nano by omega
        rw [if_pos hmicro, readFraction_digits (by decide) (by decide) hkept hzone, hnano]
      · have hnano : nano * Nat.pow 10 (9 - 9) = nano := Nat.mul_one nano
        rw [if_neg hmicro, readFraction_digits (by decide) (by decide) h hzone, hnano]

/-- A time of day is read as the second and the nanoseconds that were written; those that have run
on past the last second of a minute are written as second 60. -/
lemma readTimeOfDay_timeChars {second nano : Nat} (hsecond : second < 86400)
    (hnano : nano < 1000000000 ∨ nano < 2000000000 ∧ second % 60 = 59) (rest : List Char) :
    readTimeOfDay (Decimal.digits 2 (second / 3600) ++
      ':' :: (Decimal.digits 2 (second / 60 % 60) ++
      ':' :: (Decimal.digits 2 (second % 60 + if nano < 1000000000 then 0 else 1) ++
        (fractionChars (nano % 1000000000) ++ 'Z' :: rest)))) =
      some ((second, nano), 'Z' :: rest) := by
  have hcolon : ∀ cs, NoDigitFirst (':' :: cs) := NoDigitFirst.cons (by decide)
  have hmark : ∀ cs, readMark ':' (':' :: cs) = some cs := readMark_cons (by decide)
  have hfraction : NoDigitFirst (fractionChars (nano % 1000000000) ++ 'Z' :: rest) := by
    unfold fractionChars
    split
    · exact .cons (by decide) rest
    · split
      · exact .cons (by decide) _
      · split <;> exact .cons (by decide) _
  generalize hlast : second % 60 + (if nano < 1000000000 then 0 else 1) = last
  have hlast_le : last ≤ 60 := by
    split at hlast <;> omega
  have hreadHour := fun cs => readPart_digits (show second / 3600 < 100 by omega) (hcolon cs)
  have hreadMinute := fun cs => readPart_digits (show second / 60 % 60 < 100 by omega) (hcolon cs)
  have hreadSecond := readPart_digits (show last < 100 by omega) hfraction
  have hreadFraction := readFraction_fractionChars (Nat.mod_lt nano (by decide)) rest
  have hbounds : second / 3600 < 24 ∧ second / 60 % 60 < 60 ∧ last ≤ 60 := by omega
  simp only [readTimeOfDay, hreadHour, hmark, hreadMinute, hreadSecond, hreadFraction,
    Option.bind_eq_bind, Option.bind_some, if_pos hbounds]
  -- Second 60 is read as second 59 with the nanoseconds run on, and any other as itself.
  by_cases hleap : last = 60
  · have hover : 1000000000 ≤ nano ∧ second % 60 = 59 := by
      split at hlast
      · omega
      · omega
    have hparts : second / 3600 * 3600 + second / 60 % 60 * 60 + 59 = second ∧
        nano % 1000000000 + 1000000000 = nano := by omega
    rw [if_pos hleap, hparts.1, hparts.2]
  · have hparts : second / 3600 * 3600 + second / 60 % 60 * 60 + last = second ∧
        nano % 1000000000 = nano := by
      split at hlast
      · omega
      · omega
    rw [if_neg hleap, hparts.1, hparts.2]

/-! ## Times -/

namespace Instant

variable {t : Instant}

/-- The last second of all ends a minute, so there is one after any leap second out of place. -/
lemma succ_second_mem (h : ¬t.InPlace) :
    firstSecond ≤ t.second + 1 ∧ t.second + 1 ≤ lastSecond := by
  have hmem := t.second_mem
  unfold InPlace at h
  unfold lastSecond at hmem ⊢
  omega

/-- The instant with a leap second that is out of place carried over into the next second. -/
def carried (t : Instant) : Instant :=
  if h : t.InPlace then t
  else ⟨t.second + 1, t.nano - 1000000000, succ_second_mem h, (Nat.sub_le _ _).trans_lt t.nano_lt⟩

lemma carried_of_inPlace (h : t.InPlace) : t.carried = t := dif_pos h

lemma carried_of_not_inPlace (h : ¬t.InPlace) :
    t.carried.second = t.second + 1 ∧ t.carried.nano = t.nano - 1000000000 := by
  unfold carried
  rw [dif_neg h]
  exact ⟨rfl, rfl⟩

lemma inPlace_carried (t : Instant) : t.carried.InPlace := by
  by_cases h : t.InPlace
  · rwa [carried_of_inPlace h]
  · have hlt := t.nano_lt
    refine .inl ?_
    rw [(carried_of_not_inPlace h).2]
    omega

/-- An instant is carried over to itself exactly when any leap second in it is in place. -/
lemma carried_eq_self_iff : t.carried = t ↔ t.InPlace :=
  ⟨fun h => h ▸ inPlace_carried t, carried_of_inPlace⟩

/-- What is written does not tell whether a leap second was carried over. -/
lemma text_carried (t : Instant) : t.carried.text = t.text := by
  by_cases h : t.InPlace
  · rw [carried_of_inPlace h]
  · obtain ⟨hsecond, hnano⟩ := carried_of_not_inPlace h
    have hlt := t.nano_lt
    unfold InPlace at h
    have hday : (t.second + 1) / 86400 = t.second / 86400 := by omega
    -- a minute has not ended, so the hour and the minute are the same
    have htime : ((t.second + 1) % 86400).toNat / 3600 = (t.second % 86400).toNat / 3600 ∧
        ((t.second + 1) % 86400).toNat / 60 % 60 = (t.second % 86400).toNat / 60 % 60 ∧
        ((t.second + 1) % 86400).toNat % 60 = (t.second % 86400).toNat % 60 + 1 := by omega
    have hleap : ¬t.nano < 1000000000 := fun hless => h (.inl hless)
    have hfraction : (t.nano - 1000000000) % 1000000000 = t.nano % 1000000000 := by omega
    simp only [text, toChars, format, date, secondOfDay, hsecond, hnano, hday, htime, hfraction,
      if_neg hleap, if_pos (show t.nano - 1000000000 < 1000000000 by omega), Nat.add_zero]

/-- A time whose leap second is in place is read back as it was written. -/
lemma ofText?_text_of_inPlace (h : t.InPlace) : ofText? t.text = some t := by
  have hday := Date.ofDayNumber_lt (t.second / 86400)
  have hseconds : t.second / 86400 * 86400 + (t.secondOfDay : Int) = t.second := by
    unfold secondOfDay
    omega
  have hsecond : t.secondOfDay < 86400 := by
    unfold secondOfDay
    omega
  have hnano : t.nano < 1000000000 ∨ t.nano < 2000000000 ∧ t.secondOfDay % 60 = 59 := by
    have hlt := t.nano_lt
    unfold InPlace at h
    omega
  have hdate := fun cs => readDate_date (Date.exists_ofDayNumber (t.second / 86400)) hday.1 hday.2
    (NoDigitFirst.cons (by decide : Decimal.isDigit 'T' = false) cs)
  have htime := readTimeOfDay_timeChars hsecond hnano []
  have hoffset : readOffset (trimStart ['Z']) = some (0, []) := rfl
  have hzone : TimeFormat.standard.zone = 'Z' := rfl
  have hmake : make? (t.second / 86400 * 86400 + t.secondOfDay) t.nano = some t := by
    rw [hseconds, make?_parts h]
  rw [ofText?, text, String.toList_ofList]
  simp only [toChars, format, date, hzone, List.append_assoc, List.cons_append]
  simp only [ofChars?, hdate, htime, hoffset, Date.dayNumber_ofDayNumber, hmake, true_or, if_true,
    Option.bind_eq_bind, Option.bind_some, Int.sub_zero, make?_parts h]
  rfl

/-- A time is read back as it was written, with a leap second that was out of place carried over. -/
theorem ofText?_text (t : Instant) : ofText? t.text = some t.carried := by
  rw [← text_carried, ofText?_text_of_inPlace (inPlace_carried t)]

end Instant

/-- A leap second, in a year that has a sign, is read back. -/
example :
    Instant.ofText? "-0001-12-31T23:59:60.250Z" = (Instant.ofText? "-0001-12-31T23:59:59Z").bind
      fun t => Instant.make? t.second 1250000000 := by
  decide +kernel

end Time

end Gatehouse
