import Gatehouse.Proofs.JsonNumbers
import Gatehouse.Proofs.JsonTexts

/-!
# JSON, written and read

Whatever value is written is read back as it was (`readWhole?_bytes`).  The reader counts how often
it begins a value or an item, and it counts down from twice the number of bytes.  The induction is
therefore on the value, with the rest of the bytes and the fuel left open, and it carries that
twice the bytes of the value are not more than the fuel there is: a value spends one on itself, an
item or member one more, and each of them has a byte at least besides what is in it.
-/

namespace Gatehouse

open Text Text.Utf8

namespace Document

/-! ## Values -/

section Values

lemma encodeChars_cons_ascii {c : Char} {b : UInt8} (h : String.utf8EncodeChar c = [b])
    (cs : List Char) : encodeChars (c :: cs) = b :: encodeChars cs := by
  rw [encodeChars_cons, h, List.singleton_append]

lemma quote_bytes (s : String) :
    encodeChars (Json.quote s.toList) =
      0x22 :: (encodeChars (s.toList.flatMap Json.escape) ++ [0x22]) := by
  rw [Json.quote, List.cons_append, encodeChars_cons_ascii (b := 0x22) rfl, encodeChars_append]
  rfl

lemma exists_head_numeralChars (n : Numeral) :
    ∃ b bs, encodeChars (Json.numeralChars n) = b :: bs ∧ (b = 0x2D ∨ isDigit b = true) := by
  rw [numeralChars_eq]
  cases n.negative with
  | true =>
    simp only [if_true, List.cons_append, List.nil_append]
    exact ⟨0x2D, _, encodeChars_cons_ascii rfl _, .inl rfl⟩
  | false =>
    obtain ⟨b, bs, hbytes⟩ := List.exists_cons_of_ne_nil (encodeChars_natural_ne_nil n.whole)
    have hb := isDigit_of_mem_natural n.whole b (hbytes ▸ List.mem_cons_self)
    simp only [Bool.false_eq_true, if_false, List.nil_append, encodeChars_append, hbytes,
      List.cons_append]
    exact ⟨b, _, rfl, .inr hb⟩

lemma digit_byte_bounds {b : UInt8} (h : isDigit b = true) : 48 ≤ b.toNat ∧ b.toNat ≤ 57 := by
  simp only [isDigit, Bool.and_eq_true, decide_eq_true_eq, UInt8.le_iff_toNat_le] at h
  exact h

/-- A value begins with a byte that is neither blank nor a closing bracket. -/
lemma exists_head_toChars (j : Json) :
    ∃ b bs, encodeChars j.toChars = b :: bs ∧ isSpace b = false ∧ b ≠ 0x5D := by
  cases j with
  | null => exact ⟨_, _, rfl, rfl, by decide⟩
  | bool b => cases b <;> exact ⟨_, _, rfl, rfl, by decide⟩
  | number n =>
    obtain ⟨b, bs, hbytes, rfl | hb⟩ := exists_head_numeralChars n
    · exact ⟨0x2D, bs, hbytes, rfl, by decide⟩
    · obtain ⟨hlo, hhi⟩ := digit_byte_bounds hb
      have hother : ∀ c : UInt8, c.toNat < 48 ∨ 57 < c.toNat → b ≠ c := by
        rintro c hc rfl
        omega
      refine ⟨b, bs, hbytes, ?_, hother _ (by decide)⟩
      simp only [isSpace, Bool.or_eq_false_iff, beq_eq_false_iff_ne]
      exact ⟨⟨⟨hother _ (by decide), hother _ (by decide)⟩, hother _ (by decide)⟩,
        hother _ (by decide)⟩
  | text s => exact ⟨_, _, quote_bytes s, rfl, by decide⟩
  | array items => exact ⟨_, _, encodeChars_cons_ascii rfl _, rfl, by decide⟩
  | object members => exact ⟨_, _, encodeChars_cons_ascii rfl _, rfl, by decide⟩

lemma skipSpace_cons {b : UInt8} (h : isSpace b = false) (bs : List UInt8) :
    skipSpace (b :: bs) = b :: bs :=
  List.dropWhile_cons_of_neg (by simp [h])

lemma skipSpace_toChars (j : Json) (rest : List UInt8) :
    skipSpace (encodeChars j.toChars ++ rest) = encodeChars j.toChars ++ rest := by
  obtain ⟨b, bs, hbytes, hspace, -⟩ := exists_head_toChars j
  rw [hbytes, List.cons_append, skipSpace_cons hspace]

lemma readValue_numeral (n : Numeral) (fuel : Nat) {rest : List UInt8} (hrest : EndsNumber rest) :
    readValue (fuel + 1) (encodeChars (Json.numeralChars n) ++ rest) = (.number n, rest) := by
  have hread := readNumeral_numeralChars n hrest
  have hskip := skipSpace_toChars (.number n) rest
  rw [Json.toChars] at hskip
  obtain ⟨b, bs, hbytes, hb⟩ := exists_head_numeralChars n
  have hother : ∀ c : UInt8, c ≠ 0x2D → isDigit c = false → b ≠ c := by
    rintro c hsign hdigit rfl
    rcases hb with hb | hb
    · exact hsign hb
    · exact absurd hb (by simp [hdigit])
  rw [readValue, hskip]
  rw [hbytes, List.cons_append] at hread ⊢
  -- No other kind of value begins with a digit or a minus sign.
  split
  · next h => cases h
  · next h => exact absurd (List.cons.inj h).1 (hother _ (by decide) rfl)
  · next h => exact absurd (List.cons.inj h).1 (hother _ (by decide) rfl)
  · next h => exact absurd (List.cons.inj h).1 (hother _ (by decide) rfl)
  · next h => exact absurd (List.cons.inj h).1 (hother _ (by decide) rfl)
  · next h => exact absurd (List.cons.inj h).1 (hother _ (by decide) rfl)
  · next h => exact absurd (List.cons.inj h).1 (hother _ (by decide) rfl)
  · rw [hread]

lemma EndsNumber.nil : EndsNumber [] := fun _ h => by cases h

lemma EndsNumber.cons {b : UInt8} (hb : isDigit b = false ∧ b ≠ 0x2E ∧ b ≠ 0x65 ∧ b ≠ 0x45)
    (bs : List UInt8) : EndsNumber (b :: bs) := by
  rintro c hc
  obtain rfl : b = c := Option.some.inj hc
  exact hb

lemma array_bytes (items : List Json) :
    encodeChars (Json.array items).toChars =
      0x5B :: (encodeChars (Json.itemChars items) ++ [0x5D]) := by
  rw [Json.toChars, List.cons_append, encodeChars_cons_ascii (b := 0x5B) rfl, encodeChars_append]
  rfl

lemma object_bytes (members : List (String × Json)) :
    encodeChars (Json.object members).toChars =
      0x7B :: (encodeChars (Json.memberChars members) ++ [0x7D]) := by
  rw [Json.toChars, List.cons_append, encodeChars_cons_ascii (b := 0x7B) rfl, encodeChars_append]
  rfl

lemma items_bytes (j j' : Json) (js : List Json) :
    encodeChars (Json.itemChars (j :: j' :: js)) =
      encodeChars j.toChars ++ 0x2C :: encodeChars (Json.itemChars (j' :: js)) := by
  rw [Json.itemChars.eq_3 _ _ (by simp), encodeChars_append, encodeChars_cons_ascii (b := 0x2C) rfl]

/-- The bytes of a member. -/
def memberBytes (name : String) (j : Json) : List UInt8 :=
  0x22 :: (encodeChars (name.toList.flatMap Json.escape) ++
    0x22 :: 0x3A :: encodeChars j.toChars)

lemma member_bytes (name : String) (j : Json) :
    encodeChars (Json.memberChars [(name, j)]) = memberBytes name j := by
  rw [Json.memberChars, encodeChars_append, quote_bytes, encodeChars_cons_ascii (b := 0x3A) rfl,
    memberBytes]
  simp only [List.cons_append, List.append_assoc, List.nil_append]

lemma members_bytes (name : String) (j : Json) (m : String × Json) (ms : List (String × Json)) :
    encodeChars (Json.memberChars ((name, j) :: m :: ms)) =
      memberBytes name j ++ 0x2C :: encodeChars (Json.memberChars (m :: ms)) := by
  rw [Json.memberChars.eq_3 _ _ _ (by simp), encodeChars_append, encodeChars_append, quote_bytes,
    encodeChars_cons_ascii (b := 0x3A) rfl, encodeChars_cons_ascii (b := 0x2C) rfl, memberBytes]
  simp only [List.cons_append, List.append_assoc, List.nil_append]

lemma exists_head_itemChars (j : Json) (js : List Json) :
    ∃ b bs, encodeChars (Json.itemChars (j :: js)) = b :: bs ∧ isSpace b = false ∧ b ≠ 0x5D := by
  obtain ⟨b, bs, hbytes, hb⟩ := exists_head_toChars j
  cases js with
  | nil => exact ⟨b, bs, hbytes, hb⟩
  | cons j' js => exact ⟨b, _, by rw [items_bytes, hbytes, List.cons_append], hb⟩

lemma exists_head_memberChars (m : String × Json) (ms : List (String × Json)) :
    ∃ bs, encodeChars (Json.memberChars (m :: ms)) = 0x22 :: bs := by
  obtain ⟨name, j⟩ := m
  cases ms with
  | nil => exact ⟨_, member_bytes name j⟩
  | cons m ms => exact ⟨_, (members_bytes name j m ms).trans (List.cons_append ..)⟩

/-- The value of a member is what follows its name. -/
lemma readMembers_member (name : String) (fuel : Nat) (bytes : List UInt8) :
    readMembers (fuel + 1)
        (0x22 :: (encodeChars (name.toList.flatMap Json.escape) ++ 0x22 :: 0x3A :: bytes)) =
      match skipSpace (readValue fuel bytes).2 with
      | 0x2C :: rest =>
        let (members, closed, rest) := readMembers fuel rest
        ((some name, (readValue fuel bytes).1) :: members, closed, rest)
      | 0x7D :: rest => ([(some name, (readValue fuel bytes).1)], true, rest)
      | _ => ([(some name, (readValue fuel bytes).1)], false, []) := by
  have hread := readText_quote name (0x3A :: bytes)
  rw [readMembers, skipSpace_cons rfl]
  simp only [hread, skipSpace_cons (show isSpace 0x3A = false from rfl)]
  rfl

mutual

/-- A value is read back as it was written, given fuel for twice its bytes and followed by nothing
that would make a number longer. -/
lemma readValue_toChars : ∀ (j : Json) (fuel : Nat) (rest : List UInt8),
    2 * (encodeChars j.toChars).length ≤ fuel → EndsNumber rest →
      readValue fuel (encodeChars j.toChars ++ rest) = (ofJson j, rest)
  | j, 0, rest, hfuel, _ => by
    obtain ⟨b, bs, hbytes, -⟩ := exists_head_toChars j
    rw [hbytes, List.length_cons] at hfuel
    omega
  | .null, fuel + 1, rest, _, _ => rfl
  | .bool true, fuel + 1, rest, _, _ => rfl
  | .bool false, fuel + 1, rest, _, _ => rfl
  | .number n, fuel + 1, rest, _, hrest => readValue_numeral n fuel hrest
  | .text s, fuel + 1, rest, _, _ => by
    have hread := readText_quote s rest
    rw [readValue, Json.toChars, quote_bytes, List.cons_append, skipSpace_cons rfl,
      List.append_assoc, List.singleton_append]
    simp only [hread, ofJson]
  | .array [], fuel + 1, rest, _, _ => rfl
  | .array (j :: js), fuel + 1, rest, hfuel, _ => by
    -- One is spent on the array itself, and its brackets are worth four.
    have hitems := readItems_itemChars (j :: js) fuel rest (by simp) (by
      rw [array_bytes, List.length_cons, List.length_append] at hfuel
      omega)
    obtain ⟨b, bs, hbytes, hspace, hbracket⟩ := exists_head_itemChars j js
    rw [readValue, array_bytes, List.cons_append, skipSpace_cons rfl, List.append_assoc,
      List.singleton_append]
    rw [hbytes, List.cons_append] at hitems ⊢
    simp only [skipSpace_cons hspace]
    split
    · next h => exact absurd (List.cons.inj h).1 hbracket
    · rw [hitems]
      rfl
  | .object [], fuel + 1, rest, _, _ => rfl
  | .object (m :: ms), fuel + 1, rest, hfuel, _ => by
    have hmembers := readMembers_memberChars (m :: ms) fuel rest (by simp) (by
      rw [object_bytes, List.length_cons, List.length_append] at hfuel
      omega)
    obtain ⟨bs, hbytes⟩ := exists_head_memberChars m ms
    rw [readValue, object_bytes, List.cons_append, skipSpace_cons rfl, List.append_assoc,
      List.singleton_append]
    rw [hbytes, List.cons_append] at hmembers ⊢
    simp only [skipSpace_cons (show isSpace 0x22 = false from rfl)]
    split
    · next h => exact absurd (List.cons.inj h).1 (by decide)
    · rw [hmembers]
      rfl

/-- The items of an array are read back as they were written. -/
lemma readItems_itemChars : ∀ (items : List Json) (fuel : Nat) (rest : List UInt8),
    items ≠ [] → 2 * (encodeChars (Json.itemChars items)).length + 1 ≤ fuel →
      readItems fuel (encodeChars (Json.itemChars items) ++ 0x5D :: rest) =
        (ofItems items, true, rest)
  | [], _, _, hne, _ => absurd rfl hne
  | _, 0, _, _, hfuel => absurd hfuel (by omega)
  | [j], fuel + 1, rest, _, hfuel => by
    have hvalue := readValue_toChars j fuel (0x5D :: rest) (Nat.le_of_succ_le_succ hfuel)
      (.cons (by decide) rest)
    simp only [readItems, Json.itemChars, hvalue,
      skipSpace_cons (show isSpace 0x5D = false from rfl), ofItems]
  | j :: j' :: js, fuel + 1, rest, _, hfuel => by
    rw [items_bytes, List.length_append, List.length_cons] at hfuel
    have hvalue := readValue_toChars j fuel
      (0x2C :: (encodeChars (Json.itemChars (j' :: js)) ++ 0x5D :: rest)) (by omega)
      (.cons (by decide) _)
    have hitems := readItems_itemChars (j' :: js) fuel rest (by simp) (by omega)
    rw [items_bytes, List.append_assoc, List.cons_append, ofItems]
    simp only [readItems, hvalue, skipSpace_cons (show isSpace 0x2C = false from rfl), hitems]

/-- The members of an object are read back as they were written. -/
lemma readMembers_memberChars : ∀ (members : List (String × Json)) (fuel : Nat)
    (rest : List UInt8), members ≠ [] →
      2 * (encodeChars (Json.memberChars members)).length + 1 ≤ fuel →
      readMembers fuel (encodeChars (Json.memberChars members) ++ 0x7D :: rest) =
        (ofMembers members, true, rest)
  | [], _, _, hne, _ => absurd rfl hne
  | _, 0, _, _, hfuel => absurd hfuel (by omega)
  | [(name, j)], fuel + 1, rest, _, hfuel => by
    rw [member_bytes, memberBytes, List.length_cons, List.length_append, List.length_cons,
      List.length_cons] at hfuel
    have hvalue := readValue_toChars j fuel (0x7D :: rest) (by omega) (.cons (by decide) rest)
    have hread := readMembers_member name fuel (encodeChars j.toChars ++ 0x7D :: rest)
    rw [hvalue] at hread
    rw [member_bytes, memberBytes]
    simp only [List.cons_append, List.append_assoc, hread,
      skipSpace_cons (show isSpace 0x7D = false from rfl), ofMembers]
  | (name, j) :: m :: ms, fuel + 1, rest, _, hfuel => by
    rw [members_bytes, memberBytes] at hfuel
    simp only [List.length_cons, List.length_append] at hfuel
    have hvalue := readValue_toChars j fuel
      (0x2C :: (encodeChars (Json.memberChars (m :: ms)) ++ 0x7D :: rest)) (by omega)
      (.cons (by decide) _)
    have hmembers := readMembers_memberChars (m :: ms) fuel rest (by simp) (by omega)
    have hread := readMembers_member name fuel
      (encodeChars j.toChars ++ 0x2C :: (encodeChars (Json.memberChars (m :: ms)) ++ 0x7D :: rest))
    rw [hvalue] at hread
    rw [members_bytes, memberBytes, ofMembers]
    simp only [List.cons_append, List.append_assoc, hread,
      skipSpace_cons (show isSpace 0x2C = false from rfl), hmembers]

end

/-- What is written is read back, and what follows it is left. -/
theorem read_bytes (j : Json) {rest : List UInt8} (hrest : EndsNumber rest) :
    read (j.bytes ++ rest) = (ofJson j, rest) := by
  rw [Json.bytes, Json.render, encode_ofList, read]
  refine readValue_toChars j _ rest ?_ hrest
  rw [List.length_append]
  omega

/-- A document that holds what was written and nothing else is read as that. -/
@[simp] theorem readWhole?_bytes (j : Json) : readWhole? j.bytes = ofJson j := by
  have hread := read_bytes j .nil
  rw [List.append_nil] at hread
  simp only [readWhole?, hread]
  rfl

end Values

end Document

end Gatehouse
