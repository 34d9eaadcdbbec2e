import Gatehouse.Json.Document
import Gatehouse.Json.Printer
import Mathlib.Tactic.Lemma

/-!
# Texts in JSON, written and read

Between quotation marks a character is written as itself, behind a backslash, or by its number.
Reading takes two stages: bytes are read as steps, and the steps are spelled out as bytes again.
Both are stated for the front of what is read, whatever follows it (`ReadAs`, `Spells`), so that
what holds of one character holds of a text by putting characters one behind the other.
-/

namespace Gatehouse

open Text Text.Utf8

namespace Document

/-! ## Texts -/

/-- A byte that stands for itself in a text. -/
def IsPlain (b : UInt8) : Prop := 0x20 ≤ b.toNat ∧ b ≠ 0x22 ∧ b ≠ 0x5C

/-- What the steps of a text spell is put in front of what follows them. -/
def Spells (steps : List Unit16) (bytes : List UInt8) : Prop :=
  ∀ following, spell (steps ++ following) = (spell following).map (bytes ++ ·)

/-- The front of the bytes is read as the given steps, whatever follows. -/
def ReadAs (front : List UInt8) (steps : List Unit16) : Prop :=
  ∀ bytes, readSteps (front ++ bytes) =
    (readSteps bytes).map fun (following, rest) => (steps ++ following, rest)

section Texts

variable {front front' : List UInt8} {steps steps' : List Unit16}

lemma ReadAs.nil : ReadAs [] [] := by
  intro bytes
  cases h : readSteps bytes <;> simp [h]

lemma ReadAs.append (h : ReadAs front steps) (h' : ReadAs front' steps') :
    ReadAs (front ++ front') (steps ++ steps') := by
  intro bytes
  rw [List.append_assoc, h, h']
  cases readSteps bytes <;> simp

lemma Spells.nil : Spells [] [] := by
  intro following
  cases h : spell following <;> simp [h, Except.map]

lemma Spells.append {bytes bytes' : List UInt8} (h : Spells steps bytes)
    (h' : Spells steps' bytes') : Spells (steps ++ steps') (bytes ++ bytes') := by
  intro following
  rw [List.append_assoc, h, h']
  cases spell following <;> simp [Except.map]

lemma ReadAs.plain {b : UInt8} (hb : IsPlain b) : ReadAs [b] [.byte b] := by
  obtain ⟨hlow, hmark, hslash⟩ := hb
  have hlt : ¬b < 0x20 := by
    rw [UInt8.lt_iff_toNat_lt]
    exact Nat.not_lt.2 hlow
  intro bytes
  simp only [List.singleton_append]
  rw [readSteps.eq_def]
  split
  · next h => cases h
  · next h => exact absurd (List.cons.inj h).1 hmark
  · next h => exact absurd (List.cons.inj h).1 hslash
  · next h => exact absurd (List.cons.inj h).1 hslash
  · next h =>
    obtain ⟨rfl, rfl⟩ := List.cons.inj h
    rw [if_neg (not_or.2 ⟨hlt, hslash⟩)]

lemma ReadAs.plains {bs : List UInt8} (hbs : ∀ b ∈ bs, IsPlain b) :
    ReadAs bs (bs.map Unit16.byte) := by
  induction bs with
  | nil => exact .nil
  | cons b bs ih =>
    have hb := ReadAs.plain (hbs b List.mem_cons_self)
    exact hb.append (ih fun c hc => hbs c (List.mem_cons_of_mem _ hc))

lemma Spells.bytes (bs : List UInt8) : Spells (bs.map Unit16.byte) bs := by
  induction bs with
  | nil => exact .nil
  | cons b bs ih =>
    intro following
    rw [List.map_cons, List.cons_append, spell, ih]
    cases spell following <;> rfl

lemma Spells.unit {c : Char} (hc : c.toNat < 32) :
    Spells [.unit c.toNat] (String.utf8EncodeChar c) := by
  have hhigh : ¬(0xD800 ≤ c.toNat ∧ c.toNat < 0xE000) := by omega
  have hhalf : ∀ p : Prop, ¬(0xD800 ≤ c.toNat ∧ c.toNat < 0xDC00 ∧ p) := by omega
  intro following
  rw [List.singleton_append]
  -- A unit is looked at together with what follows it, which may be a unit as well.
  rcases following with _ | ⟨b | lo, following⟩
  · simp only [spell, if_neg hhigh, if_neg (hhalf _), Char.ofNat_toNat]
  · simp only [spell, if_neg hhigh, if_neg (hhalf _), Char.ofNat_toNat]
  · rw [spell, if_neg (hhalf _), if_neg hhigh, Char.ofNat_toNat]

lemma ReadAs.named {e b : UInt8} (h : escapeByte? e = some b) : ReadAs [0x5C, e] [.byte b] := by
  have he : e ≠ 0x75 := by
    rintro rfl
    cases h
  intro bytes
  simp only [List.cons_append, List.nil_append]
  rw [readSteps.eq_def]
  split
  · next h => cases h
  · next h => exact absurd (List.cons.inj h).1 (by decide)
  · next hbytes => exact absurd (List.cons.inj (List.cons.inj hbytes).2).1 he
  · next hbytes =>
    obtain ⟨rfl, rfl⟩ := List.cons.inj (List.cons.inj hbytes).2
    rw [h, Option.bind_some]
  · next hnot hbytes =>
    obtain ⟨rfl, rfl⟩ := List.cons.inj hbytes
    exact (hnot e bytes rfl rfl).elim

lemma ReadAs.numbered {p q r s : UInt8} {n : Nat} (h : unit? p q r s = some n) :
    ReadAs [0x5C, 0x75, p, q, r, s] [.unit n] := by
  intro bytes
  simp only [List.cons_append, List.nil_append, readSteps, h, Option.bind_some]

lemma hexDigit_ascii (n : Nat) : (Hex.digit (n % 16)).toNat < 128 := by
  have hlt := Nat.mod_lt n (by decide : 0 < 16)
  generalize n % 16 = d at hlt
  revert d
  decide

/-- The four digits of a number below 2¹⁶ are read back. -/
lemma unit?_digits {n : Nat} (h : n < 65536) :
    ∃ p q r s : UInt8, encodeChars (Hex.digits 4 n) = [p, q, r, s] ∧ unit? p q r s = some n := by
  have hchar : ∀ m, Char.ofNat (UInt8.ofNat (Hex.digit (m % 16)).toNat).toNat =
      Hex.digit (m % 16) := by
    intro m
    have hm := hexDigit_ascii m
    rw [UInt8.toNat_ofNat', Nat.mod_eq_of_lt (by omega), Char.ofNat_toNat]
  have hdigits : Hex.digits 4 n = [Hex.digit (n / 16 / 16 / 16 % 16), Hex.digit (n / 16 / 16 % 16),
      Hex.digit (n / 16 % 16), Hex.digit (n % 16)] := rfl
  have hbytes : encodeChars (Hex.digits 4 n) =
      (Hex.digits 4 n).map fun c => UInt8.ofNat c.toNat := by
    refine encodeChars_ascii fun c hc => ?_
    rw [hdigits] at hc
    simp only [List.mem_cons, List.not_mem_nil, or_false] at hc
    rcases hc with rfl | rfl | rfl | rfl <;> exact hexDigit_ascii _
  have hread := Hex.read?_digits (show n < Nat.pow 16 4 from h)
  rw [hdigits] at hbytes hread ⊢
  refine ⟨_, _, _, _, hbytes, ?_⟩
  simp only [unit?, List.map_cons, List.map_nil, hchar]
  exact hread

lemma isPlain_of_mem_utf8EncodeChar {c : Char} (hmark : c ≠ '"') (hslash : c ≠ '\\')
    (hlow : 32 ≤ c.toNat) : ∀ b ∈ String.utf8EncodeChar c, IsPlain b := by
  intro b hb
  -- An ASCII character is its own byte; all bytes of any other lie above 127, so none is a mark.
  rcases Nat.lt_or_ge c.toNat 128 with hascii | hbeyond
  · have hval : (UInt8.ofNat c.toNat).toNat = c.toNat := by
      rw [UInt8.toNat_ofNat']
      omega
    rw [utf8EncodeChar_ascii hascii, List.mem_singleton] at hb
    subst hb
    refine ⟨by omega, fun h => hmark ?_, fun h => hslash ?_⟩
    · exact Char.toNat_inj.1 (hval.symm.trans (congrArg UInt8.toNat h))
    · exact Char.toNat_inj.1 (hval.symm.trans (congrArg UInt8.toNat h))
  · have hhigh := le_of_mem_utf8EncodeChar hbeyond hb
    refine ⟨by omega, ?_, ?_⟩
    · rintro rfl
      exact absurd hhigh (by decide)
    · rintro rfl
      exact absurd hhigh (by decide)

/-- A character is read back from what it is written as between quotation marks. -/
lemma readAs_escape (c : Char) :
    ∃ steps, ReadAs (encodeChars (Json.escape c)) steps ∧
      Spells steps (String.utf8EncodeChar c) := by
  unfold Json.escape
  split
  · next h =>
    rcases h with rfl | rfl
    · exact ⟨_, ReadAs.named (e := 0x22) rfl, Spells.bytes [0x22]⟩
    · exact ⟨_, ReadAs.named (e := 0x5C) rfl, Spells.bytes [0x5C]⟩
  · next hspecial =>
    obtain ⟨hmark, hslash⟩ := not_or.1 hspecial
    split
    · next name hname =>
      have hnames : ∀ row ∈ Json.controlNames, row.1.toNat < 128 ∧ row.2.toNat < 128 ∧
          escapeByte? (UInt8.ofNat row.2.toNat) = some (UInt8.ofNat row.1.toNat) := by
        decide
      obtain ⟨front, back, hrows, -⟩ := List.lookup_eq_some_iff.1 hname
      obtain ⟨hc, hletter, hbyte⟩ := hnames (c, name) (by simp [hrows])
      have hescaped : encodeChars ['\\', name] = [0x5C, UInt8.ofNat name.toNat] := by
        rw [encodeChars_cons, encodeChars_cons, utf8EncodeChar_ascii hletter]
        rfl
      rw [hescaped, utf8EncodeChar_ascii hc]
      exact ⟨_, .named hbyte, Spells.bytes [UInt8.ofNat c.toNat]⟩
    · split
      · next hlow =>
        obtain ⟨p, q, r, s, hdigits, hunit⟩ := unit?_digits (Nat.lt_trans hlow (by decide))
        have hescaped : encodeChars ('\\' :: 'u' :: Hex.digits 4 c.toNat) =
            [0x5C, 0x75, p, q, r, s] := by
          rw [encodeChars_cons, encodeChars_cons, hdigits]
          rfl
        rw [hescaped]
        exact ⟨_, .numbered hunit, Spells.unit hlow⟩
      · next hlow =>
        have hsingle : encodeChars [c] = String.utf8EncodeChar c := List.flatMap_singleton _ _
        rw [hsingle]
        exact ⟨_, .plains (isPlain_of_mem_utf8EncodeChar hmark hslash (Nat.not_lt.1 hlow)),
          Spells.bytes _⟩

lemma readAs_escaped (cs : List Char) :
    ∃ steps, ReadAs (encodeChars (cs.flatMap Json.escape)) steps ∧
      Spells steps (encodeChars cs) := by
  induction cs with
  | nil => exact ⟨[], .nil, .nil⟩
  | cons c cs ih =>
    obtain ⟨first, hread, hspells⟩ := readAs_escape c
    obtain ⟨others, hreads, hspellsAll⟩ := ih
    refine ⟨first ++ others, ?_, ?_⟩
    · rw [List.flatMap_cons, encodeChars_append]
      exact hread.append hreads
    · rw [encodeChars_cons]
      exact hspells.append hspellsAll

/-- A text is read back as it was written. -/
lemma readText_quote (s : String) (rest : List UInt8) :
    readText (encodeChars (s.toList.flatMap Json.escape) ++ 0x22 :: rest) = some (.ok s, rest) := by
  obtain ⟨steps, hread, hspells⟩ := readAs_escaped s.toList
  have hsteps : readSteps (encodeChars (s.toList.flatMap Json.escape) ++ 0x22 :: rest) =
      some (steps, rest) := by
    have hend : readSteps (0x22 :: rest) = some ([], rest) := by rw [readSteps]
    simp only [hread _, hend, Option.map_some, List.append_nil]
  have hspelled : spell steps = .ok (encodeChars s.toList) := by
    have hend := hspells []
    rwa [List.append_nil, spell, Except.map, List.append_nil] at hend
  have hdecoded : decode? (encodeChars s.toList) = some s := by
    rw [← encode_eq_encodeChars, decode?_encode]
  simp only [readText, hsteps, Option.map_some, spellText, hspelled, hdecoded]

end Texts

end Document

end Gatehouse
