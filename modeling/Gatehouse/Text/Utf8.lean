/-!
# Text as bytes

Messages, tokens and settings travel as bytes.  Text is written in UTF-8 and read back from it,
strictly where a text is required and leniently where a broken spelling is shown to the reader
as U+FFFD.
-/

namespace Gatehouse.Text.Utf8

/-- The UTF-8 bytes of a text. -/
def encode (s : String) : List UInt8 := s.toByteArray.data.toList

/-- The text that bytes spell, when they spell one. -/
def decode? (bytes : List UInt8) : Option String := String.fromUTF8? ⟨bytes.toArray⟩

@[simp] theorem decode?_encode (s : String) : decode? (encode s) = some s := by
  simp [decode?, encode, String.fromUTF8?, s.isValidUTF8, String.fromUTF8]

/-! ## Characters as bytes -/

/-- The UTF-8 bytes of characters. -/
def encodeChars (cs : List Char) : List UInt8 := cs.flatMap String.utf8EncodeChar

@[simp] theorem encode_ofList (cs : List Char) : encode (String.ofList cs) = encodeChars cs := by
  simp [encode, encodeChars, String.toByteArray_ofList, List.utf8Encode]

theorem encode_eq_encodeChars (s : String) : encode s = encodeChars s.toList := by
  rw [← encode_ofList, String.ofList_toList]

@[simp] theorem encodeChars_nil : encodeChars [] = [] := rfl

@[simp] theorem encodeChars_append (cs ds : List Char) :
    encodeChars (cs ++ ds) = encodeChars cs ++ encodeChars ds := List.flatMap_append

theorem encodeChars_cons (c : Char) (cs : List Char) :
    encodeChars (c :: cs) = String.utf8EncodeChar c ++ encodeChars cs := List.flatMap_cons

/-- A character of ASCII is its own number as a byte. -/
theorem utf8EncodeChar_ascii {c : Char} (h : c.toNat < 128) :
    String.utf8EncodeChar c = [UInt8.ofNat c.toNat] := by
  have hle : c.val.toNat ≤ 127 := Nat.le_of_lt_succ h
  rw [String.utf8EncodeChar.eq_def]
  exact if_pos hle

/-- No byte of a character beyond ASCII is one of ASCII. -/
theorem le_of_mem_utf8EncodeChar {c : Char} (h : 128 ≤ c.toNat) {b : UInt8}
    (hb : b ∈ String.utf8EncodeChar c) : 128 ≤ b.toNat := by
  have hgt : ¬c.val.toNat ≤ 127 := Nat.not_le_of_lt h
  rw [String.utf8EncodeChar.eq_def] at hb
  simp only [if_neg hgt] at hb
  split at hb
  · simp only [List.mem_cons, List.not_mem_nil, or_false] at hb
    rcases hb with rfl | rfl <;> simp only [UInt8.toNat_ofNat'] <;> omega
  · split at hb
    · simp only [List.mem_cons, List.not_mem_nil, or_false] at hb
      rcases hb with rfl | rfl | rfl <;> simp only [UInt8.toNat_ofNat'] <;> omega
    · simp only [List.mem_cons, List.not_mem_nil, or_false] at hb
      rcases hb with rfl | rfl | rfl | rfl <;> simp only [UInt8.toNat_ofNat'] <;> omega

/-- The bytes of a text in ASCII are the numbers of its characters. -/
theorem encodeChars_ascii {cs : List Char} (h : ∀ c ∈ cs, c.toNat < 128) :
    encodeChars cs = cs.map fun c => UInt8.ofNat c.toNat := by
  induction cs with
  | nil => rfl
  | cons c cs ih =>
    have hcs := ih fun d hd => h d (List.mem_cons_of_mem _ hd)
    rw [encodeChars_cons, utf8EncodeChar_ascii (h c List.mem_cons_self), hcs]
    rfl

/-! ## Lenient reading

Where bytes do not spell a text, each longest run that could still have begun a character is
shown as one U+FFFD, and reading goes on behind it. -/

/-- Whether `b` may follow `lead` as the second byte of a character; the narrow ranges keep out
overlong spellings, surrogates and numbers above U+10FFFF. -/
def secondFits (lead b : UInt8) : Bool :=
  if lead == 0xE0 then 0xA0 ≤ b && b ≤ 0xBF
  else if lead == 0xED then 0x80 ≤ b && b ≤ 0x9F
  else if lead == 0xF0 then 0x90 ≤ b && b ≤ 0xBF
  else if lead == 0xF4 then 0x80 ≤ b && b ≤ 0x8F
  else 0x80 ≤ b && b ≤ 0xBF

/-- How many bytes follow a lead byte; `none` when the byte leads no character. -/
def followers? (lead : UInt8) : Option Nat :=
  if lead < 0x80 then some 0
  else if 0xC2 ≤ lead && lead ≤ 0xDF then some 1
  else if 0xE0 ≤ lead && lead ≤ 0xEF then some 2
  else if 0xF0 ≤ lead && lead ≤ 0xF4 then some 3
  else none

/-- The follower bytes at the front of the input that fit behind `lead`, at most `n`. -/
def takeFollowers (lead : UInt8) (n : Nat) (bytes : List UInt8) : List UInt8 :=
  match n, bytes with
  | n + 1, b :: rest =>
    if secondFits lead b then b :: (rest.takeWhile fun c => 0x80 ≤ c && c ≤ 0xBF).take n else []
  | _, _ => []

/-- The number that a lead byte and its followers spell. -/
def scalar (lead : UInt8) (followers : List UInt8) : Nat :=
  let top := match followers.length with
    | 0 => lead.toNat
    | 1 => lead.toNat % 32
    | 2 => lead.toNat % 16
    | _ => lead.toNat % 8
  followers.foldl (fun n b => n * 64 + b.toNat % 64) top

/-- What stands for bytes that spell no character. -/
def replacement : Char := Char.ofNat 0xFFFD

/-- The characters that bytes spell, with U+FFFD where they spell none. -/
def decodeLossy : List UInt8 → List Char
  | [] => []
  | lead :: rest =>
    match followers? lead with
    | none => replacement :: decodeLossy rest
    | some n =>
      let followers := takeFollowers lead n rest
      let c := if followers.length = n then Char.ofNat (scalar lead followers) else replacement
      c :: decodeLossy (rest.drop followers.length)
termination_by bytes => bytes.length
decreasing_by all_goals (simp only [List.length_drop, List.length_cons]; omega)

/-- A byte of ASCII is the number of its character. -/
theorem ofNat_toNat_ascii {c : Char} (h : c.toNat < 128) :
    Char.ofNat (UInt8.ofNat c.toNat).toNat = c := by
  rw [UInt8.toNat_ofNat', Nat.mod_eq_of_lt (Nat.lt_trans h (by decide)), Char.ofNat_toNat]

theorem ofNat_toNat_ne {c : Char} {b : UInt8} (h : c.toNat < 128) (hne : c ≠ Char.ofNat b.toNat) :
    UInt8.ofNat c.toNat ≠ b := by
  rintro rfl
  exact hne (ofNat_toNat_ascii h).symm

theorem decodeLossy_cons_ascii {b : UInt8} (h : b < 0x80) (rest : List UInt8) :
    decodeLossy (b :: rest) = Char.ofNat b.toNat :: decodeLossy rest := by
  have hlead : followers? b = some 0 := if_pos h
  rw [decodeLossy, hlead]
  rfl

/-- A text in ASCII is read as itself. -/
theorem decodeLossy_encodeChars {cs : List Char} (h : ∀ c ∈ cs, c.toNat < 128) :
    decodeLossy (encodeChars cs) = cs := by
  rw [encodeChars_ascii h]
  induction cs with
  | nil => rw [List.map_nil, decodeLossy]
  | cons c cs ih =>
    have hc := h c List.mem_cons_self
    have hlt : UInt8.ofNat c.toNat < 0x80 := by
      rw [UInt8.lt_iff_toNat_lt, UInt8.toNat_ofNat', Nat.mod_eq_of_lt (Nat.lt_trans hc (by decide))]
      exact hc
    rw [List.map_cons, decodeLossy_cons_ascii hlt, ofNat_toNat_ascii hc,
      ih fun d hd => h d (List.mem_cons_of_mem _ hd)]

end Gatehouse.Text.Utf8
