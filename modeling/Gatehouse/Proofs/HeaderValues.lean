import Gatehouse.Gate.Authenticate
import Gatehouse.Proofs.Trimming

/-!
# Tokens in header values

What the value of an authorization field says is told of its bytes alone.  It may be blank, that
is spaces and tabs with at most the bearer word among them (`BlankValue`), or it may name a token,
which stands between spaces and tabs, behind the bearer word or without it (`NamesToken`).  A value
of visible ASCII, spaces and tabs is one or the other (`blank_or_names`), and a value with any
other byte is refused.

Reading goes over characters: it trims, takes the bearer word away and trims once more.  It is
enough to know what remains of a value of either kind, since there is no third one; from that
follows the other direction too, what a value must have been when this was made of it
(`header_tokens_read_exactly`).
-/

namespace Gatehouse

open Http Text

/-! ## What a value says -/

/-- The bearer word as it stands in a value. -/
def bearerWord : List UInt8 := [0x42, 0x65, 0x61, 0x72, 0x65, 0x72]

/-- Spaces and tabs. -/
def Spacing (w : List UInt8) : Prop := ∀ b ∈ w, b = 0x20 ∨ b = 0x09

/-- A value that names no token: spaces and tabs, with at most the bearer word among them. -/
inductive BlankValue : List UInt8 → Prop
  | spacing {w : List UInt8} : Spacing w → BlankValue w
  | bearer {w w' : List UInt8} : Spacing w → Spacing w' → BlankValue (w ++ bearerWord ++ w')

/-- What can stand as a token in a value: visible ASCII, spaces and tabs, but neither a space nor
a tab at an end. -/
structure Bare (t : List UInt8) : Prop where
  plain : ∀ b ∈ t, isPlainByte b = true
  ne_nil : t ≠ []
  head : ∀ b, t.head? = some b → ¬(b = 0x20 ∨ b = 0x09)
  last : ∀ b, t.getLast? = some b → ¬(b = 0x20 ∨ b = 0x09)

/-- The bearer word alone, or with a space or a tab behind it and then anything. -/
inductive LedByBearer : List UInt8 → Prop
  | alone : LedByBearer bearerWord
  | followed {b : UInt8} {rest : List UInt8} :
      b = 0x20 ∨ b = 0x09 → LedByBearer (bearerWord ++ b :: rest)

/-- A value names a token: it has the token between spaces and tabs, where the token is not led by
the bearer word, or has the bearer word first and a space or a tab between the two.  What stands
behind that word is the token as it is, even where it is led by the word again. -/
inductive NamesToken : List UInt8 → List UInt8 → Prop
  | bare {w t w' : List UInt8} : Spacing w → Bare t → ¬LedByBearer t → Spacing w' →
      NamesToken (w ++ t ++ w') t
  | bearer {w w' t w'' : List UInt8} : Spacing w → Spacing w' → w' ≠ [] → Bare t → Spacing w'' →
      NamesToken (w ++ bearerWord ++ (w' ++ t ++ w'')) t

/-- A value as text, each byte for itself. -/
def valueChars (value : List UInt8) : List Char := value.map fun b => Char.ofNat b.toNat

section Values

variable {v w w' w'' t : List UInt8}

/-! ## Bytes and blanks -/

lemma isPlainByte_iff {b : UInt8} :
    isPlainByte b = true ↔ 0x21 ≤ b ∧ b ≤ 0x7E ∨ b = 0x20 ∨ b = 0x09 := by
  simp only [isPlainByte, Bool.or_eq_true, Bool.and_eq_true, beq_iff_eq, decide_eq_true_eq,
    UInt8.le_iff_toNat_le, ← UInt8.toNat_inj, UInt8.reduceToNat]
  omega

lemma toNat_ofNat_byte (b : UInt8) : (Char.ofNat b.toNat).toNat = b.toNat := by
  have hvalid : b.toNat.isValidChar := .inl (Nat.lt_trans b.toNat_lt (by decide))
  rw [Char.ofNat, dif_pos hvalid]
  rfl

/-- Of the bytes that may stand in a value, the blanks are the space and the tab. -/
lemma isBlank_iff {b : UInt8} (h : isPlainByte b = true) :
    isBlank (Char.ofNat b.toNat) = true ↔ b = 0x20 ∨ b = 0x09 := by
  have hbounds : b.toNat = 9 ∨ 32 ≤ b.toNat ∧ b.toNat ≤ 126 := by
    simpa [isPlainByte, ← UInt8.toNat_inj, UInt8.le_iff_toNat_le] using h
  have hspace : b = 0x20 ↔ b.toNat = 32 := UInt8.toNat_inj.symm
  have htab : b = 0x09 ↔ b.toNat = 9 := UInt8.toNat_inj.symm
  rw [hspace, htab]
  simp only [isBlank, toNat_ofNat_byte, Bool.or_eq_true, Bool.and_eq_true, decide_eq_true_eq,
    beq_iff_eq]
  omega

lemma valueChars_injective : Function.Injective valueChars := by
  refine List.map_injective_iff.2 fun b b' h => UInt8.toNat_inj.1 ?_
  rw [← toNat_ofNat_byte b, ← toNat_ofNat_byte b', h]

lemma valueChars_append (v v' : List UInt8) :
    valueChars (v ++ v') = valueChars v ++ valueChars v' :=
  List.map_append

lemma valueChars_bearerWord : valueChars bearerWord = bearer := rfl

lemma bearerWord_plain : ∀ b ∈ bearerWord, isPlainByte b = true :=
  List.all_eq_true.1 (show bearerWord.all isPlainByte = true from rfl)

lemma Spacing.append (hw : Spacing w) (hw' : Spacing w') : Spacing (w ++ w') :=
  fun b hb => (List.mem_append.1 hb).elim (hw b) (hw' b)

lemma Spacing.plain (hw : Spacing w) : ∀ b ∈ w, isPlainByte b = true := by
  intro b hb
  rcases hw b hb with rfl | rfl <;> rfl

lemma Spacing.isBlank (hw : Spacing w) : ∀ c ∈ valueChars w, isBlank c = true := by
  intro c hc
  obtain ⟨b, hb, rfl⟩ := List.mem_map.1 hc
  exact (isBlank_iff (hw.plain b hb)).2 (hw b hb)

lemma spacing_of_isBlank (hplain : ∀ b ∈ w, isPlainByte b = true)
    (h : ∀ c ∈ valueChars w, Text.isBlank c = true) : Spacing w :=
  fun b hb => (isBlank_iff (hplain b hb)).1 (h _ (List.mem_map_of_mem hb))

lemma Bare.solid (ht : Bare t) : Solid (valueChars t) where
  ne_nil := by
    rw [valueChars, Ne, List.map_eq_nil_iff]
    exact ht.ne_nil
  head := by
    intro c hc
    rw [valueChars, List.head?_map, Option.map_eq_some_iff] at hc
    obtain ⟨b, hb, rfl⟩ := hc
    rw [Bool.eq_false_iff, Ne, isBlank_iff (ht.plain b (List.mem_of_mem_head? hb))]
    exact ht.head b hb
  last := by
    intro c hc
    rw [valueChars, List.getLast?_map, Option.map_eq_some_iff] at hc
    obtain ⟨b, hb, rfl⟩ := hc
    rw [Bool.eq_false_iff, Ne, isBlank_iff (ht.plain b (List.mem_of_mem_getLast? hb))]
    exact ht.last b hb

lemma bare_of_solid (hplain : ∀ b ∈ t, isPlainByte b = true) (h : Solid (valueChars t)) :
    Bare t where
  plain := hplain
  ne_nil := by
    rintro rfl
    exact h.ne_nil rfl
  head := by
    intro b hb
    rw [← isBlank_iff (hplain b (List.mem_of_mem_head? hb)), Bool.not_eq_true]
    apply h.head
    rw [valueChars, List.head?_map, hb]
    rfl
  last := by
    intro b hb
    rw [← isBlank_iff (hplain b (List.mem_of_mem_getLast? hb)), Bool.not_eq_true]
    apply h.last
    rw [valueChars, List.getLast?_map, hb]
    rfl

lemma BlankValue.plain (h : BlankValue v) : ∀ b ∈ v, isPlainByte b = true := by
  rcases h with hw | ⟨hw, hw'⟩
  · exact hw.plain
  · intro b hb
    rcases List.mem_append.1 hb with hb | hb
    · exact (List.mem_append.1 hb).elim (hw.plain b) (bearerWord_plain b)
    · exact hw'.plain b hb

lemma NamesToken.bare_token (h : NamesToken v t) : Bare t := by
  rcases h with ⟨-, ht, -, -⟩ | ⟨-, -, -, ht, -⟩
  · exact ht
  · exact ht

lemma NamesToken.plain (h : NamesToken v t) : ∀ b ∈ v, isPlainByte b = true := by
  rcases h with ⟨hw, ht, -, hw'⟩ | ⟨hw, hw', -, ht, hw''⟩
  · simp only [List.mem_append]
    rintro b ((hb | hb) | hb)
    · exact hw.plain b hb
    · exact ht.plain b hb
    · exact hw'.plain b hb
  · simp only [List.mem_append]
    rintro b ((hb | hb) | (hb | hb) | hb)
    · exact hw.plain b hb
    · exact bearerWord_plain b hb
    · exact hw'.plain b hb
    · exact ht.plain b hb
    · exact hw''.plain b hb

/-! ## Every value is of some kind -/

/-- Where there are not only spaces and tabs, they leave something between them. -/
lemma exists_bare (hplain : ∀ b ∈ v, isPlainByte b = true) (h : ¬Spacing v) :
    ∃ w t w', v = w ++ t ++ w' ∧ Spacing w ∧ Bare t ∧ Spacing w' := by
  have hsolid : Solid (trim (valueChars v)) :=
    solid_trim fun hnil => h (spacing_of_isBlank hplain (trim_eq_nil_iff.1 hnil))
  obtain ⟨gap, gap', hchars, hgap, hgap'⟩ := exists_blanks_trim (valueChars v)
  obtain ⟨front, w', rfl, hfront, rfl⟩ := List.map_eq_append_iff.1 hchars
  obtain ⟨w, t, rfl, rfl, ht⟩ := List.map_eq_append_iff.1 hfront
  rw [← ht] at hsolid
  simp only [List.mem_append] at hplain
  refine ⟨w, t, w', rfl, spacing_of_isBlank ?_ hgap, bare_of_solid ?_ hsolid,
    spacing_of_isBlank ?_ hgap'⟩
  · exact fun b hb => hplain b (.inl (.inl hb))
  · exact fun b hb => hplain b (.inl (.inr hb))
  · exact fun b hb => hplain b (.inr hb)

lemma Bare.not_spacing_end {front rest : List UInt8} (ht : Bare (front ++ rest))
    (hne : rest ≠ []) : ¬Spacing rest := by
  intro hrest
  refine ht.last (rest.getLast hne) ?_ (hrest _ (List.getLast_mem hne))
  rw [List.getLast?_append, List.getLast?_eq_some_getLast hne]
  rfl

/-- Where a space or a tab stands inside a bare text, another bare text begins behind it. -/
lemma exists_bare_behind {front rest : List UInt8} {b : UInt8} (hb : b = 0x20 ∨ b = 0x09)
    (ht : Bare (front ++ b :: rest)) :
    ∃ gap t w, b :: rest = gap ++ t ++ w ∧ Spacing gap ∧ gap ≠ [] ∧ Bare t ∧ Spacing w := by
  have hplain : ∀ c ∈ b :: rest, isPlainByte c = true :=
    fun c hc => ht.plain c (List.mem_append_right _ hc)
  obtain ⟨gap, t, w, hsplit, hgap, ht, hw⟩ :=
    exists_bare hplain (ht.not_spacing_end (List.cons_ne_nil b rest))
  refine ⟨gap, t, w, hsplit, hgap, ?_, ht, hw⟩
  rintro rfl
  have hhead : t.head? = some b := by
    rw [← List.head?_append_of_ne_nil t ht.ne_nil, ← List.nil_append t, ← hsplit]
    rfl
  exact ht.head b hhead hb

/-- A value of visible ASCII, spaces and tabs is blank or names a token. -/
lemma blank_or_names (hplain : ∀ b ∈ v, isPlainByte b = true) :
    BlankValue v ∨ ∃ t, NamesToken v t := by
  by_cases hv : Spacing v
  · exact .inl (.spacing hv)
  obtain ⟨w, t, w', rfl, hw, ht, hw'⟩ := exists_bare hplain hv
  by_cases hled : LedByBearer t
  · cases hled with
    | alone => exact .inl (.bearer hw hw')
    | @followed b rest hb =>
      -- no blank ends the text, so the one behind the word only begins the gap before a token
      obtain ⟨gap, t, gap', hsplit, hgap, hne, ht, hgap'⟩ := exists_bare_behind hb ht
      have hvalue : w ++ (bearerWord ++ b :: rest) ++ w' =
          w ++ bearerWord ++ (gap ++ t ++ (gap' ++ w')) := by
        simp only [hsplit, List.append_assoc]
      rw [hvalue]
      exact .inr ⟨t, .bearer hw hgap hne ht (hgap'.append hw')⟩
  · exact .inr ⟨t, .bare hw ht hled hw'⟩

/-! ## The bearer word -/

lemma afterBearer_append {cs : List Char} (h : ∀ c, cs.head? = some c → isBlank c = true) :
    afterBearer (bearer ++ cs) = cs := by
  have hstarts : bearer.isPrefixOf (bearer ++ cs) = true :=
    List.isPrefixOf_iff_prefix.2 (List.prefix_append _ _)
  have hblank : cs.head?.all isBlank = true := by
    cases hhead : cs.head? with
    | none => rfl
    | some c => exact h c hhead
  simp only [afterBearer, List.drop_left, hstarts, hblank, Bool.and_self, if_true]

/-- The bearer word is taken away where a blank or nothing follows it, and else nothing is. -/
lemma afterBearer_cases (cs : List Char) : afterBearer cs = cs ∨
    ∃ rest, cs = bearer ++ rest ∧ ∀ c, rest.head? = some c → isBlank c = true := by
  by_cases h : (bearer.isPrefixOf cs && (cs.drop bearer.length).head?.all isBlank) = true
  · obtain ⟨hstarts, hblank⟩ := Bool.and_eq_true_iff.1 h
    obtain ⟨rest, rfl⟩ := List.isPrefixOf_iff_prefix.1 hstarts
    rw [List.drop_left] at hblank
    refine .inr ⟨rest, rfl, fun c hc => ?_⟩
    rwa [hc] at hblank
  · exact .inl (if_neg h)

/-- Spaces and tabs behind a token do not make it led by the bearer word. -/
lemma ledByBearer_of_append {rest : List Char} (ht : Bare t) (hw : Spacing w)
    (h : valueChars (t ++ w) = bearer ++ rest)
    (hrest : ∀ c, rest.head? = some c → isBlank c = true) : LedByBearer t := by
  obtain ⟨word, v, hv, hword, rfl⟩ := List.map_eq_append_iff.1 h
  obtain rfl : word = bearerWord := valueChars_injective hword
  rcases List.append_eq_append_iff.1 hv with ⟨inner, hinner, hw'⟩ | ⟨inner, rfl, rfl⟩
  · -- the word ends with the token, for no letter of it is a blank
    have hinner' : ∀ b ∈ inner, False := by
      intro b hb
      have hletter : b ∈ bearerWord := hinner ▸ List.mem_append_right _ hb
      have hblank := hw b (hw' ▸ List.mem_append_left _ hb)
      revert hletter
      rcases hblank with rfl | rfl <;> decide
    obtain rfl := List.eq_nil_iff_forall_not_mem.2 hinner'
    rw [List.append_nil] at hinner
    rw [← hinner]
    exact .alone
  · cases inner with
    | nil =>
      rw [List.append_nil]
      exact .alone
    | cons b inner =>
      have hplain := ht.plain b (List.mem_append_right _ List.mem_cons_self)
      exact .followed ((isBlank_iff hplain).1 (hrest _ rfl))

/-! ## What remains of a value -/

/-- What is left of a value when its blanks and its bearer word are gone. -/
def remains (value : List UInt8) : List Char :=
  trim (afterBearer (trimStart (valueChars value)))

/-- Behind the bearer word and a blank the token is what stands between the blanks. -/
lemma remains_bearer (hw : Spacing w) (hw' : ∀ c, (valueChars w').head? = some c →
    isBlank c = true) : remains (w ++ bearerWord ++ w') = trim (valueChars w') := by
  have hbearer : trimStart (bearer ++ valueChars w') = bearer ++ valueChars w' :=
    trimStart_eq_self fun c hc => Option.some.inj hc ▸ rfl
  rw [remains, valueChars_append, valueChars_append, List.append_assoc,
    trimStart_append hw.isBlank, valueChars_bearerWord, hbearer, afterBearer_append hw']

lemma BlankValue.remains_eq_nil (h : BlankValue v) : remains v = [] := by
  rcases h with hw | ⟨hw, hw'⟩
  · have hnil : trimStart (valueChars v) = [] := List.dropWhile_eq_nil_iff.2 hw.isBlank
    rw [remains, hnil]
    rfl
  · rw [remains_bearer hw fun c hc => hw'.isBlank c (List.mem_of_mem_head? hc)]
    exact trim_eq_nil_iff.2 hw'.isBlank

lemma NamesToken.remains_eq (h : NamesToken v t) : remains v = valueChars t := by
  cases h with
  | @bare w _ w' hw ht hled hw' =>
    -- Nothing is taken but the blanks before the token; those behind it wait for the second
    -- trimming.
    have hstart : trimStart (valueChars (w ++ t ++ w')) = valueChars (t ++ w') := by
      rw [List.append_assoc, valueChars_append, trimStart_append hw.isBlank]
      refine trimStart_eq_self fun c hc => ht.solid.head c ?_
      rwa [valueChars_append, List.head?_append_of_ne_nil _ ht.solid.ne_nil] at hc
    have hafter : afterBearer (valueChars (t ++ w')) = valueChars (t ++ w') := by
      rcases afterBearer_cases (valueChars (t ++ w')) with hsame | ⟨rest, hrest, hblank⟩
      · exact hsame
      · exact absurd (ledByBearer_of_append ht hw' hrest hblank) hled
    rw [remains, hstart, hafter, valueChars_append]
    exact trim_solid (w := []) (fun c hc => absurd hc List.not_mem_nil) ht.solid hw'.isBlank
  | @bearer w w' _ w'' hw hw' hne ht hw'' =>
    have hhead : ∀ c, (valueChars (w' ++ t ++ w'')).head? = some c → isBlank c = true := by
      obtain ⟨b, rest, rfl⟩ := List.exists_cons_of_ne_nil hne
      intro c hc
      obtain rfl := Option.some.inj hc
      exact hw'.isBlank _ List.mem_cons_self
    rw [remains_bearer hw hhead, valueChars_append, valueChars_append]
    exact trim_solid hw'.isBlank ht.solid hw''.isBlank

/-! ## The token in a value -/

lemma tokenInHeader_plain (h : ∀ b ∈ v, isPlainByte b = true) : tokenInHeader v =
    if remains v = [] then .ok none else .ok (some (String.ofList (remains v))) := by
  have hplain : plainText? v = some (valueChars v) := if_pos (List.all_eq_true.2 h)
  simp only [tokenInHeader, hplain]
  rw [← remains]
  cases remains v with
  | nil => rfl
  | cons c cs => rfl

lemma tokenInHeader_of_not_plain (h : ¬∀ b ∈ v, isPlainByte b = true) :
    tokenInHeader v = .error .invalidToken := by
  have hnone : plainText? v = none := if_neg fun hall => h (List.all_eq_true.1 hall)
  simp only [tokenInHeader, hnone]

lemma BlankValue.tokenInHeader_eq (h : BlankValue v) : tokenInHeader v = .ok none := by
  rw [tokenInHeader_plain h.plain, if_pos h.remains_eq_nil]

lemma NamesToken.tokenInHeader_eq (h : NamesToken v t) :
    tokenInHeader v = .ok (some (String.ofList (valueChars t))) := by
  rw [tokenInHeader_plain h.plain, h.remains_eq, if_neg h.bare_token.solid.ne_nil]

/-- There are three kinds of values, and what is read says of which kind a value is. -/
lemma tokenInHeader_cases (v : List UInt8) :
    ((¬∀ b ∈ v, isPlainByte b = true) ∧ tokenInHeader v = .error .invalidToken) ∨
    (BlankValue v ∧ tokenInHeader v = .ok none) ∨
    ∃ t, NamesToken v t ∧ tokenInHeader v = .ok (some (String.ofList (valueChars t))) := by
  by_cases hplain : ∀ b ∈ v, isPlainByte b = true
  · rcases blank_or_names hplain with hblank | ⟨t, hnames⟩
    · exact .inr (.inl ⟨hblank, hblank.tokenInHeader_eq⟩)
    · exact .inr (.inr ⟨t, hnames, hnames.tokenInHeader_eq⟩)
  · exact .inl ⟨hplain, tokenInHeader_of_not_plain hplain⟩

theorem tokenInHeader_eq_error_iff {e : AuthError} : tokenInHeader v = .error e ↔
    e = .invalidToken ∧ ¬∀ b ∈ v, isPlainByte b = true := by
  constructor
  · intro h
    rcases tokenInHeader_cases v with ⟨hplain, hv⟩ | ⟨-, hv⟩ | ⟨t, -, hv⟩
    · exact ⟨Except.error.inj (h.symm.trans hv), hplain⟩
    · exact nomatch h.symm.trans hv
    · exact nomatch h.symm.trans hv
  · rintro ⟨rfl, hplain⟩
    exact tokenInHeader_of_not_plain hplain

/-- A value names no token exactly if it is spaces and tabs with at most the bearer word among
them. -/
theorem tokenInHeader_eq_none_iff : tokenInHeader v = .ok none ↔ BlankValue v := by
  refine ⟨fun h => ?_, BlankValue.tokenInHeader_eq⟩
  rcases tokenInHeader_cases v with ⟨-, hv⟩ | ⟨hblank, -⟩ | ⟨t, -, hv⟩
  · exact nomatch h.symm.trans hv
  · exact hblank
  · exact nomatch h.symm.trans hv

/-- A token is read exactly where a value names it. -/
theorem tokenInHeader_eq_some_iff {token : String} : tokenInHeader v = .ok (some token) ↔
    ∃ t, NamesToken v t ∧ token = String.ofList (valueChars t) := by
  constructor
  · intro h
    rcases tokenInHeader_cases v with ⟨-, hv⟩ | ⟨-, hv⟩ | ⟨t, hnames, hv⟩
    · exact nomatch h.symm.trans hv
    · exact nomatch h.symm.trans hv
    · exact ⟨t, hnames, Option.some.inj (Except.ok.inj (h.symm.trans hv))⟩
  · rintro ⟨t, hnames, rfl⟩
    exact hnames.tokenInHeader_eq

end Values

/-! ## The token in the header fields -/

/-- What is read from the first authorization field.  It is refused, and then as an invalid token,
where its value has a byte that is neither visible ASCII nor a space or a tab; there is no token
where the value is spaces and tabs with at most the bearer word among them; and a token is read
where the value names it, as the value has it.  So the bearer word is taken away at most once, and
only where a space or a tab stands between it and the token; and a token is not empty, nor is there
a blank at an end of it. -/
theorem header_tokens_read_exactly (headers : List Header) (v : List UInt8)
    (hfirst : Header.first? headers "authorization" = some v) :
    (∀ e, headerToken headers = .error e ↔
      e = .invalidToken ∧ ∃ b ∈ v, ¬(0x21 ≤ b ∧ b ≤ 0x7E ∨ b = 0x20 ∨ b = 0x09)) ∧
    (headerToken headers = .ok none ↔ BlankValue v) ∧
    (∀ token, headerToken headers = .ok (some token) ↔
      ∃ t, NamesToken v t ∧ token = String.ofList (valueChars t)) ∧
    ∀ token, headerToken headers = .ok (some token) → Solid token.toList := by
  have hread : headerToken headers = tokenInHeader v := by
    rw [headerToken, hfirst]
  rw [hread]
  refine ⟨fun e => ?refused, tokenInHeader_eq_none_iff, fun _ => tokenInHeader_eq_some_iff,
    fun token htoken => ?solid⟩
  case refused =>
    rw [tokenInHeader_eq_error_iff]
    simp only [isPlainByte_iff, not_forall, exists_prop]
  case solid =>
    obtain ⟨t, hnames, rfl⟩ := tokenInHeader_eq_some_iff.1 htoken
    rw [String.toList_ofList]
    exact hnames.bare_token.solid

/-- Of two bearer words one is taken away, and the other one is part of the token. -/
theorem header_tokens_read_exactly_led_twice :
    let token := Utf8.encode "Bearer a"
    let value := [0x09] ++ bearerWord ++ ([0x20, 0x20] ++ token ++ [0x20])
    let headers : List Header := [⟨"accept", Utf8.encode "*/*"⟩, ⟨"authorization", value⟩]
    Header.first? headers "authorization" = some value ∧ NamesToken value token ∧
      headerToken headers = .ok (some "Bearer a") ∧ Solid "Bearer a".toList := by
  intro token value headers
  have hfirst : Header.first? headers "authorization" = some value := rfl
  have hbare : Bare token := by
    refine ⟨List.all_eq_true.1 (show token.all isPlainByte = true from rfl), by decide, ?_, ?_⟩
    · rintro b ⟨⟩
      decide
    · rintro b ⟨⟩
      decide
  have htab : Spacing [0x09] := by simp [Spacing]
  have hspaces : Spacing [0x20, 0x20] := by simp [Spacing]
  have hspace : Spacing [0x20] := by simp [Spacing]
  have hnames : NamesToken value token :=
    .bearer htab hspaces (List.cons_ne_nil _ _) hbare hspace
  obtain ⟨-, -, hread, hsolid⟩ := header_tokens_read_exactly headers value hfirst
  have htoken : headerToken headers = .ok (some "Bearer a") :=
    (hread "Bearer a").2 ⟨token, hnames, by decide⟩
  exact ⟨hfirst, hnames, htoken, hsolid _ htoken⟩

end Gatehouse
