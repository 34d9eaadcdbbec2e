import Gatehouse.Text.Hex
import Gatehouse.Text.Utf8

/-!
# Percent-encoding and form fields

Paths and queries spell bytes as `%` and two hexadecimal digits.  An escape that is not of that
form stands for itself.  A query holds fields `name=value` joined by `&`, in which a `+` is a
space; a `;` is an ordinary character.
-/

namespace Gatehouse.Text.Percent

/-- The number a byte stands for as a hexadecimal digit. -/
def hexValue? (b : UInt8) : Option Nat := Hex.value? (Char.ofNat b.toNat)

/-- The bytes with every escape replaced by the byte it spells. -/
def decode : List UInt8 → List UInt8
  | [] => []
  | 0x25 :: hi :: lo :: rest =>
    match hexValue? hi, hexValue? lo with
    | some h, some l => UInt8.ofNat (h * 16 + l) :: decode rest
    | _, _ => 0x25 :: decode (hi :: lo :: rest)
  | b :: rest => b :: decode rest

/-- One side of a form field as text: plus signs are spaces, escapes are resolved, and bytes
that spell no text are shown as U+FFFD. -/
def fieldText (bytes : List UInt8) : String :=
  String.ofList (Utf8.decodeLossy (decode (bytes.map fun b => if b == 0x2B then 0x20 else b)))

/-- One field: its name before the first `=`, its value after it. -/
def field (bytes : List UInt8) : String × String :=
  (fieldText (bytes.takeWhile (· != 0x3D)), fieldText ((bytes.dropWhile (· != 0x3D)).drop 1))

/-- The fields of a query, in order; nothing between two `&` is no field. -/
def formFields (query : List UInt8) : List (String × String) :=
  ((query.splitOn 0x26).filter (fun piece => !piece.isEmpty)).map field

/-! ## Texts that stand for themselves -/

theorem decode_eq_self {bytes : List UInt8} (h : ∀ b ∈ bytes, b ≠ 0x25) : decode bytes = bytes := by
  induction bytes with
  | nil => rfl
  | cons b bytes ih =>
    have hb : b ≠ 0x25 := h b List.mem_cons_self
    have hbytes := ih fun c hc => h c (List.mem_cons_of_mem _ hc)
    rw [decode.eq_3 b bytes fun hi lo rest heq => absurd heq hb, hbytes]

/-- A text in ASCII without percent and plus signs stands for itself. -/
theorem fieldText_encode {s : String}
    (h : ∀ c ∈ s.toList, c.toNat < 128 ∧ c ≠ '%' ∧ c ≠ '+') : fieldText (Utf8.encode s) = s := by
  have hascii : ∀ c ∈ s.toList, c.toNat < 128 := fun c hc => (h c hc).1
  have hpercent : ∀ b ∈ Utf8.encode s, b ≠ 0x25 := by
    rw [Utf8.encode_eq_encodeChars, Utf8.encodeChars_ascii hascii]
    intro b hb
    obtain ⟨c, hc, rfl⟩ := List.mem_map.1 hb
    exact Utf8.ofNat_toNat_ne (hascii c hc) (h c hc).2.1
  have hplus : (Utf8.encode s).map (fun b => if b == 0x2B then 0x20 else b) = Utf8.encode s := by
    rw [Utf8.encode_eq_encodeChars, Utf8.encodeChars_ascii hascii, List.map_map]
    refine List.map_congr_left fun c hc => if_neg ?_
    rw [beq_iff_eq]
    exact Utf8.ofNat_toNat_ne (hascii c hc) (h c hc).2.2
  rw [fieldText, hplus, decode_eq_self hpercent, Utf8.encode_eq_encodeChars,
    Utf8.decodeLossy_encodeChars hascii, String.ofList_toList]

end Gatehouse.Text.Percent
