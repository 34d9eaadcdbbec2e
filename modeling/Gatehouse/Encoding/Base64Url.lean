/-!
# Base64 for URLs

Bytes written in the URL-safe alphabet without padding.  Reading accepts exactly what writing
produces: the bits that the last character has to spare must be zero.
-/

namespace Gatehouse.Base64Url

/-! ## Characters -/

/-- The character for a number below sixty-four. -/
def letter (n : Nat) : Char :=
  if n < 26 then Char.ofNat (65 + n)
  else if n < 52 then Char.ofNat (71 + n)
  else if n < 62 then Char.ofNat (n - 4)
  else if n = 62 then '-' else '_'

/-- The number a character stands for. -/
def value? (c : Char) : Option Nat :=
  if 'A' ≤ c ∧ c ≤ 'Z' then some (c.toNat - 65)
  else if 'a' ≤ c ∧ c ≤ 'z' then some (c.toNat - 71)
  else if '0' ≤ c ∧ c ≤ '9' then some (c.toNat + 4)
  else if c = '-' then some 62
  else if c = '_' then some 63
  else none

theorem value?_letter {n : Nat} (h : n < 64) : value? (letter n) = some n := by
  revert h; revert n; decide

/-- The alphabet lies between the hyphen and the small z. -/
theorem bounds_of_value? {c : Char} (h : (value? c).isSome) : 45 ≤ c.toNat ∧ c.toNat ≤ 122 := by
  have hle : ∀ a b : Char, a ≤ b ↔ a.toNat ≤ b.toNat := fun a b => UInt32.le_iff_toNat_le
  unfold value? at h
  simp only [hle] at h
  split at h
  · next hcapital =>
    exact ⟨Nat.le_trans (by decide) hcapital.1, Nat.le_trans hcapital.2 (by decide)⟩
  split at h
  · next hsmall => exact ⟨Nat.le_trans (by decide) hsmall.1, Nat.le_trans hsmall.2 (by decide)⟩
  split at h
  · next hdigit => exact ⟨Nat.le_trans (by decide) hdigit.1, Nat.le_trans hdigit.2 (by decide)⟩
  split at h
  · next hhyphen => rw [hhyphen]; decide
  split at h
  · next hline => rw [hline]; decide
  · cases h

/-! ## Writing -/

/-- The text of the bytes: four characters for three bytes, two or three for a remainder. -/
def encode : List UInt8 → List Char
  | a :: b :: c :: rest =>
    let n := a.toNat * 65536 + b.toNat * 256 + c.toNat
    letter (n / 262144) :: letter (n / 4096 % 64) :: letter (n / 64 % 64) :: letter (n % 64) ::
      encode rest
  | [a, b] =>
    let n := (a.toNat * 256 + b.toNat) * 4
    [letter (n / 4096), letter (n / 64 % 64), letter (n % 64)]
  | [a] =>
    let n := a.toNat * 16
    [letter (n / 64), letter (n % 64)]
  | [] => []

/-! ## Reading -/

/-- The bytes that a list of six-bit numbers spells. -/
def join : List Nat → Option (List UInt8)
  | a :: b :: c :: d :: rest =>
    let n := ((a * 64 + b) * 64 + c) * 64 + d
    (join rest).map fun bytes =>
      UInt8.ofNat (n / 65536) :: UInt8.ofNat (n / 256 % 256) :: UInt8.ofNat (n % 256) :: bytes
  | [a, b, c] =>
    let n := (a * 64 + b) * 64 + c
    if n % 4 = 0 then some [UInt8.ofNat (n / 1024), UInt8.ofNat (n / 4 % 256)] else none
  | [a, b] =>
    let n := a * 64 + b
    if n % 16 = 0 then some [UInt8.ofNat (n / 16)] else none
  | [_] => none
  | [] => some []

/-- The bytes that a text spells. -/
def decode? (cs : List Char) : Option (List UInt8) := (cs.mapM value?).bind join

/-! ## Reading what was written -/

/-- The six-bit numbers that bytes are written as. -/
def sextets : List UInt8 → List Nat
  | a :: b :: c :: rest =>
    let n := a.toNat * 65536 + b.toNat * 256 + c.toNat
    n / 262144 :: n / 4096 % 64 :: n / 64 % 64 :: n % 64 :: sextets rest
  | [a, b] =>
    let n := (a.toNat * 256 + b.toNat) * 4
    [n / 4096, n / 64 % 64, n % 64]
  | [a] =>
    let n := a.toNat * 16
    [n / 64, n % 64]
  | [] => []

theorem encode_eq_map (bytes : List UInt8) : encode bytes = (sextets bytes).map letter := by
  fun_induction encode bytes with
  | case1 a b c rest n ih => simp only [sextets, List.map_cons, ih, n]
  | case2 a b n => rfl
  | case3 a n => rfl
  | case4 => rfl

theorem lt_of_mem_sextets {bytes : List UInt8} {n : Nat} (h : n ∈ sextets bytes) : n < 64 := by
  fun_induction sextets bytes with
  | case1 a b c rest m ih =>
    have ha := a.toNat_lt
    have hb := b.toNat_lt
    have hc := c.toNat_lt
    simp only [List.mem_cons] at h
    rcases h with rfl | rfl | rfl | rfl | h
    · omega
    · omega
    · omega
    · omega
    · exact ih h
  | case2 a b m =>
    have ha := a.toNat_lt
    have hb := b.toNat_lt
    simp only [List.mem_cons, List.not_mem_nil, or_false] at h
    omega
  | case3 a m =>
    have ha := a.toNat_lt
    simp only [List.mem_cons, List.not_mem_nil, or_false] at h
    omega
  | case4 => cases h

theorem mapM_value?_map_letter {ns : List Nat} (h : ∀ n ∈ ns, n < 64) :
    (ns.map letter).mapM value? = some ns := by
  induction ns with
  | nil => rfl
  | cons n ns ih =>
    have hn := value?_letter (h n List.mem_cons_self)
    have hns := ih fun m hm => h m (List.mem_cons_of_mem _ hm)
    rw [List.map_cons, List.mapM_cons, hn, hns]
    rfl

theorem join_sextets (bytes : List UInt8) : join (sextets bytes) = some bytes := by
  fun_induction sextets bytes with
  | case1 a b c rest n ih =>
    have ha := a.toNat_lt
    have hb := b.toNat_lt
    have hc := c.toNat_lt
    have hn : ((n / 262144 * 64 + n / 4096 % 64) * 64 + n / 64 % 64) * 64 + n % 64 = n := by omega
    have h1 : n / 65536 = a.toNat := by omega
    have h2 : n / 256 % 256 = b.toNat := by omega
    have h3 : n % 256 = c.toNat := by omega
    simp only [join, ih, hn, h1, h2, h3, Option.map_some, UInt8.ofNat_toNat]
  | case2 a b n =>
    have ha := a.toNat_lt
    have hb := b.toNat_lt
    have hn : (n / 4096 * 64 + n / 64 % 64) * 64 + n % 64 = n := by omega
    have h0 : n % 4 = 0 := by omega
    have h1 : n / 1024 = a.toNat := by omega
    have h2 : n / 4 % 256 = b.toNat := by omega
    simp only [join, hn, h0, h1, h2, if_true, UInt8.ofNat_toNat]
  | case3 a n =>
    have ha := a.toNat_lt
    have hn : n / 64 * 64 + n % 64 = n := by omega
    have h0 : n % 16 = 0 := by omega
    have h1 : n / 16 = a.toNat := by omega
    simp only [join, hn, h0, h1, if_true, UInt8.ofNat_toNat]
  | case4 => rfl

@[simp] theorem decode?_encode (bytes : List UInt8) : decode? (encode bytes) = some bytes := by
  rw [decode?, encode_eq_map, mapM_value?_map_letter fun n => lt_of_mem_sextets,
    Option.bind_some, join_sextets]

/-- Only characters of the alphabet are written. -/
theorem value?_isSome_of_mem_encode {bytes : List UInt8} {c : Char} (h : c ∈ encode bytes) :
    (value? c).isSome := by
  rw [encode_eq_map] at h
  obtain ⟨n, hn, rfl⟩ := List.mem_map.1 h
  rw [value?_letter (lt_of_mem_sextets hn)]
  rfl

theorem value?_isSome_of_mapM {cs : List Char} {ns : List Nat} {c : Char}
    (h : cs.mapM value? = some ns) (hc : c ∈ cs) : (value? c).isSome := by
  induction cs generalizing ns with
  | nil => exact absurd hc List.not_mem_nil
  | cons d cs ih =>
    rw [List.mapM_cons] at h
    obtain ⟨n, hn, hrest⟩ := Option.bind_eq_some_iff.1 h
    obtain ⟨ns', hns', -⟩ := Option.bind_eq_some_iff.1 hrest
    rcases List.mem_cons.1 hc with rfl | hc
    · exact Option.isSome_of_eq_some hn
    · exact ih hns' hc

/-- Only characters of the alphabet are read. -/
theorem value?_isSome_of_decode? {cs : List Char} {bytes : List UInt8} {c : Char}
    (h : decode? cs = some bytes) (hc : c ∈ cs) : (value? c).isSome := by
  obtain ⟨ns, hns, -⟩ := Option.bind_eq_some_iff.1 h
  exact value?_isSome_of_mapM hns hc

end Gatehouse.Base64Url
