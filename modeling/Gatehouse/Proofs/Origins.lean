import Gatehouse.Proofs.Pieces
import Gatehouse.Service.Cors
import Mathlib.Data.List.Basic
import Mathlib.Tactic.Lemma

/-!
# Lists of origins

The origins whose pages may use the service are given as text, in pieces between commas, semicolons
and spaces.  Whether a piece can be sent is settled on the bytes of a header field; of characters it
says that no control character but the tab is among them (`Cors.isOrigin_iff`), since all bytes of a
character beyond ASCII are beyond ASCII too.  The pieces that can be sent are the allowed origins,
in their order, and all others are passed over.

A star can be sent, so it is not passed over as other pieces are that name no origin.  It is what
keeps a list from being made, and nothing else does (`Cors.ofOrigins?_eq_none_iff`).
-/

namespace Gatehouse

open Http Text

/-! ## What can be sent -/

/-- No control character but tabs is in the text. -/
def Sendable (cs : List Char) : Prop :=
  ∀ c ∈ cs, c = '\t' ∨ 0x20 ≤ c.toNat ∧ c.toNat ≠ 0x7F

instance (cs : List Char) : Decidable (Sendable cs) := List.decidableBAll _ cs

lemma Http.isValueByte_iff {b : UInt8} :
    isValueByte b = true ↔ b.toNat = 9 ∨ 0x20 ≤ b.toNat ∧ b.toNat ≠ 0x7F := by
  simp only [isValueByte, Bool.or_eq_true, Bool.and_eq_true, beq_iff_eq, bne_iff_ne, ne_eq,
    decide_eq_true_eq, UInt8.le_iff_toNat_le, ← UInt8.toNat_inj]
  rfl

/-- A character can be sent unless it is a control character other than the tab. -/
lemma Http.isValueByte_utf8EncodeChar (c : Char) :
    (∀ b ∈ String.utf8EncodeChar c, isValueByte b = true) ↔
      c = '\t' ∨ 0x20 ≤ c.toNat ∧ c.toNat ≠ 0x7F := by
  by_cases hc : c.toNat < 128
  · have hcode : (UInt8.ofNat c.toNat).toNat = c.toNat :=
      UInt8.toNat_ofNat_of_lt' (Nat.lt_trans hc (by decide))
    rw [Utf8.utf8EncodeChar_ascii hc, List.forall_mem_singleton, isValueByte_iff, hcode,
      ← Char.toNat_inj]
    rfl
  · have hle : 128 ≤ c.toNat := Nat.not_lt.1 hc
    -- All bytes of a longer character lie above 127, so none is a control character.
    refine iff_of_true (fun b hb => isValueByte_iff.2 (.inr ?_)) (.inr ⟨by omega, by omega⟩)
    have hbyte : 128 ≤ b.toNat := Utf8.le_of_mem_utf8EncodeChar hle hb
    exact ⟨by omega, by omega⟩

lemma Cors.isOrigin_iff {s : String} : isOrigin s = true ↔ Sendable s.toList := by
  rw [isOrigin, Utf8.encode_eq_encodeChars, Utf8.encodeChars, List.all_flatMap, List.all_eq_true]
  exact forall₂_congr fun c _ => List.all_eq_true.trans (isValueByte_utf8EncodeChar c)

lemma Text.Utf8.encode_injective {s s' : String} (h : Utf8.encode s = Utf8.encode s') : s = s' := by
  have hread := congrArg Utf8.decode? h
  rwa [Utf8.decode?_encode, Utf8.decode?_encode, Option.some.injEq] at hread

/-! ## What is allowed -/

variable {items : List (List Char)} {given : List String} {s : String} {cors : Cors}

/-- Commas, semicolons and spaces; origins stand between them. -/
def isOriginMark (c : Char) : Bool := c == ',' || c == ';' || c == ' '

/-- The origins that stand in pieces of a text: what is left of them without the blanks around it,
where something is left and can be sent. -/
def originsIn (items : List (List Char)) : List String :=
  ((items.map trim).filter fun piece => decide (piece ≠ [] ∧ Sendable piece)).map String.ofList

lemma listItems_of_divided (h : Divided isOriginMark s.toList items) :
    listItems s = ((items.map trim).filter fun piece => !piece.isEmpty).map String.ofList :=
  pieces_of_divided h

lemma filter_isOrigin_listItems (h : Divided isOriginMark s.toList items) :
    (listItems s).filter Cors.isOrigin = originsIn items := by
  rw [listItems_of_divided h, List.filter_map, List.filter_filter, originsIn]
  refine congrArg (List.map String.ofList) (List.filter_congr fun piece _ => ?_)
  rw [Bool.eq_iff_iff, Bool.and_eq_true, decide_eq_true_eq, Function.comp_apply,
    Cors.isOrigin_iff, String.toList_ofList, Bool.not_eq_true', List.isEmpty_eq_false_iff]
  exact and_comm

lemma star_mem_listItems (h : Divided isOriginMark s.toList items) :
    "*" ∈ listItems s ↔ ∃ item ∈ items, trim item = ['*'] := by
  have hstar : "*" = String.ofList ['*'] := rfl
  rw [listItems_of_divided h, hstar, List.mem_map_of_injective fun _ _ => String.ofList_injective,
    List.mem_filter, List.mem_map]
  exact and_iff_left rfl

namespace Cors

/-- A star can be sent, so a list with a star in it is refused, and no other list is. -/
lemma ofOrigins?_eq_none_iff : ofOrigins? given = none ↔ "*" ∈ given := by
  have hstar : isOrigin "*" = true := by decide
  have hmem : "*" ∈ given.filter isOrigin ↔ "*" ∈ given := by
    rw [List.mem_filter, and_iff_left hstar]
  rw [← hmem, ofOrigins?]
  split
  · next h => exact iff_of_true rfl h
  · next h => exact iff_of_false (Option.some_ne_none _) h

lemma origins_of_ofOrigins? (h : ofOrigins? given = some cors) :
    cors.origins = given.filter isOrigin := by
  unfold ofOrigins? at h
  split at h
  · exact nomatch h
  · obtain rfl := Option.some.inj h
    rfl

/-- A request comes from an allowed origin when the field says so exactly. -/
lemma origin?_eq_some_iff {request : Request} {origin : String} :
    cors.origin? request = some origin ↔ origin ∈ cors.origins ∧
      Header.first? request.headers "origin" = some (Utf8.encode origin) := by
  rw [origin?, Option.bind_eq_some_iff]
  constructor
  · rintro ⟨value, hvalue, hfound⟩
    have hbytes := List.find?_some hfound
    obtain rfl := eq_of_beq hbytes
    exact ⟨List.mem_of_find?_eq_some hfound, hvalue⟩
  · rintro ⟨hmem, hvalue⟩
    refine ⟨_, hvalue, ?_⟩
    -- The list may hold the text twice; what is found has the same bytes, and so is the same text.
    have hsome : (cors.origins.find? fun o => Utf8.encode o == Utf8.encode origin).isSome :=
      List.find?_isSome.2 ⟨origin, hmem, beq_self_eq_true _⟩
    obtain ⟨found, hfound⟩ := Option.isSome_iff_exists.1 hsome
    have hbytes := List.find?_some hfound
    rw [hfound, Utf8.encode_injective (eq_of_beq hbytes)]

end Cors

/-- The origins of settings are the items of the text that is given for them. -/
lemma Settings.allowOrigins_of_ofGiven {given : Settings.Given} {settings : Settings}
    (htext : Settings.text? given "AUTH_ALLOW_ORIGINS" = some s)
    (h : Settings.ofGiven given = .ok settings) : settings.allowOrigins = listItems s := by
  rw [ofGiven, htext] at h
  split at h
  · exact nomatch h
  · split at h
    · exact nomatch h
    · obtain rfl := Except.ok.inj h
      rfl

/-! ## What the setting means -/

/-- The allowed origins are those that the setting lists, unless it lists a star.  The settings take
over what stands between commas, semicolons and spaces.  A list can be made of that just when none
of the pieces is a star, and then it has the pieces that can be sent, in their order, and no others:
these are the origins that requests may come from. -/
theorem origins_listed_exactly (s : String) (items : List (List Char))
    (h : Divided isOriginMark s.toList items) :
    (∀ given settings, Settings.text? given "AUTH_ALLOW_ORIGINS" = some s →
      Settings.ofGiven given = .ok settings → settings.allowOrigins = listItems s) ∧
    ((∃ cors, Cors.ofOrigins? (listItems s) = some cors) ↔ ∀ item ∈ items, trim item ≠ ['*']) ∧
    ∀ cors, Cors.ofOrigins? (listItems s) = some cors →
      cors.origins = originsIn items ∧
      ∀ request origin, cors.origin? request = some origin ↔ origin ∈ originsIn items ∧
        Header.first? request.headers "origin" = some (Utf8.encode origin) := by
  refine ⟨fun _ _ => Settings.allowOrigins_of_ofGiven, ?built, fun cors hcors => ?allowed⟩
  case built =>
    rw [← Option.isSome_iff_exists, ← Option.ne_none_iff_isSome, ne_eq,
      Cors.ofOrigins?_eq_none_iff, star_mem_listItems h]
    exact ⟨fun hno item hmem hstar => hno ⟨item, hmem, hstar⟩,
      fun hno ⟨item, hmem, hstar⟩ => hno item hmem hstar⟩
  case allowed =>
    have horigins : cors.origins = originsIn items :=
      (Cors.origins_of_ofOrigins? hcors).trans (filter_isOrigin_listItems h)
    refine ⟨horigins, fun request origin => ?_⟩
    rw [← horigins]
    exact Cors.origin?_eq_some_iff

/-- Of four pieces, one is empty and one has a line feed in it, and the other two are allowed. -/
theorem origins_listed_exactly_two :
    let given := [("AUTH_ALLOW_ORIGINS", Utf8.encode "http://a.b, http://c\nd;null")]
    let items := ["http://a.b".toList, [], "http://c\nd".toList, "null".toList]
    let request : Request := ⟨.get, ⟨"/healthz", ""⟩, [⟨"origin", Utf8.encode "null"⟩], []⟩
    Divided isOriginMark "http://a.b, http://c\nd;null".toList items ∧
      ∃ settings cors, Settings.ofGiven given = .ok settings ∧
        Cors.ofOrigins? settings.allowOrigins = some cors ∧
          cors.origins = ["http://a.b", "null"] ∧ cors.origin? request = some "null" := by
  intro given items request
  have hitems : Divided isOriginMark "http://a.b, http://c\nd;null".toList items :=
    divided_iff.2 (by decide)
  obtain ⟨htaken, hbuilt, hallowed⟩ := origins_listed_exactly _ items hitems
  obtain ⟨settings, hsettings⟩ : ∃ settings,
      Settings.ofGiven [("AUTH_ALLOW_ORIGINS", Utf8.encode "http://a.b, http://c\nd;null")] =
        .ok settings := ⟨_, rfl⟩
  have htext : Settings.text? given "AUTH_ALLOW_ORIGINS" =
      some "http://a.b, http://c\nd;null" := by
    simp [given, Settings.text?]
  have hnoStar : ∀ item ∈ items, trim item ≠ ['*'] := by decide
  obtain ⟨cors, hcors⟩ := hbuilt.2 hnoStar
  have horigins : originsIn items = ["http://a.b", "null"] := by decide
  obtain ⟨hlist, hrequests⟩ := hallowed cors hcors
  refine ⟨hitems, settings, cors, hsettings, ?_, hlist.trans horigins,
    (hrequests request "null").2 ⟨?_, rfl⟩⟩
  · rw [htaken given settings htext hsettings, hcors]
  · rw [horigins]
    exact List.mem_cons_of_mem _ List.mem_cons_self

/-- Settings take over a star, and then no list can be made of what they say. -/
theorem star_spoils_origins :
    Cors.ofOrigins? (listItems "*") = none ∧
      ∃ settings, Settings.ofGiven [("AUTH_ALLOW_ORIGINS", Utf8.encode "*")] = .ok settings ∧
        Cors.ofOrigins? settings.allowOrigins = none :=
  ⟨rfl, _, rfl, rfl⟩

end Gatehouse
