import Gatehouse.Proofs.JsonValues
import Gatehouse.Session.Claims
import Mathlib.Data.List.Nodup

/-!
# What records accept

A form is lawful when the value it writes has the form's shape, is in normal form already, and
means what was written (`Form.Lawful`).  Bytes that a lawful form wrote are then read as the value
(`Form.Lawful.parse?`).  For a record that comes down to its fields: if each of them is in the
shape that the field expects, then so is the record (`Shape.record_ofMembers`), because no name
stands twice.

In the other direction, a record says something about every document it accepts: each field
without a default has a member (`Shape.mem_of_record_object`), and each member or item that a
field asks for fits it (`Shape.fits_of_record_object`, `Shape.fits_of_record_array`).
-/

namespace Gatehouse

open Document

/-! ## Records -/

namespace Shape

section Records

variable {fields : List Field} {ms : List (String × Json)}

lemma lookup_of_mem {name : String} {j : Json} (hnames : (ms.map Prod.fst).Nodup)
    (h : (name, j) ∈ ms) : ms.lookup name = some j := by
  induction ms with
  | nil => exact absurd h List.not_mem_nil
  | cons m ms ih =>
    obtain ⟨other, j'⟩ := m
    rw [List.map_cons, List.nodup_cons] at hnames
    rw [List.lookup_cons]
    rcases List.mem_cons.1 h with heq | hmem
    · obtain ⟨rfl, rfl⟩ := Prod.mk.inj heq
      simp
    · have hne : name ≠ other := by
        rintro rfl
        exact hnames.1 (List.mem_map.2 ⟨(name, j), hmem, rfl⟩)
      simp only [beq_eq_false_iff_ne.2 hne, ih hnames.2 hmem]

lemma lookup_eq_none {name : String} (h : name ∉ ms.map Prod.fst) : ms.lookup name = none := by
  rw [List.lookup_eq_none_iff]
  exact fun m hm => bne_iff_ne.2 (ne_of_mem_of_not_mem (List.mem_map_of_mem hm) h).symm

lemma field?_of_mem (hnames : (fields.map Field.name).Nodup) {f : Field} (hf : f ∈ fields) :
    field? fields f.name = some f := by
  have hsome : (field? fields f.name).isSome := by
    rw [field?, List.find?_isSome]
    exact ⟨f, hf, beq_self_eq_true _⟩
  obtain ⟨g, hg⟩ := Option.isSome_iff_exists.1 hsome
  have hname : g.name = f.name :=
    beq_iff_eq.1 (List.find?_some (p := fun g : Field => g.name == f.name) hg)
  rw [hg, List.inj_on_of_nodup_map hnames (List.mem_of_find?_eq_some hg) hf hname]

/-- The member has the name of the field, and its value is what the field expects, in normal
form. -/
structure FitsField (f : Field) (m : String × Json) : Prop where
  name : f.name = m.1
  shape : f.shape (ofJson m.2) = .ok m.2

lemma names_of_fits (h : List.Forall₂ FitsField fields ms) :
    fields.map Field.name = ms.map Prod.fst := by
  induction h with
  | nil => rfl
  | cons hfit _ ih => rw [List.map_cons, List.map_cons, hfit.name, ih]

lemma exists_field_of_fits (h : List.Forall₂ FitsField fields ms) :
    ∀ m ∈ ms, ∃ f ∈ fields, FitsField f m := by
  induction h with
  | nil => exact fun _ hm => absurd hm List.not_mem_nil
  | @cons f m fields ms hfit _ ih =>
    intro m' hm'
    rcases List.mem_cons.1 hm' with rfl | hm'
    · exact ⟨f, List.mem_cons_self, hfit⟩
    · obtain ⟨f', hf', hfit'⟩ := ih m' hm'
      exact ⟨f', List.mem_cons_of_mem _ hf', hfit'⟩

lemma members_ofMembers (hnames : (fields.map Field.name).Nodup)
    (hfits : ∀ m ∈ ms, ∃ f ∈ fields, FitsField f m) :
    ∀ found : List (String × Json), ((found ++ ms).map Prod.fst).Nodup →
      members fields true found (ofMembers ms) = .ok (found ++ ms) := by
  -- On the members still to be read; those found before are a parameter, and no name stands in
  -- both.
  induction ms with
  | nil =>
    intro found _
    rw [List.append_nil]
    rfl
  | cons m ms ih =>
    intro found hfound
    obtain ⟨name, j⟩ := m
    obtain ⟨f, hf, hfit⟩ := hfits _ List.mem_cons_self
    obtain rfl : f.name = name := hfit.name
    have hfield := field?_of_mem hnames hf
    have hshape : f.shape (ofJson j) = .ok j := hfit.shape
    have hnew : f.name ∉ found.map Prod.fst := by
      rw [List.map_append, List.map_cons, List.nodup_append] at hfound
      exact fun h => hfound.2.2 f.name h f.name List.mem_cons_self rfl
    have hrest := ih (fun m hm => hfits m (List.mem_cons_of_mem _ hm)) (found ++ [(f.name, j)])
      (by rwa [List.append_assoc, List.singleton_append])
    rw [List.append_assoc, List.singleton_append] at hrest
    simp only [ofMembers, members, hfield, lookup_eq_none hnew, Option.isSome_none,
      Bool.false_eq_true, if_false, hshape, hrest]

lemma complete_of_fits (h : List.Forall₂ FitsField fields ms) {found : List (String × Json)}
    (hfound : ∀ m ∈ ms, found.lookup m.1 = some m.2) : complete found fields = .ok ms := by
  -- Fields and members side by side: the fields are looked up in their order, which is that of the
  -- members.
  induction h with
  | nil => rfl
  | @cons f m fields ms hfit _ ih =>
    have hm := hfound m List.mem_cons_self
    have hrest := ih fun m hm => hfound m (List.mem_cons_of_mem _ hm)
    simp only [complete, hfit.name, hm, Option.some_or, hrest]

/-- An object with a fitting member for each field is a record in normal form. -/
theorem record_ofMembers (hnames : (fields.map Field.name).Nodup)
    (h : List.Forall₂ FitsField fields ms) :
    record fields (ofJson (.object ms)) = .ok (.object ms) := by
  have hkeys : (ms.map Prod.fst).Nodup := names_of_fits h ▸ hnames
  have hmembers := members_ofMembers hnames (exists_field_of_fits h) [] hkeys
  have hcomplete := complete_of_fits h fun m hm => lookup_of_mem hkeys hm
  rw [List.nil_append] at hmembers
  simp only [ofJson, record, hmembers, hcomplete]
  rfl

/-- A whole number of sixty-four bits is in normal form. -/
lemma integer_ofInt (n : Int64) : integer (ofJson (.int n.toInt)) = .ok (.int n.toInt) := by
  have hlo := Int64.le_toInt n
  have hhi := Int64.toInt_lt n
  simp only [Json.int, ofJson, integer, Numeral.toInt?_ofInt]
  rw [if_pos (by omega)]

end Records

/-! ## What accepted records hold -/

section Accepted

variable {fields : List Field} {ms : List (Option String × Document)} {closed : Bool} {j : Json}

lemma members_nil_eq_ok {found found' : List (String × Json)}
    (h : members fields closed found [] = .ok found') : found' = found := by
  cases closed with
  | false => cases h
  | true => exact (Except.ok.inj h).symm

/-- One member that is got past: it is unknown and passed over, or a new field that fits. -/
lemma members_cons_eq_ok {found found' : List (String × Json)} {m : Option String × Document}
    (h : members fields closed found (m :: ms) = .ok found') :
    ∃ name, m.1 = some name ∧
      (field? fields name = none ∧ members fields closed found ms = .ok found' ∨
        ∃ f j, field? fields name = some f ∧ f.shape m.2 = .ok j ∧
          members fields closed (found ++ [(name, j)]) ms = .ok found') := by
  obtain ⟨_ | name, d⟩ := m
  · cases h
  · refine ⟨name, rfl, ?_⟩
    simp only [members] at h
    split at h
    case h_1 hnone =>
      split at h
      · exact .inl ⟨hnone, h⟩
      · cases h
    case h_2 f hf =>
      split at h
      · cases h
      · split at h
        · cases h
        · rename_i j hj
          exact .inr ⟨f, j, hf, hj, h⟩

/-- Every member that a field asks for fits it. -/
lemma members_fit {name : String} {d : Document} {f : Field} {found found' : List (String × Json)}
    (h : members fields closed found ms = .ok found') (hmem : (some name, d) ∈ ms)
    (hf : field? fields name = some f) : ∃ j, f.shape d = .ok j := by
  induction ms generalizing found with
  | nil => exact absurd hmem List.not_mem_nil
  | cons m ms ih =>
    obtain ⟨other, hother, ⟨hnone, hrest⟩ | ⟨g, j, hg, hj, hrest⟩⟩ := members_cons_eq_ok h
    · rcases List.mem_cons.1 hmem with rfl | hmem
      · obtain rfl : name = other := Option.some.inj hother
        rw [hf] at hnone
        cases hnone
      · exact ih hrest hmem
    · rcases List.mem_cons.1 hmem with rfl | hmem
      · obtain rfl : name = other := Option.some.inj hother
        rw [hf] at hg
        exact ⟨j, Option.some.inj hg ▸ hj⟩
      · exact ih hrest hmem

/-- Whatever is found stands among the members. -/
lemma mem_of_lookup_members {name : String} {found found' : List (String × Json)}
    (h : members fields closed found ms = .ok found') (hlook : (found'.lookup name).isSome) :
    (found.lookup name).isSome ∨ ∃ d, (some name, d) ∈ ms := by
  induction ms generalizing found with
  | nil =>
    rw [members_nil_eq_ok h] at hlook
    exact .inl hlook
  | cons m ms ih =>
    obtain ⟨other, hother, ⟨-, hrest⟩ | ⟨g, j, -, -, hrest⟩⟩ := members_cons_eq_ok h
    · rcases ih hrest with hfound | ⟨d, hd⟩
      · exact .inl hfound
      · exact .inr ⟨d, List.mem_cons_of_mem _ hd⟩
    · rcases ih hrest with hfound | ⟨d, hd⟩
      · by_cases hname : name = other
        · subst hname
          exact .inr ⟨m.2, List.mem_cons.2 (.inl (Prod.ext hother.symm rfl))⟩
        · rw [List.lookup_append] at hfound
          simp only [List.lookup_cons, beq_eq_false_iff_ne.2 hname, List.lookup_nil,
            Option.or_none] at hfound
          exact .inl hfound
      · exact .inr ⟨d, List.mem_cons_of_mem _ hd⟩

/-- A field without a default is found when the record is complete. -/
lemma lookup_of_complete {found js : List (String × Json)} {f : Field}
    (h : complete found fields = .ok js) (hf : f ∈ fields) (hdefault : f.default = none) :
    (found.lookup f.name).isSome := by
  induction fields generalizing js with
  | nil => exact absurd hf List.not_mem_nil
  | cons g fields ih =>
    simp only [complete] at h
    split at h
    · cases h
    · rename_i j hj
      split at h
      · cases h
      · rename_i js' hjs
        rcases List.mem_cons.1 hf with rfl | hf
        · rw [hdefault, Option.or_none] at hj
          exact Option.isSome_of_eq_some hj
        · exact ih hjs hf

lemma record_object_eq_ok (h : record fields (.object ms closed) = .ok j) :
    ∃ found js, members fields closed [] ms = .ok found ∧ complete found fields = .ok js := by
  simp only [record] at h
  split at h
  · cases h
  · rename_i found hfound
    cases hjs : complete found fields with
    | error fault =>
      rw [hjs] at h
      cases h
    | ok js => exact ⟨found, js, hfound, hjs⟩

/-- An accepted object has a member for each field without a default. -/
theorem mem_of_record_object {f : Field} (h : record fields (.object ms closed) = .ok j)
    (hf : f ∈ fields) (hdefault : f.default = none) : ∃ d, (some f.name, d) ∈ ms := by
  obtain ⟨found, js, hfound, hjs⟩ := record_object_eq_ok h
  rcases mem_of_lookup_members hfound (lookup_of_complete hjs hf hdefault) with hnil | hmem
  · exact absurd hnil (by simp)
  · exact hmem

/-- Every member of an accepted object fits the field of its name, if there is one. -/
theorem fits_of_record_object {name : String} {d : Document} {f : Field}
    (h : record fields (.object ms closed) = .ok j) (hmem : (some name, d) ∈ ms)
    (hf : field? fields name = some f) : ∃ j, f.shape d = .ok j := by
  obtain ⟨found, js, hfound, -⟩ := record_object_eq_ok h
  exact members_fit hfound hmem hf

/-- Every item of an accepted array fits the field at its place. -/
lemma positional_fit {index : Nat} {ds : List Document} {js : List (String × Json)}
    (h : positional closed index fields ds = .ok js) :
    ∀ p ∈ fields.zip ds, ∃ j, p.1.shape p.2 = .ok j := by
  induction ds generalizing fields index js with
  | nil =>
    rw [List.zip_nil_right]
    exact fun p hp => absurd hp List.not_mem_nil
  | cons d ds ih =>
    cases fields with
    | nil => exact fun p hp => absurd hp List.not_mem_nil
    | cons f fields =>
      simp only [positional] at h
      split at h
      · cases h
      · rename_i j hj
        split at h
        · cases h
        · rename_i js' hjs
          intro p hp
          rcases List.mem_cons.1 hp with rfl | hp
          · exact ⟨j, hj⟩
          · exact ih hjs p hp

theorem fits_of_record_array {ds : List Document}
    (h : record fields (.array ds closed) = .ok j) :
    ∀ p ∈ fields.zip ds, ∃ j, p.1.shape p.2 = .ok j := by
  simp only [record] at h
  cases hjs : positional closed 0 fields ds with
  | error fault =>
    rw [hjs] at h
    cases h
  | ok js => exact positional_fit hjs

/-- A document gives a name as one of several: as a text, or as the one member of an object that
holds nothing under it. -/
inductive Gives (name : String) : Document → Prop
  | text : Gives name (.text (.ok name))
  | member : Gives name (.object [(some name, .null)] true)

lemma Gives.eq {name other : String} {d : Document} (h : Gives name d) (h' : Gives other d) :
    name = other := by
  cases h <;> cases h' <;> rfl

/-- A choice is accepted exactly if it gives one of the names. -/
theorem choice_eq_ok_iff {names : List String} {d : Document} :
    (∃ j, choice names d = .ok j) ↔ ∃ name ∈ names, Gives name d := by
  constructor
  · rintro ⟨j, h⟩
    unfold choice at h
    split at h
    case h_1 s =>
      split at h
      · exact ⟨s, ‹_›, .text⟩
      · cases h
    case h_2 s =>
      split at h
      · exact ⟨s, ‹_›, .member⟩
      · cases h
    case h_3 => cases h
  · rintro ⟨name, hname, hgives⟩
    cases hgives with
    | text => exact ⟨.text name, if_pos hname⟩
    | member => exact ⟨.text name, if_pos hname⟩

end Accepted

end Shape

/-! ## Forms -/

namespace Form

variable {α : Type}

/-- What the form writes has its shape, is in normal form, and means what was written. -/
structure Lawful (form : Form α) : Prop where
  shape : ∀ a, form.shape (ofJson (form.write a)) = .ok (form.write a)
  build : ∀ a, form.build? (form.write a) = some a

namespace Lawful

variable {form : Form α}

lemma ofDocument? (h : form.Lawful) (a : α) :
    form.ofDocument? (ofJson (form.write a)) = some a := by
  simp only [Form.ofDocument?, h.shape, h.build]

/-- Bytes that a lawful form wrote are read as what was written. -/
theorem parse? (h : form.Lawful) (a : α) : form.parse? (form.write a).bytes = some a := by
  rw [Form.parse?, readWhole?_bytes, h.ofDocument?]

end Lawful

end Form

/-- Claims are read back as they were written. -/
theorem Claims.form_lawful : Claims.form.Lawful where
  shape c := by
    refine Shape.record_ofMembers (by decide) ?_
    exact .cons ⟨rfl, rfl⟩ (.cons ⟨rfl, Shape.integer_ofInt _⟩
      (.cons ⟨rfl, Shape.integer_ofInt _⟩ (.cons ⟨rfl, Shape.integer_ofInt _⟩ .nil)))
  build c := by
    simp only [form, Json.int, Numeral.toInt?_ofInt, Option.bind_eq_bind, Option.bind_some,
      Int64.ofInt_toInt]

end Gatehouse
