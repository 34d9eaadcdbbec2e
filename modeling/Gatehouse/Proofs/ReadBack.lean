import Gatehouse.Proofs.Forms
import Gatehouse.Proofs.Times

/-!
# Records are read back as they were written

What is written of a record is read as that record, and so is every document that means the same
(`Document.Means`): it may hold the members of an object in any order, and further ones beside them
that nobody asks for, and it may leave out a description that is empty.  This is so at every depth,
so it is stated of values and documents and not of one list of members.

Each shape owes two things for a value that it is to read (`Shape.Reads`): what is written of the
value means it, and whatever means it comes to it.  For a record both follow from its fields
(`Shape.reads_record`); the reader goes through the members in the order of the text and keeps what
a field asks for, so what it finds under a name does not depend on that order.

One thing about a record is not in what is written of it: whether a leap second in one of its times
was told from the second before it or from its own.  So a record is read as the one with all leap
seconds carried over that were out of place, which is the record itself where there are none.
-/

namespace Gatehouse

open Document

/-! ## Meaning a value -/

/-- A member that need not be written: a description that is empty. -/
def Json.Omissible (member : String × Json) : Prop :=
  member.1 = "description" ∧ member.2 = .text ""

/-- The document means the value, and is well spelled.  The items of an array stand in
their order.  Of an object every member stands somewhere, but for one that need not be written, and
none stands twice; what else stands there is passed over. -/
inductive Document.Means : Document → Json → Prop
  | null : Means .null .null
  | bool (b : Bool) : Means (.bool b) (.bool b)
  | number (n : Numeral) : Means (.number n) (.number n)
  | text (s : String) : Means (.text (.ok s)) (.text s)
  | array {ds : List Document} {js : List Json} :
      List.Forall₂ Means ds js → Means (.array ds true) (.array js)
  | object {ms : List (Option String × Document)} {members : List (String × Json)} :
      (∀ m ∈ ms, m.1.isSome) →
      (∀ name j, (name, j) ∈ members → ms.countP (fun m => m.1 = some name) ≤ 1) →
      (∀ name j, (name, j) ∈ members →
        Json.Omissible (name, j) ∨ ∃ d, (some name, d) ∈ ms) →
      (∀ name j d, (name, j) ∈ members → (some name, d) ∈ ms → Means d j) →
      (∀ name d, (some name, d) ∈ ms → name ∉ members.map Prod.fst →
        Shape.passable d = true) →
      Means (.object ms true) (.object members)

namespace Shape

/-- The shape reads the value: what is written of the value means it, and whatever means it comes
to it. -/
structure Reads (shape : Shape) (j : Json) : Prop where
  written : (ofJson j).Means j
  shape : ∀ {d : Document}, d.Means j → shape d = .ok j

lemma reads_text (s : String) : text.Reads (.text s) where
  written := .text s
  shape h := by
    cases h
    rfl

lemma reads_integer (n : Int64) : integer.Reads (.int n.toInt) where
  written := .number _
  shape h := by
    cases h
    exact integer_ofInt n

lemma reads_choice {names : List String} {s : String} (hs : s ∈ names) :
    (choice names).Reads (.text s) where
  written := .text s
  shape h := by
    cases h
    exact if_pos hs

/-! ## Lists -/

lemma means_ofItems {js : List Json} (h : ∀ j ∈ js, (ofJson j).Means j) :
    List.Forall₂ Means (ofItems js) js := by
  induction js with
  | nil => exact .nil
  | cons j js ih =>
    obtain ⟨hj, hjs⟩ := List.forall_mem_cons.1 h
    exact .cons hj (ih hjs)

lemma items_of_means {shape : Shape} {ds : List Document} {js : List Json}
    (h : List.Forall₂ Means ds js) (hreads : ∀ j ∈ js, shape.Reads j) :
    ∀ index, items shape true index ds = .ok js := by
  induction h with
  | nil => exact fun _ => rfl
  | cons hmeans _ ih =>
    intro index
    obtain ⟨hj, hjs⟩ := List.forall_mem_cons.1 hreads
    simp only [items, hj.shape hmeans, ih hjs]

/-- A list is read when its items are. -/
lemma reads_list {shape : Shape} {js : List Json} (h : ∀ j ∈ js, shape.Reads j) :
    (list shape).Reads (.array js) where
  written := .array (means_ofItems fun j hj => (h j hj).written)
  shape hmeans := by
    cases hmeans with
    | array hitems =>
      simp only [list, items_of_means hitems h]
      rfl

/-! ## Records -/

/-- The field reads the member of its name, and stands for it when it need not be written. -/
structure ReadsField (f : Field) (member : String × Json) : Prop where
  name : f.name = member.1
  value : f.shape.Reads member.2
  default : Json.Omissible member → f.default = some member.2

lemma ReadsField.required {name : String} {shape : Shape} {j : Json} (h : shape.Reads j)
    (hname : name ≠ "description") : ReadsField (.required name shape) (name, j) :=
  ⟨rfl, h, fun hom => absurd hom.1 hname⟩

lemma ReadsField.description (s : String) :
    ReadsField (.optional "description" .text (.text "")) ("description", .text s) :=
  ⟨rfl, reads_text s, fun hom => congrArg some hom.2.symm⟩

/-- What the reader of a record keeps of a member: the value it means, if the member is one of those
that are known. -/
def kept? (members : List (String × Json)) (m : Option String × Document) :
    Option (String × Json) :=
  m.1.bind fun name => (members.lookup name).map fun j => (name, j)

section Record

variable {fields : List Field} {members : List (String × Json)}
  {ms : List (Option String × Document)}

lemma names_of_reads (h : List.Forall₂ ReadsField fields members) :
    fields.map Field.name = members.map Prod.fst := by
  induction h with
  | nil => rfl
  | cons hfield _ ih => rw [List.map_cons, List.map_cons, hfield.name, ih]

lemma exists_member_of_reads (h : List.Forall₂ ReadsField fields members) :
    ∀ f ∈ fields, ∃ member ∈ members, ReadsField f member := by
  induction h with
  | nil => exact fun _ hf => absurd hf List.not_mem_nil
  | cons hfield _ ih =>
    intro f hf
    obtain rfl | hf := List.mem_cons.1 hf
    · exact ⟨_, List.mem_cons_self, hfield⟩
    · obtain ⟨member, hmember, hreads⟩ := ih f hf
      exact ⟨member, List.mem_cons_of_mem _ hmember, hreads⟩

lemma reads_member (h : List.Forall₂ ReadsField fields members) {member : String × Json}
    (hmember : member ∈ members) : ∃ shape : Shape, shape.Reads member.2 := by
  induction h with
  | nil => exact absurd hmember List.not_mem_nil
  | @cons f _ _ _ hfield _ ih =>
    obtain rfl | hmember := List.mem_cons.1 hmember
    · exact ⟨f.shape, hfield.value⟩
    · exact ih hmember

lemma kept?_of_lookup {name : String} {d : Document} {j : Json}
    (hj : members.lookup name = some j) : kept? members (some name, d) = some (name, j) := by
  simp only [kept?, Option.bind_some, hj, Option.map_some]

lemma kept?_of_unknown {name : String} {d : Document} (hname : members.lookup name = none) :
    kept? members (some name, d) = none := by
  simp only [kept?, Option.bind_some, hname, Option.map_none]

/-- A member of another name does not bear on what is kept under a name. -/
lemma lookup_kept_cons_ne {name : String} {m : Option String × Document} (hne : m.1 ≠ some name) :
    ((m :: ms).filterMap (kept? members)).lookup name =
      (ms.filterMap (kept? members)).lookup name := by
  cases hkept : kept? members m with
  | none => rw [List.filterMap_cons_none hkept]
  | some member =>
    obtain ⟨other, j⟩ := member
    have hother : m.1 = some other := by
      obtain ⟨n, hn, hmap⟩ := Option.bind_eq_some_iff.1 hkept
      obtain ⟨j', -, heq⟩ := Option.map_eq_some_iff.1 hmap
      rw [hn, (Prod.mk.inj heq).1]
    have hbeq : (name == other) = false := by
      rw [beq_eq_false_iff_ne]
      rintro rfl
      exact hne hother
    rw [List.filterMap_cons_some hkept, List.lookup_cons, hbeq]

/-- What is kept under the name of a known member is its value, if one of that name stands there. -/
lemma lookup_kept {name : String} {j : Json} (hj : members.lookup name = some j) :
    (ms.filterMap (kept? members)).lookup name =
      if some name ∈ ms.map Prod.fst then some j else none := by
  induction ms with
  | nil => rfl
  | cons m rest ih =>
    by_cases hname : m.1 = some name
    · obtain ⟨_, d⟩ := m
      obtain rfl : _ = some name := hname
      rw [List.filterMap_cons_some (kept?_of_lookup hj), List.lookup_cons_self, List.map_cons,
        if_pos List.mem_cons_self]
    · have hmem : some name ∈ (m :: rest).map Prod.fst ↔ some name ∈ rest.map Prod.fst := by
        rw [List.map_cons, List.mem_cons, or_iff_right fun h => hname h.symm]
      rw [lookup_kept_cons_ne hname, ih]
      exact (if_congr hmem rfl rfl).symm

/-- No known name stands twice, those counted that were found before. -/
def Unrepeated (members found : List (String × Json)) (ms : List (Option String × Document)) :
    Prop :=
  ∀ name j, (name, j) ∈ members →
    ms.countP (fun m => m.1 = some name) + (if (found.lookup name).isSome then 1 else 0) ≤ 1

lemma Unrepeated.passed {found : List (String × Json)} {m : Option String × Document}
    (h : Unrepeated members found (m :: ms)) : Unrepeated members found ms := by
  intro name j hj
  have hcount := h name j hj
  rw [List.countP_cons] at hcount
  omega

lemma Unrepeated.found {found : List (String × Json)} {name : String} {j : Json} {d : Document}
    (h : Unrepeated members found ((some name, d) :: ms)) (hj : (name, j) ∈ members) :
    (found.lookup name).isSome = false ∧ Unrepeated members (found ++ [(name, j)]) ms := by
  have hcount := h name j hj
  rw [List.countP_cons_of_pos (by simp)] at hcount
  have hnew : (found.lookup name).isSome = false := by
    rw [← Bool.not_eq_true]
    intro hsome
    rw [if_pos hsome] at hcount
    omega
  refine ⟨hnew, fun other j' hj' => ?_⟩
  rw [List.lookup_append]
  -- The name itself has stood once and does not stand again; of other names nothing has changed.
  by_cases hother : other = name
  · subst hother
    rw [List.lookup_cons_self, Option.isSome_or, Option.isSome_some, Bool.or_true, if_pos rfl]
    omega
  · rw [List.lookup_cons, beq_eq_false_iff_ne.2 hother, List.lookup_nil, Option.or_none]
    exact h.passed other j' hj'

/-- A name that no field has is not among the members. -/
lemma not_mem_of_field?_eq_none (hnames : (fields.map Field.name).Nodup)
    (h : List.Forall₂ ReadsField fields members) {name : String}
    (hfield : field? fields name = none) : name ∉ members.map Prod.fst := by
  rw [← names_of_reads h]
  intro hmem
  obtain ⟨f, hf, rfl⟩ := List.mem_map.1 hmem
  exact nomatch hfield.symm.trans (field?_of_mem hnames hf)

/-- The field of a name reads the member of that name. -/
lemma exists_member_of_field? (h : List.Forall₂ ReadsField fields members) {name : String}
    {f : Field} (hfield : field? fields name = some f) :
    ∃ j, (name, j) ∈ members ∧ f.shape.Reads j := by
  have hname : f.name = name :=
    beq_iff_eq.1 (List.find?_some (p := fun f : Field => f.name == name) hfield)
  obtain ⟨⟨other, j⟩, hmember, hreads⟩ :=
    exists_member_of_reads h f (List.mem_of_find?_eq_some hfield)
  obtain rfl : name = other := hname.symm.trans hreads.name
  exact ⟨j, hmember, hreads.value⟩

/-- The known members of an object are kept in the order of the text, and the others passed over. -/
lemma members_of_means (hnames : (fields.map Field.name).Nodup)
    (h : List.Forall₂ ReadsField fields members) (hspelled : ∀ m ∈ ms, m.1.isSome)
    (hmeans : ∀ name j d, (name, j) ∈ members → (some name, d) ∈ ms → d.Means j)
    (hextra : ∀ name d, (some name, d) ∈ ms → name ∉ members.map Prod.fst → passable d = true) :
    ∀ found : List (String × Json), Unrepeated members found ms →
      Shape.members fields true found ms = .ok (found ++ ms.filterMap (kept? members)) := by
  have hkeys : (members.map Prod.fst).Nodup := names_of_reads h ▸ hnames
  -- On the members in the order of the text; what was found so far is a parameter.
  induction ms with
  | nil =>
    intro found _
    rw [List.filterMap_nil, List.append_nil]
    rfl
  | cons m rest ih =>
    intro found honce
    obtain ⟨_ | name, d⟩ := m
    · exact nomatch hspelled _ List.mem_cons_self
    · have hrest := ih (fun m hm => hspelled m (List.mem_cons_of_mem _ hm))
        (fun other j d hj hd => hmeans other j d hj (List.mem_cons_of_mem _ hd))
        (fun other d hd => hextra other d (List.mem_cons_of_mem _ hd))
      cases hfield : field? fields name with
      | none =>
        have hnew := not_mem_of_field?_eq_none hnames h hfield
        have hpass := hextra name d List.mem_cons_self hnew
        rw [List.filterMap_cons_none (kept?_of_unknown (lookup_eq_none hnew))]
        simp only [Shape.members, hfield, hpass, if_true]
        exact hrest found honce.passed
      | some f =>
        obtain ⟨j, hmember, hreads⟩ := exists_member_of_field? h hfield
        have hshape := hreads.shape (hmeans name j d hmember List.mem_cons_self)
        obtain ⟨hnew, honce⟩ := honce.found hmember
        rw [List.filterMap_cons_some (kept?_of_lookup (lookup_of_mem hkeys hmember)),
          List.append_cons]
        simp only [Shape.members, hfield, hnew, Bool.false_eq_true, if_false, hshape]
        exact hrest (found ++ [(name, j)]) honce

/-- A member that was not found need not have been written. -/
lemma complete_of_reads (h : List.Forall₂ ReadsField fields members)
    {found : List (String × Json)}
    (hfound : ∀ member ∈ members, found.lookup member.1 = some member.2 ∨
      found.lookup member.1 = none ∧ Json.Omissible member) :
    complete found fields = .ok members := by
  induction h with
  | nil => rfl
  | @cons f member fields members hfield _ ih =>
    have hrest := ih fun m hm => hfound m (List.mem_cons_of_mem _ hm)
    obtain hlook | ⟨hlook, hom⟩ := hfound member List.mem_cons_self
    · simp only [complete, hfield.name, hlook, Option.some_or, hrest]
    · simp only [complete, hfield.name, hlook, Option.none_or, hfield.default hom, hrest]

lemma ofMembers_eq_map (members : List (String × Json)) :
    ofMembers members = members.map fun m => (some m.1, ofJson m.2) := by
  induction members with
  | nil => rfl
  | cons m members ih => rw [ofMembers, ih, List.map_cons]

/-- What is written of an object means it, when no name stands twice. -/
lemma means_ofMembers (hkeys : (members.map Prod.fst).Nodup)
    (h : ∀ member ∈ members, (ofJson member.2).Means member.2) :
    (ofJson (.object members)).Means (.object members) := by
  rw [ofJson, ofMembers_eq_map]
  refine .object ?_ ?_ ?_ ?_ ?_
  · intro m hm
    obtain ⟨member, -, rfl⟩ := List.mem_map.1 hm
    rfl
  · intro name j hj
    have hcount := List.nodup_iff_count_le_one.1 hkeys name
    rw [List.count, List.countP_map] at hcount
    rw [List.countP_map]
    refine le_trans (List.countP_mono_left fun m _ hm => ?_) hcount
    simpa using hm
  · exact fun name j hj => .inr ⟨ofJson j, List.mem_map.2 ⟨(name, j), hj, rfl⟩⟩
  · intro name j d hj hd
    obtain ⟨⟨other, j'⟩, hmember, heq⟩ := List.mem_map.1 hd
    obtain ⟨hname, rfl⟩ := Prod.mk.inj heq
    obtain rfl : other = name := Option.some.inj hname
    have hsame : j' = j := Option.some.inj
      ((lookup_of_mem hkeys hmember).symm.trans (lookup_of_mem hkeys hj))
    exact hsame ▸ h _ hmember
  · intro name d hd hnew
    obtain ⟨⟨other, j'⟩, hmember, heq⟩ := List.mem_map.1 hd
    obtain rfl : other = name := Option.some.inj (Prod.mk.inj heq).1
    exact absurd (List.mem_map_of_mem hmember) hnew

/-- A record is read when its fields read its members. -/
theorem reads_record (hnames : (fields.map Field.name).Nodup)
    (h : List.Forall₂ ReadsField fields members) : (record fields).Reads (.object members) := by
  have hkeys : (members.map Prod.fst).Nodup := names_of_reads h ▸ hnames
  constructor
  case written =>
    refine means_ofMembers hkeys fun member hmember => ?_
    obtain ⟨shape, hreads⟩ := reads_member h hmember
    exact hreads.written
  case shape =>
    intro d hmeans
    cases hmeans with
    | @object ms _ hspelled honce hpresent hmeans hextra =>
      have hmembers := members_of_means hnames h hspelled hmeans hextra []
        fun name j hj => honce name j hj
      have hcomplete : complete (ms.filterMap (kept? members)) fields = .ok members := by
        refine complete_of_reads h fun member hmember => ?_
        rw [lookup_kept (lookup_of_mem hkeys hmember)]
        by_cases hthere : some member.1 ∈ ms.map Prod.fst
        · exact .inl (if_pos hthere)
        · refine .inr ⟨if_neg hthere, (hpresent _ _ hmember).resolve_right ?_⟩
          rintro ⟨d, hd⟩
          exact hthere (List.mem_map_of_mem hd)
      rw [List.nil_append] at hmembers
      simp only [record, hmembers, hcomplete]
      rfl

end Record

end Shape

/-! ## What a meaning lets pass -/

namespace Document.Means

variable {ms : List (Option String × Document)} {members : List (String × Json)}

/-- The order of the members does not matter. -/
theorem perm {ms' : List (Option String × Document)} (horder : ms.Perm ms')
    (h : (Document.object ms true).Means (.object members)) :
    (Document.object ms' true).Means (.object members) := by
  cases h with
  | object hspelled honce hpresent hmeans hextra =>
    refine .object (fun m hm => hspelled m (horder.mem_iff.2 hm)) ?_ ?_
      (fun name j d hj hd => hmeans name j d hj (horder.mem_iff.2 hd))
      (fun name d hd => hextra name d (horder.mem_iff.2 hd))
    · exact fun name j hj => (horder.countP_eq _).symm.trans_le (honce name j hj)
    · intro name j hj
      obtain hom | ⟨d, hd⟩ := hpresent name j hj
      · exact .inl hom
      · exact .inr ⟨d, horder.mem_iff.1 hd⟩

/-- A further member of a name that is not known does not matter. -/
theorem further {name : String} {d : Document} (hname : name ∉ members.map Prod.fst)
    (hd : Shape.passable d = true) (h : (Document.object ms true).Means (.object members)) :
    (Document.object ((some name, d) :: ms) true).Means (.object members) := by
  have hne : ∀ other j, (other, j) ∈ members → other ≠ name := by
    rintro other j hj rfl
    exact hname (List.mem_map_of_mem hj)
  cases h with
  | object hspelled honce hpresent hmeans hextra =>
    refine .object ?_ ?_ ?_ ?_ ?_
    · exact List.forall_mem_cons.2 ⟨rfl, hspelled⟩
    · intro other j hj
      rw [List.countP_cons_of_neg (by simpa using (hne other j hj).symm)]
      exact honce other j hj
    · intro other j hj
      obtain hom | ⟨d', hd'⟩ := hpresent other j hj
      · exact .inl hom
      · exact .inr ⟨d', List.mem_cons_of_mem _ hd'⟩
    · intro other j d' hj hd'
      obtain heq | hd' := List.mem_cons.1 hd'
      · exact absurd (Option.some.inj (Prod.mk.inj heq).1) (hne other j hj)
      · exact hmeans other j d' hj hd'
    · intro other d' hd' hother
      obtain heq | hd' := List.mem_cons.1 hd'
      · exact (Prod.mk.inj heq).2 ▸ hd
      · exact hextra other d' hd' hother

/-- A member that need not be written may be left out. -/
theorem leaveOut {name : String} (hom : ∀ j, (name, j) ∈ members → Json.Omissible (name, j))
    (h : (Document.object ms true).Means (.object members)) :
    (Document.object (ms.filter fun m => m.1 ≠ some name) true).Means (.object members) := by
  have hold : ∀ m ∈ ms.filter fun m => m.1 ≠ some name, m ∈ ms :=
    fun m hm => (List.mem_filter.1 hm).1
  cases h with
  | object hspelled honce hpresent hmeans hextra =>
    refine .object (fun m hm => hspelled m (hold m hm)) ?_ ?_
      (fun other j d hj hd => hmeans other j d hj (hold _ hd))
      (fun other d hd => hextra other d (hold _ hd))
    · exact fun other j hj => (List.filter_sublist.countP_le).trans (honce other j hj)
    · intro other j hj
      by_cases hother : other = name
      · subst hother
        exact .inl (hom j hj)
      · obtain hom | ⟨d, hd⟩ := hpresent other j hj
        · exact .inl hom
        · exact .inr ⟨d, List.mem_filter.2 ⟨hd, by simpa using hother⟩⟩

end Document.Means

mutual

/-- What is written can be passed over. -/
theorem passable_ofJson : ∀ j : Json, Shape.passable (ofJson j) = true
  | .null => rfl
  | .bool _ => rfl
  | .number _ => rfl
  | .text _ => rfl
  | .array items => by
    rw [ofJson, Shape.passable, allPassable_ofItems items]
    rfl
  | .object members => by
    rw [ofJson, Shape.passable, allMembersPassable_ofMembers members]
    rfl

/-- `passable_ofJson` for every item. -/
theorem allPassable_ofItems : ∀ js : List Json, Shape.allPassable (ofItems js) = true
  | [] => rfl
  | j :: js => by
    rw [ofItems, Shape.allPassable, passable_ofJson j, allPassable_ofItems js]
    rfl

/-- `passable_ofJson` for every member. -/
theorem allMembersPassable_ofMembers :
    ∀ ms : List (String × Json), Shape.allMembersPassable (ofMembers ms) = true
  | [] => rfl
  | (_, j) :: ms => by
    rw [ofMembers, Shape.allMembersPassable, passable_ofJson j, allMembersPassable_ofMembers ms]
    rfl

end

/-- An object is written with its members in another order, and with others beside them. -/
structure Json.Rearranges (members others ms : List (String × Json)) : Prop where
  order : (others ++ members).Perm ms
  unknown : ∀ m ∈ others, m.1 ∉ members.map Prod.fst

lemma Json.Rearranges.means {members others ms : List (String × Json)}
    (h : Json.Rearranges members others ms)
    (hwritten : (ofJson (.object members)).Means (.object members)) :
    (ofJson (.object ms)).Means (.object members) := by
  rw [ofJson, Shape.ofMembers_eq_map] at hwritten ⊢
  refine Document.Means.perm (h.order.map fun m => (some m.1, ofJson m.2)) ?_
  rw [List.map_append]
  have hunknown := h.unknown
  clear h
  -- The known members mean the object in any order, and each further one may be added to it.
  induction others with
  | nil => exact hwritten
  | cons m others ih =>
    obtain ⟨hm, hothers⟩ := List.forall_mem_cons.1 hunknown
    exact (ih hothers).further hm (passable_ofJson m.2)

/-! ## Forms -/

namespace Form

variable {α : Type} {form : Form α}

variable {kept : α → α}

/-- The form reads whatever means what it writes, and builds of that what it keeps of the value. -/
structure Faithful (form : Form α) (kept : α → α) : Prop where
  reads : ∀ a, form.shape.Reads (form.write a)
  build : ∀ a, form.build? (form.write a) = some (kept a)

lemma Faithful.parse?_of_means (h : form.Faithful kept) {a : α} {bytes : List UInt8}
    (hmeans : (readWhole? bytes).Means (form.write a)) : form.parse? bytes = some (kept a) := by
  rw [parse?, ofDocument?, (h.reads a).shape hmeans]
  exact h.build a

/-- What is written of the value `a` is read as `b`, and so are any bytes that mean the same.  In
particular its members may be written in another order, and others beside them. -/
structure ReadsBack (form : Form α) (a b : α) : Prop where
  written : form.parse? (form.write a).bytes = some b
  alike : ∀ bytes, (readWhole? bytes).Means (form.write a) → form.parse? bytes = some b
  rearranged : ∀ members others ms, form.write a = .object members →
    Json.Rearranges members others ms → form.parse? (Json.object ms).bytes = some b

theorem Faithful.readsBack (h : form.Faithful kept) (a : α) : form.ReadsBack a (kept a) where
  written := by
    apply h.parse?_of_means
    rw [readWhole?_bytes]
    exact (h.reads a).written
  alike _ hmeans := h.parse?_of_means hmeans
  rearranged members others ms hwrite hms := by
    have hwritten := (h.reads a).written
    apply h.parse?_of_means
    rw [hwrite] at hwritten ⊢
    rw [readWhole?_bytes]
    exact hms.means hwritten

/-- A list is read back when its items are. -/
theorem Faithful.list (h : form.Faithful kept) : form.list.Faithful (List.map kept) where
  reads as := by
    refine Shape.reads_list fun j hj => ?_
    obtain ⟨a, -, rfl⟩ := List.mem_map.1 hj
    exact h.reads a
  build as := by
    change (as.map form.write).mapM form.build? = some (as.map kept)
    induction as with
    | nil => rfl
    | cons a as ih =>
      rw [List.map_cons, List.mapM_cons, h.build, ih]
      rfl

end Form

/-! ## Records with times -/

/-- The times in a role. -/
def Role.times (r : Role) : List Time.Instant := [r.createdAt, r.updatedAt]

/-- The role with leap seconds that were out of place carried over. -/
def Role.carried (r : Role) : Role :=
  { r with createdAt := r.createdAt.carried, updatedAt := r.updatedAt.carried }

lemma Role.carried_eq_self_iff {r : Role} : r.carried = r ↔ ∀ t ∈ r.times, t.InPlace := by
  obtain ⟨id, name, description, createdAt, updatedAt⟩ := r
  simp [carried, times, Time.Instant.carried_eq_self_iff]

/-- The times in a user. -/
def User.times (u : User) : List Time.Instant := [u.createdAt, u.updatedAt]

/-- The user with leap seconds that were out of place carried over. -/
def User.carried (u : User) : User :=
  { u with createdAt := u.createdAt.carried, updatedAt := u.updatedAt.carried }

lemma User.carried_eq_self_iff {u : User} : u.carried = u ↔ ∀ t ∈ u.times, t.InPlace := by
  obtain ⟨id, email, firstName, lastName, createdAt, updatedAt⟩ := u
  simp [carried, times, Time.Instant.carried_eq_self_iff]

/-- The times in a held role are those in the role. -/
def HeldRole.times (held : HeldRole) : List Time.Instant := held.role.times

/-- The held role with leap seconds that were out of place carried over. -/
def HeldRole.carried (held : HeldRole) : HeldRole := { held with role := held.role.carried }

lemma HeldRole.carried_eq_self_iff {held : HeldRole} :
    held.carried = held ↔ ∀ t ∈ held.times, t.InPlace := by
  obtain ⟨role, permissions⟩ := held
  simp [carried, times, Role.carried_eq_self_iff]

/-- The times in a principal. -/
def Principal.times (p : Principal) : List Time.Instant :=
  p.user.times ++ p.roles.flatMap HeldRole.times

/-- The principal with leap seconds that were out of place carried over. -/
def Principal.carried (p : Principal) : Principal :=
  ⟨p.user.carried, p.roles.map HeldRole.carried⟩

lemma Principal.carried_eq_self_iff {p : Principal} :
    p.carried = p ↔ ∀ t ∈ p.times, t.InPlace := by
  obtain ⟨user, roles⟩ := p
  have hroles := List.map_inj_left (l := roles) (f := HeldRole.carried) (g := id)
  rw [List.map_id] at hroles
  simp only [carried, mk.injEq, User.carried_eq_self_iff, hroles, HeldRole.carried_eq_self_iff,
    times, List.forall_mem_append, List.forall_mem_flatMap, id]

/-! ## Forms of records -/

open Shape (ReadsField)

lemma Uuid.reads_toJson (u : Uuid) : Shape.text.Reads u.toJson := Shape.reads_text _

lemma Time.Instant.reads_toJson (t : Time.Instant) : Shape.text.Reads t.toJson :=
  Shape.reads_text _

theorem Scope.form_faithful : Scope.form.Faithful (fun scope => scope) where
  reads scope := by
    apply Shape.reads_choice
    cases scope <;> decide
  build scope := by
    change (ofText scope.text).toOption = some scope
    rw [ofText_eq_ok_iff.2 rfl]
    rfl

theorem Permission.form_faithful : Permission.form.Faithful (fun p => p) where
  reads p := Shape.reads_record (by decide)
    (.cons (.required p.id.reads_toJson (by decide))
      (.cons (.required (Shape.reads_text p.value) (by decide))
        (.cons (.required (Shape.reads_text p.scope) (by decide))
          (.cons (.description p.description) .nil))))
  build p := by simp only [form, Uuid.toJson, Uuid.ofText?_text, Option.map_some]

theorem Role.form_faithful : Role.form.Faithful carried where
  reads r := Shape.reads_record (by decide)
    (.cons (.required r.id.reads_toJson (by decide))
      (.cons (.required (Shape.reads_text r.name) (by decide))
        (.cons (.description r.description)
          (.cons (.required r.createdAt.reads_toJson (by decide))
            (.cons (.required r.updatedAt.reads_toJson (by decide)) .nil)))))
  build r := by
    simp only [form, carried, Uuid.toJson, Time.Instant.toJson, Uuid.ofText?_text,
      Time.Instant.ofText?_text, Option.bind_eq_bind, Option.bind_some]

theorem User.form_faithful : User.form.Faithful carried where
  reads u := Shape.reads_record (by decide)
    (.cons (.required u.id.reads_toJson (by decide))
      (.cons (.required (Shape.reads_text u.email) (by decide))
        (.cons (.required (Shape.reads_text u.firstName) (by decide))
          (.cons (.required (Shape.reads_text u.lastName) (by decide))
            (.cons (.required u.createdAt.reads_toJson (by decide))
              (.cons (.required u.updatedAt.reads_toJson (by decide)) .nil))))))
  build u := by
    simp only [form, carried, Uuid.toJson, Time.Instant.toJson, Uuid.ofText?_text,
      Time.Instant.ofText?_text, Option.bind_eq_bind, Option.bind_some]

theorem HeldRole.form_faithful : HeldRole.form.Faithful carried where
  reads held := Shape.reads_record (by decide)
    (.cons (.required (Role.form_faithful.reads held.role) (by decide))
      (.cons (.required (Permission.form_faithful.list.reads held.permissions) (by decide)) .nil))
  build held := by
    simp only [form, carried, Role.form_faithful.build, Permission.form_faithful.list.build,
      Option.bind_eq_bind, Option.bind_some, List.map_id']

theorem Principal.form_faithful : Principal.form.Faithful carried where
  reads p := Shape.reads_record (by decide)
    (.cons (.required (User.form_faithful.reads p.user) (by decide))
      (.cons (.required (HeldRole.form_faithful.list.reads p.roles) (by decide)) .nil))
  build p := by
    simp only [form, carried, User.form_faithful.build, HeldRole.form_faithful.list.build,
      Option.bind_eq_bind, Option.bind_some]

theorem Claims.form_faithful : Claims.form.Faithful (fun c => c) where
  reads c := Shape.reads_record (by decide)
    (.cons (.required (Shape.reads_text c.subject) (by decide))
      (.cons (.required (Shape.reads_integer c.issuedAt) (by decide))
        (.cons (.required (Shape.reads_integer c.notBefore) (by decide))
          (.cons (.required (Shape.reads_integer c.expiresAt) (by decide)) .nil))))
  build := Claims.form_lawful.build

/-! ## Descriptions that are left out -/

/-- An object without its members of one name. -/
def Json.without (name : String) : Json → Json
  | .object members => .object (members.filter fun m => m.1 ≠ name)
  | j => j

lemma ofJson_without (name : String) (members : List (String × Json)) :
    ofJson ((Json.object members).without name) =
      .object ((ofMembers members).filter fun m => m.1 ≠ some name) true := by
  rw [Json.without, ofJson, Shape.ofMembers_eq_map, Shape.ofMembers_eq_map, List.filter_map]
  congr 3
  funext m
  simp

lemma Form.Faithful.parse?_without {α : Type} {form : Form α} {kept : α → α}
    (h : form.Faithful kept) {a : α} {members : List (String × Json)} {name : String}
    (hwrite : form.write a = .object members)
    (hom : ∀ j, (name, j) ∈ members → Json.Omissible (name, j)) :
    form.parse? ((form.write a).without name).bytes = some (kept a) := by
  have hmeans := (h.reads a).written
  apply h.parse?_of_means
  rw [hwrite, ofJson] at hmeans
  rw [readWhole?_bytes, hwrite, ofJson_without]
  exact hmeans.leaveOut hom

lemma Permission.parse?_without_description (p : Permission) :
    form.parse? ((form.write p).without "description").bytes =
      some { p with description := "" } := by
  have hsame : (form.write p).without "description" =
      (form.write { p with description := "" }).without "description" := rfl
  rw [hsame]
  refine form_faithful.parse?_without rfl fun j hj => ⟨rfl, ?_⟩
  simpa [form] using hj

lemma Role.parse?_without_description (r : Role) :
    form.parse? ((form.write r).without "description").bytes =
      some { r.carried with description := "" } := by
  have hsame : (form.write r).without "description" =
      (form.write { r with description := "" }).without "description" := rfl
  rw [hsame]
  refine form_faithful.parse?_without rfl fun j hj => ⟨rfl, ?_⟩
  simpa [form] using hj

/-- All that is lost by writing is where a leap second was told.  Every scope, permission, list of
permissions, role, user, role with its permissions, principal and claims is read back from its text,
and from every text that means the same, with the members of objects in any order and unknown ones
beside them, but that leap seconds out of place are carried over; where there are none, what is read
is what was written.  A role or a permission written without its description is read with an empty
one. -/
theorem written_rights_read_back :
    (∀ scope, Scope.form.ReadsBack scope scope) ∧ (∀ p, Permission.form.ReadsBack p p) ∧
      (∀ ps, Permission.form.list.ReadsBack ps ps) ∧
      (∀ r, Role.form.ReadsBack r r.carried ∧ (r.carried = r ↔ ∀ t ∈ r.times, t.InPlace)) ∧
      (∀ u, User.form.ReadsBack u u.carried ∧ (u.carried = u ↔ ∀ t ∈ u.times, t.InPlace)) ∧
      (∀ held, HeldRole.form.ReadsBack held held.carried ∧
        (held.carried = held ↔ ∀ t ∈ held.times, t.InPlace)) ∧
      (∀ p, Principal.form.ReadsBack p p.carried ∧ (p.carried = p ↔ ∀ t ∈ p.times, t.InPlace)) ∧
      (∀ c, Claims.form.ReadsBack c c) ∧
      (∀ p : Permission, Permission.form.parse?
        ((Permission.form.write p).without "description").bytes =
          some { p with description := "" }) ∧
      ∀ r : Role, Role.form.parse? ((Role.form.write r).without "description").bytes =
        some { r.carried with description := "" } := by
  have hlist := Permission.form_faithful.list.readsBack
  simp only [List.map_id'] at hlist
  exact ⟨Scope.form_faithful.readsBack, Permission.form_faithful.readsBack, hlist,
    fun r => ⟨Role.form_faithful.readsBack r, Role.carried_eq_self_iff⟩,
    fun u => ⟨User.form_faithful.readsBack u, User.carried_eq_self_iff⟩,
    fun held => ⟨HeldRole.form_faithful.readsBack held, HeldRole.carried_eq_self_iff⟩,
    fun p => ⟨Principal.form_faithful.readsBack p, Principal.carried_eq_self_iff⟩,
    Claims.form_faithful.readsBack, Permission.parse?_without_description,
    Role.parse?_without_description⟩

/-- A leap second that is told from second 04 is written as second 05, and a role that was made in
it is read as one made in that second. -/
theorem role_not_read_back :
    let t : Time.Instant := ⟨1433375764, 1333333333, by decide, by decide⟩
    let next : Time.Instant := ⟨1433375765, 333333333, by decide, by decide⟩
    let r : Role := ⟨.ofNat 1, "auditor", "", t, t⟩
    let text := (Role.form.write r).bytes
    t.text = "2015-06-03T23:56:05.333333333Z" ∧
      Role.form.parse? text = some ⟨.ofNat 1, "auditor", "", next, next⟩ ∧
      Role.form.parse? text ≠ some r := by
  intro t next r text
  have htext : t.text = "2015-06-03T23:56:05.333333333Z" := by decide +kernel
  have hcarried : r.carried = ⟨.ofNat 1, "auditor", "", next, next⟩ := by decide
  have hread : Role.form.parse? text = some r.carried := (Role.form_faithful.readsBack r).written
  -- It is second 04, which ends no minute.
  have hplace : ¬t.InPlace := by decide
  refine ⟨htext, hread.trans (congrArg some hcarried), fun hsame => hplace ?_⟩
  rw [hread, Option.some.injEq, Role.carried_eq_self_iff] at hsame
  exact hsame t List.mem_cons_self

end Gatehouse
