import Gatehouse.Proofs.Trimming
import Gatehouse.Service.Settings

/-!
# Pieces and words of a text

A list in a setting is cut twice: into pieces at marks, and a piece into words at blanks.  How a
text is cut into pieces is a relation between the two (`Text.Divided`), which holds of exactly one
list of pieces (`Text.divided_iff`).  The words of a text are told from its two ends: blanks have no
part in them, and a run without blanks is a word where a blank or nothing follows
(`Text.words_eq_cons_iff`).
-/

namespace Gatehouse.Text

variable {isMark : Char → Bool} {cs rest w w' : List Char} {items ws : List (List Char)}

/-! ## Pieces -/

/-- What stands before, between and behind the marks of a text. -/
inductive Divided (isMark : Char → Bool) : List Char → List (List Char) → Prop
  | last {item : List Char} : (∀ c ∈ item, isMark c = false) → Divided isMark item [item]
  | cons {item rest : List Char} {mark : Char} {items : List (List Char)} :
    (∀ c ∈ item, isMark c = false) → isMark mark = true → Divided isMark rest items →
      Divided isMark (item ++ mark :: rest) (item :: items)

lemma Divided.splitOnP_eq (h : Divided isMark cs items) : cs.splitOnP isMark = items := by
  induction h with
  | last hitem => exact List.splitOnP_eq_singleton hitem
  | cons hitem hmark _ ih =>
    rw [List.splitOnP_append_cons _ _ hmark, List.splitOnP_eq_singleton hitem, ih]
    rfl

lemma Divided.cons_left {c : Char} {item : List Char} (hc : isMark c = false)
    (h : Divided isMark cs (item :: items)) : Divided isMark (c :: cs) ((c :: item) :: items) := by
  cases h with
  | last hitem => exact .last (List.forall_mem_cons.2 ⟨hc, hitem⟩)
  | cons hitem hmark hrest => exact .cons (List.forall_mem_cons.2 ⟨hc, hitem⟩) hmark hrest

lemma exists_divided (isMark : Char → Bool) (cs : List Char) :
    ∃ items, Divided isMark cs items := by
  -- From the back: a mark leaves an empty piece before it, and any other character joins the first.
  induction cs with
  | nil => exact ⟨[[]], .last fun _ h => absurd h List.not_mem_nil⟩
  | cons c cs ih =>
    obtain ⟨items, h⟩ := ih
    cases hc : isMark c with
    | true => exact ⟨[] :: items, .cons (fun _ h => absurd h List.not_mem_nil) hc h⟩
    | false =>
      cases items with
      | nil => exact nomatch h
      | cons item items => exact ⟨(c :: item) :: items, h.cons_left hc⟩

/-- A text is divided in one way. -/
theorem divided_iff : Divided isMark cs items ↔ cs.splitOnP isMark = items := by
  refine ⟨Divided.splitOnP_eq, ?_⟩
  rintro rfl
  obtain ⟨items, h⟩ := exists_divided isMark cs
  rwa [h.splitOnP_eq]

/-- The pieces of a text that is divided, without the blanks around them and without the empty
ones. -/
lemma pieces_of_divided {s : String} (h : Divided isMark s.toList items) :
    pieces isMark s =
      ((items.map trim).filter fun piece => !piece.isEmpty).map String.ofList := by
  rw [pieces, h.splitOnP_eq]

/-! ## Words -/

lemma words_nil : words [] = [] := by simp [words, List.splitOnP_nil]

/-- No word goes across a blank. -/
lemma words_append_cons {c : Char} (hc : isBlank c = true) (cs cs' : List Char) :
    words (cs ++ c :: cs') = words cs ++ words cs' := by
  rw [words, List.splitOnP_append_cons _ _ hc, List.filter_append]
  rfl

lemma words_cons_blank {c : Char} (hc : isBlank c = true) (cs : List Char) :
    words (c :: cs) = words cs := by
  rw [← List.nil_append (c :: cs), words_append_cons hc, words_nil, List.nil_append]

/-- A run without blanks is a word. -/
lemma words_of_word (hne : w ≠ []) (hw : ∀ c ∈ w, isBlank c = false) : words w = [w] := by
  rw [words, List.splitOnP_eq_singleton hw, List.filter_cons_of_pos (by simpa using hne)]
  rfl

lemma words_blanks_append (hw : ∀ c ∈ w, isBlank c = true) (cs : List Char) :
    words (w ++ cs) = words cs := by
  induction w with
  | nil => rfl
  | cons c w ih =>
    rw [List.forall_mem_cons] at hw
    rw [List.cons_append, words_cons_blank hw.1, ih hw.2]

lemma words_of_blanks (hw : ∀ c ∈ w, isBlank c = true) : words w = [] := by
  rw [← List.append_nil w, words_blanks_append hw, words_nil]

lemma words_append_blanks (cs : List Char) (hw : ∀ c ∈ w, isBlank c = true) :
    words (cs ++ w) = words cs := by
  cases w with
  | nil => rw [List.append_nil]
  | cons c w =>
    rw [List.forall_mem_cons] at hw
    rw [words_append_cons hw.1, words_of_blanks hw.2, List.append_nil]

/-- The blanks around a text have no part in its words. -/
lemma words_trim (cs : List Char) : words (trim cs) = words cs := by
  obtain ⟨w, w', hcs, hw, hw'⟩ := exists_blanks_trim cs
  conv_rhs => rw [hcs, words_append_blanks _ hw', words_blanks_append hw]

/-- A run without blanks is a word where a blank or nothing follows. -/
lemma words_word_append (hne : w ≠ []) (hw : ∀ c ∈ w, isBlank c = false)
    (hrest : ∀ c, rest.head? = some c → isBlank c = true) :
    words (w ++ rest) = w :: words rest := by
  cases rest with
  | nil => rw [List.append_nil, words_of_word hne hw, words_nil]
  | cons c rest =>
    rw [words_append_cons (hrest c rfl), words_of_word hne hw, words_cons_blank (hrest c rfl)]
    rfl

/-- A text that is not all blanks can be read from the front: blanks, a word, and the rest. -/
lemma exists_first_word (h : ¬∀ c ∈ cs, isBlank c = true) :
    ∃ gap w rest, cs = gap ++ w ++ rest ∧ (∀ c ∈ gap, isBlank c = true) ∧ w ≠ [] ∧
      (∀ c ∈ w, isBlank c = false) ∧ ∀ c, rest.head? = some c → isBlank c = true := by
  refine ⟨cs.takeWhile isBlank, (trimStart cs).takeWhile (!isBlank ·),
    (trimStart cs).dropWhile (!isBlank ·), ?_, fun c hc => List.mem_takeWhile_imp hc, ?_, ?_, ?_⟩
  · rw [List.append_assoc, List.takeWhile_append_dropWhile, trimStart,
      List.takeWhile_append_dropWhile]
  · cases hstart : trimStart cs with
    | nil => exact absurd (List.dropWhile_eq_nil_iff.1 hstart) h
    | cons c later =>
      have hc : isBlank c = false := trimStart_head cs c (by rw [hstart]; rfl)
      rw [List.takeWhile_cons_of_pos (by rw [hc]; rfl)]
      exact List.cons_ne_nil _ _
  · intro c hc
    have hno := List.mem_takeWhile_imp hc
    rwa [Bool.not_eq_true'] at hno
  · intro c hc
    have hstop := List.head?_dropWhile_not (!isBlank ·) (trimStart cs)
    rw [hc] at hstop
    exact (Bool.not_eq_false' _).mp hstop

/-- A text without words is all blanks. -/
lemma words_eq_nil_iff : words cs = [] ↔ ∀ c ∈ cs, isBlank c = true := by
  refine ⟨fun h => ?_, words_of_blanks⟩
  by_contra hno
  obtain ⟨gap, w, rest, rfl, hgap, hne, hw, hrest⟩ := exists_first_word hno
  rw [List.append_assoc, words_blanks_append hgap, words_word_append hne hw hrest] at h
  exact nomatch h

/-- Where a text has words, it begins with the first of them behind some blanks. -/
theorem words_eq_cons_iff : words cs = w :: ws ↔
    ∃ gap rest, cs = gap ++ w ++ rest ∧ (∀ c ∈ gap, isBlank c = true) ∧ w ≠ [] ∧
      (∀ c ∈ w, isBlank c = false) ∧ (∀ c, rest.head? = some c → isBlank c = true) ∧
        words rest = ws := by
  constructor
  · intro h
    have hno : ¬∀ c ∈ cs, isBlank c = true := fun hcs => by
      rw [words_of_blanks hcs] at h
      exact nomatch h
    obtain ⟨gap, first, rest, rfl, hgap, hne, hfirst, hrest⟩ := exists_first_word hno
    rw [List.append_assoc, words_blanks_append hgap, words_word_append hne hfirst hrest,
      List.cons.injEq] at h
    obtain ⟨rfl, rfl⟩ := h
    exact ⟨gap, rest, rfl, hgap, hne, hfirst, hrest, rfl⟩
  · rintro ⟨gap, rest, rfl, hgap, hne, hw, hrest, rfl⟩
    rw [List.append_assoc, words_blanks_append hgap, words_word_append hne hw hrest]

end Gatehouse.Text
