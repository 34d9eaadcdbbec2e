import Gatehouse.Text.Glob
import Mathlib.Data.List.Forall2
import Mathlib.Tactic.Lemma

/-!
# What globs cover

`Glob.Covers` speaks of the literals between the stars, and `Glob.accepts` works through the glob
and the text from behind.  Between the two stands `Fills`, which follows the glob character by
character: a star gives way to a run, and any other character stays.

`covers_literals_iff` and `accepts_iff` say that all three agree.  For the second, the table kept
at each character of the glob is shown to answer for every tail of the text (`Answers`), so the
proof is an induction on the glob whose step is an induction on the text.

A glob is a text itself, and so may be what another glob covers.  `Fills.trans` is what comes of
that: the runs that replace the stars of the inner glob are parts of the runs that replace the
stars of the outer one.  It rests on a text without line feeds being filled to one without.
-/

namespace Gatehouse.Text.Glob

variable {c : Char} {glob text : List Char}

/-! ## Filling the stars -/

/-- The text is the glob with a run free of line feeds in place of each star. -/
inductive Fills : List Char → List Char → Prop
  | nil : Fills [] []
  | char {c : Char} {glob text : List Char} :
      c ≠ '*' → Fills glob text → Fills (c :: glob) (c :: text)
  | star {glob run text : List Char} :
      '\n' ∉ run → Fills glob text → Fills ('*' :: glob) (run ++ text)

namespace Fills

lemma nil_iff : Fills [] text ↔ text = [] := by
  constructor
  · intro h
    cases h
    rfl
  · rintro rfl
    exact .nil

lemma char_iff (hc : c ≠ '*') :
    Fills (c :: glob) text ↔ ∃ rest, text = c :: rest ∧ Fills glob rest := by
  constructor
  · intro h
    cases h with
    | char _ h => exact ⟨_, rfl, h⟩
    | star => exact absurd rfl hc
  · rintro ⟨rest, rfl, h⟩
    exact .char hc h

lemma star_iff :
    Fills ('*' :: glob) text ↔
      ∃ run rest, text = run ++ rest ∧ '\n' ∉ run ∧ Fills glob rest := by
  constructor
  · intro h
    cases h with
    | char hc => exact absurd rfl hc
    | star hrun h => exact ⟨_, _, rfl, hrun, h⟩
  · rintro ⟨run, rest, rfl, hrun, h⟩
    exact .star hrun h

lemma star_nil : Fills ('*' :: glob) [] ↔ Fills glob [] := by
  constructor
  · intro h
    obtain ⟨run, rest, heq, -, hrest⟩ := star_iff.1 h
    obtain ⟨rfl, rfl⟩ := List.append_eq_nil_iff.1 heq.symm
    exact hrest
  · exact fun h => star_iff.2 ⟨[], [], rfl, List.not_mem_nil, h⟩

/-- A star stands for nothing, or for one character and what a star stands for. -/
lemma star_cons :
    Fills ('*' :: glob) (c :: text) ↔
      Fills glob (c :: text) ∨ c ≠ '\n' ∧ Fills ('*' :: glob) text := by
  constructor
  · intro h
    obtain ⟨run, rest, heq, hrun, hrest⟩ := star_iff.1 h
    cases run with
    | nil => exact .inl (heq ▸ hrest)
    | cons x run =>
      obtain ⟨rfl, rfl⟩ := List.cons.inj heq
      rw [List.mem_cons, not_or] at hrun
      exact .inr ⟨Ne.symm hrun.1, .star hrun.2 hrest⟩
  · rintro (h | ⟨hc, h⟩)
    · exact star_iff.2 ⟨[], c :: text, rfl, List.not_mem_nil, h⟩
    · obtain ⟨run, rest, rfl, hrun, hrest⟩ := star_iff.1 h
      have hrun' : '\n' ∉ c :: run := by
        rw [List.mem_cons, not_or]
        exact ⟨Ne.symm hc, hrun⟩
      exact star_iff.2 ⟨c :: run, rest, rfl, hrun', hrest⟩

end Fills

/-! ## The literals between the stars -/

lemma literals_ne_nil : literals glob ≠ [] :=
  List.splitOn_ne_nil _ _

lemma literals_star : literals ('*' :: glob) = [] :: literals glob := by
  simp [literals, List.splitOn_eq_splitOnP, List.splitOnP_cons_eq_if_modifyHead]

lemma literals_char (hc : c ≠ '*') {l : List Char} {ls : List (List Char)}
    (h : literals glob = l :: ls) : literals (c :: glob) = (c :: l) :: ls := by
  simp only [literals, List.splitOn_eq_splitOnP] at h ⊢
  simp [List.splitOnP_cons_eq_if_modifyHead, hc, h]

namespace Covers

variable {ls : List (List Char)}

lemma nil_literal (hls : ls ≠ []) :
    Covers ([] :: ls) text ↔ ∃ run rest, text = run ++ rest ∧ '\n' ∉ run ∧ Covers ls rest := by
  constructor
  · intro h
    cases h with
    | last => exact absurd rfl hls
    | next hrun h => exact ⟨_, _, rfl, hrun, h⟩
  · rintro ⟨run, rest, rfl, hrun, h⟩
    exact .next (l := []) hrun h

lemma cons_literal {l : List Char} :
    Covers ((c :: l) :: ls) text ↔ ∃ rest, text = c :: rest ∧ Covers (l :: ls) rest := by
  constructor
  · intro h
    cases h with
    | last => exact ⟨l, rfl, .last l⟩
    | next hrun h => exact ⟨_, rfl, .next hrun h⟩
  · rintro ⟨rest, rfl, h⟩
    cases h with
    | last => exact .last _
    | next hrun h => exact .next (l := c :: l) hrun h

end Covers

theorem covers_literals_iff : Covers (literals glob) text ↔ Fills glob text := by
  induction glob generalizing text with
  | nil =>
    rw [Fills.nil_iff]
    constructor
    · intro h
      cases h with
      | last => rfl
      | next _ h => cases h
    · rintro rfl
      exact .last []
  | cons c glob ih =>
    by_cases hc : c = '*'
    · subst hc
      simp only [literals_star, Covers.nil_literal literals_ne_nil, Fills.star_iff, ih]
    · have hne : literals glob ≠ [] := literals_ne_nil
      obtain ⟨l, ls, hlits⟩ := List.exists_cons_of_ne_nil hne
      rw [hlits] at ih
      simp only [literals_char hc hlits, Covers.cons_literal, Fills.char_iff hc, ih]

/-! ## Deciding by tails -/

/-- There is an answer for each tail of the text, and it says whether the tail has a property. -/
def Answers (P : List Char → Prop) (text : List Char) (answers : List Bool) : Prop :=
  List.Forall₂ (fun tail b => b = true ↔ P tail) text.tails answers

namespace Answers

variable {P : List Char → Prop} {answers : List Bool}

lemma nil_iff : Answers P [] answers ↔ ∃ b, (b = true ↔ P []) ∧ answers = [b] := by
  simp only [Answers, List.tails, List.forall₂_cons_left_iff, List.forall₂_nil_left_iff,
    exists_and_left, exists_eq_left]

lemma cons_iff :
    Answers P (c :: text) answers ↔
      ∃ b later, (b = true ↔ P (c :: text)) ∧ Answers P text later ∧ answers = b :: later := by
  simp only [Answers, List.tails, List.forall₂_cons_left_iff]

lemma headD_iff (h : Answers P text answers) : answers.headD false = true ↔ P text := by
  cases text with
  | nil =>
    obtain ⟨b, hb, rfl⟩ := nil_iff.1 h
    exact hb
  | cons c text =>
    obtain ⟨b, later, hb, -, rfl⟩ := cons_iff.1 h
    exact hb

end Answers

lemma answers_matchChar (hc : c ≠ '*') {later : List Bool} (h : Answers (Fills glob) text later) :
    Answers (Fills (c :: glob)) text (matchChar c text later) := by
  -- On the text; a tail is covered if it begins with the character and the next tail is covered by
  -- the rest of the glob.
  induction text generalizing later with
  | nil =>
    have hnil : ¬ Fills (c :: glob) [] := by
      rw [Fills.char_iff hc]
      rintro ⟨rest, heq, -⟩
      exact nomatch heq
    exact Answers.nil_iff.2 ⟨false, by simp [hnil], rfl⟩
  | cons x text ih =>
    obtain ⟨b, later, -, htext, rfl⟩ := Answers.cons_iff.1 h
    have hcons : Fills (c :: glob) (x :: text) ↔ x = c ∧ Fills glob text := by
      rw [Fills.char_iff hc]
      constructor
      · rintro ⟨rest, heq, hrest⟩
        obtain ⟨rfl, rfl⟩ := List.cons.inj heq
        exact ⟨rfl, hrest⟩
      · rintro ⟨rfl, hrest⟩
        exact ⟨text, rfl, hrest⟩
    refine Answers.cons_iff.2 ⟨_, _, ?_, ih htext, rfl⟩
    rw [Bool.and_eq_true, beq_iff_eq, htext.headD_iff, hcons]

lemma answers_matchStar {later : List Bool} (h : Answers (Fills glob) text later) :
    Answers (Fills ('*' :: glob)) text (matchStar text later) := by
  induction text generalizing later with
  | nil =>
    obtain ⟨b, hb, rfl⟩ := Answers.nil_iff.1 h
    exact Answers.nil_iff.2 ⟨b, hb.trans Fills.star_nil.symm, rfl⟩
  | cons x text ih =>
    obtain ⟨b, later, hb, htext, rfl⟩ := Answers.cons_iff.1 h
    have hshorter := ih htext
    -- The answer for the next tail is at hand, and with it the one for this tail by
    -- `Fills.star_cons`.
    refine Answers.cons_iff.2 ⟨_, _, ?_, hshorter, rfl⟩
    rw [Bool.or_eq_true, Bool.and_eq_true, bne_iff_ne, hb, hshorter.headD_iff, Fills.star_cons]

lemma answers_coveredTails (glob text : List Char) :
    Answers (Fills glob) text (coveredTails glob text) := by
  induction glob with
  | nil =>
    induction text with
    | nil => exact Answers.nil_iff.2 ⟨true, by simp [Fills.nil_iff], rfl⟩
    | cons x text ih => exact Answers.cons_iff.2 ⟨false, _, by simp [Fills.nil_iff], ih, rfl⟩
  | cons c glob ih =>
    rw [coveredTails]
    split
    · next hc =>
      subst hc
      exact answers_matchStar ih
    · next hc => exact answers_matchChar hc ih

theorem accepts_iff : accepts glob text = true ↔ Fills glob text :=
  (answers_coveredTails glob text).headD_iff

/-! ## Globs that cover globs -/

namespace Fills

lemma append {glob' text' : List Char} (h : Fills glob text) (h' : Fills glob' text') :
    Fills (glob ++ glob') (text ++ text') := by
  induction h with
  | nil => exact h'
  | char hc _ ih => exact .char hc ih
  | star hrun _ ih =>
    rw [List.append_assoc]
    exact .star hrun ih

lemma of_append {glob' : List Char} (h : Fills (glob ++ glob') text) :
    ∃ first second, text = first ++ second ∧ Fills glob first ∧ Fills glob' second := by
  induction glob generalizing text with
  | nil => exact ⟨[], text, rfl, .nil, h⟩
  | cons c glob ih =>
    by_cases hc : c = '*'
    · subst hc
      obtain ⟨run, rest, rfl, hrun, hrest⟩ := star_iff.1 h
      obtain ⟨first, second, rfl, hfirst, hsecond⟩ := ih hrest
      exact ⟨run ++ first, second, (List.append_assoc ..).symm, .star hrun hfirst, hsecond⟩
    · obtain ⟨rest, rfl, hrest⟩ := (char_iff hc).1 h
      obtain ⟨first, second, rfl, hfirst, hsecond⟩ := ih hrest
      exact ⟨c :: first, second, rfl, .char hc hfirst, hsecond⟩

/-- A glob covers its own text, each star standing for itself. -/
lemma refl (glob : List Char) : Fills glob glob := by
  induction glob with
  | nil => exact .nil
  | cons c glob ih =>
    by_cases hc : c = '*'
    · subst hc
      exact star_iff.2 ⟨['*'], glob, rfl, by decide, ih⟩
    · exact .char hc ih

lemma no_line_feed (h : Fills glob text) (hglob : '\n' ∉ glob) : '\n' ∉ text := by
  induction h with
  | nil => exact hglob
  | char _ _ ih =>
    rw [List.mem_cons, not_or] at hglob ⊢
    exact ⟨hglob.1, ih hglob.2⟩
  | star hrun _ ih =>
    rw [List.mem_append, not_or]
    exact ⟨hrun, ih (List.not_mem_of_not_mem_cons hglob)⟩

/-- What a glob covers of the text of another glob, it covers of all that one covers. -/
theorem trans {inner : List Char} (h : Fills glob inner) (h' : Fills inner text) :
    Fills glob text := by
  induction h generalizing text with
  | nil => exact h'
  | char hc _ ih =>
    obtain ⟨rest, rfl, hrest⟩ := (char_iff hc).1 h'
    exact .char hc (ih hrest)
  | star hrun _ ih =>
    -- The run may hold stars of the inner glob; what replaces them becomes part of the run.
    obtain ⟨first, second, rfl, hfirst, hsecond⟩ := of_append h'
    exact .star (hfirst.no_line_feed hrun) (ih hsecond)

/-- A glob with a part free of line feeds replaced by a star covers the glob. -/
lemma widen {part : List Char} (hpart : '\n' ∉ part) (before after : List Char) :
    Fills (before ++ '*' :: after) (before ++ (part ++ after)) :=
  (refl before).append (.star hpart (refl after))

end Fills

end Gatehouse.Text.Glob
