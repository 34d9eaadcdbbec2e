import Gatehouse.Text.Blank
import Mathlib.Data.List.Basic
import Mathlib.Data.List.TakeWhile
import Mathlib.Tactic.Lemma

/-!
# Trimmed texts

What is left when the blanks around a text are gone is solid: it is not empty and has no blank at
either end (`solid_trim`).  A solid text stays as it is however often it is trimmed
(`trim_eq_self`), and it comes back from behind any blanks (`trim_solid`).
-/

namespace Gatehouse.Text

variable {cs w w' : List Char}

/-- A text that is left when the blanks around another one are gone. -/
structure Solid (cs : List Char) : Prop where
  ne_nil : cs ≠ []
  head : ∀ c, cs.head? = some c → isBlank c = false
  last : ∀ c, cs.getLast? = some c → isBlank c = false

lemma trimStart_append (hw : ∀ c ∈ w, isBlank c = true) : trimStart (w ++ cs) = trimStart cs :=
  List.dropWhile_append_of_pos hw

lemma trimStart_eq_self (h : ∀ c, cs.head? = some c → isBlank c = false) : trimStart cs = cs := by
  cases cs with
  | nil => rfl
  | cons c cs => exact List.dropWhile_cons_of_neg (by rw [h c rfl]; exact Bool.false_ne_true)

lemma trimEnd_append (hw : ∀ c ∈ w, isBlank c = true) : trimEnd (cs ++ w) = trimEnd cs := by
  have hrev : ∀ c ∈ w.reverse, isBlank c = true := fun c hc => hw c (List.mem_reverse.1 hc)
  rw [trimEnd, List.reverse_append, List.dropWhile_append_of_pos hrev, trimEnd]

lemma trimEnd_eq_self (h : ∀ c, cs.getLast? = some c → isBlank c = false) : trimEnd cs = cs := by
  have hrev : trimStart cs.reverse = cs.reverse := by
    refine trimStart_eq_self fun c hc => h c ?_
    rwa [List.head?_reverse] at hc
  rw [trimEnd, ← trimStart, hrev, List.reverse_reverse]

/-- Nothing is left exactly of a text that is all blanks. -/
lemma trim_eq_nil_iff : trim cs = [] ↔ ∀ c ∈ cs, isBlank c = true := by
  have hdrop : ∀ cs : List Char, cs.dropWhile isBlank = [] ↔ ∀ c ∈ cs, isBlank c = true :=
    fun cs => List.dropWhile_eq_nil_iff
  rw [trim, trimEnd, List.reverse_eq_nil_iff, hdrop]
  constructor
  · intro h c hc
    rw [← List.takeWhile_append_dropWhile (p := isBlank) (l := cs), List.mem_append] at hc
    rcases hc with hc | hc
    · exact List.mem_takeWhile_imp hc
    · exact h c (List.mem_reverse.2 hc)
  · intro h c hc
    exact h c ((List.dropWhile_sublist _).subset (List.mem_reverse.1 hc))

lemma trim_eq_self (h : Solid cs) : trim cs = cs := by
  rw [trim, trimStart_eq_self h.head, trimEnd_eq_self h.last]

/-- The blanks around a text are gone. -/
lemma trim_solid (hw : ∀ c ∈ w, isBlank c = true) (h : Solid cs)
    (hw' : ∀ c ∈ w', isBlank c = true) : trim (w ++ cs ++ w') = cs := by
  have hhead : ∀ c, (cs ++ w').head? = some c → isBlank c = false := by
    obtain ⟨d, ds, rfl⟩ := List.exists_cons_of_ne_nil h.ne_nil
    exact h.head
  rw [trim, List.append_assoc, trimStart_append hw, trimStart_eq_self hhead, trimEnd_append hw',
    trimEnd_eq_self h.last]

lemma trimEnd_prefix (cs : List Char) : trimEnd cs <+: cs := by
  rw [← List.reverse_suffix, trimEnd, List.reverse_reverse]
  exact List.dropWhile_suffix _

/-- A text is what is left of it with blanks on both sides. -/
lemma exists_blanks_trim (cs : List Char) :
    ∃ w w', cs = w ++ trim cs ++ w' ∧ (∀ c ∈ w, isBlank c = true) ∧ ∀ c ∈ w', isBlank c = true := by
  refine ⟨cs.takeWhile isBlank, ((trimStart cs).reverse.takeWhile isBlank).reverse, ?_,
    fun c hc => List.mem_takeWhile_imp hc, fun c hc => ?_⟩
  · -- What is taken from the end is what is taken from the front of the reversed text.
    have hend : trim cs ++ ((trimStart cs).reverse.takeWhile isBlank).reverse = trimStart cs := by
      rw [trim, trimEnd, ← List.reverse_append, List.takeWhile_append_dropWhile,
        List.reverse_reverse]
    rw [List.append_assoc, hend, trimStart, List.takeWhile_append_dropWhile]
  · exact List.mem_takeWhile_imp (List.mem_reverse.1 hc)

lemma trimStart_head (cs : List Char) : ∀ c, (trimStart cs).head? = some c → isBlank c = false := by
  intro c hc
  have hfirst := List.head?_dropWhile_not isBlank cs
  rw [← trimStart, hc] at hfirst
  exact hfirst

/-- What is left of a text that is not all blanks is solid. -/
lemma solid_trim (h : trim cs ≠ []) : Solid (trim cs) where
  ne_nil := h
  head c hc := by
    obtain ⟨rest, hrest⟩ : trim cs <+: trimStart cs := trimEnd_prefix _
    refine trimStart_head cs c ?_
    rw [← hrest, List.head?_append_of_ne_nil _ h]
    exact hc
  last c hc := by
    rw [trim, trimEnd, List.getLast?_reverse] at hc
    exact trimStart_head _ c hc

end Gatehouse.Text
