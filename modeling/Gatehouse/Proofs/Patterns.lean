import Gatehouse.Proofs.Globs
import Gatehouse.Text.Pattern

/-!
# Globs as patterns

A glob is turned into a pattern by two passes over text, neither of which knows what the text
means: first every special character is escaped, then every escaped star becomes a run.  That this
is right next to backslashes is the point of `tokens?_loosen`: in an escaped text a star always
has its own backslash right before it, so no backslash of the glob is ever taken for the one of a
star that follows (`escape_head?`).

What the pattern finds in a text is then what the glob covers (`finds_ofGlob_iff`): the anchors
make the pattern match the text as a whole, a run is a star, and every other piece is one
character.
-/

namespace Gatehouse.Text.Pattern

open Text.Glob

variable {c : Char} {glob rest : List Char}

/-! ## Reading what was written -/

/-- The tokens that a character of a glob is written as. -/
def tokensOf (c : Char) : List Token :=
  if c = '*' then [.atom .any, .star] else [.atom (.exactly c)]

/-- The piece that a character of a glob asks for. -/
def pieceOf (c : Char) : Piece := if c = '*' then .run .any else .once (.exactly c)

lemma token?_plain (hc : c ∉ specials) : token? c = some (.atom (.exactly c)) := by
  have hne : ∀ x ∈ specials, c ≠ x := fun x hx heq => hc (heq ▸ hx)
  have hstart : c ≠ '^' := hne _ (by decide)
  have hfinish : c ≠ '$' := hne _ (by decide)
  have hstar : c ≠ '*' := hne _ (by decide)
  have hdot : c ≠ '.' := hne _ (by decide)
  rw [token?, if_neg hstart, if_neg hfinish, if_neg hstar, if_neg hdot, if_neg hc]

lemma tokens?_cons (hc : c ≠ '\\') :
    tokens? (c :: rest) = (token? c).bind fun t => (tokens? rest).map (t :: ·) := by
  rw [tokens?]
  exact fun _ _ heq => absurd heq hc

lemma escape_head? (glob : List Char) : (escape glob).head? ≠ some '*' := by
  cases glob with
  | nil => simp [escape]
  | cons c glob =>
    rw [escape]
    split
    · simp
    · next hc =>
      intro heq
      obtain rfl : c = '*' := Option.some.inj heq
      exact hc (by decide)

/-- A character stays unless it is the backslash of a star. -/
lemma loosen_cons (h : c ≠ '\\' ∨ rest.head? ≠ some '*') :
    loosen (c :: rest) = c :: loosen rest := by
  rw [loosen]
  rintro rest rfl rfl
  simp at h

lemma tokens?_loosen (glob rest : List Char) :
    tokens? (loosen (escape glob) ++ rest) = (tokens? rest).map (glob.flatMap tokensOf ++ ·) := by
  -- On the glob: a star has become two tokens, another special character keeps its backslash, and a
  -- plain one stands by itself.
  induction glob with
  | nil => simp [escape, loosen]
  | cons c glob ih =>
    have hhead := escape_head? glob
    rw [List.flatMap_cons, tokensOf, escape]
    by_cases hstar : c = '*'
    · subst hstar
      have hspecial : '*' ∈ specials := by decide
      rw [if_pos hspecial, if_pos rfl, loosen, List.cons_append, List.cons_append,
        tokens?_cons (by decide), tokens?_cons (by decide), ih]
      simp [token?, Function.comp_def]
    · rw [if_neg hstar]
      by_cases hspecial : c ∈ specials
      · rw [if_pos hspecial, loosen_cons (.inr (by simpa using hstar)), loosen_cons (.inr hhead),
          List.cons_append, List.cons_append, tokens?, if_pos hspecial, ih]
        simp [Function.comp_def]
      · have hplain : c ≠ '\\' := fun heq => hspecial (heq ▸ by decide)
        rw [if_neg hspecial, loosen_cons (.inl hplain), List.cons_append, tokens?_cons hplain,
          token?_plain hspecial, ih]
        simp [Function.comp_def]

lemma pieces?_flatMap (glob : List Char) :
    pieces? (glob.flatMap tokensOf ++ [.finish]) = some (glob.map pieceOf ++ [.finish]) := by
  induction glob with
  | nil => rfl
  | cons c glob ih =>
    rw [List.flatMap_cons, List.map_cons, tokensOf, pieceOf]
    by_cases hstar : c = '*'
    · simp [hstar, pieces?, ih]
    · -- A character is repeated only by a star, and what the rest is written as begins with none.
      have hnext : ∀ tokens, glob.flatMap tokensOf ++ [.finish] ≠ .star :: tokens := by
        intro tokens
        cases glob with
        | nil => simp
        | cons x glob =>
          rw [List.flatMap_cons, tokensOf]
          split <;> simp
      rw [if_neg hstar, if_neg hstar, List.singleton_append, List.cons_append, pieces?, ih]
      · rfl
      · exact hnext

theorem read?_ofGlob (glob : List Char) :
    read? (ofGlob glob) = some (.start :: (glob.map pieceOf ++ [.finish])) := by
  have htokens : tokens? (ofGlob glob) = some (.start :: (glob.flatMap tokensOf ++ [.finish])) := by
    rw [ofGlob, tokens?_cons (by decide), tokens?_loosen]
    rfl
  rw [read?, htokens, Option.bind_some, pieces?, pieces?_flatMap]
  rfl

/-! ## What is found -/

namespace Matches

variable {before : List Char} {pieces : List Piece} {a : Atom}

lemma start_iff :
    Matches before (.start :: pieces) rest ↔ before = [] ∧ Matches [] pieces rest := by
  constructor
  · intro h
    cases h with
    | start h => exact ⟨rfl, h⟩
  · rintro ⟨rfl, h⟩
    exact .start h

lemma once_iff : Matches before (.once a :: pieces) rest ↔
    ∃ x later, rest = x :: later ∧ a.admits x = true ∧ Matches (before ++ [x]) pieces later := by
  constructor
  · intro h
    cases h with
    | once hx h => exact ⟨_, _, rfl, hx, h⟩
  · rintro ⟨x, later, rfl, hx, h⟩
    exact .once hx h

lemma run_iff : Matches before (.run a :: pieces) rest ↔
    ∃ run later, rest = run ++ later ∧ (∀ x ∈ run, a.admits x = true) ∧
      Matches (before ++ run) pieces later := by
  constructor
  · intro h
    cases h with
    | run hrun h => exact ⟨_, _, rfl, hrun, h⟩
  · rintro ⟨run, later, rfl, hrun, h⟩
    exact .run hrun h

lemma finish_iff : Matches before [.finish] rest ↔ rest = [] := by
  constructor
  · intro h
    cases h
    rfl
  · rintro rfl
    exact .finish .nil

end Matches

lemma matches_map_pieceOf {before : List Char} :
    Matches before (glob.map pieceOf ++ [.finish]) rest ↔ Fills glob rest := by
  induction glob generalizing before rest with
  | nil => rw [List.map_nil, List.nil_append, Matches.finish_iff, Fills.nil_iff]
  | cons c glob ih =>
    rw [List.map_cons, List.cons_append, pieceOf]
    by_cases hstar : c = '*'
    · subst hstar
      have hany : ∀ run : List Char, (∀ x ∈ run, Atom.any.admits x = true) ↔ '\n' ∉ run := by
        intro run
        simp only [Atom.admits, bne_iff_ne]
        exact ⟨fun h hmem => h _ hmem rfl, fun h x hx heq => h (heq ▸ hx)⟩
      simp only [if_true, Matches.run_iff, Fills.star_iff, hany, ih]
    · rw [if_neg hstar, Matches.once_iff, Fills.char_iff hstar]
      simp only [Atom.admits, beq_iff_eq, ih]
      constructor
      · rintro ⟨_, later, rfl, rfl, h⟩
        exact ⟨later, rfl, h⟩
      · rintro ⟨later, rfl, h⟩
        exact ⟨c, later, rfl, rfl, h⟩

theorem finds_ofGlob_iff {text : List Char} : Finds (ofGlob glob) text ↔ Fills glob text := by
  constructor
  · rintro ⟨pieces, before, rest, hread, rfl, hmatches⟩
    rw [read?_ofGlob] at hread
    obtain rfl := Option.some.inj hread
    obtain ⟨rfl, hrest⟩ := Matches.start_iff.1 hmatches
    exact matches_map_pieceOf.1 hrest
  · intro h
    exact ⟨_, [], text, read?_ofGlob glob, rfl, .start (matches_map_pieceOf.2 h)⟩

end Gatehouse.Text.Pattern
