import Gatehouse.Access.Principal
import Gatehouse.Proofs.Patterns

/-!
# What permissions allow

A permission allows the texts that its value covers as a glob, and these are the texts in which
its pattern finds a match.  Two kinds of values are apart from that: a lone star, which allows line
feeds too, and one whose pattern the engine does not compile, which allows nothing
(`Permission.allows_iff`).  Nothing is known of an engine but which patterns it compiles, and where
one has to be compiled that is a premise (`Permission.Compiles`).

The texts that permissions are asked for may be values of permissions themselves.  A permission
that allows the value of another one allows what that one allows (`Permission.allows_trans`), so a
right is never narrower than the rights it names.  The lone star breaks this at line feeds and
nowhere else: `**` covers its text and does not share its exception.
-/

namespace Gatehouse

open Text

namespace Permission

/-- The engine compiles the pattern of the value. -/
def Compiles [Engine] (p : Permission) : Prop := Engine.compiles p.pattern = true

instance [Engine] (p : Permission) : Decidable p.Compiles := inferInstanceAs (Decidable (_ = true))

section Engine

variable [Engine] {p q : Permission} {requested : String}

lemma allows_iff :
    p.allows requested = true ↔
      p.value = anything ∨ p.Compiles ∧ Glob.Fills p.value.toList requested.toList := by
  rw [allows, Bool.or_eq_true, Bool.and_eq_true, beq_iff_eq, Glob.accepts_iff, Compiles]

/-- A value whose pattern is compiled allows exactly what its literals cover, and that is what its
pattern finds. -/
theorem allows_exactly_covered (p : Permission) (requested : String) (hp : p.Compiles) :
    (p.allows requested = true ↔
      p.value = anything ∨
        Glob.Covers (Glob.literals p.value.toList) requested.toList) ∧
      (p.allows requested = true ↔
        p.value = anything ∨ Pattern.Finds p.pattern requested.toList) := by
  have hfills : p.allows requested = true ↔
      p.value = anything ∨ Glob.Fills p.value.toList requested.toList := by
    rw [allows_iff, and_iff_right hp]
  constructor
  · rw [hfills, Glob.covers_literals_iff]
  · rw [hfills, pattern, Pattern.finds_ofGlob_iff]

end Engine

/-- A backslash before a star is a backslash, and brackets are brackets. -/
theorem allows_exactly_covered_backslash :
    let p : Permission := ⟨.ofNat 1, "C:\\*.(tmp|*)", "all", ""⟩
    let requested := "C:\\a\\b.(tmp|é)"
    p.Compiles ∧ Glob.Covers (Glob.literals p.value.toList) requested.toList ∧
      Pattern.Finds p.pattern requested.toList := by
  intro p requested
  have hp : p.Compiles := by decide
  have hallows : p.allows requested = true := by decide
  have hvalue : p.value ≠ anything := by decide
  obtain ⟨hcovers, hfinds⟩ := allows_exactly_covered p requested hp
  exact ⟨hp, (hcovers.1 hallows).resolve_left hvalue, (hfinds.1 hallows).resolve_left hvalue⟩

/-! ## Permissions for permissions -/

section Engine

variable [Engine] {p q : Permission} {requested : String}

/-- What a value other than the lone star allows, it covers as a glob, and so does the lone star
where there is no line feed. -/
lemma fills_of_allows (hq : q.allows requested = true)
    (hline : q.value ≠ anything ∨ '\n' ∉ requested.toList) :
    Glob.Fills q.value.toList requested.toList := by
  obtain hvalue | ⟨-, hfills⟩ := allows_iff.1 hq
  · -- The lone star is a run as long as what is asked for, and a run has no line feed.
    have hnone := hline.resolve_left (not_not_intro hvalue)
    rw [hvalue, ← List.append_nil requested.toList]
    exact .star hnone .nil
  · exact hfills

lemma allows_trans (hpq : p.allows q.value = true) (hq : q.allows requested = true)
    (hline : q.value ≠ anything ∨ '\n' ∉ requested.toList) : p.allows requested = true := by
  obtain hvalue | ⟨hp, hfills⟩ := allows_iff.1 hpq
  · exact allows_iff.2 (.inl hvalue)
  · exact allows_iff.2 (.inr ⟨hp, hfills.trans (fills_of_allows hq hline)⟩)

lemma allows_widened {before part after : String} (hq : q.value = before ++ part ++ after)
    (hp : p.value = before ++ "*" ++ after) (hpart : '\n' ∉ part.toList) (hcompiles : p.Compiles) :
    p.allows q.value = true := by
  have hwiden := Glob.Fills.widen hpart before.toList after.toList
  refine allows_iff.2 (.inr ⟨hcompiles, ?_⟩)
  simpa [hp, hq] using hwiden

end Engine

end Permission

lemma Principal.holds_of_allows [Engine] {principal : Principal} {p : Permission}
    {requested : String} (hp : p ∈ principal.permissions) (h : p.allows requested = true) :
    principal.holds requested = true ∧
      ∀ scope : Scope, p.scope = scope.text → principal.holdsWithin scope requested = true := by
  constructor
  · exact List.any_eq_true.2 ⟨p, hp, h⟩
  · intro scope hscope
    refine List.any_eq_true.2 ⟨p, hp, ?_⟩
    rw [Permission.allowsWithin, hscope, beq_self_eq_true, Bool.true_and, h]

/-- A permission that allows the value of another one allows what that one allows, and so does
whoever holds it; and a value with a part replaced by a star allows what it allowed before, as long
as it is compiled. -/
theorem coverage_transitive [Engine] :
    (∀ (p q : Permission) (requested : String), p.allows q.value = true →
      q.allows requested = true →
      (q.value ≠ Permission.anything ∨ '\n' ∉ requested.toList) →
        p.allows requested = true ∧
          ∀ principal : Principal, p ∈ principal.permissions →
            principal.holds requested = true ∧
              ∀ scope : Scope, p.scope = scope.text →
                principal.holdsWithin scope requested = true) ∧
      ∀ (p q : Permission) (before part after requested : String),
        q.value = before ++ part ++ after → p.value = before ++ "*" ++ after →
        q.value ≠ Permission.anything → '\n' ∉ part.toList → p.Compiles →
        q.allows requested = true → p.allows requested = true := by
  constructor
  · intro p q requested hpq hq hline
    have hp := Permission.allows_trans hpq hq hline
    exact ⟨hp, fun principal hmem => principal.holds_of_allows hmem hp⟩
  · intro p q before part after requested hq hp hvalue hpart hcompiles hallows
    have hwidened := Permission.allows_widened hq hp hpart hcompiles
    exact Permission.allows_trans hwidened hallows (.inl hvalue)

/-- The premises are met by a permission for all that is done with roles. -/
theorem coverage_transitive_roles :
    let p : Permission := ⟨.ofNat 1, "admin.*", "admin", ""⟩
    let q : Permission := ⟨.ofNat 2, "admin.roles.*e*", "all", ""⟩
    let wider : Permission := ⟨.ofNat 3, "admin.*.*e*", "all", ""⟩
    let requested := "admin.roles.create"
    p.allows q.value = true ∧ q.allows requested = true ∧ p.allows requested = true ∧
      wider.allows requested = true := by
  intro p q wider requested
  have hpq : p.allows q.value = true := by decide
  have hq : q.allows requested = true := by decide
  have hvalue : q.value ≠ Permission.anything := by decide
  have hp := coverage_transitive.1 p q requested hpq hq (.inl hvalue)
  have hwider := coverage_transitive.2 wider q "admin." "roles" ".*e*" requested (by decide)
    (by decide) hvalue (by decide) (by decide) hq
  exact ⟨hpq, hq, hp.1, hwider⟩

/-- Two stars cover the text of a lone star, but not all that it allows. -/
example :
    let p : Permission := ⟨.ofNat 1, "**", "all", ""⟩
    let q : Permission := ⟨.ofNat 2, "*", "all", ""⟩
    p.allows q.value = true ∧ q.allows "\n" = true ∧ p.allows "\n" = false := by
  decide

end Gatehouse
