import Gatehouse.Access.Violation
import Gatehouse.Text.Engine
import Gatehouse.Text.Glob
import Gatehouse.Uuid

/-!
# Permissions

A permission names what it allows by a glob and how far it reaches by a scope.  Both are kept as
the text they were submitted in, so a stored permission may have any text as its scope; only one
whose scope is the text of a `Scope` counts as having that scope.
-/

namespace Gatehouse

/-! ## Scopes -/

/-- How far a permission reaches. -/
inductive Scope where
  | admin
  | all
deriving DecidableEq

namespace Scope

/-- The text of a scope. -/
def text : Scope → String
  | admin => "admin"
  | all => "all"

/-- The scope that a text names. -/
def ofText (s : String) : Except Violation Scope :=
  if s = "" then .error .scopeRequired
  else if s = "admin" then .ok .admin
  else if s = "all" then .ok .all
  else .error .scopeInvalid

/-- A scope is read from its own text and from no other. -/
theorem ofText_eq_ok_iff {s : String} {scope : Scope} : ofText s = .ok scope ↔ s = scope.text := by
  unfold ofText
  constructor
  · intro h
    split at h
    · exact nomatch h
    · split at h
      · next hs => rw [hs]; injection h with h; rw [← h]; rfl
      · split at h
        · next hs => rw [hs]; injection h with h; rw [← h]; rfl
        · exact nomatch h
  · rintro rfl
    cases scope <;> simp [text]

end Scope

/-! ## One permission -/

/-- The right to do what a glob covers. -/
structure Permission where
  id : Uuid
  value : String
  scope : String
  description : String
deriving DecidableEq

namespace Permission

/-- The value of the permission that allows everything. -/
def anything : String := "*"

/-- The pattern that the value is compared by, unless it is a lone star. -/
def pattern (p : Permission) : List Char := Text.Pattern.ofGlob p.value.toList

/-- Whether the permission allows what is requested.  A lone star allows everything, line feeds
included; any other value is a glob, and one whose pattern the engine refuses allows nothing. -/
def allows [Text.Engine] (p : Permission) (requested : String) : Bool :=
  p.value == anything ||
    (Text.Engine.compiles p.pattern && Text.Glob.accepts p.value.toList requested.toList)

/-- The scope that the permission has. -/
def scope? (p : Permission) : Except Violation Scope := Scope.ofText p.scope

/-- Whether the permission allows what is requested within exactly the given scope. -/
def allowsWithin [Text.Engine] (p : Permission) (scope : Scope) (requested : String) : Bool :=
  p.scope == scope.text && p.allows requested

/-- A permission needs a value and one of the scopes. -/
def validate (p : Permission) : Except Violation Unit :=
  if p.value = "" then .error .valueRequired else p.scope?.map fun _ => ()

/-! ## Batches -/

/-- How many permissions may be granted at once. -/
def maxBatch : Nat := 250

/-- The first violation among several permissions. -/
def validateEach : List Permission → Except Violation Unit
  | [] => .ok ()
  | p :: ps =>
    match p.validate with
    | .error v => .error v
    | .ok () => validateEach ps

/-- A batch is bounded in size and valid throughout; its size is looked at first. -/
def validateBatch (batch : List Permission) : Except Violation Unit :=
  if maxBatch < batch.length then .error .limitExceeded else validateEach batch

end Permission

end Gatehouse
