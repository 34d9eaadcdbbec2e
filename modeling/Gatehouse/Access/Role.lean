import Gatehouse.Access.Violation
import Gatehouse.Text.Blank
import Gatehouse.Time.Instant
import Gatehouse.Uuid

/-!
# Roles

A role is a named bundle of permissions; the bundle itself is kept by the permission store.
-/

namespace Gatehouse

/-- A named bundle of permissions. -/
structure Role where
  id : Uuid
  name : String
  description : String
  createdAt : Time.Instant
  updatedAt : Time.Instant
deriving DecidableEq

namespace Role

/-- How many characters a name has at least, blanks around it not counted. -/
def minNameLength : Nat := 3

/-- A role made at a given instant. -/
def make (id : Uuid) (name description : String) (now : Time.Instant) : Role :=
  ⟨id, name, description, now, now⟩

/-- A role needs a name of some length. -/
def validate (r : Role) : Except Violation Unit :=
  let name := Text.trim r.name.toList
  if name.isEmpty then .error .nameRequired
  else if name.length < minNameLength then .error .nameTooShort
  else .ok ()

end Role

end Gatehouse
