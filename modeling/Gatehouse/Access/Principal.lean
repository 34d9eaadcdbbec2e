import Gatehouse.Access.Permission
import Gatehouse.Access.Role

/-!
# Users and principals

A principal is a user together with the roles assigned to them and the permissions that each
role carries, as they were when the principal was resolved.
-/

namespace Gatehouse

/-- An account. -/
structure User where
  id : Uuid
  email : String
  firstName : String
  lastName : String
  createdAt : Time.Instant
  updatedAt : Time.Instant
deriving DecidableEq

namespace User

/-- An account made at a given instant. -/
def make (id : Uuid) (email firstName lastName : String) (now : Time.Instant) : User :=
  ⟨id, email, firstName, lastName, now, now⟩

/-- First and last name, without the space of a name that is missing. -/
def displayName (u : User) : String := Text.trimmed (u.firstName ++ " " ++ u.lastName)

end User

/-- A role with the permissions it carries. -/
structure HeldRole where
  role : Role
  permissions : List Permission
deriving DecidableEq

/-- A user with the roles they hold. -/
structure Principal where
  user : User
  roles : List HeldRole
deriving DecidableEq

namespace Principal

/-- The permissions of all roles, role by role. -/
def permissions (p : Principal) : List Permission := p.roles.flatMap HeldRole.permissions

/-- Whether one of the roles has the given name. -/
def hasRole (p : Principal) (name : String) : Bool := p.roles.any fun held => held.role.name == name

/-- Whether some permission allows what is requested, whatever its scope. -/
def holds [Text.Engine] (p : Principal) (requested : String) : Bool :=
  p.permissions.any fun permission => permission.allows requested

/-- Whether some permission allows what is requested within exactly the given scope. -/
def holdsWithin [Text.Engine] (p : Principal) (scope : Scope) (requested : String) : Bool :=
  p.permissions.any fun permission => permission.allowsWithin scope requested

end Principal

end Gatehouse
