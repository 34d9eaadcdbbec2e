/-!
# Rules for rights

What the access rules refuse about a role, a permission or a batch of permissions.
-/

namespace Gatehouse

/-- A rule that a submitted role, permission or batch breaks. -/
inductive Violation where
  | valueRequired
  | scopeRequired
  | scopeInvalid
  | nameRequired
  | nameTooShort
  | limitExceeded
deriving DecidableEq

namespace Violation

/-- What is told to a person. -/
def message : Violation → String
  | valueRequired => "permission value is required"
  | scopeRequired => "permission scope is required"
  | scopeInvalid => "permission scope is not one of: admin, all"
  | nameRequired => "role name is required"
  | nameTooShort => "role name must be at least 3 characters"
  | limitExceeded => "too many permissions in a single request"

/-- What is told to a program. -/
def code : Violation → String
  | valueRequired => "value_required"
  | scopeRequired => "scope_required"
  | scopeInvalid => "scope_invalid"
  | nameRequired => "name_required"
  | nameTooShort => "name_too_short"
  | limitExceeded => "limit_exceeded"

end Violation

end Gatehouse
