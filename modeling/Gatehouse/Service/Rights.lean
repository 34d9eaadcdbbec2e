import Gatehouse.Gate.Require
import Gatehouse.Service.Body
import Gatehouse.Service.Error

/-!
# Administering rights over the wire

Roles are listed, roles are added, and permissions are granted to a role in batches.  Each of it
requires a right of its own, and what was submitted is looked at only after that.
-/

namespace Gatehouse

open Http

/-! ## Submitted roles and permissions -/

/-- A submitted role. -/
structure NewRole where
  name : String
  description : String
deriving DecidableEq

namespace NewRole

/-- The members of a submitted role. -/
def form : Form NewRole where
  write n := .object [("name", .text n.name), ("description", .text n.description)]
  shape := .record [.required "name" .text, .optional "description" .text (.text "")]
  build?
    | .object [(_, .text name), (_, .text description)] => some ⟨name, description⟩
    | _ => none

/-- The role with a given id, made at an instant; its name is kept without blanks around it. -/
def role (n : NewRole) (id : Uuid) (now : Time.Instant) : Role :=
  Role.make id (Text.trimmed n.name) n.description now

end NewRole

/-- A submitted permission; any text may stand for its scope, and is judged later. -/
structure NewPermission where
  value : String
  scope : String
  description : String
deriving DecidableEq

namespace NewPermission

/-- The members of a submitted permission. -/
def form : Form NewPermission where
  write n := .object [("value", .text n.value), ("scope", .text n.scope),
    ("description", .text n.description)]
  shape := .record [.required "value" .text, .optional "scope" .text (.text ""),
    .optional "description" .text (.text "")]
  build?
    | .object [(_, .text value), (_, .text scope), (_, .text description)] =>
      some ⟨value, scope, description⟩
    | _ => none

/-- The permission with a given id. -/
def permission (n : NewPermission) (id : Uuid) : Permission :=
  ⟨id, n.value, n.scope, n.description⟩

/-- The permissions of a batch, the first of which gets the id of the given index. -/
def permissions (ids : Nat → Uuid) : Nat → List NewPermission → List Permission
  | _, [] => []
  | index, n :: rest => n.permission (ids index) :: permissions ids (index + 1) rest

end NewPermission

/-! ## Serving -/

namespace Rights

/-- The right to list roles, in whatever scope. -/
def listRight : String := "admin.roles.list"

/-- The right to add roles. -/
def createRight : String := "admin.roles.create"

/-- The right to grant permissions. -/
def grantRight : String := "admin.roles.grant"

variable [Text.Engine]

/-- The roles there are. -/
def listRoles (principal : Principal) : Flow (Except ServiceError (List Role)) :=
  match principal.ensure listRight with
  | .error e => pure (.error (.auth e))
  | .ok () => do
    match ← Flow.roles (← Flow.rolesInUse) .list with
    | .error e => pure (.error (.ofStore e))
    | .ok roles => pure (.ok roles)

/-- Adds a role with a given id at an instant. -/
def createRole (principal : Principal) (id : Uuid) (now : Time.Instant) (submitted : NewRole) :
    Flow (Except ServiceError Role) :=
  match principal.ensureWithin .admin createRight with
  | .error e => pure (.error (.auth e))
  | .ok () => do
    match ← Admin.createRole (submitted.role id now) with
    | .error e => pure (.error (.ofAdmin e))
    | .ok () => pure (.ok (submitted.role id now))

/-- Grants a batch of permissions, with given ids, to a role. -/
def grant (principal : Principal) (ids : Nat → Uuid) (role : Uuid)
    (submitted : List NewPermission) : Flow (Except ServiceError (List Permission)) :=
  match principal.ensureWithin .admin grantRight with
  | .error e => pure (.error (.auth e))
  | .ok () => do
    let batch := NewPermission.permissions ids 0 submitted
    match ← Admin.grant role batch with
    | .error e => pure (.error (.ofAdmin e))
    | .ok () => pure (.ok batch)

end Rights

end Gatehouse
