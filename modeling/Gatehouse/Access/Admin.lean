import Gatehouse.Store.Flow

/-!
# Administering rights

Roles and permissions are checked before they are stored, and a batch of permissions is granted
as a whole: when one of its permissions cannot be stored, or the grant itself fails, the
permissions stored so far are taken back.  Taking back is best effort; a failure of it is passed
over in favour of the failure that caused it.
-/

namespace Gatehouse

/-- Why an administrative request failed. -/
inductive AdminError where
  | validation (v : Violation)
  | store (e : StoreError)
deriving DecidableEq

/-- What is told to a person. -/
def AdminError.message : AdminError → String
  | .validation v => v.message
  | .store e => e.message

namespace Admin

/-- A store's answer as the answer of an administrative request. -/
def ofStore {α : Type} : Except StoreError α → Except AdminError α
  | .error e => .error (.store e)
  | .ok a => .ok a

/-- Stores a new role. -/
def createRole (role : Role) : Flow (Except AdminError Unit) :=
  match role.validate with
  | .error v => pure (.error (.validation v))
  | .ok () => do return ofStore (← Flow.roles (← Flow.rolesInUse) (.create role))

/-- Stores a new permission. -/
def createPermission (permission : Permission) : Flow (Except AdminError Unit) :=
  match permission.validate with
  | .error v => pure (.error (.validation v))
  | .ok () => do
    return ofStore (← Flow.permissions (← Flow.permissionsInUse) (.create permission))

/-! ## Granting a batch -/

/-- Takes permissions back in order, whatever comes of it. -/
def discard (place : Nat) : List Uuid → Flow Unit
  | [] => pure ()
  | id :: rest => do
    let _ ← Flow.permissions place (.delete id)
    discard place rest

/-- Takes back what was stored and reports the failure that made it necessary. -/
def undo (place : Nat) (stored : List Uuid) (e : StoreError) : Flow (Except AdminError Unit) := do
  discard place stored
  return .error (.store e)

/-- Stores what is left of a batch and then grants all of it; `stored` are the permissions of
the batch stored so far. -/
def storeAndGrant (place : Nat) (role : Uuid) (stored : List Uuid) :
    List Permission → Flow (Except AdminError Unit)
  | [] => do
    match ← Flow.permissions place (.grant role stored) with
    | .ok () => pure (.ok ())
    | .error e => undo place stored e
  | permission :: rest => do
    match ← Flow.permissions place (.create permission) with
    | .ok () => storeAndGrant place role (stored ++ [permission.id]) rest
    | .error e => undo place stored e

/-- Stores a batch of permissions and grants it to a role that is there. -/
def grant (role : Uuid) (batch : List Permission) : Flow (Except AdminError Unit) :=
  match Permission.validateBatch batch with
  | .error v => pure (.error (.validation v))
  | .ok () => do
    match ← Flow.roles (← Flow.rolesInUse) (.find role) with
    | .error e => pure (.error (.store e))
    | .ok none => pure (.error (.store (.missing RoleTable.entity role.text)))
    | .ok (some _) => storeAndGrant (← Flow.permissionsInUse) role [] batch

/-! ## Assigning a role -/

/-- Assigns a role to a user that is there. -/
def assignRole (user role : Uuid) : Flow (Except AdminError Unit) := do
  match ← Flow.users (← Flow.usersInUse) (.find user) with
  | .error e => pure (.error (.store e))
  | .ok none => pure (.error (.store (.missing UserTable.entity user.text)))
  | .ok (some _) => return ofStore (← Flow.roles (← Flow.rolesInUse) (.assign user role))

end Admin

end Gatehouse
