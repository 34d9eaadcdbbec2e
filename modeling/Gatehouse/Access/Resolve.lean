import Gatehouse.Store.Flow

/-!
# Resolving principals

A principal is put together from three stores: the user, the roles assigned to them, and for
each assignment the permissions the role carries.  Either all of it is read or none is used:
the first failure ends the resolution.
-/

namespace Gatehouse

/-- Why a principal could not be resolved. -/
inductive ResolveError where
  | userNotFound
  | store (e : StoreError)
deriving DecidableEq

/-- What is told to a person. -/
def ResolveError.message : ResolveError → String
  | .userNotFound => "user not found"
  | .store e => e.message

namespace Resolve

/-- The permissions of each role in turn, all read from one permission store. -/
def withPermissions (place : Nat) : List Role → Flow (Except StoreError (List HeldRole))
  | [] => pure (.ok [])
  | role :: rest => do
    match ← Flow.permissions place (.carriedBy role.id) with
    | .error e => pure (.error e)
    | .ok permissions =>
      match ← withPermissions place rest with
      | .error e => pure (.error e)
      | .ok held => pure (.ok (⟨role, permissions⟩ :: held))

/-- The roles that a user holds, with the permissions they carry.  Where there are no roles the
permission store is not asked, and it is looked up only once. -/
def rolesOf (user : Uuid) : Flow (Except StoreError (List HeldRole)) := do
  match ← Flow.roles (← Flow.rolesInUse) (.heldBy user) with
  | .error e => pure (.error e)
  | .ok [] => pure (.ok [])
  | .ok (role :: rest) => withPermissions (← Flow.permissionsInUse) (role :: rest)

/-- The principal with a given user id. -/
def principal (user : Uuid) : Flow (Except ResolveError Principal) := do
  match ← Flow.users (← Flow.usersInUse) (.find user) with
  | .error e => pure (.error (.store e))
  | .ok none => pure (.error .userNotFound)
  | .ok (some u) =>
    match ← rolesOf u.id with
    | .error e => pure (.error (.store e))
    | .ok held => pure (.ok ⟨u, held⟩)

end Resolve

end Gatehouse
