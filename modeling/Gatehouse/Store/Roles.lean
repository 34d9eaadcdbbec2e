import Gatehouse.Access.Role
import Gatehouse.Store.Basic

/-!
# The role store

Roles in the order they were created in, and who holds which, in the order of assignment.  A
role may be assigned to a user more than once; taking it away undoes every assignment of it.
Users are not looked at: they belong to another store.
-/

namespace Gatehouse

/-- The roles kept and the assignments of them. -/
structure RoleTable where
  roles : List Role
  /-- user and role of each assignment -/
  assignments : List (Uuid × Uuid)
deriving DecidableEq

/-- A request to the role store. -/
inductive RoleOp where
  | create (role : Role)
  | find (id : Uuid)
  | update (role : Role)
  | delete (id : Uuid)
  | list
  | heldBy (user : Uuid)
  | assign (user role : Uuid)
  | revoke (user role : Uuid)

/-- The kinds of requests to the role store. -/
inductive RoleAction where
  | create
  | find
  | update
  | delete
  | list
  | heldBy
  | assign
  | revoke
deriving DecidableEq

namespace RoleTable

/-- No roles. -/
def empty : RoleTable := ⟨[], []⟩

/-- What the errors of this store call a record. -/
def entity : String := "role"

/-- The first role with the given id. -/
def find? (table : RoleTable) (id : Uuid) : Option Role := table.roles.find? fun r => r.id == id

/-- The table with a new role at its end. -/
def create (table : RoleTable) (role : Role) : Except StoreError Unit × RoleTable :=
  if table.roles.any fun r => r.id == role.id then
    (.error (.conflict entity role.id.text), table)
  else (.ok (), { table with roles := table.roles ++ [role] })

/-- The table with the first role of the same id replaced. -/
def update (table : RoleTable) (role : Role) : Except StoreError Unit × RoleTable :=
  if table.roles.any fun r => r.id == role.id then
    (.ok (), { table with roles := replaceFirst (fun r => r.id == role.id) role table.roles })
  else (.error (.missing entity role.id.text), table)

/-- The table without a role and without its assignments. -/
def delete (table : RoleTable) (id : Uuid) : RoleTable where
  roles := table.roles.filter fun r => r.id != id
  assignments := table.assignments.filter fun row => row.2 != id

/-- The roles a user holds, one for each assignment, in order of assignment. -/
def heldBy (table : RoleTable) (user : Uuid) : List Role :=
  (table.assignments.filter fun row => row.1 == user).filterMap fun row => table.find? row.2

/-- The table with one more assignment. -/
def assign (table : RoleTable) (user role : Uuid) : Except StoreError Unit × RoleTable :=
  if table.roles.any fun r => r.id == role then
    (.ok (), { table with assignments := table.assignments ++ [(user, role)] })
  else (.error (.missing entity role.text), table)

/-- The table without the assignments of a role to a user. -/
def revoke (table : RoleTable) (user role : Uuid) : RoleTable :=
  { table with assignments := table.assignments.filter fun row => row != (user, role) }

end RoleTable

namespace RoleOp

/-- What a request is answered with. -/
abbrev Reply : RoleOp → Type
  | create _ => Unit
  | find _ => Option Role
  | update _ => Unit
  | delete _ => Unit
  | list => List Role
  | heldBy _ => List Role
  | assign _ _ => Unit
  | revoke _ _ => Unit

/-- The answer to a request, and the table after it. -/
def step (table : RoleTable) : (op : RoleOp) → Except StoreError op.Reply × RoleTable
  | create role => table.create role
  | find id => (.ok (table.find? id), table)
  | update role => table.update role
  | delete id => (.ok (), table.delete id)
  | list => (.ok table.roles, table)
  | heldBy user => (.ok (table.heldBy user), table)
  | assign user role => table.assign user role
  | revoke user role => (.ok (), table.revoke user role)

/-- The kind of a request. -/
def action : RoleOp → RoleAction
  | create _ => .create
  | find _ => .find
  | update _ => .update
  | delete _ => .delete
  | list => .list
  | heldBy _ => .heldBy
  | assign _ _ => .assign
  | revoke _ _ => .revoke

/-- What a request is about: a user where roles are looked up by user, else a role. -/
def subject? : RoleOp → Option Uuid
  | create role => some role.id
  | find id => some id
  | update role => some role.id
  | delete id => some id
  | list => none
  | heldBy user => some user
  | assign _ role => some role
  | revoke _ role => some role

instance : Storage RoleOp where
  Table := RoleTable
  Action := RoleAction
  actionEq := inferInstance
  Reply := Reply
  step := step
  action := action
  subject? := subject?

end RoleOp

end Gatehouse
