import Gatehouse.Access.Permission
import Gatehouse.Store.Basic

/-!
# The permission store

Permissions, and which role carries which, in the order of granting.  A permission may be
granted to a role more than once; taking it away undoes every grant of it.  Roles are not looked
at: they belong to another store.
-/

namespace Gatehouse

/-- The permissions kept and the grants of them. -/
structure PermissionTable where
  permissions : List Permission
  /-- role and permission of each grant -/
  grants : List (Uuid × Uuid)
deriving DecidableEq

/-- A request to the permission store. -/
inductive PermissionOp where
  | create (permission : Permission)
  | find (id : Uuid)
  | update (permission : Permission)
  | delete (id : Uuid)
  | list
  | carriedBy (role : Uuid)
  | grant (role : Uuid) (permissions : List Uuid)
  | revoke (role permission : Uuid)

/-- The kinds of requests to the permission store. -/
inductive PermissionAction where
  | create
  | find
  | update
  | delete
  | list
  | carriedBy
  | grant
  | revoke
deriving DecidableEq

namespace PermissionTable

/-- No permissions. -/
def empty : PermissionTable := ⟨[], []⟩

/-- What the errors of this store call a record. -/
def entity : String := "permission"

/-- Whether there is a permission with the given id. -/
def has (table : PermissionTable) (id : Uuid) : Bool := table.permissions.any fun p => p.id == id

/-- The permission with the given id. -/
def find? (table : PermissionTable) (id : Uuid) : Option Permission :=
  table.permissions.find? fun p => p.id == id

/-- The table with a new permission. -/
def create (table : PermissionTable) (permission : Permission) :
    Except StoreError Unit × PermissionTable :=
  if table.has permission.id then (.error (.conflict entity permission.id.text), table)
  else (.ok (), { table with permissions := table.permissions ++ [permission] })

/-- The table with the permission of the same id replaced. -/
def update (table : PermissionTable) (permission : Permission) :
    Except StoreError Unit × PermissionTable :=
  if table.has permission.id then
    (.ok (), { table with
      permissions := replaceFirst (fun p => p.id == permission.id) permission table.permissions })
  else (.error (.missing entity permission.id.text), table)

/-- The table without a permission and without its grants. -/
def delete (table : PermissionTable) (id : Uuid) : PermissionTable where
  permissions := table.permissions.filter fun p => p.id != id
  grants := table.grants.filter fun row => row.2 != id

/-- The order permissions are listed in: by value, and by id among equal values. -/
def listedBefore (p q : Permission) : Bool :=
  p.value < q.value || (p.value == q.value && p.id.val ≤ q.id.val)

/-- The permissions in listing order. -/
def listed (table : PermissionTable) : List Permission := table.permissions.mergeSort listedBefore

/-- The permissions a role carries, one for each grant, in order of granting. -/
def carriedBy (table : PermissionTable) (role : Uuid) : List Permission :=
  (table.grants.filter fun row => row.1 == role).filterMap fun row => table.find? row.2

/-- The table with one more grant for each id; one unknown id and nothing is granted. -/
def grant (table : PermissionTable) (role : Uuid) (ids : List Uuid) :
    Except StoreError Unit × PermissionTable :=
  match ids.find? fun id => !table.has id with
  | some unknown => (.error (.missing entity unknown.text), table)
  | none => (.ok (), { table with grants := table.grants ++ ids.map fun id => (role, id) })

/-- The table without the grants of a permission to a role. -/
def revoke (table : PermissionTable) (role permission : Uuid) : PermissionTable :=
  { table with grants := table.grants.filter fun row => row != (role, permission) }

end PermissionTable

namespace PermissionOp

/-- What a request is answered with. -/
abbrev Reply : PermissionOp → Type
  | create _ => Unit
  | find _ => Option Permission
  | update _ => Unit
  | delete _ => Unit
  | list => List Permission
  | carriedBy _ => List Permission
  | grant _ _ => Unit
  | revoke _ _ => Unit

/-- The answer to a request, and the table after it. -/
def step (table : PermissionTable) :
    (op : PermissionOp) → Except StoreError op.Reply × PermissionTable
  | create permission => table.create permission
  | find id => (.ok (table.find? id), table)
  | update permission => table.update permission
  | delete id => (.ok (), table.delete id)
  | list => (.ok table.listed, table)
  | carriedBy role => (.ok (table.carriedBy role), table)
  | grant role ids => table.grant role ids
  | revoke role permission => (.ok (), table.revoke role permission)

/-- The kind of a request. -/
def action : PermissionOp → PermissionAction
  | create _ => .create
  | find _ => .find
  | update _ => .update
  | delete _ => .delete
  | list => .list
  | carriedBy _ => .carriedBy
  | grant _ _ => .grant
  | revoke _ _ => .revoke

/-- What a request is about: a role where grants are looked at, else a permission. -/
def subject? : PermissionOp → Option Uuid
  | create permission => some permission.id
  | find id => some id
  | update permission => some permission.id
  | delete id => some id
  | list => none
  | carriedBy role => some role
  | grant role _ => some role
  | revoke role _ => some role

instance : Storage PermissionOp where
  Table := PermissionTable
  Action := PermissionAction
  actionEq := inferInstance
  Reply := Reply
  step := step
  action := action
  subject? := subject?

end PermissionOp

end Gatehouse
