import Gatehouse.Access.Principal
import Gatehouse.Store.Basic

/-!
# The user store

Users in the order they were created in.  No two may be created with one id or one email; an
update looks at the id only.
-/

namespace Gatehouse

/-- The users kept, in order of creation. -/
abbrev UserTable := List User

/-- A request to the user store. -/
inductive UserOp where
  | create (user : User)
  | find (id : Uuid)
  | findByEmail (email : String)
  | update (user : User)
  | delete (id : Uuid)
  | list

/-- The kinds of requests to the user store. -/
inductive UserAction where
  | create
  | find
  | findByEmail
  | update
  | delete
  | list
deriving DecidableEq

namespace UserTable

/-- What the errors of this store call a record. -/
def entity : String := "user"

/-- The first user with the given id. -/
def find? (table : UserTable) (id : Uuid) : Option User := List.find? (fun u => u.id == id) table

/-- The first user with the given email. -/
def findByEmail? (table : UserTable) (email : String) : Option User :=
  List.find? (fun u => u.email == email) table

/-- The table with a new user at its end. -/
def create (table : UserTable) (user : User) : Except StoreError Unit × UserTable :=
  if table.any fun u => u.id == user.id || u.email == user.email then
    (.error (.conflict entity user.id.text), table)
  else (.ok (), table ++ [user])

/-- The table with the first user of the same id replaced. -/
def update (table : UserTable) (user : User) : Except StoreError Unit × UserTable :=
  if table.any fun u => u.id == user.id then
    (.ok (), replaceFirst (fun u => u.id == user.id) user table)
  else (.error (.missing entity user.id.text), table)

/-- The table without the users of the given id. -/
def delete (table : UserTable) (id : Uuid) : UserTable := table.filter fun u => u.id != id

end UserTable

namespace UserOp

/-- What a request is answered with. -/
abbrev Reply : UserOp → Type
  | create _ => Unit
  | find _ => Option User
  | findByEmail _ => Option User
  | update _ => Unit
  | delete _ => Unit
  | list => List User

/-- The answer to a request, and the table after it. -/
def step (table : UserTable) : (op : UserOp) → Except StoreError op.Reply × UserTable
  | create user => table.create user
  | find id => (.ok (table.find? id), table)
  | findByEmail email => (.ok (table.findByEmail? email), table)
  | update user => table.update user
  | delete id => (.ok (), table.delete id)
  | list => (.ok table, table)

/-- The kind of a request. -/
def action : UserOp → UserAction
  | create _ => .create
  | find _ => .find
  | findByEmail _ => .findByEmail
  | update _ => .update
  | delete _ => .delete
  | list => .list

/-- The user that a request is about. -/
def subject? : UserOp → Option Uuid
  | create user => some user.id
  | find id => some id
  | findByEmail _ => none
  | update user => some user.id
  | delete id => some id
  | list => none

instance : Storage UserOp where
  Table := UserTable
  Action := UserAction
  actionEq := inferInstance
  Reply := Reply
  step := step
  action := action
  subject? := subject?

end UserOp

end Gatehouse
