import Gatehouse.Access.Principal
import Gatehouse.Json.Printer
import Gatehouse.Json.Shape
import Gatehouse.Time.Rfc3339

/-!
# Rights as JSON

How scopes, permissions, roles, users and principals are written as JSON and read back.  A
`Form` holds the three parts of that: the value written, the shape a document must have, and
what a value of that shape means.  Identifiers and times are texts; a description may be left
out and is then empty.
-/

namespace Gatehouse

/-- How values of a type are written as JSON and read back. -/
structure Form (α : Type) where
  write : α → Json
  shape : Shape
  build? : Json → Option α

namespace Form

/-- The value that a document holds. -/
def ofDocument? {α : Type} (form : Form α) (document : Document) : Option α :=
  match form.shape document with
  | .ok j => form.build? j
  | .error _ => none

/-- The value that bytes hold, when nothing but blanks stands around it. -/
def parse? {α : Type} (form : Form α) (bytes : List UInt8) : Option α :=
  form.ofDocument? (Document.readWhole? bytes)

/-- A list of values of one form. -/
def list {α : Type} (form : Form α) : Form (List α) where
  write vs := .array (vs.map form.write)
  shape := .list form.shape
  build?
    | .array js => js.mapM form.build?
    | _ => none

end Form

/-- An identifier. -/
def Uuid.toJson (u : Uuid) : Json := .text u.text

/-- An instant. -/
def Time.Instant.toJson (t : Time.Instant) : Json := .text t.text

namespace Scope

/-- A scope is its text. -/
def form : Form Scope where
  write scope := .text scope.text
  shape := .choice [admin.text, all.text]
  build?
    | .text s => (ofText s).toOption
    | _ => none

end Scope

namespace Permission

/-- The members of a permission. -/
def form : Form Permission where
  write p := .object [("id", p.id.toJson), ("value", .text p.value), ("scope", .text p.scope),
    ("description", .text p.description)]
  shape := .record [.required "id" .text, .required "value" .text, .required "scope" .text,
    .optional "description" .text (.text "")]
  build?
    | .object [(_, .text id), (_, .text value), (_, .text scope), (_, .text description)] =>
      (Uuid.ofText? id).map fun id => ⟨id, value, scope, description⟩
    | _ => none

end Permission

namespace Role

/-- The members of a role. -/
def form : Form Role where
  write r := .object [("id", r.id.toJson), ("name", .text r.name),
    ("description", .text r.description), ("created_at", r.createdAt.toJson),
    ("updated_at", r.updatedAt.toJson)]
  shape := .record [.required "id" .text, .required "name" .text,
    .optional "description" .text (.text ""), .required "created_at" .text,
    .required "updated_at" .text]
  build?
    | .object [(_, .text id), (_, .text name), (_, .text description), (_, .text created),
        (_, .text updated)] => do
      some ⟨← Uuid.ofText? id, name, description, ← Time.Instant.ofText? created,
        ← Time.Instant.ofText? updated⟩
    | _ => none

end Role

namespace User

/-- The members of a user. -/
def form : Form User where
  write u := .object [("id", u.id.toJson), ("email", .text u.email),
    ("first_name", .text u.firstName), ("last_name", .text u.lastName),
    ("created_at", u.createdAt.toJson), ("updated_at", u.updatedAt.toJson)]
  shape := .record [.required "id" .text, .required "email" .text, .required "first_name" .text,
    .required "last_name" .text, .required "created_at" .text, .required "updated_at" .text]
  build?
    | .object [(_, .text id), (_, .text email), (_, .text first), (_, .text last),
        (_, .text created), (_, .text updated)] => do
      some ⟨← Uuid.ofText? id, email, first, last, ← Time.Instant.ofText? created,
        ← Time.Instant.ofText? updated⟩
    | _ => none

end User

namespace HeldRole

/-- The members of a held role. -/
def form : Form HeldRole where
  write h := .object [("role", Role.form.write h.role),
    ("permissions", Permission.form.list.write h.permissions)]
  shape := .record [.required "role" Role.form.shape,
    .required "permissions" Permission.form.list.shape]
  build?
    | .object [(_, role), (_, permissions)] => do
      some ⟨← Role.form.build? role, ← Permission.form.list.build? permissions⟩
    | _ => none

end HeldRole

namespace Principal

/-- The members of a principal. -/
def form : Form Principal where
  write p := .object [("user", User.form.write p.user), ("roles", HeldRole.form.list.write p.roles)]
  shape := .record [.required "user" User.form.shape, .required "roles" HeldRole.form.list.shape]
  build?
    | .object [(_, user), (_, roles)] => do
      some ⟨← User.form.build? user, ← HeldRole.form.list.build? roles⟩
    | _ => none

end Principal

end Gatehouse
