import Gatehouse.Http.Name
import Gatehouse.Text.Percent
import Gatehouse.Uuid

/-!
# What is served

Every path of the service names a resource.  Paths are compared exactly as they are sent; only
the id of a role inside a path may be spelled with escapes.  Whatever stands in its place, be it
nothing, the path names the permissions of a role; whether there is such a role is asked later.
Two resources are open to anybody, the others stand behind the gate.
-/

namespace Gatehouse

open Http

/-- What a path names. -/
inductive Resource where
  | health
  | metrics
  | users
  | me
  | roles
  /-- the permissions of a role, which is named by a segment of the path -/
  | permissionsOf (segment : String)
deriving DecidableEq

namespace Resource

/-- What a path names, when it names something. -/
def ofPath? (path : String) : Option Resource :=
  if path = "/healthz" then some health
  else if path = "/metrics" then some metrics
  else if path = "/users" then some users
  else if path = "/me" then some me
  else if path = "/roles" then some roles
  else match path.toList.splitOn '/' with
    | [[], ['r', 'o', 'l', 'e', 's'], segment, last] =>
      if last = "permissions".toList then some (permissionsOf (String.ofList segment)) else none
    | _ => none

/-- The role that a segment of a path names. -/
def roleId? (segment : String) : Option Uuid :=
  (Text.Utf8.decode? (Text.Percent.decode (Text.Utf8.encode segment))).bind Uuid.ofText?

/-- Whether a resource can be read. -/
def isReadable : Resource → Bool
  | health => true
  | metrics => true
  | me => true
  | roles => true
  | users => false
  | permissionsOf _ => false

/-- Whether something can be added to a resource. -/
def isExtensible : Resource → Bool
  | users => true
  | roles => true
  | permissionsOf _ => true
  | _ => false

/-- The methods that a resource is served by, as they are told to a caller who used another. -/
def methods (r : Resource) : String :=
  (if r.isReadable then "GET,HEAD" else "") ++
    (if r.isReadable && r.isExtensible then "," else "") ++
    (if r.isExtensible then "POST" else "")

/-- What a method does to a resource that is served by it. -/
inductive Act where
  | read
  | extend
deriving DecidableEq

/-- What a method does to a resource, when the resource is served by it. -/
def act? (r : Resource) (method : Method) : Option Act :=
  if method = .get ∨ method = .head then (if r.isReadable then some .read else none)
  else if method = .post then (if r.isExtensible then some .extend else none)
  else none

end Resource

end Gatehouse
