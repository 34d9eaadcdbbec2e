import Gatehouse.Http.Header
import Gatehouse.Http.Uri

/-!
# Requests

What arrives at a server: a method, an address, header fields and the bytes of a body.
-/

namespace Gatehouse.Http

/-- A request. -/
structure Request where
  method : Method
  uri : Uri
  headers : List Header
  body : List UInt8
deriving DecidableEq

namespace Request

/-- The request made of the given parts, when each of them can stand in a request. -/
def make? (method uri : String) (headers : List (String × String)) (body : List UInt8) :
    Option Request := do
  some ⟨← Method.ofText? method, ← Uri.ofText? uri,
    ← headers.mapM fun h => Header.make? h.1 h.2, body⟩

end Request

end Gatehouse.Http
