import Gatehouse.Http.Request
import Gatehouse.Http.Response

/-!
# Other origins

Pages of a browser may use the service when they come from one of the allowed origins.  Origins
are compared exactly, so a star would allow nothing; it is refused, because it is meant to allow
everything.
-/

namespace Gatehouse

open Http

/-- The origins that are allowed; none of them is a star. -/
structure Cors where
  origins : List String
  noStar : "*" ∉ origins

namespace Cors

/-- Whether a text can be sent as an origin: it may stand in a header field. -/
def isOrigin (s : String) : Bool := (Text.Utf8.encode s).all isValueByte

/-- The allowed origins among the given ones, unless one of them is a star. -/
def ofOrigins? (given : List String) : Option Cors :=
  if h : "*" ∈ given.filter isOrigin then none else some ⟨given.filter isOrigin, h⟩

/-- The allowed origin that a request comes from. -/
def origin? (cors : Cors) (request : Request) : Option String :=
  (Header.first? request.headers "origin").bind fun value =>
    cors.origins.find? fun origin => Text.Utf8.encode origin == value

/-- A response with the origin that it is meant for. -/
def mark (cors : Cors) (request : Request) (response : Response) : Response :=
  match cors.origin? request with
  | none => response
  | some origin => response.withHeader "access-control-allow-origin" origin

/-- What is answered to the question what may be done, whatever it is asked about. -/
def preflight : Response :=
  ((Response.empty 200).withHeader "access-control-allow-methods" "GET,POST,OPTIONS").withHeader
    "access-control-allow-headers" "accept,content-type,authorization"

end Cors

end Gatehouse
