import Gatehouse.Json.Printer

/-!
# Responses

What a server sends back: a status, header fields and a body of text.
-/

namespace Gatehouse.Http

/-- A response; the names of its fields are in small letters. -/
structure Response where
  status : Nat
  headers : List (String × String)
  body : String
deriving DecidableEq

namespace Response

/-- The name of the field that says what sort of content the body is. -/
def contentType : String := "content-type"

/-- A response without content. -/
def empty (status : Nat) : Response := ⟨status, [], ""⟩

/-- A text of the given type. -/
def typed (status : Nat) (type body : String) : Response := ⟨status, [(contentType, type)], body⟩

/-- A plain text. -/
def text (status : Nat) (body : String) : Response :=
  typed status "text/plain; charset=utf-8" body

/-- A JSON value. -/
def json (status : Nat) (j : Json) : Response := typed status "application/json" j.render

/-- The response without its body; what is said about the body stays. -/
def withoutBody (r : Response) : Response := { r with body := "" }

/-- The response with one more header field. -/
def withHeader (r : Response) (name value : String) : Response :=
  { r with headers := r.headers ++ [(name, value)] }

/-- A refusal that names its cause for programs and for people. -/
def problem (status : Nat) (code message : String) : Response :=
  json status (.object [("code", .text code), ("message", .text message)])

end Response

end Gatehouse.Http
