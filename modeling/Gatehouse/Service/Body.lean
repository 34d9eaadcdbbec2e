import Gatehouse.Access.Form
import Gatehouse.Http.MediaType
import Gatehouse.Http.Request
import Gatehouse.Http.Response

/-!
# Bodies of requests

A body is JSON and has to be announced as such.  Only the first value in it is read; what
follows that value is passed over.  The three ways in which a body can be wrong have a status
each: it is not announced as JSON, it is not JSON, or it is not what was asked for.
-/

namespace Gatehouse

open Http

/-! ## What is wrong with a body -/

/-- Why the body of a request cannot be used. -/
inductive BodyError where
  | notAnnounced
  | tooLarge
  | malformed
  | unfit (path : List PathStep) (misfit : Misfit)
deriving DecidableEq

namespace BodyError

/-- One step of a path as text, the first or a later one. -/
def stepText (first : Bool) : PathStep → String
  | .member name => if first then name else "." ++ name
  | .item index => "[" ++ String.ofList (Text.Decimal.natural index) ++ "]"

/-- A path as text. -/
def pathText : List PathStep → String
  | [] => ""
  | step :: rest => stepText true step ++ String.join (rest.map (stepText false))

/-- What is wrong with a value. -/
def misfitText : Misfit → String
  | .missingField name => "missing field `" ++ name ++ "`"
  | .duplicateField name => "duplicate field `" ++ name ++ "`"
  | .invalidType => "invalid type"
  | .invalidLength => "invalid length"

/-- What is told to a person. -/
def message : BodyError → String
  | notAnnounced => "Expected request with `Content-Type: application/json`"
  | tooLarge => "Failed to buffer the request body: length limit exceeded"
  | malformed => "Failed to parse the request body as JSON"
  | unfit path misfit =>
    "Failed to deserialize the JSON body into the target type: " ++
      (if path.isEmpty then "" else pathText path ++ ": ") ++ misfitText misfit

/-- The status of the refusal. -/
def status : BodyError → Nat
  | notAnnounced => 415
  | tooLarge => 413
  | malformed => 400
  | unfit _ _ => 422

/-- The response that a refusal is sent as. -/
def response (e : BodyError) : Response := .text e.status e.message

end BodyError

/-! ## Reading -/

/-- How many bytes a body may have. -/
def maxBody : Nat := 2097152

/-- The value of the given form that the body of a request holds. -/
def Form.ofBody {α : Type} (form : Form α) (request : Request) : Except BodyError α :=
  if !announcesJson request.headers then .error .notAnnounced
  else if maxBody < request.body.length then .error .tooLarge
  else match form.shape (Document.read request.body).1 with
    | .error .malformed => .error .malformed
    | .error (.unfit path misfit) => .error (.unfit path misfit)
    | .ok j =>
      match form.build? j with
      | some a => .ok a
      | none => .error .malformed

end Gatehouse
