import Gatehouse.Access.Admin
import Gatehouse.Gate.Authenticate

/-!
# Failures of the service

What a request can fail with once it is being served.  Failures of the storage itself are kept
from callers: all of them are sent as one response, whatever their reason.
-/

namespace Gatehouse

open Http

/-- Why a request that was let in fails. -/
inductive ServiceError where
  | invalidInput (reason : String)
  | validation (v : Violation)
  | auth (e : AuthError)
  | conflict (reason : String)
  | notFound (reason : String)
  | internal (reason : String)
deriving DecidableEq

namespace ServiceError

/-- What is told to an operator. -/
def message : ServiceError → String
  | invalidInput reason => reason
  | validation v => v.message
  | auth e => e.message
  | conflict reason => reason
  | notFound reason => reason
  | internal reason => reason

/-- A store's failure as a failure of the service. -/
def ofStore (e : StoreError) : ServiceError :=
  match e with
  | .conflict _ _ => .conflict e.message
  | .missing _ _ => .notFound e.message
  | .backend _ => .internal e.message

/-- An administrative failure as a failure of the service. -/
def ofAdmin : AdminError → ServiceError
  | .validation v => .validation v
  | .store e => ofStore e

/-- The response that a failure is sent as. -/
def response : ServiceError → Response
  | invalidInput reason => .problem 400 "INVALID_INPUT" reason
  | validation v => .problem 400 v.code v.message
  | auth e => e.response
  | conflict reason => .problem 409 "CONFLICT" reason
  | notFound reason => .problem 404 "NOT_FOUND" reason
  | internal _ => .problem 500 "SERVER_ERROR" "internal error"

end ServiceError

end Gatehouse
