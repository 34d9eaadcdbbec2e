/-!
# Refusals

Why a request is not let in, or not let through to what it asks for.  A refusal that concerns
the caller's identity is told apart from one that concerns their rights, and both from a fault
of the deployment itself.
-/

namespace Gatehouse

/-- Why a request is refused. -/
inductive AuthError where
  | noTokenSource
  | invalidBypassRoute (value : String)
  | signing (reason : String)
  | missingToken
  | invalidToken
  | expiredToken
  | invalidSubject
  | principalUnavailable
  | unauthenticated
  | forbidden (required : String)
deriving DecidableEq

namespace AuthError

/-- What is told to a person. -/
def message : AuthError → String
  | noTokenSource => "at least one token source (header or query) must be enabled"
  | invalidBypassRoute value =>
    "invalid bypass route '" ++ value ++ "', expected 'METHOD /path'"
  | signing reason => "failed to sign session token: " ++ reason
  | missingToken => "session token missing"
  | invalidToken => "session token invalid"
  | expiredToken => "session token expired or not yet valid"
  | invalidSubject => "session token subject malformed"
  | principalUnavailable => "principal could not be resolved"
  | unauthenticated => "request is not authenticated"
  | forbidden required => "missing permission '" ++ required ++ "'"

/-- Whether the refusal concerns who the caller is. -/
def isAuthentication : AuthError → Bool
  | missingToken => true
  | invalidToken => true
  | expiredToken => true
  | invalidSubject => true
  | principalUnavailable => true
  | unauthenticated => true
  | _ => false

end AuthError

end Gatehouse
