import Gatehouse.Session.Token

/-!
# Where tokens come from

A deployment says in which places of a request a token may stand, and keeps one secret under
which it issues and accepts tokens.  One that looks for tokens nowhere could let nobody in, so
there is no token service for it.
-/

namespace Gatehouse

/-! ## Places of a request -/

/-- The places of a request in which a token may stand. -/
structure TokenSources where
  header : Bool
  query : Bool
deriving DecidableEq

namespace TokenSources

/-- Nowhere. -/
def nowhere : TokenSources := ⟨false, false⟩

/-- In a header only. -/
def headerOnly : TokenSources := ⟨true, false⟩

/-- In the query only. -/
def queryOnly : TokenSources := ⟨false, true⟩

/-- In a header or in the query. -/
def both : TokenSources := ⟨true, true⟩

instance : Inhabited TokenSources := ⟨nowhere⟩

/-- Whether there is no such place. -/
def isEmpty (sources : TokenSources) : Bool := !sources.header && !sources.query

end TokenSources

/-! ## The token service -/

/-- What issues tokens and accepts them again. -/
structure TokenService where
  sources : TokenSources
  secret : String
  nonempty : sources.isEmpty = false

namespace TokenService

/-- The service for given sources and a given secret. -/
def make (sources : TokenSources) (secret : String) : Except AuthError TokenService :=
  if h : sources.isEmpty = false then .ok ⟨sources, secret, h⟩ else .error .noTokenSource

/-- The token of a session that a user begins at a moment. -/
def issue (service : TokenService) (user : Uuid) (m : Session.Moment) : String :=
  Token.issue service.secret user m

/-- The claims of a token that is accepted at a second. -/
def validate (service : TokenService) (now : Int) (token : String) : Except AuthError Claims :=
  Token.validate service.secret now token

end TokenService

end Gatehouse
