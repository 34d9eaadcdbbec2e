import Gatehouse.Access.Resolve
import Gatehouse.Gate.Config
import Gatehouse.Http.Request
import Gatehouse.Http.Response
import Gatehouse.Text.Percent

/-!
# The gate

Every request passes the gate before it is served.  A bypassed one is let in as nobody's; any
other needs a token that is accepted at present and whose user can be resolved.  A caller is
never told which of this failed: every refusal on account of who they are looks the same.
-/

namespace Gatehouse

open Http

/-! ## Finding the token -/

/-- The word that may stand before a token in a header. -/
def bearer : List Char := ['B', 'e', 'a', 'r', 'e', 'r']

/-- A text without the bearer word, where that is all there is or a blank follows it. -/
def afterBearer (cs : List Char) : List Char :=
  let rest := cs.drop bearer.length
  if bearer.isPrefixOf cs && rest.head?.all Text.isBlank then rest else cs

/-- The token in the value of a header field; a blank value holds none. -/
def tokenInHeader (value : List UInt8) : Except AuthError (Option String) :=
  match plainText? value with
  | none => .error .invalidToken
  | some cs =>
    match Text.trim (afterBearer (Text.trimStart cs)) with
    | [] => .ok none
    | c :: rest => .ok (some (String.ofList (c :: rest)))

/-- The token in the header fields: only the first field of the name is looked at. -/
def headerToken (headers : List Header) : Except AuthError (Option String) :=
  match Header.first? headers "authorization" with
  | none => .ok none
  | some value => tokenInHeader value

/-- The token in a query: of several fields of the name the last counts, and a blank one holds
none. -/
def queryToken? (query name : String) : Option String :=
  match (Text.Percent.formFields (Text.Utf8.encode query)).reverse.lookup name with
  | none => none
  | some value =>
    match Text.trim value.toList with
    | [] => none
    | c :: rest => some (String.ofList (c :: rest))

/-- The token of a request: the header's where it may stand there and does, else the query's. -/
def requestToken (config : GateConfig) (request : Request) : Except AuthError String :=
  let inHeader := if config.sources.header then headerToken request.headers else .ok none
  match inHeader with
  | .error e => .error e
  | .ok (some token) => .ok token
  | .ok none =>
    let inQuery :=
      if config.sources.query then queryToken? request.uri.query config.queryParam else none
    match inQuery with
    | some token => .ok token
    | none => .error .missingToken

/-! ## Refusing -/

namespace AuthError

/-- The status of a refusal. -/
def status (e : AuthError) : Nat :=
  if e.isAuthentication then 401
  else match e with
    | forbidden _ => 403
    | _ => 500

/-- The response that a refusal is sent as. -/
def response (e : AuthError) : Response :=
  if e.isAuthentication then .problem e.status "UNAUTHORIZED" "unauthorized"
  else match e with
    | forbidden _ => .problem e.status "FORBIDDEN" e.message
    | _ => .problem e.status "AUTH_INTERNAL" "internal error"

end AuthError

/-! ## Letting requests in -/

/-- How a request was let in. -/
inductive Outcome where
  /-- without asking who sent it -/
  | bypassed
  | authenticated (principal : Principal)

namespace Outcome

/-- The name of an outcome. -/
def label : Outcome → String
  | bypassed => "bypassed"
  | authenticated _ => "authenticated"

/-- The principal that the request is served for. -/
def principal? : Outcome → Option Principal
  | bypassed => none
  | authenticated p => some p

end Outcome

/-- A gate: it is told where to look for tokens, and has the means to check them. -/
structure Gate where
  config : GateConfig
  tokens : TokenService
  nonempty : config.sources.isEmpty = false

namespace Gate

/-- The gate with given settings. -/
def make (config : GateConfig) (tokens : TokenService) : Except AuthError Gate :=
  if h : config.sources.isEmpty = false then .ok ⟨config, tokens, h⟩ else .error .noTokenSource

/-- The user whose valid token a request carries at a second. -/
def caller (gate : Gate) (now : Int) (request : Request) : Except AuthError Uuid :=
  match requestToken gate.config request with
  | .error e => .error e
  | .ok token =>
    match gate.tokens.validate now token with
    | .error e => .error e
    | .ok claims => claims.user

/-- Decides whether a request is let in at a second. -/
def authenticate (gate : Gate) (now : Int) (request : Request) :
    Flow (Except AuthError Outcome) :=
  if gate.config.isBypassed request.method request.uri.path then pure (.ok .bypassed)
  else match gate.caller now request with
    | .error e => pure (.error e)
    | .ok user => do
      match ← Resolve.principal user with
      | .error _ => pure (.error .principalUnavailable)
      | .ok principal => pure (.ok (.authenticated principal))

/-- What came of a request at a second, and the response to it: that of the server behind the
gate where the request is let in, which is told the principal, and else the refusal. -/
def pass (gate : Gate) (now : Int) (request : Request) {Reply : Type}
    (serve : Option Principal → Flow Reply) (refuse : AuthError → Reply) :
    Flow (Except AuthError Outcome × Reply) := do
  match ← gate.authenticate now request with
  | .error e => pure (.error e, refuse e)
  | .ok outcome => return (.ok outcome, ← serve outcome.principal?)

end Gate

end Gatehouse
