import Gatehouse.Http.Name
import Gatehouse.Session.Source
import Gatehouse.Text.Blank

/-!
# What the gate is told

Where tokens are looked for, which requests pass without one, and by which name a query carries
one.  In gateway mode somebody in front of the gate has checked the caller already, and every
request passes.
-/

namespace Gatehouse

open Http Text

/-! ## Routes without a token -/

/-- A method and a path; requests for them need no token. -/
structure BypassRoute where
  method : Method
  path : String
deriving DecidableEq

namespace BypassRoute

/-- Whether a request is for this route; methods and paths are compared exactly. -/
def covers (route : BypassRoute) (method : Method) (path : String) : Bool :=
  route.method == method && route.path == path

/-- The route that two words spell: a method in any letter case, and a path that begins with a
slash. -/
def ofWords? : List (List Char) → Option BypassRoute
  | [method, '/' :: rest] =>
    (Method.ofText? (upperAscii (String.ofList method))).map fun method =>
      ⟨method, String.ofList ('/' :: rest)⟩
  | _ => none

/-- The route that a text spells. -/
def ofText (s : String) : Except AuthError BypassRoute :=
  match ofWords? (words s.toList) with
  | some route => .ok route
  | none => .error (.invalidBypassRoute s)

end BypassRoute

/-! ## Settings of the gate -/

/-- What the gate is told. -/
structure GateConfig where
  sources : TokenSources
  gatewayMode : Bool
  bypass : List BypassRoute
  queryParam : String

namespace GateConfig

/-- The name by which a query carries a token, unless another is given. -/
def defaultQueryParam : String := "token"

/-- The routes that need no token, unless others are given: accounts can be opened by anybody. -/
def defaultBypass : List BypassRoute := [⟨.post, "/users"⟩]

/-- The settings for given sources, all else by default. -/
def ofSources (sources : TokenSources) : GateConfig :=
  ⟨sources, false, defaultBypass, defaultQueryParam⟩

/-- Whether requests for a method and a path need no token. -/
def isBypassed (config : GateConfig) (method : Method) (path : String) : Bool :=
  config.gatewayMode || config.bypass.any fun route => route.covers method path

end GateConfig

end Gatehouse
