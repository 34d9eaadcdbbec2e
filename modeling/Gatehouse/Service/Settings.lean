import Gatehouse.Gate.Config
import Gatehouse.Text.Decimal

/-!
# Settings

The service is set up by named settings, each of which is text.  What is not set, or is not
text, is taken by default.  Two settings can be wrong, the routes that need no token and the
port; all others mean something whatever they say.
-/

namespace Gatehouse

open Text

/-! ## Readings -/

/-- Whether a text says yes. -/
def saysYes (s : String) : Bool :=
  ["1", "true", "yes", "on"].contains (lowerAscii (trimmed s))

/-- The text without the blanks around it, when anything is left. -/
def nonblank? (s : String) : Option String :=
  if trimmed s = "" then none else some (trimmed s)

/-- The pieces of a text between separators, without the blanks around them; empty ones are
left out. -/
def pieces (isSeparator : Char → Bool) (s : String) : List String :=
  (((s.toList.splitOnP isSeparator).map trim).filter fun piece => !piece.isEmpty).map
    String.ofList

/-- The items of a list between commas, semicolons and spaces. -/
def listItems (s : String) : List String := pieces (fun c => c == ',' || c == ';' || c == ' ') s

/-- The routes between commas and semicolons; one that is none spoils the list. -/
def bypassRoutes (s : String) : Except AuthError (List BypassRoute) :=
  (pieces (fun c => c == ',' || c == ';') s).mapM BypassRoute.ofText

/-! ## Ports -/

/-- Why a text is no port. -/
inductive PortError where
  | empty
  | invalidDigit
  | overflow
deriving DecidableEq

/-- What is told to a person. -/
def PortError.message : PortError → String
  | .empty => "cannot parse integer from empty string"
  | .invalidDigit => "invalid digit found in string"
  | .overflow => "number too large to fit in target type"

namespace Port

/-- The highest port. -/
def highest : Nat := 65535

/-- The number that digits continue; the first character that is no digit, or that makes the
number too large, settles the matter. -/
def readFrom (n : Nat) : List Char → Except PortError Nat
  | [] => .ok n
  | c :: rest =>
    if !Decimal.isDigit c then .error .invalidDigit
    else if highest < n * 10 + Decimal.value c then .error .overflow
    else readFrom (n * 10 + Decimal.value c) rest

/-- The port that a text spells, with or without a plus sign. -/
def read : List Char → Except PortError Nat
  | [] => .error .empty
  | ['+'] => .error .invalidDigit
  | '+' :: rest => readFrom 0 rest
  | cs => readFrom 0 cs

end Port

/-! ## All settings -/

/-- How the service is set up. -/
structure Settings where
  gate : GateConfig
  allowOrigins : List String
  databaseUrl : Option String
  host : String
  port : Nat

/-- Which setting is wrong, and why. -/
inductive SettingsError where
  | bypassRoutes (cause : AuthError)
  | port (value : String) (cause : PortError)
deriving DecidableEq

/-- What is told to a person: the setting first, then what is wrong with it. -/
def SettingsError.messages : SettingsError → List String
  | .bypassRoutes cause => ["Failed to parse AUTH_BYPASS_ROUTES", cause.message]
  | .port value cause => ["Invalid PORT '" ++ value ++ "'", cause.message]

namespace Settings

/-- The routes that need no token, unless others are given. -/
def defaultRoutes : String := "POST /users"

/-- The host, unless another is given. -/
def defaultHost : String := "0.0.0.0"

/-- The port, unless another is given. -/
def defaultPort : Nat := 8086

/-- The bytes that settings are given as, by name. -/
abbrev Given := List (String × List UInt8)

/-- The text of a setting. -/
def text? (given : Given) (name : String) : Option String :=
  (given.lookup name).bind Utf8.decode?

/-- A setting that says yes or no. -/
def flag (given : Given) (name : String) (default : Bool) : Bool :=
  ((text? given name).map saysYes).getD default

/-- The port that is given. -/
def portOf (given : Given) : Except SettingsError Nat :=
  match text? given "PORT" with
  | none => .ok defaultPort
  | some value =>
    match Port.read (trim value.toList) with
    | .ok port => .ok port
    | .error cause => .error (.port value cause)

/-- The settings that are given; routes are looked at before the port. -/
def ofGiven (given : Given) : Except SettingsError Settings :=
  match Gatehouse.bypassRoutes ((text? given "AUTH_BYPASS_ROUTES").getD defaultRoutes) with
  | .error cause => .error (.bypassRoutes cause)
  | .ok routes =>
    match portOf given with
    | .error e => .error e
    | .ok port => .ok {
        gate := {
          sources := ⟨flag given "AUTH_CHECK_HEADER" true, flag given "AUTH_CHECK_QUERY" false⟩
          gatewayMode := flag given "AUTH_GATEWAY_MODE" false
          bypass := routes
          queryParam :=
            ((text? given "AUTH_QUERY_PARAM").bind nonblank?).getD GateConfig.defaultQueryParam }
        allowOrigins := ((text? given "AUTH_ALLOW_ORIGINS").map listItems).getD []
        databaseUrl := (text? given "DATABASE_URL").bind nonblank?
        host := (text? given "HOST").getD defaultHost
        port := port }

end Settings

end Gatehouse
