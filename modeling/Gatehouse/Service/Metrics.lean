import Gatehouse.Http.Response
import Gatehouse.Text.Decimal

/-!
# Counters

How many accounts were opened, and what came of the requests at the gate.  The counters are
shown in the text format of their collectors: families by name, and the series of a family by
label; a family without series is left out.
-/

namespace Gatehouse

/-- The counters; series by outcome, in the order of the names and each name once. -/
structure Metrics where
  accountsCreated : Nat
  requests : List (String × Nat)
deriving DecidableEq

namespace Metrics

/-- The outcomes that requests are counted by. -/
def outcomes : List String := ["authenticated", "bypassed", "rejected"]

/-- Counters before anything was counted. -/
def zero : Metrics := ⟨0, []⟩

/-! ## Counting -/

/-- Adds to the series of an outcome, which is begun where there is none yet. -/
def add (outcome : String) (k : Nat) : List (String × Nat) → List (String × Nat)
  | [] => [(outcome, k)]
  | (name, n) :: rest =>
    if name = outcome then (name, n + k) :: rest
    else if outcome < name then (outcome, k) :: (name, n) :: rest
    else (name, n) :: add outcome k rest

/-- How many requests had an outcome. -/
def count (metrics : Metrics) (outcome : String) : Nat :=
  (metrics.requests.lookup outcome).getD 0

/-- Counts a request that had an outcome. -/
def requestSeen (metrics : Metrics) (outcome : String) : Metrics :=
  { metrics with requests := add outcome 1 metrics.requests }

/-- Begins the series of an outcome, as asking for it does. -/
def requestAsked (metrics : Metrics) (outcome : String) : Metrics :=
  { metrics with requests := add outcome 0 metrics.requests }

/-- Counts an account that was opened. -/
def accountCreated (metrics : Metrics) : Metrics :=
  { metrics with accountsCreated := metrics.accountsCreated + 1 }

/-! ## Showing -/

/-- A label's value between quotation marks. -/
def escape (c : Char) : List Char :=
  if c = '\\' ∨ c = '"' then ['\\', c] else if c = '\n' then ['\\', 'n'] else [c]

/-- The two lines before the series of a family. -/
def familyHead (name help : String) : String :=
  "# HELP " ++ name ++ " " ++ help ++ "\n# TYPE " ++ name ++ " counter\n"

/-- One series. -/
def sample (series : String) (n : Nat) : String :=
  series ++ " " ++ String.ofList (Text.Decimal.natural n) ++ "\n"

/-- The name of the family that counts accounts. -/
def accountsName : String := "auth_accounts_created_total"

/-- The name of the family that counts requests. -/
def requestsName : String := "auth_requests_total"

/-- The series of an outcome. -/
def seriesName (outcome : String) : String :=
  requestsName ++ "\x7boutcome=\"" ++ String.ofList (outcome.toList.flatMap escape) ++ "\"\x7d"

/-- The counters as text. -/
def render (metrics : Metrics) : String :=
  familyHead accountsName "Count of accounts created through the open signup route" ++
    sample accountsName metrics.accountsCreated ++
    (if metrics.requests.isEmpty then "" else
      familyHead requestsName "Count of authenticated requests grouped by middleware outcome") ++
    String.join (metrics.requests.map fun series => sample (seriesName series.1) series.2)

/-- The counters as a response. -/
def response (metrics : Metrics) : Http.Response :=
  .typed 200 "text/plain; version=0.0.4" metrics.render

end Metrics

end Gatehouse
