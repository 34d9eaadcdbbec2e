import Gatehouse.Access.Admin
import Gatehouse.Access.Form
import Gatehouse.Access.Resolve
import Gatehouse.Gate.Authenticate
import Gatehouse.Gate.Require
import Gatehouse.Proofs.Admission
import Gatehouse.Proofs.ConcurrentGrants
import Gatehouse.Proofs.Globs
import Gatehouse.Proofs.History
import Gatehouse.Service.Server
import Gatehouse.Service.Settings
import Gatehouse.Session.Source
import Gatehouse.Store.Flow
import Gatehouse.Text.Pattern
import Gatehouse.Proofs.Patterns
import Gatehouse.Proofs.Coverage
import Gatehouse.Proofs.Escalation
import Gatehouse.Proofs.Forms
import Gatehouse.Proofs.Tokens
import Gatehouse.Proofs.HeaderValues
import Gatehouse.Proofs.TokenSources
import Gatehouse.Proofs.SignUpTokens
import Gatehouse.Proofs.LookUps
import Gatehouse.Proofs.UserKeys
import Gatehouse.Proofs.Leftovers
import Gatehouse.Proofs.Decisions
import Gatehouse.Proofs.Accounts
import Gatehouse.Proofs.SignUpRace
import Gatehouse.Proofs.Refusals
import Gatehouse.Proofs.Discretion
import Gatehouse.Proofs.StepsTaken
import Gatehouse.Proofs.ValidRights
import Gatehouse.Proofs.Counters
import Gatehouse.Proofs.ReadBack
import Gatehouse.Proofs.Reach
import Gatehouse.Proofs.StoreSwaps
import Gatehouse.Proofs.RoleLoading
import Gatehouse.Proofs.Swaps
import Gatehouse.Proofs.Pieces
import Gatehouse.Proofs.RouteLists
import Gatehouse.Proofs.Origins
