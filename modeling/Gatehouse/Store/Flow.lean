import Gatehouse.Store.Permissions
import Gatehouse.Store.Roles
import Gatehouse.Store.Shelf
import Gatehouse.Store.Users

/-!
# Flows

Whatever takes more than one request to the stores is written as a flow: a tree whose nodes are
single indivisible steps and whose branches are what becomes of the flow with each answer.  A
step either asks a registry which store is in use or puts one request to a store found that way.

A flow says nothing about who answers.  `Flow.run` takes any way of answering: the stores of a
deployment (`Stores.answer`), stores that fail on a schedule, or an answerer that changes its
mind from call to call.  Flows that run side by side are interleaved step by step.
-/

namespace Gatehouse

/-! ## Steps -/

/-- One indivisible step.  The stores are named by their place on the shelf. -/
inductive Call where
  | usersInUse
  | rolesInUse
  | permissionsInUse
  | users (place : Nat) (op : UserOp)
  | roles (place : Nat) (op : RoleOp)
  | permissions (place : Nat) (op : PermissionOp)

/-- What a step is answered with. -/
abbrev Call.Answer : Call → Type
  | usersInUse => Nat
  | rolesInUse => Nat
  | permissionsInUse => Nat
  | users _ op => Except StoreError op.Reply
  | roles _ op => Except StoreError op.Reply
  | permissions _ op => Except StoreError op.Reply

/-! ## Flows -/

/-- A computation that takes steps one at a time. -/
inductive Flow (α : Type) where
  | done (a : α)
  | call (c : Call) (next : c.Answer → Flow α)

namespace Flow

variable {α β : Type}

/-- One flow after another. -/
def bind : Flow α → (α → Flow β) → Flow β
  | done a, f => f a
  | call c next, f => call c fun answer => bind (next answer) f

instance : Monad Flow where
  pure := done
  bind := bind

/-- A single step. -/
def ofCall (c : Call) : Flow c.Answer := call c done

/-- The place of the user store in use. -/
def usersInUse : Flow Nat := ofCall .usersInUse

/-- The place of the role store in use. -/
def rolesInUse : Flow Nat := ofCall .rolesInUse

/-- The place of the permission store in use. -/
def permissionsInUse : Flow Nat := ofCall .permissionsInUse

/-- A request to the user store at a place. -/
def users (place : Nat) (op : UserOp) : Flow (Except StoreError op.Reply) :=
  ofCall (.users place op)

/-- A request to the role store at a place. -/
def roles (place : Nat) (op : RoleOp) : Flow (Except StoreError op.Reply) :=
  ofCall (.roles place op)

/-- A request to the permission store at a place. -/
def permissions (place : Nat) (op : PermissionOp) : Flow (Except StoreError op.Reply) :=
  ofCall (.permissions place op)

/-- The result of a flow when each step is answered from a state, and the state after it. -/
def run {σ : Type} (answer : (c : Call) → σ → c.Answer × σ) : Flow α → σ → α × σ
  | done a, s => (a, s)
  | call c next, s => run answer (next (answer c s).1) (answer c s).2

@[simp] theorem run_done {σ : Type} (answer : (c : Call) → σ → c.Answer × σ) (a : α) (s : σ) :
    (done a).run answer s = (a, s) := rfl

@[simp] theorem run_pure {σ : Type} (answer : (c : Call) → σ → c.Answer × σ) (a : α) (s : σ) :
    (pure a : Flow α).run answer s = (a, s) := rfl

/-- Flows run one after the other, the second from the state the first leaves. -/
@[simp] theorem run_bind {σ : Type} (answer : (c : Call) → σ → c.Answer × σ) (m : Flow α)
    (f : α → Flow β) (s : σ) :
    (m >>= f).run answer s = (f (m.run answer s).1).run answer (m.run answer s).2 := by
  show (m.bind f).run answer s = _
  induction m generalizing s with
  | done a => rfl
  | call c next ih => exact ih _ _

end Flow

/-! ## The stores of a deployment -/

/-- The three shelves of a deployment. -/
structure Stores where
  users : Shelf UserOp
  roles : Shelf RoleOp
  permissions : Shelf PermissionOp

namespace Stores

/-- Stores that keep the given records in memory. -/
def ofTables (users : UserTable) (roles : RoleTable) (permissions : PermissionTable) : Stores :=
  ⟨.ofTable users, .ofTable roles, .ofTable permissions⟩

/-- Stores without records. -/
def empty : Stores := ofTables [] RoleTable.empty PermissionTable.empty

/-- The answer to a step, and the stores after it. -/
def answer : (c : Call) → Stores → c.Answer × Stores
  | .usersInUse, s => (s.users.inUse.current, s)
  | .rolesInUse, s => (s.roles.inUse.current, s)
  | .permissionsInUse, s => (s.permissions.inUse.current, s)
  | .users place op, s => let (r, shelf) := s.users.call place op; (r, { s with users := shelf })
  | .roles place op, s => let (r, shelf) := s.roles.call place op; (r, { s with roles := shelf })
  | .permissions place op, s =>
    let (r, shelf) := s.permissions.call place op; (r, { s with permissions := shelf })

end Stores

/-! ## Swapping stores -/

/-- The kinds of stores. -/
inductive StoreKind where
  | users
  | roles
  | permissions
deriving DecidableEq

/-- The word by which a failure made to order says what kind of record it concerns.  The three
kinds that are kept have words of their own, and a record of any other kind is a row. -/
def FaultRule.entity (word : String) : String :=
  if word ∈ [UserTable.entity, RoleTable.entity, PermissionTable.entity] then word else "row"

namespace Stores

/-- Puts another user store to use. -/
def replaceUsers (s : Stores) (backing : Backing UserOp) : Stores × Receipt Nat :=
  let (shelf, receipt) := s.users.replace backing; ({ s with users := shelf }, receipt)

/-- Puts another role store to use. -/
def replaceRoles (s : Stores) (backing : Backing RoleOp) : Stores × Receipt Nat :=
  let (shelf, receipt) := s.roles.replace backing; ({ s with roles := shelf }, receipt)

/-- Puts another permission store to use. -/
def replacePermissions (s : Stores) (backing : Backing PermissionOp) : Stores × Receipt Nat :=
  let (shelf, receipt) := s.permissions.replace backing; ({ s with permissions := shelf }, receipt)

/-- Undoes the swap of a store that a receipt was left by. -/
def restore (s : Stores) (kind : StoreKind) (receipt : Receipt Nat) : Stores :=
  match kind with
  | .users => { s with users := s.users.restore receipt }
  | .roles => { s with roles := s.roles.restore receipt }
  | .permissions => { s with permissions := s.permissions.restore receipt }

end Stores

end Gatehouse
