import Gatehouse.Store.Basic
import Gatehouse.Store.Registry

/-!
# Installed stores

A shelf holds every store of one kind that was ever installed, and a registry that says which of
them is in use.  A store keeps its place on the shelf when another one is put to use, so that a
receipt, or a call that is still running, can go on with it.

Three sorts of stores are installed: one that keeps its records in memory; one that fails by
rule and passes every other request on to a store installed before it; and one whose connection
pool is closed, which fails always.
-/

namespace Gatehouse

/-! ## Failing by rule -/

/-- A rule by which requests fail: which requests it concerns, how many of them it lets pass
first, and how they fail then. -/
structure FaultRule (Action : Type) where
  /-- the kind of request concerned; every kind when absent -/
  action : Option Action
  /-- the record concerned; every record when absent -/
  subject : Option Uuid
  skip : Nat
  error : StoreError
  /-- how many requests the rule has concerned so far -/
  seen : Nat

namespace FaultRule

variable {Action : Type} [DecidableEq Action]

/-- Whether a rule concerns a request. -/
def concerns (rule : FaultRule Action) (action : Action) (subject : Option Uuid) : Bool :=
  rule.action.all (fun a => a = action) &&
    (rule.subject.isNone || decide (rule.subject = subject))

/-- The failure of a request, when some rule makes it fail, and the rules after it.  Rules are
gone through in order, and none behind the failing one sees the request. -/
def trip (action : Action) (subject : Option Uuid) :
    List (FaultRule Action) → Option StoreError × List (FaultRule Action)
  | [] => (none, [])
  | rule :: rules =>
    if rule.concerns action subject then
      let counted := { rule with seen := rule.seen + 1 }
      if rule.skip ≤ rule.seen then (some rule.error, counted :: rules)
      else
        let (failure, rules) := trip action subject rules
        (failure, counted :: rules)
    else
      let (failure, rules) := trip action subject rules
      (failure, rule :: rules)

end FaultRule

/-! ## Stores and shelves -/

/-- An installed store. -/
inductive Backing (Op : Type) [Storage Op] where
  | memory (table : Storage.Table Op)
  /-- `inner` is the place of the store that requests are passed on to -/
  | faulty (rules : List (FaultRule (Storage.Action Op))) (inner : Nat)
  | closed

/-- The failure of a store whose connection pool is closed. -/
def closedPool : StoreError :=
  .backend "attempted to acquire a connection on a closed pool"

/-- The stores of one kind, by place, and the place of the one in use. -/
structure Shelf (Op : Type) [Storage Op] where
  installed : List (Backing Op)
  inUse : Slot Nat

namespace Shelf

variable {Op : Type} [Storage Op]

/-- One store, in use, that keeps its records in memory. -/
def ofTable (table : Storage.Table Op) : Shelf Op := ⟨[.memory table], ⟨0⟩⟩

/-- A request to the store at a place, and the stores after it. -/
def callAt (installed : List (Backing Op)) (place : Nat) (op : Op) :
    Storage.Result op × List (Backing Op) :=
  match installed[place]? with
  | none => (.error closedPool, installed)
  | some .closed => (.error closedPool, installed)
  | some (.memory table) =>
    let (answer, table) := Storage.step table op
    (answer, installed.set place (.memory table))
  | some (.faulty rules inner) =>
    match FaultRule.trip (Storage.action op) (Storage.subject? op) rules with
    | (some failure, rules) => (.error failure, installed.set place (.faulty rules inner))
    | (none, rules) =>
      if inner < place then callAt (installed.set place (.faulty rules inner)) inner op
      else (.error closedPool, installed)
termination_by place

/-- A request to the store at a place, and the shelf after it. -/
def call (shelf : Shelf Op) (place : Nat) (op : Op) : Storage.Result op × Shelf Op :=
  let (answer, installed) := callAt shelf.installed place op
  (answer, { shelf with installed := installed })

/-- Installs a store and puts it to use. -/
def replace (shelf : Shelf Op) (backing : Backing Op) : Shelf Op × Receipt Nat :=
  let (inUse, receipt) := shelf.inUse.replace shelf.installed.length
  (⟨shelf.installed ++ [backing], inUse⟩, receipt)

/-- Puts the store back to use that was in use before a swap. -/
def restore (shelf : Shelf Op) (receipt : Receipt Nat) : Shelf Op :=
  { shelf with inUse := shelf.inUse.restore receipt }

end Shelf

end Gatehouse
