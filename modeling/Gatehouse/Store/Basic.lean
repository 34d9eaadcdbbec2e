import Gatehouse.Uuid

/-!
# Stores

A store answers requests about one kind of record.  What the requests are, what they are
answered with and what they do to the records is given by an instance of `Storage`; every
request either fails with a `StoreError` or is answered, and its effect is one indivisible step.
-/

namespace Gatehouse

/-! ## Failures -/

/-- Why a request to a store failed. -/
inductive StoreError where
  /-- the storage itself failed -/
  | backend (reason : String)
  /-- the record is there already -/
  | conflict (entity id : String)
  /-- the record is not there -/
  | missing (entity id : String)
deriving DecidableEq

namespace StoreError

/-- What is told to a person. -/
def message : StoreError → String
  | backend reason => "storage backend failure: " ++ reason
  | conflict entity id => entity ++ " '" ++ id ++ "' already exists"
  | missing entity id => entity ++ " '" ++ id ++ "' does not exist"

end StoreError

/-! ## Requests -/

/-- A kind of store, given by its requests. -/
class Storage (Op : Type) where
  /-- the records kept -/
  Table : Type
  /-- what kinds of requests there are -/
  Action : Type
  /-- kinds of requests can be told apart -/
  actionEq : DecidableEq Action
  /-- what a request is answered with -/
  Reply : Op → Type
  /-- the answer to a request, and the records after it -/
  step : Table → (op : Op) → Except StoreError (Reply op) × Table
  /-- the kind of a request -/
  action : Op → Action
  /-- the record that a request is about, when it is about one -/
  subject? : Op → Option Uuid

attribute [reducible, instance] Storage.actionEq

/-- What a request comes to. -/
abbrev Storage.Result {Op : Type} [Storage Op] (op : Op) : Type :=
  Except StoreError (Storage.Reply op)

/-! ## Lists of records -/

/-- The list with its first member that has a property replaced. -/
def replaceFirst {α : Type} (p : α → Bool) (x : α) : List α → List α
  | [] => []
  | y :: ys => if p y then x :: ys else y :: replaceFirst p x ys

end Gatehouse
