import Gatehouse.Access.Admin
import Gatehouse.Access.Resolve
import Mathlib.Tactic.Lemma

/-!
# Records kept in memory

A deployment whose stores keep their records in memory has one store of each kind, and no
operation on records changes that.  Its whole state is therefore three tables, and
`Tables.answer` says what a step does to them without shelves, places and swaps.
`Flow.run_stores` is the bridge: a flow that runs on the stores does what it does on the tables.

The last section weakens the premise.  `MayFail` describes a way of answering under which any
request to a store may fail before it reaches the store; `failing` is the one that follows a
given schedule.
-/

namespace Gatehouse

/-! ## Steps of a flow -/

/-- A step that was taken, with what it was answered. -/
abbrev Step := (c : Call) × c.Answer

namespace Flow

variable {α β σ : Type} (answer : (c : Call) → σ → c.Answer × σ)

/-- The steps that a flow takes when each is answered from a state. -/
def steps : Flow α → σ → List Step
  | done _, _ => []
  | call c next, s => ⟨c, (answer c s).1⟩ :: steps (next (answer c s).1) (answer c s).2

@[simp] lemma steps_pure (a : α) (s : σ) : (pure a : Flow α).steps answer s = [] := rfl

@[simp] lemma run_call (c : Call) (next : c.Answer → Flow α) (s : σ) :
    (call c next).run answer s = (next (answer c s).1).run answer (answer c s).2 := rfl

@[simp] lemma steps_call (c : Call) (next : c.Answer → Flow α) (s : σ) :
    (call c next).steps answer s =
      ⟨c, (answer c s).1⟩ :: (next (answer c s).1).steps answer (answer c s).2 := rfl

/-- Of flows that run one after the other, the steps of the second follow those of the first. -/
@[simp] lemma steps_bind (m : Flow α) (f : α → Flow β) (s : σ) :
    (m >>= f).steps answer s =
      m.steps answer s ++ (f (m.run answer s).1).steps answer (m.run answer s).2 := by
  show (m.bind f).steps answer s = _
  induction m generalizing s with
  | done a => rfl
  | call c next ih => exact congrArg (⟨c, (answer c s).1⟩ :: ·) (ih _ _)

end Flow

/-! ## Three tables -/

/-- The records of a deployment whose stores keep them in memory. -/
structure Tables where
  users : UserTable
  roles : RoleTable
  permissions : PermissionTable
deriving DecidableEq

namespace Tables

/-- No records. -/
def empty : Tables := ⟨[], RoleTable.empty, PermissionTable.empty⟩

/-- The stores that keep these records. -/
def stores (t : Tables) : Stores := .ofTables t.users t.roles t.permissions

@[simp] lemma stores_empty : empty.stores = Stores.empty := rfl

/-- Stores in memory keep one set of tables. -/
lemma stores_injective : Function.Injective stores := by
  rintro ⟨users, roles, permissions⟩ ⟨users', roles', permissions'⟩ h
  simp only [stores, Stores.ofTables, Shelf.ofTable, Stores.mk.injEq, Shelf.mk.injEq,
    List.cons.injEq, Backing.memory.injEq, and_true] at h
  obtain ⟨rfl, rfl, rfl⟩ := h
  rfl

/-- The tables with other users. -/
def withUsers (t : Tables) (users : UserTable) : Tables := { t with users := users }

/-- The tables with other roles. -/
def withRoles (t : Tables) (roles : RoleTable) : Tables := { t with roles := roles }

/-- The tables with other permissions. -/
def withPermissions (t : Tables) (permissions : PermissionTable) : Tables :=
  { t with permissions := permissions }

@[simp] lemma withUsers_self (t : Tables) : t.withUsers t.users = t := rfl

@[simp] lemma withRoles_self (t : Tables) : t.withRoles t.roles = t := rfl

@[simp] lemma withPermissions_self (t : Tables) : t.withPermissions t.permissions = t := rfl

/-- The answer to a step, and the records after it.  Nothing is installed but at place 0. -/
def answer : (c : Call) → Tables → c.Answer × Tables
  | .usersInUse, t => (0, t)
  | .rolesInUse, t => (0, t)
  | .permissionsInUse, t => (0, t)
  | .users 0 op, t => ((op.step t.users).1, t.withUsers (op.step t.users).2)
  | .roles 0 op, t => ((op.step t.roles).1, t.withRoles (op.step t.roles).2)
  | .permissions 0 op, t =>
    ((op.step t.permissions).1, t.withPermissions (op.step t.permissions).2)
  | .users (_ + 1) _, t => (.error closedPool, t)
  | .roles (_ + 1) _, t => (.error closedPool, t)
  | .permissions (_ + 1) _, t => (.error closedPool, t)

@[simp] lemma run_usersInUse (t : Tables) : Flow.usersInUse.run answer t = (0, t) := rfl

@[simp] lemma run_rolesInUse (t : Tables) : Flow.rolesInUse.run answer t = (0, t) := rfl

@[simp] lemma run_permissionsInUse (t : Tables) :
    Flow.permissionsInUse.run answer t = (0, t) := rfl

-- The type of a reply depends on the request, so it must not be used to find these lemmas.
@[simp] lemma run_users (op : UserOp) (t : Tables) :
    @Flow.run (no_index (Except StoreError op.Reply)) Tables answer (Flow.users 0 op) t =
      ((op.step t.users).1, t.withUsers (op.step t.users).2) := rfl

@[simp] lemma run_roles (op : RoleOp) (t : Tables) :
    @Flow.run (no_index (Except StoreError op.Reply)) Tables answer (Flow.roles 0 op) t =
      ((op.step t.roles).1, t.withRoles (op.step t.roles).2) := rfl

@[simp] lemma run_permissions (op : PermissionOp) (t : Tables) :
    @Flow.run (no_index (Except StoreError op.Reply)) Tables answer (Flow.permissions 0 op) t =
      ((op.step t.permissions).1, t.withPermissions (op.step t.permissions).2) := rfl

end Tables

/-- A shelf with a single store in memory answers from its table, and only at place 0. -/
lemma Shelf.call_ofTable {Op : Type} [Storage Op] (table : Storage.Table Op) (place : Nat)
    (op : Op) :
    (Shelf.ofTable table).call place op =
      if place = 0 then ((Storage.step table op).1, .ofTable (Storage.step table op).2)
      else (.error closedPool, .ofTable table) := by
  cases place with
  | zero => simp [Shelf.call, Shelf.ofTable, Shelf.callAt]
  | succ n => simp [Shelf.call, Shelf.ofTable, Shelf.callAt]

/-- The stores in memory answer a step from their tables. -/
lemma Tables.answer_stores (c : Call) (t : Tables) :
    Stores.answer c t.stores = ((Tables.answer c t).1, (Tables.answer c t).2.stores) := by
  cases c with
  | usersInUse => rfl
  | rolesInUse => rfl
  | permissionsInUse => rfl
  | users place op =>
    simp only [Stores.answer, Tables.stores, Stores.ofTables, Shelf.call_ofTable]
    cases place <;> rfl
  | roles place op =>
    simp only [Stores.answer, Tables.stores, Stores.ofTables, Shelf.call_ofTable]
    cases place <;> rfl
  | permissions place op =>
    simp only [Stores.answer, Tables.stores, Stores.ofTables, Shelf.call_ofTable]
    cases place <;> rfl

/-- A flow that runs on stores in memory does what it does on their tables. -/
theorem Flow.run_stores {α : Type} (m : Flow α) (t : Tables) :
    m.run Stores.answer t.stores =
      ((m.run Tables.answer t).1, (m.run Tables.answer t).2.stores) := by
  induction m generalizing t with
  | done a => rfl
  | call c next ih =>
    simp only [Flow.run, Tables.answer_stores]
    exact ih _ _

/-! ## Stores that may fail -/

/-- What a step is answered with when it fails before it reaches a store.  Asking which store is
in use reaches none and does not fail. -/
def Call.failure? : (c : Call) → StoreError → Option c.Answer
  | .usersInUse, _ => none
  | .rolesInUse, _ => none
  | .permissionsInUse, _ => none
  | .users _ _, e => some (.error e)
  | .roles _ _, e => some (.error e)
  | .permissions _ _, e => some (.error e)

/-- A way of answering under which steps fail on a schedule.  The state counts the steps, and the
schedule says which of them fails, and how. -/
def failing {σ : Type} (schedule : Nat → Option StoreError)
    (answer : (c : Call) → σ → c.Answer × σ) (c : Call) (s : Nat × σ) : c.Answer × (Nat × σ) :=
  match (schedule s.1).bind c.failure? with
  | some failure => (failure, (s.1 + 1, s.2))
  | none => ((answer c s.2).1, (s.1 + 1, (answer c s.2).2))

/-- A way of answering from states that keep tables: each step is answered from them or, where
`fallible` permits it, fails and leaves them alone. -/
structure MayFail {σ : Type} (answer : (c : Call) → σ → c.Answer × σ)
    (keeps : σ → Tables → Prop) (fallible : Call → Prop) : Prop where
  step : ∀ (c : Call) (s : σ) (t : Tables), keeps s t →
    (fallible c ∧ (∃ e, c.failure? e = some (answer c s).1) ∧ keeps (answer c s).2 t) ∨
      ((answer c s).1 = (Tables.answer c t).1 ∧ keeps (answer c s).2 (Tables.answer c t).2)

/-- Nothing has to fail. -/
lemma mayFail_tables : MayFail Tables.answer Eq fun _ => False where
  step := by
    rintro c s t rfl
    exact .inr ⟨rfl, rfl⟩

/-- Stores in memory whose steps fail on a schedule. -/
lemma mayFail_failing (schedule : Nat → Option StoreError) :
    MayFail (failing schedule Stores.answer) (fun s t => s.2 = t.stores) fun _ => True where
  step := by
    rintro c ⟨n, s⟩ t rfl
    simp only [failing]
    cases h : (schedule n).bind c.failure? with
    | some failure =>
      obtain ⟨e, -, he⟩ := Option.bind_eq_some_iff.1 h
      exact .inl ⟨trivial, ⟨e, he⟩, rfl⟩
    | none => exact .inr (by simp only [Tables.answer_stores, and_self])

namespace MayFail

variable {σ : Type} {answer : (c : Call) → σ → c.Answer × σ} {keeps : σ → Tables → Prop}
  {fallible : Call → Prop} {s : σ} {t : Tables}

/-- The role store in use is the one at place 0. -/
lemma rolesInUse (h : MayFail answer keeps fallible) (hs : keeps s t) :
    (answer .rolesInUse s).1 = 0 ∧ keeps (answer .rolesInUse s).2 t := by
  obtain ⟨-, ⟨e, he⟩, -⟩ | h := h.step .rolesInUse s t hs
  · exact nomatch he
  · exact h

/-- The permission store in use is the one at place 0. -/
lemma permissionsInUse (h : MayFail answer keeps fallible) (hs : keeps s t) :
    (answer .permissionsInUse s).1 = 0 ∧ keeps (answer .permissionsInUse s).2 t := by
  obtain ⟨-, ⟨e, he⟩, -⟩ | h := h.step .permissionsInUse s t hs
  · exact nomatch he
  · exact h

/-- A request to the role store fails, or is answered from the roles. -/
lemma roles (h : MayFail answer keeps fallible) (hs : keeps s t) (op : RoleOp) :
    ((∃ e, (answer (.roles 0 op) s).1 = .error e) ∧ keeps (answer (.roles 0 op) s).2 t) ∨
      ((answer (.roles 0 op) s).1 = (op.step t.roles).1 ∧
        keeps (answer (.roles 0 op) s).2 (t.withRoles (op.step t.roles).2)) := by
  obtain ⟨-, ⟨e, he⟩, hk⟩ | h := h.step (.roles 0 op) s t hs
  · exact .inl ⟨⟨e, (Option.some.inj he).symm⟩, hk⟩
  · exact .inr h

/-- A request to the permission store fails, or is answered from the permissions. -/
lemma permissions (h : MayFail answer keeps fallible) (hs : keeps s t) (op : PermissionOp) :
    (fallible (.permissions 0 op) ∧ (∃ e, (answer (.permissions 0 op) s).1 = .error e) ∧
        keeps (answer (.permissions 0 op) s).2 t) ∨
      ((answer (.permissions 0 op) s).1 = (op.step t.permissions).1 ∧
        keeps (answer (.permissions 0 op) s).2
          (t.withPermissions (op.step t.permissions).2)) := by
  obtain ⟨hf, ⟨e, he⟩, hk⟩ | h := h.step (.permissions 0 op) s t hs
  · exact .inl ⟨hf, ⟨e, (Option.some.inj he).symm⟩, hk⟩
  · exact .inr h

end MayFail

end Gatehouse
