import Gatehouse.Proofs.Tables

/-!
# Which steps a flow takes

A flow does nothing to the stores but by its steps, so a bound on the steps it can take is a bound
on what it can do, whoever answers it and whatever others do in between.  `Flow.Only` is such a
bound.  It is about the tree and not about a run: of each flow it is shown once, by following the
definition, and then every run has it, be the answers those of stores in memory, of stores that
fail or of stores that are swapped meanwhile.  How many steps a flow can take is bounded in the
same way (`Flow.EndsWithin`).
-/

namespace Gatehouse

namespace Flow

variable {α β σ : Type} {P : Call → Prop}

/-- Every step that the flow can take has the property. -/
def Only (P : Call → Prop) : Flow α → Prop
  | done _ => True
  | call c next => P c ∧ ∀ answer, (next answer).Only P

namespace Only

lemma pure (a : α) : (Pure.pure a : Flow α).Only P := trivial

lemma ofCall {c : Call} (h : P c) : (Flow.ofCall c).Only P := ⟨h, fun _ => trivial⟩

lemma usersInUse (h : P .usersInUse) : Flow.usersInUse.Only P := .ofCall h

lemma rolesInUse (h : P .rolesInUse) : Flow.rolesInUse.Only P := .ofCall h

lemma permissionsInUse (h : P .permissionsInUse) : Flow.permissionsInUse.Only P := .ofCall h

lemma users {place : Nat} {op : UserOp} (h : P (.users place op)) :
    (Flow.users place op).Only P := .ofCall h

lemma roles {place : Nat} {op : RoleOp} (h : P (.roles place op)) :
    (Flow.roles place op).Only P := .ofCall h

lemma permissions {place : Nat} {op : PermissionOp} (h : P (.permissions place op)) :
    (Flow.permissions place op).Only P := .ofCall h

/-- Flows that run one after the other take the steps of both. -/
lemma bind {m : Flow α} {f : α → Flow β} (hm : m.Only P) (hf : ∀ a, (f a).Only P) :
    (m >>= f).Only P := by
  show (m.bind f).Only P
  induction m with
  | done a => exact hf a
  | call c next ih => exact ⟨hm.1, fun answer => ih answer (hm.2 answer)⟩

variable {answer : (c : Call) → σ → c.Answer × σ}

/-- What steps with the property keep, a flow that takes no others keeps. -/
theorem run_keeps {I : σ → Prop} (step : ∀ c s, P c → I s → I (answer c s).2) {m : Flow α}
    (hm : m.Only P) : ∀ {s : σ}, I s → I (m.run answer s).2 := by
  -- On the tree, whatever the answers are; the state goes along with the run.
  induction m with
  | done a => exact fun hs => hs
  | call c next ih => exact fun hs => ih _ (hm.2 _) (step c _ hm.1 hs)

end Only

/-! ## How many steps -/

/-- The flow takes no more than some steps, however they are answered. -/
def EndsWithin : Nat → Flow α → Prop
  | _, .done _ => True
  | 0, .call _ _ => False
  | n + 1, .call _ next => ∀ answer, (next answer).EndsWithin n

namespace EndsWithin

lemma done (n : Nat) (a : α) : (Flow.done a).EndsWithin n := by
  cases n with
  | _ => trivial

lemma exists_done {m : Flow α} (h : m.EndsWithin 0) : ∃ a, m = .done a := by
  cases m with
  | done a => exact ⟨a, rfl⟩
  | call c next => exact absurd h id

lemma mono {m : Flow α} {n k : Nat} (h : m.EndsWithin n) (hle : n ≤ k) : m.EndsWithin k := by
  induction m generalizing n k with
  | done a => exact .done k a
  | call c next ih =>
    cases n with
    | zero => exact absurd h id
    | succ n =>
      cases k with
      | zero => exact absurd hle (Nat.not_succ_le_zero n)
      | succ k => exact fun answer => ih answer (h answer) (Nat.le_of_succ_le_succ hle)

/-- Flows that run one after the other take no more steps than both together. -/
lemma bind {m : Flow α} {f : α → Flow β} {n k : Nat} (hm : m.EndsWithin n)
    (hf : ∀ a, (f a).EndsWithin k) : (m >>= f).EndsWithin (n + k) := by
  show (m.bind f).EndsWithin (n + k)
  induction m generalizing n with
  | done a => exact (hf a).mono (Nat.le_add_left k n)
  | call c next ih =>
    cases n with
    | zero => exact absurd hm id
    | succ n =>
      rw [Nat.succ_add]
      exact fun answer => ih answer (hm answer)

end EndsWithin

end Flow

end Gatehouse
