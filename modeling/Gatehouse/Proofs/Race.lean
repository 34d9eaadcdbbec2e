import Gatehouse.Proofs.Tables
import Mathlib.Data.List.Infix
import Mathlib.Logic.Function.Basic

/-!
# Flows that run side by side

A race is a family of flows that share one state.  One of them at a time takes its next step,
answered from the state as the others left it; a schedule says which, and any list of turns is a
schedule.  A flow that is done passes when it is its turn, so a schedule need not know how long
the flows are.

The trace keeps every step that was taken together with the flow that took it.
-/

namespace Gatehouse

/-- What a flow has come to, once it is done. -/
def Flow.result? {α : Type} : Flow α → Option α
  | .done a => some a
  | .call _ _ => none

lemma Flow.result?_eq_some {α : Type} {m : Flow α} {a : α} : m.result? = some a ↔ m = .done a := by
  cases m with
  | done b => simp [result?]
  | call c next => simp [result?]

/-- Flows that run side by side: what each has yet to do, the state they share, and the steps
taken so far. -/
structure Race (ι α σ : Type) where
  flows : ι → Flow α
  state : σ
  trace : List (ι × Step)

namespace Race

variable {ι α σ : Type} [DecidableEq ι]

/-- One flow takes its next step. -/
def step (answer : (c : Call) → σ → c.Answer × σ) (race : Race ι α σ) (i : ι) : Race ι α σ :=
  match race.flows i with
  | .done _ => race
  | .call c next =>
    ⟨Function.update race.flows i (next (answer c race.state).1), (answer c race.state).2,
      race.trace ++ [(i, ⟨c, (answer c race.state).1⟩)]⟩

/-- The flows take steps in turn. -/
def run (answer : (c : Call) → σ → c.Answer × σ) (schedule : List ι) (race : Race ι α σ) :
    Race ι α σ :=
  schedule.foldl (step answer) race

/-- The same race, seen from another state. -/
def mapState {τ : Type} (f : σ → τ) (race : Race ι α σ) : Race ι α τ :=
  ⟨race.flows, f race.state, race.trace⟩

variable {answer : (c : Call) → σ → c.Answer × σ} {race : Race ι α σ} {i : ι}

lemma step_done {a : α} (h : race.flows i = .done a) : race.step answer i = race := by
  unfold step
  rw [h]

lemma step_call {c : Call} {next : c.Answer → Flow α} (h : race.flows i = .call c next) :
    race.step answer i =
      ⟨Function.update race.flows i (next (answer c race.state).1), (answer c race.state).2,
        race.trace ++ [(i, ⟨c, (answer c race.state).1⟩)]⟩ := by
  unfold step
  rw [h]

/-- What every step keeps, every run keeps. -/
theorem run_preserves {I : Race ι α σ → Prop}
    (step : ∀ (race : Race ι α σ) (i : ι), I race → I (race.step answer i)) (schedule : List ι)
    (h : I race) : I (race.run answer schedule) := by
  unfold run
  induction schedule generalizing race with
  | nil => exact h
  | cons i rest ih => exact ih (step race i h)

/-- A race on stores in memory goes as it does on their tables. -/
theorem run_stores (schedule : List ι) (race : Race ι α Tables) :
    (race.mapState Tables.stores).run Stores.answer schedule =
      (race.run Tables.answer schedule).mapState Tables.stores := by
  unfold run
  induction schedule generalizing race with
  | nil => rfl
  | cons i rest ih =>
    -- A step looks at the flow alone to see what to do, and flows are the same in both races.
    have hstep : (race.mapState Tables.stores).step Stores.answer i =
        (race.step Tables.answer i).mapState Tables.stores := by
      cases hflow : race.flows i with
      | done a =>
        have hmapped : (race.mapState Tables.stores).flows i = .done a := hflow
        rw [step_done hflow, step_done hmapped]
      | call c next =>
        have hmapped : (race.mapState Tables.stores).flows i = .call c next := hflow
        rw [step_call hflow, step_call hmapped]
        simp only [mapState, Tables.answer_stores]
    rw [List.foldl_cons, List.foldl_cons, hstep]
    exact ih _

end Race

end Gatehouse
