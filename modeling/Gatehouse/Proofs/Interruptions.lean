import Gatehouse.Proofs.Reach
import Gatehouse.Proofs.StepsTaken
import Mathlib.Logic.Function.Basic

/-!
# Calls that are interrupted

A call takes its steps one at a time, and between any two of them other tasks may swap stores,
undo swaps, and send requests of their own.  An `Interrupted` call takes turns with them; every list
of turns is a schedule, and so there is a schedule for each way in which their doings may fall
between its steps.

Two facts are shown of a call that asks once which permission store is in use and from then on sends
its requests to that one.  No other store knows of the call (`Interrupted.KeepsToStore`): next to it
goes a world in which the other tasks do the same and the call is not there, and the two worlds stay
alike outside the chain of that store (`World.AlikeOutside`).  And the call comes to what it comes
to when nobody interrupts it, as long as nobody else changes that chain (`Interrupted.InStep.run`).
-/

namespace Gatehouse

open Gatehouse.Shelf (AgreeOn Closed chain)

/-! ## Other tasks -/

/-- What another task does between two steps of a call. -/
inductive Interruption where
  | replaceUsers (backing : Backing UserOp)
  | replaceRoles (backing : Backing RoleOp)
  | replacePermissions (backing : Backing PermissionOp)
  /-- a swap of a store of the kind is undone, counted from the first -/
  | restore (kind : StoreKind) (swap : Nat)
  | request (c : Call)

/-- The stores, and the receipts that were left by swaps of each kind. -/
structure World where
  stores : Stores
  receipts : StoreKind → List (Receipt Nat)

namespace World

/-- Stores that keep records in memory, before any swap. -/
def start (t : Tables) : World := ⟨t.stores, fun _ => []⟩

/-- The permission stores by place. -/
def permissionStores (w : World) : List (Backing PermissionOp) := w.stores.permissions.installed

/-- The place of the permission store in use. -/
def permissionsInUse (w : World) : Nat := w.stores.permissions.inUse.current

/-- The stores after a swap of one kind, and its receipt among those of the kind. -/
def swapped (w : World) (kind : StoreKind) (after : Stores × Receipt Nat) : World :=
  ⟨after.1, Function.update w.receipts kind (w.receipts kind ++ [after.2])⟩

/-- The world after a step was answered. -/
def answered (w : World) (c : Call) : World := { w with stores := (Stores.answer c w.stores).2 }

/-- What an interruption makes of the world.  A swap that did not take place cannot be undone. -/
def interrupted (w : World) : Interruption → World
  | .replaceUsers backing => w.swapped .users (w.stores.replaceUsers backing)
  | .replaceRoles backing => w.swapped .roles (w.stores.replaceRoles backing)
  | .replacePermissions backing =>
    w.swapped .permissions (w.stores.replacePermissions backing)
  | .restore kind swap =>
    match (w.receipts kind)[swap]? with
    | none => w
    | some receipt => { w with stores := w.stores.restore kind receipt }
  | .request c => w.answered c

end World

/-! ## A call and its interruptions -/

/-- One turn: the call takes its next step, or another task does something. -/
inductive Turn where
  | own
  | other (i : Interruption)

/-- Whether it is the call's own turn. -/
def Turn.isOwn : Turn → Bool
  | own => true
  | other _ => false

/-- A call in a world that it shares with other tasks: what it has yet to do, the world, and the
steps it has taken. -/
structure Interrupted (α : Type) where
  flow : Flow α
  world : World
  trace : List Step

namespace Interrupted

variable {α : Type}

/-- A call that has not taken a step. -/
def start (m : Flow α) (w : World) : Interrupted α := ⟨m, w, []⟩

/-- What a turn makes of a call; one that is done passes when it is its turn. -/
def turn (call : Interrupted α) : Turn → Interrupted α
  | .other i => { call with world := call.world.interrupted i }
  | .own =>
    match call.flow with
    | .done _ => call
    | .call c next =>
      let (answer, stores) := Stores.answer c call.world.stores
      ⟨next answer, { call.world with stores := stores }, call.trace ++ [⟨c, answer⟩]⟩

/-- The call after some turns. -/
def run (call : Interrupted α) (schedule : List Turn) : Interrupted α := schedule.foldl turn call

/-- The next step asks which permission store is in use. -/
def Asks (call : Interrupted α) : Prop := ∃ next, call.flow = .call .permissionsInUse next

/-- No turn of another task changes the permission stores at the places. -/
def Undisturbed (places : Set Nat) : Interrupted α → List Turn → Prop
  | _, [] => True
  | call, .own :: later => (call.turn .own).Undisturbed places later
  | call, .other i :: later =>
    AgreeOn places call.world.permissionStores (call.turn (.other i)).world.permissionStores ∧
      (call.turn (.other i)).Undisturbed places later

end Interrupted

/-- The step has nothing to do with permission stores. -/
def Call.SparesPermissions : Call → Prop
  | .permissionsInUse => False
  | .permissions _ _ => False
  | _ => True

namespace World

/-- What a turn makes of the world when the call is not there. -/
def pass (w : World) : Turn → World
  | .own => w
  | .other i => w.interrupted i

/-- The world after some turns when the call is not there. -/
def without (w : World) (schedule : List Turn) : World := schedule.foldl pass w

/-! ## Worlds that differ in one store -/

/-- The registry and the receipts name permission stores that are installed. -/
structure Genuine (w : World) : Prop where
  inUse : w.permissionsInUse < w.permissionStores.length
  receipts : ∀ receipt ∈ w.receipts .permissions, receipt.previous < w.permissionStores.length

/-- The worlds are the same as far as permission stores go, but for the stores at some places, from
which no request finds its way out. -/
structure AlikeOutside (places : Set Nat) (w w' : World) : Prop where
  inUse : w.stores.permissions.inUse = w'.stores.permissions.inUse
  receipts : w.receipts .permissions = w'.receipts .permissions
  length : w.permissionStores.length = w'.permissionStores.length
  agree : AgreeOn placesᶜ w.permissionStores w'.permissionStores
  closed : Closed places w.permissionStores
  closed' : Closed places w'.permissionStores
  installed : ∀ place ∈ places, place < w.permissionStores.length

variable {w w' : World} {places : Set Nat}

lemma receipts_swapped (w : World) (kind : StoreKind) (after : Stores × Receipt Nat) :
    (w.swapped kind after).receipts kind = w.receipts kind ++ [after.2] := Function.update_self ..

/-- A restore happens with the receipt there is, or not at all. -/
lemma interrupted_restore (w : World) (kind : StoreKind) (swap : Nat) :
    w.interrupted (.restore kind swap) =
      { w with stores := ((w.receipts kind)[swap]?).elim w.stores (w.stores.restore kind) } := by
  simp only [interrupted]
  cases (w.receipts kind)[swap]? with
  | _ => rfl

lemma genuine_start (t : Tables) : (start t).Genuine where
  inUse := Nat.zero_lt_one
  receipts _ h := absurd h List.not_mem_nil

lemma answered_inUse (w : World) (c : Call) :
    (w.answered c).stores.permissions.inUse = w.stores.permissions.inUse := by
  cases c with
  | _ => rfl

lemma length_answered (w : World) (c : Call) :
    (w.answered c).permissionStores.length = w.permissionStores.length := by
  cases c with
  | permissions place op => exact Shelf.length_callAt _ place op
  | _ => rfl

lemma Genuine.answered (h : w.Genuine) (c : Call) : (w.answered c).Genuine := by
  refine ⟨?_, fun receipt hreceipt => ?_⟩
  · rw [length_answered, permissionsInUse, answered_inUse]
    exact h.inUse
  · rw [length_answered]
    exact h.receipts receipt hreceipt

lemma Genuine.interrupted (h : w.Genuine) (i : Interruption) : (w.interrupted i).Genuine := by
  obtain ⟨hinUse, hreceipts⟩ := h
  cases i with
  | replaceUsers backing => exact ⟨hinUse, hreceipts⟩
  | replaceRoles backing => exact ⟨hinUse, hreceipts⟩
  | replacePermissions backing =>
    have hlength : (w.interrupted (.replacePermissions backing)).permissionStores.length =
        w.permissionStores.length + 1 := List.length_append
    have hkept : (w.interrupted (.replacePermissions backing)).receipts .permissions =
        w.receipts .permissions ++ [⟨w.permissionsInUse⟩] := receipts_swapped w _ _
    refine ⟨?_, fun receipt hreceipt => ?_⟩
    · rw [hlength]
      exact Nat.lt_succ_self _
    · rw [hkept] at hreceipt
      rw [hlength]
      obtain hold | hnew := List.mem_append.1 hreceipt
      · exact Nat.lt_succ_of_lt (hreceipts receipt hold)
      · rw [List.mem_singleton.1 hnew]
        exact Nat.lt_succ_of_lt hinUse
  | restore kind swap =>
    rw [interrupted_restore]
    cases hswap : (w.receipts kind)[swap]? with
    | none => exact ⟨hinUse, hreceipts⟩
    | some receipt =>
      cases kind with
      | permissions => exact ⟨hreceipts receipt (List.mem_of_getElem? hswap), hreceipts⟩
      | _ => exact ⟨hinUse, hreceipts⟩
  | request c => exact Genuine.answered ⟨hinUse, hreceipts⟩ c

namespace AlikeOutside

lemma refl (w : World) : AlikeOutside ∅ w w where
  inUse := rfl
  receipts := rfl
  length := rfl
  agree := .refl _ _
  closed _ hp := absurd hp (Set.notMem_empty _)
  closed' _ hp := absurd hp (Set.notMem_empty _)
  installed _ hp := absurd hp (Set.notMem_empty _)

/-- Nothing counts but the shelf and the receipts of the permission stores. -/
lemma congr {v v' : World} (h : AlikeOutside places w w')
    (hv : v.stores.permissions = w.stores.permissions ∧
      v.receipts .permissions = w.receipts .permissions)
    (hv' : v'.stores.permissions = w'.stores.permissions ∧
      v'.receipts .permissions = w'.receipts .permissions) : AlikeOutside places v v' := by
  have hstores : v.permissionStores = w.permissionStores := congrArg Shelf.installed hv.1
  have hstores' : v'.permissionStores = w'.permissionStores := congrArg Shelf.installed hv'.1
  refine ⟨?_, ?_, ?_, ?_, ?_, ?_, ?_⟩
  · rw [hv.1, hv'.1, h.inUse]
  · rw [hv.2, hv'.2, h.receipts]
  · rw [hstores, hstores', h.length]
  · rw [hstores, hstores']
    exact h.agree
  · rw [hstores]
    exact h.closed
  · rw [hstores']
    exact h.closed'
  · rw [hstores]
    exact h.installed

lemma permissionStores_eq (h : AlikeOutside ∅ w w') :
    w.permissionStores = w'.permissionStores :=
  List.ext_getElem? fun q => h.agree q (Set.notMem_empty q)

/-- Worlds that are the same may come to differ in a store that is installed. -/
lemma widen (h : AlikeOutside ∅ w w') {place : Nat} (hplace : place < w.permissionStores.length) :
    AlikeOutside (chain w.permissionStores place) w w' where
  inUse := h.inUse
  receipts := h.receipts
  length := h.length
  agree := by
    rw [h.permissionStores_eq]
    exact .refl _ _
  closed := Shelf.closed_chain _ _
  closed' := by
    rw [← h.permissionStores_eq]
    exact Shelf.closed_chain _ _
  installed _ hq := (Shelf.le_of_mem_chain hq).trans_lt hplace

/-- What is sent to a store among the places does not show outside, whoever else knows of it. -/
lemma answered_left (h : AlikeOutside places w w') {place : Nat} (hplace : place ∈ places)
    (op : PermissionOp) : AlikeOutside places (w.answered (.permissions place op)) w' where
  inUse := h.inUse
  receipts := h.receipts
  length := (length_answered w _).trans h.length
  agree := by
    refine (AgreeOn.mono (Shelf.callAt_frame _ place op) ?_).symm.trans h.agree
    exact fun q hq hmem => hq (h.closed.chain_subset hplace hmem)
  closed := h.closed.callAt place op
  closed' := h.closed'
  installed := by
    rw [length_answered]
    exact h.installed

/-- A step that spares the permission stores leaves them as they are. -/
lemma spared_left (h : AlikeOutside places w w') {c : Call} (hc : c.SparesPermissions) :
    AlikeOutside places (w.answered c) w' := by
  cases c with
  | permissions => exact absurd hc id
  | _ => exact h.congr ⟨rfl, rfl⟩ ⟨rfl, rfl⟩

lemma answered (h : AlikeOutside places w w') (c : Call) :
    AlikeOutside places (w.answered c) (w'.answered c) := by
  cases c with
  | permissions place op =>
    refine ⟨h.inUse, h.receipts, ?_, ?_, h.closed.callAt place op, h.closed'.callAt place op, ?_⟩
    · rw [length_answered, length_answered, h.length]
    · exact Shelf.callAt_outside place op h.agree h.closed h.closed'
    · rw [length_answered]
      exact h.installed
  | _ => exact h.congr ⟨rfl, rfl⟩ ⟨rfl, rfl⟩

lemma interrupted (h : AlikeOutside places w w') (i : Interruption) :
    AlikeOutside places (w.interrupted i) (w'.interrupted i) := by
  cases i with
  | replaceUsers => exact h.congr ⟨rfl, rfl⟩ ⟨rfl, rfl⟩
  | replaceRoles => exact h.congr ⟨rfl, rfl⟩ ⟨rfl, rfl⟩
  | replacePermissions backing =>
    have hstores : ∀ w : World, (w.interrupted (.replacePermissions backing)).permissionStores =
        w.permissionStores ++ [backing] := fun _ => rfl
    have hinstalled' := h.length ▸ h.installed
    -- The new store gets the same place in both worlds, since as many are installed.
    refine ⟨congrArg Slot.mk h.length, ?_, ?_, ?_, ?_, ?_, ?_⟩
    · simp only [World.interrupted, receipts_swapped, h.receipts]
      exact congrArg (fun slot : Slot Nat => _ ++ [Receipt.mk slot.current]) h.inUse
    · rw [hstores, hstores, List.length_append, List.length_append, h.length]
    · exact h.agree.append h.length backing
    · exact h.closed.append h.installed backing
    · exact h.closed'.append hinstalled' backing
    · intro place hplace
      rw [hstores, List.length_append]
      exact Nat.lt_add_right _ (h.installed place hplace)
  | restore kind swap =>
    rw [interrupted_restore, interrupted_restore]
    cases kind with
    | permissions =>
      rw [h.receipts]
      cases (w'.receipts .permissions)[swap]? with
      | none => exact h.congr ⟨rfl, rfl⟩ ⟨rfl, rfl⟩
      | some => exact ⟨rfl, h.receipts, h.length, h.agree, h.closed, h.closed', h.installed⟩
    | _ =>
      cases (w.receipts _)[swap]? with
      | _ =>
        cases (w'.receipts _)[swap]? with
        | _ => exact h.congr ⟨rfl, rfl⟩ ⟨rfl, rfl⟩
  | request c => exact h.answered c

end AlikeOutside

end World

/-! ## Flows that ask once -/

/-- The step is a request to the permission store at the place. -/
def Call.IsTo (place : Nat) (c : Call) : Prop := ∃ op, c = .permissions place op

lemma Call.SparesPermissions.not_isTo {c : Call} (h : c.SparesPermissions) (place : Nat) :
    ¬c.IsTo place := by
  rintro ⟨op, rfl⟩
  exact h

/-- The flow has nothing to do with permission stores until it asks which is in use, if it ever
does, and then goes on in one of some ways. -/
inductive Flow.AsksOnce {α : Type} (rest : (Nat → Flow α) → Prop) : Flow α → Prop
  | done (a : α) : AsksOnce rest (.done a)
  | asks {next : Nat → Flow α} : rest next → AsksOnce rest (.call .permissionsInUse next)
  | spares {c : Call} {next : c.Answer → Flow α} : c.SparesPermissions →
      (∀ answer, AsksOnce rest (next answer)) → AsksOnce rest (.call c next)

lemma Flow.AsksOnce.of_asks {α : Type} {rest : (Nat → Flow α) → Prop} {next : Nat → Flow α}
    (h : AsksOnce rest (.call .permissionsInUse next)) : rest next := by
  cases h with
  | asks hrest => exact hrest
  | spares hspares => exact absurd hspares id

namespace Interrupted

variable {α : Type} {rest : (Nat → Flow α) → Prop} {call : Interrupted α} {alone : World}

lemma run_append (call : Interrupted α) (earlier later : List Turn) :
    call.run (earlier ++ later) = (call.run earlier).run later := List.foldl_append

lemma turn_own_done {a : α} (h : call.flow = .done a) : call.turn .own = call := by
  unfold turn
  rw [h]

lemma run_own_done {a : α} (h : call.flow = .done a) (later : List Turn) :
    call.run (.own :: later) = call.run later := by
  rw [run, List.foldl_cons, turn_own_done h, run]

lemma turn_own_call {c : Call} {next : c.Answer → Flow α} (h : call.flow = .call c next) :
    call.turn .own =
      ⟨next (Stores.answer c call.world.stores).1, call.world.answered c,
        call.trace ++ [⟨c, (Stores.answer c call.world.stores).1⟩]⟩ := by
  unfold turn
  rw [h]
  rfl

/-! ## Before the call asks -/

/-- The call has not asked yet, and nothing shows of it among the permission stores. -/
structure Unasked (rest : (Nat → Flow α) → Prop) (call : Interrupted α) (alone : World) :
    Prop where
  flow : call.flow.AsksOnce rest
  trace : ∀ step ∈ call.trace, step.1.SparesPermissions
  genuine : call.world.Genuine
  alike : call.world.AlikeOutside ∅ alone

namespace Unasked

lemma start {m : Flow α} (hm : m.AsksOnce rest) (t : Tables) :
    Unasked rest (Interrupted.start m (.start t)) (.start t) :=
  ⟨hm, fun _ h => absurd h List.not_mem_nil, World.genuine_start t, .refl _⟩

lemma other (h : Unasked rest call alone) (i : Interruption) :
    Unasked rest (call.turn (.other i)) (alone.interrupted i) :=
  ⟨h.flow, h.trace, h.genuine.interrupted i, h.alike.interrupted i⟩

/-- Each of its steps spares the permission stores, except for asking. -/
lemma own (h : Unasked rest call alone) :
    (∃ next, rest next ∧ call.flow = .call .permissionsInUse next) ∨
      Unasked rest (call.turn .own) alone := by
  obtain ⟨hflow, htrace, hgenuine, halike⟩ := h
  rcases hm : call.flow with a | ⟨c, next⟩
  · rw [turn_own_done hm]
    exact .inr ⟨hflow, htrace, hgenuine, halike⟩
  · rw [hm] at hflow
    -- Before it asks, the call may ask for other stores and send requests to these.
    cases hflow with
    | asks hrest => exact .inl ⟨_, hrest, rfl⟩
    | spares hspares hnext =>
      rw [turn_own_call hm]
      refine .inr ⟨hnext _, fun step hstep => ?_, hgenuine.answered c, halike.spared_left hspares⟩
      obtain hold | hnew := List.mem_append.1 hstep
      · exact htrace step hold
      · rw [List.mem_singleton.1 hnew]
        exact hspares

/-- After any turns the call has not asked yet, or it asked at one of them. -/
lemma run (schedule : List Turn) (h : Unasked rest call alone) :
    Unasked rest (call.run schedule) (alone.without schedule) ∨
      ∃ earlier later next, schedule = earlier ++ .own :: later ∧ rest next ∧
        (call.run earlier).flow = .call .permissionsInUse next ∧
        Unasked rest (call.run earlier) (alone.without earlier) := by
  -- On the schedule; call and world vary.  The first turn is taken care of, and what it leaves is a
  -- call that has not asked, or the very turn at which it asks.
  induction schedule generalizing call alone with
  | nil => exact .inl h
  | cons turn schedule ih =>
    have hlater : ∀ {alone'}, alone.pass turn = alone' → Unasked rest (call.turn turn) alone' →
        Unasked rest (call.run (turn :: schedule)) (alone.without (turn :: schedule)) ∨
          ∃ earlier later next, turn :: schedule = earlier ++ .own :: later ∧ rest next ∧
            (call.run earlier).flow = .call .permissionsInUse next ∧
            Unasked rest (call.run earlier) (alone.without earlier) := by
      rintro _ rfl hturn
      obtain hrun | ⟨earlier, later, next, rfl, hrest, hasks, hunasked⟩ := ih hturn
      · exact .inl hrun
      · exact .inr ⟨turn :: earlier, later, next, rfl, hrest, hasks, hunasked⟩
    cases turn with
    | other i => exact hlater rfl (h.other i)
    | own =>
      obtain ⟨next, hrest, hasks⟩ | hturn := h.own
      · exact .inr ⟨[], schedule, next, rfl, hrest, hasks, h⟩
      · exact hlater rfl hturn

end Unasked

/-! ## Once the call has asked -/

/-- The call has asked, and nothing shows of it outside some places. -/
structure Asked (place : Nat) (places : Set Nat) (call : Interrupted α) (alone : World) :
    Prop where
  flow : call.flow.Only (Call.IsTo place)
  mem : place ∈ places
  trace : ∀ step ∈ call.trace, ∀ other, step.1.IsTo other → other = place
  alike : call.world.AlikeOutside places alone

namespace Asked

variable {place : Nat} {places : Set Nat}

lemma not_asks (h : Asked place places call alone) : ¬call.Asks := by
  rintro ⟨next, hasks⟩
  have hflow := h.flow
  rw [hasks] at hflow
  obtain ⟨_, hop⟩ := hflow.1
  exact nomatch hop

/-- The step by which it asks. -/
lemma ask (h : Unasked rest call alone) {next : Nat → Flow α}
    (hasks : call.flow = .call .permissionsInUse next)
    (hnext : (next call.world.permissionsInUse).Only (Call.IsTo call.world.permissionsInUse)) :
    Asked call.world.permissionsInUse
      (chain call.world.permissionStores call.world.permissionsInUse) (call.turn .own) alone := by
  rw [turn_own_call hasks]
  refine ⟨hnext, Shelf.mem_chain_self _ _, ?_, h.alike.widen h.genuine.inUse⟩
  intro step hstep other hto
  obtain hold | hnew := List.mem_append.1 hstep
  · exact absurd hto ((h.trace step hold).not_isTo other)
  · rw [List.mem_singleton.1 hnew] at hto
    obtain ⟨_, hop⟩ := hto
    exact nomatch hop

lemma other (h : Asked place places call alone) (i : Interruption) :
    Asked place places (call.turn (.other i)) (alone.interrupted i) :=
  ⟨h.flow, h.mem, h.trace, h.alike.interrupted i⟩

lemma own (h : Asked place places call alone) :
    Asked place places (call.turn .own) alone := by
  obtain ⟨hflow, hmem, htrace, halike⟩ := h
  rcases hm : call.flow with a | ⟨c, next⟩
  · rw [turn_own_done hm]
    exact ⟨hflow, hmem, htrace, halike⟩
  · rw [hm] at hflow
    obtain ⟨⟨op, rfl⟩, hnext⟩ := hflow
    rw [turn_own_call hm]
    refine ⟨hnext _, hmem, fun step hstep other hto => ?_, halike.answered_left hmem op⟩
    obtain hold | hnew := List.mem_append.1 hstep
    · exact htrace step hold other hto
    · rw [List.mem_singleton.1 hnew] at hto
      obtain ⟨_, hop⟩ := hto
      exact (Call.permissions.inj hop).1.symm

lemma run (later : List Turn) (h : Asked place places call alone) :
    Asked place places (call.run later) (alone.without later) := by
  induction later generalizing call alone with
  | nil => exact h
  | cons turn later ih =>
    cases turn with
    | own => exact ih h.own
    | other i => exact ih (h.other i)

end Asked

/-! ## Compared with an uninterrupted run -/

/-- What the call has yet to do is done with one permission store, and requests to that one come to
the same stores here and on other stores, where nobody interrupts it. -/
structure InStep (place : Nat) (places : Set Nat) (call : Interrupted α) (u : Stores) : Prop where
  only : call.flow.Only (Call.IsTo place)
  chain : Shelf.chain call.world.permissionStores place = places
  agree : AgreeOn places call.world.permissionStores u.permissions.installed

namespace InStep

variable {place : Nat} {places : Set Nat} {u : Stores}

lemma other (h : InStep place places call u) {i : Interruption}
    (hsame : AgreeOn places call.world.permissionStores
      (call.turn (.other i)).world.permissionStores) :
    InStep place places (call.turn (.other i)) u where
  only := h.only
  chain := by rw [Shelf.chain_congr (h.chain ▸ hsame), h.chain]
  agree := hsame.symm.trans h.agree

/-- The next step is answered here as it is there. -/
lemma own (h : InStep place places call u) {c : Call} {next : c.Answer → Flow α}
    (hm : call.flow = .call c next) :
    (call.turn .own).flow = next (Stores.answer c u).1 ∧
      InStep place places (call.turn .own) (Stores.answer c u).2 := by
  obtain ⟨honly, rfl, hagree⟩ := h
  rw [hm] at honly
  obtain ⟨⟨op, rfl⟩, hnext⟩ := honly
  obtain ⟨hanswer, hafter⟩ := Shelf.callAt_congr place op hagree
  rw [turn_own_call hm]
  exact ⟨congrArg next hanswer, hnext _, Shelf.chain_callAt _ _ _ _, hafter⟩

/-- As long as nobody else changes those stores, the call comes to what it comes to there, and
leaves them the same. -/
theorem run (later : List Turn) (h : InStep place places call u)
    (hquiet : call.Undisturbed places later) {result : α}
    (hresult : (call.run later).flow = .done result) :
    (call.flow.run Stores.answer u).1 = result ∧
      AgreeOn places (call.run later).world.permissionStores
        (call.flow.run Stores.answer u).2.permissions.installed := by
  induction later generalizing call u with
  | nil =>
    have hflow : call.flow = .done result := hresult
    rw [hflow]
    exact ⟨rfl, h.agree⟩
  | cons turn later ih =>
    cases turn with
    | other i => exact ih (h.other hquiet.1) hquiet.2 hresult
    | own =>
      rcases hm : call.flow with a | ⟨c, next⟩
      · rw [run_own_done hm] at hresult ⊢
        rw [Undisturbed, turn_own_done hm] at hquiet
        rw [← hm]
        exact ih h hquiet hresult
      · obtain ⟨hflow, hstep⟩ := h.own hm
        rw [Flow.run_call, ← hflow]
        exact ih hstep hquiet hresult

end InStep

/-! ## One store for the whole call -/

/-- No request of the call went to a permission store, and nothing shows of it there. -/
structure LeftAlone (call : Interrupted α) (schedule : List Turn) : Prop where
  requests : ∀ step ∈ (call.run schedule).trace, ∀ place, ¬step.1.IsTo place
  stores : (call.run schedule).world.permissionStores =
    (call.world.without schedule).permissionStores

/-- The call asked after the earlier turns; all its requests to permission stores went to the one
that was in use then, and nothing shows of it outside what that one passes requests on to. -/
structure KeptToStore (call : Interrupted α) (earlier later : List Turn) : Prop where
  requests : ∀ step ∈ (call.run (earlier ++ .own :: later)).trace, ∀ place, step.1.IsTo place →
    place = (call.run earlier).world.permissionsInUse
  others : AgreeOn
    (chain (call.run earlier).world.permissionStores (call.run earlier).world.permissionsInUse)ᶜ
    (call.run (earlier ++ .own :: later)).world.permissionStores
    (call.world.without (earlier ++ .own :: later)).permissionStores

/-- A call keeps to one permission store, whatever the other tasks do. -/
structure KeepsToStore (call : Interrupted α) : Prop where
  leftAlone : ∀ schedule, (∀ earlier later, schedule = earlier ++ .own :: later →
    ¬(call.run earlier).Asks) → call.LeftAlone schedule
  keptToStore : ∀ earlier later, (call.run earlier).Asks → call.KeptToStore earlier later

/-- A call that is about to ask has not asked before. -/
lemma Unasked.of_asks (h : Unasked rest call alone)
    (hrest : ∀ next, rest next → ∀ place, (next place).Only (Call.IsTo place))
    {schedule : List Turn} (hasks : (call.run schedule).Asks) :
    Unasked rest (call.run schedule) (alone.without schedule) := by
  -- Had it asked before, it would send requests to one store only and never ask again.
  obtain hunasked | ⟨earlier, later, next, rfl, hnext, hask, hunasked⟩ := h.run schedule
  · exact hunasked
  · have hasked := (Asked.ask hunasked hask (hrest next hnext _)).run later
    rw [run_append] at hasks
    exact absurd hasks hasked.not_asks

/-- A call that asks once and then keeps to the answer keeps to one store. -/
theorem Unasked.keepsToStore (h : Unasked rest call call.world)
    (hrest : ∀ next, rest next → ∀ place, (next place).Only (Call.IsTo place)) :
    call.KeepsToStore where
  leftAlone schedule hnever := by
    obtain hunasked | ⟨earlier, later, next, hschedule, -, hask, -⟩ := h.run schedule
    · exact ⟨fun step hstep place => (hunasked.trace step hstep).not_isTo place,
        hunasked.alike.permissionStores_eq⟩
    · exact absurd ⟨next, hask⟩ (hnever earlier later hschedule)
  keptToStore earlier later hasks := by
    have hunasked := h.of_asks hrest hasks
    obtain ⟨next, hask⟩ := hasks
    have hnext := hrest next (Flow.AsksOnce.of_asks (hask ▸ hunasked.flow))
    have hasked := (Asked.ask hunasked hask (hnext _)).run later
    constructor
    · rw [run_append]
      exact hasked.trace
    · rw [run_append, World.without, List.foldl_append]
      exact hasked.alike.agree

/-! ## How long a call goes on -/

/-- A call whose flow ends within some steps is done after as many turns of its own. -/
theorem exists_done_of_endsWithin (schedule : List Turn) {n : Nat} (h : call.flow.EndsWithin n)
    (hn : n ≤ schedule.countP Turn.isOwn) : ∃ result, (call.run schedule).flow = .done result := by
  -- Only the call's own turns count; each takes one step off the bound.
  induction schedule generalizing call n with
  | nil =>
    obtain rfl := Nat.le_zero.1 hn
    exact h.exists_done
  | cons turn schedule ih =>
    cases turn with
    | other i =>
      have hother : (call.turn (.other i)).flow.EndsWithin n := h
      rw [List.countP_cons_of_neg (by simp [Turn.isOwn])] at hn
      exact ih hother hn
    | own =>
      rw [List.countP_cons_of_pos rfl] at hn
      rcases hm : call.flow with a | ⟨c, next⟩
      · rw [run_own_done hm]
        refine ih (n := 0) ?_ (Nat.zero_le _)
        rw [hm]
        exact .done 0 a
      · rw [hm] at h
        cases n with
        | zero => exact absurd h id
        | succ n =>
          have hstep : (call.turn .own).flow.EndsWithin n := by
            rw [turn_own_call hm]
            exact h _
          exact ih hstep (Nat.le_of_succ_le_succ hn)

end Interrupted

end Gatehouse
