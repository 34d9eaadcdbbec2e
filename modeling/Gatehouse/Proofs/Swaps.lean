import Gatehouse.Store.Registry
import Mathlib.Data.List.Basic
import Mathlib.Data.List.Induction
import Mathlib.Logic.Relation
import Mathlib.Tactic.Lemma

/-!
# Swaps and what undoes them

Handles that come from one another by cloning refer to one slot, and no other handles do
(`Registries.handles_eq_iff`).  A step sets one slot at most, and what it sets it to was put there
before or is put there now (`Registries.slots_step`, `Registries.Traced`), so what a handle shows is
settled by the steps on its own slot.

What a receipt is good for does not depend on what comes after the swap that left it.  The name it
is kept by is the only thing that ties it to the swap, so "the swap's own receipt" means that no
step in between has to do with the name (`Registries.LeftBy`).  Undoing swaps in the reverse order,
each by its own receipt, therefore takes every slot back to where it was
(`Registries.slots_of_nested`).
-/

namespace Gatehouse.Registries

variable {V : Type}

/-! ## Runs -/

/-- No registries. -/
def empty : Registries V := ⟨[], [], []⟩

/-- The registries after some steps. -/
def run (rs : Registries V) (steps : List (Step V)) : Registries V :=
  steps.foldl (fun rs st => (rs.step st).2) rs

/-- What some steps make out of nothing. -/
def reached (steps : List (Step V)) : Registries V := empty.run steps

variable {rs : Registries V} {steps before between after inner rest : List (Step V)} {st : Step V}
  {handle slot : Nat} {value : V} {name : String}

@[simp] lemma run_cons (rs : Registries V) (st : Step V) (steps : List (Step V)) :
    rs.run (st :: steps) = (rs.step st).2.run steps := rfl

@[simp] lemma run_append (rs : Registries V) (before after : List (Step V)) :
    rs.run (before ++ after) = (rs.run before).run after := List.foldl_append

lemma reached_append (before after : List (Step V)) :
    reached (before ++ after) = (reached before).run after := run_append _ _ _

/-! ## What a step changes -/

namespace Step

/-- The slot that a step sets, and the value. -/
def put? (rs : Registries V) : Step V → Option (Nat × V)
  | replace handle value _ => (rs.handles[handle]?).map fun slot => (slot, value)
  | restore name => (rs.guard? name).map fun g => (g.slot, g.receipt.previous)
  | _ => none

/-- The value of the slot that a step makes. -/
def made? : Step V → Option V
  | new value => some value
  | _ => none

/-- The slot that a new handle refers to. -/
def referred? (rs : Registries V) : Step V → Option Nat
  | clone handle => rs.handles[handle]?
  | new _ => some rs.slots.length
  | _ => none

/-- The name of the receipt that a step has to do with. -/
def guard? : Step V → Option String
  | replace _ _ name => name
  | restore name => some name
  | drop name => some name
  | _ => none

/-- The slot that a step is about, when it is there already. -/
def slot? (rs : Registries V) : Step V → Option Nat
  | replace handle _ _ => rs.handles[handle]?
  | clone handle => rs.handles[handle]?
  | restore name => (rs.guard? name).map Guard.slot
  | drop name => (rs.guard? name).map Guard.slot
  | new _ => none

end Step

/-- What is in a list behind which something may have been put was there before, or was put
there. -/
lemma getElem?_append_toList {α : Type} {l : List α} {o : Option α} {i : Nat} {a : α}
    (h : (l ++ o.toList)[i]? = some a) : l[i]? = some a ∨ i = l.length ∧ o = some a := by
  rw [List.getElem?_append] at h
  split at h
  · exact .inl h
  · cases o with
    | none => exact nomatch h
    | some b =>
      rw [Option.toList_some, List.getElem?_singleton] at h
      split at h
      · exact .inr ⟨by omega, h⟩
      · exact nomatch h

/-- A step sets one slot at most, and may add one. -/
lemma slots_step (rs : Registries V) (st : Step V) :
    (rs.step st).2.slots =
      ((st.put? rs).elim rs.slots fun put => rs.slots.set put.1 ⟨put.2⟩) ++
        st.made?.toList.map Slot.mk := by
  cases st with
  | replace handle value name =>
    cases hhandle : rs.handles[handle]? with
    | none => simp [step, Step.put?, Step.made?, hhandle]
    | some i =>
      cases hslot : rs.slots[i]? with
      | none =>
        -- There is no such slot: nothing is set, and setting a place that is not there changes
        -- nothing.
        have hset := List.set_eq_of_length_le (a := Slot.mk value)
          (List.getElem?_eq_none_iff.1 hslot)
        simp [step, Step.put?, Step.made?, hhandle, hslot, hset]
      | some slot => simp [step, Step.put?, Step.made?, hhandle, hslot, Slot.replace]
  | restore name =>
    cases hguard : rs.guard? name with
    | none => simp [step, Step.put?, Step.made?, hguard]
    | some g =>
      cases hslot : rs.slots[g.slot]? with
      | none =>
        have hset := List.set_eq_of_length_le (a := Slot.mk g.receipt.previous)
          (List.getElem?_eq_none_iff.1 hslot)
        simp [step, Step.put?, Step.made?, hguard, hslot, hset]
      | some slot => simp [step, Step.put?, Step.made?, hguard, hslot, Slot.restore]
  | drop name => simp [step, Step.put?, Step.made?]
  | clone handle =>
    cases hhandle : rs.handles[handle]? <;> simp [step, Step.put?, Step.made?, hhandle]
  | new value => simp [step, Step.put?, Step.made?]

/-- Handles stay, and a step may add one. -/
lemma handles_step (rs : Registries V) (st : Step V) :
    (rs.step st).2.handles = rs.handles ++ (st.referred? rs).toList := by
  cases st with
  | replace handle value name =>
    cases hhandle : rs.handles[handle]? with
    | none => simp [step, Step.referred?, hhandle]
    | some i => cases hslot : rs.slots[i]? <;> simp [step, Step.referred?, hhandle, hslot]
  | restore name => cases hguard : rs.guard? name <;> simp [step, Step.referred?, hguard]
  | drop name => simp [step, Step.referred?]
  | clone handle => cases hhandle : rs.handles[handle]? <;> simp [step, Step.referred?, hhandle]
  | new value => simp [step, Step.referred?]

/-- Other receipts are what they were when one is put under its name or taken from it. -/
lemma find?_otherGuards {name other : String} (h : name ≠ other) (rs : Registries V) :
    (rs.otherGuards other).find? (fun g => g.name == name) = rs.guard? name := by
  rw [otherGuards, List.find?_filter, guard?]
  congr 1
  funext g
  by_cases hg : g.name = name <;> simp_all

/-- A step that has nothing to do with a name leaves its receipt as it is. -/
lemma guard?_step (h : st.guard? ≠ some name) : (rs.step st).2.guard? name = rs.guard? name := by
  cases st with
  | replace handle value other =>
    cases hhandle : rs.handles[handle]? with
    | none => simp [step, hhandle]
    | some i =>
      cases hslot : rs.slots[i]? with
      | none => simp [step, hhandle, hslot]
      | some slot =>
        cases other with
        | none => simp [step, hhandle, hslot, guard?]
        | some other =>
          have hne : name ≠ other := fun heq => h (congrArg some heq.symm)
          simpa [step, hhandle, hslot, guard?, hne.symm] using find?_otherGuards hne rs
  | restore other =>
    have hne : name ≠ other := fun heq => h (congrArg some heq.symm)
    cases hguard : rs.guard? other with
    | none => simp [step, hguard]
    | some g =>
      simp only [step, hguard]
      exact find?_otherGuards hne rs
  | drop other => exact find?_otherGuards (fun heq => h (congrArg some heq.symm)) rs
  | clone handle => cases hhandle : rs.handles[handle]? <;> simp [step, hhandle, guard?]
  | new value => rfl

lemma guard?_run (h : ∀ st ∈ steps, st.guard? ≠ some name) :
    (rs.run steps).guard? name = rs.guard? name := by
  induction steps generalizing rs with
  | nil => rfl
  | cons st steps ih =>
    rw [List.forall_mem_cons] at h
    exact (ih h.2).trans (guard?_step h.1)

/-- A swap keeps under the name what its slot had. -/
lemma guard?_replace {s : Slot V} (hhandle : rs.handles[handle]? = some slot)
    (hslot : rs.slots[slot]? = some s) (value : V) (name : String) :
    (rs.step (.replace handle value name)).2.guard? name = some ⟨name, slot, ⟨s.current⟩⟩ := by
  simp [step, hhandle, hslot, guard?, Slot.replace]

/-! ## Handles and slots that are there -/

/-- What handles and receipts refer to is there. -/
structure Sound (rs : Registries V) : Prop where
  handles : ∀ slot ∈ rs.handles, slot < rs.slots.length
  guards : ∀ g ∈ rs.guards, g.slot < rs.slots.length

lemma length_slots_step (rs : Registries V) (st : Step V) :
    (rs.step st).2.slots.length = rs.slots.length + st.made?.toList.length := by
  rw [slots_step, List.length_append, List.length_map]
  cases st.put? rs <;> simp

lemma mem_guards_step {g : Guard V} (h : g ∈ (rs.step st).2.guards) :
    g ∈ rs.guards ∨ ∃ handle value s, st = .replace handle value (some g.name) ∧
      rs.handles[handle]? = some g.slot ∧ rs.slots[g.slot]? = some s ∧
        g.receipt = ⟨s.current⟩ := by
  have hothers : ∀ name, g ∈ rs.otherGuards name → g ∈ rs.guards := fun name hg =>
    (List.mem_filter.1 hg).1
  cases st with
  | replace handle value name =>
    cases hhandle : rs.handles[handle]? with
    | none => simp only [step, hhandle] at h; exact .inl h
    | some i =>
      cases hslot : rs.slots[i]? with
      | none => simp only [step, hhandle, hslot] at h; exact .inl h
      | some s =>
        simp only [step, hhandle, hslot] at h
        cases name with
        | none => exact .inl h
        | some name =>
          obtain rfl | hg := List.mem_cons.1 h
          · exact .inr ⟨handle, value, s, rfl, hhandle, hslot, rfl⟩
          · exact .inl (hothers name hg)
  | restore name =>
    cases hguard : rs.guard? name with
    | none => simp only [step, hguard] at h; exact .inl h
    | some _ => simp only [step, hguard] at h; exact .inl (hothers name h)
  | drop name => exact .inl (hothers name h)
  | clone handle =>
    cases hhandle : rs.handles[handle]? <;> simp only [step, hhandle] at h <;> exact .inl h
  | new value => exact .inl h

namespace Sound

lemma step (h : rs.Sound) (st : Step V) : (rs.step st).2.Sound where
  handles i hi := by
    rw [length_slots_step]
    rw [handles_step, List.mem_append] at hi
    rcases hi with hi | hi
    · exact Nat.lt_add_right _ (h.handles i hi)
    · cases st with
      | clone handle =>
        have hmem : i ∈ rs.handles := List.mem_of_getElem? (Option.mem_toList.1 hi)
        exact Nat.lt_add_right _ (h.handles i hmem)
      | new value =>
        obtain rfl : rs.slots.length = i := Option.some.inj (Option.mem_toList.1 hi)
        exact Nat.lt_succ_self _
      | _ => exact absurd hi List.not_mem_nil
  guards g hg := by
    rw [length_slots_step]
    refine Nat.lt_add_right _ ?_
    obtain hg | ⟨handle, value, s, -, -, hslot, -⟩ := mem_guards_step hg
    · exact h.guards g hg
    · exact (List.getElem?_eq_some_iff.1 hslot).1

lemma run (h : rs.Sound) (steps : List (Step V)) : (rs.run steps).Sound := by
  induction steps generalizing rs with
  | nil => exact h
  | cons st steps ih => exact ih (h.step st)

end Sound

lemma sound_reached (steps : List (Step V)) : (reached steps).Sound :=
  Sound.run ⟨fun _ h => absurd h List.not_mem_nil, fun _ h => absurd h List.not_mem_nil⟩ steps

/-- A handle that is there shows the value of a slot. -/
lemma Sound.exists_slot (h : rs.Sound) (hhandle : rs.handles[handle]? = some slot) :
    ∃ s, rs.slots[slot]? = some s ∧ rs.shown? handle = some s.current := by
  have hlt := h.handles slot (List.mem_of_getElem? hhandle)
  refine ⟨rs.slots[slot], List.getElem?_eq_getElem hlt, ?_⟩
  rw [shown?, hhandle, Option.bind_some, List.getElem?_eq_getElem hlt, Option.map_some]

lemma handles_run_prefix (rs : Registries V) (steps : List (Step V)) :
    rs.handles <+: (rs.run steps).handles := by
  induction steps generalizing rs with
  | nil => exact List.prefix_refl _
  | cons st steps ih =>
    refine List.IsPrefix.trans ?_ (ih _)
    rw [handles_step]
    exact List.prefix_append _ _

/-- What a handle refers to does not change. -/
lemma getElem?_handles_run (h : handle < rs.handles.length) (steps : List (Step V)) :
    (rs.run steps).handles[handle]? = rs.handles[handle]? := by
  obtain ⟨later, hlater⟩ := handles_run_prefix rs steps
  rw [← hlater, List.getElem?_append_left h]

lemma length_slots_run (rs : Registries V) (steps : List (Step V)) :
    rs.slots.length ≤ (rs.run steps).slots.length := by
  induction steps generalizing rs with
  | nil => exact Nat.le_refl _
  | cons st steps ih =>
    refine Nat.le_trans ?_ (ih _)
    rw [length_slots_step]
    exact Nat.le_add_right _ _

lemma reached_snoc (steps : List (Step V)) (st : Step V) :
    reached (steps ++ [st]) = ((reached steps).step st).2 := reached_append steps [st]

/-! ## Clones -/

/-- The second handle was made by cloning the first. -/
def ClonedFrom (steps : List (Step V)) (handle clone : Nat) : Prop :=
  ∃ before after, steps = before ++ .clone handle :: after ∧
    handle < (reached before).handles.length ∧ clone = (reached before).handles.length

lemma ClonedFrom.snoc {clone : Nat} (h : ClonedFrom steps handle clone) (st : Step V) :
    ClonedFrom (steps ++ [st]) handle clone := by
  obtain ⟨before, after, rfl, hclone⟩ := h
  exact ⟨before, after ++ [st], by rw [List.append_assoc, List.cons_append], hclone⟩

lemma ClonedFrom.handles_eq {clone : Nat} (h : ClonedFrom steps handle clone) :
    (reached steps).handles[handle]? = (reached steps).handles[clone]? := by
  obtain ⟨before, after, rfl, hlt, rfl⟩ := h
  have hslot : (reached before).handles[handle]? = some (reached before).handles[handle] :=
    List.getElem?_eq_getElem hlt
  have hnow : ((reached before).step (.clone handle)).2.handles =
      (reached before).handles ++ [(reached before).handles[handle]] := by
    rw [handles_step, Step.referred?, hslot, Option.toList_some]
  rw [reached_append, run_cons, getElem?_handles_run (by rw [hnow, List.length_append]; omega),
    getElem?_handles_run (by rw [hnow, List.length_append, List.length_singleton]; omega), hnow,
    List.getElem?_append_left hlt, List.getElem?_concat_length, hslot]

/-- A handle that is made refers to the same slot as its clones. -/
lemma kin_of_referred {other : Nat} (hother : (reached steps).handles[other]? = some slot)
    (ih : ∀ handle, (reached steps).handles[handle]? = some slot →
      Relation.EqvGen (ClonedFrom steps) other handle)
    (hreferred : st.referred? (reached steps) = some slot) :
    Relation.EqvGen (ClonedFrom (steps ++ [st])) other (reached steps).handles.length := by
  cases st with
  | clone handle =>
    refine ((ih handle hreferred).mono fun _ _ h => h.snoc _).trans _ _ _ (.rel _ _ ?_)
    exact ⟨steps, [], rfl, (List.getElem?_eq_some_iff.1 hreferred).1, rfl⟩
  | new value =>
    -- The slot that is made has not been there, so no handle can have referred to it.
    obtain rfl : (reached steps).slots.length = slot := Option.some.inj hreferred
    exact absurd ((sound_reached steps).handles _ (List.mem_of_getElem? hother)) (Nat.lt_irrefl _)
  | _ => exact nomatch hreferred

/-- A handle was there before the step, or is the one that the step made. -/
lemma getElem?_handles_step (h : (rs.step st).2.handles[handle]? = some slot) :
    rs.handles[handle]? = some slot ∨
      handle = rs.handles.length ∧ st.referred? rs = some slot := by
  rw [handles_step] at h
  exact getElem?_append_toList h

/-- Handles that refer to one slot come from one another by cloning. -/
lemma kin_of_handles_eq (steps : List (Step V)) :
    ∀ {handle other slot : Nat}, (reached steps).handles[handle]? = some slot →
      (reached steps).handles[other]? = some slot →
        Relation.EqvGen (ClonedFrom steps) handle other := by
  -- On the steps from the last one back: each of the two handles was there before it or was made by
  -- it, and a step makes one handle at most.
  induction steps using List.reverseRecOn with
  | nil => exact fun h => nomatch h
  | append_singleton steps st ih =>
    intro handle other slot hhandle hother
    rw [reached_snoc] at hhandle hother
    obtain hhandle | ⟨rfl, hreferred⟩ := getElem?_handles_step hhandle <;>
      obtain hother | ⟨rfl, hreferred'⟩ := getElem?_handles_step hother
    · exact (ih hhandle hother).mono fun _ _ h => h.snoc st
    · exact kin_of_referred hhandle (fun _ => ih hhandle) hreferred'
    · exact (kin_of_referred hother (fun _ => ih hother) hreferred).symm
    · exact .refl _

lemma handles_eq_of_kin {handle other : Nat} (h : Relation.EqvGen (ClonedFrom steps) handle other) :
    (reached steps).handles[handle]? = (reached steps).handles[other]? := by
  induction h with
  | rel _ _ h => exact h.handles_eq
  | refl => rfl
  | symm _ _ _ ih => exact ih.symm
  | trans _ _ _ _ _ ih ih' => exact ih.trans ih'

/-- Handles refer to one slot exactly when they come from one another by cloning. -/
theorem kin_iff {other : Nat} (h : handle < (reached steps).handles.length) :
    Relation.EqvGen (ClonedFrom steps) handle other ↔
      (reached steps).handles[handle]? = (reached steps).handles[other]? := by
  refine ⟨handles_eq_of_kin, fun heq => ?_⟩
  rw [List.getElem?_eq_getElem h] at heq
  exact kin_of_handles_eq steps (List.getElem?_eq_getElem h) heq.symm

/-! ## What a handle shows -/

lemma shown?_eq (rs : Registries V) (h : rs.handles[handle]? = some slot) :
    rs.shown? handle = (rs.slots[slot]?).map Slot.current := by
  rw [shown?, h, Option.bind_some]

/-- A step on another slot does not show. -/
theorem shown?_step (hsound : rs.Sound) (h : rs.handles[handle]? = some slot)
    (hslot : st.slot? rs ≠ some slot) : (rs.step st).2.shown? handle = rs.shown? handle := by
  have hlt := hsound.handles slot (List.mem_of_getElem? h)
  have hput : ((st.put? rs).elim rs.slots fun put => rs.slots.set put.1 ⟨put.2⟩)[slot]? =
      rs.slots[slot]? := by
    cases hput : st.put? rs with
    | none => rfl
    | some put =>
      refine List.getElem?_set_ne fun heq => hslot ?_
      cases st with
      | replace handle value name =>
        obtain ⟨i, hi, rfl⟩ := Option.map_eq_some_iff.1 hput
        exact hi.trans (congrArg some heq)
      | restore name =>
        obtain ⟨g, hg, rfl⟩ := Option.map_eq_some_iff.1 hput
        exact (congrArg (Option.map Guard.slot) hg).trans (congrArg some heq)
      | _ => exact nomatch hput
  have hhandle : (rs.step st).2.handles[handle]? = some slot := by
    rw [handles_step, List.getElem?_append_left (List.getElem?_eq_some_iff.1 h).1, h]
  rw [shown?_eq _ hhandle, shown?_eq _ h, slots_step, List.getElem?_append_left, hput]
  cases st.put? rs with
  | none => exact hlt
  | some put => exact Nat.lt_of_lt_of_eq hlt List.length_set.symm

/-- The step makes the slot with a value, or puts the value to use in it. -/
def Step.Brings (rs : Registries V) (slot : Nat) (value : V) : Step V → Prop
  | replace handle put _ => rs.handles[handle]? = some slot ∧ put = value
  | new made => slot = rs.slots.length ∧ made = value
  | _ => False

/-- Some step made the slot with a value, or put the value to use in it. -/
def Brought (steps : List (Step V)) (slot : Nat) (value : V) : Prop :=
  ∃ before st after, steps = before ++ st :: after ∧ st.Brings (reached before) slot value

lemma Brought.snoc (h : Brought steps slot value) (st : Step V) :
    Brought (steps ++ [st]) slot value := by
  obtain ⟨before, st', after, rfl, hbrings⟩ := h
  exact ⟨before, st', after ++ [st], by rw [List.append_assoc, List.cons_append], hbrings⟩

lemma brought_last (h : st.Brings (reached steps) slot value) :
    Brought (steps ++ [st]) slot value :=
  ⟨steps, st, [], rfl, h⟩

/-- Every value that a slot has, or that a receipt would put back, was brought to that slot. -/
structure Traced (steps : List (Step V)) : Prop where
  slots : ∀ i s, (reached steps).slots[i]? = some s → Brought steps i s.current
  guards : ∀ g ∈ (reached steps).guards, Brought steps g.slot g.receipt.previous

/-- What is in a slot after a step was there before, or is put there or made by the step. -/
lemma slot_of_step {s : Slot V} (h : (rs.step st).2.slots[slot]? = some s) :
    rs.slots[slot]? = some s ∨ st.put? rs = some (slot, s.current) ∨
      st.made? = some s.current ∧ slot = rs.slots.length := by
  have hlength : ((st.put? rs).elim rs.slots fun put => rs.slots.set put.1 ⟨put.2⟩).length =
      rs.slots.length := by
    cases st.put? rs with
    | none => rfl
    | some put => exact List.length_set
  rw [slots_step, ← Option.toList_map] at h
  obtain h | ⟨rfl, hmade⟩ := getElem?_append_toList h
  · cases hput : st.put? rs with
    | none => exact .inl (by rwa [hput] at h)
    | some put =>
      rw [hput, Option.elim_some, List.getElem?_set] at h
      split at h
      · next heq =>
        split at h
        · obtain rfl : ⟨put.2⟩ = s := Option.some.inj h
          exact .inr (.inl (heq ▸ rfl))
        · exact nomatch h
      · exact .inl h
  · obtain ⟨value, hvalue, rfl⟩ := Option.map_eq_some_iff.1 hmade
    exact .inr (.inr ⟨hvalue, hlength⟩)

lemma Traced.snoc (h : Traced steps) (st : Step V) : Traced (steps ++ [st]) where
  slots i s hs := by
    rw [reached_snoc] at hs
    obtain hs | hput | ⟨hmade, rfl⟩ := slot_of_step hs
    · exact (h.slots i s hs).snoc st
    · cases st with
      | replace handle value name =>
        obtain ⟨j, hj, heq⟩ := Option.map_eq_some_iff.1 hput
        obtain ⟨rfl, rfl⟩ := Prod.mk.inj heq
        exact brought_last ⟨hj, rfl⟩
      | restore name =>
        obtain ⟨g, hg, heq⟩ := Option.map_eq_some_iff.1 hput
        obtain ⟨rfl, hvalue⟩ := Prod.mk.inj heq
        rw [← hvalue]
        -- What is put back was in that slot once; this is why receipts have to be traced too.
        exact (h.guards g (List.mem_of_find?_eq_some hg)).snoc _
      | _ => exact nomatch hput
    · cases st with
      | new value => exact brought_last ⟨rfl, Option.some.inj hmade⟩
      | _ => exact nomatch hmade
  guards g hg := by
    rw [reached_snoc] at hg
    obtain hg | ⟨handle, value, s, -, -, hslot, hreceipt⟩ := mem_guards_step hg
    · exact (h.guards g hg).snoc st
    · rw [hreceipt]
      exact (h.slots _ _ hslot).snoc st

theorem traced_reached (steps : List (Step V)) : Traced steps := by
  induction steps using List.reverseRecOn with
  | nil =>
    refine ⟨fun _ _ h => ?_, fun _ h => absurd h List.not_mem_nil⟩
    exact nomatch h
  | append_singleton steps st ih => exact ih.snoc st

/-! ## Undoing a swap -/

/-- The receipt kept under a name was left by the swap through a handle that came after some steps:
no step since then has to do with the name. -/
def LeftBy (steps : List (Step V)) (name : String) (before : List (Step V)) (handle : Nat) : Prop :=
  handle < (reached before).handles.length ∧
    ∃ value between, steps = before ++ .replace handle value (some name) :: between ∧
      ∀ st ∈ between, st.guard? ≠ some name

/-- The receipt of a swap keeps what the slot had just before it. -/
lemma guard?_of_swap (hsound : rs.Sound) (h : rs.handles[handle]? = some slot) (value : V)
    (hbetween : ∀ st ∈ between, st.guard? ≠ some name) :
    ∃ s, rs.slots[slot]? = some s ∧ rs.shown? handle = some s.current ∧
      (rs.run (.replace handle value (some name) :: between)).guard? name =
        some ⟨name, slot, ⟨s.current⟩⟩ := by
  obtain ⟨s, hslot, hshown⟩ := hsound.exists_slot h
  exact ⟨s, hslot, hshown, (guard?_run hbetween).trans (guard?_replace h hslot value name)⟩

/-- A receipt that is used up puts back what it keeps. -/
lemma slots_restore {g : Guard V} (h : rs.guard? name = some g) :
    (rs.step (.restore name)).2.slots = rs.slots.set g.slot ⟨g.receipt.previous⟩ := by
  rw [slots_step, Step.put?, h]
  exact List.append_nil _

lemma handles_restore (rs : Registries V) (name : String) :
    (rs.step (.restore name)).2.handles = rs.handles := by
  rw [handles_step]
  exact List.append_nil _

/-- Undoing a swap puts the value from before it to use again, and every handle to the slot shows
it. -/
theorem restore_of_leftBy (h : LeftBy steps name before handle) :
    ((reached steps).step (.restore name)).1 = (reached before).shown? handle ∧
      ∀ other, (reached steps).handles[other]? = (reached steps).handles[handle]? →
        ((reached steps).step (.restore name)).2.shown? other = (reached before).shown? handle := by
  obtain ⟨hlt, value, between, rfl, hbetween⟩ := h
  have hhandle := List.getElem?_eq_getElem hlt
  generalize (reached before).handles[handle] = slot at hhandle
  obtain ⟨s, hslot, hshown, hguard⟩ :=
    guard?_of_swap (sound_reached before) hhandle value hbetween
  have hstill : slot < ((reached before).run
      (.replace handle value (some name) :: between)).slots.length :=
    Nat.lt_of_lt_of_le (List.getElem?_eq_some_iff.1 hslot).1 (length_slots_run _ _)
  rw [reached_append, getElem?_handles_run hlt, hhandle, hshown]
  constructor
  · rw [step, hguard]
  · intro other hother
    rw [shown?_eq _ ((congrArg (·[other]?) (handles_restore _ name)).trans hother),
      slots_restore hguard, List.getElem?_set_self hstill]
    rfl

/-! ## Swaps that are undone in the reverse order -/

/-- Each swap is undone by its own receipt, after all swaps that came between. -/
inductive Nested : List (Step V) → Prop
  | nil : Nested []
  | clone (handle : Nat) {rest : List (Step V)} : Nested rest → Nested (.clone handle :: rest)
  | new (value : V) {rest : List (Step V)} : Nested rest → Nested (.new value :: rest)
  | drop (name : String) {rest : List (Step V)} : Nested rest → Nested (.drop name :: rest)
  | swap (handle : Nat) (value : V) (name : String) {inner rest : List (Step V)} :
    Nested inner → (∀ st ∈ inner, st.guard? ≠ some name) → Nested rest →
      Nested (.replace handle value (some name) :: inner ++ .restore name :: rest)

/-- Values are put to use through handles that are there. -/
def HandlesThere : Registries V → List (Step V) → Prop
  | _, [] => True
  | rs, .replace handle value name :: rest =>
    handle < rs.handles.length ∧ HandlesThere (rs.step (.replace handle value name)).2 rest
  | rs, st :: rest => HandlesThere (rs.step st).2 rest

lemma HandlesThere.tail (h : rs.HandlesThere (st :: rest)) : (rs.step st).2.HandlesThere rest := by
  cases st with
  | replace => exact h.2
  | _ => exact h

lemma handlesThere_append (rs : Registries V) (before after : List (Step V)) :
    rs.HandlesThere (before ++ after) ↔
      rs.HandlesThere before ∧ (rs.run before).HandlesThere after := by
  induction before generalizing rs with
  | nil => exact (and_iff_right trivial).symm
  | cons st before ih =>
    cases st with
    | replace handle value name => exact (and_congr_right fun _ => ih _).trans and_assoc.symm
    | _ => exact ih _

/-- The slots that steps make, each with the value it is made with. -/
def made (steps : List (Step V)) : List (Slot V) := (steps.filterMap Step.made?).map Slot.mk

lemma made_append (before after : List (Step V)) :
    made (before ++ after) = made before ++ made after := by
  rw [made, List.filterMap_append, List.map_append]
  rfl

lemma made_cons (st : Step V) (steps : List (Step V)) :
    made (st :: steps) = st.made?.toList.map Slot.mk ++ made steps := by
  rw [made, List.filterMap_cons]
  cases st.made? <;> rfl

/-- A step that sets no slot makes no difference to what comes of the slots, but for the one it
makes. -/
lemma slots_quiet (hput : ∀ rs : Registries V, st.put? rs = none)
    (hrest : ∀ {rs : Registries V}, rs.Sound → rs.HandlesThere rest →
      (rs.run rest).slots = rs.slots ++ made rest) :
    ∀ {rs : Registries V}, rs.Sound → rs.HandlesThere (st :: rest) →
      (rs.run (st :: rest)).slots = rs.slots ++ made (st :: rest) := by
  intro rs hsound hthere
  rw [run_cons, hrest (hsound.step st) hthere.tail, slots_step, hput rs,
    made_cons, ← List.append_assoc]
  rfl

/-- What a swap does is undone when its receipt is used up, as long as the steps in between leave
slots as they are. -/
lemma slots_swap (hsound : rs.Sound) (hthere : handle < rs.handles.length)
    (hname : ∀ st ∈ inner, st.guard? ≠ some name)
    (hinner : ((rs.step (.replace handle value (some name))).2.run inner).slots =
      (rs.step (.replace handle value (some name))).2.slots ++ made inner) :
    (rs.run (.replace handle value (some name) :: inner ++ [.restore name])).slots =
      rs.slots ++ made inner := by
  have hhandle := List.getElem?_eq_getElem hthere
  generalize rs.handles[handle] = slot at hhandle
  obtain ⟨s, hslot, -, hguard⟩ := guard?_of_swap hsound hhandle value hname
  obtain ⟨hlt, rfl⟩ := List.getElem?_eq_some_iff.1 hslot
  rw [run_cons] at hguard
  have hput : (rs.step (.replace handle value (some name))).2.slots =
      rs.slots.set slot ⟨value⟩ := by
    rw [slots_step, Step.put?, hhandle]
    exact List.append_nil _
  -- The receipt still keeps what the slot had, and whatever else the steps in between made stands
  -- behind the slots that were there.
  calc (rs.run (.replace handle value (some name) :: inner ++ [.restore name])).slots
      = (((rs.step (.replace handle value (some name))).2.run inner).step
          (.restore name)).2.slots := by
        rw [run_append]
        rfl
    _ = (rs.slots.set slot ⟨value⟩ ++ made inner).set slot ⟨rs.slots[slot].current⟩ := by
        rw [slots_restore hguard, hinner, hput]
    _ = rs.slots ++ made inner := by
        rw [List.set_append_left _ _ (by rwa [List.length_set]), List.set_set,
          List.set_getElem_self]

/-- Where swaps are undone in the reverse order, slots are in the end what they were at the start,
and those that were made on the way what they were made with. -/
theorem slots_of_nested (h : Nested steps) :
    ∀ {rs : Registries V}, rs.Sound → rs.HandlesThere steps →
      (rs.run steps).slots = rs.slots ++ made steps := by
  -- On how the swaps nest, for any registries: the induction is used inside a swap and again behind
  -- it.
  induction h with
  | nil => exact fun _ _ => (List.append_nil _).symm
  | clone handle _ ih => exact slots_quiet (fun _ => rfl) ih
  | new value _ ih => exact slots_quiet (fun _ => rfl) ih
  | drop name _ ih => exact slots_quiet (fun _ => rfl) ih
  | @swap handle value name inner rest _ hname _ ihinner ihrest =>
    intro rs hsound hthere
    have hsplit : .replace handle value (some name) :: inner ++ .restore name :: rest =
        (.replace handle value (some name) :: inner ++ [.restore name]) ++ rest := by
      rw [List.append_assoc]
      rfl
    have hmade : made (.replace handle value (some name) :: inner ++ [.restore name]) =
        made inner := by
      rw [made_append, made_cons]
      exact List.append_nil _
    rw [hsplit] at hthere ⊢
    rw [handlesThere_append, handlesThere_append] at hthere
    obtain ⟨⟨⟨hlt, hwithin⟩, -⟩, hbehind⟩ := hthere
    rw [run_append, ihrest (hsound.run _) hbehind,
      slots_swap hsound hlt hname (ihinner (hsound.step _) hwithin), made_append, hmade,
      List.append_assoc]

/-! ## Swaps nest -/

/-- Whatever is done with any number of registries: handles that come from one another by cloning
show the same value, and a step on one slot does not show in handles to another; what a handle shows
was brought to its own slot; a receipt that is used puts back what its slot had just before the swap
that left it, and one that is thrown away changes nothing; and where each swap is undone by its own
receipt in the reverse order, slots are in the end what they were at the start. -/
theorem swaps_nest (steps : List (Step V)) :
    let rs := reached steps
    (∀ handle < rs.handles.length, ∀ other,
        (Relation.EqvGen (ClonedFrom steps) handle other ↔
            rs.handles[handle]? = rs.handles[other]?) ∧
          (Relation.EqvGen (ClonedFrom steps) handle other →
            rs.shown? handle = rs.shown? other)) ∧
      (∀ handle slot, rs.handles[handle]? = some slot →
        (∃ value, rs.shown? handle = some value ∧ Brought steps slot value) ∧
          ∀ st : Step V, st.slot? rs ≠ some slot →
            (rs.step st).2.shown? handle = rs.shown? handle) ∧
      (∀ name,
        (∀ before handle, LeftBy steps name before handle →
          (rs.step (.restore name)).1 = (reached before).shown? handle ∧
            ∀ other, rs.handles[other]? = rs.handles[handle]? →
              (rs.step (.restore name)).2.shown? other = (reached before).shown? handle) ∧
          ∀ handle, (rs.step (.drop name)).2.shown? handle = rs.shown? handle) ∧
      ∀ later, Nested later → rs.HandlesThere later →
        (rs.run later).slots = rs.slots ++ made later := by
  intro rs
  have hsound : rs.Sound := sound_reached steps
  refine ⟨fun handle hlt other => ⟨kin_iff hlt, fun hkin => ?_⟩, fun handle slot hhandle =>
    ⟨?_, fun st => shown?_step hsound hhandle⟩, fun name => ⟨fun before handle => restore_of_leftBy,
      fun _ => rfl⟩, fun later hnested => slots_of_nested hnested hsound⟩
  · rw [shown?, shown?, handles_eq_of_kin hkin]
  · obtain ⟨s, hslot, hshown⟩ := hsound.exists_slot hhandle
    exact ⟨s.current, hshown, (traced_reached steps).slots slot s hslot⟩

/-- Two swaps through a handle and its clone: undone in the reverse order they leave no trace, and
when the first is undone first, the value from before it is back all the same. -/
theorem swaps_nest_through_clone :
    let steps : List (Step Nat) := [.new 1, .clone 0, .new 5]
    let swaps : List (Step Nat) := [.replace 0 2 (some "outer"), .replace 1 3 (some "inner")]
    let undone : List (Step Nat) := [.new 7, .restore "inner", .restore "outer"]
    (reached (steps ++ swaps)).shown? 0 = (reached (steps ++ swaps)).shown? 1 ∧
      ((reached (steps ++ swaps)).step (.replace 0 4 none)).2.shown? 2 = some 5 ∧
      ((reached (steps ++ swaps)).step (.restore "outer")).2.shown? 1 = some 1 ∧
      ((reached steps).run (swaps ++ undone)).slots = [⟨1⟩, ⟨5⟩, ⟨7⟩] := by
  intro steps swaps undone
  obtain ⟨hclones, hother, hundo, -⟩ := swaps_nest (steps ++ swaps)
  obtain ⟨-, -, -, hnested⟩ := swaps_nest steps
  refine ⟨?_, ?_, ?_, ?_⟩
  · exact (hclones 0 (by decide) 1).2 (.rel _ _ ⟨[.new 1], _, rfl, by decide, rfl⟩)
  · exact (hother 2 1 rfl).2 (.replace 0 4 none) (by decide)
  · have hleft : LeftBy (steps ++ swaps) "outer" steps 0 :=
      ⟨by decide, 2, [.replace 1 3 (some "inner")], rfl, by simp [Step.guard?]⟩
    exact ((hundo "outer").1 steps 0 hleft).2 1 rfl
  · refine (hnested (swaps ++ undone) ?_ ?_).trans rfl
    · have hnew : Nested [Step.new 7] := .new 7 .nil
      have hinner : Nested [.replace 1 3 (some "inner"), .new 7, .restore "inner"] :=
        .swap 1 3 "inner" hnew (by simp [Step.guard?]) .nil
      exact .swap 0 2 "outer" hinner (by simp [Step.guard?]) .nil
    · exact ⟨by decide, by decide, trivial⟩

end Gatehouse.Registries
