/-!
# Registries

A registry holds the value in use at present, and lets it be swapped for another.  A swap leaves
a receipt, with which the value from before that swap can be put back at any later time, once,
by whoever holds it; a receipt that is thrown away leaves the new value in place.

Several handles may refer to one registry, and then all of them see every swap.
-/

namespace Gatehouse

/-! ## One registry -/

/-- The place where the value in use is kept. -/
structure Slot (V : Type) where
  current : V

/-- What is needed to undo a swap: the value that was in use before it. -/
structure Receipt (V : Type) where
  previous : V

namespace Slot

variable {V : Type}

/-- Puts a value to use. -/
def replace (slot : Slot V) (value : V) : Slot V × Receipt V := (⟨value⟩, ⟨slot.current⟩)

/-- Undoes the swap that a receipt was left by. -/
def restore (_ : Slot V) (receipt : Receipt V) : Slot V := ⟨receipt.previous⟩

end Slot

/-! ## Many registries -/

/-- A receipt under the name it is kept by, with the slot it belongs to. -/
structure Guard (V : Type) where
  name : String
  slot : Nat
  receipt : Receipt V

/-- Registries with the handles to them and the receipts that are kept. -/
structure Registries (V : Type) where
  slots : List (Slot V)
  /-- the slot that each handle refers to -/
  handles : List Nat
  guards : List (Guard V)

namespace Registries

variable {V : Type}

/-- One registry with one handle. -/
def single (value : V) : Registries V := ⟨[⟨value⟩], [0], []⟩

/-- What can be done with registries. -/
inductive Step (V : Type) where
  /-- a value is put to use; without a name its receipt is thrown away at once -/
  | replace (handle : Nat) (value : V) (guard : Option String)
  /-- the receipt of that name is used up -/
  | restore (guard : String)
  /-- the receipt of that name is thrown away -/
  | drop (guard : String)
  /-- one more handle to the same registry -/
  | clone (handle : Nat)
  /-- one more registry, with a handle to it -/
  | new (value : V)

/-- The value that a handle shows. -/
def shown? (rs : Registries V) (handle : Nat) : Option V :=
  (rs.handles[handle]?).bind fun i => (rs.slots[i]?).map Slot.current

/-- The values that the handles show. -/
def shown (rs : Registries V) : List V :=
  rs.handles.filterMap fun i => (rs.slots[i]?).map Slot.current

/-- The receipt kept under a name. -/
def guard? (rs : Registries V) (name : String) : Option (Guard V) :=
  rs.guards.find? fun g => g.name == name

/-- The receipts kept under other names. -/
def otherGuards (rs : Registries V) (name : String) : List (Guard V) :=
  rs.guards.filter fun g => g.name != name

/-- One step, and the earlier value it has to do with: the one a swap replaced, or the one a
receipt brings back.  A step through a handle or a name that does not exist does nothing. -/
def step (rs : Registries V) : Step V → Option V × Registries V
  | .replace handle value name =>
    match rs.handles[handle]? with
    | none => (none, rs)
    | some i =>
      match rs.slots[i]? with
      | none => (none, rs)
      | some slot =>
        let (slot, receipt) := slot.replace value
        let guards := match name with
          | none => rs.guards
          | some name => ⟨name, i, receipt⟩ :: rs.otherGuards name
        (some receipt.previous, { rs with slots := rs.slots.set i slot, guards := guards })
  | .restore name =>
    match rs.guard? name with
    | none => (none, rs)
    | some g =>
      let slots := match rs.slots[g.slot]? with
        | none => rs.slots
        | some slot => rs.slots.set g.slot (slot.restore g.receipt)
      (some g.receipt.previous, { rs with slots := slots, guards := rs.otherGuards name })
  | .drop name => (none, { rs with guards := rs.otherGuards name })
  | .clone handle =>
    match rs.handles[handle]? with
    | none => (none, rs)
    | some i => (none, { rs with handles := rs.handles ++ [i] })
  | .new value =>
    (none, { rs with slots := rs.slots ++ [⟨value⟩], handles := rs.handles ++ [rs.slots.length] })

end Registries

end Gatehouse
