import Gatehouse.Proofs.BatchGrant

/-!
# Operations and what they come to

An operation is a request to one of the stores in use, or one of the administrative flows.
`Operation.history` performs operations one after the other and notes for each whether it
succeeded.

Whatever an operation does to stores in memory it does by deeds: `Operation.deeds` says which,
and `Operation.done_of_run` that an operation that succeeds does exactly these, while one that
fails does nothing at all.  A run of operations is therefore a run of deeds (`history_done`),
and tables reached from nothing are sound.
-/

namespace Gatehouse

/-! ## Operations -/

/-- Something that can be done with the records of a deployment. -/
inductive Operation where
  | users (op : UserOp)
  | roles (op : RoleOp)
  | permissions (op : PermissionOp)
  | createRole (role : Role)
  | createPermission (permission : Permission)
  | grant (role : Uuid) (batch : List Permission)
  | assignRole (user role : Uuid)

/-- An operation that was performed, and whether it succeeded. -/
structure Event where
  operation : Operation
  succeeded : Bool

namespace Operation

/-- The steps of an operation on the stores in use, and whether it succeeds. -/
def flow : Operation → Flow Bool
  | users op => do return (← Flow.users (← Flow.usersInUse) op).isOk
  | roles op => do return (← Flow.roles (← Flow.rolesInUse) op).isOk
  | permissions op => do return (← Flow.permissions (← Flow.permissionsInUse) op).isOk
  | createRole role => do return (← Admin.createRole role).isOk
  | createPermission permission => do return (← Admin.createPermission permission).isOk
  | grant role batch => do return (← Admin.grant role batch).isOk
  | assignRole user role => do return (← Admin.assignRole user role).isOk

/-- Operations performed one after the other. -/
def history : List Operation → Flow (List Event)
  | [] => pure []
  | operation :: rest => do
    let succeeded ← operation.flow
    let events ← history rest
    return ⟨operation, succeeded⟩ :: events

/-- The stores after operations that begin with no records at all. -/
def reached (operations : List Operation) : Stores :=
  ((history operations).run Stores.answer Stores.empty).2

/-- What an operation does when it succeeds. -/
def deeds : Operation → List Deed
  | users (.create user) => [.createUser user]
  | users (.update user) => [.updateUser user]
  | users (.delete id) => [.deleteUser id]
  | roles (.create role) => [.createRole role]
  | roles (.update role) => [.updateRole role]
  | roles (.delete id) => [.deleteRole id]
  | roles (.assign user role) => [.assignRole user role]
  | roles (.revoke user role) => [.revokeRole user role]
  | permissions (.create permission) => [.createPermission permission]
  | permissions (.update permission) => [.updatePermission permission]
  | permissions (.delete id) => [.deletePermission id]
  | permissions (.grant role ids) => ids.map (.grantPermission role)
  | permissions (.revoke role permission) => [.revokePermission role permission]
  | createRole role => [.createRole role]
  | createPermission permission => [.createPermission permission]
  | grant role batch =>
    batch.map .createPermission ++ batch.map fun p => .grantPermission role p.id
  | assignRole user role => [.assignRole user role]
  | _ => []

end Operation

/-- What was done in an event: an operation that failed did nothing. -/
def Event.deeds (event : Event) : List Deed :=
  if event.succeeded then event.operation.deeds else []

/-- What was done in an event is of what its operation does. -/
lemma Event.mem_of_mem_deeds {operation : Operation} {succeeded : Bool} {d : Deed}
    (h : d ∈ Event.deeds ⟨operation, succeeded⟩) : d ∈ operation.deeds := by
  unfold Event.deeds at h
  split at h
  · exact h
  · exact nomatch h

/-! ## Requests as deeds -/

namespace Done

variable {t : Tables}

/-- Grants of permissions that are there, one after the other. -/
lemma grants (role : Uuid) (ids : List Uuid) :
    ∀ {t : Tables}, (∀ id ∈ ids, id ∈ t.permissions.ids) →
      Done t (ids.map (.grantPermission role))
        (t.withPermissions ⟨t.permissions.permissions,
          t.permissions.grants ++ ids.map fun id => (role, id)⟩) := by
  -- Each grant adds a row and no permission, so those still to be granted stay there; the tables
  -- vary with the rows already added.
  induction ids with
  | nil =>
    intro t _
    simpa [Tables.withPermissions] using Done.nil t
  | cons id rest ih =>
    intro t h
    have hrest := ih (t := t.after (.grantPermission role id)) fun i hi =>
      h i (List.mem_cons_of_mem _ hi)
    have hdone := Done.cons (d := .grantPermission role id) (h id List.mem_cons_self) hrest
    simpa [Tables.after, Tables.withPermissions] using hdone

/-- Permissions created one after the other. -/
lemma creations (batch : List Permission) :
    ∀ {t : Tables}, ((t.permissions.permissions ++ batch).map Permission.id).Nodup →
      Done t (batch.map .createPermission)
        (t.withPermissions ⟨t.permissions.permissions ++ batch, t.permissions.grants⟩) := by
  induction batch with
  | nil =>
    intro t _
    simpa [Tables.withPermissions] using Done.nil t
  | cons p rest ih =>
    intro t h
    -- The ids of all that is there and all that is to come are distinct, and so each is free when
    -- its turn comes.
    have hnew : p.id ∉ t.permissions.ids := by
      rw [List.map_append, List.map_cons] at h
      exact fun hmem => List.disjoint_of_nodup_append h hmem List.mem_cons_self
    have hrest := ih (t := t.after (.createPermission p)) (by
      simpa [Tables.after, Tables.withPermissions] using h)
    have hdone := Done.cons (d := .createPermission p) hnew hrest
    simpa [Tables.after, Tables.withPermissions] using hdone

/-- A batch of permissions created and then granted. -/
lemma batch (role : Uuid) (batch : List Permission)
    (h : ((t.permissions.permissions ++ batch).map Permission.id).Nodup) :
    Done t (batch.map .createPermission ++ batch.map fun p => .grantPermission role p.id)
      (t.withPermissions ⟨t.permissions.permissions ++ batch,
        t.permissions.grants ++ grantRows role batch⟩) := by
  have hthere : ∀ id ∈ batch.map Permission.id,
      id ∈ (t.permissions.permissions ++ batch).map Permission.id := fun id hid => by
    rw [List.map_append]
    exact List.mem_append_right _ hid
  have hgrants := grants (t := t.withPermissions
    ⟨t.permissions.permissions ++ batch, t.permissions.grants⟩) role _ hthere
  simp only [List.map_map] at hgrants
  exact (creations batch h).append hgrants

/-- A request to the user store. -/
lemma users (t : Tables) (op : UserOp) :
    Done t (Event.deeds ⟨.users op, (op.step t.users).1.isOk⟩)
      (t.withUsers (op.step t.users).2) := by
  cases op with
  | create user =>
    simp only [UserOp.step, UserTable.create]
    split
    · exact .nil t
    · next h =>
      refine .single ⟨fun hid => h ?_, fun hemail => h ?_⟩
      · obtain ⟨u, hu, heq⟩ := List.mem_map.1 hid
        exact List.any_eq_true.2 ⟨u, hu, by simp [heq]⟩
      · obtain ⟨u, hu, heq⟩ := List.mem_map.1 hemail
        exact List.any_eq_true.2 ⟨u, hu, by simp [heq]⟩
  | update user =>
    simp only [UserOp.step, UserTable.update]
    split
    · next h => exact .single (any_key.1 h)
    · exact .nil t
  | delete id => exact .single trivial
  | find id => exact .nil t
  | findByEmail email => exact .nil t
  | list => exact .nil t

/-- A request to the role store. -/
lemma roles (t : Tables) (op : RoleOp) :
    Done t (Event.deeds ⟨.roles op, (op.step t.roles).1.isOk⟩)
      (t.withRoles (op.step t.roles).2) := by
  cases op with
  | create role =>
    simp only [RoleOp.step, RoleTable.create]
    split
    · exact .nil t
    · next h => exact .single fun hid => h (any_key.2 hid)
  | update role =>
    simp only [RoleOp.step, RoleTable.update]
    split
    · next h => exact .single (any_key.1 h)
    · exact .nil t
  | assign user role =>
    simp only [RoleOp.step, RoleTable.assign]
    split
    · next h => exact .single (any_key.1 h)
    · exact .nil t
  | delete id => exact .single trivial
  | revoke user role => exact .single trivial
  | find id => exact .nil t
  | list => exact .nil t
  | heldBy user => exact .nil t

/-- A request to the permission store. -/
lemma permissions (t : Tables) (op : PermissionOp) :
    Done t (Event.deeds ⟨.permissions op, (op.step t.permissions).1.isOk⟩)
      (t.withPermissions (op.step t.permissions).2) := by
  cases op with
  | create permission =>
    simp only [PermissionOp.step, PermissionTable.create]
    split
    · exact .nil t
    · next h => exact .single fun hid => h (any_key.2 hid)
  | update permission =>
    simp only [PermissionOp.step, PermissionTable.update]
    split
    · next h => exact .single (any_key.1 h)
    · exact .nil t
  | grant role ids =>
    simp only [PermissionOp.step, PermissionTable.grant]
    split
    · exact .nil t
    · next h =>
      refine grants role ids fun id hid => PermissionTable.has_iff.1 ?_
      simpa using List.find?_eq_none.1 h id hid
  | delete id => exact .single trivial
  | revoke role permission => exact .single trivial
  | find id => exact .nil t
  | list => exact .nil t
  | carriedBy role => exact .nil t

end Done

/-! ## Operations as deeds -/

/-- A store's answer succeeds as an administrative answer where it succeeds as its own. -/
@[simp] lemma Admin.isOk_ofStore {α : Type} (answer : Except StoreError α) :
    (Admin.ofStore answer).isOk = answer.isOk := by
  cases answer <;> rfl

namespace Operation

/-- An operation that succeeds does its deeds, and one that fails does nothing. -/
theorem done_of_run (operation : Operation) {t : Tables} (ht : t.Sound) :
    Done t (Event.deeds ⟨operation, (operation.flow.run Tables.answer t).1⟩)
      (operation.flow.run Tables.answer t).2 := by
  cases operation with
  | users op => exact .users t op
  | roles op => exact .roles t op
  | permissions op => exact .permissions t op
  | createRole role =>
    simp only [flow, Admin.createRole]
    cases role.validate with
    | error v => exact .nil t
    | ok _ =>
      simp only [Flow.run_bind, Flow.run_pure, Admin.isOk_ofStore]
      exact .roles t (.create role)
  | createPermission permission =>
    simp only [flow, Admin.createPermission]
    cases permission.validate with
    | error v => exact .nil t
    | ok _ =>
      simp only [Flow.run_bind, Flow.run_pure, Admin.isOk_ofStore]
      exact .permissions t (.create permission)
  | grant role batch =>
    have hrun := Admin.grant_tables t ht.permissions role batch
    simp only [flow, Flow.run_bind, Flow.run_pure]
    -- The batch is the one operation that takes several steps, and `grant_tables` says what they
    -- come to together.
    generalize (Admin.grant role batch).run Tables.answer t = outcome at hrun ⊢
    obtain ⟨_ | _, t'⟩ := outcome
    · rw [hrun]
      exact .nil t
    · obtain ⟨rfl, hids⟩ := hrun
      exact .batch role batch hids
  | assignRole user role =>
    simp only [flow, Admin.assignRole, Flow.run_bind, Tables.run_usersInUse, Tables.run_users,
      UserOp.step, Tables.withUsers_self]
    cases t.users.find? user with
    | none => exact .nil t
    | some _ =>
      simp only [Flow.run_bind, Flow.run_pure, Admin.isOk_ofStore]
      exact .roles t (.assign user role)

/-- Operations one after the other do what their events say. -/
theorem history_done (operations : List Operation) :
    ∀ {t : Tables}, t.Sound →
      Done t (((history operations).run Tables.answer t).1.flatMap Event.deeds)
        ((history operations).run Tables.answer t).2 := by
  induction operations with
  | nil => exact fun _ => .nil _
  | cons operation rest ih =>
    intro t ht
    have hfirst := done_of_run operation ht
    simp only [history, Flow.run_bind, Flow.run_pure, List.flatMap_cons]
    exact hfirst.append (ih (hfirst.sound ht))

/-- Operations performed after others begin where those end. -/
lemma run_history_append {σ : Type} (answer : (c : Call) → σ → c.Answer × σ)
    (earlier later : List Operation) (s : σ) :
    (history (earlier ++ later)).run answer s =
      (((history earlier).run answer s).1 ++
          ((history later).run answer ((history earlier).run answer s).2).1,
        ((history later).run answer ((history earlier).run answer s).2).2) := by
  induction earlier generalizing s with
  | nil => rfl
  | cons operation rest ih =>
    simp only [List.cons_append, history, Flow.run_bind, Flow.run_pure, ih]

/-- One more operation is performed on what the others reach. -/
lemma reached_snoc (operations : List Operation) (operation : Operation) {t : Tables}
    (hreached : reached operations = t.stores) :
    reached (operations ++ [operation]) = (operation.flow.run Tables.answer t).2.stores := by
  have hrun : reached (operations ++ [operation]) =
      (operation.flow.run Stores.answer (reached operations)).2 := by
    simp only [reached, run_history_append, history, Flow.run_bind, Flow.run_pure]
  rw [hrun, hreached, Flow.run_stores]

/-- What operations reach is what they make of no records. -/
lemma reached_eq (operations : List Operation) :
    reached operations = ((history operations).run Tables.answer .empty).2.stores := by
  rw [reached, ← Tables.stores_empty, Flow.run_stores]

/-- What operations reach is kept in the tables that their events lead to. -/
theorem exists_tables_done (operations : List Operation) :
    ∃ t : Tables, reached operations = t.stores ∧
      Done .empty
        (((history operations).run Stores.answer Stores.empty).1.flatMap Event.deeds) t := by
  refine ⟨((history operations).run Tables.answer .empty).2, reached_eq operations, ?_⟩
  rw [← Tables.stores_empty, Flow.run_stores]
  exact history_done operations Tables.sound_empty

/-- What operations reach is kept in sound tables. -/
theorem exists_tables_reached (operations : List Operation) :
    ∃ t : Tables, t.Sound ∧ reached operations = t.stores := by
  obtain ⟨t, hreached, hdone⟩ := exists_tables_done operations
  exact ⟨t, hdone.sound Tables.sound_empty, hreached⟩

/-! ## Granting a batch from what operations reach -/

/-- Whatever fails while a batch is granted, all of it is granted or none; what a batch that is not
granted leaves behind are the permissions it stored and could not delete again. -/
theorem grant_all_or_nothing (operations : List Operation) (role : Uuid)
    (batch : List Permission) (schedule : Nat → Option StoreError) :
    let flow := Admin.grant role batch
    let answer := failing schedule Stores.answer
    let start := (0, reached operations)
    ∃ t t' : Tables, reached operations = t.stores ∧ (flow.run answer start).2.2 = t'.stores ∧
      t'.users = t.users ∧ t'.roles = t.roles ∧
      match (flow.run answer start).1 with
      | .ok _ =>
        t'.permissions.permissions = t.permissions.permissions ++ batch ∧
          t'.permissions.grants = t.permissions.grants ++ grantRows role batch ∧
          t'.permissions.ids.Nodup
      | .error _ =>
        t'.permissions.permissions =
            t.permissions.permissions ++ leftBehind (flow.steps answer start) ∧
          t'.permissions.grants = t.permissions.grants ∧
          ((flow.steps answer start).filterMap Step.kept? = [] → t' = t) := by
  intro flow answer start
  obtain ⟨t, ht, hreached⟩ := exists_tables_reached operations
  have hends := Admin.grant_ends (mayFail_failing schedule) ht.permissions
    (s := start) hreached role batch
  generalize flow.run answer start = outcome at hends ⊢
  obtain ⟨_ | _, n, stores⟩ := outcome
  · obtain ⟨hstores, -⟩ := hends
    -- What was left behind is read off the steps, and is nothing when each deletion went through.
    refine ⟨t, _, hreached, hstores, rfl, rfl, rfl, rfl, fun hkept => ?_⟩
    have hnone : leftBehind (flow.steps answer start) = [] := by
      unfold leftBehind
      rw [hkept]
      simp
    show t.withPermissions
      ⟨t.permissions.permissions ++ leftBehind (flow.steps answer start), t.permissions.grants⟩ = t
    rw [hnone, List.append_nil, Tables.withPermissions_self]
  · obtain ⟨hstores, hids⟩ := hends
    exact ⟨t, _, hreached, hstores, rfl, rfl, rfl, rfl, hids⟩

/-- A batch that names a permission twice is refused after the first was stored; when deleting it
fails, it stays. -/
example :
    let role := Role.make (.ofNat 1) "role" "" default
    let p : Permission := ⟨.ofNat 2, "a", "all", ""⟩
    let t : Tables := ⟨[], ⟨[role], []⟩, .empty⟩
    let atStep (k : Nat) (n : Nat) : Option StoreError := if n = k then some closedPool else none
    leftBehind ((Admin.grant role.id [p, p]).steps (failing (atStep 5) Tables.answer) (0, t)) =
      [p] := by
  decide

end Operation

end Gatehouse
