import Gatehouse.Proofs.LookUps

/-!
# Decisions under administrative operations

Somebody is allowed what is requested when they can be resolved and some permission of theirs
allows it.  Read off the tables that is a chain: a user who is there, a row that assigns a role to
them, the role, a row that grants a permission to it, and the permission (`Tables.allows_iff`).  A
chain holds as long as no part of it is lost, and `Tables.Within` says that none is lost from some
tables to others.

Creations, assignments and grants lose nothing, and deletions and withdrawals add nothing, since
each deed they come to is of the one kind or of the other.  Updates are neither: they rewrite what
a permission allows.  A row that stands already is nothing new when it is made once more, so
decisions stay as they are, while a principal holds what it names once more.
-/

namespace Gatehouse

/-! ## What is decided -/

/-- Whether a permission allows what is requested, within exactly the scope if one is given. -/
def Permission.decides [Text.Engine] (p : Permission) (scope? : Option Scope) (requested : String) :
    Bool :=
  match scope? with
  | none => p.allows requested
  | some scope => p.allowsWithin scope requested

/-- Whether a principal is allowed what is requested, within exactly the scope if one is given. -/
def Principal.decides [Text.Engine] (p : Principal) (scope? : Option Scope) (requested : String) :
    Bool :=
  match scope? with
  | none => p.holds requested
  | some scope => p.holdsWithin scope requested

/-- A principal is allowed what some permission of some role allows. -/
lemma Principal.decides_iff [Text.Engine] {p : Principal} {scope? : Option Scope}
    {requested : String} :
    p.decides scope? requested = true ↔
      ∃ held ∈ p.roles, ∃ permission ∈ held.permissions,
        permission.decides scope? requested = true := by
  cases scope? with
  | none => simp [decides, holds, permissions, Permission.decides]
  | some scope => simp [decides, holdsWithin, permissions, Permission.decides]

/-- Whether somebody is allowed what is requested, within exactly the scope if one is given: they
can be resolved, and the principal is allowed it. -/
def Stores.allows [Text.Engine] (s : Stores) (user : Uuid) (scope? : Option Scope)
    (requested : String) : Bool :=
  match ((Resolve.principal user).run Stores.answer s).1 with
  | .ok p => p.decides scope? requested
  | .error _ => false

/-- Everybody is allowed the same by some stores as by others. -/
def Stores.DecideAlike [Text.Engine] (s s' : Stores) : Prop :=
  ∀ user scope? requested, s'.allows user scope? requested = s.allows user scope? requested

namespace Tables

variable {t t' : Tables} {user : Uuid} {scope? : Option Scope} {requested : String}

/-- Somebody is allowed what is requested by a permission that is granted to a role that is assigned
to them, all of which are there. -/
theorem allows_iff [Text.Engine] :
    t.stores.allows user scope? requested = true ↔
      user ∈ t.users.ids ∧ ∃ role permission,
        (user, role) ∈ t.roles.assignments ∧ role ∈ t.roles.ids ∧
        (role, permission.id) ∈ t.permissions.grants ∧
        t.permissions.find? permission.id = some permission ∧
        permission.decides scope? requested = true := by
  unfold Stores.allows
  rw [Flow.run_stores, Resolve.run_principal]
  cases hfind : t.users.find? user with
  | none =>
    have huser : user ∉ t.users.ids := find?_key_eq_none.1 hfind
    simp [huser]
  | some u =>
    -- A decision goes from the user to a role to a permission; each step is a row that stands and a
    -- record that is there.
    have hid : u.id = user := key_of_find?_key hfind
    have huser : user ∈ t.users.ids := hid ▸ List.mem_map_of_mem (List.mem_of_find?_eq_some hfind)
    simp only [Principal.decides_iff, List.mem_map, hid, huser, true_and]
    constructor
    · rintro ⟨_, ⟨role, hrole, rfl⟩, permission, hpermission, hdecides⟩
      obtain ⟨hassigned, hthere⟩ := RoleTable.mem_heldBy.1 hrole
      obtain ⟨hgranted, hfound⟩ := PermissionTable.mem_carriedBy.1 hpermission
      exact ⟨role.id, permission, hassigned, find?_key_isSome.1 (Option.isSome_of_eq_some hthere),
        hgranted, hfound, hdecides⟩
    · rintro ⟨id, permission, hassigned, hthere, hgranted, hfound, hdecides⟩
      obtain ⟨role, hrole⟩ := Option.isSome_iff_exists.1 (find?_key_isSome.2 hthere)
      obtain rfl : role.id = id := key_of_find?_key hrole
      exact ⟨_, ⟨role, RoleTable.mem_heldBy.2 ⟨hassigned, hrole⟩, rfl⟩, permission,
        PermissionTable.mem_carriedBy.2 ⟨hgranted, hfound⟩, hdecides⟩

/-! ## Tables within others -/

/-- Nothing that a decision rests on is lost from some tables to others. -/
structure Within (t t' : Tables) : Prop where
  users : t.users.ids ⊆ t'.users.ids
  roles : t.roles.ids ⊆ t'.roles.ids
  assignments : t.roles.assignments ⊆ t'.roles.assignments
  permissions : ∀ id permission,
    t.permissions.find? id = some permission → t'.permissions.find? id = some permission
  grants : t.permissions.grants ⊆ t'.permissions.grants

namespace Within

lemma refl (t : Tables) : t.Within t :=
  ⟨List.Subset.refl _, List.Subset.refl _, List.Subset.refl _, fun _ _ h => h, List.Subset.refl _⟩

lemma trans {t'' : Tables} (h : t.Within t') (h' : t'.Within t'') : t.Within t'' where
  users := List.Subset.trans h.users h'.users
  roles := List.Subset.trans h.roles h'.roles
  assignments := List.Subset.trans h.assignments h'.assignments
  permissions := fun id p hp => h'.permissions id p (h.permissions id p hp)
  grants := List.Subset.trans h.grants h'.grants

/-- Where nothing is lost, whoever is allowed something stays allowed it. -/
lemma allows [Text.Engine] (h : t.Within t')
    (hallows : t.stores.allows user scope? requested = true) :
    t'.stores.allows user scope? requested = true := by
  rw [allows_iff] at hallows ⊢
  obtain ⟨huser, role, permission, hassigned, hrole, hgranted, hfound, hdecides⟩ := hallows
  exact ⟨h.users huser, role, permission, h.assignments hassigned, h.roles hrole,
    h.grants hgranted, h.permissions _ _ hfound, hdecides⟩

/-- Where nothing is lost either way, decisions are the same. -/
lemma decideAlike [Text.Engine] (h : t.Within t') (h' : t'.Within t) :
    t.stores.DecideAlike t'.stores :=
  fun _ _ _ => Bool.eq_iff_iff.2 ⟨h'.allows, h.allows⟩

end Within

end Tables

/-! ## Deeds that give and deeds that take -/

/-- The deed adds a record or a row. -/
def Deed.Gives : Deed → Prop
  | createUser _ | createRole _ | assignRole _ _ | createPermission _ | grantPermission _ _ => True
  | _ => False

/-- The deed takes records or rows away. -/
def Deed.Takes : Deed → Prop
  | deleteUser _ | deleteRole _ | revokeRole _ _ | deletePermission _ | revokePermission _ _ => True
  | _ => False

namespace Tables

variable {t t' : Tables} {d : Deed} {ds : List Deed}

/-- A deed that gives loses nothing. -/
lemma within_after (h : d.Gives) : t.Within (t.after d) := by
  have hrefl := Within.refl t
  cases d with
  | createUser user =>
    exact { hrefl with users := List.map_subset _ (List.subset_append_left _ _) }
  | createRole role =>
    exact { hrefl with roles := List.map_subset _ (List.subset_append_left _ _) }
  | assignRole user role => exact { hrefl with assignments := List.subset_append_left _ _ }
  | createPermission permission =>
    refine { hrefl with permissions := fun id p hp => ?_ }
    show List.find? _ (t.permissions.permissions ++ [permission]) = some p
    rw [find?_key_append, show List.find? _ t.permissions.permissions = some p from hp,
      Option.some_or]
  | grantPermission role permission => exact { hrefl with grants := List.subset_append_left _ _ }
  | _ => exact h.elim

/-- A deed that takes adds nothing. -/
lemma after_within (h : d.Takes) : (t.after d).Within t := by
  have hrefl := Within.refl t
  cases d with
  | deleteUser id => exact { hrefl with users := List.map_subset _ (List.filter_subset_self _) }
  | deleteRole id =>
    exact { hrefl with
      roles := List.map_subset _ (List.filter_subset_self _)
      assignments := List.filter_subset_self _ }
  | revokeRole user role => exact { hrefl with assignments := List.filter_subset_self _ }
  | deletePermission id =>
    refine { hrefl with permissions := fun other p hp => ?_, grants := List.filter_subset_self _ }
    have hkept : (if other = id then none else t.permissions.find? other) = some p := by
      rw [← hp]
      exact (find?_key_filter id).symm
    split at hkept
    · exact nomatch hkept
    · exact hkept
  | revokePermission role permission => exact { hrefl with grants := List.filter_subset_self _ }
  | _ => exact h.elim

/-- Deeds that all give lose nothing. -/
lemma within_of_done (hdone : Done t ds t') (h : ∀ d ∈ ds, d.Gives) : t.Within t' := by
  induction hdone with
  | nil t => exact .refl t
  | cons _ _ ih =>
    exact (within_after (h _ List.mem_cons_self)).trans
      (ih fun d hd => h d (List.mem_cons_of_mem _ hd))

/-- Deeds that all take add nothing. -/
lemma of_done_within (hdone : Done t ds t') (h : ∀ d ∈ ds, d.Takes) : t'.Within t := by
  induction hdone with
  | nil t => exact .refl t
  | cons _ _ ih =>
    exact (ih fun d hd => h d (List.mem_cons_of_mem _ hd)).trans
      (after_within (h _ List.mem_cons_self))

end Tables

/-! ## Rows that are made once more -/

namespace RoleTable

variable {table : RoleTable}

/-- A role that is there is assigned. -/
lemma assign_of_mem {user role : Uuid} (h : role ∈ table.ids) :
    table.assign user role =
      (.ok (), ⟨table.roles, table.assignments ++ [(user, role)]⟩) := by
  unfold assign
  rw [if_pos (any_key.2 h)]

/-- A user holds the role of one more assignment after all others. -/
lemma heldBy_append {user : Uuid} {role : Role} (hrole : table.find? role.id = some role) :
    heldBy ⟨table.roles, table.assignments ++ [(user, role.id)]⟩ user =
      table.heldBy user ++ [role] := by
  have hfind : (⟨table.roles, table.assignments ++ [(user, role.id)]⟩ : RoleTable).find? =
      table.find? := rfl
  simp only [heldBy, hfind, List.filter_append, List.filterMap_append]
  simp [hrole]

end RoleTable

namespace PermissionTable

variable {table : PermissionTable}

/-- A role carries the permissions of more grants after all others, and no other role does. -/
lemma carriedBy_append (role other : Uuid) (ids : List Uuid) :
    carriedBy ⟨table.permissions, table.grants ++ ids.map fun id => (role, id)⟩ other =
      table.carriedBy other ++ if other = role then ids.filterMap table.find? else [] := by
  have hfind : (⟨table.permissions, table.grants ++ ids.map fun id => (role, id)⟩ :
      PermissionTable).find? = table.find? := rfl
  simp only [carriedBy, hfind, List.filter_append, List.filterMap_append]
  congr 1
  -- The new rows all name the one role, so for any other role none of them is looked at.
  by_cases h : other = role
  · subst h
    simp [List.filter_map, Function.comp_def, List.filterMap_map]
  · simp [h, Ne.symm h, List.filter_map, Function.comp_def]

end PermissionTable

/-- The role with more permissions, if it is the one they are granted to. -/
def HeldRole.granted (role : Uuid) (more : List Permission) (held : HeldRole) : HeldRole :=
  if held.role.id = role then ⟨held.role, held.permissions ++ more⟩ else held

namespace Tables

variable {t : Tables} {user role : Uuid} {ids : List Uuid}

/-- An assignment that stands already is nothing new. -/
lemma within_of_assigned (h : (user, role) ∈ t.roles.assignments) :
    (t.withRoles ⟨t.roles.roles, t.roles.assignments ++ [(user, role)]⟩).Within t :=
  { Within.refl t with
    assignments := List.append_subset.2 ⟨List.Subset.refl _, by simpa using h⟩ }

/-- Grants that stand already are nothing new. -/
lemma within_of_granted (h : ∀ id ∈ ids, (role, id) ∈ t.permissions.grants) :
    (t.withPermissions ⟨t.permissions.permissions,
      t.permissions.grants ++ ids.map fun id => (role, id)⟩).Within t :=
  { Within.refl t with
    grants := List.append_subset.2 ⟨List.Subset.refl _, List.forall_mem_map.2 h⟩ }

/-- With one more assignment of a role somebody holds it once more, after all others. -/
lemma principal_assigned (ht : t.Sound) (h : (user, role) ∈ t.roles.assignments) {p : Principal}
    (hp : ((Resolve.principal user).run Tables.answer t).1 = .ok p) :
    ∃ held ∈ p.roles, held.role.id = role ∧
      ((Resolve.principal user).run Tables.answer
        (t.withRoles ⟨t.roles.roles, t.roles.assignments ++ [(user, role)]⟩)).1 =
          .ok ⟨p.user, p.roles ++ [held]⟩ := by
  obtain ⟨hfind, hheld⟩ := Resolve.principal_eq_ok.1 hp
  -- The assignment stands, so by soundness the role it names is there to be looked up again.
  obtain ⟨record, hrecord⟩ :=
    Option.isSome_iff_exists.1 (find?_key_isSome.2 (ht.roles.rows _ h))
  obtain rfl : record.id = role := key_of_find?_key hrecord
  refine ⟨⟨record, t.permissions.carriedBy record.id⟩, ?_, rfl, ?_⟩
  · rw [hheld]
    exact List.mem_map_of_mem (RoleTable.mem_heldBy.2 ⟨h, hrecord⟩)
  · have hheldBy : (t.withRoles ⟨t.roles.roles,
        t.roles.assignments ++ [(user, record.id)]⟩).roles.heldBy user =
          t.roles.heldBy user ++ [record] := RoleTable.heldBy_append hrecord
    refine Resolve.principal_eq_ok.2 ⟨hfind, ?_⟩
    rw [hheldBy, List.map_append, hheld]
    rfl

/-- With more grants to a role everybody who holds it holds it with as many more permissions. -/
lemma principal_granted {p : Principal}
    (hp : ((Resolve.principal user).run Tables.answer t).1 = .ok p) :
    ((Resolve.principal user).run Tables.answer
      (t.withPermissions ⟨t.permissions.permissions,
        t.permissions.grants ++ ids.map fun id => (role, id)⟩)).1 =
      .ok ⟨p.user, p.roles.map (.granted role (ids.filterMap t.permissions.find?))⟩ := by
  obtain ⟨hfind, hheld⟩ := Resolve.principal_eq_ok.1 hp
  refine Resolve.principal_eq_ok.2 ⟨hfind, ?_⟩
  rw [hheld, List.map_map]
  refine List.map_congr_left fun held _ => ?_
  have hcarriedBy : (t.withPermissions ⟨t.permissions.permissions,
      t.permissions.grants ++ ids.map fun id => (role, id)⟩).permissions.carriedBy held.id = _ :=
    PermissionTable.carriedBy_append role held.id ids
  rw [hcarriedBy]
  by_cases hid : held.id = role <;> simp [HeldRole.granted, hid]

end Tables

/-! ## Operations -/

namespace Operation

/-- The operation creates, assigns or grants. -/
def Gives : Operation → Prop
  | users (.create _) | roles (.create _) | permissions (.create _) => True
  | roles (.assign _ _) | permissions (.grant _ _) => True
  | createRole _ | createPermission _ | grant _ _ | assignRole _ _ => True
  | _ => False

/-- The operation deletes or withdraws. -/
def Takes : Operation → Prop
  | users (.delete _) | roles (.delete _) | permissions (.delete _) => True
  | roles (.revoke _ _) | permissions (.revoke _ _) => True
  | _ => False

variable {operation : Operation} {t : Tables}

lemma gives_of_mem_deeds (h : operation.Gives) : ∀ d ∈ operation.deeds, d.Gives := by
  cases operation with
  | users op => cases op <;> simp_all [Gives, deeds, Deed.Gives]
  | roles op => cases op <;> simp_all [Gives, deeds, Deed.Gives]
  | permissions op => cases op <;> simp_all [Gives, deeds, Deed.Gives]
  | grant role batch =>
    simp only [deeds, List.forall_mem_append, List.forall_mem_map]
    exact ⟨fun _ _ => trivial, fun _ _ => trivial⟩
  | _ => simp [deeds, Deed.Gives]

lemma takes_of_mem_deeds (h : operation.Takes) : ∀ d ∈ operation.deeds, d.Takes := by
  cases operation with
  | users op => cases op <;> simp_all [Takes, deeds, Deed.Takes]
  | roles op => cases op <;> simp_all [Takes, deeds, Deed.Takes]
  | permissions op => cases op <;> simp_all [Takes, deeds, Deed.Takes]
  | _ => exact h.elim

/-- What creates, assigns or grants loses nothing, even when it fails. -/
theorem within_run (ht : t.Sound) (h : operation.Gives) :
    t.Within (operation.flow.run Tables.answer t).2 :=
  Tables.within_of_done (done_of_run operation ht) fun d hd =>
    gives_of_mem_deeds h d (Event.mem_of_mem_deeds hd)

/-- What deletes or withdraws adds nothing, even when it fails. -/
theorem run_within (ht : t.Sound) (h : operation.Takes) :
    (operation.flow.run Tables.answer t).2.Within t :=
  Tables.of_done_within (done_of_run operation ht) fun d hd =>
    takes_of_mem_deeds h d (Event.mem_of_mem_deeds hd)

variable {user role : Uuid} {ids : List Uuid}

/-- A role that is there is assigned, unless it is checked that the user is there and they are
not. -/
lemma run_assign (hrole : role ∈ t.roles.ids)
    (h : operation = .roles (.assign user role) ∨ operation = .assignRole user role) :
    (operation.flow.run Tables.answer t).2 =
        t.withRoles ⟨t.roles.roles, t.roles.assignments ++ [(user, role)]⟩ ∨
      user ∉ t.users.ids ∧ (operation.flow.run Tables.answer t).2 = t := by
  have hassign : t.withRoles (t.roles.assign user role).2 =
      t.withRoles ⟨t.roles.roles, t.roles.assignments ++ [(user, role)]⟩ := by
    rw [RoleTable.assign_of_mem hrole]
  -- Of the two ways to assign only the administrative one looks for the user first.
  obtain rfl | rfl := h
  · exact .inl hassign
  · simp only [flow, Admin.assignRole, Flow.run_bind, Tables.run_usersInUse, Tables.run_users,
      UserOp.step, Tables.withUsers_self]
    cases hfind : t.users.find? user with
    | none => exact .inr ⟨find?_key_eq_none.1 hfind, rfl⟩
    | some _ => exact .inl hassign

/-- Permissions that are all there are granted. -/
lemma run_grant (h : ∀ id ∈ ids, id ∈ t.permissions.ids) :
    ((permissions (.grant role ids)).flow.run Tables.answer t).2 =
      t.withPermissions ⟨t.permissions.permissions,
        t.permissions.grants ++ ids.map fun id => (role, id)⟩ := by
  show t.withPermissions (t.permissions.grant role ids).2 = _
  rw [PermissionTable.grant_of_subset h]

/-- An assignment that stands already changes no decision when it is made once more, though the user
then holds the role once more. -/
lemma assigned_again [Text.Engine] (ht : t.Sound)
    (h : operation = .roles (.assign user role) ∨ operation = .assignRole user role)
    (hrow : (user, role) ∈ t.roles.assignments) :
    let t' := (operation.flow.run Tables.answer t).2
    t.stores.DecideAlike t'.stores ∧
      ∀ p, ((Resolve.principal user).run Tables.answer t).1 = .ok p →
        ∃ held ∈ p.roles, held.role.id = role ∧
          ((Resolve.principal user).run Tables.answer t').1 = .ok ⟨p.user, p.roles ++ [held]⟩ := by
  intro t'
  have hwithin : t.Within t' := within_run ht (by obtain rfl | rfl := h <;> trivial)
  obtain hrun | ⟨hnobody, hrun⟩ := run_assign (ht.roles.rows _ hrow) h
  · rw [show t' = _ from hrun] at hwithin ⊢
    exact ⟨hwithin.decideAlike (Tables.within_of_assigned hrow),
      fun p hp => Tables.principal_assigned ht hrow hp⟩
  · rw [show t' = t from hrun]
    refine ⟨fun _ _ _ => rfl, fun p hp => absurd ?_ hnobody⟩
    exact find?_key_isSome.1 (Option.isSome_of_eq_some (Resolve.principal_eq_ok.1 hp).1)

/-- Grants that stand already change no decision when they are made once more, though whoever holds
the role then holds it with the permissions once more. -/
lemma granted_again [Text.Engine] (ht : t.Sound)
    (hrows : ∀ id ∈ ids, (role, id) ∈ t.permissions.grants) :
    let t' := ((permissions (.grant role ids)).flow.run Tables.answer t).2
    t.stores.DecideAlike t'.stores ∧
      ∃ more : List Permission, more.map Permission.id = ids ∧
        ∀ user p, ((Resolve.principal user).run Tables.answer t).1 = .ok p →
          ((Resolve.principal user).run Tables.answer t').1 =
            .ok ⟨p.user, p.roles.map (.granted role more)⟩ := by
  intro t'
  have hids : ∀ id ∈ ids, id ∈ t.permissions.ids := fun id hid =>
    ht.permissions.rows _ (hrows id hid)
  have hmore : ((ids.map fun id => (role, id)).filterMap fun row =>
      t.permissions.find? row.2).map Permission.id = _ :=
    map_key_filterMap_find? (List.forall_mem_map.2 hids)
  rw [List.filterMap_map, List.map_map] at hmore
  have hwithin : t.Within t' := within_run ht trivial
  rw [show t' = _ from run_grant hids] at hwithin ⊢
  exact ⟨hwithin.decideAlike (Tables.within_of_granted hrows), _,
    hmore.trans (List.map_id ids), fun user p hp => Tables.principal_granted hp⟩

/-- A batch of which a permission is there already is refused as a whole. -/
lemma run_grantBatch {batch : List Permission} {p : Permission} (ht : t.Sound) (hp : p ∈ batch)
    (hthere : p.id ∈ t.permissions.ids) : ((grant role batch).flow.run Tables.answer t).2 = t := by
  have hrun := Admin.grant_tables t ht.permissions role batch
  simp only [flow, Flow.run_bind, Flow.run_pure]
  generalize (Admin.grant role batch).run Tables.answer t = outcome at hrun ⊢
  obtain ⟨_ | _, t'⟩ := outcome
  · exact hrun
  · obtain ⟨-, hids⟩ := hrun
    rw [List.map_append] at hids
    exact (List.disjoint_of_nodup_append hids hthere (List.mem_map_of_mem hp)).elim

/-- What creates, assigns or grants never takes anything from anybody, and what deletes or
withdraws never gives anything to anybody, whether it succeeds or fails.  An assignment or grants
that stand already change no decision when they are made once more, though whoever is concerned
holds the role, or the role with the permissions, that much more often; a batch of new permissions
is refused where one of them is there already. -/
theorem decisions_monotone [Text.Engine] (operations : List Operation) (operation : Operation) :
    let before := reached operations
    let after := reached (operations ++ [operation])
    (operation.Gives → ∀ user scope? requested,
      before.allows user scope? requested = true → after.allows user scope? requested = true) ∧
    (operation.Takes → ∀ user scope? requested,
      before.allows user scope? requested = false →
        after.allows user scope? requested = false) ∧
    ∃ t : Tables, before = t.stores ∧
      (∀ user role, operation = .roles (.assign user role) ∨ operation = .assignRole user role →
        (user, role) ∈ t.roles.assignments →
        before.DecideAlike after ∧
          ∀ p, ((Resolve.principal user).run Stores.answer before).1 = .ok p →
            ∃ held ∈ p.roles, held.role.id = role ∧
              ((Resolve.principal user).run Stores.answer after).1 =
                .ok ⟨p.user, p.roles ++ [held]⟩) ∧
      (∀ role ids, operation = .permissions (.grant role ids) →
        (∀ id ∈ ids, (role, id) ∈ t.permissions.grants) →
        before.DecideAlike after ∧
          ∃ more : List Permission, more.map Permission.id = ids ∧
            ∀ user p, ((Resolve.principal user).run Stores.answer before).1 = .ok p →
              ((Resolve.principal user).run Stores.answer after).1 =
                .ok ⟨p.user, p.roles.map (.granted role more)⟩) ∧
      ∀ role batch, operation = .grant role batch →
        (∃ p ∈ batch, p.id ∈ t.permissions.ids) → after = before := by
  intro before after
  obtain ⟨t, ht, hreached⟩ := exists_tables_reached operations
  have hbefore : before = t.stores := hreached
  have hafter : after = (operation.flow.run Tables.answer t).2.stores :=
    reached_snoc operations operation hreached
  -- From here on all is about tables, of which the step from `t` to the ones after is known.
  rw [hafter, hbefore]
  simp only [Flow.run_stores]
  refine ⟨?gives, ?takes, t, rfl, ?assign, ?grant, ?batch⟩
  case gives => exact fun h _ _ _ => (within_run ht h).allows
  case takes =>
    intro h user scope? requested hdenied
    rw [← Bool.not_eq_true] at hdenied ⊢
    exact mt (run_within ht h).allows hdenied
  case assign => exact fun user role h hrow => assigned_again ht h hrow
  case grant =>
    rintro role ids rfl hrows
    exact granted_again ht hrows
  case batch =>
    rintro role batch rfl ⟨p, hp, hthere⟩
    rw [run_grantBatch ht hp hthere]

end Operation

end Gatehouse
