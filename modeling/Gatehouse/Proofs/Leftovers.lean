import Gatehouse.Proofs.LookUps

/-!
# What a deletion leaves behind

A store takes rows along with a record only where it keeps both: assignments go with the role they
name and grants with the permission.  Assignments are not with the users, though, nor grants with
the roles, so the deletion of a user leaves the user's assignments in place, and the deletion of a
role its grants.  Nobody sees these rows until the id is given out again; then they count for the
new record.

What is made good here is the exact extent of this.  Let nothing be assigned to an id from the
deletion on: then whoever has the id later holds no role exactly when each assignment of the id that
stood at the deletion was withdrawn since (`Operation.exists_held_of_unassigned`), and likewise for
the grants of a role.  The rows that stand are those the history of deeds tells of, and of a longer
history they are those of a shorter one that no later deed unmade, with those made later at the end
(`surviving_append`).
-/

namespace Gatehouse

/-! ## Rows after more deeds -/

namespace RowKind

variable (kind : RowKind)

/-- Each of the rows with a given first part was taken away by some deed. -/
def Withdrawn (rows : List (Uuid × Uuid)) (id : Uuid) (since : List Deed) : Prop :=
  ∀ row ∈ rows, row.1 = id → ∃ d ∈ since, kind.unmakes d row = true

variable {kind} {h since : List Deed} {rows rows' : List (Uuid × Uuid)} {id : Uuid}

/-- Where no row of an id is made any more, those are left that no deed unmakes. -/
lemma Told.filter_of_unmade (ht : kind.Told h rows) (ht' : kind.Told (h ++ since) rows')
    (hunmade : ∀ d ∈ since, ∀ other, kind.makes d ≠ some (id, other)) :
    rows'.filter (fun row => row.1 == id) =
      (rows.filter fun row => row.1 == id).filter
        fun row => !since.any fun d => kind.unmakes d row := by
  -- What survives of the later deeds was made by them, and they make no row of the id.
  have hlater : (kind.standing since).filter (fun row => row.1 == id) = [] := by
    refine List.filter_eq_nil_iff.2 fun row hrow hid => ?_
    obtain ⟨d, hd, hmakes⟩ := exists_makes_of_mem_surviving hrow
    rw [beq_iff_eq] at hid
    exact hunmade d hd row.2 (by rw [hmakes, ← hid])
  rw [ht', standing, surviving_append, List.filter_append]
  rw [standing] at hlater
  rw [hlater, List.append_nil, ht, List.filter_comm]
  rfl

/-- Where no row of an id is made any more, none is left exactly when all were withdrawn. -/
lemma Told.filter_eq_nil_iff (ht : kind.Told h rows) (ht' : kind.Told (h ++ since) rows')
    (hunmade : ∀ d ∈ since, ∀ other, kind.makes d ≠ some (id, other)) :
    rows'.filter (fun row => row.1 == id) = [] ↔ kind.Withdrawn rows id since := by
  rw [ht.filter_of_unmade ht' hunmade, List.filter_filter, List.filter_eq_nil_iff]
  refine forall₂_congr fun row _ => ?_
  rw [← List.any_eq_true]
  by_cases hgone : since.any fun d => kind.unmakes d row <;> simp [hgone]

end RowKind

lemma assignedRows_makes {d : Deed} {row : Uuid × Uuid} (h : assignedRows.makes d = some row) :
    d = .assignRole row.1 row.2 := by
  cases d with
  | assignRole user role => rw [← Option.some.inj h]
  | _ => exact nomatch h

lemma grantedRows_makes {d : Deed} {row : Uuid × Uuid} (h : grantedRows.makes d = some row) :
    d = .grantPermission row.1 row.2 := by
  cases d with
  | grantPermission role permission => rw [← Option.some.inj h]
  | _ => exact nomatch h

/-! ## Operations after others -/

namespace Operation

/-- The deeds that operations come to when they are performed on stores. -/
def deedsOn (s : Stores) (operations : List Operation) : List Deed :=
  ((history operations).run Stores.answer s).1.flatMap Event.deeds

/-- The tables that operations reach and those that more of them reach are told of by one history
and its continuation by the deeds of these. -/
lemma exists_tables_later (earlier later : List Operation) :
    ∃ (t t' : Tables) (told : List Deed), reached earlier = t.stores ∧
      reached (earlier ++ later) = t'.stores ∧ t'.Sound ∧ Told told t ∧
      Told (told ++ deedsOn t.stores later) t' := by
  obtain ⟨t, -, hreached, htold⟩ := exists_tables_told earlier
  obtain ⟨t', ht', hreached', htold'⟩ := exists_tables_told (earlier ++ later)
  refine ⟨t, t', _, hreached, hreached', ht', htold, ?_⟩
  rw [run_history_append, List.flatMap_append] at htold'
  rw [← hreached]
  exact htold'

/-- Where no role is assigned to an id any more, a user of that id holds none exactly when all that
had been assigned were withdrawn. -/
lemma exists_held_of_unassigned (earlier later : List Operation) (id : Uuid) :
    ∃ t t' : Tables, reached earlier = t.stores ∧ reached (earlier ++ later) = t'.stores ∧
      ((∀ role, .assignRole id role ∉ deedsOn t.stores later) →
        ∀ user ∈ t'.users, user.id = id →
          ∃ held, ((Resolve.principal id).run Stores.answer t'.stores).1 = .ok ⟨user, held⟩ ∧
            (held = [] ↔
              assignedRows.Withdrawn t.roles.assignments id (deedsOn t.stores later))) := by
  obtain ⟨t, t', told, hreached, hreached', ht', htold, htold'⟩ :=
    exists_tables_later earlier later
  refine ⟨t, t', hreached, hreached', ?_⟩
  rintro hunassigned user huser rfl
  have hunmade : ∀ d ∈ deedsOn t.stores later, ∀ role,
      assignedRows.makes d ≠ some (user.id, role) := by
    intro d hd role hmakes
    rw [assignedRows_makes hmakes] at hd
    exact hunassigned role hd
  refine ⟨_, by rw [Flow.run_stores, Resolve.principal_of_mem ht' huser], ?_⟩
  -- The roles held and the rows that stand have the same ids, so there are none of the ones exactly
  -- when there are none of the others.
  rw [List.map_eq_nil_iff, ← htold.assignments.filter_eq_nil_iff htold'.assignments hunmade,
    ← List.map_eq_nil_iff (f := Role.id), RoleTable.heldBy_ids ht'.roles, List.map_eq_nil_iff]

/-- Where no permission is granted to an id any more, whoever holds a role of that id holds it with
no permissions exactly when all that had been granted were withdrawn. -/
lemma exists_held_of_ungranted (earlier later : List Operation) (id : Uuid) :
    ∃ t t' : Tables, reached earlier = t.stores ∧ reached (earlier ++ later) = t'.stores ∧
      ((∀ permission, .grantPermission id permission ∉ deedsOn t.stores later) →
        ∀ user ∈ t'.users,
          ∃ held, ((Resolve.principal user.id).run Stores.answer t'.stores).1 =
              .ok ⟨user, held⟩ ∧
            ∀ entry ∈ held, entry.role.id = id →
              (entry.permissions = [] ↔
                grantedRows.Withdrawn t.permissions.grants id (deedsOn t.stores later))) := by
  obtain ⟨t, t', told, hreached, hreached', ht', htold, htold'⟩ :=
    exists_tables_later earlier later
  refine ⟨t, t', hreached, hreached', ?_⟩
  intro hungranted user huser
  have hunmade : ∀ d ∈ deedsOn t.stores later, ∀ permission,
      grantedRows.makes d ≠ some (id, permission) := by
    intro d hd permission hmakes
    rw [grantedRows_makes hmakes] at hd
    exact hungranted permission hd
  refine ⟨_, by rw [Flow.run_stores, Resolve.principal_of_mem ht' huser], ?_⟩
  intro entry hentry hid
  obtain ⟨role, -, rfl⟩ := List.mem_map.1 hentry
  obtain rfl : role.id = id := hid
  rw [← htold.grants.filter_eq_nil_iff htold'.grants hunmade,
    ← List.map_eq_nil_iff (f := Permission.id), PermissionTable.carriedBy_ids ht'.permissions,
    List.map_eq_nil_iff]

/-- A deletion withdraws none of the rows kept in another store.  Where no role is assigned to a
user from the deletion on, whoever comes to have the user's id holds no role exactly when all that
the user held were withdrawn since; and where no permission is granted to a role from the deletion
on, a role that comes to have its id carries none, for whoever holds it, exactly when all that it
carried were withdrawn since. -/
theorem deleted_ids_keep_rows (before after : List Operation) (id : Uuid) :
    (∃ t t' : Tables,
      let later := Operation.users (.delete id) :: after
      let since := deedsOn t.stores later
      reached before = t.stores ∧ reached (before ++ later) = t'.stores ∧
      ((∀ role, .assignRole id role ∉ since) →
        ∀ user ∈ t'.users, user.id = id →
          ∃ held, ((Resolve.principal id).run Stores.answer t'.stores).1 = .ok ⟨user, held⟩ ∧
            (held = [] ↔ assignedRows.Withdrawn t.roles.assignments id since))) ∧
    ∃ t t' : Tables,
      let later := Operation.roles (.delete id) :: after
      let since := deedsOn t.stores later
      reached before = t.stores ∧ reached (before ++ later) = t'.stores ∧
      ((∀ permission, .grantPermission id permission ∉ since) →
        ∀ user ∈ t'.users,
          ∃ held, ((Resolve.principal user.id).run Stores.answer t'.stores).1 =
              .ok ⟨user, held⟩ ∧
            ∀ entry ∈ held, entry.role.id = id →
              (entry.permissions = [] ↔
                grantedRows.Withdrawn t.permissions.grants id since)) :=
  ⟨exists_held_of_unassigned before _ id, exists_held_of_ungranted before _ id⟩

/-- Where a role is withdrawn from a user who was deleted, whoever comes to have the user's id does
not hold it; and where a permission is withdrawn from a role that was deleted, whoever is given a
role of that id does not come into the permission. -/
theorem deleted_ids_keep_rows_withdrawn :
    let ann := User.make (.ofNat 1) "ann@example.org" "Ann" "Lee" default
    let bob := User.make (.ofNat 1) "bob@example.org" "Bob" "Ray" default
    let owner := Role.make (.ofNat 2) "owner" "" default
    let reader := Role.make (.ofNat 2) "reader" "" default
    let permission : Permission := ⟨.ofNat 3, "*", "admin", ""⟩
    let assigned : List Operation := [.users (.create ann), .roles (.create owner),
      .roles (.assign ann.id owner.id)]
    let joined : List Operation := [.roles (.revoke ann.id owner.id), .users (.create bob)]
    let granted : List Operation := [.roles (.create owner), .permissions (.create permission),
      .permissions (.grant owner.id [permission.id])]
    let replaced : List Operation := [.permissions (.revoke owner.id permission.id),
      .roles (.create reader), .users (.create ann), .roles (.assign ann.id reader.id)]
    ((Resolve.principal bob.id).run Stores.answer
        (reached (assigned ++ .users (.delete ann.id) :: joined))).1 = .ok ⟨bob, []⟩ ∧
      ((Resolve.principal ann.id).run Stores.answer
        (reached (granted ++ .roles (.delete owner.id) :: replaced))).1 =
          .ok ⟨ann, [⟨reader, []⟩]⟩ := by
  intro ann bob owner reader permission assigned joined granted replaced
  constructor
  · obtain ⟨⟨t, t', hbefore, hafter, hheld⟩, -⟩ := deleted_ids_keep_rows assigned joined ann.id
    have ht : ⟨[ann], ⟨[owner], [(ann.id, owner.id)]⟩, .empty⟩ = t :=
      Tables.stores_injective ((reached_eq assigned).symm.trans hbefore)
    have ht' : ⟨[bob], ⟨[owner], []⟩, .empty⟩ = t' :=
      Tables.stores_injective ((reached_eq _).symm.trans hafter)
    have hsince : deedsOn t.stores (.users (.delete ann.id) :: joined) =
        [.deleteUser ann.id, .revokeRole ann.id owner.id, .createUser bob] := by
      rw [deedsOn, ← ht, Flow.run_stores]
      rfl
    rw [hsince] at hheld
    obtain ⟨held, hprincipal, hnone⟩ := hheld (by simp) bob (ht' ▸ List.mem_cons_self) rfl
    have hwithdrawn : assignedRows.Withdrawn t.roles.assignments ann.id
        [.deleteUser ann.id, .revokeRole ann.id owner.id, .createUser bob] := by
      rw [← ht]
      simp [RowKind.Withdrawn, assignedRows]
    rw [hafter, ← hnone.2 hwithdrawn]
    exact hprincipal
  · obtain ⟨-, ⟨t, t', hbefore, hafter, hheld⟩⟩ := deleted_ids_keep_rows granted replaced owner.id
    have ht : ⟨[], ⟨[owner], []⟩, ⟨[permission], [(owner.id, permission.id)]⟩⟩ = t :=
      Tables.stores_injective ((reached_eq granted).symm.trans hbefore)
    have ht' : ⟨[ann], ⟨[reader], [(ann.id, reader.id)]⟩, ⟨[permission], []⟩⟩ = t' :=
      Tables.stores_injective ((reached_eq _).symm.trans hafter)
    have hsince : deedsOn t.stores (.roles (.delete owner.id) :: replaced) =
        [.deleteRole owner.id, .revokePermission owner.id permission.id, .createRole reader,
          .createUser ann, .assignRole ann.id reader.id] := by
      rw [deedsOn, ← ht, Flow.run_stores]
      rfl
    rw [hsince] at hheld
    obtain ⟨held, hprincipal, hbare⟩ := hheld (by simp) ann (ht' ▸ List.mem_cons_self)
    have hwithdrawn : grantedRows.Withdrawn t.permissions.grants owner.id
        [.deleteRole owner.id, .revokePermission owner.id permission.id, .createRole reader,
          .createUser ann, .assignRole ann.id reader.id] := by
      rw [← ht]
      simp [RowKind.Withdrawn, grantedRows]
    -- Which roles are held is computed; what they carry follows from the withdrawal.
    have hroles : held.map HeldRole.role = [reader] := by
      rw [← ht', Flow.run_stores] at hprincipal
      exact congrArg (fun p => p.roles.map HeldRole.role) (Except.ok.inj hprincipal).symm
    obtain ⟨entry, rfl, hrole⟩ := List.map_eq_singleton_iff.1 hroles
    have hid : entry.role.id = owner.id := by
      rw [hrole]
      rfl
    have hnone : entry.permissions = [] := (hbare entry List.mem_cons_self hid).2 hwithdrawn
    rw [hafter, hprincipal, ← hrole, ← hnone]

/-- An account with the id of a deleted user comes into the user's roles, and a role with the id of
a deleted one into its permissions, though nothing was assigned or granted since. -/
theorem deleted_ids_return :
    let ann := User.make (.ofNat 1) "ann@example.org" "Ann" "Lee" default
    let bob := User.make (.ofNat 1) "bob@example.org" "Bob" "Ray" default
    let owner := Role.make (.ofNat 2) "owner" "" default
    let reader := Role.make (.ofNat 2) "reader" "" default
    let permission : Permission := ⟨.ofNat 3, "*", "admin", ""⟩
    let reachedByUser := reached [.users (.create ann), .roles (.create owner),
      .roles (.assign ann.id owner.id), .users (.delete ann.id), .users (.create bob)]
    let reachedByRole := reached [.roles (.create owner), .permissions (.create permission),
      .permissions (.grant owner.id [permission.id]), .roles (.delete owner.id),
      .roles (.create reader), .users (.create ann), .roles (.assign ann.id reader.id)]
    ((Resolve.principal bob.id).run Stores.answer reachedByUser).1 = .ok ⟨bob, [⟨owner, []⟩]⟩ ∧
      ((Resolve.principal ann.id).run Stores.answer reachedByRole).1 =
        .ok ⟨ann, [⟨reader, [permission]⟩]⟩ := by
  intro ann bob owner reader permission reachedByUser reachedByRole
  constructor
  · show ((Resolve.principal bob.id).run Stores.answer (reached _)).1 = _
    rw [reached_eq, Flow.run_stores]
    decide
  · show ((Resolve.principal ann.id).run Stores.answer (reached _)).1 = _
    rw [reached_eq, Flow.run_stores]
    decide

end Operation

end Gatehouse
