import Gatehouse.Proofs.History

/-!
# Look-ups that drop nothing

The roles of a user are found through assignments and the permissions of a role through grants,
and a row that names a record which is not there is passed over in silence.  A look-up is therefore
complete only as long as no such row exists, which is what soundness of the tables says: then the
records found have, in order, the ids that the rows name.

Every deed keeps tables sound (`Tables.Sound.after`), a deletion by taking the rows along and a
grant of several permissions by looking at all of them before it adds the first row.
-/

namespace Gatehouse

/-- Where all records that rows name are there, the records found are those named. -/
lemma map_key_filterMap_find? {α : Type} {key : α → Uuid} {xs : List α}
    {rows : List (Uuid × Uuid)} (h : ∀ row ∈ rows, row.2 ∈ xs.map key) :
    (rows.filterMap fun row => xs.find? fun x => key x == row.2).map key =
      rows.map Prod.snd := by
  induction rows with
  | nil => rfl
  | cons row rest ih =>
    obtain ⟨x, hx⟩ := Option.isSome_iff_exists.1 (find?_key_isSome.2 (h row List.mem_cons_self))
    have hkey : key x = row.2 := key_of_find?_key hx
    have hrest := ih fun r hr => h r (List.mem_cons_of_mem _ hr)
    simp only [List.filterMap_cons, hx, List.map_cons, hkey, hrest]

/-! ## Roles through assignments -/

namespace RoleTable

variable {table : RoleTable}

/-- The roles a user holds are those of the user's assignments. -/
lemma heldBy_ids (h : table.Sound) (user : Uuid) :
    (table.heldBy user).map Role.id =
      (table.assignments.filter fun row => row.1 == user).map Prod.snd :=
  map_key_filterMap_find? fun row hrow => h.rows row (List.mem_of_mem_filter hrow)

/-- A role is held by a user when it is there and assigned to the user. -/
lemma mem_heldBy {user : Uuid} {role : Role} :
    role ∈ table.heldBy user ↔
      (user, role.id) ∈ table.assignments ∧ table.find? role.id = some role := by
  simp only [heldBy, List.mem_filterMap, List.mem_filter, beq_iff_eq]
  constructor
  · rintro ⟨⟨holder, id⟩, ⟨hrow, rfl⟩, hfind⟩
    obtain rfl : role.id = id := key_of_find?_key hfind
    exact ⟨hrow, hfind⟩
  · rintro ⟨hrow, hfind⟩
    exact ⟨(user, role.id), ⟨hrow, rfl⟩, hfind⟩

end RoleTable

/-! ## Permissions through grants -/

namespace PermissionTable

variable {table : PermissionTable}

/-- The permissions a role carries are those of the role's grants. -/
lemma carriedBy_ids (h : table.Sound) (role : Uuid) :
    (table.carriedBy role).map Permission.id =
      (table.grants.filter fun row => row.1 == role).map Prod.snd :=
  map_key_filterMap_find? fun row hrow => h.rows row (List.mem_of_mem_filter hrow)

/-- A permission is carried by a role when it is there and granted to the role. -/
lemma mem_carriedBy {role : Uuid} {permission : Permission} :
    permission ∈ table.carriedBy role ↔
      (role, permission.id) ∈ table.grants ∧ table.find? permission.id = some permission := by
  simp only [carriedBy, List.mem_filterMap, List.mem_filter, beq_iff_eq]
  constructor
  · rintro ⟨⟨carrier, id⟩, ⟨hrow, rfl⟩, hfind⟩
    obtain rfl : permission.id = id := key_of_find?_key hfind
    exact ⟨hrow, hfind⟩
  · rintro ⟨hrow, hfind⟩
    exact ⟨(role, permission.id), ⟨hrow, rfl⟩, hfind⟩

/-- Where one of several permissions is not there, none is granted, and the failure names one that
is not there. -/
lemma grant_of_unknown (role : Uuid) {ids : List Uuid} (h : ∃ id ∈ ids, id ∉ table.ids) :
    ∃ unknown ∈ ids, unknown ∉ table.ids ∧
      table.grant role ids = (.error (.missing entity unknown.text), table) := by
  obtain ⟨id, hid, hnew⟩ := h
  -- The store names the first unknown id of the request, which need not be the one that is given.
  have hsome : (ids.find? fun id => !table.has id).isSome :=
    List.find?_isSome.2 ⟨id, hid, by simp [has_eq_false.2 hnew]⟩
  obtain ⟨unknown, hunknown⟩ := Option.isSome_iff_exists.1 hsome
  have hnot : table.has unknown = false := by simpa using List.find?_some hunknown
  exact ⟨unknown, List.mem_of_find?_eq_some hunknown, has_eq_false.1 hnot,
    by simp only [grant, hunknown]⟩

end PermissionTable

/-! ## Principals -/

namespace Resolve

variable {t : Tables}

/-- Somebody is resolved when they are there, to the roles they hold with what these carry. -/
lemma principal_eq_ok {user : Uuid} {p : Principal} :
    ((principal user).run Tables.answer t).1 = .ok p ↔
      t.users.find? user = some p.user ∧ p.roles = (t.roles.heldBy user).map fun role =>
        ⟨role, t.permissions.carriedBy role.id⟩ := by
  rw [run_principal]
  cases hfind : t.users.find? user with
  | none => simp
  | some u =>
    obtain rfl : u.id = user := key_of_find?_key hfind
    obtain ⟨v, held⟩ := p
    simp [eq_comm]

/-- A user who is there is resolved, with the roles held and what these carry. -/
lemma principal_of_mem (ht : t.Sound) {user : User} (huser : user ∈ t.users) :
    ((principal user.id).run Tables.answer t).1 =
      .ok ⟨user, (t.roles.heldBy user.id).map fun role =>
        ⟨role, t.permissions.carriedBy role.id⟩⟩ :=
  principal_eq_ok.2 ⟨find?_key_of_mem ht.users huser, rfl⟩

end Resolve

/-! ## What operations reach -/

/-- Whatever is done, ids name one role and one permission each, assignments name roles and grants
permissions that are there, so that each row is answered for in a look-up; and a grant that names
an unknown permission anywhere fails and adds nothing. -/
theorem Operation.look_ups_complete (operations : List Operation) :
    ∃ t : Tables, reached operations = t.stores ∧
      t.roles.ids.Nodup ∧ t.permissions.ids.Nodup ∧
      (∀ row ∈ t.roles.assignments, row.2 ∈ t.roles.ids) ∧
      (∀ row ∈ t.permissions.grants, row.2 ∈ t.permissions.ids) ∧
      (∀ user, (t.roles.heldBy user).length =
        t.roles.assignments.countP fun row => row.1 == user) ∧
      (∀ role, (t.permissions.carriedBy role).length =
        t.permissions.grants.countP fun row => row.1 == role) ∧
      ∀ role ids, (∃ id ∈ ids, id ∉ t.permissions.ids) →
        ∃ unknown ∈ ids, unknown ∉ t.permissions.ids ∧
          t.permissions.grant role ids =
            (.error (.missing PermissionTable.entity unknown.text), t.permissions) := by
  obtain ⟨t, ht, hreached⟩ := exists_tables_reached operations
  refine ⟨t, hreached, ht.roles.ids, ht.permissions.ids, ht.roles.rows, ht.permissions.rows,
    fun user => ?_, fun role => ?_, fun role ids => PermissionTable.grant_of_unknown role⟩
  · -- A look-up drops a row that names nothing, so it is by soundness that the lengths agree.
    rw [List.countP_eq_length_filter]
    simpa using congrArg List.length (RoleTable.heldBy_ids ht.roles user)
  · rw [List.countP_eq_length_filter]
    simpa using congrArg List.length (PermissionTable.carriedBy_ids ht.permissions role)

end Gatehouse
