import Gatehouse.Proofs.Operations
import Mathlib.Data.List.Forall2

/-!
# What a history of deeds says

A history of deeds says by itself which records there are, what is in them, who was assigned
what and which role was granted what; the tables need not be looked at.  `surviving` is the one
notion behind it: what deeds made and no later deed unmade, in order and as often as it was made.

Records of one kind are described by `RecordKind` and rows of one kind by `RowKind`, with one
lemma for each way in which a deed can bear on them.  `Told` says of tables that they are what a
history says, and each deed keeps it.

A principal is read off the tables by looking records up, and a look-up that fails would drop an
entry silently.  That none fails is soundness of the tables, so a resolved principal has exactly
one entry for each assignment the history tells of.
-/

namespace Gatehouse

/-! ## What was made and not unmade -/

section Surviving

variable {α : Type}

/-- What deeds made and no later deed unmade. -/
def surviving (makes : Deed → Option α) (unmakes : Deed → α → Bool) : List Deed → List α
  | [] => []
  | d :: rest =>
    match makes d with
    | none => surviving makes unmakes rest
    | some a =>
      if rest.any fun later => unmakes later a then surviving makes unmakes rest
      else a :: surviving makes unmakes rest

variable {makes : Deed → Option α} {unmakes : Deed → α → Bool}

/-- More deeds take away what they unmake and add what survives of what they make. -/
lemma surviving_append (h later : List Deed) :
    surviving makes unmakes (h ++ later) =
      (surviving makes unmakes h).filter (fun a => !later.any fun d => unmakes d a) ++
        surviving makes unmakes later := by
  induction h with
  | nil => rfl
  | cons d rest ih =>
    simp only [List.cons_append, surviving]
    cases hd : makes d with
    | none => exact ih
    | some a =>
      -- What `d` made was unmade in `h` already, or is unmade later, or survives both.
      by_cases hrest : rest.any fun e => unmakes e a
      · simp [hrest, ih]
      · by_cases hlater : later.any fun e => unmakes e a <;> simp [hrest, hlater, ih]

/-- One more deed takes away what it unmakes and adds what it makes. -/
lemma surviving_snoc (h : List Deed) (d : Deed) :
    surviving makes unmakes (h ++ [d]) =
      (surviving makes unmakes h).filter (fun a => !unmakes d a) ++ (makes d).toList := by
  rw [surviving_append]
  cases hd : makes d <;> simp [surviving, hd]

/-- What survives was made by some deed. -/
lemma exists_makes_of_mem_surviving {h : List Deed} {a : α}
    (ha : a ∈ surviving makes unmakes h) : ∃ d ∈ h, makes d = some a := by
  induction h with
  | nil => exact absurd ha List.not_mem_nil
  | cons d rest ih =>
    have hrest : a ∈ surviving makes unmakes rest → ∃ e ∈ d :: rest, makes e = some a := by
      intro hmem
      obtain ⟨e, he, hmakes⟩ := ih hmem
      exact ⟨e, List.mem_cons_of_mem d he, hmakes⟩
    unfold surviving at ha
    split at ha
    · exact hrest ha
    · next b hb =>
      split at ha
      · exact hrest ha
      · obtain rfl | ha := List.mem_cons.1 ha
        · exact ⟨d, List.mem_cons_self, hb⟩
        · exact hrest ha

end Surviving

/-! ## Records -/

/-- How deeds bear on records of one kind. -/
structure RecordKind (α : Type) where
  key : α → Uuid
  creates : Deed → Option α
  updates : Deed → Option α
  deletes : Deed → Option Uuid

namespace RecordKind

variable {α : Type} (kind : RecordKind α)

/-- The ids of the records there are: created and not deleted since. -/
def present : List Deed → List Uuid :=
  surviving (fun d => (kind.creates d).map kind.key) fun d id => kind.deletes d == some id

/-- The record that a deed writes. -/
def writes (d : Deed) : Option α := (kind.creates d).or (kind.updates d)

/-- What was last written under an id. -/
def latest? (h : List Deed) (id : Uuid) : Option α :=
  ((h.filterMap kind.writes).filter fun x => kind.key x == id).getLast?

variable {kind} in
/-- A deed that writes nothing leaves what was last written. -/
lemma latest?_snoc_none {h : List Deed} {d : Deed} (hd : kind.writes d = none) (id : Uuid) :
    kind.latest? (h ++ [d]) id = kind.latest? h id := by
  simp [latest?, hd]

variable {kind} in
/-- What a deed writes is last written under its id. -/
lemma latest?_snoc_some {h : List Deed} {d : Deed} {x : α} (hd : kind.writes d = some x)
    (id : Uuid) :
    kind.latest? (h ++ [d]) id = if kind.key x = id then some x else kind.latest? h id := by
  unfold latest?
  rw [List.filterMap_append, List.filter_append, List.getLast?_append]
  by_cases hx : kind.key x = id <;> simp [hd, hx]

/-- The records are those the history tells of, each as it was last written. -/
structure Told (h : List Deed) (xs : List α) : Prop where
  ids : xs.map kind.key = kind.present h
  latest : ∀ id ∈ xs.map kind.key, (xs.find? fun x => kind.key x == id) = kind.latest? h id

namespace Told

variable {kind} {h : List Deed} {xs : List α} {d : Deed}

/-- A record that is found under an id has it, and is what was last written under it. -/
lemma of_find (ht : kind.Told h xs) {id : Uuid} {x : α}
    (hx : (xs.find? fun x => kind.key x == id) = some x) :
    kind.key x = id ∧ kind.latest? h id = some x := by
  have hkey : kind.key x = id := key_of_find?_key hx
  have hid : id ∈ xs.map kind.key := hkey ▸ List.mem_map_of_mem (List.mem_of_find?_eq_some hx)
  exact ⟨hkey, ht.latest id hid ▸ hx⟩

/-- A deed that does not bear on the records. -/
lemma other (ht : kind.Told h xs) (hc : kind.creates d = none) (hu : kind.updates d = none)
    (hd : kind.deletes d = none) : kind.Told (h ++ [d]) xs := by
  have hw : kind.writes d = none := by rw [writes, hc, hu, Option.or_none]
  constructor
  · rw [present, surviving_snoc, ht.ids]
    simp [present, hc, hd]
  · intro id hid
    rw [latest?_snoc_none hw, ht.latest id hid]

/-- A new record is at the end. -/
lemma create (ht : kind.Told h xs) {x : α} (hx : kind.key x ∉ xs.map kind.key)
    (hc : kind.creates d = some x) (hd : kind.deletes d = none) :
    kind.Told (h ++ [d]) (xs ++ [x]) := by
  have hw : kind.writes d = some x := by rw [writes, hc, Option.some_or]
  constructor
  · rw [present, surviving_snoc, List.map_append, ht.ids]
    simp [present, hc, hd]
  · intro id hid
    rw [latest?_snoc_some hw, find?_key_append_new hx]
    by_cases heq : kind.key x = id
    · simp [heq]
    · have hold : id ∈ xs.map kind.key := by
        simpa [Ne.symm heq] using hid
      simpa [heq] using ht.latest id hold

/-- An updated record is where it was. -/
lemma update (ht : kind.Told h xs) {x : α} (hx : kind.key x ∈ xs.map kind.key)
    (hc : kind.creates d = none) (hu : kind.updates d = some x) (hd : kind.deletes d = none) :
    kind.Told (h ++ [d]) (replaceFirst (fun y => kind.key y == kind.key x) x xs) := by
  have hw : kind.writes d = some x := by rw [writes, hc, hu, Option.none_or]
  constructor
  · rw [present, surviving_snoc, map_key_replaceFirst, ht.ids]
    simp [present, hc, hd]
  · intro id hid
    rw [map_key_replaceFirst] at hid
    rw [latest?_snoc_some hw, find?_key_replaceFirst hx]
    by_cases heq : kind.key x = id
    · simp [heq]
    · simpa [heq] using ht.latest id hid

/-- A deleted record is gone. -/
lemma delete (ht : kind.Told h xs) {gone : Uuid} (hc : kind.creates d = none)
    (hu : kind.updates d = none) (hd : kind.deletes d = some gone) :
    kind.Told (h ++ [d]) (xs.filter fun x => kind.key x != gone) := by
  have hw : kind.writes d = none := by rw [writes, hc, hu, Option.or_none]
  constructor
  · have hfilter : (xs.filter fun x => kind.key x != gone).map kind.key =
        (kind.present h).filter fun id => !(kind.deletes d == some id) := by
      rw [← ht.ids, List.filter_map]
      refine congrArg _ (List.filter_congr fun x _ => ?_)
      show (kind.key x != gone) = !(kind.deletes d == some (kind.key x))
      rw [hd, Option.some_beq_some, BEq.comm, bne]
    rw [present, surviving_snoc, hfilter]
    simp [present, hc]
  · intro id hid
    obtain ⟨hold, hne⟩ := (mem_map_key_filter gone).1 hid
    rw [latest?_snoc_none hw, find?_key_filter, if_neg hne, ht.latest id hold]

end Told

end RecordKind

/-- How deeds bear on users. -/
def userRecords : RecordKind User where
  key := User.id
  creates | .createUser user => some user | _ => none
  updates | .updateUser user => some user | _ => none
  deletes | .deleteUser id => some id | _ => none

/-- How deeds bear on roles. -/
def roleRecords : RecordKind Role where
  key := Role.id
  creates | .createRole role => some role | _ => none
  updates | .updateRole role => some role | _ => none
  deletes | .deleteRole id => some id | _ => none

/-- How deeds bear on permissions. -/
def permissionRecords : RecordKind Permission where
  key := Permission.id
  creates | .createPermission permission => some permission | _ => none
  updates | .updatePermission permission => some permission | _ => none
  deletes | .deletePermission id => some id | _ => none

/-! ## Rows -/

/-- How deeds bear on rows of one kind. -/
structure RowKind where
  makes : Deed → Option (Uuid × Uuid)
  unmakes : Deed → Uuid × Uuid → Bool

namespace RowKind

variable (kind : RowKind)

/-- The rows there are: made and not unmade since, in order and as often as they were made. -/
def standing : List Deed → List (Uuid × Uuid) := surviving kind.makes kind.unmakes

/-- The second parts of the rows with a given first part. -/
def partners (h : List Deed) (id : Uuid) : List Uuid :=
  ((kind.standing h).filter fun row => row.1 == id).map Prod.snd

/-- The rows are those the history tells of. -/
def Told (h : List Deed) (rows : List (Uuid × Uuid)) : Prop := rows = kind.standing h

namespace Told

variable {kind} {h : List Deed} {rows : List (Uuid × Uuid)} {d : Deed}

/-- A deed that does not bear on the rows. -/
lemma other (ht : kind.Told h rows) (hm : kind.makes d = none)
    (hu : ∀ row, kind.unmakes d row = false) : kind.Told (h ++ [d]) rows := by
  rw [Told, standing, surviving_snoc, hm, ht]
  simp [hu, standing]

/-- A new row is at the end. -/
lemma make (ht : kind.Told h rows) {row : Uuid × Uuid} (hm : kind.makes d = some row)
    (hu : ∀ row, kind.unmakes d row = false) : kind.Told (h ++ [d]) (rows ++ [row]) := by
  rw [Told, standing, surviving_snoc, hm, ht]
  simp [hu, standing]

/-- Rows that are unmade are gone. -/
lemma unmake (ht : kind.Told h rows) (hm : kind.makes d = none) {keep : Uuid × Uuid → Bool}
    (hu : ∀ row, keep row = !kind.unmakes d row) : kind.Told (h ++ [d]) (rows.filter keep) := by
  have hkeep : keep = fun row => !kind.unmakes d row := funext hu
  rw [Told, standing, surviving_snoc, hm, ht, hkeep]
  simp [standing]

end Told

end RowKind

/-- How deeds bear on assignments: none is left of a role that is deleted, nor of a role to a
user from whom it is taken away. -/
def assignedRows : RowKind where
  makes | .assignRole user role => some (user, role) | _ => none
  unmakes
    | .revokeRole user role, row => row == (user, role)
    | .deleteRole id, row => row.2 == id
    | _, _ => false

/-- How deeds bear on grants: none is left of a permission that is deleted, nor of a permission
to a role from which it is taken away. -/
def grantedRows : RowKind where
  makes | .grantPermission role permission => some (role, permission) | _ => none
  unmakes
    | .revokePermission role permission, row => row == (role, permission)
    | .deletePermission id, row => row.2 == id
    | _, _ => false

/-! ## Tables and histories -/

/-- The tables are what a history says. -/
structure Told (h : List Deed) (t : Tables) : Prop where
  users : userRecords.Told h t.users
  roles : roleRecords.Told h t.roles.roles
  assignments : assignedRows.Told h t.roles.assignments
  permissions : permissionRecords.Told h t.permissions.permissions
  grants : grantedRows.Told h t.permissions.grants

namespace Told

lemma empty : Told [] .empty := by
  refine ⟨⟨rfl, ?_⟩, ⟨rfl, ?_⟩, rfl, ⟨rfl, ?_⟩, rfl⟩ <;> exact fun id hid => nomatch hid

/-- A deed that fits keeps tables what the history says. -/
theorem after {h : List Deed} {t : Tables} {d : Deed} (ht : Told h t) (hd : d.Fits t) :
    Told (h ++ [d]) (t.after d) := by
  obtain ⟨hu, hr, ha, hp, hg⟩ := ht
  cases d with
  | createUser user =>
    exact ⟨hu.create hd.1 rfl rfl, hr.other rfl rfl rfl, ha.other rfl fun _ => rfl,
      hp.other rfl rfl rfl, hg.other rfl fun _ => rfl⟩
  | updateUser user =>
    exact ⟨hu.update hd rfl rfl rfl, hr.other rfl rfl rfl, ha.other rfl fun _ => rfl,
      hp.other rfl rfl rfl, hg.other rfl fun _ => rfl⟩
  | deleteUser id =>
    exact ⟨hu.delete rfl rfl rfl, hr.other rfl rfl rfl, ha.other rfl fun _ => rfl,
      hp.other rfl rfl rfl, hg.other rfl fun _ => rfl⟩
  | createRole role =>
    exact ⟨hu.other rfl rfl rfl, hr.create hd rfl rfl, ha.other rfl fun _ => rfl,
      hp.other rfl rfl rfl, hg.other rfl fun _ => rfl⟩
  | updateRole role =>
    exact ⟨hu.other rfl rfl rfl, hr.update hd rfl rfl rfl, ha.other rfl fun _ => rfl,
      hp.other rfl rfl rfl, hg.other rfl fun _ => rfl⟩
  | deleteRole id =>
    exact ⟨hu.other rfl rfl rfl, hr.delete rfl rfl rfl, ha.unmake rfl fun _ => rfl,
      hp.other rfl rfl rfl, hg.other rfl fun _ => rfl⟩
  | assignRole user role =>
    exact ⟨hu.other rfl rfl rfl, hr.other rfl rfl rfl, ha.make rfl fun _ => rfl,
      hp.other rfl rfl rfl, hg.other rfl fun _ => rfl⟩
  | revokeRole user role =>
    exact ⟨hu.other rfl rfl rfl, hr.other rfl rfl rfl, ha.unmake rfl fun _ => rfl,
      hp.other rfl rfl rfl, hg.other rfl fun _ => rfl⟩
  | createPermission permission =>
    exact ⟨hu.other rfl rfl rfl, hr.other rfl rfl rfl, ha.other rfl fun _ => rfl,
      hp.create hd rfl rfl, hg.other rfl fun _ => rfl⟩
  | updatePermission permission =>
    exact ⟨hu.other rfl rfl rfl, hr.other rfl rfl rfl, ha.other rfl fun _ => rfl,
      hp.update hd rfl rfl rfl, hg.other rfl fun _ => rfl⟩
  | deletePermission id =>
    exact ⟨hu.other rfl rfl rfl, hr.other rfl rfl rfl, ha.other rfl fun _ => rfl,
      hp.delete rfl rfl rfl, hg.unmake rfl fun _ => rfl⟩
  | grantPermission role permission =>
    exact ⟨hu.other rfl rfl rfl, hr.other rfl rfl rfl, ha.other rfl fun _ => rfl,
      hp.other rfl rfl rfl, hg.make rfl fun _ => rfl⟩
  | revokePermission role permission =>
    exact ⟨hu.other rfl rfl rfl, hr.other rfl rfl rfl, ha.other rfl fun _ => rfl,
      hp.other rfl rfl rfl, hg.unmake rfl fun _ => rfl⟩

end Told

/-! ## Principals -/

/-- Looking up what is all there gives one record for each id. -/
lemma forall₂_filterMap {α β : Type} {f : α → Option β} {xs : List α}
    (h : ∀ x ∈ xs, (f x).isSome) : List.Forall₂ (fun x y => f x = some y) xs (xs.filterMap f) := by
  induction xs with
  | nil => exact .nil
  | cons x rest ih =>
    obtain ⟨y, hy⟩ := Option.isSome_iff_exists.1 (h x List.mem_cons_self)
    rw [List.filterMap_cons_some hy]
    exact .cons hy (ih fun z hz => h z (List.mem_cons_of_mem _ hz))

namespace Resolve

/-- The permissions of each role are read off the table of permissions. -/
lemma run_withPermissions (t : Tables) (roles : List Role) :
    (withPermissions 0 roles).run Tables.answer t =
      (.ok (roles.map fun role => ⟨role, t.permissions.carriedBy role.id⟩), t) := by
  induction roles with
  | nil => rfl
  | cons role rest ih =>
    simp [withPermissions, PermissionOp.step, ih]

/-- The roles of a user are read off the tables of roles and permissions. -/
lemma run_rolesOf (t : Tables) (user : Uuid) :
    (rolesOf user).run Tables.answer t =
      (.ok ((t.roles.heldBy user).map fun role => ⟨role, t.permissions.carriedBy role.id⟩), t) := by
  simp only [rolesOf, Flow.run_bind, Tables.run_rolesInUse, Tables.run_roles, RoleOp.step,
    Tables.withRoles_self]
  cases t.roles.heldBy user with
  | nil => rfl
  | cons role rest =>
    simp only [Flow.run_bind, Tables.run_permissionsInUse, run_withPermissions]

/-- A principal is read off the tables. -/
theorem run_principal (t : Tables) (user : Uuid) :
    (principal user).run Tables.answer t =
      (match t.users.find? user with
        | none => .error .userNotFound
        | some u => .ok ⟨u, (t.roles.heldBy u.id).map fun role =>
            ⟨role, t.permissions.carriedBy role.id⟩⟩, t) := by
  simp only [principal, Flow.run_bind, Tables.run_usersInUse, Tables.run_users, UserOp.step,
    Tables.withUsers_self]
  cases t.users.find? user with
  | none => rfl
  | some u => simp only [Flow.run_bind, run_rolesOf, Flow.run_pure]

end Resolve

/-- What a history says of a role that is held: the role as last written, and for each of its
grants that stand the permission as last written. -/
structure HeldRole.ToldBy (h : List Deed) (id : Uuid) (held : HeldRole) : Prop where
  role : roleRecords.latest? h id = some held.role
  permissions : List.Forall₂ (fun permission p => permissionRecords.latest? h permission = some p)
    (grantedRows.partners h id) held.permissions

/-- What a history says of a principal: the user as last written, and a role for each of their
assignments that stand. -/
structure Principal.ToldBy (h : List Deed) (id : Uuid) (p : Principal) : Prop where
  user : userRecords.latest? h id = some p.user
  roles : List.Forall₂ (HeldRole.ToldBy h) (assignedRows.partners h id) p.roles

namespace Told

variable {h : List Deed} {t : Tables}

/-- The permissions that a role carries are those the history says it was granted. -/
lemma carriedBy (ht : Told h t) (hs : t.permissions.Sound) (role : Uuid) :
    List.Forall₂ (fun id p => permissionRecords.latest? h id = some p)
      (grantedRows.partners h role) (t.permissions.carriedBy role) := by
  rw [RowKind.partners, ← ht.grants, List.forall₂_map_left_iff]
  -- Soundness is what makes every look-up succeed, so no grant is dropped on the way.
  refine (forall₂_filterMap fun row hrow => ?_).imp fun row p hp => ?_
  · exact find?_key_isSome.2 (hs.rows row (List.mem_of_mem_filter hrow))
  · exact (ht.permissions.of_find hp).2

/-- The roles that a user holds are those the history says they were assigned. -/
lemma heldBy (ht : Told h t) (hs : t.Sound) (user : Uuid) :
    List.Forall₂ (HeldRole.ToldBy h) (assignedRows.partners h user)
      ((t.roles.heldBy user).map fun role => ⟨role, t.permissions.carriedBy role.id⟩) := by
  rw [RowKind.partners, ← ht.assignments, List.forall₂_map_left_iff, List.forall₂_map_right_iff]
  refine (forall₂_filterMap fun row hrow => ?_).imp fun row role hrole => ?_
  · exact find?_key_isSome.2 (hs.roles.rows row (List.mem_of_mem_filter hrow))
  · obtain ⟨hid, hlatest⟩ := ht.roles.of_find hrole
    refine ⟨hlatest, ?_⟩
    rw [← hid]
    exact ht.carriedBy hs.permissions _

end Told

namespace Operation

/-- A history and the tables it leads to agree. -/
theorem exists_tables_told (operations : List Operation) :
    ∃ t : Tables, t.Sound ∧ reached operations = t.stores ∧
      Told (((history operations).run Stores.answer Stores.empty).1.flatMap Event.deeds) t := by
  obtain ⟨t, hreached, hdone⟩ := exists_tables_done operations
  have htold := hdone.preserves (I := Told) (h := []) (fun _ _ _ ht hfit => ht.after hfit) .empty
  exact ⟨t, hdone.sound Tables.sound_empty, hreached, htold⟩

/-- A principal is resolved exactly as the history of operations says. -/
theorem principal_of_history (operations : List Operation) (user : Uuid) :
    let run := (history operations).run Stores.answer Stores.empty
    let told := run.1.flatMap Event.deeds
    let outcome := ((Resolve.principal user).run Stores.answer run.2).1
    (user ∉ userRecords.present told → outcome = .error .userNotFound) ∧
      (user ∈ userRecords.present told → ∃ p, outcome = .ok p ∧ p.ToldBy told user) := by
  intro run told outcome
  obtain ⟨t, hs, hreached, ht⟩ := exists_tables_told operations
  have houtcome : outcome = ((Resolve.principal user).run Tables.answer t).1 := by
    show ((Resolve.principal user).run Stores.answer (reached operations)).1 = _
    rw [hreached, Flow.run_stores]
  -- Whether the user is there is the same question to the history and to the table.
  rw [houtcome, Resolve.run_principal, ← ht.users.ids]
  constructor
  · intro huser
    have hnone : t.users.find? user = none := find?_key_eq_none.2 huser
    rw [hnone]
  · intro huser
    obtain ⟨u, hu⟩ := Option.isSome_iff_exists.1 (find?_key_isSome.2 huser)
    obtain ⟨hid, hlatest⟩ := ht.users.of_find hu
    have hfind : t.users.find? user = some u := hu
    rw [hfind]
    refine ⟨_, rfl, hlatest, ?_⟩
    rw [← hid]
    exact ht.heldBy hs _

end Operation

end Gatehouse
