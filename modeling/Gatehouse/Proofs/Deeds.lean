import Gatehouse.Proofs.Tables
import Mathlib.Data.List.Nodup

/-!
# Deeds

Whatever succeeds in changing the tables does so by deeds: a record is created, updated or
deleted, a role assigned or taken away, a permission granted or taken away, each by one row.
`Deed.Fits` is what a deed requires of the tables, `Tables.after` what it leaves behind, and
`Done` strings deeds together.

A property of tables, or of tables and the deeds that led to them, then needs one case for each
kind of deed: `Done.preserves` turns such a step into a statement about every run.  The first
property shown that way is `Sound`: ids name one record each, and no assignment or grant names a
record that is not there.
-/

namespace Gatehouse

/-! ## Lists of records with keys -/

section Keyed

variable {α κ : Type} {key : α → κ} {xs : List α} {x : α} {id : κ}

lemma nodup_map_key_append (h : (xs.map key).Nodup) (hx : key x ∉ xs.map key) :
    ((xs ++ [x]).map key).Nodup := by
  rw [List.map_append, List.map_singleton]
  exact h.append (List.nodup_singleton _) (List.disjoint_singleton.2 hx)

lemma nodup_map_key_filter (h : (xs.map key).Nodup) (p : α → Bool) :
    ((xs.filter p).map key).Nodup :=
  h.sublist (List.filter_sublist.map key)

variable [DecidableEq κ]

lemma any_key : (xs.any fun y => key y == id) = true ↔ id ∈ xs.map key := by
  simp only [List.any_eq_true, beq_iff_eq, List.mem_map]

lemma find?_key_isSome : (xs.find? fun y => key y == id).isSome ↔ id ∈ xs.map key := by
  simp only [List.find?_isSome, beq_iff_eq, List.mem_map]

lemma find?_key_eq_none : (xs.find? fun y => key y == id) = none ↔ id ∉ xs.map key := by
  rw [← find?_key_isSome, Option.not_isSome_iff_eq_none]

lemma key_of_find?_key (h : (xs.find? fun y => key y == id) = some x) : key x = id :=
  beq_iff_eq.1 (List.find?_some (p := fun y => key y == id) h)

/-- Where keys name one record each, a record is found under its key. -/
lemma find?_key_of_mem (hids : (xs.map key).Nodup) (hx : x ∈ xs) :
    (xs.find? fun y => key y == key x) = some x := by
  obtain ⟨y, hy⟩ := Option.isSome_iff_exists.1
    (find?_key_isSome.2 (List.mem_map_of_mem (f := key) hx))
  have hkey : key y = key x := key_of_find?_key hy
  rw [hy, List.inj_on_of_nodup_map hids (List.mem_of_find?_eq_some hy) hx hkey]

/-- Where keys name one record each, what is found under a key is the only record that has it. -/
lemma find?_key_eq_some_iff (hids : (xs.map key).Nodup) :
    (xs.find? fun y => key y == id) = some x ↔ x ∈ xs ∧ key x = id := by
  constructor
  · exact fun h => ⟨List.mem_of_find?_eq_some h, key_of_find?_key h⟩
  · rintro ⟨hx, rfl⟩
    exact find?_key_of_mem hids hx

lemma find?_key_append :
    ((xs ++ [x]).find? fun y => key y == id) =
      (xs.find? fun y => key y == id).or (if key x = id then some x else none) := by
  rw [List.find?_append]
  by_cases h : key x = id <;> simp [h]

/-- A new record is found under its id, and all else as before. -/
lemma find?_key_append_new (hx : key x ∉ xs.map key) :
    ((xs ++ [x]).find? fun y => key y == id) =
      if key x = id then some x else xs.find? fun y => key y == id := by
  rw [find?_key_append]
  by_cases h : key x = id
  · subst h
    simp [find?_key_eq_none.2 hx]
  · simp [h]

/-- A replaced record is found under its id, and all else as before. -/
lemma find?_key_replaceFirst (hx : key x ∈ xs.map key) :
    ((replaceFirst (fun y => key y == key x) x xs).find? fun y => key y == id) =
      if key x = id then some x else xs.find? fun y => key y == id := by
  induction xs with
  | nil => exact absurd hx List.not_mem_nil
  | cons y ys ih =>
    by_cases hy : key y = key x
    · by_cases h : key x = id <;> simp [replaceFirst, hy, h]
    · have hys : key x ∈ ys.map key := by
        simpa [List.mem_map, Ne.symm hy] using hx
      by_cases h : key y = id
      · have hne : key x ≠ id := fun hx => hy (h.trans hx.symm)
        simp [replaceFirst, h, hne, hne.symm]
      · simp [replaceFirst, hy, h, ih hys]

/-- A deleted record is not found, and all else as before. -/
lemma find?_key_filter (gone : κ) :
    ((xs.filter fun y => key y != gone).find? fun y => key y == id) =
      if id = gone then none else xs.find? fun y => key y == id := by
  rw [List.find?_filter]
  by_cases h : id = gone
  · subst h
    simp
  · rw [if_neg h]
    congr 1
    funext y
    by_cases hy : key y = id <;> simp [hy, h]

/-- What is replaced is one record of the same key, where it stands. -/
lemma exists_replaceFirst (hx : key x ∈ xs.map key) :
    ∃ before old after, xs = before ++ old :: after ∧ key old = key x ∧
      replaceFirst (fun y => key y == key x) x xs = before ++ x :: after := by
  induction xs with
  | nil => exact absurd hx List.not_mem_nil
  | cons y ys ih =>
    by_cases hy : key y = key x
    · exact ⟨[], y, ys, rfl, hy, by simp [replaceFirst, hy]⟩
    · have hys : key x ∈ ys.map key := by
        simpa [List.mem_map, Ne.symm hy] using hx
      obtain ⟨before, old, after, rfl, hold, hreplaced⟩ := ih hys
      exact ⟨y :: before, old, after, rfl, hold, by simp [replaceFirst, hy, hreplaced]⟩

/-- Replacing a record by one of the same id changes no id. -/
lemma map_key_replaceFirst :
    (replaceFirst (fun y => key y == key x) x xs).map key = xs.map key := by
  induction xs with
  | nil => rfl
  | cons y ys ih => by_cases hy : key y = key x <;> simp [replaceFirst, hy, ih]

lemma mem_map_key_filter (gone : κ) :
    id ∈ (xs.filter fun y => key y != gone).map key ↔ id ∈ xs.map key ∧ id ≠ gone := by
  simp only [List.mem_map, List.mem_filter, bne_iff_ne]
  constructor
  · rintro ⟨y, ⟨hy, hne⟩, rfl⟩
    exact ⟨⟨y, hy, rfl⟩, hne⟩
  · rintro ⟨⟨y, hy, rfl⟩, hne⟩
    exact ⟨y, ⟨hy, hne⟩, rfl⟩

lemma filter_key_eq_self (h : id ∉ xs.map key) : (xs.filter fun y => key y != id) = xs := by
  refine List.filter_eq_self.2 fun y hy => bne_iff_ne.2 fun heq => h ?_
  exact heq ▸ List.mem_map_of_mem hy

end Keyed

/-! ## Deeds and what they do -/

/-- A change of one row. -/
inductive Deed where
  | createUser (user : User)
  | updateUser (user : User)
  | deleteUser (id : Uuid)
  | createRole (role : Role)
  | updateRole (role : Role)
  | deleteRole (id : Uuid)
  | assignRole (user role : Uuid)
  | revokeRole (user role : Uuid)
  | createPermission (permission : Permission)
  | updatePermission (permission : Permission)
  | deletePermission (id : Uuid)
  | grantPermission (role permission : Uuid)
  | revokePermission (role permission : Uuid)

/-- The ids of the users. -/
def UserTable.ids (table : UserTable) : List Uuid := table.map User.id

/-- The ids of the roles. -/
def RoleTable.ids (table : RoleTable) : List Uuid := table.roles.map Role.id

/-- The ids of the permissions. -/
def PermissionTable.ids (table : PermissionTable) : List Uuid :=
  table.permissions.map Permission.id

/-- What a deed requires of the tables. -/
def Deed.Fits (t : Tables) : Deed → Prop
  | createUser user => user.id ∉ t.users.ids ∧ user.email ∉ t.users.map User.email
  | updateUser user => user.id ∈ t.users.ids
  | createRole role => role.id ∉ t.roles.ids
  | updateRole role => role.id ∈ t.roles.ids
  | assignRole _ role => role ∈ t.roles.ids
  | createPermission permission => permission.id ∉ t.permissions.ids
  | updatePermission permission => permission.id ∈ t.permissions.ids
  | grantPermission _ permission => permission ∈ t.permissions.ids
  | _ => True

namespace Tables

/-- The tables after a deed. -/
def after (t : Tables) : Deed → Tables
  | .createUser user => t.withUsers (t.users ++ [user])
  | .updateUser user =>
    t.withUsers (replaceFirst (fun u => u.id == user.id) user t.users)
  | .deleteUser id => t.withUsers (t.users.delete id)
  | .createRole role => t.withRoles { t.roles with roles := t.roles.roles ++ [role] }
  | .updateRole role =>
    t.withRoles { t.roles with
      roles := replaceFirst (fun r => r.id == role.id) role t.roles.roles }
  | .deleteRole id => t.withRoles (t.roles.delete id)
  | .assignRole user role =>
    t.withRoles { t.roles with assignments := t.roles.assignments ++ [(user, role)] }
  | .revokeRole user role => t.withRoles (t.roles.revoke user role)
  | .createPermission permission =>
    t.withPermissions { t.permissions with
      permissions := t.permissions.permissions ++ [permission] }
  | .updatePermission permission =>
    t.withPermissions { t.permissions with
      permissions :=
        replaceFirst (fun p => p.id == permission.id) permission t.permissions.permissions }
  | .deletePermission id => t.withPermissions (t.permissions.delete id)
  | .grantPermission role permission =>
    t.withPermissions { t.permissions with
      grants := t.permissions.grants ++ [(role, permission)] }
  | .revokePermission role permission =>
    t.withPermissions (t.permissions.revoke role permission)

end Tables

/-- `Done t ds t'`: the deeds `ds`, done one after the other, lead from `t` to `t'`. -/
inductive Done : Tables → List Deed → Tables → Prop
  | nil (t : Tables) : Done t [] t
  | cons {t t' : Tables} {d : Deed} {ds : List Deed} :
      d.Fits t → Done (t.after d) ds t' → Done t (d :: ds) t'

namespace Done

variable {t t' t'' : Tables} {d : Deed} {ds es : List Deed}

lemma single (h : d.Fits t) : Done t [d] (t.after d) := .cons h (.nil _)

lemma append (h : Done t ds t') (h' : Done t' es t'') : Done t (ds ++ es) t'' := by
  induction h with
  | nil t => exact h'
  | cons hd _ ih => exact .cons hd (ih h')

/-- What each deed keeps of the tables and the deeds so far, every run of deeds keeps. -/
theorem preserves {I : List Deed → Tables → Prop}
    (step : ∀ (h : List Deed) (t : Tables) (d : Deed),
      I h t → d.Fits t → I (h ++ [d]) (t.after d))
    {h : List Deed} (hI : I h t) (hd : Done t ds t') : I (h ++ ds) t' := by
  induction hd generalizing h with
  | nil t => simpa using hI
  | @cons t t' d ds hfit _ ih => simpa using ih (step h t d hI hfit)

end Done

/-! ## Soundness -/

/-- Ids name one role each, and assignments name roles that are there. -/
structure RoleTable.Sound (table : RoleTable) : Prop where
  ids : table.ids.Nodup
  rows : ∀ row ∈ table.assignments, row.2 ∈ table.ids

/-- Ids name one permission each, and grants name permissions that are there. -/
structure PermissionTable.Sound (table : PermissionTable) : Prop where
  ids : table.ids.Nodup
  rows : ∀ row ∈ table.grants, row.2 ∈ table.ids

/-- Ids name one record each, and nothing is said about records that are not there. -/
structure Tables.Sound (t : Tables) : Prop where
  users : t.users.ids.Nodup
  roles : t.roles.Sound
  permissions : t.permissions.Sound

namespace Tables

lemma sound_empty : empty.Sound where
  users := List.nodup_nil
  roles := ⟨List.nodup_nil, by simp [empty, RoleTable.empty]⟩
  permissions := ⟨List.nodup_nil, by simp [empty, PermissionTable.empty]⟩

/-- A deed that fits keeps tables sound. -/
theorem Sound.after {t : Tables} {d : Deed} (h : t.Sound) (hd : d.Fits t) : (t.after d).Sound := by
  obtain ⟨hu, ⟨hr, har⟩, ⟨hp, hgp⟩⟩ := h
  cases d with
  | createUser user => exact ⟨nodup_map_key_append hu hd.1, ⟨hr, har⟩, ⟨hp, hgp⟩⟩
  | updateUser user =>
    have hids : (t.after (.updateUser user)).users.ids = t.users.ids := map_key_replaceFirst
    exact ⟨hids ▸ hu, ⟨hr, har⟩, ⟨hp, hgp⟩⟩
  | deleteUser id => exact ⟨nodup_map_key_filter hu _, ⟨hr, har⟩, ⟨hp, hgp⟩⟩
  | createRole role =>
    have hids : (t.after (.createRole role)).roles.ids = t.roles.ids ++ [role.id] :=
      List.map_append
    refine ⟨hu, ⟨nodup_map_key_append hr hd, fun row hrow => ?_⟩, ⟨hp, hgp⟩⟩
    exact hids ▸ List.mem_append_left _ (har row hrow)
  | updateRole role =>
    have hids : (t.after (.updateRole role)).roles.ids = t.roles.ids := map_key_replaceFirst
    exact ⟨hu, ⟨hids ▸ hr, fun row hrow => hids ▸ har row hrow⟩, ⟨hp, hgp⟩⟩
  -- The rows that are left are those that do not name the deleted role, so each names one that is
  -- left.
  | deleteRole id =>
    refine ⟨hu, ⟨nodup_map_key_filter hr _, fun row hrow => ?_⟩, ⟨hp, hgp⟩⟩
    obtain ⟨hrow, hne⟩ := List.mem_filter.1 hrow
    exact (mem_map_key_filter id).2 ⟨har row hrow, bne_iff_ne.1 hne⟩
  | assignRole user role =>
    refine ⟨hu, ⟨hr, fun row hrow => ?_⟩, ⟨hp, hgp⟩⟩
    obtain hrow | hrow := List.mem_append.1 hrow
    · exact har row hrow
    · rw [List.mem_singleton.1 hrow]
      exact hd
  | revokeRole user role =>
    exact ⟨hu, ⟨hr, fun row hrow => har row (List.mem_of_mem_filter hrow)⟩, ⟨hp, hgp⟩⟩
  | createPermission permission =>
    have hids : (t.after (.createPermission permission)).permissions.ids =
        t.permissions.ids ++ [permission.id] := List.map_append
    refine ⟨hu, ⟨hr, har⟩, ⟨nodup_map_key_append hp hd, fun row hrow => ?_⟩⟩
    exact hids ▸ List.mem_append_left _ (hgp row hrow)
  | updatePermission permission =>
    have hids : (t.after (.updatePermission permission)).permissions.ids = t.permissions.ids :=
      map_key_replaceFirst
    exact ⟨hu, ⟨hr, har⟩, ⟨hids ▸ hp, fun row hrow => hids ▸ hgp row hrow⟩⟩
  | deletePermission id =>
    refine ⟨hu, ⟨hr, har⟩, ⟨nodup_map_key_filter hp _, fun row hrow => ?_⟩⟩
    obtain ⟨hrow, hne⟩ := List.mem_filter.1 hrow
    exact (mem_map_key_filter id).2 ⟨hgp row hrow, bne_iff_ne.1 hne⟩
  | grantPermission role permission =>
    refine ⟨hu, ⟨hr, har⟩, ⟨hp, fun row hrow => ?_⟩⟩
    obtain hrow | hrow := List.mem_append.1 hrow
    · exact hgp row hrow
    · rw [List.mem_singleton.1 hrow]
      exact hd
  | revokePermission role permission =>
    exact ⟨hu, ⟨hr, har⟩, ⟨hp, fun row hrow => hgp row (List.mem_of_mem_filter hrow)⟩⟩

end Tables

/-- Deeds keep tables sound. -/
theorem Done.sound {t t' : Tables} {ds : List Deed} (hd : Done t ds t') (h : t.Sound) :
    t'.Sound :=
  hd.preserves (I := fun _ t => t.Sound) (h := []) (fun _ _ _ h hfit => h.after hfit) h

end Gatehouse
