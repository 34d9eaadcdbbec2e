import Gatehouse.Proofs.Deeds
import Mathlib.Data.List.Basic

/-!
# Granting a batch, whatever fails

A batch is stored permission by permission, then granted in one step; when a step fails, what
was stored is taken back, best effort.  The run is followed here under any way of answering in
which requests may fail before they reach a store (`MayFail`).

What the run leaves behind after a failure is said through its own steps: `Step.stored?` reads
off what it stored, `Step.kept?` what it failed to take back, and `leftBehind` is the part of
the former that is in the latter.  That the taking back removes nothing else rests on soundness
of the table: a permission that is not there has no grants, so the grants that go with it when
it is taken back are none.
-/

namespace Gatehouse

/-! ## Reading off what a run stored and failed to take back -/

/-- The permission that a step stored. -/
def Step.stored? : Step → Option Permission
  | ⟨.permissions _ (.create permission), .ok _⟩ => some permission
  | _ => none

/-- The permission that a step failed to take back. -/
def Step.kept? : Step → Option Uuid
  | ⟨.permissions _ (.delete id), .error _⟩ => some id
  | _ => none

/-- The permissions stored in some steps that were meant to be taken back again and were not. -/
def leftBehind (steps : List Step) : List Permission :=
  (steps.filterMap Step.stored?).filter fun p => p.id ∈ steps.filterMap Step.kept?

/-- The rows by which a batch is granted. -/
def grantRows (role : Uuid) (batch : List Permission) : List (Uuid × Uuid) :=
  batch.map fun p => (role, p.id)

namespace PermissionTable

variable {table : PermissionTable}

lemma has_iff {id : Uuid} : table.has id = true ↔ id ∈ table.ids := any_key

lemma has_eq_false {id : Uuid} : table.has id = false ↔ id ∉ table.ids := by
  rw [← has_iff, Bool.not_eq_true]

/-- What is created is at the end; it was not there before. -/
lemma create_ok {p : Permission} {table' : PermissionTable}
    (h : table.create p = (.ok (), table')) :
    p.id ∉ table.ids ∧ table' = ⟨table.permissions ++ [p], table.grants⟩ := by
  unfold create at h
  split at h
  · exact nomatch h
  · next hp =>
    obtain ⟨-, rfl⟩ := Prod.mk.inj h
    exact ⟨fun hmem => hp (has_iff.2 hmem), rfl⟩

/-- A creation that is refused changes nothing. -/
lemma create_error {p : Permission} {e : StoreError} {table' : PermissionTable}
    (h : table.create p = (.error e, table')) : p.id ∈ table.ids ∧ table' = table := by
  unfold create at h
  split at h
  · next hp => exact ⟨has_iff.1 hp, (Prod.mk.inj h).2.symm⟩
  · exact nomatch h

/-- Permissions that are all there are granted. -/
lemma grant_of_subset {role : Uuid} {ids : List Uuid} (h : ∀ id ∈ ids, id ∈ table.ids) :
    table.grant role ids =
      (.ok (), ⟨table.permissions, table.grants ++ ids.map fun id => (role, id)⟩) := by
  have hnone : ids.find? (fun id => !table.has id) = none := by
    rw [List.find?_eq_none]
    intro id hid
    simp [has_iff.2 (h id hid)]
  simp [grant, hnone]

/-- Deleting a permission that was granted to nobody takes no grant away. -/
lemma delete_of_ungranted {id : Uuid} (h : ∀ row ∈ table.grants, row.2 ≠ id) :
    table.delete id = ⟨table.permissions.filter fun q => q.id != id, table.grants⟩ := by
  unfold delete
  rw [List.filter_eq_self.2 fun row hrow => bne_iff_ne.2 (h row hrow)]

/-- Taking back one of some permissions, which nothing refers to, leaves the others. -/
lemma delete_of_unused {base rest : List Permission} {p : Permission}
    {grants : List (Uuid × Uuid)} (hids : ((base ++ p :: rest).map Permission.id).Nodup)
    (hgrants : ∀ row ∈ grants, row.2 ≠ p.id) :
    delete ⟨base ++ p :: rest, grants⟩ p.id = ⟨base ++ rest, grants⟩ := by
  -- The permission is brought to the front, so that distinctness says its id is in neither part.
  have hnodup := (List.perm_middle.map Permission.id).nodup_iff.1 hids
  rw [List.map_cons, List.nodup_cons, List.map_append, List.mem_append, not_or] at hnodup
  obtain ⟨⟨hbase, hrest⟩, -⟩ := hnodup
  rw [delete_of_ungranted hgrants]
  show PermissionTable.mk ((base ++ p :: rest).filter fun q => q.id != p.id) grants = _
  rw [List.filter_append, List.filter_cons_of_neg (by simp), filter_key_eq_self hbase,
    filter_key_eq_self hrest]

end PermissionTable

/-! ## Taking back -/

namespace Admin

@[simp] lemma discard_nil (place : Nat) : discard place [] = .done () := rfl

/-- Taking back a permission is one step, and then the others are taken back. -/
lemma discard_cons (place : Nat) (id : Uuid) (rest : List Uuid) :
    discard place (id :: rest) =
      .call (.permissions place (.delete id)) fun _ => discard place rest := rfl

variable {σ : Type} {answer : (c : Call) → σ → c.Answer × σ} {keeps : σ → Tables → Prop}
  {fallible : Call → Prop}

/-- What is left of a batch after it was taken back in some steps. -/
structure TakenBack (keeps : σ → Tables → Prop) (fallible : Call → Prop) (t : Tables)
    (base batch : List Permission) (grants : List (Uuid × Uuid)) (steps : List Step) (s : σ) :
    Prop where
  stored : steps.filterMap Step.stored? = []
  tables : keeps s (t.withPermissions
    ⟨base ++ batch.filter fun p => p.id ∈ steps.filterMap Step.kept?, grants⟩)
  kept : ∀ id ∈ steps.filterMap Step.kept?,
    id ∈ batch.map Permission.id ∧ fallible (.permissions 0 (.delete id))

namespace TakenBack

variable {t : Tables} {base rest : List Permission} {p : Permission}
  {grants : List (Uuid × Uuid)} {steps : List Step} {s : σ}

/-- A permission whose deletion failed stays, in front of what is taken back after it. -/
lemma cons_kept {e : StoreError}
    (h : TakenBack keeps fallible t (base ++ [p]) rest grants steps s)
    (hp : p.id ∉ rest.map Permission.id) (hfall : fallible (.permissions 0 (.delete p.id))) :
    TakenBack keeps fallible t base (p :: rest) grants
      (⟨.permissions 0 (.delete p.id), .error e⟩ :: steps) s := by
  have hcons : List.filterMap Step.kept? (⟨.permissions 0 (.delete p.id), .error e⟩ :: steps) =
      p.id :: steps.filterMap Step.kept? := rfl
  have hfilter : rest.filter (fun q => q.id ∈ p.id :: steps.filterMap Step.kept?) =
      rest.filter fun q => q.id ∈ steps.filterMap Step.kept? := by
    refine List.filter_congr fun q hq => ?_
    have hne : q.id ≠ p.id := fun heq => hp (heq ▸ List.mem_map_of_mem hq)
    simp [hne]
  refine ⟨h.stored, ?_, ?_⟩
  · rw [hcons, List.filter_cons_of_pos (by simp), hfilter, List.append_cons]
    exact h.tables
  · rw [hcons, List.forall_mem_cons]
    exact ⟨⟨List.mem_cons_self, hfall⟩, fun id hid =>
      ⟨List.mem_cons_of_mem _ (h.kept id hid).1, (h.kept id hid).2⟩⟩

/-- A permission whose deletion went through is gone, and nothing else. -/
lemma cons_gone (h : TakenBack keeps fallible t base rest grants steps s)
    (hp : p.id ∉ rest.map Permission.id) :
    TakenBack keeps fallible t base (p :: rest) grants
      (⟨.permissions 0 (.delete p.id), .ok ()⟩ :: steps) s := by
  have hgone : p.id ∉ steps.filterMap Step.kept? := fun hmem => hp (h.kept p.id hmem).1
  have hfilter : (p :: rest).filter (fun q => q.id ∈ steps.filterMap Step.kept?) =
      rest.filter fun q => q.id ∈ steps.filterMap Step.kept? :=
    List.filter_cons_of_neg (by simpa using hgone)
  refine ⟨h.stored, hfilter ▸ h.tables, fun id hid => ?_⟩
  exact ⟨List.mem_cons_of_mem _ (h.kept id hid).1, (h.kept id hid).2⟩

end TakenBack

/-- Taking back permissions that nothing refers to leaves those whose deletion failed. -/
lemma discard_takenBack (h : MayFail answer keeps fallible) {t : Tables}
    {grants : List (Uuid × Uuid)} (batch : List Permission) :
    ∀ {base : List Permission} {s : σ},
      keeps s (t.withPermissions ⟨base ++ batch, grants⟩) →
      ((base ++ batch).map Permission.id).Nodup →
      (∀ row ∈ grants, row.2 ∉ batch.map Permission.id) →
      TakenBack keeps fallible t base batch grants
        ((discard 0 (batch.map Permission.id)).steps answer s)
        ((discard 0 (batch.map Permission.id)).run answer s).2 := by
  -- A permission whose deletion fails joins `base`, so `base` varies along the induction.
  induction batch with
  | nil =>
    intro base s hs _ _
    rw [List.append_nil] at hs
    exact ⟨rfl, by simpa [Flow.run_done] using hs, fun id hid => nomatch hid⟩
  | cons p rest ih =>
    intro base s hs hids hgrants
    have hp : p.id ∉ rest.map Permission.id := by
      rw [List.map_append, List.map_cons] at hids
      exact (List.nodup_cons.1 hids.of_append_right).1
    have hrest : ∀ row ∈ grants, row.2 ∉ rest.map Permission.id := fun row hrow hmem =>
      hgrants row hrow (List.mem_cons_of_mem _ hmem)
    rw [List.map_cons, discard_cons, Flow.run_call, Flow.steps_call]
    obtain ⟨hfall, ⟨e, he⟩, hk⟩ | ⟨hok, hk⟩ := h.permissions hs (.delete p.id)
    · rw [List.append_cons] at hk hids
      rw [he]
      exact (ih hk hids hrest).cons_kept hp hfall
    · have hunused : ∀ row ∈ grants, row.2 ≠ p.id := fun row hrow heq =>
        hgrants row hrow (heq ▸ List.mem_cons_self)
      have hdel : (t.withPermissions ⟨base ++ p :: rest, grants⟩).permissions.delete p.id =
          ⟨base ++ rest, grants⟩ := PermissionTable.delete_of_unused hids hunused
      have hk : keeps (answer (.permissions 0 (.delete p.id)) s).2
          (t.withPermissions ⟨base ++ rest, grants⟩) := by
        rw [← hdel]
        exact hk
      rw [hok]
      refine (ih hk ?_ hrest).cons_gone hp
      exact hids.sublist (((List.sublist_cons_self p rest).append_left base).map _)

/-! ## Storing and granting -/

/-- Storing a permission is one step; when it fails, what was stored before is taken back. -/
lemma storeAndGrant_cons (place : Nat) (role : Uuid) (stored : List Uuid) (p : Permission)
    (rest : List Permission) :
    storeAndGrant place role stored (p :: rest) =
      .call (.permissions place (.create p)) fun
        | .ok _ => storeAndGrant place role (stored ++ [p.id]) rest
        | .error e => undo place stored e :=
  congrArg (Flow.call _) (funext fun answer => by cases answer <;> rfl)

/-- Granting is one step; when it fails, what was stored is taken back. -/
lemma storeAndGrant_nil (place : Nat) (role : Uuid) (stored : List Uuid) :
    storeAndGrant place role stored [] =
      .call (.permissions place (.grant role stored)) fun
        | .ok _ => .done (.ok ())
        | .error e => undo place stored e :=
  congrArg (Flow.call _) (funext fun answer => by cases answer <;> rfl)

/-- What storing the rest of a batch and then granting all of it comes to, when `stored` is the
part of the batch that was stored before. -/
def Ends (keeps : σ → Tables → Prop) (fallible : Call → Prop) (t : Tables) (role : Uuid)
    (stored rest : List Permission) (steps : List Step) :
    Except AdminError Unit × σ → Prop
  | (.ok _, s) =>
    keeps s (t.withPermissions
        ⟨t.permissions.permissions ++ (stored ++ rest),
          t.permissions.grants ++ grantRows role (stored ++ rest)⟩) ∧
      ((t.permissions.permissions ++ (stored ++ rest)).map Permission.id).Nodup
  | (.error _, s) =>
    keeps s (t.withPermissions
        ⟨t.permissions.permissions ++ (stored ++ steps.filterMap Step.stored?).filter
          (fun p => p.id ∈ steps.filterMap Step.kept?), t.permissions.grants⟩) ∧
      ∀ id ∈ steps.filterMap Step.kept?, fallible (.permissions 0 (.delete id))

namespace Ends

variable {t : Tables} {role : Uuid} {stored rest : List Permission} {steps : List Step}
  {outcome : Except AdminError Unit × σ}

/-- A step that stores nothing and takes nothing back does not count. -/
lemma cons_other (h : Ends keeps fallible t role stored rest steps outcome) {step : Step}
    (hstored : step.stored? = none) (hkept : step.kept? = none) :
    Ends keeps fallible t role stored rest (step :: steps) outcome := by
  obtain ⟨_ | _, s⟩ := outcome
  · simpa only [Ends, List.filterMap_cons_none hstored, List.filterMap_cons_none hkept] using h
  · exact h

/-- A step that stores the next permission of the batch. -/
lemma cons_stored {p : Permission}
    (h : Ends keeps fallible t role (stored ++ [p]) rest steps outcome) :
    Ends keeps fallible t role stored (p :: rest)
      (⟨.permissions 0 (.create p), .ok ()⟩ :: steps) outcome := by
  obtain ⟨_ | _, s⟩ := outcome
  · simp only [Ends, List.append_assoc, List.singleton_append] at h
    exact h
  · simpa only [Ends, List.append_assoc, List.singleton_append] using h

end Ends

/-- Taking back all that was stored ends the run with the failure that made it necessary. -/
lemma undo_ends (h : MayFail answer keeps fallible) {t : Tables} (ht : t.permissions.Sound)
    (role : Uuid) {stored rest : List Permission} {s : σ} (e : StoreError)
    (hs : keeps s (t.withPermissions
      ⟨t.permissions.permissions ++ stored, t.permissions.grants⟩))
    (hids : ((t.permissions.permissions ++ stored).map Permission.id).Nodup) :
    Ends keeps fallible t role stored rest
      ((undo 0 (stored.map Permission.id) e).steps answer s)
      ((undo 0 (stored.map Permission.id) e).run answer s) := by
  -- Grants name what was there before the batch, and the batch shares no id with it.
  have hunused : ∀ row ∈ t.permissions.grants, row.2 ∉ stored.map Permission.id := by
    intro row hrow hmem
    rw [List.map_append] at hids
    exact List.disjoint_of_nodup_append hids (ht.rows row hrow) hmem
  have hback := discard_takenBack h stored hs hids hunused
  simp only [undo, Flow.run_bind, Flow.run_pure, Flow.steps_bind, Flow.steps_pure,
    List.append_nil]
  refine ⟨?_, fun id hid => (hback.kept id hid).2⟩
  rw [hback.stored, List.append_nil]
  exact hback.tables

/-- The rest of a batch is stored and all of it granted, or what was stored is taken back. -/
lemma storeAndGrant_ends (h : MayFail answer keeps fallible) {t : Tables}
    (ht : t.permissions.Sound) (role : Uuid) (rest : List Permission) :
    ∀ {stored : List Permission} {s : σ},
      keeps s (t.withPermissions
        ⟨t.permissions.permissions ++ stored, t.permissions.grants⟩) →
      ((t.permissions.permissions ++ stored).map Permission.id).Nodup →
      Ends keeps fallible t role stored rest
        ((storeAndGrant 0 role (stored.map Permission.id) rest).steps answer s)
        ((storeAndGrant 0 role (stored.map Permission.id) rest).run answer s) := by
  -- The induction is on what is left to store.  What was stored varies with it, and the invariant
  -- is that it stands behind what was there, each id once.
  induction rest with
  | nil =>
    intro stored s hs hids
    rw [storeAndGrant_nil, Flow.run_call, Flow.steps_call]
    obtain ⟨-, ⟨e, he⟩, hk⟩ | ⟨hok, hk⟩ :=
      h.permissions hs (.grant role (stored.map Permission.id))
    · rw [he]
      exact (undo_ends h ht role e hk hids).cons_other rfl rfl
    · -- All that was stored is there, so the grant of all of it goes through as a whole.
      have hthere : ∀ id ∈ stored.map Permission.id,
          id ∈ (t.permissions.permissions ++ stored).map Permission.id := fun id hid => by
        rw [List.map_append]
        exact List.mem_append_right _ hid
      have hgrant : PermissionTable.grant ⟨t.permissions.permissions ++ stored,
          t.permissions.grants⟩ role (stored.map Permission.id) = _ :=
        PermissionTable.grant_of_subset hthere
      simp only [PermissionOp.step, Tables.withPermissions, hgrant] at hok hk
      rw [hok]
      refine ⟨?_, by rwa [List.append_nil]⟩
      simpa [grantRows, Tables.withPermissions, List.map_map, Function.comp_def] using hk
  | cons p rest ih =>
    intro stored s hs hids
    rw [storeAndGrant_cons, Flow.run_call, Flow.steps_call]
    obtain ⟨-, ⟨e, he⟩, hk⟩ | ⟨hans, hk⟩ := h.permissions hs (.create p)
    · rw [he]
      exact (undo_ends h ht role e hk hids).cons_other rfl rfl
    · simp only [PermissionOp.step, Tables.withPermissions] at hans hk
      rw [hans]
      -- The request came to the store, which may still refuse it because the id is taken.
      generalize hcreate : PermissionTable.create _ p = created at hk
      obtain ⟨⟨e⟩ | ⟨⟩, table⟩ := created
      · obtain ⟨-, rfl⟩ := PermissionTable.create_error hcreate
        exact (undo_ends h ht role e hk hids).cons_other rfl rfl
      · obtain ⟨hnew, rfl⟩ := PermissionTable.create_ok hcreate
        have hids := nodup_map_key_append hids hnew
        rw [List.append_assoc] at hk hids
        have hends := ih hk hids
        rw [List.map_append, List.map_singleton] at hends
        exact hends.cons_stored

/-! ## The whole run -/

/-- What remains of granting a batch once the role is known to be there. -/
def startStoring (role : Uuid) (batch : List Permission) : Flow (Except AdminError Unit) :=
  .call .permissionsInUse fun place => storeAndGrant place role [] batch

/-- What remains of granting a batch once the role store is known. -/
def lookUpRole (role : Uuid) (batch : List Permission) (place : Nat) :
    Flow (Except AdminError Unit) :=
  .call (.roles place (.find role)) fun
    | .error e => .done (.error (.store e))
    | .ok none => .done (.error (.store (.missing RoleTable.entity role.text)))
    | .ok (some _) => startStoring role batch

/-- A batch is checked, then the role is looked up, then the batch is stored. -/
lemma grant_eq (role : Uuid) (batch : List Permission) :
    grant role batch =
      match Permission.validateBatch batch with
      | .error v => .done (.error (.validation v))
      | .ok _ => .call .rolesInUse (lookUpRole role batch) := by
  unfold grant
  cases Permission.validateBatch batch with
  | error v => rfl
  | ok _ =>
    refine congrArg (Flow.call _) (funext fun place => ?_)
    refine congrArg (Flow.call _) (funext fun found => ?_)
    obtain e | _ | _ := found <;> rfl

/-- A batch is stored and granted as a whole, or nothing is granted and only permissions are left
behind whose deletion failed. -/
theorem grant_ends (h : MayFail answer keeps fallible) {t : Tables} (ht : t.permissions.Sound)
    {s : σ} (hs : keeps s t) (role : Uuid) (batch : List Permission) :
    Ends keeps fallible t role [] batch ((grant role batch).steps answer s)
      ((grant role batch).run answer s) := by
  have hback : ∀ {s : σ} {e : AdminError}, keeps s t →
      Ends keeps fallible t role [] batch [] (.error e, s) := fun hs =>
    ⟨by simpa [Tables.withPermissions] using hs, by simp⟩
  rw [grant_eq]
  split
  · exact hback hs
  · obtain ⟨hplace, hs⟩ := h.rolesInUse hs
    rw [Flow.run_call, Flow.steps_call, hplace]
    refine Ends.cons_other ?_ rfl rfl
    rw [lookUpRole, Flow.run_call, Flow.steps_call]
    obtain ⟨⟨e, he⟩, hs⟩ | ⟨hans, hs⟩ := h.roles hs (.find role)
    · rw [he]
      exact (hback hs).cons_other rfl rfl
    · rw [hans]
      simp only [RoleOp.step] at hs ⊢
      cases t.roles.find? role with
      | none => exact (hback hs).cons_other rfl rfl
      | some _ =>
        obtain ⟨hplace, hs⟩ := h.permissionsInUse hs
        refine Ends.cons_other ?_ rfl rfl
        rw [startStoring, Flow.run_call, Flow.steps_call, hplace]
        refine (storeAndGrant_ends h ht role batch ?_ ?_).cons_other rfl rfl
        · simpa [Tables.withPermissions] using hs
        · simpa [PermissionTable.ids] using ht.ids

/-- On stores that do not fail, a batch that is not granted leaves everything as it was. -/
theorem grant_tables (t : Tables) (ht : t.permissions.Sound) (role : Uuid)
    (batch : List Permission) :
    match (grant role batch).run Tables.answer t with
    | (.ok _, t') =>
      t' = t.withPermissions
          ⟨t.permissions.permissions ++ batch, t.permissions.grants ++ grantRows role batch⟩ ∧
        ((t.permissions.permissions ++ batch).map Permission.id).Nodup
    | (.error _, t') => t' = t := by
  have hends := grant_ends mayFail_tables ht rfl role batch
  generalize (grant role batch).run Tables.answer t = outcome at hends ⊢
  obtain ⟨_ | _, t'⟩ := outcome
  · -- Here no request is fallible, so no deletion failed and nothing is left behind.
    obtain ⟨htables, hkept⟩ := hends
    have hnone := List.eq_nil_iff_forall_not_mem.2 hkept
    rw [hnone] at htables
    simpa [Tables.withPermissions] using htables
  · exact hends

end Admin

end Gatehouse
