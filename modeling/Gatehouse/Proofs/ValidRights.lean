import Gatehouse.Proofs.Escalation
import Gatehouse.Proofs.LookUps
import Gatehouse.Proofs.StepsTaken

/-!
# Rights that were checked are valid

The name of a role and the value and scope of a permission are kept as the texts they were
submitted in, and the stores take any.  That what is stored is valid all the same is not a matter
of types but of who writes: every flow of the service and of its administration looks at a role or
a permission before it takes a step that writes it (`Call.WritesValid`), be it one by one, in a
batch or on the way back from a batch that failed.  A step of that kind keeps the records valid
(`Tables.answer_rightsValid`), and so does every run in which nobody writes to the stores directly.

Valid permissions have one of the two scopes.  The right to something is then the right to it in
one scope or in the other, which is what a caller who asks without a scope relies on.
-/

namespace Gatehouse

open Http

/-! ## What valid rights are -/

lemma Role.validate_eq_ok {role : Role} :
    role.validate = .ok () ↔ minNameLength ≤ (Text.trim role.name.toList).length := by
  unfold validate minNameLength
  generalize Text.trim role.name.toList = name
  cases name with
  | nil => simp
  | cons c rest =>
    simp only [List.isEmpty_cons, Bool.false_eq_true, if_false]
    split
    · next h => exact iff_of_false (fun h => nomatch h) (Nat.not_le.2 h)
    · next h => exact iff_of_true rfl (Nat.not_lt.1 h)

namespace Permission

variable {p : Permission}

lemma validate_eq_ok :
    p.validate = .ok () ↔ p.value ≠ "" ∧ ∃ scope : Scope, p.scope = scope.text := by
  simp only [← Scope.ofText_eq_ok_iff]
  unfold validate scope?
  split
  · next h => exact iff_of_false (fun h => nomatch h) fun hp => hp.1 h
  · next h =>
    cases Scope.ofText p.scope with
    | error v => exact iff_of_false (fun h => nomatch h) fun hp => nomatch hp.2.choose_spec
    | ok scope => exact iff_of_true rfl ⟨h, scope, rfl⟩

/-- A batch that passes holds valid permissions only. -/
lemma validate_of_validateBatch {batch : List Permission} (h : validateBatch batch = .ok ()) :
    ∀ p ∈ batch, p.validate = .ok () := by
  unfold validateBatch at h
  split at h
  · exact nomatch h
  · clear * - h
    induction batch with
    | nil => exact fun _ hp => nomatch hp
    | cons p rest ih =>
      unfold validateEach at h
      split at h
      · exact nomatch h
      · next hp => exact List.forall_mem_cons.2 ⟨hp, ih h⟩

/-- What is allowed by a permission with one of the scopes is allowed in that scope. -/
lemma allows_iff_of_validate [Text.Engine] (h : p.validate = .ok ()) (requested : String) :
    p.allows requested = true ↔
      p.allowsWithin .admin requested = true ∨ p.allowsWithin .all requested = true := by
  obtain ⟨-, scope, hscope⟩ := validate_eq_ok.1 h
  unfold allowsWithin
  rw [hscope]
  cases scope <;> simp [Scope.text]

end Permission

/-- Every role and every permission that is stored is valid. -/
structure Tables.RightsValid (t : Tables) : Prop where
  roles : ∀ role ∈ t.roles.roles, role.validate = .ok ()
  permissions : ∀ p ∈ t.permissions.permissions, p.validate = .ok ()

/-! ## One step -/

/-- The role that a request writes. -/
def RoleOp.written? : RoleOp → Option Role
  | create role => some role
  | update role => some role
  | _ => none

/-- The permission that a request writes. -/
def PermissionOp.written? : PermissionOp → Option Permission
  | create permission => some permission
  | update permission => some permission
  | _ => none

/-- A step that writes no role and no permission but a valid one. -/
def Call.WritesValid : Call → Prop
  | .roles _ op => ∀ role, op.written? = some role → role.validate = .ok ()
  | .permissions _ op => ∀ p, op.written? = some p → p.validate = .ok ()
  | _ => True

lemma mem_of_mem_replaceFirst {α : Type} {p : α → Bool} {x y : α} {xs : List α}
    (h : y ∈ replaceFirst p x xs) : y = x ∨ y ∈ xs := by
  induction xs with
  | nil => exact nomatch h
  | cons z zs ih =>
    unfold replaceFirst at h
    split at h
    · exact (List.mem_cons.1 h).imp_right (List.mem_cons_of_mem z)
    · obtain rfl | h := List.mem_cons.1 h
      · exact .inr List.mem_cons_self
      · exact (ih h).imp_right (List.mem_cons_of_mem z)

/-- A role that is there after a request was there before, or the request has written it. -/
lemma RoleTable.mem_step {table : RoleTable} {op : RoleOp} {role : Role}
    (h : role ∈ (op.step table).2.roles) : role ∈ table.roles ∨ op.written? = some role := by
  cases op with
  | create new =>
    simp only [RoleOp.step, create] at h
    split at h
    · exact .inl h
    · obtain h | h := List.mem_append.1 h
      · exact .inl h
      · exact .inr (congrArg some (List.mem_singleton.1 h).symm)
  | update new =>
    simp only [RoleOp.step, update] at h
    split at h
    · exact (mem_of_mem_replaceFirst h).elim (fun h => .inr (congrArg some h.symm)) .inl
    · exact .inl h
  | assign user id =>
    simp only [RoleOp.step, assign] at h
    split at h <;> exact .inl h
  | delete id => exact .inl (List.mem_of_mem_filter h)
  | revoke user id => exact .inl h
  | find id => exact .inl h
  | list => exact .inl h
  | heldBy user => exact .inl h

/-- A permission that is there after a request was there before, or the request has written it. -/
lemma PermissionTable.mem_step {table : PermissionTable} {op : PermissionOp} {p : Permission}
    (h : p ∈ (op.step table).2.permissions) : p ∈ table.permissions ∨ op.written? = some p := by
  cases op with
  | create new =>
    simp only [PermissionOp.step, create] at h
    split at h
    · exact .inl h
    · obtain h | h := List.mem_append.1 h
      · exact .inl h
      · exact .inr (congrArg some (List.mem_singleton.1 h).symm)
  | update new =>
    simp only [PermissionOp.step, update] at h
    split at h
    · exact (mem_of_mem_replaceFirst h).elim (fun h => .inr (congrArg some h.symm)) .inl
    · exact .inl h
  | grant role ids =>
    simp only [PermissionOp.step, grant] at h
    split at h <;> exact .inl h
  | delete id => exact .inl (List.mem_of_mem_filter h)
  | revoke role id => exact .inl h
  | find id => exact .inl h
  | list => exact .inl h
  | carriedBy role => exact .inl h

/-- A step that writes nothing invalid keeps the rights valid. -/
theorem Tables.answer_rightsValid (c : Call) (t : Tables) (hc : c.WritesValid)
    (ht : t.RightsValid) : (Tables.answer c t).2.RightsValid := by
  cases c with
  | usersInUse => exact ht
  | rolesInUse => exact ht
  | permissionsInUse => exact ht
  | users place op => cases place <;> exact ⟨ht.roles, ht.permissions⟩
  | roles place op =>
    cases place with
    | zero =>
      exact ⟨fun role h => (RoleTable.mem_step h).elim (ht.roles role) (hc role), ht.permissions⟩
    | succ n => exact ht
  | permissions place op =>
    cases place with
    | zero =>
      exact ⟨ht.roles, fun p h => (PermissionTable.mem_step h).elim (ht.permissions p) (hc p)⟩
    | succ n => exact ht

/-! ## The flows that write -/

/-- A request that writes no role writes no invalid one. -/
lemma Flow.Only.rolesKept (place : Nat) {op : RoleOp} (h : op.written? = none) :
    (Flow.roles place op).Only Call.WritesValid :=
  .roles fun _ hwritten => nomatch h.symm.trans hwritten

/-- A request that writes no permission writes no invalid one. -/
lemma Flow.Only.permissionsKept (place : Nat) {op : PermissionOp} (h : op.written? = none) :
    (Flow.permissions place op).Only Call.WritesValid :=
  .permissions fun _ hwritten => nomatch h.symm.trans hwritten

namespace Admin

lemma checks_createRole (role : Role) : (createRole role).Only Call.WritesValid := by
  unfold createRole
  cases hvalid : role.validate with
  | error v => exact .pure _
  | ok _ =>
    refine .bind (.rolesInUse trivial) fun place => .bind (.roles ?_) fun _ => .pure _
    rintro _ ⟨⟩
    exact hvalid

lemma checks_createPermission (p : Permission) : (createPermission p).Only Call.WritesValid := by
  unfold createPermission
  cases hvalid : p.validate with
  | error v => exact .pure _
  | ok _ =>
    refine .bind (.permissionsInUse trivial) fun place => .bind (.permissions ?_) fun _ => .pure _
    rintro _ ⟨⟩
    exact hvalid

lemma checks_discard (place : Nat) (ids : List Uuid) :
    (discard place ids).Only Call.WritesValid := by
  induction ids with
  | nil => exact .pure _
  | cons id rest ih => exact .bind (.permissionsKept place rfl) fun _ => ih

lemma checks_undo (place : Nat) (stored : List Uuid) (e : StoreError) :
    (undo place stored e).Only Call.WritesValid :=
  .bind (checks_discard place stored) fun _ => .pure _

lemma checks_storeAndGrant (place : Nat) (role : Uuid) {batch : List Permission} :
    ∀ {stored : List Uuid}, (∀ p ∈ batch, p.validate = .ok ()) →
      (storeAndGrant place role stored batch).Only Call.WritesValid := by
  -- On what is still to be stored.  Whichever step fails, the way back only deletes.
  induction batch with
  | nil =>
    intro stored _
    refine .bind (.permissionsKept place rfl) fun answer => ?_
    cases answer with
    | error e => exact checks_undo place stored e
    | ok _ => exact .pure _
  | cons p rest ih =>
    intro stored hvalid
    obtain ⟨hp, hrest⟩ := List.forall_mem_cons.1 hvalid
    refine .bind (.permissions ?_) fun answer => ?_
    · rintro _ ⟨⟩
      exact hp
    · cases answer with
      | error e => exact checks_undo place stored e
      | ok _ => exact ih hrest

lemma checks_grant (role : Uuid) (batch : List Permission) :
    (grant role batch).Only Call.WritesValid := by
  unfold grant
  cases hvalid : Permission.validateBatch batch with
  | error v => exact .pure _
  | ok _ =>
    refine .bind (.rolesInUse trivial) fun place => .bind (.rolesKept place rfl) fun found => ?_
    -- The batch was looked at as a whole before anything is asked of a store.
    obtain e | _ | r := found
    · exact .pure _
    · exact .pure _
    · exact .bind (.permissionsInUse trivial) fun place =>
        checks_storeAndGrant place role (Permission.validate_of_validateBatch hvalid)

lemma checks_assignRole (user role : Uuid) : (assignRole user role).Only Call.WritesValid := by
  refine .bind (.usersInUse trivial) fun place => .bind (.users trivial) fun found => ?_
  obtain e | _ | u := found
  · exact .pure _
  · exact .pure _
  · exact .bind (.rolesInUse trivial) fun place => .bind (.rolesKept place rfl) fun _ => .pure _

end Admin

namespace Resolve

lemma checks_withPermissions (place : Nat) (roles : List Role) :
    (withPermissions place roles).Only Call.WritesValid := by
  induction roles with
  | nil => exact .pure _
  | cons role rest ih =>
    refine .bind (.permissionsKept place rfl) fun answer => ?_
    cases answer with
    | error e => exact .pure _
    | ok permissions =>
      refine .bind ih fun held => ?_
      cases held <;> exact .pure _

lemma checks_rolesOf (user : Uuid) : (rolesOf user).Only Call.WritesValid := by
  refine .bind (.rolesInUse trivial) fun place => .bind (.rolesKept place rfl) fun answer => ?_
  obtain e | _ | ⟨role, rest⟩ := answer
  · exact .pure _
  · exact .pure _
  · exact .bind (.permissionsInUse trivial) fun place => checks_withPermissions place _

lemma checks_principal (user : Uuid) : (principal user).Only Call.WritesValid := by
  refine .bind (.usersInUse trivial) fun place => .bind (.users trivial) fun found => ?_
  obtain e | _ | u := found
  · exact .pure _
  · exact .pure _
  · refine .bind (checks_rolesOf u.id) fun held => ?_
    cases held <;> exact .pure _

end Resolve

/-! ## Serving a request -/

lemma checks_signUp (tokens : TokenService) (id : Uuid) (now : Session.Moment)
    (submitted : NewUser) : (signUp tokens id now submitted).Only Call.WritesValid := by
  unfold signUp
  cases submitted.validate with
  | error e => exact .pure _
  | ok _ =>
    refine .bind (.usersInUse trivial) fun place => .bind (.users trivial) fun found => ?_
    obtain e | _ | u := found
    · exact .pure _
    · refine .bind (.users trivial) fun created => ?_
      cases created <;> exact .pure _
    · exact .pure _

namespace Rights

variable [Text.Engine]

lemma checks_listRoles (p : Principal) : (listRoles p).Only Call.WritesValid := by
  unfold listRoles
  split
  · exact .pure _
  · refine .bind (.rolesInUse trivial) fun place => .bind (.rolesKept place rfl) fun answer => ?_
    cases answer <;> exact .pure _

lemma checks_createRole (p : Principal) (id : Uuid) (now : Time.Instant) (submitted : NewRole) :
    (createRole p id now submitted).Only Call.WritesValid := by
  unfold createRole
  generalize submitted.role id now = role
  split
  · exact .pure _
  · refine .bind (Admin.checks_createRole role) fun created => ?_
    cases created <;> exact .pure _

lemma checks_grant (p : Principal) (ids : Nat → Uuid) (role : Uuid)
    (submitted : List NewPermission) : (grant p ids role submitted).Only Call.WritesValid := by
  unfold grant
  generalize NewPermission.permissions ids 0 submitted = batch
  split
  · exact .pure _
  · refine .bind (Admin.checks_grant role batch) fun granted => ?_
    cases granted <;> exact .pure _

end Rights

lemma Gate.checks_pass (gate : Gate) (now : Int) (request : Request) {Reply : Type}
    {serve : Option Principal → Flow Reply} {refuse : AuthError → Reply}
    (hserve : ∀ principal, (serve principal).Only Call.WritesValid) :
    (gate.pass now request serve refuse).Only Call.WritesValid := by
  have hauthenticate : (gate.authenticate now request).Only Call.WritesValid := by
    unfold authenticate
    split
    · exact .pure _
    · split
      · exact .pure _
      · refine .bind (Resolve.checks_principal _) fun found => ?_
        cases found <;> exact .pure _
  refine .bind hauthenticate fun decision => ?_
  cases decision with
  | error e => exact .pure _
  | ok outcome => exact .bind (hserve _) fun _ => .pure _

namespace Server

variable [Text.Engine]

lemma checks_reply (server : Server) (occasion : Occasion) (resource : Resource)
    (request : Request) (principal : Option Principal) :
    (server.reply occasion resource request principal).Only Call.WritesValid := by
  unfold reply
  split
  · unfold postUser
    split
    · exact .pure _
    · exact .bind (checks_signUp ..) fun _ => .pure _
  · exact .pure _
  · refine .bind ?_ fun _ => .pure _
    unfold getRoles
    split
    · exact .pure _
    · exact .bind (Rights.checks_listRoles _) fun _ => .pure _
  · refine .bind ?_ fun _ => .pure _
    unfold postRole
    split
    · exact .pure _
    · split
      · exact .pure _
      · exact .bind (Rights.checks_createRole ..) fun _ => .pure _
  · refine .bind ?_ fun _ => .pure _
    unfold postPermissions
    split
    · exact .pure _
    · split
      · exact .pure _
      · split
        · exact .pure _
        · exact .bind (Rights.checks_grant ..) fun _ => .pure _
  · exact .pure _

theorem checks_serve (server : Server) (occasion : Occasion) (metrics : Metrics)
    (request : Request) : (server.serve occasion metrics request).Only Call.WritesValid := by
  refine .bind ?_ fun _ => .pure _
  obtain ⟨response, -, hserved⟩ | ⟨resource, -, -, -, -, hserved⟩ :=
    server.serveAny_cases occasion metrics request
  · rw [hserved]
    exact .pure _
  · rw [hserved]
    exact .bind (server.gate.checks_pass _ _ fun _ => server.checks_reply ..) fun _ => .pure _

end Server

/-! ## Whole runs -/

/-- The operation writes no role and no permission to a store directly. -/
def Operation.IsChecked : Operation → Prop
  | .roles op => op.written? = none
  | .permissions op => op.written? = none
  | _ => True

lemma Operation.checks_flow {operation : Operation} (h : operation.IsChecked) :
    operation.flow.Only Call.WritesValid := by
  cases operation with
  | users op => exact .bind (.usersInUse trivial) fun _ => .bind (.users trivial) fun _ => .pure _
  | roles op => exact .bind (.rolesInUse trivial) fun p => .bind (.rolesKept p h) fun _ => .pure _
  | permissions op =>
    exact .bind (.permissionsInUse trivial) fun p => .bind (.permissionsKept p h) fun _ => .pure _
  | createRole role => exact .bind (Admin.checks_createRole role) fun _ => .pure _
  | createPermission p => exact .bind (Admin.checks_createPermission p) fun _ => .pure _
  | grant role batch => exact .bind (Admin.checks_grant role batch) fun _ => .pure _
  | assignRole user role => exact .bind (Admin.checks_assignRole user role) fun _ => .pure _

/-- Something that happens to a deployment: an operation on its records, or a request that some
server of the deployment serves. -/
inductive Happening where
  | operation (operation : Operation)
  | visit (server : Server) (visit : Visit)

namespace Deployment

variable [Text.Engine]

/-- A deployment without records, before anything was counted. -/
def start : Deployment := ⟨.empty, .zero⟩

/-- The deployment after something happened. -/
def happen (d : Deployment) : Happening → Deployment
  | .operation operation => ⟨(operation.flow.run Stores.answer d.stores).2, d.metrics⟩
  | .visit server visit => (d.handle server visit.occasion visit.request).2

/-- Whatever happens keeps the rights valid, unless it writes to a store directly. -/
lemma happen_rightsValid {t : Tables} (ht : t.RightsValid) (metrics : Metrics)
    {happening : Happening}
    (h : ∀ operation, happening = .operation operation → operation.IsChecked) :
    ∃ (t' : Tables) (metrics' : Metrics),
      happen ⟨t.stores, metrics⟩ happening = ⟨t'.stores, metrics'⟩ ∧ t'.RightsValid := by
  cases happening with
  | operation operation =>
    refine ⟨_, metrics, ?_, (Operation.checks_flow (h operation rfl)).run_keeps
      Tables.answer_rightsValid ht⟩
    simp only [happen, Flow.run_stores]
  | visit server visit =>
    exact ⟨_, _, congrArg Prod.snd (handle_tables server visit.occasion visit.request t metrics),
      (server.checks_serve visit.occasion metrics visit.request).run_keeps
        Tables.answer_rightsValid ht⟩

lemma foldl_happen_rightsValid (happenings : List Happening)
    (h : ∀ operation, .operation operation ∈ happenings → operation.IsChecked) :
    ∀ {t : Tables} (metrics : Metrics), t.RightsValid →
      ∃ (t' : Tables) (metrics' : Metrics),
        happenings.foldl happen ⟨t.stores, metrics⟩ = ⟨t'.stores, metrics'⟩ ∧
          t'.RightsValid := by
  induction happenings with
  | nil => exact fun metrics ht => ⟨_, metrics, rfl, ht⟩
  | cons happening rest ih =>
    intro t metrics ht
    obtain ⟨t₁, metrics₁, hfirst, ht₁⟩ := happen_rightsValid ht metrics
      fun operation heq => h operation (heq ▸ List.mem_cons_self)
    obtain ⟨t₂, metrics₂, hrest, ht₂⟩ :=
      ih (fun operation hmem => h operation (List.mem_cons_of_mem _ hmem)) metrics₁ ht₁
    exact ⟨t₂, metrics₂, by rw [List.foldl_cons, hfirst, hrest], ht₂⟩

end Deployment

/-- Where rights are valid, whoever is resolved has a right when they have it in one scope or in
the other. -/
lemma Tables.RightsValid.holds_iff [Text.Engine] {t : Tables} (ht : t.RightsValid) {user : Uuid}
    {p : Principal} (hp : ((Resolve.principal user).run Tables.answer t).1 = .ok p)
    (requested : String) :
    p.holds requested = true ↔
      p.holdsWithin .admin requested = true ∨ p.holdsWithin .all requested = true := by
  -- What a principal holds is carried by a role, so it is a permission that is stored.
  have hvalid : ∀ permission ∈ p.permissions, permission.validate = .ok () := by
    intro permission hmem
    obtain ⟨held, hheld, hcarried⟩ := List.mem_flatMap.1 hmem
    rw [(Resolve.principal_eq_ok.1 hp).2] at hheld
    obtain ⟨role, -, rfl⟩ := List.mem_map.1 hheld
    have hfind := (PermissionTable.mem_carriedBy.1 hcarried).2
    exact ht.permissions permission (List.mem_of_find?_eq_some hfind)
  simp only [Principal.holds, Principal.holdsWithin, List.any_eq_true]
  constructor
  · rintro ⟨permission, hmem, hallows⟩
    obtain h | h := (Permission.allows_iff_of_validate (hvalid permission hmem) requested).1 hallows
    · exact .inl ⟨permission, hmem, h⟩
    · exact .inr ⟨permission, hmem, h⟩
  · rintro (⟨permission, hmem, h⟩ | ⟨permission, hmem, h⟩)
    · exact ⟨permission, hmem, (Bool.and_eq_true_iff.1 h).2⟩
    · exact ⟨permission, hmem, (Bool.and_eq_true_iff.1 h).2⟩

/-- A permission whose scope is none of the two gives a right that is held in neither. -/
example :
    let permission : Permission := ⟨.ofNat 3, "*", "Admin", ""⟩
    let p : Principal := ⟨User.make (.ofNat 1) "ann@example.org" "Ann" "" default,
      [⟨Role.make (.ofNat 2) "owner" "" default, [permission]⟩]⟩
    p.holds "x" = true ∧ p.holdsWithin .admin "x" = false ∧ p.holdsWithin .all "x" = false := by
  decide

/-- Whatever happens to a deployment that begins with no records, as long as nobody writes roles or
permissions to the stores directly, every role has a name and every permission a value and one of
the two scopes; and everybody who can be resolved has a right exactly when they have it in one scope
or in the other. -/
theorem written_rights_valid [Text.Engine] (happenings : List Happening)
    (hchecked : ∀ operation, .operation operation ∈ happenings → operation.IsChecked) :
    let stores := (happenings.foldl Deployment.happen .start).stores
    ∃ t : Tables, stores = t.stores ∧
      (∀ role ∈ t.roles.roles, 3 ≤ (Text.trim role.name.toList).length) ∧
      (∀ p ∈ t.permissions.permissions, p.value ≠ "" ∧ (p.scope = "admin" ∨ p.scope = "all")) ∧
      ∀ user p, ((Resolve.principal user).run Stores.answer stores).1 = .ok p → ∀ requested,
        p.holds requested = true ↔
          p.holdsWithin .admin requested = true ∨ p.holdsWithin .all requested = true := by
  intro stores
  have hempty : Tables.empty.RightsValid := ⟨(fun _ h => nomatch h), (fun _ h => nomatch h)⟩
  obtain ⟨t, metrics, hrun, ht⟩ :=
    Deployment.foldl_happen_rightsValid happenings hchecked .zero hempty
  have hstores : stores = t.stores := congrArg Deployment.stores hrun
  refine ⟨t, hstores, fun role h => Role.validate_eq_ok.1 (ht.roles role h), fun p h => ?_,
    fun user p hp => ?_⟩
  · obtain ⟨hvalue, scope, hscope⟩ := Permission.validate_eq_ok.1 (ht.permissions p h)
    rw [hscope]
    cases scope with
    | admin => exact ⟨hvalue, .inl rfl⟩
    | all => exact ⟨hvalue, .inr rfl⟩
  · rw [hstores, Flow.run_stores] at hp
    exact ht.holds_iff hp

/-- A role and a permission of it are made by an administrator, somebody signs up and is given the
role, and another role is deleted.  Whoever signed up then holds what the permission gives, not in
the scope of administrators, and so in the scope of all. -/
theorem written_rights_valid_sign_up :
    let role := Role.make (.ofNat 2) "  own " "" default
    let permission : Permission := ⟨.ofNat 3, "admin.*", "all", ""⟩
    let server : Server :=
      ⟨⟨.ofSources .headerOnly, ⟨.headerOnly, "secret", rfl⟩, rfl⟩, ⟨[], List.not_mem_nil⟩⟩
    let visit : Visit := ⟨⟨⟨default, by decide⟩, fun _ => .ofNat 1⟩, ⟨.post, ⟨"/users", ""⟩,
      [⟨"content-type", Text.Utf8.encode "application/json"⟩],
      (NewUser.form.write ⟨"ann@example.org", "Ann", "Ray"⟩).bytes⟩⟩
    let happenings : List Happening := [.operation (.createRole role),
      .operation (.grant role.id [permission]), .visit server visit,
      .operation (.assignRole (.ofNat 1) role.id), .operation (.roles (.delete (.ofNat 4)))]
    let stores := (happenings.foldl Deployment.happen .start).stores
    let user := User.make (.ofNat 1) "ann@example.org" "Ann" "Ray" default
    let ann : Principal := ⟨user, [⟨role, [permission]⟩]⟩
    let t : Tables := ⟨[user], ⟨[role], [(user.id, role.id)]⟩,
      ⟨[permission], [(role.id, permission.id)]⟩⟩
    stores = t.stores ∧ ((Resolve.principal user.id).run Stores.answer stores).1 = .ok ann ∧
      ann.holds "admin.users.list" = true ∧
      ann.holdsWithin .admin "admin.users.list" = false ∧
      ann.holdsWithin .all "admin.users.list" = true := by
  intro role permission server visit happenings stores user ann t
  have hchecked : ∀ operation, .operation operation ∈ happenings → operation.IsChecked := by
    intro operation h
    simp only [happenings, List.mem_cons, Happening.operation.injEq, reduceCtorEq,
      List.not_mem_nil, or_false, false_or] at h
    obtain rfl | rfl | rfl | rfl := h
    · exact trivial
    · exact trivial
    · exact trivial
    · exact rfl
  have hstores : stores = t.stores := by
    simp only [stores, happenings, List.foldl_cons, List.foldl_nil, Deployment.happen,
      Deployment.start, ← Tables.stores_empty, Flow.run_stores, Deployment.handle_tables]
    refine congrArg Tables.stores ?_
    decide +kernel
  have hann : ((Resolve.principal user.id).run Stores.answer stores).1 = .ok ann := by
    rw [hstores, Flow.run_stores]
    rfl
  obtain ⟨-, -, -, -, hsplit⟩ := written_rights_valid happenings hchecked
  have hholds : ann.holds "admin.users.list" = true := by decide
  have hadmin : ann.holdsWithin .admin "admin.users.list" = false := by decide
  exact ⟨hstores, hann, hholds, hadmin,
    ((hsplit _ _ hann _).1 hholds).resolve_left (Bool.eq_false_iff.1 hadmin)⟩

end Gatehouse
