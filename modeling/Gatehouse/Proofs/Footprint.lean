import Gatehouse.Proofs.Admission
import Gatehouse.Proofs.History

/-!
# What requests leave behind

A request that is answered by 201 has added to the records, and it has added what it asked for: an
account, a role, or a batch of permissions with their grants.  Any other answer means that the
records are as they were.  Between the request and the records lie the gate, the reading of the
body, the checks and the stores, and each of them may end the matter; so the statement is carried
through them by one predicate.  `Adds` says of a flow that it makes one given addition and
succeeds, or fails and changes nothing, and `Left` says the same of a status and the records.

Two flows take more than one step.  A sign-up looks for its email before it creates the account
and does nothing fallible after that, and a batch is taken back when it cannot be granted as a
whole (`Admin.grant_tables`).
-/

namespace Gatehouse

open Http

/-! ## Additions -/

/-- What a request can add to the records. -/
inductive Addition where
  | user (user : User)
  | role (role : Role)
  /-- new permissions, all of them granted to a role -/
  | grant (role : Uuid) (batch : List Permission)

/-- What an addition requires of the records. -/
def Addition.Fits (t : Tables) : Addition → Prop
  | .user u => u.id ∉ t.users.ids ∧ u.email ∉ t.users.map User.email
  | .role r => r.id ∉ t.roles.ids
  | .grant holder batch =>
    holder ∈ t.roles.ids ∧ ((t.permissions.permissions ++ batch).map Permission.id).Nodup

/-- The records with an addition; all else stays. -/
def Tables.adding (t : Tables) : Addition → Tables
  | .user u => t.withUsers (t.users ++ [u])
  | .role r => t.withRoles ⟨t.roles.roles ++ [r], t.roles.assignments⟩
  | .grant role batch =>
    t.withPermissions
      ⟨t.permissions.permissions ++ batch, t.permissions.grants ++ grantRows role batch⟩

/-- The account that is opened for what was submitted. -/
def NewUser.user (n : NewUser) (id : Uuid) (now : Time.Instant) : User :=
  User.make id n.normalised.email n.normalised.firstName n.normalised.lastName now

/-- What the body of a request asks to be added to a resource, with the new ids there are. -/
inductive Asked (occasion : Occasion) (request : Request) : Resource → Addition → Prop
  | user {submitted : NewUser} :
      NewUser.form.ofBody request = .ok submitted →
      Asked occasion request .users
        (.user (submitted.user (occasion.ids 0) occasion.now.instant))
  | role {submitted : NewRole} :
      NewRole.form.ofBody request = .ok submitted →
      Asked occasion request .roles
        (.role (submitted.role (occasion.ids 0) occasion.now.instant))
  | grant {segment : String} {role : Uuid} {submitted : List NewPermission} :
      Resource.roleId? segment = some role →
      NewPermission.form.list.ofBody request = .ok submitted →
      Asked occasion request (.permissionsOf segment)
        (.grant role (NewPermission.permissions occasion.ids 0 submitted))

/-- A request asks for an addition to the resource that its path names. -/
def Http.Request.Asks (request : Request) (occasion : Occasion) (a : Addition) : Prop :=
  request.method = .post ∧
    ∃ resource, Resource.ofPath? request.uri.path = some resource ∧
      Asked occasion request resource a

namespace Addition

variable {t : Tables} {a : Addition}

lemma Fits.exists_done (h : a.Fits t) : ∃ ds, Done t ds (t.adding a) := by
  cases a with
  | user u => exact ⟨_, .single (d := .createUser u) h⟩
  | role r => exact ⟨_, .single (d := .createRole r) h⟩
  | grant holder batch => exact ⟨_, .batch holder batch h.2⟩

lemma Fits.sound (h : a.Fits t) (ht : t.Sound) : (t.adding a).Sound := by
  obtain ⟨ds, hdone⟩ := h.exists_done
  exact hdone.sound ht

lemma users_adding (t : Tables) (a : Addition) : t.users <+: (t.adding a).users := by
  cases a with
  | user u => exact List.prefix_append _ _
  | role r => exact List.prefix_rfl
  | grant holder batch => exact List.prefix_rfl

end Addition

/-! ## Flows that add -/

section Adds

variable {ε ε' α β : Type} {t : Tables} {a : Addition}

/-- The flow makes the addition and succeeds, or fails and changes nothing. -/
def Adds (flow : Flow (Except ε α)) (t : Tables) (a : Addition) : Prop :=
  match flow.run Tables.answer t with
  | (.ok _, t') => a.Fits t ∧ t' = t.adding a
  | (.error _, t') => t' = t

lemma adds_error (e : ε) : Adds (pure (.error e) : Flow (Except ε α)) t a := rfl

/-- A flow whose result is passed on under another name adds what it added. -/
lemma Adds.pass_on {flow : Flow (Except ε α)} (h : Adds flow t a)
    {next : Except ε α → Flow (Except ε' β)} (f : α → β) (g : ε → ε')
    (hok : ∀ v, next (.ok v) = pure (.ok (f v)))
    (herror : ∀ e, next (.error e) = pure (.error (g e))) : Adds (flow >>= next) t a := by
  unfold Adds at h ⊢
  rw [Flow.run_bind]
  generalize flow.run Tables.answer t = outcome at h ⊢
  obtain ⟨e | v, t'⟩ := outcome
  · rw [herror]
    exact h
  · rw [hok]
    exact h

lemma Done.of_nil {t' : Tables} (h : Done t [] t') : t' = t := by
  cases h
  rfl

lemma Done.of_single {t' : Tables} {d : Deed} (h : Done t [d] t') :
    d.Fits t ∧ t' = t.after d := by
  cases h with
  | cons hfits hrest => exact ⟨hfits, hrest.of_nil⟩

lemma adds_signUp (tokens : TokenService) (id : Uuid) (now : Session.Moment)
    (submitted : NewUser) (t : Tables) :
    Adds (signUp tokens id now submitted) t (.user (submitted.user id now.instant)) := by
  unfold signUp
  cases submitted.validate with
  | error e => exact adds_error e
  | ok _ =>
    have hdone := Done.users t (.create (submitted.user id now.instant))
    simp only [UserOp.step, NewUser.user] at hdone
    simp only [Adds, Flow.run_bind, Tables.run_usersInUse, Tables.run_users, UserOp.step,
      Tables.withUsers_self, NewUser.user]
    cases t.users.findByEmail? submitted.normalised.email with
    | some _ => rfl
    | none =>
      simp only [Flow.run_bind, Tables.run_users, UserOp.step]
      generalize UserTable.create _ _ = created at hdone ⊢
      obtain ⟨e | ⟨⟩, users⟩ := created
      · exact hdone.of_nil
      · exact hdone.of_single

namespace Admin

lemma adds_createRole (role : Role) (t : Tables) : Adds (createRole role) t (.role role) := by
  unfold createRole
  cases role.validate with
  | error v => exact adds_error _
  | ok _ =>
    have hdone := Done.roles t (.create role)
    simp only [RoleOp.step] at hdone
    simp only [Adds, Flow.run_bind, Flow.run_pure, Tables.run_rolesInUse, Tables.run_roles,
      RoleOp.step]
    generalize RoleTable.create _ _ = created at hdone ⊢
    obtain ⟨e | ⟨⟩, roles⟩ := created
    · exact hdone.of_nil
    · exact hdone.of_single

lemma role_mem_of_grant {role : Uuid} {batch : List Permission} {t : Tables} {u : Unit}
    (h : ((grant role batch).run Tables.answer t).1 = .ok u) : role ∈ t.roles.ids := by
  unfold grant at h
  split at h
  · cases h
  · simp only [Flow.run_bind, Tables.run_rolesInUse, Tables.run_roles, RoleOp.step] at h
    -- Nothing is stored before the role was found.
    cases hfind : t.roles.find? role with
    | none =>
      rw [hfind] at h
      cases h
    | some _ => exact find?_key_isSome.1 (Option.isSome_of_eq_some hfind)

lemma adds_grant {t : Tables} (ht : t.permissions.Sound) (role : Uuid)
    (batch : List Permission) : Adds (grant role batch) t (.grant role batch) := by
  have hrun := grant_tables t ht role batch
  unfold Adds
  rcases hgrant : (grant role batch).run Tables.answer t with ⟨e | u, t'⟩
  · rw [hgrant] at hrun
    exact hrun
  · rw [hgrant] at hrun
    have hrole := role_mem_of_grant (congrArg Prod.fst hgrant)
    exact ⟨⟨hrole, hrun.2⟩, hrun.1⟩

end Admin

namespace Rights

variable [Text.Engine]

lemma adds_createRole (p : Principal) (id : Uuid) (now : Time.Instant) (submitted : NewRole)
    (t : Tables) : Adds (createRole p id now submitted) t (.role (submitted.role id now)) := by
  unfold createRole
  generalize submitted.role id now = role
  cases p.ensureWithin .admin createRight with
  | error e => exact adds_error _
  | ok _ =>
    refine (Admin.adds_createRole role t).pass_on (fun _ => role) ServiceError.ofAdmin ?_ ?_
    · exact fun _ => rfl
    · exact fun _ => rfl

lemma adds_grant {t : Tables} (ht : t.permissions.Sound) (p : Principal) (ids : Nat → Uuid)
    (role : Uuid) (submitted : List NewPermission) :
    Adds (grant p ids role submitted) t
      (.grant role (NewPermission.permissions ids 0 submitted)) := by
  unfold grant
  generalize NewPermission.permissions ids 0 submitted = batch
  cases p.ensureWithin .admin grantRight with
  | error e => exact adds_error _
  | ok _ =>
    refine (Admin.adds_grant ht role batch).pass_on (fun _ => batch) ServiceError.ofAdmin ?_ ?_
    · exact fun _ => rfl
    · exact fun _ => rfl

lemma run_listRoles (p : Principal) (t : Tables) :
    ((listRoles p).run Tables.answer t).2 = t := by
  unfold listRoles
  split
  · rfl
  · simp only [Flow.run_bind, Tables.run_rolesInUse, Tables.run_roles, RoleOp.step,
      Tables.withRoles_self, Flow.run_pure]

end Rights

end Adds

/-! ## Statuses and records -/

/-- What a request left behind: an addition under status 201, and nothing under any other. -/
inductive Left (asked : Addition → Prop) (t : Tables) : Nat → Tables → Prop
  | addition {a : Addition} : asked a → a.Fits t → Left asked t 201 (t.adding a)
  | nothing {status : Nat} : status ≠ 201 → Left asked t status t

namespace Left

variable {asked asked' : Addition → Prop} {t t' : Tables} {status : Nat}

lemma of_refuses (h : 400 ≤ status) : Left asked t status t :=
  .nothing (by omega)

lemma imp (h : Left asked t status t') (hasked : ∀ a, asked a → asked' a) :
    Left asked' t status t' := by
  cases h with
  | addition ha hfits => exact .addition (hasked _ ha) hfits
  | nothing hstatus => exact .nothing hstatus

lemma eq_of_ne (h : Left asked t status t') (hstatus : status ≠ 201) : t' = t := by
  cases h with
  | addition => exact absurd rfl hstatus
  | nothing => rfl

lemma exists_addition (h : Left asked t status t') (hstatus : status = 201) :
    ∃ a, asked a ∧ a.Fits t ∧ t' = t.adding a := by
  cases h with
  | addition ha hfits => exact ⟨_, ha, hfits, rfl⟩
  | nothing hne => exact absurd hstatus hne

lemma of_adds {α : Type} {flow : Flow (Except ServiceError α)} {a : Addition}
    (h : Adds flow t a) (ha : asked a) (toJson : α → Json) :
    Left asked t (respond 201 toJson (flow.run Tables.answer t).1).status
      (flow.run Tables.answer t).2 := by
  unfold Adds at h
  generalize flow.run Tables.answer t = outcome at h ⊢
  obtain ⟨e | v, t'⟩ := outcome
  · rw [h]
    exact .of_refuses e.refuses
  · rw [h.2]
    exact .addition ha h.1

end Left

/-! ## Behind the gate -/

namespace Server

variable {t : Tables}

lemma postUser_left (server : Server) (occasion : Occasion) (request : Request) (t : Tables) :
    let r := (server.postUser occasion request).run Tables.answer t
    Left (Asked occasion request .users) t r.1.response.status r.2 := by
  intro r
  simp only [r, postUser]
  cases hbody : NewUser.form.ofBody request with
  | error e => exact .of_refuses e.refuses
  | ok submitted =>
    simp only [Flow.run_bind, Flow.run_pure]
    exact .of_adds (adds_signUp ..) (.user hbody) _

lemma getMe_left {asked : Addition → Prop} (principal : Option Principal) :
    Left asked t (getMe principal).status t := by
  cases principal with
  | none => exact .of_refuses (AuthError.refuses _)
  | some p => exact .nothing (Nat.ne_of_lt (by decide : 200 < 201))

lemma getRoles_left [Text.Engine] {asked : Addition → Prop} (principal : Option Principal) :
    let r := (getRoles principal).run Tables.answer t
    Left asked t r.1.status r.2 := by
  intro r
  cases principal with
  | none => exact .of_refuses (AuthError.refuses _)
  | some p =>
    simp only [r, getRoles, Principal.require, Flow.run_bind, Flow.run_pure,
      Rights.run_listRoles]
    cases ((Rights.listRoles p).run Tables.answer t).1 with
    | error e => exact .of_refuses e.refuses
    | ok roles => exact .nothing (Nat.ne_of_lt (by decide : 200 < 201))

lemma postRole_left [Text.Engine] (occasion : Occasion) (principal : Option Principal)
    (request : Request) :
    let r := (postRole occasion principal request).run Tables.answer t
    Left (Asked occasion request .roles) t r.1.status r.2 := by
  intro r
  cases principal with
  | none => exact .of_refuses (AuthError.refuses _)
  | some p =>
    simp only [r, postRole, Principal.require]
    cases hbody : NewRole.form.ofBody request with
    | error e => exact .of_refuses e.refuses
    | ok submitted =>
      simp only [Flow.run_bind, Flow.run_pure]
      exact .of_adds (Rights.adds_createRole ..) (.role hbody) _

lemma postPermissions_left [Text.Engine] (ht : t.permissions.Sound) (occasion : Occasion)
    (principal : Option Principal) (segment : String) (request : Request) :
    let r := (postPermissions occasion principal segment request).run Tables.answer t
    Left (Asked occasion request (.permissionsOf segment)) t r.1.status r.2 := by
  intro r
  cases principal with
  | none => exact .of_refuses (AuthError.refuses _)
  | some p =>
    simp only [r, postPermissions, Principal.require]
    cases hrole : Resource.roleId? segment with
    | none => exact .of_refuses (by decide : 400 ≤ badPath.status)
    | some role =>
      cases hbody : NewPermission.form.list.ofBody request with
      | error e => exact .of_refuses e.refuses
      | ok submitted =>
        simp only [Flow.run_bind, Flow.run_pure]
        exact .of_adds (Rights.adds_grant ht ..) (.grant hrole hbody) _

lemma method_eq_post {resource : Resource} {method : Method}
    (h : resource.act? method = some .extend) : method = .post := by
  unfold Resource.act? at h
  split at h
  · split at h <;> exact nomatch h
  · split at h
    · next hpost => exact hpost
    · exact nomatch h

/-- Behind the gate a request leaves what it asked for, or nothing. -/
theorem reply_left [Text.Engine] (ht : t.permissions.Sound) (server : Server) (occasion : Occasion)
    (resource : Resource) (request : Request) (principal : Option Principal) :
    let r := (server.reply occasion resource request principal).run Tables.answer t
    Left (fun a => request.method = .post ∧ Asked occasion request resource a) t
      r.1.response.status r.2 := by
  intro r
  simp only [r, reply]
  split
  · next hact =>
    exact (server.postUser_left occasion request t).imp fun a ha => ⟨method_eq_post hact, ha⟩
  · exact getMe_left principal
  · simp only [Flow.run_bind, Flow.run_pure]
    exact getRoles_left principal
  · next hact =>
    simp only [Flow.run_bind, Flow.run_pure]
    exact (postRole_left occasion principal request).imp fun a ha => ⟨method_eq_post hact, ha⟩
  · next hact =>
    simp only [Flow.run_bind, Flow.run_pure]
    exact (postPermissions_left ht occasion principal _ request).imp fun a ha =>
      ⟨method_eq_post hact, ha⟩
  · exact .of_refuses (by decide : 400 ≤ 405)

end Server

/-! ## Through the gate -/

section Gate

variable {gate : Gate} {now : Int} {request : Request} {Reply : Type}
  {serve : Option Principal → Flow Reply} {refuse : AuthError → Reply}

lemma Resolve.run_principal_snd (t : Tables) (user : Uuid) :
    ((principal user).run Tables.answer t).2 = t := by
  rw [run_principal]

variable (gate now request) in
/-- Deciding whether a request is let in changes nothing. -/
lemma Gate.run_authenticate_snd (t : Tables) :
    ((gate.authenticate now request).run Tables.answer t).2 = t := by
  obtain ⟨decision, t', h⟩ := gate.exists_decides now request Tables.answer t
  rw [h.run_authenticate]
  -- The only flow that runs is the resolution of the caller, and it writes nothing.
  cases h with
  | bypassed _ => rfl
  | unknown _ _ => rfl
  | @unavailable user _ _ _ _ hprincipal =>
    rw [← Resolve.run_principal_snd t user, hprincipal]
  | @known user _ _ _ _ hprincipal =>
    rw [← Resolve.run_principal_snd t user, hprincipal]

variable (gate now request serve refuse) in
/-- The gate changes nothing: what comes of a request is its refusal, or what comes of serving it
for nobody or for a principal that was resolved. -/
lemma Gate.run_pass_tables (t : Tables) :
    (∃ e, (gate.pass now request serve refuse).run Tables.answer t =
        ((.error e, refuse e), t)) ∨
      ∃ outcome : Outcome,
        (∀ p, outcome.principal? = some p →
          ∃ user, ((Resolve.principal user).run Tables.answer t).1 = .ok p) ∧
        (gate.pass now request serve refuse).run Tables.answer t =
          ((.ok outcome, ((serve outcome.principal?).run Tables.answer t).1),
            ((serve outcome.principal?).run Tables.answer t).2) := by
  obtain ⟨decision, t', h⟩ := gate.exists_decides now request Tables.answer t
  have hrun := h.run_authenticate
  have hsame := gate.run_authenticate_snd now request t
  rw [hrun] at hsame
  subst hsame
  cases decision with
  | error e => exact .inl ⟨e, run_pass_error hrun⟩
  | ok outcome =>
    refine .inr ⟨outcome, fun p hp => ?_, run_pass_ok hrun⟩
    cases h with
    | bypassed _ => exact nomatch hp
    | @known user _ _ _ _ hprincipal =>
      -- A principal is handed on only where the caller was known, and then it was resolved.
      obtain rfl := Option.some.inj hp
      exact ⟨user, congrArg Prod.fst hprincipal⟩

end Gate

namespace Server

variable [Text.Engine] {t : Tables}

lemma serveGuarded_left (ht : t.permissions.Sound) (server : Server) (occasion : Occasion)
    (resource : Resource) (request : Request) :
    let r := (server.serveGuarded occasion resource request).run Tables.answer t
    Left (fun a => request.method = .post ∧ Asked occasion request resource a) t
      r.1.response.status r.2 := by
  intro r
  simp only [r, serveGuarded, Flow.run_bind, Flow.run_pure, forMethod_status]
  obtain ⟨e, hrefused⟩ | ⟨outcome, -, hpassed⟩ :=
    server.gate.run_pass_tables occasion.now.second request
      (server.reply occasion resource request) (fun e => .of e.response) t
  · rw [hrefused]
    exact .of_refuses e.refuses
  · rw [hpassed]
    exact server.reply_left ht occasion resource request outcome.principal?

/-- A request leaves what it asked for, or nothing. -/
theorem serve_left (ht : t.permissions.Sound) (server : Server) (occasion : Occasion)
    (metrics : Metrics) (request : Request) :
    let r := (server.serve occasion metrics request).run Tables.answer t
    Left (request.Asks occasion) t r.1.response.status r.2 := by
  intro r
  simp only [r, serve, Flow.run_bind, Flow.run_pure, Cors.mark_status]
  obtain ⟨response, hstatus, hserved⟩ | ⟨resource, -, hresource, -, -, hserved⟩ :=
    server.serveAny_cases occasion metrics request
  · rw [hserved]
    exact .nothing hstatus
  · rw [hserved]
    exact (server.serveGuarded_left ht occasion resource request).imp fun a ha =>
      ⟨ha.1, resource, hresource, ha.2⟩

end Server

/-! ## A request to a deployment -/

/-- A deployment whose records are kept in memory serves a request on the tables. -/
lemma Deployment.handle_tables [Text.Engine] (server : Server) (occasion : Occasion)
    (request : Request) (t : Tables) (metrics : Metrics) :
    let r := (server.serve occasion metrics request).run Tables.answer t
    handle server occasion request ⟨t.stores, metrics⟩ =
      (r.1.response, ⟨r.2.stores, metrics.record r.1⟩) := by
  intro r
  simp only [handle, Flow.run_stores]
  rfl

/-- Whatever operations led to the records, a request that is not answered by 201 leaves them as
they were, and one that is adds what it asked for and changes nothing else. -/
theorem failed_request_leaves_no_trace [Text.Engine] (operations : List Operation) (server : Server)
    (occasion : Occasion) (metrics : Metrics) (request : Request) :
    let stores := Operation.reached operations
    let handled := Deployment.handle server occasion request ⟨stores, metrics⟩
    (handled.1.status ≠ 201 → handled.2.stores = stores) ∧
      (handled.1.status = 201 → ∃ (t : Tables) (a : Addition), stores = t.stores ∧
        request.Asks occasion a ∧ a.Fits t ∧ handled.2.stores = (t.adding a).stores) := by
  intro stores handled
  obtain ⟨t, ht, hreached⟩ := Operation.exists_tables_reached operations
  have hleft := server.serve_left ht.permissions occasion metrics request
  have hhandled := Deployment.handle_tables server occasion request t metrics
  rw [← hreached] at hhandled
  simp only [handled, stores, hhandled]
  constructor
  · intro hstatus
    rw [hleft.eq_of_ne hstatus]
    exact hreached.symm
  · intro hstatus
    obtain ⟨a, hasked, hfits, hadded⟩ := hleft.exists_addition hstatus
    exact ⟨t, a, hreached, hasked, hfits, congrArg Tables.stores hadded⟩

end Gatehouse
