import Gatehouse.Proofs.Callers
import Gatehouse.Proofs.Tables
import Gatehouse.Service.Server

/-!
# Who is admitted

Some of what is behind the gate is served to nobody but a principal, and part of that only to one
who has a right (`Resource.need?`).  Between such a request and its answer stand the settings of
the gate, two places for a token, the token's own validity, its subject, three stores and the
right itself.  None of them can be stepped around: an answer that is no refusal comes with an
`Admission`, which holds all that had to be in order, and a request that the gate lets in as
nobody's is refused as unauthenticated.

Nothing is assumed of the stores: they may be any that were ever installed, failing as they may.
-/

namespace Gatehouse

open Http

/-! ## Refusals -/

lemma AuthError.refuses (e : AuthError) : 400 ≤ e.response.status := by
  cases e <;> simp [response, isAuthentication, status, Response.problem, Response.json,
    Response.typed]

lemma ServiceError.refuses (e : ServiceError) : 400 ≤ e.response.status := by
  cases e with
  | auth e => exact e.refuses
  | _ => simp [response, Response.problem, Response.json, Response.typed]

lemma BodyError.refuses (e : BodyError) : 400 ≤ e.response.status := by
  cases e <;> simp [response, status, Response.text, Response.typed]

lemma Http.Response.ne_created {response : Response} (h : 400 ≤ response.status) :
    response.status ≠ 201 := by
  omega

/-- A result that is sent and is no refusal was a success. -/
lemma respond_success {α : Type} {status : Nat} {toJson : α → Json}
    {result : Except ServiceError α} (h : (respond status toJson result).status < 400) :
    (∃ a, result = .ok a) ∧ (respond status toJson result).status = status := by
  cases result with
  | error e => exact absurd e.refuses (Nat.not_le.2 h)
  | ok a => exact ⟨⟨a, rfl⟩, rfl⟩

@[simp] lemma Cors.mark_status (cors : Cors) (request : Request) (response : Response) :
    (cors.mark request response).status = response.status := by
  unfold mark
  split <;> rfl

lemma Cors.mark_body (cors : Cors) (request : Request) (response : Response) :
    (cors.mark request response).body = response.body := by
  unfold mark
  split <;> rfl

@[simp] lemma Server.forMethod_status (resource : Resource) (request : Request)
    (response : Response) : (forMethod resource request response).status = response.status := by
  unfold forMethod
  split <;> rfl

lemma Server.forMethod_eq_self {resource : Resource} {request : Request} {response : Response}
    (h : request.method ≠ .head) : forMethod resource request response = response :=
  if_neg fun hhead => h hhead.1

/-! ## Rights -/

/-- What a principal must have to be served. -/
inductive Need where
  | nothing
  | right (requested : String)
  | rightWithin (scope : Scope) (requested : String)

/-- Whether a principal has what they must have. -/
def Need.MetBy [Text.Engine] (p : Principal) : Need → Prop
  | nothing => True
  | right requested => ∃ permission ∈ p.permissions, permission.allows requested = true
  | rightWithin scope requested =>
    ∃ permission ∈ p.permissions,
      permission.scope = scope.text ∧ permission.allows requested = true

/-- What a principal must have for what is served to nobody else. -/
def Resource.need? : Resource → Resource.Act → Option Need
  | .me, .read => some .nothing
  | .roles, .read => some (.right "admin.roles.list")
  | .roles, .extend => some (.rightWithin .admin "admin.roles.create")
  | .permissionsOf _, .extend => some (.rightWithin .admin "admin.roles.grant")
  | _, _ => none

/-- Where adding takes a right, it is one of two within the admin scope. -/
lemma Resource.need?_extend {resource : Resource} {need : Need}
    (h : resource.need? .extend = some need) :
    need = .rightWithin .admin "admin.roles.create" ∨
      need = .rightWithin .admin "admin.roles.grant" := by
  cases resource with
  | roles => exact .inl (Option.some.inj h).symm
  | permissionsOf _ => exact .inr (Option.some.inj h).symm
  | _ => exact nomatch h

/-- The status by which something that was done is told. -/
def Resource.Act.status : Resource.Act → Nat
  | read => 200
  | extend => 201

namespace Principal

variable [Text.Engine] {p : Principal} {requested : String}

lemma met_of_ensure (h : p.ensure requested = .ok ()) : (Need.right requested).MetBy p := by
  unfold ensure at h
  split at h
  · next hp => exact List.any_eq_true.1 hp
  · exact nomatch h

lemma met_of_ensureWithin {scope : Scope} (h : p.ensureWithin scope requested = .ok ()) :
    (Need.rightWithin scope requested).MetBy p := by
  unfold ensureWithin at h
  split at h
  · next hp =>
    obtain ⟨permission, hmem, hallows⟩ := List.any_eq_true.1 hp
    obtain ⟨hscope, hallows⟩ := Bool.and_eq_true_iff.1 hallows
    exact ⟨permission, hmem, beq_iff_eq.1 hscope, hallows⟩
  · exact nomatch h

end Principal

section Served

variable [Text.Engine] {σ : Type} {answer : (c : Call) → σ → c.Answer × σ} {s : σ} {p : Principal}

namespace Rights

lemma listRoles_met {roles : List Role} (h : ((listRoles p).run answer s).1 = .ok roles) :
    (Need.right listRight).MetBy p := by
  unfold listRoles at h
  split at h
  · exact nomatch h
  · next hensure => exact Principal.met_of_ensure hensure

lemma createRole_met {id : Uuid} {now : Time.Instant} {submitted : NewRole} {role : Role}
    (h : ((createRole p id now submitted).run answer s).1 = .ok role) :
    (Need.rightWithin .admin createRight).MetBy p := by
  unfold createRole at h
  split at h
  · exact nomatch h
  · next hensure => exact Principal.met_of_ensureWithin hensure

lemma grant_met {ids : Nat → Uuid} {role : Uuid} {submitted : List NewPermission}
    {batch : List Permission} (h : ((grant p ids role submitted).run answer s).1 = .ok batch) :
    (Need.rightWithin .admin grantRight).MetBy p := by
  unfold grant at h
  split at h
  · exact nomatch h
  · next hensure => exact Principal.met_of_ensureWithin hensure

end Rights

/-! ## Serving -/

namespace Server

/-- A response that is given only to a principal with what is needed. -/
def GivenFor (need : Need) (status : Nat) (principal : Option Principal) (response : Response) :
    Prop :=
  response.status < 400 →
    response.status = status ∧ ∃ p, principal = some p ∧ need.MetBy p

lemma givenFor_of_refuses {need : Need} {status : Nat} {principal : Option Principal}
    {response : Response} (h : 400 ≤ response.status) :
    GivenFor need status principal response :=
  fun hlt => absurd h (Nat.not_le.2 hlt)

lemma getMe_givenFor (principal : Option Principal) :
    GivenFor .nothing 200 principal (getMe principal) := by
  cases principal with
  | none => exact givenFor_of_refuses (AuthError.refuses _)
  | some p => exact fun _ => ⟨rfl, p, rfl, trivial⟩

lemma getRoles_givenFor (principal : Option Principal) :
    GivenFor (.right "admin.roles.list") 200 principal
      ((getRoles principal).run answer s).1 := by
  cases principal with
  | none => exact givenFor_of_refuses (AuthError.refuses _)
  | some p =>
    intro h
    simp only [getRoles, Principal.require, Flow.run_bind, Flow.run_pure] at h ⊢
    obtain ⟨⟨roles, hroles⟩, hstatus⟩ := respond_success h
    exact ⟨hstatus, p, rfl, Rights.listRoles_met hroles⟩

lemma postRole_givenFor (occasion : Occasion) (principal : Option Principal)
    (request : Request) :
    GivenFor (.rightWithin .admin "admin.roles.create") 201 principal
      ((postRole occasion principal request).run answer s).1 := by
  cases principal with
  | none => exact givenFor_of_refuses (AuthError.refuses _)
  | some p =>
    simp only [postRole, Principal.require]
    cases NewRole.form.ofBody request with
    | error e => exact givenFor_of_refuses e.refuses
    | ok submitted =>
      intro h
      simp only [Flow.run_bind, Flow.run_pure] at h ⊢
      obtain ⟨⟨role, hrole⟩, hstatus⟩ := respond_success h
      exact ⟨hstatus, p, rfl, Rights.createRole_met hrole⟩

lemma postPermissions_givenFor (occasion : Occasion) (principal : Option Principal)
    (segment : String) (request : Request) :
    GivenFor (.rightWithin .admin "admin.roles.grant") 201 principal
      ((postPermissions occasion principal segment request).run answer s).1 := by
  cases principal with
  | none => exact givenFor_of_refuses (AuthError.refuses _)
  | some p =>
    simp only [postPermissions, Principal.require]
    cases Resource.roleId? segment with
    | none =>
      have hbad : 400 ≤ badPath.status := by decide
      exact givenFor_of_refuses hbad
    | some role =>
      cases NewPermission.form.list.ofBody request with
      | error e => exact givenFor_of_refuses e.refuses
      | ok submitted =>
        intro h
        simp only [Flow.run_bind, Flow.run_pure] at h ⊢
        obtain ⟨⟨batch, hbatch⟩, hstatus⟩ := respond_success h
        exact ⟨hstatus, p, rfl, Rights.grant_met hbatch⟩

/-- Behind the gate, what needs a principal is given only to one with what is needed. -/
theorem reply_givenFor (server : Server) (occasion : Occasion) {resource : Resource}
    {act : Resource.Act} {need : Need} {request : Request}
    (hact : resource.act? request.method = some act) (hneed : resource.need? act = some need)
    (principal : Option Principal) :
    GivenFor need act.status principal
      ((server.reply occasion resource request principal).run answer s).1.response := by
  unfold reply
  rw [hact]
  unfold Resource.need? at hneed
  split at hneed
  · obtain rfl := Option.some.inj hneed
    exact getMe_givenFor principal
  · obtain rfl := Option.some.inj hneed
    simp only [Flow.run_bind, Flow.run_pure]
    exact getRoles_givenFor principal
  · obtain rfl := Option.some.inj hneed
    simp only [Flow.run_bind, Flow.run_pure]
    exact postRole_givenFor occasion principal request
  · obtain rfl := Option.some.inj hneed
    simp only [Flow.run_bind, Flow.run_pure]
    exact postPermissions_givenFor occasion principal _ request
  · exact nomatch hneed

/-- Behind the gate, what needs a principal is refused to nobody's request as unauthenticated, and
nothing is done. -/
lemma reply_none (server : Server) (occasion : Occasion) {resource : Resource}
    {act : Resource.Act} {need : Need} {request : Request}
    (hact : resource.act? request.method = some act) (hneed : resource.need? act = some need) :
    (server.reply occasion resource request none).run answer s =
      (.of AuthError.unauthenticated.response, s) := by
  unfold reply
  rw [hact]
  unfold Resource.need? at hneed
  split at hneed
  · rfl
  · rfl
  · rfl
  · rfl
  · exact nomatch hneed

end Server

end Served

/-! ## Admission -/

/-- All that has to be in order for a request to be served for a principal. -/
structure Admission (gate : Gate) (now : Int) (stores : Stores) (request : Request) where
  token : String
  claims : Claims
  principal : Principal
  not_bypassed : gate.config.isBypassed request.method request.uri.path = false
  taken : requestToken gate.config request = .ok token
  carried : gate.config.CarriesToken request token
  accepted : gate.tokens.validate now token = .ok claims
  subject : claims.user = .ok principal.user.id
  stored : stores.HasUser principal.user
  resolved : ((Resolve.principal principal.user.id).run Stores.answer stores).1 = .ok principal

lemma Server.display_ne_created {resource : Resource} {request : Request} {content : Response}
    (h : content.status = 200) : (display resource request content).status ≠ 201 := by
  unfold display
  split
  · rw [forMethod_status, h]
    decide
  · exact Nat.ne_of_gt (by decide : 201 < 405)

section Engine

variable [Text.Engine]

/-- A request for what is not open to anybody comes to the gate. -/
lemma Server.serveAny_of_guarded (server : Server) (occasion : Occasion) (metrics : Metrics)
    {request : Request} {resource : Resource} (hmethod : request.method ≠ .options)
    (hresource : Resource.ofPath? request.uri.path = some resource)
    (hhealth : resource ≠ .health) (hmetrics : resource ≠ .metrics) :
    server.serveAny occasion metrics request = server.serveGuarded occasion resource request := by
  unfold serveAny
  rw [if_neg hmethod, hresource]
  cases resource with
  | health => exact absurd rfl hhealth
  | metrics => exact absurd rfl hmetrics
  | _ => rfl

/-- A request comes to the gate, or is answered at once and adds nothing. -/
lemma Server.serveAny_cases (server : Server) (occasion : Occasion) (metrics : Metrics)
    (request : Request) :
    (∃ response : Response, response.status ≠ 201 ∧
        server.serveAny occasion metrics request = pure (.openly response)) ∨
      ∃ resource, request.method ≠ .options ∧
        Resource.ofPath? request.uri.path = some resource ∧ resource ≠ .health ∧
        resource ≠ .metrics ∧ server.serveAny occasion metrics request =
          server.serveGuarded occasion resource request := by
  by_cases hmethod : request.method = .options
  · exact .inl ⟨Cors.preflight, by decide, if_pos hmethod⟩
  cases hresource : Resource.ofPath? request.uri.path with
  | none =>
    refine .inl ⟨.empty 404, by decide, ?_⟩
    rw [serveAny, if_neg hmethod, hresource]
  | some resource =>
    by_cases hhealth : resource = .health
    · refine .inl ⟨display .health request (.text 200 "ok"), display_ne_created rfl, ?_⟩
      rw [serveAny, if_neg hmethod, hresource, hhealth]
    by_cases hmetrics : resource = .metrics
    · refine .inl ⟨display .metrics request metrics.response, display_ne_created rfl, ?_⟩
      rw [serveAny, if_neg hmethod, hresource, hmetrics]
    exact .inr ⟨resource, hmethod, rfl, hhealth, hmetrics,
      server.serveAny_of_guarded occasion metrics hmethod hresource hhealth hmetrics⟩

/-- A request for what needs a principal comes to the gate. -/
lemma Server.serveAny_of_need (server : Server) (occasion : Occasion) (metrics : Metrics)
    {request : Request} {resource : Resource} {act : Resource.Act} {need : Need}
    (hresource : Resource.ofPath? request.uri.path = some resource)
    (hact : resource.act? request.method = some act) (hneed : resource.need? act = some need) :
    server.serveAny occasion metrics request = server.serveGuarded occasion resource request := by
  refine server.serveAny_of_guarded occasion metrics ?_ hresource ?_ ?_
  · -- A preflight is no act, and what is open to anybody needs nothing.
    intro hoptions
    rw [hoptions, Resource.act?, if_neg (by decide), if_neg (by decide)] at hact
    exact nomatch hact
  · rintro rfl
    exact nomatch hneed
  · rintro rfl
    exact nomatch hneed

/-- The response to a request that comes to the gate is what the gate lets through, with what is
added to it on the way out. -/
lemma Server.serve_response {σ : Type} {answer : (c : Call) → σ → c.Answer × σ} {s : σ}
    {server : Server} {occasion : Occasion} {metrics : Metrics} {request : Request}
    {resource : Resource} (h : server.serveAny occasion metrics request =
      server.serveGuarded occasion resource request) :
    ((server.serve occasion metrics request).run answer s).1.response =
      server.cors.mark request (forMethod resource request
        ((server.gate.pass occasion.now.second request (server.reply occasion resource request)
          fun e => .of e.response).run answer s).1.2.response) := by
  simp only [serve, h, serveGuarded, Flow.run_bind, Flow.run_pure]

/-- What is answered to a request at the gate is what is sent, but for a body and for fields. -/
lemma Deployment.handle_of_need (server : Server) (occasion : Occasion) (d : Deployment)
    {request : Request} {resource : Resource} {act : Resource.Act} {need : Need}
    (hresource : Resource.ofPath? request.uri.path = some resource)
    (hact : resource.act? request.method = some act) (hneed : resource.need? act = some need) :
    let passed := (server.gate.pass occasion.now.second request
      (server.reply occasion resource request) fun e => .of e.response).run Stores.answer d.stores
    (d.handle server occasion request).1.status = passed.1.2.response.status ∧
      (d.handle server occasion request).2.stores = passed.2 := by
  intro passed
  unfold handle Server.serve
  rw [server.serveAny_of_need occasion d.metrics hresource hact hneed]
  simp only [Server.serveGuarded, Flow.run_bind, Flow.run_pure, Cors.mark_status,
    Server.forMethod_status]
  exact ⟨rfl, rfl⟩

/-- Where the caller is known and resolved, the status is that of the reply to their principal. -/
lemma Deployment.status_of_known (server : Server) (occasion : Occasion) (metrics : Metrics)
    {t : Tables} {request : Request} {resource : Resource} {act : Resource.Act} {need : Need}
    (hresource : Resource.ofPath? request.uri.path = some resource)
    (hact : resource.act? request.method = some act) (hneed : resource.need? act = some need)
    (hbypass : server.gate.config.isBypassed request.method request.uri.path = false)
    {user : Uuid} {p : Principal}
    (hcaller : server.gate.caller occasion.now.second request = .ok user)
    (hprincipal : (Resolve.principal user).run Tables.answer t = (.ok p, t)) :
    (handle server occasion request ⟨t.stores, metrics⟩).1.status =
      ((server.reply occasion resource request (some p)).run
        Tables.answer t).1.response.status := by
  have hresolved : (Resolve.principal user).run Stores.answer t.stores = (.ok p, t.stores) := by
    rw [Flow.run_stores, hprincipal]
  obtain ⟨hstatus, -⟩ :=
    handle_of_need server occasion ⟨t.stores, metrics⟩ hresource hact hneed
  rw [Gate.run_pass_served hbypass hcaller hresolved, Flow.run_stores] at hstatus
  exact hstatus

/-- What needs a principal is served only to one who was admitted and has what is needed, and is
refused as unauthenticated where the gate lets a request in without asking. -/
theorem served_only_when_admitted (server : Server) (occasion : Occasion) (d : Deployment)
    (request : Request) {resource : Resource} {act : Resource.Act} {need : Need}
    (hresource : Resource.ofPath? request.uri.path = some resource)
    (hact : resource.act? request.method = some act) (hneed : resource.need? act = some need) :
    let response := (d.handle server occasion request).1
    (response.status < 400 → response.status = act.status ∧
      ∃ a : Admission server.gate occasion.now.second d.stores request, need.MetBy a.principal) ∧
    (server.gate.config.isBypassed request.method request.uri.path = true →
      response.status = 401 ∧ (d.handle server occasion request).2.stores = d.stores) := by
  intro response
  obtain ⟨hstatus, hstores⟩ := d.handle_of_need server occasion hresource hact hneed
  constructor
  · -- A served request was not bypassed, for a bypassed one is nobody's and is refused; so it came
    -- through the gate, which let it in for the principal of its caller.
    intro hserved
    cases hbypass : server.gate.config.isBypassed request.method request.uri.path with
    | true =>
      rw [Gate.run_pass_bypassed hbypass, server.reply_none occasion hact hneed] at hstatus
      exact absurd (hstatus ▸ AuthError.refuses .unauthenticated) (Nat.not_le.2 hserved)
    | false =>
      rcases Gate.run_pass Stores.answer d.stores occasion.now.second
        (server.reply occasion resource request) (fun e => .of e.response) hbypass with
        ⟨e, hrefused⟩ | ⟨user, p, hcaller, hresolved, hpassed⟩
      · rw [hrefused] at hstatus
        exact absurd (hstatus ▸ AuthError.refuses e) (Nat.not_le.2 hserved)
      · rw [hpassed] at hstatus
        obtain ⟨token, claims, htaken, hcarried, haccepted, hsubject⟩ := Gate.of_caller hcaller
        obtain ⟨rfl, hstored⟩ := Resolve.of_principal_ok hresolved
        obtain ⟨hact', q, hq, hmet⟩ :=
          server.reply_givenFor occasion hact hneed (some p) (hstatus ▸ hserved)
        obtain rfl := Option.some.inj hq
        exact ⟨hstatus.trans hact', ⟨token, claims, p, hbypass, htaken, hcarried, haccepted,
          hsubject, hstored, hresolved⟩, hmet⟩
  · intro hbypass
    rw [Gate.run_pass_bypassed hbypass, server.reply_none occasion hact hneed] at hstatus hstores
    exact ⟨hstatus, hstores⟩

end Engine

/-- Ann, who may do whatever concerns the administration, adds a role.  A gate in gateway mode lets
the same request in as nobody's, and nothing is added. -/
theorem served_only_when_admitted_administrator :
    let tokens : TokenService := ⟨.headerOnly, "secret", rfl⟩
    let server (gatewayMode : Bool) : Server :=
      ⟨⟨{ GateConfig.ofSources .headerOnly with gatewayMode := gatewayMode }, tokens, rfl⟩,
        ⟨[], List.not_mem_nil⟩⟩
    let occasion : Occasion := ⟨⟨default, by decide⟩, fun _ => .ofNat 4⟩
    let ann := User.make (.ofNat 1) "ann@example.org" "Ann" "Lee" default
    let owner := Role.make (.ofNat 2) "owner" "" default
    let permission : Permission := ⟨.ofNat 3, "admin.*", "admin", ""⟩
    let t : Tables := ⟨[ann], ⟨[owner], [(ann.id, owner.id)]⟩,
      ⟨[permission], [(owner.id, permission.id)]⟩⟩
    let adding (token : String) : Request := ⟨.post, ⟨"/roles", ""⟩,
      [⟨"content-type", Text.Utf8.encode "application/json"⟩,
        ⟨"authorization", Text.Utf8.encode token⟩], (NewRole.form.write ⟨"auditor", ""⟩).bytes⟩
    let request := adding (tokens.issue ann.id occasion.now)
    let d : Deployment := ⟨t.stores, .zero⟩
    ((d.handle (server false) occasion request).1.status = 201 ∧
      ∃ a : Admission (server false).gate occasion.now.second t.stores request,
        a.principal.user.id = ann.id ∧
          (Need.rightWithin .admin "admin.roles.create").MetBy a.principal) ∧
      (d.handle (server true) occasion request).1.status = 401 ∧
        (d.handle (server true) occasion request).2.stores = d.stores := by
  intro tokens server occasion ann owner permission t adding request d
  have hpresents : ∀ token, (adding token).Presents (server false).gate.config token := by
    intro token
    have hnone : Spacing [] := fun _ h => nomatch h
    refine .bare rfl ?_ hnone hnone
    rw [List.append_nil, List.nil_append]
    rfl
  have hnow : 0 ≤ occasion.now.second ∧ occasion.now.second ≤ occasion.now.second ∧
      occasion.now.second ≤ occasion.now.second + 43200 := by decide
  have hcaller : (server false).gate.caller occasion.now.second request = .ok ann.id := by
    have hissued := (server false).gate.caller_of_issued occasion.now.second
      (hpresents (tokens.issue ann.id occasion.now))
    rwa [if_pos hnow] at hissued
  have hprincipal : (Resolve.principal ann.id).run Tables.answer t =
      (.ok ⟨ann, [⟨owner, [permission]⟩]⟩, t) := rfl
  have hreply : (((server false).reply occasion .roles request
      (some ⟨ann, [⟨owner, [permission]⟩]⟩)).run Tables.answer t).1.response.status = 201 := by
    decide +kernel
  have hresource : Resource.ofPath? request.uri.path = some .roles :=
    (by decide : Resource.ofPath? "/roles" = some .roles)
  have hact : Resource.roles.act? request.method = some .extend :=
    (by decide : Resource.roles.act? .post = some .extend)
  have hbypass : (server false).gate.config.isBypassed request.method request.uri.path = false :=
    (by decide : (server false).gate.config.isBypassed .post "/roles" = false)
  have hgateway : (server true).gate.config.isBypassed request.method request.uri.path = true := rfl
  -- The token in the request is not to be computed while goals are compared.
  clear_value request
  have hstatus : (d.handle (server false) occasion request).1.status = 201 := by
    have hknown := Deployment.status_of_known (server false) occasion .zero hresource hact rfl
      hbypass hcaller hprincipal
    rwa [hreply] at hknown
  have hserved := served_only_when_admitted (server false) occasion d request hresource hact rfl
  have hrefused := served_only_when_admitted (server true) occasion d request hresource hact rfl
  obtain ⟨-, a, hmet⟩ := hserved.1 (hstatus.trans_lt (by decide))
  have hknown : (server false).gate.caller occasion.now.second request =
      .ok a.principal.user.id := by
    rw [Gate.caller_of_token _ a.taken, a.accepted]
    exact a.subject
  have hann := Except.ok.inj (hknown.symm.trans hcaller)
  exact ⟨⟨hstatus, a, hann, hmet⟩, hrefused.2 hgateway⟩

end Gatehouse
