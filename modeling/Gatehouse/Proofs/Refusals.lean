import Gatehouse.Proofs.SignUpTokens

/-!
# What refusals tell

Whoever is refused should learn by it that they were refused and nothing else: not what was wrong
with their token, not whether there is a user, a role or a path, and not what the stores have come
to.  An `Encounter` is a request with everything that could bear on its answer, and a refusal tells
nothing when two encounters that have little more than the refusal in common are answered alike.

That refusals on account of who sent a request are alike rests on two facts: the errors that the
gate can come to are all sent as one response (`Gate.authenticate_isAuthentication`), and what is
for somebody asks for the caller before it looks at anything else (`Server.reply_none`).  For want
of a right they are alike because the right is looked at before the records and before what was
submitted (`Encounter.IsForbidden.response_eq`).

One thing does show.  Where something can be read, a request for its head is answered without a
body, and so is the refusal of it (`refused_head_is_told_less`).
-/

namespace Gatehouse

open Http

/-! ## Errors of the gate -/

/-- All refusals on account of who sent a request look the same. -/
lemma AuthError.response_of_isAuthentication {e : AuthError} (h : e.isAuthentication = true) :
    e.response = unauthenticated.response := by
  unfold response status
  simp only [if_pos h]
  rfl

section Errors

variable {e : AuthError}

lemma tokenInHeader_isAuthentication {value : List UInt8} (h : tokenInHeader value = .error e) :
    e.isAuthentication = true := by
  obtain ⟨rfl, -⟩ := tokenInHeader_eq_error_iff.1 h
  rfl

lemma requestToken_isAuthentication {config : GateConfig} {request : Request}
    (h : requestToken config request = .error e) : e.isAuthentication = true := by
  cases requestToken_eq_iff.1 h with
  | refused hon hheader =>
    unfold headerToken at hheader
    split at hheader
    · exact nomatch hheader
    · exact tokenInHeader_isAuthentication hheader
  | nowhere => rfl

lemma Token.validate_isAuthentication {secret token : String} {now : Int}
    (h : validate secret now token = .error e) : e.isAuthentication = true := by
  unfold validate at h
  split at h
  · obtain rfl := Except.error.inj h
    rfl
  · split at h
    · split at h
      · obtain rfl := Except.error.inj h
        rfl
      · exact nomatch h
    · obtain rfl := Except.error.inj h
      rfl

lemma Claims.user_isAuthentication {claims : Claims} (h : claims.user = .error e) :
    e.isAuthentication = true := by
  unfold user at h
  split at h
  · exact nomatch h
  · obtain rfl := Except.error.inj h
    rfl

namespace Gate

variable {gate : Gate} {now : Int} {request : Request}

lemma caller_isAuthentication (h : gate.caller now request = .error e) :
    e.isAuthentication = true := by
  unfold caller at h
  split at h
  · next htoken =>
    obtain rfl := Except.error.inj h
    exact requestToken_isAuthentication htoken
  · split at h
    · next hvalidate =>
      obtain rfl := Except.error.inj h
      exact Token.validate_isAuthentication hvalidate
    · exact Claims.user_isAuthentication h

/-- Whatever the stores answer, the gate refuses on account of who sent the request only. -/
lemma authenticate_isAuthentication {σ : Type} {answer : (c : Call) → σ → c.Answer × σ} {s : σ}
    (h : ((gate.authenticate now request).run answer s).1 = .error e) :
    e.isAuthentication = true := by
  obtain ⟨s', hrun⟩ : ∃ s', (gate.authenticate now request).run answer s = (.error e, s') :=
    ⟨_, Prod.ext h rfl⟩
  cases run_authenticate_eq_iff.1 hrun with
  | unknown _ hcaller => exact caller_isAuthentication hcaller
  | unavailable _ _ _ => rfl

end Gate

end Errors

/-! ## What is told about a right -/

/-- The refusal of a principal who has not what they must have. -/
def Need.refusal : Need → AuthError
  | nothing => .unauthenticated
  | right requested => .forbidden requested
  | rightWithin scope requested => .forbidden (scope.text ++ ":" ++ requested)

lemma Principal.ensureWithin_of_not_met [Text.Engine] {p : Principal} {scope : Scope}
    {requested : String} (h : ¬(Need.rightWithin scope requested).MetBy p) :
    p.ensureWithin scope requested = .error (Need.rightWithin scope requested).refusal := by
  unfold ensureWithin
  split
  · next hp => exact absurd (met_of_ensureWithin (if_pos hp)) h
  · rfl

/-! ## Requests that meet a server -/

/-- A request that meets a server, with the counters and the stores as they are by then; stores
are given by how they answer, failures and all. -/
structure Encounter where
  server : Server
  occasion : Occasion
  metrics : Metrics
  {σ : Type}
  answer : (c : Call) → σ → c.Answer × σ
  state : σ
  request : Request

namespace Encounter

variable [Text.Engine] {a : Encounter} {resource : Resource}

/-- What is answered to the request. -/
def response (a : Encounter) : Response :=
  ((a.server.serve a.occasion a.metrics a.request).run a.answer a.state).1.response

/-- Whether the request is let in, and for whom. -/
def decision (a : Encounter) : Except AuthError Outcome :=
  ((a.server.gate.authenticate a.occasion.now.second a.request).run a.answer a.state).1

lemma response_stores (server : Server) (occasion : Occasion) (request : Request)
    (d : Deployment) :
    (Encounter.mk server occasion d.metrics Stores.answer d.stores request).response =
      (d.handle server occasion request).1 := rfl

/-- The request is for something behind the gate. -/
structure ComesFor (a : Encounter) (resource : Resource) : Prop where
  path : Resource.ofPath? a.request.uri.path = some resource
  method : a.request.method ≠ .options
  guarded : resource ≠ .health ∧ resource ≠ .metrics

lemma ComesFor.response_eq (h : a.ComesFor resource) :
    a.response = a.server.cors.mark a.request (Server.forMethod resource a.request
      ((a.server.gate.pass a.occasion.now.second a.request
        (a.server.reply a.occasion resource a.request) fun e => .of e.response).run a.answer
          a.state).1.2.response) :=
  Server.serve_response
    (a.server.serveAny_of_guarded a.occasion a.metrics h.method h.path h.guarded.1 h.guarded.2)

lemma ComesFor.response_of_error (h : a.ComesFor resource) {e : AuthError}
    (hdecision : a.decision = .error e) :
    a.response = a.server.cors.mark a.request
      (Server.forMethod resource a.request e.response) := by
  rw [h.response_eq, Gate.run_pass_of_error hdecision]
  rfl

lemma ComesFor.response_of_ok (h : a.ComesFor resource) {outcome : Outcome}
    (hdecision : a.decision = .ok outcome) : ∃ s, a.response = a.server.cors.mark a.request
      (Server.forMethod resource a.request
        ((a.server.reply a.occasion resource a.request outcome.principal?).run a.answer
          s).1.response) := by
  rw [h.response_eq, Gate.run_pass_of_ok hdecision]
  exact ⟨_, rfl⟩

omit [Text.Engine] in
lemma decision_of_caller {user : Uuid} {p : Principal}
    (hbypass : a.server.gate.config.isBypassed a.request.method a.request.uri.path = false)
    (hcaller : a.server.gate.caller a.occasion.now.second a.request = .ok user)
    (hprincipal : ((Resolve.principal user).run a.answer a.state).1 = .ok p) :
    a.decision = .ok (.authenticated p) := by
  have hknown := Gate.Decides.known hbypass hcaller (Prod.ext hprincipal rfl)
  rw [decision, hknown.run_authenticate]

/-! ## Not known -/

/-- The request is refused on account of who sent it: by the gate, or because the gate let it in as
nobody's and what it is for is for somebody. -/
inductive IsUnknown (a : Encounter) (resource : Resource) : Prop
  | atGate {e : AuthError} : a.ComesFor resource → a.decision = .error e → IsUnknown a resource
  | asNobody {act : Resource.Act} {need : Need} : a.ComesFor resource →
      a.decision = .ok .bypassed → resource.act? a.request.method = some act →
      resource.need? act = some need → IsUnknown a resource

/-- The request is for what would be shown to it, without the content. -/
def AsksForHead (a : Encounter) (resource : Resource) : Prop :=
  a.request.method = .head ∧ resource.isReadable = true

instance : Decidable (a.AsksForHead resource) := inferInstanceAs (Decidable (_ ∧ _))

lemma IsUnknown.response_eq (h : a.IsUnknown resource) :
    a.response = a.server.cors.mark a.request
      (Server.forMethod resource a.request AuthError.unauthenticated.response) := by
  -- The gate refuses, or the handler does on behalf of nobody; the response is the same.
  cases h with
  | atGate hcomes hdecision =>
    rw [hcomes.response_of_error hdecision,
      AuthError.response_of_isAuthentication (Gate.authenticate_isAuthentication hdecision)]
  | asNobody hcomes hdecision hact hneed =>
    obtain ⟨s, hresponse⟩ := hcomes.response_of_ok hdecision
    rw [hresponse, Outcome.principal?, a.server.reply_none a.occasion hact hneed]
    rfl

lemma IsUnknown.status_eq (h : a.IsUnknown resource) : a.response.status = 401 := by
  rw [h.response_eq, Cors.mark_status, Server.forMethod_status]
  rfl

lemma IsUnknown.body_eq_empty (h : a.IsUnknown resource) (hhead : a.AsksForHead resource) :
    a.response.body = "" := by
  have hcut : a.request.method = .head ∧ resource.isReadable = true := hhead
  rw [h.response_eq, Cors.mark_body, Server.forMethod, if_pos hcut]
  rfl

lemma IsUnknown.body_eq (h : a.IsUnknown resource) (hhead : ¬a.AsksForHead resource) :
    a.response.body = AuthError.unauthenticated.response.body := by
  have hwhole : ¬(a.request.method = .head ∧ resource.isReadable = true) := hhead
  rw [h.response_eq, Cors.mark_body, Server.forMethod, if_neg hwhole]

/-! ## Not permitted -/

/-- The request is to add something and could be, but for the right that its principal has not:
what was submitted and the path can be read. -/
structure IsForbidden (a : Encounter) (resource : Resource) (need : Need) : Prop where
  comes : a.ComesFor resource
  method : a.request.method = .post
  required : resource.need? .extend = some need
  submitted : ∃ addition, Asked a.occasion a.request resource addition
  lacking : ∃ p, a.decision = .ok (.authenticated p) ∧ ¬need.MetBy p

/-- The right is looked at before the records and before what was submitted. -/
lemma IsForbidden.response_eq {need : Need} (h : a.IsForbidden resource need) :
    a.response = a.server.cors.mark a.request need.refusal.response := by
  obtain ⟨hcomes, hpost, hneed, ⟨addition, hasked⟩, p, hdecision, hlacking⟩ := h
  obtain ⟨s, hresponse⟩ := hcomes.response_of_ok hdecision
  have hhead : a.request.method ≠ .head := by
    rw [hpost]
    decide
  rw [hresponse, Server.forMethod_eq_self hhead, Outcome.principal?]
  have hact : ∀ {r : Resource}, r.isExtensible = true →
      r.act? a.request.method = some .extend := by
    intro r hr
    rw [hpost, Resource.act?, if_neg (by decide), if_pos rfl, if_pos hr]
  -- Nothing is needed to sign up, so what was asked for is a role or a grant; both handlers look at
  -- the right first.
  cases hasked with
  | user => cases hneed
  | role hbody =>
    obtain rfl := Option.some.inj hneed
    have hrefused := Principal.ensureWithin_of_not_met hlacking
    simp only [Server.reply, hact (r := .roles) rfl, Server.postRole, Principal.require, hbody,
      Rights.createRole, Rights.createRight, hrefused]
    rfl
  | grant hrole hbody =>
    obtain rfl := Option.some.inj hneed
    have hrefused := Principal.ensureWithin_of_not_met hlacking
    simp only [Server.reply, hact (r := .permissionsOf _) rfl, Server.postPermissions,
      Principal.require, hrole, hbody, Rights.grant, Rights.grantRight, hrefused]
    rfl

lemma IsForbidden.status_eq {need : Need} (h : a.IsForbidden resource need) :
    a.response.status = 403 := by
  rw [h.response_eq, Cors.mark_status]
  obtain rfl | rfl := Resource.need?_extend h.required
  · rfl
  · rfl

end Encounter

/-! ## Two requests -/

/-- Two requests that are refused on account of who sent them are refused alike, whatever they are
for, whatever was wrong with them and whatever the stores hold or fail with; but one that asks for
what it is for without the content is answered without a body.  Two requests that are refused for
want of one right are refused alike as well, whether there is the role they name and whether what
was submitted could be stored. -/
theorem refusals_tell_nothing [Text.Engine] (a b : Encounter) :
    (∀ resource resource', a.IsUnknown resource → b.IsUnknown resource' →
      a.response.status = 401 ∧ b.response.status = 401 ∧
        (a.AsksForHead resource → a.response.body = "") ∧
        (¬a.AsksForHead resource → ¬b.AsksForHead resource' →
          a.response.body = b.response.body)) ∧
      ∀ resource resource' need, a.IsForbidden resource need → b.IsForbidden resource' need →
        a.response.status = 403 ∧ b.response.status = 403 ∧ a.response.body = b.response.body ∧
          (a.server.cors = b.server.cors → a.request = b.request → a.response = b.response) := by
  constructor
  · intro resource resource' ha hb
    refine ⟨ha.status_eq, hb.status_eq, ha.body_eq_empty, fun hwhole hwhole' => ?_⟩
    rw [ha.body_eq hwhole, hb.body_eq hwhole']
  · intro resource resource' need ha hb
    refine ⟨ha.status_eq, hb.status_eq, ?_, fun hcors hrequest => ?_⟩
    · rw [ha.response_eq, hb.response_eq, Cors.mark_body, Cors.mark_body]
    · rw [ha.response_eq, hb.response_eq, hcors, hrequest]

/-- Nobody's request is refused by closed stores as one without a token is by empty ones, and Eve,
who may not grant anything, is not told whether there is the role she names. -/
theorem refusals_tell_nothing_to_strangers :
    let tokens : TokenService := ⟨.headerOnly, "secret", rfl⟩
    let server (gatewayMode : Bool) : Server :=
      ⟨⟨{ GateConfig.ofSources .headerOnly with gatewayMode := gatewayMode }, tokens, rfl⟩,
        ⟨[], List.not_mem_nil⟩⟩
    let occasion : Occasion := ⟨⟨default, by decide⟩, fun _ => .ofNat 3⟩
    let eve := User.make (.ofNat 1) "eve@example.org" "Eve" "Ray" default
    let owner := Role.make (.ofNat 2) "owner" "" default
    let path := "/roles/" ++ owner.id.text ++ "/permissions"
    let closed : Stores := ⟨⟨[.closed], ⟨0⟩⟩, ⟨[.closed], ⟨0⟩⟩, ⟨[.closed], ⟨0⟩⟩⟩
    let plain : Encounter :=
      ⟨server false, occasion, .zero, Stores.answer, .empty, ⟨.get, ⟨"/me", ""⟩, [], []⟩⟩
    let nobody : Encounter :=
      ⟨server true, occasion, .zero, Stores.answer, closed, ⟨.post, ⟨path, ""⟩, [], []⟩⟩
    let grant (token : String) : Request :=
      ⟨.post, ⟨path, ""⟩, [⟨"content-type", Text.Utf8.encode "application/json"⟩,
        ⟨"authorization", Text.Utf8.encode token⟩], Text.Utf8.encode "[]"⟩
    let token := tokens.issue eve.id occasion.now
    let granting (roles : List Role) : Encounter :=
      ⟨server false, occasion, .zero, Tables.answer, ⟨[eve], ⟨roles, []⟩, .empty⟩, grant token⟩
    (plain.response.status = 401 ∧ nobody.response.status = 401 ∧
        plain.response.body = nobody.response.body) ∧
      (granting []).response = (granting [owner]).response ∧
        (granting []).response.status = 403 := by
  intro tokens server occasion eve owner path closed plain nobody grant token granting
  have hplain : plain.IsUnknown .me :=
    .atGate (e := .missingToken) ⟨by decide, by decide, by decide⟩ rfl
  have hpath : Resource.ofPath? path = some (.permissionsOf owner.id.text) := by decide
  have hnobody : nobody.IsUnknown (.permissionsOf owner.id.text) :=
    .asNobody ⟨hpath, by decide, by decide⟩ rfl rfl rfl
  have hpresents : ∀ token, (grant token).Presents (server false).gate.config token := by
    intro token
    have hnone : Spacing [] := fun _ h => nomatch h
    refine .bare rfl ?_ hnone hnone
    rw [List.append_nil, List.nil_append]
    rfl
  have hnow : 0 ≤ occasion.now.second ∧ occasion.now.second ≤ occasion.now.second ∧
      occasion.now.second ≤ occasion.now.second + 43200 := by decide
  have hcaller : (server false).gate.caller occasion.now.second (grant token) = .ok eve.id := by
    have hissued := (server false).gate.caller_of_issued occasion.now.second (hpresents token)
    rwa [if_pos hnow] at hissued
  have hbypass : (server false).gate.config.isBypassed .post path = false := by decide
  have hrole : Resource.roleId? owner.id.text = some owner.id := by decide
  have hbody : NewPermission.form.list.ofBody (grant token) = .ok [] := by decide +kernel
  have hpost : Method.post ≠ Method.options := by decide
  have hgranting : ∀ roles, (granting roles).IsForbidden (.permissionsOf owner.id.text)
      (.rightWithin .admin Rights.grantRight) := by
    intro roles
    constructor
    case comes => exact ⟨hpath, hpost, by decide⟩
    case method => rfl
    case required => rfl
    case submitted => exact ⟨_, .grant hrole hbody⟩
    case lacking =>
      refine ⟨⟨eve, []⟩, Encounter.decision_of_caller hbypass hcaller rfl, ?_⟩
      rintro ⟨permission, hmem, -⟩
      exact nomatch hmem
  have hunknown := (refusals_tell_nothing plain nobody).1 _ _ hplain hnobody
  have hforbidden := (refusals_tell_nothing _ _).2 _ _ _ (hgranting []) (hgranting [owner])
  exact ⟨⟨hunknown.1, hunknown.2.1, hunknown.2.2.2 (by decide) (by decide)⟩,
    hforbidden.2.2.2 rfl rfl, hforbidden.1⟩

/-- Whoever asks for themselves without a token is told so, unless they ask for the head only. -/
theorem refused_head_is_told_less :
    let server : Server :=
      ⟨⟨.ofSources .headerOnly, ⟨.headerOnly, "secret", rfl⟩, rfl⟩, ⟨[], List.not_mem_nil⟩⟩
    let occasion : Occasion := ⟨⟨default, by decide⟩, fun _ => default⟩
    let asked (method : Method) : Encounter :=
      ⟨server, occasion, .zero, Stores.answer, .empty, ⟨method, ⟨"/me", ""⟩, [], []⟩⟩
    (asked .get).IsUnknown .me ∧ (asked .head).IsUnknown .me ∧
      (asked .get).response.body ≠ (asked .head).response.body := by
  intro server occasion asked
  have hget : (asked .get).IsUnknown .me :=
    .atGate (e := .missingToken) ⟨by decide, by decide, by decide⟩ rfl
  have hhead : (asked .head).IsUnknown .me :=
    .atGate (e := .missingToken) ⟨by decide, by decide, by decide⟩ rfl
  refine ⟨hget, hhead, ?_⟩
  rw [hget.body_eq (by decide), hhead.body_eq_empty (by decide)]
  decide

end Gatehouse
