import Gatehouse.Service.Cors
import Gatehouse.Service.Metrics
import Gatehouse.Service.Resource
import Gatehouse.Service.Rights
import Gatehouse.Service.SignUp

/-!
# The server

A request is answered in this order: a question what may be done is answered at once; a path
that names nothing is not found; a resource that is open to anybody is shown; any other passes
the gate.  Behind the gate a method that does not serve the resource is refused, then the caller
is asked for, then the role in the path, then the body, and only then is anything done.

Serving is a flow of requests to the stores.  What time it is and which ids are new is settled
when a request arrives (`Occasion`); counters are not part of the flow, which says instead what
is to be counted (`Served`).
-/

namespace Gatehouse

open Http

/-! ## What serving starts from and comes to -/

/-- The circumstances in which a request is served. -/
structure Occasion where
  now : Session.Moment
  /-- new ids, by index -/
  ids : Nat → Uuid

/-- The answer to a request behind the gate. -/
structure Reply where
  response : Response
  /-- whether an account was opened -/
  opened : Bool

/-- A reply that opens no account. -/
def Reply.of (response : Response) : Reply := ⟨response, false⟩

/-- What serving a request comes to. -/
structure Served where
  response : Response
  /-- how the request fared at the gate, where it came there -/
  outcome : Option String
  /-- whether an account was opened -/
  opened : Bool

/-- Something served in front of the gate. -/
def Served.openly (response : Response) : Served := ⟨response, none, false⟩

/-- How a request fared at the gate. -/
def outcomeName : Except AuthError Outcome → String
  | .ok outcome => outcome.label
  | .error _ => "rejected"

/-- The response to a request that did or did not succeed. -/
def respond {α : Type} (status : Nat) (toJson : α → Json) : Except ServiceError α → Response
  | .ok a => .json status (toJson a)
  | .error e => e.response

/-- A server: the gate, and the origins that pages may come from. -/
structure Server where
  gate : Gate
  cors : Cors

namespace Server

variable [Text.Engine]

/-! ## Behind the gate -/

/-- The refusal of a method that does not serve a resource. -/
def notServed (resource : Resource) : Response :=
  (Response.empty 405).withHeader "allow" resource.methods

/-- Opens an account. -/
def postUser (server : Server) (occasion : Occasion) (request : Request) : Flow Reply :=
  match NewUser.form.ofBody request with
  | .error e => pure (.of e.response)
  | .ok submitted => do
    let result ← signUp server.gate.tokens (occasion.ids 0) occasion.now submitted
    return ⟨respond 201 OpenedAccount.toJson result, result.isOk⟩

/-- Shows the caller to themselves. -/
def getMe (principal : Option Principal) : Response :=
  match Principal.require principal with
  | .error e => e.response
  | .ok p => .json 200 (Principal.form.write p)

/-- Shows the roles. -/
def getRoles (principal : Option Principal) : Flow Response :=
  match Principal.require principal with
  | .error e => pure e.response
  | .ok p => return respond 200 Role.form.list.write (← Rights.listRoles p)

/-- Adds a role. -/
def postRole (occasion : Occasion) (principal : Option Principal) (request : Request) :
    Flow Response :=
  match Principal.require principal with
  | .error e => pure e.response
  | .ok p =>
    match NewRole.form.ofBody request with
    | .error e => pure e.response
    | .ok submitted =>
      return respond 201 Role.form.write
        (← Rights.createRole p (occasion.ids 0) occasion.now.instant submitted)

/-- The refusal of a path whose role is not named by an id. -/
def badPath : Response := .text 400 "Invalid URL"

/-- Grants permissions to a role. -/
def postPermissions (occasion : Occasion) (principal : Option Principal) (segment : String)
    (request : Request) : Flow Response :=
  match Principal.require principal with
  | .error e => pure e.response
  | .ok p =>
    match Resource.roleId? segment with
    | none => pure badPath
    | some role =>
      match NewPermission.form.list.ofBody request with
      | .error e => pure e.response
      | .ok submitted =>
        return respond 201 Permission.form.list.write
          (← Rights.grant p occasion.ids role submitted)

/-- The reply to a request that was let in. -/
def reply (server : Server) (occasion : Occasion) (resource : Resource) (request : Request)
    (principal : Option Principal) : Flow Reply :=
  match resource, resource.act? request.method with
  | .users, some .extend => server.postUser occasion request
  | .me, some .read => pure (.of (getMe principal))
  | .roles, some .read => return .of (← getRoles principal)
  | .roles, some .extend => return .of (← postRole occasion principal request)
  | .permissionsOf segment, some .extend =>
    return .of (← postPermissions occasion principal segment request)
  | _, _ => pure (.of (notServed resource))

/-- A response as it is sent for a method: one that is read without its content is sent without
a body. -/
def forMethod (resource : Resource) (request : Request) (response : Response) : Response :=
  if request.method = .head ∧ resource.isReadable then response.withoutBody else response

/-- Serves a request for a resource behind the gate. -/
def serveGuarded (server : Server) (occasion : Occasion) (resource : Resource)
    (request : Request) : Flow Served := do
  let (outcome, reply) ← server.gate.pass occasion.now.second request
    (server.reply occasion resource request) fun e => .of e.response
  return ⟨forMethod resource request reply.response, some (outcomeName outcome), reply.opened⟩

/-! ## In front of the gate -/

/-- Shows a resource that is open to anybody. -/
def display (resource : Resource) (request : Request) (content : Response) : Response :=
  match resource.act? request.method with
  | some .read => forMethod resource request content
  | _ => notServed resource

/-- Serves a request, whoever sent it from wherever. -/
def serveAny (server : Server) (occasion : Occasion) (metrics : Metrics) (request : Request) :
    Flow Served :=
  if request.method = .options then pure (.openly Cors.preflight)
  else match Resource.ofPath? request.uri.path with
    | none => pure (.openly (.empty 404))
    | some .health => pure (.openly (display .health request (.text 200 "ok")))
    | some .metrics => pure (.openly (display .metrics request metrics.response))
    | some resource => server.serveGuarded occasion resource request

/-- Serves a request. -/
def serve (server : Server) (occasion : Occasion) (metrics : Metrics) (request : Request) :
    Flow Served := do
  let served ← server.serveAny occasion metrics request
  return { served with response := server.cors.mark request served.response }

end Server

/-! ## Counting -/

/-- The counters after a request was served. -/
def Metrics.record (metrics : Metrics) (served : Served) : Metrics :=
  let metrics := match served.outcome with
    | some outcome => metrics.requestSeen outcome
    | none => metrics
  if served.opened then metrics.accountCreated else metrics

/-! ## Requests one after the other -/

/-- A deployment between two requests. -/
structure Deployment where
  stores : Stores
  metrics : Metrics

/-- The response to a request when no other is served at the same time, and the deployment after
it. -/
def Deployment.handle [Text.Engine] (server : Server) (occasion : Occasion) (request : Request)
    (d : Deployment) : Response × Deployment :=
  let (served, stores) := (server.serve occasion d.metrics request).run Stores.answer d.stores
  (served.response, ⟨stores, d.metrics.record served⟩)

end Gatehouse
