import Gatehouse.Proofs.Escalation
import Mathlib.Data.List.Forall2

/-!
# Failures of the storage are kept from callers

Any step of a flow may fail, and what it fails with passes through the resolver and the gate, or
through the checks of an administrator and the taking back of a batch, before something is sent.
That the text of such a failure is lost on the way is a statement about two runs.  `Flow.Alike`
makes it one about the shape of flows: two flows take the same steps and come to related results
as long as their steps are answered alike.  A flow that is alike to itself is discreet, and each
flow of the service is shown to be so by following its definition, whoever answers it.

The relation between results grows coarser on the way out.  Failures of a store may differ in
their texts; those of an administrator and of the service are sent as one response (`SentAlike`);
those of the resolver are all one to the gate; and what is sent, and counted, is equal.

Stores come in last.  `Server.attend_alike` follows a whole run for any two ways of answering alike,
and stores that fail by rule or on a schedule are two such ways when they differ in texts only
(`Stores.answer_alike`, `AnswerAlike.failing`).
-/

namespace Gatehouse

open Http

/-! ## Failures that differ in their texts -/

/-- Two failures that are the same but for the text of a failure of the storage itself. -/
inductive StoreError.Alike : StoreError → StoreError → Prop
  | refl (e : StoreError) : Alike e e
  | backend (reason reason' : String) : Alike (.backend reason) (.backend reason')

/-- Two results that are the same, or failures that are related. -/
inductive ResultsAlike {ε α : Type} (E : ε → ε → Prop) : Except ε α → Except ε α → Prop
  | ok (a : α) : ResultsAlike E (.ok a) (.ok a)
  | error {e e' : ε} : E e e' → ResultsAlike E (.error e) (.error e')

lemma ResultsAlike.refl {ε α : Type} {E : ε → ε → Prop} (hE : ∀ e, E e e) (r : Except ε α) :
    ResultsAlike E r r := by
  cases r with
  | ok a => exact .ok a
  | error e => exact .error (hE e)

/-- Two answers to one step that are the same but for the text of a failure. -/
def Call.AnswersAlike : (c : Call) → c.Answer → c.Answer → Prop
  | .usersInUse => Eq
  | .rolesInUse => Eq
  | .permissionsInUse => Eq
  | .users _ _ => ResultsAlike StoreError.Alike
  | .roles _ _ => ResultsAlike StoreError.Alike
  | .permissions _ _ => ResultsAlike StoreError.Alike

/-- Two failures of the service that are sent as one response. -/
def ServiceError.SentAlike (e e' : ServiceError) : Prop := e.response = e'.response

lemma StoreError.Alike.sentAlike {e e' : StoreError} (h : e.Alike e') :
    (ServiceError.ofStore e).SentAlike (ServiceError.ofStore e') := by
  cases h with
  | refl => exact rfl
  | backend => exact rfl

/-! ## Discreet flows -/

namespace Flow

variable {α β ε : Type} {R : α → α → Prop} {Q : β → β → Prop} {E : ε → ε → Prop}

/-- Two flows take the same steps and come to related results as long as their steps are answered
alike. -/
inductive Alike (R : α → α → Prop) : Flow α → Flow α → Prop
  | done {a b : α} : R a b → Alike R (.done a) (.done b)
  | call {c : Call} {next next' : c.Answer → Flow α} :
      (∀ x y, c.AnswersAlike x y → Alike R (next x) (next' y)) →
        Alike R (.call c next) (.call c next')

/-- What a flow comes to tells nothing of the texts of failures, as far as a relation goes. -/
def Discreet (R : α → α → Prop) (m : Flow α) : Prop := Alike R m m

lemma Alike.bind {m m' : Flow α} {f f' : α → Flow β} (h : Alike R m m')
    (hf : ∀ a b, R a b → Alike Q (f a) (f' b)) : Alike Q (m >>= f) (m' >>= f') := by
  show Alike Q (m.bind f) (m'.bind f')
  induction h with
  | done hab => exact hf _ _ hab
  | call _ ih => exact .call ih

lemma discreet_ofCall (c : Call) : (ofCall c).Discreet c.AnswersAlike :=
  .call fun _ _ h => .done h

/-- A discreet flow whose result is all that the next one is told. -/
lemma Discreet.bind {m : Flow α} {f : α → Flow β} (hm : m.Discreet Eq)
    (hf : ∀ a, (f a).Discreet Q) : (m >>= f).Discreet Q := by
  -- Both runs hand the same result on, so the second flow is compared with itself.
  refine Alike.bind hm ?_
  rintro a b rfl
  exact hf a

/-- A discreet flow that may fail, and the next one, which is told how. -/
lemma Discreet.bind_result {m : Flow (Except ε α)} {f : Except ε α → Flow β}
    (hm : m.Discreet (ResultsAlike E)) (hok : ∀ a, (f (.ok a)).Discreet Q)
    (herror : ∀ e e', E e e' → Alike Q (f (.error e)) (f (.error e'))) :
    (m >>= f).Discreet Q := by
  refine Alike.bind hm ?_
  rintro x y (a | hE)
  · exact hok a
  · exact herror _ _ hE

lemma discreet_usersInUse : usersInUse.Discreet Eq := discreet_ofCall .usersInUse

lemma discreet_rolesInUse : rolesInUse.Discreet Eq := discreet_ofCall .rolesInUse

lemma discreet_permissionsInUse : permissionsInUse.Discreet Eq := discreet_ofCall .permissionsInUse

lemma discreet_users (place : Nat) (op : UserOp) :
    (users place op).Discreet (ResultsAlike StoreError.Alike) := discreet_ofCall (.users place op)

lemma discreet_roles (place : Nat) (op : RoleOp) :
    (roles place op).Discreet (ResultsAlike StoreError.Alike) := discreet_ofCall (.roles place op)

lemma discreet_permissions (place : Nat) (op : PermissionOp) :
    (permissions place op).Discreet (ResultsAlike StoreError.Alike) :=
  discreet_ofCall (.permissions place op)

end Flow

/-! ## Resolving and administering -/

namespace Resolve

lemma discreet_withPermissions (place : Nat) (roles : List Role) :
    (withPermissions place roles).Discreet (ResultsAlike StoreError.Alike) := by
  induction roles with
  | nil => exact .done (.ok [])
  | cons role rest ih =>
    refine (Flow.discreet_permissions place _).bind_result (fun permissions => ?_)
      fun e e' h => .done (.error h)
    exact ih.bind_result (fun held => .done (.ok _)) fun e e' h => .done (.error h)

lemma discreet_rolesOf (user : Uuid) :
    (rolesOf user).Discreet (ResultsAlike StoreError.Alike) := by
  refine Flow.discreet_rolesInUse.bind fun place => ?_
  refine (Flow.discreet_roles place _).bind_result (fun roles => ?_) fun e e' h => .done (.error h)
  cases roles with
  | nil => exact .done (.ok [])
  | cons role rest =>
    exact Flow.discreet_permissionsInUse.bind fun place => discreet_withPermissions place _

/-- A principal is resolved or not; how the stores failed is of no interest. -/
lemma discreet_principal (user : Uuid) :
    (principal user).Discreet (ResultsAlike fun _ _ => True) := by
  refine Flow.discreet_usersInUse.bind fun place => ?_
  refine (Flow.discreet_users place _).bind_result (fun found => ?_) fun _ _ _ =>
    .done (.error trivial)
  cases found with
  | none => exact .done (.error trivial)
  | some u =>
    exact (discreet_rolesOf u.id).bind_result (fun held => .done (.ok _)) fun _ _ _ =>
      .done (.error trivial)

end Resolve

namespace Admin

/-- Two administrative failures that are sent as one response. -/
def SentAlike (e e' : AdminError) : Prop :=
  (ServiceError.ofAdmin e).SentAlike (ServiceError.ofAdmin e')

lemma discreet_createRole (role : Role) : (createRole role).Discreet (ResultsAlike SentAlike) := by
  unfold createRole
  cases role.validate with
  | error v => exact .done (.error rfl)
  | ok _ =>
    refine Flow.discreet_rolesInUse.bind fun place => ?_
    exact (Flow.discreet_roles place _).bind_result (fun _ => .done (.ok _)) fun e e' h =>
      .done (.error h.sentAlike)

lemma discreet_discard (place : Nat) (ids : List Uuid) : (discard place ids).Discreet Eq := by
  induction ids with
  | nil => exact .done rfl
  | cons id rest ih =>
    exact (Flow.discreet_permissions place _).bind_result (fun _ => ih) fun _ _ _ => ih

lemma alike_undo (place : Nat) (stored : List Uuid) {e e' : StoreError} (h : e.Alike e') :
    Flow.Alike (ResultsAlike SentAlike) (undo place stored e) (undo place stored e') :=
  Flow.Alike.bind (discreet_discard place stored) fun _ _ _ => .done (.error h.sentAlike)

lemma discreet_storeAndGrant (place : Nat) (role : Uuid) (batch : List Permission) :
    ∀ stored, (storeAndGrant place role stored batch).Discreet (ResultsAlike SentAlike) := by
  -- The failures of the two runs meet in `undo`, which takes the same steps for both and ends with
  -- failures that are sent alike.
  induction batch with
  | nil =>
    intro stored
    exact (Flow.discreet_permissions place _).bind_result (fun _ => .done (.ok _)) fun e e' h =>
      alike_undo place stored h
  | cons p rest ih =>
    intro stored
    exact (Flow.discreet_permissions place _).bind_result (fun _ => ih _) fun e e' h =>
      alike_undo place stored h

lemma discreet_grant (role : Uuid) (batch : List Permission) :
    (grant role batch).Discreet (ResultsAlike SentAlike) := by
  unfold grant
  cases Permission.validateBatch batch with
  | error v => exact .done (.error rfl)
  | ok _ =>
    refine Flow.discreet_rolesInUse.bind fun place => ?_
    refine (Flow.discreet_roles place _).bind_result (fun found => ?_) fun e e' h =>
      .done (.error h.sentAlike)
    cases found with
    | none => exact .done (.error rfl)
    | some _ =>
      exact Flow.discreet_permissionsInUse.bind fun place => discreet_storeAndGrant place role _ _

end Admin

/-! ## Serving -/

/-- Results that differ in failures which are sent alike are sent alike. -/
lemma ResultsAlike.respond_eq {α : Type} {r r' : Except ServiceError α}
    (h : ResultsAlike ServiceError.SentAlike r r') (status : Nat) (toJson : α → Json) :
    respond status toJson r = respond status toJson r' := by
  cases h with
  | ok a => rfl
  | error he => exact he

lemma ResultsAlike.isOk_eq {ε α : Type} {E : ε → ε → Prop} {r r' : Except ε α}
    (h : ResultsAlike E r r') : r.isOk = r'.isOk := by
  cases h with
  | ok a => rfl
  | error _ => rfl

lemma discreet_signUp (tokens : TokenService) (id : Uuid) (now : Session.Moment)
    (submitted : NewUser) :
    (signUp tokens id now submitted).Discreet (ResultsAlike ServiceError.SentAlike) := by
  unfold signUp
  cases submitted.validate with
  | error e => exact .done (.error rfl)
  | ok _ =>
    refine Flow.discreet_usersInUse.bind fun place => ?_
    refine (Flow.discreet_users place _).bind_result (fun found => ?_) fun e e' h =>
      .done (.error h.sentAlike)
    cases found with
    | some _ => exact .done (.error rfl)
    | none =>
      exact (Flow.discreet_users place _).bind_result (fun _ => .done (.ok _)) fun e e' h =>
        .done (.error h.sentAlike)

namespace Rights

variable [Text.Engine]

lemma discreet_listRoles (p : Principal) :
    (listRoles p).Discreet (ResultsAlike ServiceError.SentAlike) := by
  unfold listRoles
  cases p.ensure listRight with
  | error e => exact .done (.error rfl)
  | ok _ =>
    refine Flow.discreet_rolesInUse.bind fun place => ?_
    exact (Flow.discreet_roles place _).bind_result (fun _ => .done (.ok _)) fun e e' h =>
      .done (.error h.sentAlike)

lemma discreet_createRole (p : Principal) (id : Uuid) (now : Time.Instant) (submitted : NewRole) :
    (createRole p id now submitted).Discreet (ResultsAlike ServiceError.SentAlike) := by
  unfold createRole
  cases p.ensureWithin .admin createRight with
  | error e => exact .done (.error rfl)
  | ok _ =>
    exact (Admin.discreet_createRole _).bind_result (fun _ => .done (.ok _)) fun e e' h =>
      .done (.error h)

lemma discreet_grant (p : Principal) (ids : Nat → Uuid) (role : Uuid)
    (submitted : List NewPermission) :
    (grant p ids role submitted).Discreet (ResultsAlike ServiceError.SentAlike) := by
  unfold grant
  cases p.ensureWithin .admin grantRight with
  | error e => exact .done (.error rfl)
  | ok _ =>
    exact (Admin.discreet_grant role _).bind_result (fun _ => .done (.ok _)) fun e e' h =>
      .done (.error h)

end Rights

namespace Gate

variable {gate : Gate} {now : Int} {request : Request}

lemma discreet_authenticate : (gate.authenticate now request).Discreet Eq := by
  unfold authenticate
  split
  · exact .done rfl
  · split
    · exact .done rfl
    · exact (Resolve.discreet_principal _).bind_result (fun _ => .done rfl) fun _ _ _ => .done rfl

lemma discreet_pass {Reply : Type} {serve : Option Principal → Flow Reply}
    {refuse : AuthError → Reply} (hserve : ∀ principal, (serve principal).Discreet Eq) :
    (gate.pass now request serve refuse).Discreet Eq := by
  refine discreet_authenticate.bind fun decision => ?_
  cases decision with
  | error e => exact .done rfl
  | ok outcome => exact (hserve _).bind fun _ => .done rfl

end Gate

namespace Server

variable (occasion : Occasion) (principal : Option Principal) (request : Request)

/-- A response is sent for results that differ in failures which are sent alike. -/
lemma discreet_respond {α : Type} {m : Flow (Except ServiceError α)}
    (h : m.Discreet (ResultsAlike ServiceError.SentAlike)) (status : Nat) (toJson : α → Json) :
    (do return respond status toJson (← m) : Flow Response).Discreet Eq :=
  Flow.Alike.bind h fun _ _ hresults => .done (hresults.respond_eq status toJson)

lemma discreet_postUser (server : Server) :
    (server.postUser occasion request).Discreet Eq := by
  unfold postUser
  cases NewUser.form.ofBody request with
  | error e => exact .done rfl
  | ok submitted =>
    refine Flow.Alike.bind (discreet_signUp _ _ _ submitted) fun r r' h => .done ?_
    rw [h.respond_eq, h.isOk_eq]

variable [Text.Engine]

lemma discreet_getRoles : (getRoles principal).Discreet Eq := by
  unfold getRoles
  cases Principal.require principal with
  | error e => exact .done rfl
  | ok p => exact discreet_respond (Rights.discreet_listRoles p) _ _

lemma discreet_postRole : (postRole occasion principal request).Discreet Eq := by
  unfold postRole
  cases Principal.require principal with
  | error e => exact .done rfl
  | ok p =>
    cases NewRole.form.ofBody request with
    | error e => exact .done rfl
    | ok submitted => exact discreet_respond (Rights.discreet_createRole p _ _ submitted) _ _

lemma discreet_postPermissions (segment : String) :
    (postPermissions occasion principal segment request).Discreet Eq := by
  unfold postPermissions
  cases Principal.require principal with
  | error e => exact .done rfl
  | ok p =>
    cases Resource.roleId? segment with
    | none => exact .done rfl
    | some role =>
      cases NewPermission.form.list.ofBody request with
      | error e => exact .done rfl
      | ok submitted => exact discreet_respond (Rights.discreet_grant p _ role submitted) _ _

lemma discreet_reply (server : Server) (resource : Resource) :
    (server.reply occasion resource request principal).Discreet Eq := by
  unfold reply
  split
  · exact discreet_postUser occasion request server
  · exact .done rfl
  · exact (discreet_getRoles principal).bind fun _ => .done rfl
  · exact (discreet_postRole occasion principal request).bind fun _ => .done rfl
  · exact (discreet_postPermissions occasion principal request _).bind fun _ => .done rfl
  · exact .done rfl

/-- Nothing that serving a request comes to tells of the text of a failure. -/
theorem discreet_serve (server : Server) (metrics : Metrics) :
    (server.serve occasion metrics request).Discreet Eq := by
  have hany : (server.serveAny occasion metrics request).Discreet Eq := by
    obtain ⟨response, -, hserved⟩ | ⟨resource, -, -, -, -, hserved⟩ :=
      server.serveAny_cases occasion metrics request
    · rw [hserved]
      exact .done rfl
    · rw [hserved]
      refine (Gate.discreet_pass fun principal => ?_).bind fun _ => .done rfl
      exact discreet_reply occasion principal request server resource
  exact hany.bind fun _ => .done rfl

end Server

/-! ## Two ways of answering -/

section Answering

variable {σ σ' : Type}

/-- Two ways of answering that answer every step alike, as long as their states are the same in
what matters to them. -/
structure AnswerAlike (answer : (c : Call) → σ → c.Answer × σ)
    (answer' : (c : Call) → σ' → c.Answer × σ') (same : σ → σ' → Prop) : Prop where
  step : ∀ (c : Call) (s : σ) (s' : σ'), same s s' →
    c.AnswersAlike (answer c s).1 (answer' c s').1 ∧ same (answer c s).2 (answer' c s').2

variable {answer : (c : Call) → σ → c.Answer × σ} {answer' : (c : Call) → σ' → c.Answer × σ'}
  {same : σ → σ' → Prop} {s : σ} {s' : σ'}

lemma Flow.Alike.run {α : Type} {R : α → α → Prop} {m m' : Flow α} (h : Alike R m m')
    (hanswer : AnswerAlike answer answer' same) (hs : same s s') :
    R (m.run answer s).1 (m'.run answer' s').1 ∧
      same (m.run answer s).2 (m'.run answer' s').2 := by
  induction h generalizing s s' with
  | done hab => exact ⟨hab, hs⟩
  | @call c next next' _ ih =>
    obtain ⟨hanswers, hs⟩ := hanswer.step c s s' hs
    exact ih _ _ hanswers hs

/-- What visits come to that are served one after the other. -/
structure Attended (σ : Type) where
  responses : List Response
  metrics : Metrics
  state : σ

/-- Visits are served one after the other, beginning with given counters and a given state. -/
def Server.attend [Text.Engine] (server : Server) (answer : (c : Call) → σ → c.Answer × σ) :
    List Visit → Metrics → σ → Attended σ
  | [], metrics, s => ⟨[], metrics, s⟩
  | visit :: rest, metrics, s =>
    let (served, s) := (server.serve visit.occasion metrics visit.request).run answer s
    let later := attend server answer rest (metrics.record served) s
    { later with responses := served.response :: later.responses }

/-- On the stores of a deployment, visits are attended as the deployment serves them. -/
lemma Server.attend_stores [Text.Engine] (server : Server) (visits : List Visit) (d : Deployment) :
    Deployment.afterVisits server visits d =
      ⟨(server.attend Stores.answer visits d.metrics d.stores).state,
        (server.attend Stores.answer visits d.metrics d.stores).metrics⟩ := by
  induction visits generalizing d with
  | nil => rfl
  | cons visit rest ih => exact ih _

/-- As long as steps are answered alike, visits come to the same. -/
theorem Server.attend_alike [Text.Engine] (server : Server)
    (hanswer : AnswerAlike answer answer' same) (visits : List Visit) (metrics : Metrics)
    (hs : same s s') :
    let a := server.attend answer visits metrics s
    let a' := server.attend answer' visits metrics s'
    a.responses = a'.responses ∧ a.metrics = a'.metrics ∧ same a.state a'.state := by
  induction visits generalizing metrics s s' with
  | nil => exact ⟨rfl, rfl, hs⟩
  | cons visit rest ih =>
    obtain ⟨hserved, hs⟩ :=
      (discreet_serve visit.occasion visit.request server metrics).run hanswer hs
    obtain ⟨hresponses, hmetrics, hstate⟩ := ih (metrics.record _) hs
    simp only [attend, ← hserved]
    exact ⟨congrArg _ hresponses, hmetrics, hstate⟩

end Answering

/-! ## Stores that fail with other texts -/

/-- Two rules that make the same requests fail, with failures that may differ in their texts. -/
structure FaultRule.Alike {Action : Type} (rule rule' : FaultRule Action) : Prop where
  action : rule.action = rule'.action
  subject : rule.subject = rule'.subject
  skip : rule.skip = rule'.skip
  error : rule.error.Alike rule'.error
  seen : rule.seen = rule'.seen

/-- Two installed stores that differ at most in the texts of failures. -/
inductive Backing.Alike {Op : Type} [Storage Op] : Backing Op → Backing Op → Prop
  | memory (table : Storage.Table Op) : Alike (.memory table) (.memory table)
  | faulty {rules rules' : List (FaultRule (Storage.Action Op))} (inner : Nat) :
      List.Forall₂ FaultRule.Alike rules rules' → Alike (.faulty rules inner) (.faulty rules' inner)
  | closed : Alike .closed .closed

/-- Two shelves that differ at most in the texts of failures. -/
structure Shelf.Alike {Op : Type} [Storage Op] (shelf shelf' : Shelf Op) : Prop where
  installed : List.Forall₂ Backing.Alike shelf.installed shelf'.installed
  inUse : shelf.inUse = shelf'.inUse

/-- Stores that differ at most in the texts of failures. -/
structure Stores.Alike (stores stores' : Stores) : Prop where
  users : stores.users.Alike stores'.users
  roles : stores.roles.Alike stores'.roles
  permissions : stores.permissions.Alike stores'.permissions

section Lists

variable {α : Type} {R : α → α → Prop} {l l' : List α}

lemma forall₂_getElem? (h : List.Forall₂ R l l') (i : Nat) : Option.Rel R l[i]? l'[i]? := by
  induction h generalizing i with
  | nil => exact .none
  | cons hab _ ih =>
    cases i with
    | zero => exact .some hab
    | succ i => exact ih i

lemma forall₂_set {a b : α} (h : List.Forall₂ R l l') (hab : R a b) (i : Nat) :
    List.Forall₂ R (l.set i a) (l'.set i b) := by
  induction h generalizing i with
  | nil => exact .nil
  | cons hcd hrest ih =>
    cases i with
    | zero => exact .cons hab hrest
    | succ i => exact .cons hcd (ih i)

end Lists

/-- Rules that differ in texts only make the same requests fail. -/
lemma FaultRule.trip_alike {Action : Type} [DecidableEq Action] (action : Action)
    (subject : Option Uuid) {rules rules' : List (FaultRule Action)}
    (h : List.Forall₂ Alike rules rules') :
    Option.Rel StoreError.Alike (trip action subject rules).1 (trip action subject rules').1 ∧
      List.Forall₂ Alike (trip action subject rules).2 (trip action subject rules').2 := by
  induction h with
  | nil => exact ⟨.none, .nil⟩
  | @cons rule rule' rest rest' hrule hrest ih =>
    obtain ⟨about, owner, skip, error, seen⟩ := rule
    obtain ⟨about', owner', skip', error', seen'⟩ := rule'
    obtain ⟨rfl, rfl, rfl, herror, rfl⟩ := hrule
    -- Which rule fires is decided by what the two have in common; the text comes in at the end
    -- only.
    simp only [trip, concerns]
    split
    · split
      · exact ⟨.some herror, .cons ⟨rfl, rfl, rfl, herror, rfl⟩ hrest⟩
      · exact ⟨ih.1, .cons ⟨rfl, rfl, rfl, herror, rfl⟩ ih.2⟩
    · exact ⟨ih.1, .cons ⟨rfl, rfl, rfl, herror, rfl⟩ ih.2⟩

namespace Shelf

variable {Op : Type} [Storage Op]

lemma callAt_alike (place : Nat) (op : Op) :
    ∀ {installed installed' : List (Backing Op)},
      List.Forall₂ Backing.Alike installed installed' →
      ResultsAlike StoreError.Alike (callAt installed place op).1 (callAt installed' place op).1 ∧
        List.Forall₂ Backing.Alike (callAt installed place op).2
          (callAt installed' place op).2 := by
  -- On the place, as a failing store may pass on to one before it; the installed stores vary, since
  -- rules count the requests they have seen.
  induction place using Nat.strongRecOn with
  | ind place ih =>
    intro installed installed' h
    have hplace := forall₂_getElem? h place
    unfold callAt
    generalize installed[place]? = backing at hplace ⊢
    generalize installed'[place]? = backing' at hplace ⊢
    cases hplace with
    | none => exact ⟨.error (.refl _), h⟩
    | some hbacking =>
      cases hbacking with
      | memory table => exact ⟨.refl .refl _, forall₂_set h (.memory _) place⟩
      | @faulty rules rules' inner hrules =>
        obtain ⟨hfailure, hafter⟩ :=
          FaultRule.trip_alike (Storage.action op) (Storage.subject? op) hrules
        dsimp only
        generalize FaultRule.trip _ _ rules = tripped at hfailure hafter ⊢
        generalize FaultRule.trip _ _ rules' = tripped' at hfailure hafter ⊢
        obtain ⟨failure, after⟩ := tripped
        obtain ⟨failure', after'⟩ := tripped'
        have hset := forall₂_set h (.faulty inner hafter) place
        cases hfailure with
        | none =>
          by_cases hinner : inner < place
          · simp only [if_pos hinner]
            exact ih inner hinner hset
          · simp only [if_neg hinner]
            exact ⟨.error (.refl _), h⟩
        | some he => exact ⟨.error he, hset⟩
      | closed => exact ⟨.error (.refl _), h⟩

lemma Alike.call {shelf shelf' : Shelf Op} (h : shelf.Alike shelf') (place : Nat) (op : Op) :
    ResultsAlike StoreError.Alike (shelf.call place op).1 (shelf'.call place op).1 ∧
      (shelf.call place op).2.Alike (shelf'.call place op).2 := by
  obtain ⟨hresults, hinstalled⟩ := callAt_alike place op h.installed
  exact ⟨hresults, hinstalled, h.inUse⟩

/-- The records that each installed store keeps itself. -/
def contents (shelf : Shelf Op) : List (Option (Storage.Table Op)) :=
  shelf.installed.map fun
    | .memory table => some table
    | .faulty _ _ => none
    | .closed => none

lemma Alike.contents_eq {shelf shelf' : Shelf Op} (h : shelf.Alike shelf') :
    shelf.contents = shelf'.contents := by
  have hinstalled := h.installed
  unfold contents
  generalize shelf.installed = installed at hinstalled ⊢
  generalize shelf'.installed = installed' at hinstalled ⊢
  induction hinstalled with
  | nil => rfl
  | cons hbacking _ ih =>
    rw [List.map_cons, List.map_cons, ih]
    cases hbacking <;> rfl

end Shelf

namespace Stores

/-- All records there are, by the place of the store that keeps them. -/
def contents (s : Stores) :
    List (Option UserTable) × List (Option RoleTable) × List (Option PermissionTable) :=
  (s.users.contents, s.roles.contents, s.permissions.contents)

lemma Alike.contents_eq {s s' : Stores} (h : s.Alike s') : s.contents = s'.contents := by
  rw [contents, contents, h.users.contents_eq, h.roles.contents_eq, h.permissions.contents_eq]

/-- Stores that differ in texts only answer alike, and go on to differ in texts only. -/
theorem answer_alike : AnswerAlike answer answer Alike where
  step c s s' h := by
    cases c with
    | usersInUse => exact ⟨congrArg Slot.current h.users.inUse, h⟩
    | rolesInUse => exact ⟨congrArg Slot.current h.roles.inUse, h⟩
    | permissionsInUse => exact ⟨congrArg Slot.current h.permissions.inUse, h⟩
    | users place op =>
      obtain ⟨hresults, hshelf⟩ := h.users.call place op
      exact ⟨hresults, hshelf, h.roles, h.permissions⟩
    | roles place op =>
      obtain ⟨hresults, hshelf⟩ := h.roles.call place op
      exact ⟨hresults, h.users, hshelf, h.permissions⟩
    | permissions place op =>
      obtain ⟨hresults, hshelf⟩ := h.permissions.call place op
      exact ⟨hresults, h.users, h.roles, hshelf⟩

end Stores

/-- Failures of a step that differ in texts only are alike as answers. -/
lemma Call.failure?_alike (c : Call) {failure failure' : Option StoreError}
    (h : Option.Rel StoreError.Alike failure failure') :
    Option.Rel c.AnswersAlike (failure.bind c.failure?) (failure'.bind c.failure?) := by
  cases h with
  | none => exact .none
  | some he =>
    cases c with
    | usersInUse => exact .none
    | rolesInUse => exact .none
    | permissionsInUse => exact .none
    | users place op => exact .some (.error he)
    | roles place op => exact .some (.error he)
    | permissions place op => exact .some (.error he)

/-- Steps that fail on schedules which differ in texts only are answered alike. -/
lemma AnswerAlike.failing {σ σ' : Type} {answer : (c : Call) → σ → c.Answer × σ}
    {answer' : (c : Call) → σ' → c.Answer × σ'} {same : σ → σ' → Prop}
    (h : AnswerAlike answer answer' same) {schedule schedule' : Nat → Option StoreError}
    (hschedule : ∀ n, Option.Rel StoreError.Alike (schedule n) (schedule' n)) :
    AnswerAlike (failing schedule answer) (failing schedule' answer')
      fun s s' => s.1 = s'.1 ∧ same s.2 s'.2 where
  step := by
    rintro c ⟨n, s⟩ ⟨n', s'⟩ ⟨rfl, hs⟩
    obtain ⟨hanswers, hsame⟩ := h.step c s s' hs
    have hfailure := c.failure?_alike (hschedule n)
    -- A failure is injected into both runs at one step or into neither.
    simp only [Gatehouse.failing]
    generalize (schedule n).bind c.failure? = failure at hfailure ⊢
    generalize (schedule' n).bind c.failure? = failure' at hfailure ⊢
    cases hfailure with
    | none => exact ⟨hanswers, rfl, hsame⟩
    | some hfails => exact ⟨hfails, rfl, hs⟩

/-! ## Whole runs -/

/-- Requests that are served by stores with the same records, and with failures of the same steps
which differ in their texts, are answered by the same responses, and leave the same counters and
the same records. -/
theorem failure_texts_stay_inside [Text.Engine] (server : Server) (metrics : Metrics)
    (visits : List Visit) {stores stores' : Stores} (hstores : stores.Alike stores')
    {schedule schedule' : Nat → Option StoreError}
    (hschedule : ∀ n, Option.Rel StoreError.Alike (schedule n) (schedule' n)) :
    let run := server.attend (failing schedule Stores.answer) visits metrics (0, stores)
    let run' := server.attend (failing schedule' Stores.answer) visits metrics (0, stores')
    run.responses = run'.responses ∧ run.metrics = run'.metrics ∧
      run.state.2.contents = run'.state.2.contents ∧ run.state.2.Alike run'.state.2 := by
  intro run run'
  have hstart : (0 : Nat) = 0 ∧ stores.Alike stores' := ⟨rfl, hstores⟩
  have hanswer := Stores.answer_alike.failing hschedule
  obtain ⟨hresponses, hmetrics, -, hstate⟩ : run.responses = run'.responses ∧
      run.metrics = run'.metrics ∧ run.state.1 = run'.state.1 ∧ run.state.2.Alike run'.state.2 :=
    server.attend_alike hanswer visits metrics hstart
  exact ⟨hresponses, hmetrics, hstate.contents_eq, hstate⟩

/-- Bob signs up twice.  The first time his account cannot be created, the second time his email
cannot be looked up, and for what reasons is not told. -/
theorem failure_texts_stay_inside_sign_ups :
    let server : Server :=
      ⟨⟨.ofSources .headerOnly, ⟨.headerOnly, "secret", rfl⟩, rfl⟩, ⟨[], List.not_mem_nil⟩⟩
    let signUp : Visit := ⟨⟨⟨default, by decide⟩, fun _ => .ofNat 1⟩, ⟨.post, ⟨"/users", ""⟩,
      [⟨"content-type", Text.Utf8.encode "application/json"⟩],
      (NewUser.form.write ⟨"bob@example.org", "Bob", "Ray"⟩).bytes⟩⟩
    let stores (reason : String) : Stores :=
      ⟨⟨[.memory [], .faulty [⟨some .create, none, 0, .backend reason, 0⟩] 0], ⟨1⟩⟩,
        .ofTable .empty, .ofTable .empty⟩
    let schedule (reason : String) (n : Nat) : Option StoreError :=
      if n = 4 then some (.backend reason) else none
    let run (reason : String) := server.attend (failing (schedule reason) Stores.answer)
      [signUp, signUp] .zero (0, stores reason)
    (run "disk full").responses = (run "timed out").responses ∧
      (run "disk full").metrics = (run "timed out").metrics ∧
      (run "disk full").state.2.contents = (run "timed out").state.2.contents ∧
      (run "disk full").state.2.Alike (run "timed out").state.2 := by
  intro server signUp stores schedule run
  have hstores : ∀ reason reason', (stores reason).Alike (stores reason') := by
    intro reason reason'
    have hrules : List.Forall₂ FaultRule.Alike
        [(⟨some .create, none, 0, .backend reason, 0⟩ : FaultRule UserAction)]
        [⟨some .create, none, 0, .backend reason', 0⟩] :=
      .cons ⟨rfl, rfl, rfl, .backend _ _, rfl⟩ .nil
    exact ⟨⟨.cons (.memory _) (.cons (.faulty 0 hrules) .nil), rfl⟩,
      ⟨.cons (.memory _) .nil, rfl⟩, ⟨.cons (.memory _) .nil, rfl⟩⟩
  have hschedule : ∀ reason reason' n,
      Option.Rel StoreError.Alike (schedule reason n) (schedule reason' n) := by
    intro reason reason' n
    simp only [schedule]
    split
    · exact .some (.backend _ _)
    · exact .none
  -- the runs are not to be run while the goals are compared
  clear_value server signUp stores schedule
  exact failure_texts_stay_inside server .zero [signUp, signUp] (hstores _ _) (hschedule _ _)

end Gatehouse
