import Gatehouse.Proofs.Coverage
import Gatehouse.Proofs.Footprint

/-!
# Requests do not escalate

As long as nobody has the right to add roles or to grant permissions, requests cannot give it to
anybody.  One request adds to the records at most (`Server.serve_left`), adding a role or a grant
takes a principal with the right to, and what is left is an account.  An account that is opened
holds no role, since a role is held by an assignment and no request makes one.

What carries the induction is therefore that the tables are the first ones with accounts at the
end of the users, none of which is assigned anything (`Tables.Joined`).  Assignments outlive the
user they name, so it has to be assumed that none names an id which is still to be given out: an
account with such an id would come into the roles of a user who is no more.
-/

namespace Gatehouse

open Http

/-! ## Plain principals -/

/-- A principal that can neither add roles nor grant permissions. -/
structure Principal.IsPlain [Text.Engine] (p : Principal) : Prop where
  create : p.holdsWithin .admin Rights.createRight = false
  grant : p.holdsWithin .admin Rights.grantRight = false

/-- Whoever is resolved is plain. -/
def Tables.IsPlain [Text.Engine] (t : Tables) : Prop :=
  ∀ id p, ((Resolve.principal id).run Tables.answer t).1 = .ok p → p.IsPlain

namespace Principal

variable [Text.Engine] {p : Principal}

lemma holdsWithin_of_met {scope : Scope} {requested : String}
    (h : (Need.rightWithin scope requested).MetBy p) : p.holdsWithin scope requested = true := by
  obtain ⟨permission, hmem, hscope, hallows⟩ := h
  exact (holds_of_allows hmem hallows).2 scope hscope

lemma IsPlain.of_roles_nil (h : p.roles = []) : p.IsPlain := by
  have hnone : p.permissions = [] := by rw [permissions, h, List.flatMap_nil]
  constructor <;> rw [holdsWithin, hnone, List.any_nil]

/-- A plain principal has not what is needed to add to what is not open to all. -/
lemma IsPlain.not_met (h : p.IsPlain) {resource : Resource} {need : Need}
    (hneed : resource.need? .extend = some need) : ¬need.MetBy p := by
  intro hmet
  obtain rfl | rfl := Resource.need?_extend hneed
  · exact absurd (holdsWithin_of_met hmet) (Bool.eq_false_iff.1 h.create)
  · exact absurd (holdsWithin_of_met hmet) (Bool.eq_false_iff.1 h.grant)

end Principal

/-! ## One request -/

namespace Server

variable [Text.Engine] {t : Tables} {server : Server} {occasion : Occasion} {metrics : Metrics}
  {request : Request} {resource : Resource}

/-- What needs a principal is served only to one who was resolved and has what is needed. -/
lemma exists_met_of_serve {act : Resource.Act} {need : Need}
    (hresource : Resource.ofPath? request.uri.path = some resource)
    (hact : resource.act? request.method = some act) (hneed : resource.need? act = some need)
    (hserved :
      ((server.serve occasion metrics request).run Tables.answer t).1.response.status < 400) :
    ∃ id p, ((Resolve.principal id).run Tables.answer t).1 = .ok p ∧ need.MetBy p := by
  simp only [serve, server.serveAny_of_need occasion metrics hresource hact hneed, serveGuarded,
    Flow.run_bind, Flow.run_pure, Cors.mark_status, forMethod_status] at hserved
  obtain ⟨e, hrefused⟩ | ⟨outcome, hresolved, hpassed⟩ :=
    server.gate.run_pass_tables occasion.now.second request
      (server.reply occasion resource request) (fun e => .of e.response) t
  · rw [hrefused] at hserved
    exact absurd e.refuses (Nat.not_le.2 hserved)
  · rw [hpassed] at hserved
    obtain ⟨-, p, hp, hmet⟩ := server.reply_givenFor occasion hact hneed _ hserved
    obtain ⟨id, hid⟩ := hresolved p hp
    exact ⟨id, p, hid, hmet⟩

/-- A resource to which a plain principal cannot add is not added to. -/
lemma status_ne_created (hplain : t.IsPlain) {need : Need} (hpost : request.method = .post)
    (hresource : Resource.ofPath? request.uri.path = some resource)
    (hextensible : resource.isExtensible = true) (hneed : resource.need? .extend = some need) :
    ((server.serve occasion metrics request).run Tables.answer t).1.response.status ≠ 201 := by
  have hact : resource.act? request.method = some .extend := by
    rw [hpost, Resource.act?, if_neg (by decide), if_pos rfl, if_pos hextensible]
  intro hstatus
  obtain ⟨id, p, hid, hmet⟩ :=
    exists_met_of_serve hresource hact hneed (by rw [hstatus]; decide)
  exact (hplain id p hid).not_met hneed hmet

end Server

/-- The request submits an account to be opened. -/
def Http.Request.IsSignUp (request : Request) : Prop :=
  request.method = .post ∧ Resource.ofPath? request.uri.path = some .users

/-- Where everybody is plain, a request changes nothing or opens one account with a new id. -/
theorem Server.serve_plain [Text.Engine] {t : Tables} (ht : t.permissions.Sound)
    (hplain : t.IsPlain) (server : Server) (occasion : Occasion) (metrics : Metrics)
    (request : Request) :
    let t' := ((server.serve occasion metrics request).run Tables.answer t).2
    t' = t ∨ ∃ user : User, request.IsSignUp ∧ user.id = occasion.ids 0 ∧
      user.id ∉ t.users.ids ∧ t' = t.withUsers (t.users ++ [user]) := by
  intro t'
  have hleft := server.serve_left ht occasion metrics request
  by_cases hstatus :
      ((server.serve occasion metrics request).run Tables.answer t).1.response.status = 201
  · obtain ⟨a, ⟨hpost, resource, hresource, hasked⟩, hfits, hadded⟩ :=
      hleft.exists_addition hstatus
    -- A role or a grant would have been added for somebody who is resolved and not plain.
    cases hasked with
    | user => exact .inr ⟨_, ⟨hpost, hresource⟩, rfl, hfits.1, hadded⟩
    | role => exact absurd hstatus (status_ne_created hplain hpost hresource rfl rfl)
    | grant => exact absurd hstatus (status_ne_created hplain hpost hresource rfl rfl)
  · exact .inl (hleft.eq_of_ne hstatus)

/-! ## Accounts that joined -/

namespace Tables

/-- The tables after some have joined the users. -/
def joinedBy (t : Tables) (joined : List User) : Tables := t.withUsers (t.users ++ joined)

lemma joinedBy_nil (t : Tables) : t.joinedBy [] = t := by
  rw [joinedBy, List.append_nil, withUsers_self]

lemma joinedBy_snoc (t : Tables) (joined : List User) (user : User) :
    (t.joinedBy joined).withUsers ((t.joinedBy joined).users ++ [user]) =
      t.joinedBy (joined ++ [user]) := by
  show t.withUsers ((t.users ++ joined) ++ [user]) = t.withUsers (t.users ++ (joined ++ [user]))
  rw [List.append_assoc]

/-- Those who joined have ids of their own, and nothing is assigned to them. -/
structure Joined (t : Tables) (joined : List User) : Prop where
  ids : ((t.users ++ joined).map User.id).Nodup
  unassigned : ∀ user ∈ joined, ∀ row ∈ t.roles.assignments, row.1 ≠ user.id

namespace Joined

variable {t : Tables} {joined : List User}

lemma nil (ht : t.Sound) : t.Joined [] where
  ids := by
    rw [List.append_nil]
    exact ht.users
  unassigned := fun _ h => nomatch h

lemma snoc (h : t.Joined joined) {user : User} (hid : user.id ∉ (t.joinedBy joined).users.ids)
    (hrows : ∀ row ∈ t.roles.assignments, row.1 ≠ user.id) : t.Joined (joined ++ [user]) where
  ids := by
    rw [← List.append_assoc]
    exact nodup_map_key_append h.ids hid
  unassigned := by
    intro u hu
    obtain hu | hu := List.mem_append.1 hu
    · exact h.unassigned u hu
    · rw [List.mem_singleton.1 hu]
      exact hrows

lemma resolve_old {id : Uuid} (hid : id ∈ t.users.ids) :
    ((Resolve.principal id).run Tables.answer (t.joinedBy joined)).1 =
      ((Resolve.principal id).run Tables.answer t).1 := by
  have hfind : (t.joinedBy joined).users.find? id = t.users.find? id := by
    obtain ⟨user, huser⟩ := Option.isSome_iff_exists.1 (find?_key_isSome.2 hid)
    show List.find? (fun u => u.id == id) (t.users ++ joined) = List.find? _ t.users
    rw [List.find?_append, huser, Option.some_or]
  rw [Resolve.run_principal, Resolve.run_principal, hfind]
  rfl

lemma resolve_new (h : t.Joined joined) {user : User} (huser : user ∈ joined) :
    ((Resolve.principal user.id).run Tables.answer (t.joinedBy joined)).1 = .ok ⟨user, []⟩ := by
  have hfind : (t.joinedBy joined).users.find? user.id = some user :=
    find?_key_of_mem h.ids (List.mem_append_right _ huser)
  have hnone : (t.joinedBy joined).roles.heldBy user.id = [] := by
    -- Assignments are those of the first tables, and none of them names somebody who joined.
    have hrows : (t.roles.assignments.filter fun row => row.1 == user.id) = [] := by
      refine List.filter_eq_nil_iff.2 fun row hrow => ?_
      rw [beq_iff_eq]
      exact h.unassigned user huser row hrow
    show (t.roles.assignments.filter fun row => row.1 == user.id).filterMap _ = []
    rw [hrows, List.filterMap_nil]
  rw [Resolve.run_principal, hfind]
  simp only [hnone, List.map_nil]

/-- Nobody joins plain tables who would not be plain. -/
lemma isPlain [Text.Engine] (h : t.Joined joined) (hplain : t.IsPlain) :
    (t.joinedBy joined).IsPlain := by
  intro id p hp
  by_cases hold : id ∈ t.users.ids
  · rw [resolve_old hold] at hp
    exact hplain id p hp
  · by_cases hnew : id ∈ joined.map User.id
    · obtain ⟨user, huser, rfl⟩ := List.mem_map.1 hnew
      rw [h.resolve_new huser] at hp
      obtain rfl := Except.ok.inj hp
      exact .of_roles_nil rfl
    · have hnobody : (t.joinedBy joined).users.find? id = none := by
        refine find?_key_eq_none.2 fun hid => ?_
        obtain hid | hid := List.mem_append.1 (List.map_append ▸ hid)
        · exact hold hid
        · exact hnew hid
      rw [Resolve.run_principal, hnobody] at hp
      exact nomatch hp

/-- An account with the id of a deleted user comes into the roles of that user. -/
example :
    let role := Role.make (.ofNat 2) "owner" "" default
    let permission : Permission := ⟨.ofNat 3, "*", "admin", ""⟩
    let t : Tables := ⟨[], ⟨[role], [(.ofNat 1, role.id)]⟩,
      ⟨[permission], [(role.id, permission.id)]⟩⟩
    let user := User.make (.ofNat 1) "bob@example.org" "Bob" "Ray" default
    ((Resolve.principal user.id).run Tables.answer (t.joinedBy [user])).1 =
      .ok ⟨user, [⟨role, [permission]⟩]⟩ := by
  decide

end Joined

end Tables

/-! ## Requests one after the other -/

/-- A request and the circumstances it is served in. -/
structure Visit where
  occasion : Occasion
  request : Request

/-- The deployment after visits, served one after the other. -/
def Deployment.afterVisits [Text.Engine] (server : Server) : List Visit → Deployment → Deployment
  | [], d => d
  | visit :: rest, d => afterVisits server rest (d.handle server visit.occasion visit.request).2

/-- What every request to stores in memory keeps, visits keep. -/
theorem Deployment.afterVisits_preserves [Text.Engine] {I : Tables → Prop} (server : Server)
    (step : ∀ (t : Tables) (occasion : Occasion) (metrics : Metrics) (request : Request), I t →
      I ((server.serve occasion metrics request).run Tables.answer t).2) (visits : List Visit) :
    ∀ {t : Tables} (metrics : Metrics), I t →
      ∃ (t' : Tables) (metrics' : Metrics),
        afterVisits server visits ⟨t.stores, metrics⟩ = ⟨t'.stores, metrics'⟩ ∧ I t' := by
  induction visits with
  | nil => exact fun metrics h => ⟨_, metrics, rfl, h⟩
  | cons visit rest ih =>
    intro t metrics h
    obtain ⟨t', metrics', hrest, h'⟩ := ih _ (step t visit.occasion metrics visit.request h)
    refine ⟨t', metrics', ?_, h'⟩
    rw [afterVisits, handle_tables]
    exact hrest

/-- A visit to plain tables that some have joined lets at most one more join. -/
lemma Tables.Joined.handle [Text.Engine] {t : Tables} {joined : List User} (h : t.Joined joined)
    (ht : t.permissions.Sound) (hplain : t.IsPlain) (server : Server) (visit : Visit)
    (metrics : Metrics)
    (hid : visit.request.IsSignUp → ∀ row ∈ t.roles.assignments, row.1 ≠ visit.occasion.ids 0) :
    ∃ joined' metrics', t.Joined joined' ∧
      (Deployment.handle server visit.occasion visit.request
        ⟨(t.joinedBy joined).stores, metrics⟩).2 = ⟨(t.joinedBy joined').stores, metrics'⟩ := by
  have hserved := server.serve_plain (t := t.joinedBy joined) ht (h.isPlain hplain) visit.occasion
    metrics visit.request
  rw [Deployment.handle_tables]
  obtain hsame | ⟨user, hsignUp, huser, hnew, hadded⟩ := hserved
  · exact ⟨joined, _, h, by rw [hsame]⟩
  · have hrows : ∀ row ∈ t.roles.assignments, row.1 ≠ user.id := by
      rw [huser]
      exact hid hsignUp
    exact ⟨joined ++ [user], _, h.snoc hnew hrows, by rw [hadded, t.joinedBy_snoc]⟩

/-- Visits to plain tables let some join, and change nothing else. -/
lemma Tables.Joined.afterVisits [Text.Engine] {t : Tables} (ht : t.permissions.Sound)
    (hplain : t.IsPlain) (server : Server) (visits : List Visit)
    (hids : ∀ visit ∈ visits, visit.request.IsSignUp →
      ∀ row ∈ t.roles.assignments, row.1 ≠ visit.occasion.ids 0) :
    ∀ {joined : List User} (metrics : Metrics), t.Joined joined →
      ∃ joined' metrics', t.Joined joined' ∧
        Deployment.afterVisits server visits ⟨(t.joinedBy joined).stores, metrics⟩ =
          ⟨(t.joinedBy joined').stores, metrics'⟩ := by
  -- The induction is on the visits; who has joined so far varies along it, the tables they joined
  -- do not.
  induction visits with
  | nil => exact fun metrics h => ⟨_, metrics, h, rfl⟩
  | cons visit rest ih =>
    intro joined metrics h
    obtain ⟨joined₁, metrics₁, h₁, hfirst⟩ :=
      h.handle ht hplain server visit metrics (hids visit List.mem_cons_self)
    obtain ⟨joined₂, metrics₂, h₂, hrest⟩ :=
      ih (fun v hv => hids v (List.mem_cons_of_mem _ hv)) metrics₁ h₁
    refine ⟨joined₂, metrics₂, h₂, ?_⟩
    rw [Deployment.afterVisits, hfirst, hrest]

/-! ## From what operations reach -/

/-- Tables are plain when those of their users are who can be resolved. -/
lemma Tables.isPlain_of_users [Text.Engine] {t : Tables}
    (h : ∀ user ∈ t.users, ∀ p,
      ((Resolve.principal user.id).run Stores.answer t.stores).1 = .ok p → p.IsPlain) :
    t.IsPlain := by
  intro id p hp
  have hstores : ((Resolve.principal id).run Stores.answer t.stores).1 = .ok p := by
    rw [Flow.run_stores]
    exact hp
  cases hfind : t.users.find? id with
  | none =>
    rw [Resolve.run_principal, hfind] at hp
    exact nomatch hp
  | some user =>
    have hid : user.id = id := key_of_find?_key hfind
    rw [← hid] at hstores
    exact h user (List.mem_of_find?_eq_some hfind) p hstores

/-- Where no user may add roles or grant permissions, requests open accounts and do nothing else:
roles, assignments, permissions and grants stay as they are, every user is resolved as before, and
an account that was opened holds no role. -/
theorem requests_never_escalate [Text.Engine] (operations : List Operation) {t : Tables}
    (hreached : Operation.reached operations = t.stores)
    (hplain : ∀ user ∈ t.users, ∀ p,
      ((Resolve.principal user.id).run Stores.answer t.stores).1 = .ok p → p.IsPlain)
    (server : Server) (metrics : Metrics) (visits : List Visit)
    (hids : ∀ visit ∈ visits, visit.request.IsSignUp →
      ∀ row ∈ t.roles.assignments, row.1 ≠ visit.occasion.ids 0) :
    let after := (Deployment.afterVisits server visits ⟨t.stores, metrics⟩).stores
    ∃ joined : List User,
      after = Stores.ofTables (t.users ++ joined) t.roles t.permissions ∧
      (∀ user ∈ t.users,
        ((Resolve.principal user.id).run Stores.answer after).1 =
          ((Resolve.principal user.id).run Stores.answer t.stores).1) ∧
      ∀ user ∈ joined,
        ((Resolve.principal user.id).run Stores.answer after).1 = .ok ⟨user, []⟩ := by
  intro after
  have ht : t.Sound := by
    obtain ⟨t', ht', hreached'⟩ := Operation.exists_tables_reached operations
    rwa [Tables.stores_injective (hreached.symm.trans hreached')]
  obtain ⟨joined, metrics', hjoined, hafter⟩ := Tables.Joined.afterVisits ht.permissions
    (Tables.isPlain_of_users hplain) server visits hids metrics (Tables.Joined.nil ht)
  have hstores : after = (t.joinedBy joined).stores := by
    rw [t.joinedBy_nil] at hafter
    exact congrArg Deployment.stores hafter
  refine ⟨joined, hstores, fun user huser => ?_, fun user huser => ?_⟩
  · rw [hstores, Flow.run_stores, Flow.run_stores]
    exact Tables.Joined.resolve_old (List.mem_map_of_mem huser)
  · rw [hstores, Flow.run_stores]
    exact hjoined.resolve_new huser

/-- Where the only user may no more than list the roles, a sign-up and an attempt to add a role
open one account without roles, and the user goes on being able to list roles and nothing more. -/
theorem requests_never_escalate_auditor :
    let user := User.make (.ofNat 1) "ann@example.org" "Ann" "" default
    let role := Role.make (.ofNat 2) "auditor" "" default
    let permission : Permission := ⟨.ofNat 3, "admin.roles.list", "admin", ""⟩
    let t : Tables := ⟨[user], ⟨[role], [(user.id, role.id)]⟩,
      ⟨[permission], [(role.id, permission.id)]⟩⟩
    let config : GateConfig := { GateConfig.ofSources .headerOnly with gatewayMode := true }
    let server : Server := ⟨⟨config, ⟨.headerOnly, "secret", rfl⟩, rfl⟩, ⟨[], List.not_mem_nil⟩⟩
    let occasion : Occasion := ⟨⟨default, by decide⟩, fun _ => .ofNat 4⟩
    let headers : List Header := [⟨"content-type", Text.Utf8.encode "application/json"⟩]
    let bob : NewUser := ⟨"bob@example.org", "Bob", "Ray"⟩
    let visits : List Visit :=
      [⟨occasion, ⟨.post, ⟨"/users", ""⟩, headers, (NewUser.form.write bob).bytes⟩⟩,
        ⟨occasion, ⟨.post, ⟨"/roles", ""⟩, headers, (NewRole.form.write ⟨"owner", ""⟩).bytes⟩⟩]
    let after := (Deployment.afterVisits server visits ⟨t.stores, .zero⟩).stores
    let newcomer := User.make (.ofNat 4) "bob@example.org" "Bob" "Ray" default
    let ann : Principal := ⟨user, [⟨role, [permission]⟩]⟩
    after = Stores.ofTables [user, newcomer] t.roles t.permissions ∧
      ((Resolve.principal user.id).run Stores.answer after).1 = .ok ann ∧
      ((Resolve.principal newcomer.id).run Stores.answer after).1 = .ok ⟨newcomer, []⟩ ∧
      ann.holdsWithin .admin "admin.roles.list" = true ∧
      ann.holdsWithin .admin Rights.createRight = false ∧
      ann.holdsWithin .admin Rights.grantRight = false := by
  intro user role permission t config server occasion headers bob visits after newcomer ann
  have hreached : Operation.reached [.users (.create user), .roles (.create role),
      .permissions (.create permission), .permissions (.grant role.id [permission.id]),
      .roles (.assign user.id role.id)] = t.stores := by
    rw [Operation.reached, ← Tables.stores_empty, Flow.run_stores]
    exact congrArg Tables.stores rfl
  have hann : ((Resolve.principal user.id).run Stores.answer t.stores).1 = .ok ann := by
    rw [Flow.run_stores]
    rfl
  have hplain : ann.IsPlain := ⟨by decide, by decide⟩
  have hids : ∀ visit ∈ visits, visit.request.IsSignUp →
      ∀ row ∈ t.roles.assignments, row.1 ≠ visit.occasion.ids 0 := by
    intro visit hvisit _ row hrow
    have hid : visit.occasion.ids 0 = .ofNat 4 := by
      obtain rfl | hvisit := List.mem_cons.1 hvisit
      · rfl
      · rw [List.mem_singleton.1 hvisit]
    rw [hid, List.mem_singleton.1 hrow]
    decide
  obtain ⟨joined, hafter, hold, hnew⟩ := requests_never_escalate _ hreached
    (fun u hu p hp => by
      rw [List.mem_singleton.1 hu, hann] at hp
      exact Except.ok.inj hp ▸ hplain) server .zero visits hids
  -- The theorem leaves open how many joined; that one of the two requests opened an account is
  -- read off the tables.
  have hjoined : joined = [newcomer] := by
    have htables : (Deployment.afterVisits server visits ⟨t.stores, .zero⟩).stores =
        Tables.stores ⟨[user] ++ joined, t.roles, t.permissions⟩ := hafter
    rw [Deployment.afterVisits, Deployment.handle_tables, Deployment.afterVisits,
      Deployment.handle_tables, Deployment.afterVisits] at htables
    have husers := congrArg Tables.users (Tables.stores_injective htables)
    have hsplit : [user] ++ joined = [user] ++ [newcomer] := by
      refine husers.symm.trans ?_
      decide +kernel
    exact List.append_cancel_left hsplit
  rw [hjoined] at hafter hnew
  exact ⟨hafter, (hold user List.mem_cons_self).trans hann, hnew newcomer List.mem_cons_self,
    by decide, hplain.create, hplain.grant⟩

end Gatehouse
