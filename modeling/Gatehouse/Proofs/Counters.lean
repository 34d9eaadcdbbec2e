import Gatehouse.Proofs.Discretion
import Gatehouse.Proofs.Refusals
import Gatehouse.Proofs.SignUpRace

/-!
# Every request is accounted for

The counters say how many requests came to the gate and what became of them there, and how many
accounts were opened.  Both are laws of conservation.  A request that comes to the gate counts for
one outcome and is counted once, however it ends behind the gate, and no other request is counted
(`Counted`); so the series add up to the number of those that came.  An account is counted when its
sign-up is answered by 201 and stored by then, so their number is that of such answers and that of
the users who joined.

The series of an outcome is found by its name, and that a count goes up by one and no other count
changes depends on names standing in order, each once (`Metrics.InOrder`).
-/

namespace Gatehouse

open Http

/-! ## Series -/

namespace Metrics

/-- The series stand in the order of their names, and no name has two. -/
def InOrder (metrics : Metrics) : Prop := (metrics.requests.map Prod.fst).Pairwise (· < ·)

section Add

variable {outcome name : String} {k : Nat} {series : List (String × Nat)}

lemma mem_names_add :
    name ∈ (add outcome k series).map Prod.fst ↔ name = outcome ∨ name ∈ series.map Prod.fst := by
  induction series with
  | nil => simp [add]
  | cons first rest ih =>
    obtain ⟨n, i⟩ := first
    unfold add
    split
    · next h => simp [h]
    · split
      · simp
      · simp only [List.map_cons, List.mem_cons, ih, or_left_comm]

lemma pairwise_names_add (h : (series.map Prod.fst).Pairwise (· < ·)) :
    ((add outcome k series).map Prod.fst).Pairwise (· < ·) := by
  induction series with
  | nil => exact List.pairwise_singleton _ _
  | cons first rest ih =>
    obtain ⟨n, i⟩ := first
    obtain ⟨hfirst, hrest⟩ := List.pairwise_cons.1 h
    unfold add
    split
    · exact h
    · next hne =>
      split
      · next hlt =>
        refine List.pairwise_cons.2 ⟨fun m hm => ?_, h⟩
        obtain rfl | hm := List.mem_cons.1 hm
        · exact hlt
        · exact String.lt_trans hlt (hfirst m hm)
      · next hlt =>
        have hbefore : n < outcome := Std.lt_of_le_of_ne (String.not_lt.1 hlt) hne
        refine List.pairwise_cons.2 ⟨fun m hm => ?_, ih hrest⟩
        obtain rfl | hm := mem_names_add.1 hm
        · exact hbefore
        · exact hfirst m hm

lemma getD_lookup_cons {n : String} {i : Nat} :
    (((n, i) :: series).lookup name).getD 0 =
      if name = n then i else (series.lookup name).getD 0 := by
  by_cases h : name = n
  · simp [h]
  · have hbeq : (name == n) = false := beq_eq_false_iff_ne.2 h
    simp [List.lookup_cons, hbeq, h]

/-- A name that comes before all others has no count yet. -/
lemma getD_lookup_of_lt (h : ∀ n ∈ series.map Prod.fst, name < n) :
    (series.lookup name).getD 0 = 0 := by
  have hnone : series.lookup name = none := by
    refine List.lookup_eq_none_iff.2 fun p hp => bne_iff_ne.2 ?_
    rintro rfl
    exact String.lt_irrefl _ (h p.1 (List.mem_map_of_mem hp))
  rw [hnone, Option.getD_none]

/-- In a list in order a count is added to where it belongs, and nowhere else. -/
lemma getD_lookup_add (h : (series.map Prod.fst).Pairwise (· < ·)) :
    ((add outcome k series).lookup name).getD 0 =
      (series.lookup name).getD 0 + if name = outcome then k else 0 := by
  induction series with
  | nil => simp [add, getD_lookup_cons]
  | cons first rest ih =>
    obtain ⟨n, i⟩ := first
    obtain ⟨hfirst, hrest⟩ := List.pairwise_cons.1 h
    unfold add
    split
    · next heq =>
      rw [getD_lookup_cons, getD_lookup_cons, heq]
      split <;> rfl
    · next hne =>
      split
      · next hlt =>
        rw [getD_lookup_cons]
        split
        · next hname =>
          have hbefore : ∀ m ∈ ((n, i) :: rest).map Prod.fst, name < m := by
            rw [hname]
            refine List.forall_mem_cons.2 ⟨hlt, fun m hm => ?_⟩
            exact String.lt_trans hlt (hfirst m hm)
          rw [getD_lookup_of_lt hbefore, Nat.zero_add]
        · rfl
      · rw [getD_lookup_cons, getD_lookup_cons, ih hrest]
        by_cases hname : name = n
        · have hother : name ≠ outcome := fun heq => hne (hname.symm.trans heq)
          rw [if_pos hname, if_pos hname, if_neg hother, Nat.add_zero]
        · rw [if_neg hname, if_neg hname]

end Add

variable {metrics : Metrics}

lemma inOrder_zero : zero.InOrder := List.Pairwise.nil

lemma InOrder.record (h : metrics.InOrder) (served : Served) : (metrics.record served).InOrder := by
  unfold InOrder Metrics.record
  cases served.outcome <;> cases served.opened
  · exact h
  · exact h
  · exact pairwise_names_add h
  · exact pairwise_names_add h

/-- A request that was served counts for its outcome, where it has one. -/
lemma InOrder.count_record (h : metrics.InOrder) (served : Served) (name : String) :
    (metrics.record served).count name =
      metrics.count name + if served.outcome = some name then 1 else 0 := by
  have hrequests : (metrics.record served).requests =
      served.outcome.elim metrics.requests (add · 1 metrics.requests) := by
    unfold Metrics.record
    cases served.outcome <;> cases served.opened <;> rfl
  unfold count
  rw [hrequests]
  cases served.outcome with
  | none => rfl
  | some outcome =>
    simp only [Option.elim_some, getD_lookup_add h, Option.some.injEq, eq_comm]

end Metrics

/-! ## Who comes to the gate -/

/-- The resource behind the gate that a request is for, when it comes to the gate. -/
def Http.Request.guarded? (request : Request) : Option Resource :=
  if request.method = .options then none
  else match Resource.ofPath? request.uri.path with
    | some .health => none
    | some .metrics => none
    | found => found

lemma Http.Request.guarded?_eq_some_iff {request : Request} {resource : Resource} :
    request.guarded? = some resource ↔ request.method ≠ .options ∧
      Resource.ofPath? request.uri.path = some resource ∧ resource ≠ .health ∧
      resource ≠ .metrics := by
  unfold guarded?
  split
  · next hmethod => exact iff_of_false (fun h => nomatch h) fun h => h.1 hmethod
  · next hmethod =>
    rw [and_iff_right hmethod]
    split
    · next hhealth =>
      refine iff_of_false (fun h => nomatch h) fun h => h.2.1 ?_
      exact Option.some.inj (h.1.symm.trans hhealth)
    · next hmetrics =>
      refine iff_of_false (fun h => nomatch h) fun h => h.2.2 ?_
      exact Option.some.inj (h.1.symm.trans hmetrics)
    · next hhealth hmetrics =>
      refine (and_iff_left_of_imp fun h => ⟨?_, ?_⟩).symm
      · rintro rfl
        exact hhealth h
      · rintro rfl
        exact hmetrics h

lemma Http.Request.ofPath?_of_guarded? {request : Request} {resource : Resource}
    (h : request.guarded? = some resource) :
    Resource.ofPath? request.uri.path = some resource :=
  (guarded?_eq_some_iff.1 h).2.1

lemma Http.Request.guarded?_of_isSignUp {request : Request} (h : request.IsSignUp) :
    request.guarded? = some .users := by
  refine guarded?_eq_some_iff.2 ⟨?_, h.2, by decide, by decide⟩
  rw [h.1]
  decide

lemma Resource.ofPath?_eq_users {path : String} :
    ofPath? path = some .users ↔ path = "/users" := by
  constructor
  · intro h
    by_contra hne
    unfold ofPath? at h
    rw [if_neg hne] at h
    split_ifs at h
    · exact nomatch h
    · exact nomatch h
    · exact nomatch h
    · exact nomatch h
    · split at h
      · split_ifs at h
        exact nomatch h
      · exact nomatch h
  · rintro rfl
    decide

namespace Server

section Serving

variable [Text.Engine] {σ : Type} (answer : (c : Call) → σ → c.Answer × σ) (s : σ) (server : Server)
  (occasion : Occasion) (metrics : Metrics) {request : Request}

lemma serveAny_of_guarded? {resource : Resource} (h : request.guarded? = some resource) :
    server.serveAny occasion metrics request = server.serveGuarded occasion resource request := by
  obtain ⟨hmethod, hresource, hhealth, hmetrics⟩ := Request.guarded?_eq_some_iff.1 h
  exact server.serveAny_of_guarded occasion metrics hmethod hresource hhealth hmetrics

/-- A request that does not come to the gate is answered at once. -/
lemma serveAny_of_unguarded (h : request.guarded? = none) :
    ∃ response, server.serveAny occasion metrics request = pure (.openly response) := by
  obtain ⟨response, -, hserved⟩ | ⟨resource, hmethod, hresource, hhealth, hmetrics, -⟩ :=
    server.serveAny_cases occasion metrics request
  · exact ⟨response, hserved⟩
  · have hguarded := Request.guarded?_eq_some_iff.2 ⟨hmethod, hresource, hhealth, hmetrics⟩
    exact nomatch h.symm.trans hguarded

lemma serve_unguarded (h : request.guarded? = none) :
    ∃ response, (server.serve occasion metrics request).run answer s = (.openly response, s) := by
  obtain ⟨response, hserved⟩ := server.serveAny_of_unguarded occasion metrics h
  exact ⟨server.cors.mark request response, by rw [serve, hserved]; rfl⟩

/-- A request that comes to the gate has the outcome that the gate decides on. -/
lemma serve_outcome {resource : Resource} (h : request.guarded? = some resource) :
    ((server.serve occasion metrics request).run answer s).1.outcome = some (outcomeName
      ((server.gate.authenticate occasion.now.second request).run answer s).1) := by
  simp only [serve, server.serveAny_of_guarded? occasion metrics h, serveGuarded, Flow.run_bind,
    Flow.run_pure]
  cases hdecision : ((server.gate.authenticate occasion.now.second request).run answer s).1 with
  | error e => rw [Gate.run_pass_of_error hdecision]
  | ok outcome => rw [Gate.run_pass_of_ok hdecision]

omit [Text.Engine] in
lemma postUser_opened_iff :
    let r := ((server.postUser occasion request).run answer s).1
    r.opened = true ↔ r.response.status = 201 := by
  intro r
  simp only [r, postUser]
  cases NewUser.form.ofBody request with
  | error e =>
    exact iff_of_false Bool.false_ne_true (Response.ne_created e.refuses)
  | ok submitted =>
    simp only [Flow.run_bind, Flow.run_pure]
    generalize ((signUp _ _ _ _).run answer s).1 = result
    cases result with
    | error e =>
      exact iff_of_false Bool.false_ne_true (Response.ne_created e.refuses)
    | ok account => exact iff_of_true rfl rfl

/-- Behind the gate an account is opened when a sign-up is answered by 201. -/
lemma reply_opened_iff (resource : Resource) (principal : Option Principal) :
    let r := ((server.reply occasion resource request principal).run answer s).1
    r.opened = true ↔ request.method = .post ∧ resource = .users ∧ r.response.status = 201 := by
  intro r
  have hother : ∀ {r : Resource} {response : Response}, r ≠ .users →
      (false = true ↔ request.method = .post ∧ r = .users ∧ response.status = 201) :=
    fun hne => iff_of_false Bool.false_ne_true fun h => hne h.2.1
  simp only [r, reply]
  split
  · next hact =>
    refine (server.postUser_opened_iff answer s occasion).trans ?_
    exact ⟨fun h => ⟨method_eq_post hact, rfl, h⟩, fun h => h.2.2⟩
  · exact hother (r := .me) (by decide)
  · simp only [Flow.run_bind, Flow.run_pure, Reply.of]
    exact hother (r := .roles) (by decide)
  · simp only [Flow.run_bind, Flow.run_pure, Reply.of]
    exact hother (r := .roles) (by decide)
  · next segment _ =>
    simp only [Flow.run_bind, Flow.run_pure, Reply.of]
    exact hother (r := .permissionsOf segment) Resource.noConfusion
  · exact iff_of_false Bool.false_ne_true fun h => absurd h.2.2 (by decide : 405 ≠ 201)

/-- An account is opened when a sign-up is answered by 201. -/
theorem serve_opened_iff (request : Request) :
    let r := ((server.serve occasion metrics request).run answer s).1
    r.opened = true ↔ request.IsSignUp ∧ r.response.status = 201 := by
  intro r
  cases hguarded : request.guarded? with
  | none =>
    obtain ⟨response, hserved⟩ := server.serve_unguarded answer s occasion metrics hguarded
    have hopened : r.opened = false := by
      simp only [r, hserved, Served.openly]
    rw [hopened]
    refine iff_of_false Bool.false_ne_true fun h => ?_
    exact nomatch hguarded.symm.trans (Request.guarded?_of_isSignUp h.1)
  | some resource =>
    have hsignUp : request.IsSignUp ↔ request.method = .post ∧ resource = .users := by
      rw [Request.IsSignUp, Request.ofPath?_of_guarded? hguarded, Option.some.injEq]
    simp only [r, hsignUp, serve, server.serveAny_of_guarded? occasion metrics hguarded,
      serveGuarded, Flow.run_bind, Flow.run_pure, Cors.mark_status, forMethod_status, and_assoc]
    cases hdecision : ((server.gate.authenticate occasion.now.second request).run answer s).1 with
    | error e =>
      rw [Gate.run_pass_of_error hdecision]
      exact iff_of_false Bool.false_ne_true fun h => Response.ne_created e.refuses h.2.2
    | ok outcome =>
      rw [Gate.run_pass_of_ok hdecision]
      exact server.reply_opened_iff answer _ occasion resource outcome.principal?

end Serving

/-- The users grow by the accounts that are opened. -/
lemma serve_users_length [Text.Engine] {t : Tables} (ht : t.permissions.Sound) (server : Server)
    (occasion : Occasion) (metrics : Metrics) (request : Request) :
    let r := (server.serve occasion metrics request).run Tables.answer t
    r.2.users.length = t.users.length + if r.1.opened then 1 else 0 := by
  intro r
  have hopened : r.1.opened = true ↔ request.IsSignUp ∧ r.1.response.status = 201 :=
    server.serve_opened_iff Tables.answer t occasion metrics request
  have hleft := server.serve_left ht occasion metrics request
  by_cases hstatus : r.1.response.status = 201
  · obtain ⟨a, ⟨hpost, resource, hresource, hasked⟩, -, hadded⟩ := hleft.exists_addition hstatus
    have hr : r.2 = t.adding a := hadded
    have hsignUp : request.IsSignUp ↔ resource = .users := by
      rw [Request.IsSignUp, hresource, Option.some.injEq, and_iff_right hpost]
    rw [hsignUp, and_iff_left hstatus] at hopened
    rw [hr]
    -- Of the three additions only a user is told as an account opened, and only it lengthens the
    -- users.
    cases hasked with
    | user =>
      rw [if_pos (hopened.2 rfl)]
      exact List.length_append
    | role =>
      rw [if_neg fun h => nomatch hopened.1 h]
      rfl
    | grant =>
      rw [if_neg fun h => nomatch hopened.1 h]
      rfl
  · have hr : r.2 = t := hleft.eq_of_ne hstatus
    rw [hr, if_neg fun h => hstatus (hopened.1 h).2, Nat.add_zero]

end Server

/-! ## One request -/

/-- The count of one outcome goes up by one, and no other count changes. -/
def Metrics.Raised (name : String) (before after : Metrics) : Prop :=
  ∀ other, after.count other = before.count other + if other = name then 1 else 0

/-- How a request that was handled shows in the counters, given its response. -/
structure Counted (server : Server) (visit : Visit) (before : Deployment) (response : Response)
    (after : Deployment) : Prop where
  /-- At the gate a request counts for the one outcome that it has, and a refused one is answered
  by the gate itself. -/
  atGate : ∀ resource, visit.request.guarded? = some resource →
    let decision := ((server.gate.authenticate visit.occasion.now.second visit.request).run
      Stores.answer before.stores).1
    ∃ name ∈ Metrics.outcomes, before.metrics.Raised name after.metrics ∧
      (name = "rejected" ↔ ∃ e, decision = .error e) ∧
      (name = "bypassed" ↔
        server.gate.config.isBypassed visit.request.method visit.request.uri.path = true) ∧
      (name = "rejected" → after.stores = before.stores ∧ response.status = 401 ∧
        response = server.cors.mark visit.request
          (Server.forMethod resource visit.request AuthError.unauthenticated.response))
  elsewhere : visit.request.guarded? = none →
    ∀ name, after.metrics.count name = before.metrics.count name

lemma Gate.authenticate_eq_bypassed_iff {σ : Type} {answer : (c : Call) → σ → c.Answer × σ}
    {s : σ} {gate : Gate} {now : Int} {request : Request} :
    ((gate.authenticate now request).run answer s).1 = .ok .bypassed ↔
      gate.config.isBypassed request.method request.uri.path = true := by
  constructor
  · intro h
    obtain ⟨s', hrun⟩ : ∃ s', (gate.authenticate now request).run answer s = (.ok .bypassed, s') :=
      ⟨_, Prod.ext h rfl⟩
    cases run_authenticate_eq_iff.1 hrun with
    | bypassed hbypass => exact hbypass
  · intro h
    rw [(Decides.bypassed h).run_authenticate]

/-- A request that comes to the gate counts for what the gate decides. -/
lemma Server.count_serve [Text.Engine] {metrics : Metrics} (hm : metrics.InOrder) (server : Server)
    (occasion : Occasion) {request : Request} {resource : Resource}
    (h : request.guarded? = some resource) (t : Tables) :
    metrics.Raised
      (outcomeName ((server.gate.authenticate occasion.now.second request).run Tables.answer t).1)
      (metrics.record ((server.serve occasion metrics request).run Tables.answer t).1) := by
  intro other
  rw [hm.count_record, server.serve_outcome Tables.answer t occasion metrics h]
  simp only [Option.some.injEq, eq_comm]

/-- A refused request is answered by the gate itself, and changes no record. -/
lemma Server.serve_rejected [Text.Engine] {server : Server} {occasion : Occasion}
    (metrics : Metrics) {request : Request} {resource : Resource}
    (h : request.guarded? = some resource) {t : Tables} {e : AuthError}
    (hdecision :
      ((server.gate.authenticate occasion.now.second request).run Tables.answer t).1 = .error e) :
    let r := (server.serve occasion metrics request).run Tables.answer t
    r.2 = t ∧ r.1.response.status = 401 ∧ r.1.response = server.cors.mark request
      (forMethod resource request AuthError.unauthenticated.response) := by
  intro r
  have hguarded := server.serveAny_of_guarded? occasion metrics h
  have hresponse : r.1.response = server.cors.mark request
      (forMethod resource request AuthError.unauthenticated.response) := by
    show ((server.serve occasion metrics request).run Tables.answer t).1.response = _
    rw [serve_response hguarded, Gate.run_pass_of_error hdecision,
      AuthError.response_of_isAuthentication (Gate.authenticate_isAuthentication hdecision)]
    rfl
  have hstatus : r.1.response.status = 401 := by
    rw [hresponse, Cors.mark_status, forMethod_status]
    rfl
  have htables : r.2 = t := by
    simp only [r, serve, hguarded, serveGuarded, Flow.run_bind, Flow.run_pure, Gate.pass,
      hdecision, Gate.run_authenticate_snd]
  exact ⟨htables, hstatus, hresponse⟩

/-- One request is accounted for. -/
theorem Deployment.handle_counted [Text.Engine] {t : Tables} {metrics : Metrics}
    (hm : metrics.InOrder) (server : Server) (visit : Visit) :
    let before : Deployment := ⟨t.stores, metrics⟩
    let handled := before.handle server visit.occasion visit.request
    Counted server visit before handled.1 handled.2 := by
  intro before handled
  have hhandled : handled = _ :=
    handle_tables server visit.occasion visit.request t metrics
  rw [hhandled]
  constructor
  case atGate =>
    intro resource hresource decision
    have hraised := server.count_serve hm visit.occasion hresource t
    have hdecision : decision = ((server.gate.authenticate visit.occasion.now.second
        visit.request).run Tables.answer t).1 := by
      simp only [decision, before, Flow.run_stores]
    have hbypassed : decision = .ok .bypassed ↔ _ := Gate.authenticate_eq_bypassed_iff
    rw [← hdecision] at hraised
    -- One outcome for each way the gate can decide; the name of the outcome settles the two
    -- equivalences.
    cases hcase : decision with
    | error e =>
      rw [hcase] at hraised hbypassed
      have hrejected := Server.serve_rejected metrics hresource (hdecision.symm.trans hcase)
      refine ⟨"rejected", by decide, hraised, iff_of_true rfl ⟨e, rfl⟩, ?_, fun _ => ?_⟩
      · rw [← hbypassed]
        exact iff_of_false (by decide) fun h => nomatch h
      · exact ⟨congrArg Tables.stores hrejected.1, hrejected.2⟩
    | ok outcome =>
      rw [hcase] at hraised hbypassed
      cases outcome with
      | bypassed =>
        refine ⟨"bypassed", by decide, hraised, ?_, iff_of_true rfl (hbypassed.1 rfl), ?_⟩
        · exact iff_of_false (by decide) fun h => nomatch h
        · exact fun h => absurd h (by decide)
      | authenticated p =>
        refine ⟨"authenticated", by decide, hraised, ?_, ?_, ?_⟩
        · exact iff_of_false (by decide) fun h => nomatch h
        · rw [← hbypassed]
          exact iff_of_false (by decide) fun h => nomatch h
        · exact fun h => absurd h (by decide)
  case elsewhere =>
    intro hguarded name
    obtain ⟨response, hserved⟩ :=
      server.serve_unguarded Tables.answer t visit.occasion metrics hguarded
    rw [hm.count_record, hserved]
    rfl

/-! ## Requests one after the other -/

/-- How many requests were counted, whatever their outcome. -/
def Metrics.requestsCounted (metrics : Metrics) : Nat := (outcomes.map metrics.count).sum

lemma Metrics.Raised.requestsCounted {name : String} {before after : Metrics}
    (h : before.Raised name after) (hname : name ∈ outcomes) :
    after.requestsCounted = before.requestsCounted + 1 := by
  have hcounts : ∀ other, after.count other = _ := h
  simp only [Metrics.requestsCounted, outcomes, List.map_cons, List.map_nil, List.sum_cons,
    List.sum_nil, hcounts]
  simp only [outcomes, List.mem_cons, List.not_mem_nil, or_false] at hname
  obtain rfl | rfl | rfl := hname
  · simp only [reduceIte, String.reduceEq]
    omega
  · simp only [reduceIte, String.reduceEq]
    omega
  · simp only [reduceIte, String.reduceEq]
    omega

/-- Where a request was answered, it was counted if it came to the gate. -/
lemma Counted.requestsCounted {server : Server} {visit : Visit} {before after : Deployment}
    {response : Response} (h : Counted server visit before response after) :
    after.metrics.requestsCounted =
      before.metrics.requestsCounted + if visit.request.guarded?.isSome then 1 else 0 := by
  cases hguarded : visit.request.guarded? with
  | none =>
    have hcounts : after.metrics.count = before.metrics.count := funext (h.elsewhere hguarded)
    simp [Metrics.requestsCounted, hcounts]
  | some resource =>
    obtain ⟨name, hname, hraised, -⟩ := h.atGate resource hguarded
    exact hraised.requestsCounted hname

/-- The request is a sign-up and the response to it says that the account was opened. -/
def SignedUpBy (visit : Visit) (response : Response) : Prop :=
  visit.request.method = .post ∧ visit.request.uri.path = "/users" ∧ response.status = 201

instance (visit : Visit) (response : Response) : Decidable (SignedUpBy visit response) :=
  inferInstanceAs (Decidable (_ ∧ _ ∧ _))

/-- What visits leave behind is accounted for. -/
structure AccountedFor (visits : List Visit) (t : Tables) (metrics : Metrics)
    (run : Attended Stores) (t' : Tables) : Prop where
  stores : run.state = t'.stores
  sound : t'.Sound
  inOrder : run.metrics.InOrder
  requests : run.metrics.requestsCounted =
    metrics.requestsCounted + visits.countP fun visit => visit.request.guarded?.isSome
  accounts : run.metrics.accountsCreated = metrics.accountsCreated +
    (visits.zip run.responses).countP fun answered => SignedUpBy answered.1 answered.2
  users : t'.users.length + metrics.accountsCreated =
    t.users.length + run.metrics.accountsCreated

theorem Server.attend_accountedFor [Text.Engine] (server : Server) (visits : List Visit) :
    ∀ {t : Tables} {metrics : Metrics}, t.Sound → metrics.InOrder →
      ∃ t', AccountedFor visits t metrics (server.attend Stores.answer visits metrics t.stores)
        t' := by
  -- The induction is on the visits; tables and counters vary, and what it carries is that tables
  -- are sound and series in order.
  induction visits with
  | nil => exact fun {t} {metrics} ht hm => ⟨t, rfl, ht, hm, rfl, rfl, rfl⟩
  | cons visit rest ih =>
    intro t metrics ht hm
    have hcounted := (Deployment.handle_counted (t := t) hm server visit).requestsCounted
    rw [Deployment.handle_tables] at hcounted
    have hlength := server.serve_users_length ht.permissions visit.occasion metrics visit.request
    have hsound := (server.serve_keeps ht visit.occasion metrics visit.request).1
    have hopened : _ = true ↔ _ :=
      server.serve_opened_iff Tables.answer t visit.occasion metrics visit.request
    rw [Request.IsSignUp, Resource.ofPath?_eq_users, and_assoc] at hopened
    simp only [attend, Flow.run_stores]
    -- All that is needed of the served request has been said; what it was computed by is forgotten.
    generalize (server.serve visit.occasion metrics visit.request).run Tables.answer t = r
      at hcounted hlength hsound hopened ⊢
    have haccounts := metrics.accountsCreated_record r.1
    obtain ⟨t', h⟩ := ih hsound (hm.record r.1)
    have hrequests : (metrics.record r.1).requestsCounted = metrics.requestsCounted + _ := hcounted
    have haccount : (if SignedUpBy visit r.1.response then 1 else 0) =
        if r.1.opened = true then 1 else 0 := if_congr hopened.symm rfl rfl
    have husers := h.users
    refine ⟨t', h.stores, h.sound, h.inOrder, ?_, ?_, ?_⟩
    · rw [h.requests, hrequests, List.countP_cons]
      omega
    · simp only [h.accounts, haccounts, List.zip_cons_cons, List.countP_cons, decide_eq_true_eq,
        haccount]
      omega
    · simp only [hlength, haccounts] at husers ⊢
      omega

/-- Every request to a server is accounted for, whatever operations led to the records.  After any
visits, one that comes to the gate counts for one of three outcomes and once: it is counted as
rejected when the gate does not let it in, and is then refused by the gate itself, as bypassed when
nobody is asked who sent it, and as authenticated otherwise; any other request counts for none.  So
the counts add up to the number of visits that came to the gate, and accounts are counted as often
as a sign-up is answered by 201, which is how many users there are more. -/
theorem every_request_counted [Text.Engine] (operations : List Operation) (server : Server)
    (visits : List Visit) :
    let reached := Operation.reached operations
    let run := server.attend Stores.answer visits .zero reached
    (∀ visit : Visit,
      let before : Deployment := ⟨run.state, run.metrics⟩
      let handled := before.handle server visit.occasion visit.request
      Counted server visit before handled.1 handled.2) ∧
    run.metrics.count "authenticated" + run.metrics.count "bypassed" +
        run.metrics.count "rejected" =
      visits.countP (fun visit => visit.request.guarded?.isSome) ∧
    run.metrics.accountsCreated =
      (visits.zip run.responses).countP (fun answered => SignedUpBy answered.1 answered.2) ∧
    ∃ t t' : Tables, reached = t.stores ∧ run.state = t'.stores ∧
      t'.users.length = t.users.length + run.metrics.accountsCreated := by
  intro reached run
  obtain ⟨t, ht, hreached⟩ := Operation.exists_tables_reached operations
  have hstart : reached = t.stores := hreached
  obtain ⟨t', h⟩ := server.attend_accountedFor visits ht Metrics.inOrder_zero
  rw [← hstart] at h
  have hrequests : run.metrics.requestsCounted = 0 + _ := h.requests
  have haccounts : run.metrics.accountsCreated = 0 + _ := h.accounts
  have husers : t'.users.length + 0 = t.users.length + run.metrics.accountsCreated := h.users
  refine ⟨fun visit => ?_, ?_, ?_, t, t', hstart, h.stores, husers⟩
  · have hcounted := Deployment.handle_counted (t := t') h.inOrder server visit
    rw [← h.stores] at hcounted
    exact hcounted
  · rw [Nat.zero_add] at hrequests
    rw [← hrequests]
    simp only [Metrics.requestsCounted, Metrics.outcomes, List.map_cons, List.map_nil,
      List.sum_cons, List.sum_nil, Nat.add_zero, Nat.add_assoc]
  · rwa [Nat.zero_add] at haccounts

end Gatehouse
