import Gatehouse.Proofs.Escalation

/-!
# Tokens of sign-ups

The token that a sign-up is answered with lets its user ask for themselves for twelve hours.
Three things have to come together for that.  The account stays: whatever requests are served,
accounts are only ever added to the records (`Deployment.afterVisits_keeps`).  The token arrives:
wherever it is presented, exactly the token that was issued is found (`requestToken_of_presents`).
And it is accepted: its claims name the account, from the second of the sign-up on and for twelve
hours (`Token.validate_issue`).
-/

namespace Gatehouse

open Http Text

/-! ## Accounts stay -/

/-- A request keeps the records sound and every account in them. -/
lemma Server.serve_keeps [Text.Engine] {t : Tables} (ht : t.Sound) (server : Server)
    (occasion : Occasion) (metrics : Metrics) (request : Request) :
    let t' := ((server.serve occasion metrics request).run Tables.answer t).2
    t'.Sound ∧ t.users <+: t'.users := by
  intro t'
  have hleft := server.serve_left ht.permissions occasion metrics request
  by_cases hstatus :
      ((server.serve occasion metrics request).run Tables.answer t).1.response.status = 201
  · obtain ⟨a, -, hfits, hadded⟩ := hleft.exists_addition hstatus
    have ht' : t' = t.adding a := hadded
    rw [ht']
    exact ⟨hfits.sound ht, a.users_adding t⟩
  · have ht' : t' = t := hleft.eq_of_ne hstatus
    rw [ht']
    exact ⟨ht, List.prefix_rfl⟩

/-- Visits keep the records sound and every account in them. -/
theorem Deployment.afterVisits_keeps [Text.Engine] (server : Server) (visits : List Visit)
    {t : Tables} (metrics : Metrics) (ht : t.Sound) :
    ∃ (t' : Tables) (metrics' : Metrics),
      Deployment.afterVisits server visits ⟨t.stores, metrics⟩ = ⟨t'.stores, metrics'⟩ ∧
        t'.Sound ∧ t.users <+: t'.users := by
  refine afterVisits_preserves (I := fun t' => t'.Sound ∧ t.users <+: t'.users) server ?_ visits
    metrics ⟨ht, List.prefix_rfl⟩
  rintro t' occasion metrics request ⟨ht', hkept⟩
  obtain ⟨hsound, hkept'⟩ := server.serve_keeps ht' occasion metrics request
  exact ⟨hsound, hkept.trans hkept'⟩

/-! ## Opening an account -/

section Opening

variable {t : Tables}

/-- A sign-up that succeeds answers with the account it stored and a token for it. -/
lemma signUp_ok {tokens : TokenService} {id : Uuid} {now : Session.Moment} {submitted : NewUser}
    {account : OpenedAccount}
    (h : ((signUp tokens id now submitted).run Tables.answer t).1 = .ok account) :
    account = ⟨submitted.user id now.instant, tokens.issue id now⟩ := by
  unfold signUp at h
  cases hvalid : submitted.validate with
  | error e =>
    rw [hvalid] at h
    cases h
  | ok _ =>
    simp only [hvalid, Flow.run_bind, Tables.run_usersInUse, Tables.run_users, UserOp.step,
      Tables.withUsers_self] at h
    cases hfind : t.users.findByEmail? submitted.normalised.email with
    | some u =>
      rw [hfind] at h
      cases h
    | none =>
      simp only [hfind, Flow.run_bind, Tables.run_users, UserOp.step] at h
      generalize UserTable.create _ _ = created at h
      obtain ⟨e | _, users⟩ := created
      · cases h
      · exact (Except.ok.inj h).symm

namespace Server

/-- A sign-up answered by 201 shows the account it stored and a token for it. -/
lemma postUser_opened (server : Server) (occasion : Occasion) (request : Request) :
    let r := (server.postUser occasion request).run Tables.answer t
    r.1.response.status = 201 → ∃ account : OpenedAccount,
      r.1.response = .json 201 account.toJson ∧
        account.token = server.gate.tokens.issue account.user.id occasion.now ∧
        r.2 = t.adding (.user account.user) := by
  intro r hstatus
  simp only [r, postUser] at hstatus ⊢
  cases hbody : NewUser.form.ofBody request with
  | error e =>
    rw [hbody] at hstatus
    exact absurd hstatus (Response.ne_created e.refuses)
  | ok submitted =>
    have hadds := adds_signUp server.gate.tokens (occasion.ids 0) occasion.now submitted t
    unfold Adds at hadds
    simp only [hbody, Flow.run_bind, Flow.run_pure] at hstatus ⊢
    rcases hrun : (signUp server.gate.tokens (occasion.ids 0) occasion.now submitted).run
        Tables.answer t with ⟨e | account, t'⟩
    · rw [hrun] at hstatus
      exact absurd hstatus (Response.ne_created e.refuses)
    · rw [hrun] at hadds
      have haccount := signUp_ok (congrArg Prod.fst hrun)
      have huser : account.user = submitted.user (occasion.ids 0) occasion.now.instant :=
        congrArg OpenedAccount.user haccount
      refine ⟨account, rfl, ?_, ?_⟩
      · rw [haccount]
        rfl
      · rw [huser]
        exact hadds.2

end Server

end Opening

/-! ## Through the gate -/

/-- The roles that a user holds, with the permissions they carry. -/
def Tables.heldRoles (t : Tables) (user : Uuid) : List HeldRole :=
  (t.roles.heldBy user).map fun role => ⟨role, t.permissions.carriedBy role.id⟩

namespace Server

variable [Text.Engine] {t : Tables}

/-- A request to open an account that is answered by 201 shows the account it stored and a token
for it. -/
theorem serve_opened (server : Server) (occasion : Occasion) (metrics : Metrics)
    {request : Request} (hpost : request.method = .post) (hpath : request.uri.path = "/users") :
    let r := (server.serve occasion metrics request).run Tables.answer t
    r.1.response.status = 201 → ∃ account : OpenedAccount,
      r.1.response.body = account.toJson.render ∧
        account.token = server.gate.tokens.issue account.user.id occasion.now ∧
        account.user ∈ r.2.users := by
  intro r hstatus
  have hoptions : request.method ≠ .options := by
    rw [hpost]
    decide
  have hhead : request.method ≠ .head := by
    rw [hpost]
    decide
  have hresource : Resource.ofPath? request.uri.path = some .users := by
    rw [hpath]
    decide
  have hact : Resource.users.act? request.method = some .extend := by
    rw [hpost]
    decide
  have hserved := server.serveAny_of_guarded occasion metrics hoptions hresource (by decide)
    (by decide)
  simp only [r, serve, hserved, serveGuarded, Flow.run_bind, Flow.run_pure,
    forMethod_eq_self hhead, Cors.mark_status, Cors.mark_body] at hstatus ⊢
  obtain ⟨e, hrefused⟩ | ⟨outcome, -, hpassed⟩ :=
    server.gate.run_pass_tables occasion.now.second request
      (server.reply occasion .users request) (fun e => .of e.response) t
  · rw [hrefused] at hstatus
    exact absurd hstatus (Response.ne_created e.refuses)
  · -- The handler does not look at the principal, so it does not matter for whom the gate lets the
    -- request in.
    have hreply : server.reply occasion .users request outcome.principal? =
        server.postUser occasion request := by
      simp only [reply, hact]
    rw [hpassed, hreply] at hstatus ⊢
    obtain ⟨account, hresponse, htoken, hadded⟩ := server.postUser_opened occasion request hstatus
    refine ⟨account, ?_, htoken, ?_⟩
    · simp only [hresponse, Response.json, Response.typed]
    · rw [hadded]
      exact List.mem_append_right _ List.mem_cons_self

section Me

variable {server : Server} {occasion : Occasion} {metrics : Metrics} {request : Request}

lemma serveAny_me (hget : request.method = .get) (hpath : request.uri.path = "/me") :
    server.serveAny occasion metrics request = server.serveGuarded occasion .me request := by
  have hresource : Resource.ofPath? request.uri.path = some .me := by
    rw [hpath]
    decide
  have hact : Resource.me.act? request.method = some .read := by
    rw [hget]
    decide
  exact server.serveAny_of_need occasion metrics hresource hact rfl

/-- Whoever asks for themselves and is not known is refused. -/
lemma serve_me_refused (hget : request.method = .get) (hpath : request.uri.path = "/me")
    (hbypass : server.gate.config.isBypassed request.method request.uri.path = false)
    {e : AuthError} (hcaller : server.gate.caller occasion.now.second request = .error e) :
    ((server.serve occasion metrics request).run Tables.answer t).1.response.status =
      e.response.status := by
  rw [serve_response (serveAny_me hget hpath), Cors.mark_status, forMethod_status,
    Gate.run_pass_refused hbypass hcaller]
  rfl

/-- Whoever asks for themselves and is known is shown their record and their roles. -/
lemma serve_me_shown (hget : request.method = .get) (hpath : request.uri.path = "/me")
    (hbypass : server.gate.config.isBypassed request.method request.uri.path = false)
    {user : User} (hcaller : server.gate.caller occasion.now.second request = .ok user.id)
    (hfind : t.users.find? user.id = some user) :
    let response := ((server.serve occasion metrics request).run Tables.answer t).1.response
    response.status = 200 ∧
      response.body = (Principal.form.write ⟨user, t.heldRoles user.id⟩).render := by
  intro response
  have hprincipal : (Resolve.principal user.id).run Tables.answer t =
      (.ok ⟨user, t.heldRoles user.id⟩, t) := by
    rw [Resolve.run_principal, hfind]
    rfl
  have hhead : request.method ≠ .head := by
    rw [hget]
    decide
  have hact : Resource.me.act? request.method = some .read := by
    rw [hget]
    decide
  simp only [response, serve_response (serveAny_me hget hpath),
    Gate.run_pass_served hbypass hcaller hprincipal, Cors.mark_status, Cors.mark_body,
    forMethod_eq_self hhead, reply, hact]
  exact ⟨rfl, rfl⟩

end Me

end Server

/-! ## Asking for oneself with the token of a sign-up -/

/-- Whoever asks for themselves with a token that was issued for an account is shown it for twelve
hours. -/
lemma Server.serve_me_issued [Text.Engine] {t : Tables} (ht : t.Sound) {server : Server}
    {user : User} (huser : user ∈ t.users) {m : Session.Moment} (occasion : Occasion)
    (metrics : Metrics) {request : Request} (hget : request.method = .get)
    (hpath : request.uri.path = "/me")
    (hbypass : server.gate.config.isBypassed .get "/me" = false)
    (hpresents : request.Presents server.gate.config (server.gate.tokens.issue user.id m)) :
    let response := ((server.serve occasion metrics request).run Tables.answer t).1.response
    let now := occasion.now.second
    if 0 ≤ m.second ∧ m.second ≤ now ∧ now ≤ m.second + 43200 then
      t.users.find? user.id = some user ∧ response.status = 200 ∧
        response.body = (Principal.form.write ⟨user, t.heldRoles user.id⟩).render
    else response.status = 401 := by
  intro response now
  have hcaller := Gate.caller_of_issued now hpresents
  rw [← hget, ← hpath] at hbypass
  by_cases hholds : 0 ≤ m.second ∧ m.second ≤ now ∧ now ≤ m.second + 43200
  · rw [if_pos hholds] at hcaller ⊢
    have hfind : t.users.find? user.id = some user := find?_key_of_mem ht.users huser
    exact ⟨hfind, serve_me_shown hget hpath hbypass hcaller hfind⟩
  · rw [if_neg hholds] at hcaller ⊢
    obtain ⟨e, hrefused, hstatus⟩ := hcaller
    exact (serve_me_refused hget hpath hbypass hrefused).trans hstatus

/-- Whenever a sign-up is answered by 201, whatever was served before it and whatever is served
after it, whoever presents the token it was answered with and asks for themselves is shown the
record and the roles that the account has by then, from the second of the sign-up to the second
twelve hours later, and is refused by 401 after that.  So it is, too, where the clock was set back
behind the sign-up, and where it showed a time before 1970. -/
theorem sign_up_token_works [Text.Engine] (operations : List Operation) (server : Server)
    (metrics : Metrics) (hme : server.gate.config.isBypassed .get "/me" = false)
    (before : List Visit) (signUp : Visit) (hpost : signUp.request.method = .post)
    (hpath : signUp.request.uri.path = "/users") :
    let start := Deployment.afterVisits server before ⟨Operation.reached operations, metrics⟩
    let opened := start.handle server signUp.occasion signUp.request
    opened.1.status = 201 → ∃ account : OpenedAccount,
      opened.1.body = account.toJson.render ∧
      ∀ (between : List Visit) (later : Visit), later.request.method = .get →
        later.request.uri.path = "/me" →
        later.request.Presents server.gate.config account.token →
        let reached := Deployment.afterVisits server between opened.2
        let response := (reached.handle server later.occasion later.request).1
        let issued := signUp.occasion.now.second
        let now := later.occasion.now.second
        if 0 ≤ issued ∧ issued ≤ now ∧ now ≤ issued + 43200 then
          ∃ t : Tables, reached.stores = t.stores ∧
            t.users.find? account.user.id = some account.user ∧ response.status = 200 ∧
            response.body =
              (Principal.form.write ⟨account.user, t.heldRoles account.user.id⟩).render
        else response.status = 401 := by
  intro start opened hstatus
  -- Three stretches of the run: what was there before the sign-up, the sign-up itself, and what was
  -- served between it and the later request.
  obtain ⟨t, ht, hreached⟩ := Operation.exists_tables_reached operations
  obtain ⟨t₁, metrics₁, hstart, ht₁, -⟩ :=
    Deployment.afterVisits_keeps server before metrics ht
  have hopened : opened =
      Deployment.handle server signUp.occasion signUp.request ⟨t₁.stores, metrics₁⟩ := by
    rw [← hstart, ← hreached]
  rw [Deployment.handle_tables] at hopened
  rw [hopened] at hstatus ⊢
  obtain ⟨account, hbody, htoken, hstored⟩ :=
    server.serve_opened signUp.occasion metrics₁ hpost hpath hstatus
  obtain ⟨ht₂, -⟩ := server.serve_keeps ht₁ signUp.occasion metrics₁ signUp.request
  refine ⟨account, hbody, fun between later hget hpathMe hpresents => ?_⟩
  obtain ⟨t₃, metrics₃, hbetween, ht₃, hkept⟩ :=
    Deployment.afterVisits_keeps server between
      (metrics₁.record ((server.serve signUp.occasion metrics₁ signUp.request).run
        Tables.answer t₁).1) ht₂
  intro reached response issued now
  -- Requests only ever add accounts, so this one is still there.
  have hthere : account.user ∈ t₃.users := hkept.subset hstored
  have hresponse : response = ((server.serve later.occasion metrics₃ later.request).run
      Tables.answer t₃).1.response := by
    show (reached.handle server later.occasion later.request).1 = _
    rw [show reached = ⟨t₃.stores, metrics₃⟩ from hbetween, Deployment.handle_tables]
  rw [htoken] at hpresents
  have hserved := Server.serve_me_issued ht₃ hthere later.occasion metrics₃ hget hpathMe hme
    hpresents
  simp only [← hresponse] at hserved
  by_cases hholds : 0 ≤ issued ∧ issued ≤ now ∧ now ≤ issued + 43200
  · rw [if_pos hholds] at hserved ⊢
    exact ⟨t₃, congrArg Deployment.stores hbetween, hserved⟩
  · rw [if_neg hholds] at hserved ⊢
    exact hserved

/-- Bob opens an account and asks for himself at once, with his token behind the bearer word. -/
theorem sign_up_token_works_at_once :
    let server : Server :=
      ⟨⟨.ofSources .headerOnly, ⟨.headerOnly, "secret", rfl⟩, rfl⟩, ⟨[], List.not_mem_nil⟩⟩
    let occasion : Occasion := ⟨⟨default, by decide⟩, fun _ => .ofNat 1⟩
    let bob : NewUser := ⟨"bob@example.org", "Bob", "Ray"⟩
    let signUp : Visit := ⟨occasion, ⟨.post, ⟨"/users", ""⟩,
      [⟨"content-type", Utf8.encode "application/json"⟩], (NewUser.form.write bob).bytes⟩⟩
    let start := Deployment.afterVisits server [] ⟨Operation.reached [], .zero⟩
    let opened := start.handle server signUp.occasion signUp.request
    opened.1.status = 201 ∧ ∃ account : OpenedAccount, opened.1.body = account.toJson.render ∧
      (opened.2.handle server occasion ⟨.get, ⟨"/me", ""⟩,
        [⟨"authorization", bearerWord ++ ([0x20] ++ Utf8.encode account.token)⟩], []⟩).1.status =
          200 := by
  intro server occasion bob signUp start opened
  have hme : server.gate.config.isBypassed .get "/me" = false := by decide
  have hheader : server.gate.config.sources.header = true := rfl
  have hpost : signUp.request.method = .post := rfl
  have hpath : signUp.request.uri.path = "/users" := rfl
  have hstatus : opened.1.status = 201 := by decide +kernel
  have hnow : 0 ≤ signUp.occasion.now.second ∧
      signUp.occasion.now.second ≤ occasion.now.second ∧
      occasion.now.second ≤ signUp.occasion.now.second + 43200 := by decide
  -- what was run above is not to be run again while the goals are compared
  clear_value signUp occasion server
  obtain ⟨account, hbody, hworks⟩ :=
    sign_up_token_works [] server .zero hme [] signUp hpost hpath hstatus
  have hspace : Spacing [0x20] := fun b hb => .inl (List.mem_singleton.1 hb)
  have hnone : Spacing [] := fun b hb => absurd hb List.not_mem_nil
  have hpresents : Http.Request.Presents ⟨.get, ⟨"/me", ""⟩,
      [⟨"authorization", bearerWord ++ ([0x20] ++ Utf8.encode account.token)⟩], []⟩
      server.gate.config account.token := by
    refine .behindBearer hheader ?_ hnone hspace (List.cons_ne_nil _ _) hnone
    rw [List.append_nil, List.nil_append]
    rfl
  have hanswered := hworks [] ⟨occasion, _⟩ rfl rfl hpresents
  rw [if_pos hnow] at hanswered
  obtain ⟨t, -, -, hok, -⟩ := hanswered
  exact ⟨hstatus, account, hbody, hok⟩

end Gatehouse
