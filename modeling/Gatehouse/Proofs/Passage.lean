import Gatehouse.Gate.Authenticate
import Mathlib.Tactic.Lemma

/-!
# Passing the gate

What is known of a request that passed.  How a token is looked for and how the gate decides is said
once, case by case (`GateConfig.FindsToken`, `Gate.Decides`), and whatever else is known of either
is read off the cases.  If a request was not bypassed, then the gate knows its caller by an accepted
token from a place where tokens are looked for, and has resolved the caller's principal
(`Gate.run_pass`, `Gate.of_caller`).

A principal that was resolved is of a stored user.  Stores may be any that were ever installed,
with rules by which they fail, so stored means that the user is in the records that requests to
the store in use are answered from (`Shelf.tableAt?`): whatever a request passes through on its
way, an answer that is no failure comes from there.
-/

namespace Gatehouse

open Http

/-! ## Tokens and callers -/

/-- The token stands in a place where tokens are looked for. -/
def GateConfig.CarriesToken (config : GateConfig) (request : Request) (token : String) : Prop :=
  (config.sources.header = true ∧ headerToken request.headers = .ok (some token)) ∨
    (config.sources.query = true ∧
      queryToken? request.uri.query config.queryParam = some token)

/-- What is found when a token is looked for: an authorization field decides, unless it is not to
be looked at or has no token; then the query does; and where neither has a token, one is missing. -/
inductive GateConfig.FindsToken (config : GateConfig) (request : Request) :
    Except AuthError String → Prop
  | refused {e : AuthError} : config.sources.header = true →
      headerToken request.headers = .error e → FindsToken config request (.error e)
  | inHeader {token : String} : config.sources.header = true →
      headerToken request.headers = .ok (some token) → FindsToken config request (.ok token)
  | inQuery {token : String} :
      (config.sources.header = true → headerToken request.headers = .ok none) →
      config.sources.query = true →
      queryToken? request.uri.query config.queryParam = some token →
      FindsToken config request (.ok token)
  | nowhere : (config.sources.header = true → headerToken request.headers = .ok none) →
      (config.sources.query = true → queryToken? request.uri.query config.queryParam = none) →
      FindsToken config request (.error .missingToken)

section Tokens

variable {config : GateConfig} {request : Request} {found : Except AuthError String}

lemma GateConfig.FindsToken.requestToken_eq (h : config.FindsToken request found) :
    requestToken config request = found := by
  cases h with
  | refused hon hheader => rw [requestToken, if_pos hon, hheader]
  | inHeader hon hheader => rw [requestToken, if_pos hon, hheader]
  | inQuery hnone hon hquery =>
    have hheader := ite_eq_right_iff.2 hnone
    rw [requestToken, hheader, if_pos hon, hquery]
  | nowhere hnone hquery =>
    have hheader := ite_eq_right_iff.2 hnone
    have hfield := ite_eq_right_iff.2 hquery
    rw [requestToken, hheader, hfield]

lemma GateConfig.exists_findsToken (config : GateConfig) (request : Request) :
    ∃ found, config.FindsToken request found := by
  -- What the query is asked for is the same whether the header is switched off or has no token.
  have hbehind (hnone : config.sources.header = true → headerToken request.headers = .ok none) :
      ∃ found, config.FindsToken request found := by
    by_cases hon : config.sources.query = true
    · cases hquery : queryToken? request.uri.query config.queryParam with
      | none => exact ⟨_, .nowhere hnone fun _ => hquery⟩
      | some token => exact ⟨_, .inQuery hnone hon hquery⟩
    · exact ⟨_, .nowhere hnone fun h => absurd h hon⟩
  by_cases hon : config.sources.header = true
  · rcases hheader : headerToken request.headers with e | _ | token
    · exact ⟨_, .refused hon hheader⟩
    · exact hbehind fun _ => hheader
    · exact ⟨_, .inHeader hon hheader⟩
  · exact hbehind fun h => absurd h hon

/-- Tokens are looked for in this way and no other. -/
theorem requestToken_eq_iff :
    requestToken config request = found ↔ config.FindsToken request found := by
  -- The ways to find a token exclude one another because what is found is computed, so it is enough
  -- that one of them always holds.
  refine ⟨?_, GateConfig.FindsToken.requestToken_eq⟩
  rintro rfl
  obtain ⟨found, h⟩ := config.exists_findsToken request
  rwa [h.requestToken_eq]

lemma GateConfig.carriesToken_of_requestToken {token : String}
    (h : requestToken config request = .ok token) : config.CarriesToken request token := by
  cases requestToken_eq_iff.1 h with
  | inHeader hon hheader => exact .inl ⟨hon, hheader⟩
  | inQuery hnone hon hquery => exact .inr ⟨hon, hquery⟩

end Tokens

namespace Gate

variable {σ : Type} {answer : (c : Call) → σ → c.Answer × σ} {s : σ} {gate : Gate} {now : Int}
  {request : Request} {Reply : Type} {serve : Option Principal → Flow Reply}
  {refuse : AuthError → Reply}

/-- What the gate decides on a request, and the state that its answers leave. -/
inductive Decides (gate : Gate) (now : Int) (request : Request)
    (answer : (c : Call) → σ → c.Answer × σ) (s : σ) : Except AuthError Outcome → σ → Prop
  | bypassed : gate.config.isBypassed request.method request.uri.path = true →
      Decides gate now request answer s (.ok .bypassed) s
  | unknown {e : AuthError} : gate.config.isBypassed request.method request.uri.path = false →
      gate.caller now request = .error e → Decides gate now request answer s (.error e) s
  | unavailable {user : Uuid} {e : ResolveError} {s' : σ} :
      gate.config.isBypassed request.method request.uri.path = false →
      gate.caller now request = .ok user →
      (Resolve.principal user).run answer s = (.error e, s') →
      Decides gate now request answer s (.error .principalUnavailable) s'
  | known {user : Uuid} {p : Principal} {s' : σ} :
      gate.config.isBypassed request.method request.uri.path = false →
      gate.caller now request = .ok user →
      (Resolve.principal user).run answer s = (.ok p, s') →
      Decides gate now request answer s (.ok (.authenticated p)) s'

lemma Decides.run_authenticate {decision : Except AuthError Outcome} {s' : σ}
    (h : gate.Decides now request answer s decision s') :
    (gate.authenticate now request).run answer s = (decision, s') := by
  cases h with
  | bypassed hbypass =>
    rw [authenticate, if_pos hbypass]
    rfl
  | unknown hbypass hcaller =>
    rw [authenticate, if_neg (Bool.eq_false_iff.1 hbypass), hcaller]
    rfl
  | unavailable hbypass hcaller hprincipal =>
    rw [authenticate, if_neg (Bool.eq_false_iff.1 hbypass), hcaller, Flow.run_bind, hprincipal]
    rfl
  | known hbypass hcaller hprincipal =>
    rw [authenticate, if_neg (Bool.eq_false_iff.1 hbypass), hcaller, Flow.run_bind, hprincipal]
    rfl

lemma exists_decides (gate : Gate) (now : Int) (request : Request)
    (answer : (c : Call) → σ → c.Answer × σ) (s : σ) :
    ∃ decision s', gate.Decides now request answer s decision s' := by
  cases hbypass : gate.config.isBypassed request.method request.uri.path with
  | true => exact ⟨_, _, .bypassed hbypass⟩
  | false =>
    cases hcaller : gate.caller now request with
    | error e => exact ⟨_, _, .unknown hbypass hcaller⟩
    | ok user =>
      rcases hprincipal : (Resolve.principal user).run answer s with ⟨e | p, s'⟩
      · exact ⟨_, _, .unavailable hbypass hcaller hprincipal⟩
      · exact ⟨_, _, .known hbypass hcaller hprincipal⟩

/-- The gate decides in this way and no other. -/
theorem run_authenticate_eq_iff {decision : Except AuthError Outcome} {s' : σ} :
    (gate.authenticate now request).run answer s = (decision, s') ↔
      gate.Decides now request answer s decision s' := by
  refine ⟨fun h => ?_, Decides.run_authenticate⟩
  obtain ⟨decision', s'', hdecides⟩ := gate.exists_decides now request answer s
  obtain ⟨rfl, rfl⟩ := Prod.mk.inj (hdecides.run_authenticate.symm.trans h)
  exact hdecides

lemma run_pass_error {e : AuthError} {s' : σ}
    (h : (gate.authenticate now request).run answer s = (.error e, s')) :
    (gate.pass now request serve refuse).run answer s = ((.error e, refuse e), s') := by
  rw [pass, Flow.run_bind, h]
  rfl

lemma run_pass_ok {outcome : Outcome} {s' : σ}
    (h : (gate.authenticate now request).run answer s = (.ok outcome, s')) :
    (gate.pass now request serve refuse).run answer s =
      ((.ok outcome, ((serve outcome.principal?).run answer s').1),
        ((serve outcome.principal?).run answer s').2) := by
  rw [pass, Flow.run_bind, h]
  simp only [Flow.run_bind, Flow.run_pure]

/-- What comes of a request that is not let in is its refusal. -/
lemma run_pass_of_error {e : AuthError}
    (h : ((gate.authenticate now request).run answer s).1 = .error e) :
    ((gate.pass now request serve refuse).run answer s).1 = (.error e, refuse e) := by
  rw [run_pass_error (Prod.ext h rfl)]

/-- What comes of a request that is let in is what comes of serving it. -/
lemma run_pass_of_ok {outcome : Outcome}
    (h : ((gate.authenticate now request).run answer s).1 = .ok outcome) :
    ((gate.pass now request serve refuse).run answer s).1 =
      (.ok outcome, ((serve outcome.principal?).run answer
        ((gate.authenticate now request).run answer s).2).1) := by
  rw [run_pass_ok (Prod.ext h rfl)]

lemma run_pass_bypassed (h : gate.config.isBypassed request.method request.uri.path = true) :
    (gate.pass now request serve refuse).run answer s =
      ((.ok .bypassed, ((serve none).run answer s).1), ((serve none).run answer s).2) :=
  run_pass_ok (Decides.bypassed h).run_authenticate

variable (answer s now serve refuse) in
/-- A request that is not bypassed is refused, or served for the principal of its caller. -/
lemma run_pass (h : gate.config.isBypassed request.method request.uri.path = false) :
    (∃ e, ((gate.pass now request serve refuse).run answer s).1 = (.error e, refuse e)) ∨
      ∃ user p, gate.caller now request = .ok user ∧
        ((Resolve.principal user).run answer s).1 = .ok p ∧
        ((gate.pass now request serve refuse).run answer s).1 =
          (.ok (.authenticated p),
            ((serve (some p)).run answer ((Resolve.principal user).run answer s).2).1) := by
  obtain ⟨decision, s', hdecides⟩ := gate.exists_decides now request answer s
  have hrun := hdecides.run_authenticate
  cases hdecides with
  | bypassed hbypass => exact absurd (h.symm.trans hbypass) Bool.false_ne_true
  | unknown _ _ => exact .inl ⟨_, congrArg Prod.fst (run_pass_error hrun)⟩
  | unavailable _ _ _ => exact .inl ⟨_, congrArg Prod.fst (run_pass_error hrun)⟩
  | @known user p _ _ hcaller hprincipal =>
    refine .inr ⟨user, p, hcaller, congrArg Prod.fst hprincipal, ?_⟩
    rw [run_pass_ok hrun, hprincipal]
    rfl

/-- Where the caller is not known, the request is refused. -/
lemma run_pass_refused (h : gate.config.isBypassed request.method request.uri.path = false)
    {e : AuthError} (hcaller : gate.caller now request = .error e) :
    (gate.pass now request serve refuse).run answer s = ((.error e, refuse e), s) :=
  run_pass_error (Decides.unknown h hcaller).run_authenticate

/-- Where the caller is known and resolved, the request is served for their principal. -/
lemma run_pass_served (h : gate.config.isBypassed request.method request.uri.path = false)
    {user : Uuid} {p : Principal} {s' : σ} (hcaller : gate.caller now request = .ok user)
    (hprincipal : (Resolve.principal user).run answer s = (.ok p, s')) :
    (gate.pass now request serve refuse).run answer s =
      ((.ok (.authenticated p), ((serve (some p)).run answer s').1),
        ((serve (some p)).run answer s').2) :=
  run_pass_ok (Decides.known h hcaller hprincipal).run_authenticate

/-- A caller is known by an accepted token from a place where tokens are looked for. -/
lemma of_caller {user : Uuid} (h : gate.caller now request = .ok user) :
    ∃ token claims, requestToken gate.config request = .ok token ∧
      gate.config.CarriesToken request token ∧
      gate.tokens.validate now token = .ok claims ∧ claims.user = .ok user := by
  unfold caller at h
  split at h
  · exact nomatch h
  · next token htoken =>
    split at h
    · exact nomatch h
    · next claims hclaims =>
      have hcarried := GateConfig.carriesToken_of_requestToken htoken
      exact ⟨token, claims, htoken, hcarried, hclaims, h⟩

end Gate

/-! ## The records in use -/

namespace Shelf

variable {Op : Type} [Storage Op]

/-- The records that requests to the store at a place are answered from, unless they fail. -/
def tableAt? (installed : List (Backing Op)) (place : Nat) : Option (Storage.Table Op) :=
  match installed[place]? with
  | some (.memory table) => some table
  | some (.faulty _ inner) => if inner < place then tableAt? installed inner else none
  | _ => none
termination_by place

/-- A store does not pass requests on to those installed after it. -/
lemma tableAt?_set (installed : List (Backing Op)) (backing : Backing Op) (later : Nat)
    (place : Nat) (h : place < later) :
    tableAt? (installed.set later backing) place = tableAt? installed place := by
  -- A store that fails passes on to one before it, which may itself be such a one, so the induction
  -- is on the place.
  induction place using Nat.strongRecOn with
  | ind place ih =>
    unfold tableAt?
    rw [List.getElem?_set_ne (Nat.ne_of_gt h)]
    rcases installed[place]? with _ | table | ⟨rules, inner⟩ | _
    · rfl
    · rfl
    · by_cases hinner : inner < place
      · simp only [if_pos hinner]
        exact ih inner hinner (Nat.lt_trans hinner h)
      · simp only [if_neg hinner]
    · rfl

/-- An answer that is no failure comes from the records. -/
lemma of_callAt_ok (place : Nat) (op : Op) {reply : Storage.Reply op} :
    ∀ {installed : List (Backing Op)}, (callAt installed place op).1 = .ok reply →
      ∃ table, tableAt? installed place = some table ∧ (Storage.step table op).1 = .ok reply := by
  -- The failures that are left change with each call, so the installed stores vary along the
  -- induction.
  induction place using Nat.strongRecOn with
  | ind place ih =>
    intro installed h
    unfold callAt at h
    unfold tableAt?
    rcases hplace : installed[place]? with _ | table | ⟨rules, inner⟩ | _
    · simp only [hplace] at h
      cases h
    · simp only [hplace] at h
      exact ⟨table, rfl, h⟩
    · simp only [hplace] at h
      rcases htrip : FaultRule.trip (Storage.action op) (Storage.subject? op) rules with
        ⟨_ | e, rules'⟩
      · by_cases hinner : inner < place
        · simp only [htrip, if_pos hinner] at h
          obtain ⟨table, htable, hstep⟩ := ih inner hinner h
          rw [tableAt?_set _ _ _ _ hinner] at htable
          exact ⟨table, (if_pos hinner).trans htable, hstep⟩
        · simp only [htrip, if_neg hinner] at h
          cases h
      · simp only [htrip] at h
        cases h
    · simp only [hplace] at h
      cases h

end Shelf

/-- The user is in the records that requests to the user store in use are answered from. -/
def Stores.HasUser (stores : Stores) (user : User) : Prop :=
  ∃ table : UserTable,
    Shelf.tableAt? stores.users.installed stores.users.inUse.current = some table ∧ user ∈ table

/-- A user that is found is stored under the id that was asked for. -/
lemma Stores.hasUser_of_find {stores : Stores} {id : Uuid} {user : User}
    (h : (answer (.users stores.users.inUse.current (.find id)) stores).1 = .ok (some user)) :
    user.id = id ∧ stores.HasUser user := by
  obtain ⟨table, htable, hstep⟩ :=
    Shelf.of_callAt_ok stores.users.inUse.current (UserOp.find id) h
  have hfind : List.find? (fun u => u.id == id) table = some user := Except.ok.inj hstep
  have hid := List.find?_some (p := fun u : User => u.id == id) hfind
  exact ⟨beq_iff_eq.1 hid, table, htable, List.mem_of_find?_eq_some hfind⟩

/-- A principal that was resolved is of a stored user with the id that was asked for. -/
lemma Resolve.of_principal_ok {stores : Stores} {id : Uuid} {p : Principal}
    (h : ((principal id).run Stores.answer stores).1 = .ok p) :
    p.user.id = id ∧ stores.HasUser p.user := by
  unfold principal at h
  simp only [Flow.run_bind] at h
  have hrun : (Flow.users (Flow.usersInUse.run Stores.answer stores).1 (.find id)).run Stores.answer
      (Flow.usersInUse.run Stores.answer stores).2 =
        Stores.answer (.users stores.users.inUse.current (.find id)) stores := rfl
  rw [hrun] at h
  rcases hfound : (Stores.answer (.users stores.users.inUse.current (.find id)) stores).1 with
    e | _ | user
  · rw [hfound] at h
    exact nomatch h
  · rw [hfound] at h
    exact nomatch h
  · rw [hfound] at h
    obtain ⟨hid, hstored⟩ := Stores.hasUser_of_find hfound
    simp only [Flow.run_bind] at h
    split at h
    · exact nomatch h
    · obtain rfl := Except.ok.inj h
      exact ⟨hid, hstored⟩

end Gatehouse
