import Gatehouse.Proofs.Tables

/-!
# Roles are loaded whole or not at all

The permissions of a user's roles are looked up role by role, and a store may answer one look-up and
fail at the next one, even about the same role.  So nothing is assumed of whoever answers:
`Resolve.lookUps` is what it says when it is asked about all the roles in turn, and the loading is
compared with that.  Either every look-up is answered, and each role goes with the answer it got
(`Resolve.run_withPermissions_eq_ok`), or the loading ends with the first look-up that fails
(`Resolve.withPermissions_fails`).  A principal is loaded the same way, so one that is there has all
the roles that the role store named.
-/

namespace Gatehouse

variable {σ : Type} (answer : (c : Call) → σ → c.Answer × σ)

/-- The steps that a flow takes, without what they were answered. -/
def Flow.calls {α : Type} (m : Flow α) (s : σ) : List Call := (m.steps answer s).map Sigma.fst

namespace Resolve

/-! ## What is answered -/

/-- The step that looks up the permissions of a role. -/
abbrev lookUp (place : Nat) (role : Role) : Call := .permissions place (.carriedBy role.id)

/-- What a permission store answers when it is asked about roles one after the other. -/
def lookUps (place : Nat) : List Role → σ → List (Except StoreError (List Permission))
  | [], _ => []
  | role :: rest, s =>
    (answer (lookUp place role) s).1 :: lookUps place rest (answer (lookUp place role) s).2

/-- What the permission store in use answers when it is asked about roles one after the other. -/
def permissionsFound (roles : List Role) (s : σ) : List (Except StoreError (List Permission)) :=
  lookUps answer (answer .permissionsInUse s).1 roles (answer .permissionsInUse s).2

/-- What the role store in use answers when it is asked about a user, and the state after it. -/
def rolesFound (user : Uuid) (s : σ) : Except StoreError (List Role) × σ :=
  answer (.roles (answer .rolesInUse s).1 (.heldBy user)) (answer .rolesInUse s).2

/-- What the user store in use answers when it is asked for a user, and the state after it. -/
def userFound (user : Uuid) (s : σ) : Except StoreError (Option User) × σ :=
  answer (.users (answer .usersInUse s).1 (.find user)) (answer .usersInUse s).2

/-! ## Looking up one role after the other -/

variable {answer} {s : σ} {place : Nat} {role : Role} {rest : List Role}

lemma withPermissions_cons (place : Nat) (role : Role) (rest : List Role) :
    withPermissions place (role :: rest) = .call (lookUp place role) fun
      | .error e => .done (.error e)
      | .ok permissions => withPermissions place rest >>= fun
        | .error e => .done (.error e)
        | .ok held => .done (.ok (⟨role, permissions⟩ :: held)) := by
  refine congrArg (Flow.call _) (funext fun found => ?_)
  cases found with
  | error e => rfl
  | ok permissions => exact congrArg (withPermissions place rest >>= ·) (funext fun
      | .error _ => rfl
      | .ok _ => rfl)

/-- A look-up that fails ends the loading. -/
lemma withPermissions_of_error {e : StoreError}
    (h : (answer (lookUp place role) s).1 = .error e) :
    ((withPermissions place (role :: rest)).run answer s).1 = .error e ∧
      (withPermissions place (role :: rest)).calls answer s = [lookUp place role] := by
  rw [withPermissions_cons, Flow.calls, Flow.run_call, Flow.steps_call, h]
  exact ⟨rfl, rfl⟩

/-- What a look-up finds goes with its role, before what the others find. -/
lemma withPermissions_of_ok {permissions : List Permission}
    (h : (answer (lookUp place role) s).1 = .ok permissions) :
    ((withPermissions place (role :: rest)).run answer s).1 =
        ((withPermissions place rest).run answer (answer (lookUp place role) s).2).1.map
          (⟨role, permissions⟩ :: ·) ∧
      (withPermissions place (role :: rest)).calls answer s =
        lookUp place role ::
          (withPermissions place rest).calls answer (answer (lookUp place role) s).2 := by
  rw [withPermissions_cons, Flow.calls, Flow.calls, Flow.run_call, Flow.steps_call, h]
  simp only [Flow.run_bind, Flow.steps_bind]
  cases ((withPermissions place rest).run answer (answer (lookUp place role) s).2).1 with
  | error e => exact ⟨rfl, by simp [Flow.steps]⟩
  | ok held => exact ⟨rfl, by simp [Flow.steps]⟩

/-- Whoever is loaded has every role, each with what the look-up for it found. -/
theorem run_withPermissions_eq_ok (roles : List Role) :
    ∀ {s : σ} {held : List HeldRole}, ((withPermissions place roles).run answer s).1 = .ok held →
      held.map HeldRole.role = roles ∧
        held.map (fun h => .ok h.permissions) = lookUps answer place roles s := by
  induction roles with
  | nil =>
    intro s held h
    obtain rfl : [] = held := Except.ok.inj h
    exact ⟨rfl, rfl⟩
  | cons role rest ih =>
    intro s held h
    cases hfound : (answer (lookUp place role) s).1 with
    | error e => exact nomatch (withPermissions_of_error hfound).1.symm.trans h
    | ok permissions =>
      rw [(withPermissions_of_ok hfound).1] at h
      generalize hlater : (answer (lookUp place role) s).2 = s' at h
      cases hrest : ((withPermissions place rest).run answer s').1 with
      | error e =>
        rw [hrest] at h
        exact nomatch h
      | ok others =>
        rw [hrest] at h
        obtain rfl : ⟨role, permissions⟩ :: others = held := Except.ok.inj h
        obtain ⟨hroles, hfounds⟩ := ih hrest
        rw [List.map_cons, List.map_cons, hroles, hfounds, lookUps, hfound, hlater]
        exact ⟨rfl, rfl⟩

/-- When every look-up is answered, the roles are loaded. -/
lemma exists_held_of_lookUps (roles : List Role) :
    ∀ {s : σ}, (∀ result ∈ lookUps answer place roles s, ∃ permissions, result = .ok permissions) →
      ∃ held, ((withPermissions place roles).run answer s).1 = .ok held := by
  induction roles with
  | nil => exact fun _ => ⟨[], rfl⟩
  | cons role rest ih =>
    intro s h
    rw [lookUps, List.forall_mem_cons] at h
    obtain ⟨⟨permissions, hfound⟩, hothers⟩ := h
    obtain ⟨held, hrest⟩ := ih hothers
    exact ⟨⟨role, permissions⟩ :: held, by rw [(withPermissions_of_ok hfound).1, hrest]; rfl⟩

/-- The loading ends with the first look-up that fails, and no role behind is looked up. -/
theorem withPermissions_fails (roles : List Role) :
    ∀ {s : σ} {i : Nat} {e : StoreError},
      (lookUps answer place roles s)[i]? = some (.error e) →
      (∀ j < i, ∃ permissions, (lookUps answer place roles s)[j]? = some (.ok permissions)) →
        ((withPermissions place roles).run answer s).1 = .error e ∧
          (withPermissions place roles).calls answer s =
            (roles.take (i + 1)).map (lookUp place) := by
  induction roles with
  | nil => exact fun h => nomatch h
  | cons role rest ih =>
    intro s i e hfails hbefore
    -- The failure is that of the first look-up, or of one behind it, and then the first one
    -- succeeds.
    cases i with
    | zero => exact withPermissions_of_error (Option.some.inj hfails)
    | succ i =>
      obtain ⟨permissions, hfirst⟩ := hbefore 0 i.succ_pos
      have hfound : (answer (lookUp place role) s).1 = .ok permissions := Option.some.inj hfirst
      obtain ⟨hrun, hcalls⟩ := ih hfails fun j hj => hbefore (j + 1) (Nat.succ_lt_succ hj)
      rw [(withPermissions_of_ok hfound).1, (withPermissions_of_ok hfound).2, hrun, hcalls]
      exact ⟨rfl, rfl⟩

/-! ## Loading the roles of a user -/

/-- How the loading goes on once the role store has answered. -/
def loadFound : Except StoreError (List Role) → Flow (Except StoreError (List HeldRole))
  | .error e => .done (.error e)
  | .ok [] => .done (.ok [])
  | .ok (role :: rest) =>
    .call .permissionsInUse fun place => withPermissions place (role :: rest)

lemma loadFound_of_ne_nil {roles : List Role} (h : roles ≠ []) :
    loadFound (.ok roles) =
      .call .permissionsInUse fun place => withPermissions place roles := by
  obtain ⟨role, rest, rfl⟩ := List.exists_cons_of_ne_nil h
  rfl

lemma rolesOf_eq (user : Uuid) :
    rolesOf user =
      .call .rolesInUse fun place => .call (.roles place (.heldBy user)) loadFound := by
  refine congrArg (Flow.call _) (funext fun _ => congrArg (Flow.call _) (funext fun found => ?_))
  obtain e | _ | ⟨role, rest⟩ := found <;> rfl

variable {user : Uuid}

lemma run_rolesOf_found (answer : (c : Call) → σ → c.Answer × σ) (user : Uuid) (s : σ) :
    (rolesOf user).run answer s =
      (loadFound (rolesFound answer user s).1).run answer (rolesFound answer user s).2 := by
  rw [rolesOf_eq]
  rfl

lemma calls_rolesOf_found (answer : (c : Call) → σ → c.Answer × σ) (user : Uuid) (s : σ) :
    (rolesOf user).calls answer s =
      .rolesInUse :: .roles (answer .rolesInUse s).1 (.heldBy user) ::
        (loadFound (rolesFound answer user s).1).calls answer (rolesFound answer user s).2 := by
  rw [rolesOf_eq]
  rfl

/-- The roles that are loaded are those that the role store named. -/
lemma roles_of_rolesOf {held : List HeldRole} (h : ((rolesOf user).run answer s).1 = .ok held) :
    (rolesFound answer user s).1 = .ok (held.map HeldRole.role) := by
  rw [run_rolesOf_found] at h
  rcases hfound : (rolesFound answer user s).1 with e | _ | ⟨role, rest⟩
  · rw [hfound] at h
    exact nomatch h
  · rw [hfound] at h
    obtain rfl : [] = held := Except.ok.inj h
    rfl
  · rw [hfound] at h
    rw [(run_withPermissions_eq_ok (role :: rest) h).1]

/-! ## Loading a principal -/

/-- How the loading of a principal goes on once the user store has answered. -/
def loadUser : Except StoreError (Option User) → Flow (Except ResolveError Principal)
  | .error e => .done (.error (.store e))
  | .ok none => .done (.error .userNotFound)
  | .ok (some u) => rolesOf u.id >>= fun
    | .error e => .done (.error (.store e))
    | .ok held => .done (.ok ⟨u, held⟩)

lemma principal_eq (user : Uuid) :
    principal user = .call .usersInUse fun place => .call (.users place (.find user)) loadUser := by
  refine congrArg (Flow.call _) (funext fun _ => congrArg (Flow.call _) (funext fun found => ?_))
  obtain e | _ | u := found
  · rfl
  · rfl
  · exact congrArg (rolesOf u.id >>= ·) (funext fun
      | .error _ => rfl
      | .ok _ => rfl)

lemma run_principal_of_found (answer : (c : Call) → σ → c.Answer × σ) (user : Uuid) (s : σ) :
    (principal user).run answer s =
      (loadUser (userFound answer user s).1).run answer (userFound answer user s).2 := by
  rw [principal_eq]
  rfl

/-- Where the roles of a user fail to load, so does the principal. -/
lemma principal_of_error {u : User} {e : StoreError}
    (hfound : (userFound answer user s).1 = .ok (some u))
    (h : ((rolesOf u.id).run answer (userFound answer user s).2).1 = .error e) :
    ((principal user).run answer s).1 = .error (.store e) := by
  rw [run_principal_of_found, hfound, loadUser, Flow.run_bind, h]
  rfl

/-- A principal is the user that was found with all the roles that the role store named. -/
lemma of_principal {p : Principal} (h : ((principal user).run answer s).1 = .ok p) :
    (userFound answer user s).1 = .ok (some p.user) ∧
      (rolesFound answer p.user.id (userFound answer user s).2).1 =
        .ok (p.roles.map HeldRole.role) := by
  rw [run_principal_of_found] at h
  rcases hfound : (userFound answer user s).1 with e | _ | u
  · rw [hfound] at h
    exact nomatch h
  · rw [hfound] at h
    exact nomatch h
  · rw [hfound, loadUser, Flow.run_bind] at h
    cases hroles : ((rolesOf u.id).run answer (userFound answer user s).2).1 with
    | error e =>
      rw [hroles] at h
      exact nomatch h
    | ok held =>
      rw [hroles] at h
      obtain rfl : ⟨u, held⟩ = p := Except.ok.inj h
      exact ⟨rfl, roles_of_rolesOf hroles⟩

/-! ## Whole or not at all -/

/-- Whoever answers, and whatever is answered from one look-up to the next: the roles of a user are
loaded whole, each with what was found for it, or not at all, with the first failure and no look-up
behind it.  A principal is loaded with all the roles that the role store named, or fails with the
same failure. -/
theorem roles_loaded_whole {σ : Type} (answer : (c : Call) → σ → c.Answer × σ) (s : σ)
    (user : Uuid) :
    let found := rolesFound answer user s
    let outcome := ((rolesOf user).run answer s).1
    let calls := (rolesOf user).calls answer s
    let first : List Call := [.rolesInUse, .roles (answer .rolesInUse s).1 (.heldBy user)]
    (∀ e, found.1 = .error e → outcome = .error e ∧ calls = first) ∧
      (found.1 = .ok [] → outcome = .ok [] ∧ calls = first) ∧
      (∀ roles, found.1 = .ok roles → roles ≠ [] →
        let results := permissionsFound answer roles found.2
        ((∃ held, outcome = .ok held) ↔
            ∀ result ∈ results, ∃ permissions, result = .ok permissions) ∧
          (∀ held, outcome = .ok held →
            held.map HeldRole.role = roles ∧ held.map (fun h => .ok h.permissions) = results) ∧
          ∀ i e, results[i]? = some (.error e) →
            (∀ j < i, ∃ permissions, results[j]? = some (.ok permissions)) →
              outcome = .error e ∧
                calls = first ++ .permissionsInUse ::
                  (roles.take (i + 1)).map (lookUp (answer .permissionsInUse found.2).1)) ∧
      ∀ asked, (∀ u e, (userFound answer asked s).1 = .ok (some u) →
          ((rolesOf u.id).run answer (userFound answer asked s).2).1 = .error e →
            ((principal asked).run answer s).1 = .error (.store e)) ∧
        ∀ p, ((principal asked).run answer s).1 = .ok p →
          (userFound answer asked s).1 = .ok (some p.user) ∧
            (rolesFound answer p.user.id (userFound answer asked s).2).1 =
              .ok (p.roles.map HeldRole.role) := by
  intro found outcome calls first
  have houtcome : outcome = ((loadFound found.1).run answer found.2).1 :=
    congrArg Prod.fst (run_rolesOf_found answer user s)
  have hcalls : calls = first ++ (loadFound found.1).calls answer found.2 :=
    calls_rolesOf_found answer user s
  refine ⟨?_, ?_, ?_, fun asked => ⟨fun u e => principal_of_error, fun p => of_principal⟩⟩
  · intro e hfound
    rw [houtcome, hcalls, hfound]
    exact ⟨rfl, rfl⟩
  · intro hfound
    rw [houtcome, hcalls, hfound]
    exact ⟨rfl, rfl⟩
  · intro roles hfound hne results
    have hrun : outcome = ((withPermissions (answer .permissionsInUse found.2).1 roles).run answer
        (answer .permissionsInUse found.2).2).1 := by
      rw [houtcome, hfound, loadFound_of_ne_nil hne]
      rfl
    have hlater : calls = first ++ .permissionsInUse :: (withPermissions
        (answer .permissionsInUse found.2).1 roles).calls answer
          (answer .permissionsInUse found.2).2 := by
      rw [hcalls, hfound, loadFound_of_ne_nil hne]
      rfl
    -- What was loaded tells every look-up, which gives one direction of the equivalence as well.
    have hwhole : ∀ held, outcome = .ok held →
        held.map HeldRole.role = roles ∧ held.map (fun h => .ok h.permissions) = results :=
      fun held h => run_withPermissions_eq_ok roles (hrun.symm.trans h)
    refine ⟨⟨?_, ?_⟩, hwhole, ?_⟩
    · rintro ⟨held, h⟩ result hresult
      rw [← (hwhole held h).2] at hresult
      obtain ⟨one, -, rfl⟩ := List.mem_map.1 hresult
      exact ⟨one.permissions, rfl⟩
    · intro hall
      rw [hrun]
      exact exists_held_of_lookUps roles hall
    · intro i e hfails hbefore
      obtain ⟨hfailed, hlookedUp⟩ := withPermissions_fails roles hfails hbefore
      rw [hrun, hlater, hlookedUp]
      exact ⟨hfailed, rfl⟩

/-- A role is held three times over, and the permission store fails when it is asked about it for
the second time: nothing is loaded, and it is not asked for the third time. -/
theorem roles_loaded_whole_or_failed :
    let user := User.make (.ofNat 1) "ann@example.org" "Ann" "Lee" default
    let role := Role.make (.ofNat 2) "role" "" default
    let t : Tables := ⟨[user], ⟨[role], List.replicate 3 (user.id, role.id)⟩, .empty⟩
    let rule : FaultRule PermissionAction := ⟨some .carriedBy, none, 1, .backend "down", 0⟩
    let stores := (t.stores.replacePermissions (.faulty [rule] 0)).1
    ((rolesOf user.id).run Stores.answer stores).1 = .error (.backend "down") ∧
      (rolesOf user.id).calls Stores.answer stores =
        [.rolesInUse, .roles 0 (.heldBy user.id), .permissionsInUse, lookUp 1 role, lookUp 1 role] ∧
      ((principal user.id).run Stores.answer stores).1 = .error (.store (.backend "down")) := by
  intro user role t rule stores
  obtain ⟨-, -, hroles, hprincipal⟩ := roles_loaded_whole Stores.answer stores user.id
  have hfound : (rolesFound Stores.answer user.id stores).1 = .ok [role, role, role] := by
    with_unfolding_all rfl
  obtain ⟨hfailed, hcalls⟩ := (hroles _ hfound (List.cons_ne_nil _ _)).2.2 1 (.backend "down")
    (by with_unfolding_all rfl) fun j hj => ⟨[], by
      obtain rfl : j = 0 := Nat.lt_one_iff.1 hj
      with_unfolding_all rfl⟩
  have hsame : (userFound Stores.answer user.id stores).2 = stores := by with_unfolding_all rfl
  refine ⟨hfailed, hcalls, (hprincipal user.id).1 user (.backend "down") ?_ ?_⟩
  · with_unfolding_all rfl
  · rw [hsame]
    exact hfailed

end Resolve

end Gatehouse
