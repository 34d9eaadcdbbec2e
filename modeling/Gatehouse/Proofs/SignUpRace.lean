import Gatehouse.Proofs.Accounts
import Gatehouse.Proofs.Race
import Mathlib.Data.Fin.VecNotation

/-!
# Sign-ups served side by side

A sign-up asks whether its email has an account before it creates one, and between the two steps
another sign-up for the same email may have created it.  The question is therefore not what keeps
two of them from having an account each; the creation does, since it looks at the emails again,
and its refusal is sent as the same status as the answer to the question.

What every step keeps is said without regard to the order of the steps.  `Standing` says where one
sign-up is: what it claims about the records is that its account, or some account with its email,
is there, and that stays true however the others go on, because users are only ever added
(`Standing.mono`).  `SigningUp` adds that every user was there to begin with or belongs to a
sign-up that is done.
-/

namespace Gatehouse

open Http Text

/-! ## One sign-up -/

/-- The user that a sign-up asks for, where what was submitted is accepted. -/
def Visit.user? (visit : Visit) : Option User :=
  match NewUser.form.ofBody visit.request with
  | .error _ => none
  | .ok submitted =>
    match submitted.validate with
    | .error _ => none
    | .ok () => some (submitted.user (visit.occasion.ids 0) visit.occasion.now.instant)

/-- The email that a sign-up asks for, as it is kept.  A sign-up comes by it only when what was
submitted is accepted. -/
def Visit.email? (visit : Visit) : Option String := visit.user?.map User.email

/-- What a server opens for a user who signs up. -/
def Server.account (server : Server) (visit : Visit) (user : User) : OpenedAccount :=
  ⟨user, server.gate.tokens.issue user.id visit.occasion.now⟩

namespace Visit

variable {visit : Visit}

lemma user?_eq_some_iff {user : User} :
    visit.user? = some user ↔ ∃ submitted, NewUser.form.ofBody visit.request = .ok submitted ∧
      submitted.validate = .ok () ∧
      submitted.user (visit.occasion.ids 0) visit.occasion.now.instant = user := by
  unfold user?
  cases NewUser.form.ofBody visit.request with
  | error e => simp
  | ok submitted => cases hvalid : submitted.validate <;> simp [hvalid]

lemma id_of_user? {user : User} (h : visit.user? = some user) :
    user.id = visit.occasion.ids 0 := by
  obtain ⟨submitted, -, -, rfl⟩ := user?_eq_some_iff.1 h
  rfl

end Visit

/-! ## Its steps -/

namespace SignUp

/-- The reply to a sign-up that comes to this. -/
def ending (result : Except ServiceError OpenedAccount) : Reply :=
  ⟨respond 201 OpenedAccount.toJson result, result.isOk⟩

/-- The end, once the creation of the account was answered. -/
def created (account : OpenedAccount) : Except StoreError Unit → Flow Reply
  | .error e => .done (ending (.error (.ofStore e)))
  | .ok () => .done (ending (.ok account))

/-- What is left, once it is known whether the email has an account. -/
def lookedUp (account : OpenedAccount) (place : Nat) :
    Except StoreError (Option User) → Flow Reply
  | .error e => .done (ending (.error (.ofStore e)))
  | .ok (some _) => .done (ending (.error (.emailTaken account.user.email)))
  | .ok none => .call (.users place (.create account.user)) (created account)

/-- What is left, once it is known which user store is in use. -/
def entered (account : OpenedAccount) (place : Nat) : Flow Reply :=
  .call (.users place (.findByEmail account.user.email)) (lookedUp account place)

end SignUp

namespace Server

open SignUp

variable {visit : Visit}

/-- A sign-up with fields that are accepted takes three steps at most. -/
lemma postUser_of_user? (server : Server) {user : User} (h : visit.user? = some user) :
    server.postUser visit.occasion visit.request =
      .call .usersInUse (entered (server.account visit user)) := by
  obtain ⟨submitted, hbody, hvalid, rfl⟩ := Visit.user?_eq_some_iff.1 h
  simp only [postUser, hbody, signUp, hvalid]
  refine congrArg (Flow.call .usersInUse) (funext fun place => ?_)
  refine congrArg (Flow.call (.users place _)) (funext fun found => ?_)
  obtain e | _ | u := found
  · rfl
  · refine congrArg (Flow.call (.users place _)) (funext fun answer => ?_)
    obtain e | _ := answer
    · rfl
    · rfl
  · rfl

/-- A sign-up with fields that are not accepted takes none. -/
lemma postUser_of_no_user (server : Server) (h : visit.user? = none) :
    ∃ reply : Reply, server.postUser visit.occasion visit.request = .done reply ∧
      400 ≤ reply.response.status ∧ reply.opened = false := by
  unfold postUser
  cases hbody : NewUser.form.ofBody visit.request with
  | error e => exact ⟨_, rfl, e.refuses, rfl⟩
  | ok submitted =>
    unfold signUp
    cases hvalid : submitted.validate with
    | error e =>
      simp only [hvalid]
      exact ⟨ending (.error e), rfl, e.refuses, rfl⟩
    | ok _ =>
      have huser := Visit.user?_eq_some_iff.2 ⟨submitted, hbody, hvalid, rfl⟩
      exact nomatch h.symm.trans huser

end Server

/-! ## Where a sign-up is -/

/-- What a sign-up has yet to do, while the users are these. -/
inductive Standing (server : Server) (visit : Visit) (users : UserTable) : Flow Reply → Prop
  | refused {reply : Reply} : visit.user? = none → 400 ≤ reply.response.status →
      reply.opened = false → Standing server visit users (.done reply)
  | entering {user : User} : visit.user? = some user →
      Standing server visit users
        (.call .usersInUse (SignUp.entered (server.account visit user)))
  | lookingUp {user : User} : visit.user? = some user →
      Standing server visit users
        (.call (.users 0 (.findByEmail user.email)) (SignUp.lookedUp (server.account visit user) 0))
  | creating {user : User} : visit.user? = some user →
      Standing server visit users
        (.call (.users 0 (.create user)) (SignUp.created (server.account visit user)))
  | opened {user : User} : visit.user? = some user → user ∈ users →
      Standing server visit users (.done (SignUp.ending (.ok (server.account visit user))))
  | taken {user : User} {e : ServiceError} : visit.user? = some user →
      user.email ∈ users.emails → e.response.status = 409 →
      Standing server visit users (.done (SignUp.ending (.error e)))

namespace Standing

variable {server : Server} {visit : Visit} {users users' : UserTable} {flow : Flow Reply}

lemma start (server : Server) (visit : Visit) (users : UserTable) :
    Standing server visit users (server.postUser visit.occasion visit.request) := by
  cases huser : visit.user? with
  | none =>
    obtain ⟨reply, hreply, hstatus, hopened⟩ := server.postUser_of_no_user huser
    rw [hreply]
    exact .refused huser hstatus hopened
  | some user =>
    rw [server.postUser_of_user? huser]
    exact .entering huser

/-- What the others add does not concern it. -/
lemma mono (h : Standing server visit users flow) (hsub : users ⊆ users') :
    Standing server visit users' flow := by
  cases h with
  | refused huser hstatus hopened => exact .refused huser hstatus hopened
  | entering huser => exact .entering huser
  | lookingUp huser => exact .lookingUp huser
  | creating huser => exact .creating huser
  | opened huser hmem => exact .opened huser (hsub hmem)
  | taken huser hemail hstatus => exact .taken huser (List.map_subset _ hsub hemail) hstatus

/-- A step of a sign-up whose id is not in use changes nothing, or is the creation of its account
and the last step. -/
lemma step {t : Tables} {c : Call} {next : c.Answer → Flow Reply}
    (h : Standing server visit t.users (.call c next))
    (hid : visit.occasion.ids 0 ∉ t.users.ids) :
    ((Tables.answer c t).2 = t ∧ Standing server visit t.users (next (Tables.answer c t).1)) ∨
      ∃ user, visit.user? = some user ∧ user.email ∉ t.users.emails ∧
        (Tables.answer c t).2 = t.withUsers (t.users ++ [user]) ∧
        next (Tables.answer c t).1 =
          .done (SignUp.ending (.ok (server.account visit user))) := by
  cases h with
  | entering huser => exact .inl ⟨rfl, .lookingUp huser⟩
  | @lookingUp user huser =>
    refine .inl ⟨rfl, ?_⟩
    have hanswer : (Tables.answer (.users 0 (.findByEmail user.email)) t).1 =
        .ok (t.users.findByEmail? user.email) := rfl
    rw [hanswer]
    -- What the look-up finds may have been added by another sign-up since this one began.
    cases hfind : t.users.findByEmail? user.email with
    | none => exact .creating huser
    | some other =>
      have hemail : user.email ∈ t.users.emails :=
        find?_key_isSome.1 (Option.isSome_of_eq_some hfind)
      exact .taken huser hemail rfl
  | @creating user huser =>
    have hanswer : Tables.answer (.users 0 (.create user)) t =
        ((t.users.create user).1, t.withUsers (t.users.create user).2) := rfl
    have hnew : user.id ∉ t.users.ids := by
      rw [visit.id_of_user? huser]
      exact hid
    -- The email was free when it was looked up and need not be so any more; that is what the store
    -- compares once more.
    rw [hanswer, t.users.create_eq user]
    by_cases hemail : user.email ∈ t.users.emails
    · rw [if_pos (.inr hemail)]
      exact .inl ⟨rfl, .taken huser hemail rfl⟩
    · rw [if_neg (not_or.2 ⟨hnew, hemail⟩)]
      exact .inr ⟨user, huser, hemail, rfl, rfl⟩

end Standing

/-! ## All sign-ups -/

section Race

variable {n : ℕ}

/-- Sign-ups to be served side by side, none of them begun. -/
def signUpRace {σ : Type} (server : Server) (visits : Fin n → Visit) (s : σ) :
    Race (Fin n) Reply σ :=
  ⟨fun i => server.postUser (visits i).occasion (visits i).request, s, []⟩

/-- Sign-ups race on stores in memory as they do on their tables. -/
lemma signUpRace_stores (server : Server) (visits : Fin n → Visit) (t : Tables)
    (schedule : List (Fin n)) :
    (signUpRace server visits t.stores).run Stores.answer schedule =
      ((signUpRace server visits t).run Tables.answer schedule).mapState Tables.stores :=
  Race.run_stores schedule (signUpRace server visits t)

/-- The sign-ups are somewhere on their way, and whoever joined the users belongs to one that is
done. -/
structure SigningUp (server : Server) (visits : Fin n → Visit) (before : Tables)
    (race : Race (Fin n) Reply Tables) : Prop where
  standing : ∀ i, Standing server (visits i) race.state.users (race.flows i)
  emails : race.state.users.emails.Nodup
  owners : ∀ user ∈ race.state.users, user ∈ before.users ∨ ∃ i,
    (visits i).user? = some user ∧
      race.flows i = .done (SignUp.ending (.ok (server.account (visits i) user)))

/-- Every sign-up has a new id of its own. -/
structure FreshIds (visits : Fin n → Visit) (before : Tables) : Prop where
  new : ∀ i, (visits i).occasion.ids 0 ∉ before.users.ids
  own : Function.Injective fun i => (visits i).occasion.ids 0

namespace SigningUp

variable {server : Server} {visits : Fin n → Visit} {before : Tables}
  {race : Race (Fin n) Reply Tables}

lemma start (server : Server) (visits : Fin n → Visit) (hemails : before.users.emails.Nodup) :
    SigningUp server visits before (signUpRace server visits before) where
  standing i := .start server (visits i) before.users
  emails := hemails
  owners := fun _ huser => .inl huser

/-- As long as a sign-up is not done, nobody has its id. -/
lemma id_not_mem (h : SigningUp server visits before race) (hfresh : FreshIds visits before)
    {i : Fin n} {c : Call} {next : c.Answer → Flow Reply} (hflow : race.flows i = .call c next) :
    (visits i).occasion.ids 0 ∉ race.state.users.ids := by
  intro hmem
  obtain ⟨user, huser, hid⟩ := List.mem_map.1 hmem
  -- A user with the id was there before, or belongs to a sign-up that is done and would be this
  -- one.
  obtain hold | ⟨j, hj, hdone⟩ := h.owners user huser
  · exact hfresh.new i (hid ▸ List.mem_map_of_mem hold)
  · obtain rfl : j = i := hfresh.own (((visits j).id_of_user? hj).symm.trans hid)
    exact nomatch hflow.symm.trans hdone

/-- A sign-up that is not done moves on, and adds nobody but its own user. -/
lemma move (h : SigningUp server visits before race) {i : Fin n} {c : Call}
    {next : c.Answer → Flow Reply} (hflow : race.flows i = .call c next) {users : UserTable}
    {flow : Flow Reply} {step : Step} (hstanding : Standing server (visits i) users flow)
    (hsub : race.state.users ⊆ users) (hemails : users.emails.Nodup)
    (hadded : ∀ user ∈ users, user ∈ race.state.users ∨ ((visits i).user? = some user ∧
      flow = .done (SignUp.ending (.ok (server.account (visits i) user))))) :
    SigningUp server visits before ⟨Function.update race.flows i flow,
      race.state.withUsers users, race.trace ++ [(i, step)]⟩ where
  standing j := by
    show Standing server (visits j) users (Function.update race.flows i flow j)
    obtain rfl | hne := eq_or_ne j i
    · rwa [Function.update_self]
    · rw [Function.update_of_ne hne]
      exact (h.standing j).mono hsub
  emails := hemails
  owners := by
    intro user huser
    -- An account that was there keeps its owner, who is done and so not the one that moves.
    obtain hthere | ⟨hi, rfl⟩ := hadded user huser
    · obtain hold | ⟨j, hj, hdone⟩ := h.owners user hthere
      · exact .inl hold
      · have hne : j ≠ i := by
          rintro rfl
          exact nomatch hflow.symm.trans hdone
        exact .inr ⟨j, hj, (Function.update_of_ne hne _ _).trans hdone⟩
    · exact .inr ⟨i, hi, Function.update_self _ _ _⟩

/-- A sign-up whose turn it is keeps what all rely on. -/
theorem step (h : SigningUp server visits before race) (hfresh : FreshIds visits before)
    (i : Fin n) : SigningUp server visits before (race.step Tables.answer i) := by
  cases hflow : race.flows i with
  | done reply =>
    rw [Race.step_done hflow]
    exact h
  | call c next =>
    have hi := h.standing i
    rw [hflow] at hi
    rw [Race.step_call hflow]
    obtain ⟨hstate, hnext⟩ | ⟨user, huser, hemail, hstate, hnext⟩ :=
      hi.step (h.id_not_mem hfresh hflow)
    · rw [hstate]
      exact h.move hflow hnext (List.Subset.refl _) h.emails fun _ hu => .inl hu
    · rw [hstate, hnext]
      refine h.move hflow (.opened huser (List.mem_append_right _ List.mem_cons_self))
        (List.subset_append_left _ _) (nodup_map_key_append h.emails hemail) fun u hu => ?_
      obtain hu | hu := List.mem_append.1 hu
      · exact .inl hu
      · rw [List.mem_singleton.1 hu]
        exact .inr ⟨huser, rfl⟩

/-- Whatever the order of their steps, the sign-ups keep what they rely on. -/
theorem run (h : SigningUp server visits before race) (hfresh : FreshIds visits before)
    (schedule : List (Fin n)) :
    SigningUp server visits before (race.run Tables.answer schedule) :=
  Race.run_preserves (fun _ i h => h.step hfresh i) schedule h

end SigningUp

/-! ## What they come to -/

/-- What sign-ups served side by side have come to, when some of them are done and have replied. -/
structure SignedUp (visits : Fin n → Visit) (before after : Tables)
    (replies : Fin n → Option Reply) : Prop where
  emails : after.users.emails.Nodup
  answered : ∀ i email reply, (visits i).email? = some email → replies i = some reply →
    reply.response.status = 201 ∨ reply.response.status = 409
  refused : ∀ i reply, (visits i).email? = none → replies i = some reply →
    400 ≤ reply.response.status ∧ reply.opened = false
  unique : ∀ i j email reply reply', (visits i).email? = some email →
    (visits j).email? = some email → replies i = some reply → replies j = some reply' →
    reply.response.status = 201 → reply'.response.status = 201 → i = j
  exists_winner : ∀ i email reply, (visits i).email? = some email → replies i = some reply →
    email ∉ before.users.emails → ∃ j reply', (visits j).email? = some email ∧
      replies j = some reply' ∧ reply'.response.status = 201
  counted : ∀ (metrics : Metrics) (outcome : Fin n → Option String)
    (finished : List (Fin n × Reply)), (∀ p ∈ finished, replies p.1 = some p.2) →
    ((finished.map fun p => ⟨p.2.response, outcome p.1, p.2.opened⟩).foldl Metrics.record
        metrics).accountsCreated =
      metrics.accountsCreated + finished.countP fun p => p.2.response.status = 201

/-- The counters count the accounts that are opened. -/
lemma Metrics.accountsCreated_record (metrics : Metrics) (served : Served) :
    (metrics.record served).accountsCreated =
      metrics.accountsCreated + if served.opened then 1 else 0 := by
  unfold record
  cases served.outcome <;> cases served.opened <;> rfl

lemma Metrics.accountsCreated_foldl_record (served : List Served) :
    ∀ metrics : Metrics, (served.foldl record metrics).accountsCreated =
      metrics.accountsCreated + served.countP fun s => s.opened := by
  induction served with
  | nil => exact fun _ => rfl
  | cons s rest ih =>
    intro metrics
    rw [List.foldl_cons, ih, accountsCreated_record, List.countP_cons]
    omega

namespace Standing

variable {server : Server} {visit : Visit} {users : UserTable} {reply : Reply}

/-- A sign-up that asks for an account has opened it when it is done, or has found its email
taken. -/
lemma of_user (h : Standing server visit users (.done reply)) {user : User}
    (huser : visit.user? = some user) :
    user.email ∈ users.emails ∧
      ((reply.response.status = 201 ∧ reply.opened = true ∧ user ∈ users) ∨
        (reply.response.status = 409 ∧ reply.opened = false)) := by
  cases h with
  | refused hnone => exact nomatch hnone.symm.trans huser
  | opened hother hmem =>
    obtain rfl := Option.some.inj (hother.symm.trans huser)
    exact ⟨List.mem_map_of_mem hmem, .inl ⟨rfl, rfl, hmem⟩⟩
  | taken hother hemail hstatus =>
    obtain rfl := Option.some.inj (hother.symm.trans huser)
    exact ⟨hemail, .inr ⟨hstatus, rfl⟩⟩

lemma of_no_user (h : Standing server visit users (.done reply)) (hnone : visit.user? = none) :
    400 ≤ reply.response.status ∧ reply.opened = false := by
  cases h with
  | refused _ hstatus hopened => exact ⟨hstatus, hopened⟩
  | opened huser => exact nomatch hnone.symm.trans huser
  | taken huser => exact nomatch hnone.symm.trans huser

lemma mem_of_created (h : Standing server visit users (.done reply)) {user : User}
    (huser : visit.user? = some user) (hstatus : reply.response.status = 201) : user ∈ users := by
  obtain ⟨-, ⟨-, -, hmem⟩ | ⟨htaken, -⟩⟩ := h.of_user huser
  · exact hmem
  · exact absurd (hstatus.symm.trans htaken) (by decide)

lemma opened_iff (h : Standing server visit users (.done reply)) :
    reply.opened = true ↔ reply.response.status = 201 := by
  cases huser : visit.user? with
  | none =>
    obtain ⟨hstatus, hopened⟩ := h.of_no_user huser
    rw [hopened]
    exact iff_of_false (by decide) (by omega)
  | some user =>
    obtain ⟨-, ⟨hstatus, hopened, -⟩ | ⟨hstatus, hopened⟩⟩ := h.of_user huser
    · exact iff_of_true hopened hstatus
    · rw [hopened, hstatus]
      decide

end Standing

namespace SigningUp

variable {server : Server} {visits : Fin n → Visit} {before : Tables}
  {race : Race (Fin n) Reply Tables} {i j : Fin n} {email : String} {reply reply' : Reply}

lemma standing_of_result (h : SigningUp server visits before race)
    (hreply : (race.flows i).result? = some reply) :
    Standing server (visits i) race.state.users (.done reply) := by
  rw [← Flow.result?_eq_some.1 hreply]
  exact h.standing i

/-- Two sign-ups that have opened accounts with one email are one. -/
lemma unique (h : SigningUp server visits before race) (hfresh : FreshIds visits before)
    (hi : (visits i).email? = some email) (hj : (visits j).email? = some email)
    (hreply : (race.flows i).result? = some reply) (hreply' : (race.flows j).result? = some reply')
    (hstatus : reply.response.status = 201) (hstatus' : reply'.response.status = 201) :
    i = j := by
  obtain ⟨user, huser, rfl⟩ := Option.map_eq_some_iff.1 hi
  obtain ⟨user', huser', hemail⟩ := Option.map_eq_some_iff.1 hj
  have hmem := (h.standing_of_result hreply).mem_of_created huser hstatus
  have hmem' := (h.standing_of_result hreply').mem_of_created huser' hstatus'
  -- Both accounts are stored, and no email is stored twice; one account has one id, and ids are the
  -- sign-ups' own.
  obtain rfl : user' = user := List.inj_on_of_nodup_map h.emails hmem' hmem hemail
  exact hfresh.own (((visits i).id_of_user? huser).symm.trans ((visits j).id_of_user? huser'))

/-- Where an email was free, a sign-up has opened an account with it as soon as one that asks for
it is done. -/
lemma exists_winner (h : SigningUp server visits before race)
    (hi : (visits i).email? = some email) (hreply : (race.flows i).result? = some reply)
    (hnew : email ∉ before.users.emails) :
    ∃ j reply', (visits j).email? = some email ∧ (race.flows j).result? = some reply' ∧
      reply'.response.status = 201 := by
  obtain ⟨user, huser, rfl⟩ := Option.map_eq_some_iff.1 hi
  obtain ⟨hthere, -⟩ := (h.standing_of_result hreply).of_user huser
  -- Done means opened or refused as taken: either way somebody has the email, and who has a new one
  -- opened it here.
  obtain ⟨winner, hwinner, hemail⟩ := List.mem_map.1 hthere
  obtain hold | ⟨j, hj, hflow⟩ := h.owners winner hwinner
  · exact absurd (hemail ▸ List.mem_map_of_mem hold) hnew
  · exact ⟨j, _, Option.map_eq_some_iff.2 ⟨winner, hj, hemail⟩, Flow.result?_eq_some.2 hflow, rfl⟩

/-- The sign-ups that are done have come to what they were to come to. -/
lemma signedUp (h : SigningUp server visits before race) (hfresh : FreshIds visits before) :
    SignedUp visits before race.state fun i => (race.flows i).result? := by
  constructor
  case emails => exact h.emails
  case answered =>
    intro i email reply hemail hreply
    obtain ⟨user, huser, -⟩ := Option.map_eq_some_iff.1 hemail
    obtain ⟨-, ⟨hstatus, -⟩ | ⟨hstatus, -⟩⟩ := (h.standing_of_result hreply).of_user huser
    · exact .inl hstatus
    · exact .inr hstatus
  case refused =>
    intro i reply hemail hreply
    exact (h.standing_of_result hreply).of_no_user (Option.map_eq_none_iff.1 hemail)
  case unique =>
    intro i j email reply reply' hi hj hreply hreply' hstatus hstatus'
    exact h.unique hfresh hi hj hreply hreply' hstatus hstatus'
  case exists_winner =>
    intro i email reply hi hreply hnew
    exact h.exists_winner hi hreply hnew
  case counted =>
    intro metrics outcome finished hfinished
    rw [Metrics.accountsCreated_foldl_record, List.countP_map]
    refine congrArg (metrics.accountsCreated + ·) (List.countP_congr fun p hp => ?_)
    rw [decide_eq_true_iff]
    exact (h.standing_of_result (hfinished p hp)).opened_iff

end SigningUp

/-- Whatever the order of their steps, sign-ups served side by side leave no email with two
accounts.  Of those that ask for one email and are done, at most one is answered by 201 and all
others by 409, and one is answered by 201 as soon as any is done, if nobody had the email before;
and accounts are counted as often as a sign-up is answered by 201. -/
theorem sign_ups_side_by_side (server : Server) (visits : Fin n → Visit) {t : Tables}
    (hemails : t.users.emails.Nodup) (hfresh : FreshIds visits t) (schedule : List (Fin n)) :
    let race := (signUpRace server visits t.stores).run Stores.answer schedule
    ∃ after : Tables, race.state = after.stores ∧
      SignedUp visits t after fun i => (race.flows i).result? := by
  intro race
  have hrun := (SigningUp.start server visits hemails).run hfresh schedule
  have hrace : race =
      ((signUpRace server visits t).run Tables.answer schedule).mapState Tables.stores :=
    signUpRace_stores server visits t schedule
  rw [hrace]
  exact ⟨_, rfl, hrun.signedUp hfresh⟩

/-- Two sign-ups for one email, typed in two ways, both find it free before either creates its
account. -/
theorem sign_ups_side_by_side_twice :
    let server : Server :=
      ⟨⟨.ofSources .headerOnly, ⟨.headerOnly, "secret", rfl⟩, rfl⟩, ⟨[], List.not_mem_nil⟩⟩
    let signUp (id : Nat) (n : NewUser) : Visit :=
      ⟨⟨⟨default, by decide⟩, fun _ => .ofNat id⟩, ⟨.post, ⟨"/users", ""⟩,
        [⟨"content-type", Utf8.encode "application/json"⟩], (NewUser.form.write n).bytes⟩⟩
    let visits : Fin 2 → Visit :=
      ![signUp 1 ⟨"ada@example.org", "Ada", "Ray"⟩, signUp 2 ⟨" Ada@Example.ORG", "Ada", "Ray"⟩]
    let race := (signUpRace server visits Tables.empty.stores).run Stores.answer [0, 1, 0, 1, 0, 1]
    (∀ i, ((race.flows i).result?.map fun reply => reply.response.status) =
        ![some 201, some 409] i) ∧
      ∃ after : Tables, race.state = after.stores ∧
        SignedUp visits .empty after fun i => (race.flows i).result? := by
  intro server signUp visits race
  have hemails : Tables.empty.users.emails.Nodup := List.nodup_nil
  have hfresh : FreshIds visits .empty := ⟨fun i => List.not_mem_nil, by decide⟩
  have hstatus : ∀ i, ((race.flows i).result?.map fun reply => reply.response.status) =
      ![some 201, some 409] i := by
    have hrace : race = ((signUpRace server visits Tables.empty).run Tables.answer
        [0, 1, 0, 1, 0, 1]).mapState Tables.stores :=
      signUpRace_stores server visits Tables.empty _
    rw [hrace]
    decide +kernel
  -- what was run above is not to be run again while the goals are compared
  clear_value visits server
  exact ⟨hstatus, sign_ups_side_by_side server visits hemails hfresh _⟩

end Race

end Gatehouse
