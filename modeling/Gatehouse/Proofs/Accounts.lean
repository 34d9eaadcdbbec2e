import Gatehouse.Proofs.Escalation
import Gatehouse.Proofs.Trimming
import Gatehouse.Proofs.UserKeys
import Mathlib

/-!
# Accounts as they are kept

An email goes through a sign-up in three forms.  It is checked without the blanks around it, it is
looked up and stored in small letters besides, and the store compares what it is given as it
stands.  The three agree because making capitals small neither makes nor removes a blank, an at
sign or a dot (`isBlank_toLower`, `toLower_eq_iff`): what was accepted is stored as an address
again (`NewUser.user_isKept`), and what is stored is its own kept form
(`User.IsKept.keptEmail_eq`), so that one address has one account however it is typed.

`Tables.Enrolled` is what a whole run keeps.
-/

namespace Gatehouse

open Http Text

/-! ## Small letters -/

namespace Text

variable {c d : Char} {cs : List Char}

/-- Only letters change when capitals are made small. -/
lemma toLower_eq_iff (hd : d.isAlpha = false) : c.toLower = d ↔ c = d := by
  by_cases hc : c.isUpper = true
  · have hletter : c.isAlpha = true := by rw [Char.isAlpha, hc, Bool.true_or]
    constructor
    · rintro rfl
      rw [Char.isAlpha_toLower_eq_isAlpha, hletter] at hd
      cases hd
    · rintro rfl
      rw [hletter] at hd
      cases hd
  · rw [Char.toLower_eq_of_not_isUpper hc]

/-- No letter is a blank. -/
lemma isBlank_of_isAlpha (h : c.isAlpha = true) : isBlank c = false := by
  simp only [Char.isAlpha, Char.isUpper, Char.isLower, UInt32.le_iff_toNat_le, Bool.or_eq_true,
    Bool.and_eq_true, decide_eq_true_eq] at h
  have hcode : (65 ≤ c.toNat ∧ c.toNat ≤ 90) ∨ (97 ≤ c.toNat ∧ c.toNat ≤ 122) := h
  simp only [isBlank, Bool.or_eq_false_iff, Bool.and_eq_false_iff, decide_eq_false_iff_not,
    beq_eq_false_iff_ne]
  omega

lemma isBlank_toLower : isBlank c.toLower = isBlank c := by
  by_cases hc : c.isUpper = true
  · have hletter : c.isAlpha = true := by rw [Char.isAlpha, hc, Bool.true_or]
    rw [isBlank_of_isAlpha hletter,
      isBlank_of_isAlpha ((Char.isAlpha_toLower_eq_isAlpha c).trans hletter)]
  · rw [Char.toLower_eq_of_not_isUpper hc]

lemma Solid.map_toLower (h : Solid cs) : Solid (cs.map Char.toLower) where
  ne_nil := by
    rw [Ne, List.map_eq_nil_iff]
    exact h.ne_nil
  head c hc := by
    rw [List.head?_map, Option.map_eq_some_iff] at hc
    obtain ⟨b, hb, rfl⟩ := hc
    rw [isBlank_toLower]
    exact h.head b hb
  last c hc := by
    rw [List.getLast?_map, Option.map_eq_some_iff] at hc
    obtain ⟨b, hb, rfl⟩ := hc
    rw [isBlank_toLower]
    exact h.last b hb

end Text

/-! ## Emails -/

/-- The text has something before its first at sign and a dot somewhere behind it. -/
def IsAddress (email : List Char) : Prop :=
  ∃ name domain, email = name ++ '@' :: domain ∧ name ≠ [] ∧ '@' ∉ name ∧ '.' ∈ domain

/-- An email as it is kept: without blanks around it and in small letters. -/
def keptEmail (email : String) : String := lowerAscii (trimmed email)

lemma toList_keptEmail (email : String) :
    (keptEmail email).toList = (trim email.toList).map Char.toLower := by
  rw [keptEmail, lowerAscii, String.toList_ofList, toList_trimmed]

/-- A text is an address in small letters when it is one in any. -/
lemma IsAddress.map_toLower {email : List Char} (h : IsAddress email) :
    IsAddress (email.map Char.toLower) := by
  obtain ⟨name, domain, rfl, hname, hsign, hdot⟩ := h
  refine ⟨name.map Char.toLower, domain.map Char.toLower, ?_, ?_, ?_, ?_⟩
  · rw [List.map_append, List.map_cons]
    rfl
  · rwa [Ne, List.map_eq_nil_iff]
  · intro hmem
    obtain ⟨c, hc, hlower⟩ := List.mem_map.1 hmem
    rw [toLower_eq_iff rfl] at hlower
    exact hsign (hlower ▸ hc)
  · exact List.mem_map.2 ⟨'.', hdot, rfl⟩

namespace NewUser

lemma ne_sign_of_not_mem {name : List Char} (hsign : '@' ∉ name) :
    ∀ c ∈ name, (c != '@') = true := by
  intro c hc
  rw [bne_iff_ne]
  rintro rfl
  exact hsign hc

lemma isPlausibleEmail_of_sign {name domain : List Char} (hsign : '@' ∉ name) :
    isPlausibleEmail (name ++ '@' :: domain) = (!name.isEmpty && domain.contains '.') := by
  have hname : (name ++ '@' :: domain).takeWhile (· != '@') = name := by
    rw [List.takeWhile_append_of_pos (ne_sign_of_not_mem hsign),
      List.takeWhile_cons_of_neg (by decide), List.append_nil]
  have hdomain : (name ++ '@' :: domain).drop (name.length + 1) = domain := by
    rw [List.append_cons]
    exact List.drop_left' (by rw [List.length_append, List.length_singleton])
  simp only [isPlausibleEmail, hname, hdomain]

lemma isPlausibleEmail_of_no_sign {email : List Char} (hsign : '@' ∉ email) :
    isPlausibleEmail email = false := by
  have hname : email.takeWhile (· != '@') = email :=
    List.takeWhile_eq_self_iff.2 (ne_sign_of_not_mem hsign)
  have hrest : email.drop (email.length + 1) = [] := List.drop_eq_nil_of_le (Nat.le_succ _)
  simp only [isPlausibleEmail, hname, hrest, List.contains_nil, Bool.and_false]

lemma isPlausibleEmail_iff {email : List Char} :
    isPlausibleEmail email = true ↔ IsAddress email := by
  constructor
  · intro h
    have hmem : '@' ∈ email := by
      by_contra hno
      rw [isPlausibleEmail_of_no_sign hno] at h
      cases h
    -- The test looks at what stands before the first at sign and after it, so the text is divided
    -- there.
    obtain ⟨name, domain, rfl, hsign⟩ := List.eq_append_cons_of_mem hmem
    rw [isPlausibleEmail_of_sign hsign, Bool.and_eq_true, Bool.not_eq_true',
      List.isEmpty_eq_false_iff, List.contains_iff_mem] at h
    exact ⟨name, domain, rfl, h.1, hsign, h.2⟩
  · rintro ⟨name, domain, rfl, hname, hsign, hdot⟩
    rw [isPlausibleEmail_of_sign hsign, Bool.and_eq_true, Bool.not_eq_true',
      List.isEmpty_eq_false_iff, List.contains_iff_mem]
    exact ⟨hname, hdot⟩

lemma isGiven_iff {s : String} : isGiven s = true ↔ trim s.toList ≠ [] := by
  rw [isGiven, Bool.not_eq_true', List.isEmpty_eq_false_iff]

/-- What is submitted is accepted when its email is an address and both names are given, whatever
blanks stand around them. -/
lemma validate_eq_ok_iff {n : NewUser} :
    n.validate = .ok () ↔ IsAddress (trim n.email.toList) ∧ trim n.firstName.toList ≠ [] ∧
      trim n.lastName.toList ≠ [] := by
  rw [← isPlausibleEmail_iff, ← isGiven_iff, ← isGiven_iff, ← Bool.and_eq_true, validate]
  cases isPlausibleEmail (trim n.email.toList) with
  | false => simp
  | true => cases isGiven n.firstName && isGiven n.lastName <;> simp

end NewUser

/-! ## Accounts -/

/-- What is true of every account that is kept. -/
structure User.IsKept (u : User) : Prop where
  email : Solid u.email.toList
  small : ∀ c ∈ u.email.toList, c.isUpper = false
  address : IsAddress u.email.toList
  firstName : Solid u.firstName.toList
  lastName : Solid u.lastName.toList

/-- An email that is kept is kept as it is when it is submitted again. -/
lemma User.IsKept.keptEmail_eq {u : User} (h : u.IsKept) : keptEmail u.email = u.email := by
  refine String.toList_injective ?_
  rw [toList_keptEmail, trim_eq_self h.email]
  calc u.email.toList.map Char.toLower = u.email.toList.map fun c => c :=
        List.map_congr_left fun c hc =>
          Char.toLower_eq_of_not_isUpper (Bool.eq_false_iff.1 (h.small c hc))
    _ = u.email.toList := List.map_id' _

/-- An account that is opened for what was accepted is as accounts are to be kept. -/
lemma NewUser.user_isKept {n : NewUser} (h : n.validate = .ok ()) (id : Uuid)
    (now : Time.Instant) : (n.user id now).IsKept := by
  obtain ⟨haddress, hfirst, hlast⟩ := validate_eq_ok_iff.1 h
  have hemail : trim n.email.toList ≠ [] := by
    obtain ⟨name, domain, heq, -⟩ := haddress
    rw [heq]
    exact List.append_ne_nil_of_right_ne_nil name (List.cons_ne_nil _ _)
  have hkept : (n.user id now).email.toList = (trim n.email.toList).map Char.toLower :=
    toList_keptEmail n.email
  -- Trimming comes before the change to small letters, which touches no blank, at sign or dot.
  constructor
  case email =>
    rw [hkept]
    exact (solid_trim hemail).map_toLower
  case small =>
    rw [hkept]
    intro c hc
    obtain ⟨b, -, rfl⟩ := List.mem_map.1 hc
    exact Char.isUpper_toLower_eq_false b
  case address =>
    rw [hkept]
    exact haddress.map_toLower
  case firstName =>
    show Solid (trimmed n.firstName).toList
    rw [toList_trimmed]
    exact solid_trim hfirst
  case lastName =>
    show Solid (trimmed n.lastName).toList
    rw [toList_trimmed]
    exact solid_trim hlast

/-! ## Opening an account -/

/-- A user is created when both id and email are new, and is appended. -/
lemma UserTable.create_eq (table : UserTable) (user : User) :
    table.create user =
      if user.id ∈ table.ids ∨ user.email ∈ table.emails then
        (.error (.conflict entity user.id.text), table)
      else (.ok (), table ++ [user]) := by
  have htaken : (table.any fun u => u.id == user.id || u.email == user.email) = true ↔
      user.id ∈ table.ids ∨ user.email ∈ table.emails := by
    simp only [List.any_eq_true, Bool.or_eq_true, beq_iff_eq, ids, emails, List.mem_map]
    constructor
    · rintro ⟨u, hu, h | h⟩
      · exact .inl ⟨u, hu, h⟩
      · exact .inr ⟨u, hu, h⟩
    · rintro (⟨u, hu, h⟩ | ⟨u, hu, h⟩)
      · exact ⟨u, hu, .inl h⟩
      · exact ⟨u, hu, .inr h⟩
  simp only [create, htaken]

section SignUp

variable {t : Tables} {submitted : NewUser}

/-- What was accepted opens an account, unless its email has one or the id is not new. -/
lemma run_signUp (tokens : TokenService) (id : Uuid) (now : Session.Moment)
    (hvalid : submitted.validate = .ok ()) :
    (signUp tokens id now submitted).run Tables.answer t =
      if keptEmail submitted.email ∈ t.users.emails then
        (.error (.emailTaken (keptEmail submitted.email)), t)
      else if id ∈ t.users.ids then
        (.error (.ofStore (.conflict UserTable.entity id.text)), t)
      else (.ok ⟨submitted.user id now.instant, tokens.issue id now⟩,
        t.adding (.user (submitted.user id now.instant))) := by
  simp only [signUp, hvalid, Flow.run_bind, Tables.run_usersInUse, Tables.run_users, UserOp.step,
    Tables.withUsers_self]
  -- The email is looked up before the store is asked to create; the store compares both keys, so
  -- only the id is left to be taken.
  by_cases htaken : keptEmail submitted.email ∈ t.users.emails
  · obtain ⟨u, hu⟩ := Option.isSome_iff_exists.1 (find?_key_isSome.2 htaken)
    have hfound : t.users.findByEmail? submitted.normalised.email = some u := hu
    rw [if_pos htaken, hfound]
    rfl
  · have hfound : t.users.findByEmail? submitted.normalised.email = none :=
      find?_key_eq_none.2 htaken
    have hcreated := t.users.create_eq (submitted.user id now.instant)
    by_cases hid : id ∈ t.users.ids
    · have hconflict : (submitted.user id now.instant).id ∈ t.users.ids := hid
      rw [if_pos (.inl hconflict), NewUser.user] at hcreated
      simp only [if_neg htaken, if_pos hid, hfound, Flow.run_bind, Tables.run_users, UserOp.step,
        hcreated, Tables.withUsers_self]
      rfl
    · have hnew : ¬((submitted.user id now.instant).id ∈ t.users.ids ∨
          (submitted.user id now.instant).email ∈ t.users.emails) := not_or.2 ⟨hid, htaken⟩
      rw [if_neg hnew, NewUser.user] at hcreated
      simp only [if_neg htaken, if_neg hid, hfound, Flow.run_bind, Tables.run_users, UserOp.step,
        hcreated]
      rfl

namespace Server

/-- Where the fields were accepted, the email alone decides, unless the id is not new. -/
lemma postUser_status (server : Server) (occasion : Occasion) {request : Request}
    (hbody : NewUser.form.ofBody request = .ok submitted) (hvalid : submitted.validate = .ok ()) :
    ((server.postUser occasion request).run Tables.answer t).1.response.status =
      if keptEmail submitted.email ∈ t.users.emails ∨ occasion.ids 0 ∈ t.users.ids then 409
      else 201 := by
  simp only [postUser, hbody, Flow.run_bind, Flow.run_pure, run_signUp _ _ _ hvalid]
  by_cases htaken : keptEmail submitted.email ∈ t.users.emails
  · rw [if_pos htaken, if_pos (.inl htaken)]
    rfl
  · by_cases hid : occasion.ids 0 ∈ t.users.ids
    · rw [if_neg htaken, if_pos hid, if_pos (.inr hid)]
      rfl
    · rw [if_neg htaken, if_neg hid, if_neg (not_or.2 ⟨htaken, hid⟩)]
      rfl

/-- No account is opened for fields that are not accepted. -/
lemma validate_of_postUser (server : Server) (occasion : Occasion) {request : Request}
    (hbody : NewUser.form.ofBody request = .ok submitted)
    (hstatus :
      ((server.postUser occasion request).run Tables.answer t).1.response.status = 201) :
    submitted.validate = .ok () := by
  simp only [postUser, hbody, Flow.run_bind, Flow.run_pure, signUp] at hstatus
  cases hvalid : submitted.validate with
  | error e =>
    rw [hvalid] at hstatus
    exact absurd hstatus (Response.ne_created e.refuses)
  | ok _ => rfl

/-- A sign-up is refused at the gate, or comes to its handler. -/
lemma serve_signUp [Text.Engine] (server : Server) (occasion : Occasion) (metrics : Metrics)
    {request : Request} (hsignUp : request.IsSignUp) (t : Tables) :
    ((server.serve occasion metrics request).run Tables.answer t).1.response.status =
      match ((server.gate.authenticate occasion.now.second request).run Tables.answer t).1 with
      | .error e => e.response.status
      | .ok _ => ((server.postUser occasion request).run Tables.answer t).1.response.status := by
  obtain ⟨hpost, hresource⟩ := hsignUp
  have hoptions : request.method ≠ .options := by
    rw [hpost]
    decide
  have hact : Resource.users.act? request.method = some .extend := by
    rw [hpost]
    decide
  have hreply : ∀ principal, server.reply occasion .users request principal =
      server.postUser occasion request := by
    intro principal
    simp only [reply, hact]
  have hguarded := server.serveAny_of_guarded occasion metrics hoptions hresource (by decide)
    (by decide)
  rw [serve_response hguarded, Cors.mark_status, forMethod_status]
  cases hdecision : ((server.gate.authenticate occasion.now.second request).run Tables.answer t).1
    with
  | error e =>
    rw [Gate.run_pass_of_error hdecision]
    rfl
  | ok outcome =>
    rw [Gate.run_pass_of_ok hdecision, hreply, Gate.run_authenticate_snd]

end Server

end SignUp

/-! ## Whole runs -/

/-- Every account is as accounts are to be kept, and has an email of its own. -/
structure Tables.Enrolled (t : Tables) : Prop where
  sound : t.Sound
  kept : ∀ u ∈ t.users, u.IsKept
  emails : t.users.emails.Nodup

namespace Tables.Enrolled

variable {t : Tables}

lemma empty : Tables.empty.Enrolled where
  sound := sound_empty
  kept := fun _ hu => absurd hu List.not_mem_nil
  emails := List.nodup_nil

lemma adding (h : t.Enrolled) {a : Addition} (hfits : a.Fits t)
    (hkept : ∀ u, a = .user u → u.IsKept) : (t.adding a).Enrolled := by
  have hsound := hfits.sound h.sound
  cases a with
  | user u =>
    refine ⟨hsound, fun v hv => ?_, nodup_map_key_append h.emails hfits.2⟩
    obtain hv | hv := List.mem_append.1 hv
    · exact h.kept v hv
    · rw [List.mem_singleton.1 hv]
      exact hkept u rfl
  | role r => exact ⟨hsound, h.kept, h.emails⟩
  | grant holder batch => exact ⟨hsound, h.kept, h.emails⟩

/-- A request adds no account but for fields that were accepted. -/
theorem serve [Text.Engine] (h : t.Enrolled) (server : Server) (occasion : Occasion)
    (metrics : Metrics) (request : Request) :
    ((server.serve occasion metrics request).run Tables.answer t).2.Enrolled := by
  have hleft := server.serve_left h.sound.permissions occasion metrics request
  by_cases hstatus :
      ((server.serve occasion metrics request).run Tables.answer t).1.response.status = 201
  · obtain ⟨a, ⟨hpost, resource, hresource, hasked⟩, hfits, hadded⟩ :=
      hleft.exists_addition hstatus
    rw [hadded]
    refine h.adding hfits fun u hu => ?_
    subst hu
    -- Only an account has to be shown kept, and it was opened for fields that passed.
    cases hasked with
    | @user submitted hbody =>
      rw [server.serve_signUp occasion metrics ⟨hpost, hresource⟩ t] at hstatus
      split at hstatus
      · next e _ => exact absurd hstatus (Response.ne_created e.refuses)
      · exact NewUser.user_isKept (server.validate_of_postUser occasion hbody hstatus) _ _
  · rw [hleft.eq_of_ne hstatus]
    exact h

lemma keptEmails_nodup (h : t.Enrolled) : (t.users.map fun u => keptEmail u.email).Nodup := by
  rw [List.map_congr_left fun u hu => (h.kept u hu).keptEmail_eq]
  exact h.emails

end Tables.Enrolled

/-- Whatever requests are served, beginning with no records, every account is as accounts are to
be kept and no two have emails that are kept as one.  A sign-up that comes to its handler with
fields that are accepted is answered by 201 when no account has its email, however the email was
typed, and by 409 otherwise. -/
theorem accounts_kept_in_order [Text.Engine] (server : Server) (metrics : Metrics)
    (visits : List Visit) :
    let reached := Deployment.afterVisits server visits ⟨.empty, metrics⟩
    ∃ t : Tables, reached.stores = t.stores ∧ (∀ u ∈ t.users, u.IsKept) ∧
      (t.users.map fun u => keptEmail u.email).Nodup ∧
      ∀ (signUp : Visit) (outcome : Outcome) (submitted : NewUser),
        signUp.request.IsSignUp →
        ((server.gate.authenticate signUp.occasion.now.second signUp.request).run
          Stores.answer reached.stores).1 = .ok outcome →
        NewUser.form.ofBody signUp.request = .ok submitted → submitted.validate = .ok () →
        let status := (reached.handle server signUp.occasion signUp.request).1.status
        (status = 201 ∨ status = 409) ∧
          (signUp.occasion.ids 0 ∉ t.users.ids →
            (status = 201 ↔ ∀ u ∈ t.users, u.email ≠ keptEmail submitted.email)) := by
  intro reached
  obtain ⟨t, metrics', hreached, ht⟩ := Deployment.afterVisits_preserves (I := Tables.Enrolled)
    server (fun t occasion metrics request ht => ht.serve server occasion metrics request) visits
    metrics Tables.Enrolled.empty
  have hdeployment : reached = ⟨t.stores, metrics'⟩ := hreached
  refine ⟨t, congrArg Deployment.stores hdeployment, ht.kept, ht.keptEmails_nodup, ?_⟩
  intro signUp outcome submitted hsignUp hadmitted hbody hvalid status
  have hstatus : status =
      if keptEmail submitted.email ∈ t.users.emails ∨ signUp.occasion.ids 0 ∈ t.users.ids then 409
      else 201 := by
    have hserved := server.serve_signUp signUp.occasion metrics' hsignUp t
    rw [hdeployment, Flow.run_stores] at hadmitted
    rw [hadmitted] at hserved
    simp only [server.postUser_status signUp.occasion hbody hvalid] at hserved
    simp only [status, hdeployment, Deployment.handle_tables, hserved]
  have hfree : keptEmail submitted.email ∉ t.users.emails ↔
      ∀ u ∈ t.users, u.email ≠ keptEmail submitted.email := by
    simp only [UserTable.emails, List.mem_map, not_exists, not_and, Ne]
  constructor
  · rw [hstatus]
    split
    · exact .inr rfl
    · exact .inl rfl
  · intro hid
    rw [hstatus, ← hfree]
    split
    · next htaken => exact iff_of_false (by decide) (not_not_intro (htaken.resolve_right hid))
    · next hnew => exact iff_of_true rfl fun htaken => hnew (.inl htaken)

/-- Ada has an account, and is told so when she asks for another one in capitals and behind a
blank. -/
theorem accounts_kept_in_order_retyped :
    let server : Server :=
      ⟨⟨.ofSources .headerOnly, ⟨.headerOnly, "secret", rfl⟩, rfl⟩, ⟨[], List.not_mem_nil⟩⟩
    let signUp (id : Nat) (n : NewUser) : Visit :=
      ⟨⟨⟨default, by decide⟩, fun _ => .ofNat id⟩, ⟨.post, ⟨"/users", ""⟩,
        [⟨"content-type", Utf8.encode "application/json"⟩], (NewUser.form.write n).bytes⟩⟩
    let ada : NewUser := ⟨"ada@example.org", "Ada", "Ray"⟩
    let again : NewUser := ⟨" Ada@Example.ORG", "Ada", "Ray"⟩
    ((Deployment.afterVisits server [signUp 1 ada] ⟨.empty, .zero⟩).handle server
      (signUp 2 again).occasion (signUp 2 again).request).1.status = 409 := by
  intro server signUp ada again
  obtain ⟨t, hreached, -, -, hanswered⟩ := accounts_kept_in_order server .zero [signUp 1 ada]
  have hsignUp : (signUp 2 again).request.IsSignUp := ⟨rfl, by decide⟩
  have hadmitted : ∀ stores, ((server.gate.authenticate (signUp 2 again).occasion.now.second
      (signUp 2 again).request).run Stores.answer stores).1 = .ok .bypassed := by
    intro stores
    rw [Gate.authenticate, if_pos (by decide)]
    rfl
  have hbody : NewUser.form.ofBody (signUp 2 again).request = .ok again := by decide +kernel
  have hvalid : again.validate = .ok () := by decide +kernel
  obtain ⟨hstatus, hnew⟩ := hanswered _ _ _ hsignUp (hadmitted _) hbody hvalid
  have husers : t.users.ids = [.ofNat 1] ∧ t.users.emails = ["ada@example.org"] := by
    rw [Deployment.afterVisits, Deployment.afterVisits, ← Tables.stores_empty,
      Deployment.handle_tables] at hreached
    rw [← Tables.stores_injective hreached]
    decide +kernel
  have hid : (signUp 2 again).occasion.ids 0 ∉ t.users.ids := by
    rw [husers.1]
    decide
  have htaken : keptEmail again.email ∈ t.users.emails := by
    rw [husers.2]
    decide
  obtain ⟨u, hu, hemail⟩ := List.mem_map.1 htaken
  exact hstatus.resolve_left fun hcreated => (hnew hid).1 hcreated u hu hemail

end Gatehouse
