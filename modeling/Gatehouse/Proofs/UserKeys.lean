import Gatehouse.Proofs.Operations
import Mathlib.Data.List.Infix

/-!
# Users under their ids and emails

The user store looks users up by id and by email.  An id names one user whatever is done: a user
is created under a new id only, and an update keeps the id by which it finds the user.  An email
does not, since a creation compares emails as well and an update does not.

An update that gives a user the email of another one is therefore the one way in which an email
comes to name two users (`Operation.emails_nodup_iff`), and emails name one user each throughout a
run exactly when it has no such update (`Operation.sparesEmails_iff`).  What is looked up by email
is then the only user that has it.
-/

namespace Gatehouse

/-! ## Tables of users -/

namespace UserTable

/-- The emails of the users. -/
def emails (table : UserTable) : List String := table.map User.email

variable {table : UserTable}

/-- Where a user is replaced, emails still name one user each unless another user has the new
email. -/
lemma emails_replaceFirst_nodup_iff {user : User} (hids : table.ids.Nodup)
    (hemails : table.emails.Nodup) (huser : user.id ∈ table.ids) :
    (emails (replaceFirst (fun u => u.id == user.id) user table)).Nodup ↔
      ∀ other ∈ table, other.email = user.email → other.id = user.id := by
  have hthere : user.id ∈ table.map User.id := huser
  obtain ⟨before, old, after, rfl, hold, hreplaced⟩ := exists_replaceFirst hthere
  have hothers : ∀ other ∈ before ++ after, other.id ≠ user.id := by
    intro other hother heq
    have hnodup := (List.perm_middle.map User.id).nodup_iff.1 hids
    rw [List.map_cons, List.nodup_cons, hold, ← heq] at hnodup
    exact hnodup.1 (List.mem_map_of_mem hother)
  -- Those who are not replaced keep their emails, so only the new email can meet one of theirs.
  have hrest : (emails (before ++ after)).Nodup :=
    hemails.sublist (((List.sublist_cons_self old after).append_left before).map _)
  rw [hreplaced, emails, (List.perm_middle.map User.email).nodup_iff, List.map_cons,
    List.nodup_cons, List.mem_map]
  constructor
  · rintro ⟨hnew, -⟩ other hother heq
    rw [List.perm_middle.mem_iff, List.mem_cons] at hother
    obtain rfl | hother := hother
    · exact hold
    · exact absurd ⟨other, hother, heq⟩ hnew
  · intro h
    refine ⟨?_, hrest⟩
    rintro ⟨other, hother, heq⟩
    refine hothers other hother (h other ?_ heq)
    exact List.perm_middle.mem_iff.2 (List.mem_cons_of_mem old hother)

/-- Nobody is found under the email of a user who was deleted, where it named no one else. -/
lemma findByEmail?_delete {user : User} (hemails : table.emails.Nodup) (huser : user ∈ table) :
    (table.delete user.id).findByEmail? user.email = none := by
  refine find?_key_eq_none.2 fun hmem => ?_
  obtain ⟨other, hother, hemail⟩ := List.mem_map.1 hmem
  obtain ⟨hother, hid⟩ := List.mem_filter.1 hother
  have hsame : other = user := List.inj_on_of_nodup_map hemails hother huser hemail
  exact bne_iff_ne.1 hid (congrArg User.id hsame)

end UserTable

/-! ## Deeds -/

/-- Deeds that update no user leave each email naming one user. -/
lemma Done.emails_nodup {t t' : Tables} {ds : List Deed} (hdone : Done t ds t')
    (hupdates : ∀ user, .updateUser user ∉ ds) (h : t.users.emails.Nodup) :
    t'.users.emails.Nodup := by
  induction hdone with
  | nil t => exact h
  | @cons t t' d ds hfit _ ih =>
    refine ih (fun user huser => hupdates user (List.mem_cons_of_mem d huser)) ?_
    cases d with
    | createUser user => exact nodup_map_key_append h hfit.2
    | updateUser user => exact absurd List.mem_cons_self (hupdates user)
    | deleteUser id => exact nodup_map_key_filter h _
    | _ => exact h

namespace Operation

/-- The only operation that updates a user is the update of that user. -/
lemma eq_of_updateUser_mem {operation : Operation} {user : User}
    (h : .updateUser user ∈ operation.deeds) : operation = .users (.update user) := by
  cases operation with
  | users op => cases op <;> simp_all [deeds]
  | roles op => cases op <;> simp_all [deeds]
  | permissions op => cases op <;> simp_all [deeds]
  | createRole role => simp_all [deeds]
  | createPermission permission => simp_all [deeds]
  | grant role batch => simp_all [deeds]
  | assignRole user role => simp_all [deeds]

/-! ## Operations -/

/-- The operation gives a user the email of another one. -/
def TakesEmail (t : Tables) (operation : Operation) : Prop :=
  ∃ user, operation = .users (.update user) ∧ user.id ∈ t.users.ids ∧
    ∃ other ∈ t.users, other.email = user.email ∧ other.id ≠ user.id

/-- An operation leaves each email naming one user unless it gives a user the email of another
one. -/
theorem emails_nodup_iff (operation : Operation) {t : Tables} (ht : t.Sound)
    (hemails : t.users.emails.Nodup) :
    (operation.flow.run Tables.answer t).2.users.emails.Nodup ↔ ¬operation.TakesEmail t := by
  -- Only an update of a user can break this: all else adds users by deeds that compare emails, or
  -- takes some away.
  by_cases hupdate : ∃ user, operation = .users (.update user)
  · obtain ⟨user, rfl⟩ := hupdate
    show (t.users.update user).2.emails.Nodup ↔ _
    unfold UserTable.update
    split
    · next h =>
      have huser : user.id ∈ t.users.ids := any_key.1 h
      rw [UserTable.emails_replaceFirst_nodup_iff ht.users hemails huser]
      constructor
      · rintro h ⟨_, heq, -, other, hother, hemail, hid⟩
        obtain rfl := UserOp.update.inj (users.inj heq)
        exact hid (h other hother hemail)
      · intro h other hother hemail
        by_contra hid
        exact h ⟨user, rfl, huser, other, hother, hemail, hid⟩
    · next h =>
      refine iff_of_true hemails ?_
      rintro ⟨_, heq, huser, -⟩
      obtain rfl := UserOp.update.inj (users.inj heq)
      exact h (any_key.2 huser)
  · refine iff_of_true ?_ fun ⟨user, heq, _⟩ => hupdate ⟨user, heq⟩
    exact (done_of_run operation ht).emails_nodup (fun user hmem =>
      hupdate ⟨user, eq_of_updateUser_mem (Event.mem_of_mem_deeds hmem)⟩) hemails

/-! ## Runs -/

/-- No operation of a run gives a user the email of another one. -/
def SparesEmails (operations : List Operation) : Prop :=
  ∀ (before : List Operation) (operation : Operation) (t : Tables),
    before ++ [operation] <+: operations → reached before = t.stores → ¬operation.TakesEmail t

/-- Emails name one user each throughout a run exactly when none of its operations gives a user
the email of another one. -/
theorem sparesEmails_iff (operations : List Operation) :
    SparesEmails operations ↔
      ∀ (before : List Operation) (t : Tables),
        before <+: operations → reached before = t.stores → t.users.emails.Nodup := by
  constructor
  · intro h before
    induction before using List.reverseRecOn with
    | nil =>
      intro t _ hreached
      obtain rfl : Tables.empty = t := Tables.stores_injective hreached
      exact List.nodup_nil
    | append_singleton before operation ih =>
      intro t' hprefix hreached'
      obtain ⟨t, ht, hreached⟩ := exists_tables_reached before
      rw [reached_snoc before operation hreached] at hreached'
      rw [← Tables.stores_injective hreached', emails_nodup_iff operation ht]
      · exact h before operation t hprefix hreached
      · exact ih t ((List.prefix_append before [operation]).trans hprefix) hreached
  · intro h before operation t hprefix hreached
    -- Emails name one user each before the operation and after it, so it was no such update.
    obtain ⟨t₀, ht, hreached₀⟩ := exists_tables_reached before
    obtain rfl := Tables.stores_injective (hreached₀.symm.trans hreached)
    refine (emails_nodup_iff operation ht ?_).1 ?_
    · exact h before t₀ ((List.prefix_append before [operation]).trans hprefix) hreached
    · exact h _ _ hprefix (reached_snoc before operation hreached)

/-- Whatever is done, an id names one user, and where no update gives a user the email of another
one, so does an email: what is found under either is the only user that has it, and once that user
is deleted nobody is found. -/
theorem users_unique (operations : List Operation) :
    ∃ t : Tables, reached operations = t.stores ∧
      (t.users.ids.Nodup ∧
        (∀ id user, t.users.find? id = some user ↔ user ∈ t.users ∧ user.id = id) ∧
        ∀ user ∈ t.users, (t.users.delete user.id).find? user.id = none) ∧
      (SparesEmails operations →
        t.users.emails.Nodup ∧
        (∀ email user,
          t.users.findByEmail? email = some user ↔ user ∈ t.users ∧ user.email = email) ∧
        ∀ user ∈ t.users, (t.users.delete user.id).findByEmail? user.email = none) := by
  obtain ⟨t, ht, hreached⟩ := exists_tables_reached operations
  refine ⟨t, hreached, ⟨ht.users, fun id user => find?_key_eq_some_iff ht.users, ?_⟩, ?_⟩
  · intro user _
    exact find?_key_eq_none.2 fun hmem => ((mem_map_key_filter user.id).1 hmem).2 rfl
  · intro hspares
    have hemails : t.users.emails.Nodup :=
      (sparesEmails_iff operations).1 hspares operations t (List.prefix_refl _) hreached
    exact ⟨hemails, fun email user => find?_key_eq_some_iff hemails,
      fun user huser => UserTable.findByEmail?_delete hemails huser⟩

/-- An email may go from one user to another when the first has given it up. -/
theorem users_unique_handed_on :
    let ann := User.make (.ofNat 1) "ann@example.org" "Ann" "Lee" default
    let bob := User.make (.ofNat 2) "bob@example.org" "Bob" "Ray" default
    let operations : List Operation := [.users (.create ann), .users (.create bob),
      .users (.update { ann with email := "lee@example.org" }),
      .users (.update { bob with email := ann.email })]
    SparesEmails operations ∧
      ∃ t : Tables, reached operations = t.stores ∧ t.users.emails.Nodup ∧
        ∀ email user,
          t.users.findByEmail? email = some user ↔ user ∈ t.users ∧ user.email = email := by
  intro ann bob operations
  have hall : ∀ before ∈ operations.inits,
      ((history before).run Tables.answer .empty).2.users.emails.Nodup := by decide
  have hspares : SparesEmails operations := by
    rw [sparesEmails_iff]
    intro before t hprefix hreached
    rw [← Tables.stores_injective ((reached_eq before).symm.trans hreached)]
    exact hall before ((List.mem_inits _ _).2 hprefix)
  obtain ⟨t, hreached, -, hemails⟩ := users_unique operations
  exact ⟨hspares, t, hreached, (hemails hspares).1, (hemails hspares).2.1⟩

/-- After an update to the email of another user both have it, and when that other one is deleted
somebody is still found under it. -/
theorem update_shares_email :
    let ann := User.make (.ofNat 1) "ann@example.org" "Ann" "Lee" default
    let bob := User.make (.ofNat 2) "bob@example.org" "Bob" "Ray" default
    ∃ t : Tables,
      reached [.users (.create ann), .users (.create bob),
        .users (.update { bob with email := ann.email })] = t.stores ∧
      ¬t.users.emails.Nodup ∧ ann ∈ t.users ∧
      (t.users.delete ann.id).findByEmail? ann.email ≠ none := by
  intro ann bob
  refine ⟨⟨[ann, { bob with email := ann.email }], .empty, .empty⟩, ?_, ?_, ?_, ?_⟩
  · exact (reached_eq _).trans (congrArg Tables.stores rfl)
  · decide
  · exact List.mem_cons_self
  · decide

end Operation

end Gatehouse
