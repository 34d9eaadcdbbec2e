import Gatehouse.Service.Body
import Gatehouse.Service.Error

/-!
# Signing up

Anybody may open an account.  Emails are compared as they are kept: without blanks around them
and in small letters, so one address has one account, however it was typed.
-/

namespace Gatehouse

open Http

/-- What somebody submits to open an account. -/
structure NewUser where
  email : String
  firstName : String
  lastName : String
deriving DecidableEq

namespace NewUser

/-- The members of a submitted account. -/
def form : Form NewUser where
  write n := .object [("email", .text n.email), ("first_name", .text n.firstName),
    ("last_name", .text n.lastName)]
  shape := .record [.required "email" .text, .required "first_name" .text,
    .required "last_name" .text]
  build?
    | .object [(_, .text email), (_, .text first), (_, .text last)] => some ⟨email, first, last⟩
    | _ => none

/-! ## Checking -/

/-- Whether an email is plausible: something stands before its first `@`, and a dot stands
somewhere behind it. -/
def isPlausibleEmail (email : List Char) : Bool :=
  let name := email.takeWhile (· != '@')
  !name.isEmpty && (email.drop (name.length + 1)).contains '.'

/-- Whether a text is more than blanks. -/
def isGiven (s : String) : Bool := !(Text.trim s.toList).isEmpty

/-- What is kept of a submitted account. -/
def normalised (n : NewUser) : NewUser :=
  ⟨Text.lowerAscii (Text.trimmed n.email), Text.trimmed n.firstName, Text.trimmed n.lastName⟩

/-- An account needs a plausible email and both names; the email is looked at first. -/
def validate (n : NewUser) : Except ServiceError Unit :=
  if !isPlausibleEmail (Text.trim n.email.toList) then
    .error (.invalidInput "a valid email is required")
  else if !(isGiven n.firstName && isGiven n.lastName) then
    .error (.invalidInput "first_name and last_name are required")
  else .ok ()

end NewUser

/-! ## Opening an account -/

/-- An account with the first token for it. -/
structure OpenedAccount where
  user : User
  token : String

/-- The members of an opened account. -/
def OpenedAccount.toJson (a : OpenedAccount) : Json :=
  .object [("user", User.form.write a.user), ("token", .text a.token)]

/-- The failure of a sign-up whose email has an account. -/
def ServiceError.emailTaken (email : String) : ServiceError :=
  .conflict ("user '" ++ email ++ "' already exists")

/-- Opens an account with a given id at a moment. -/
def signUp (tokens : TokenService) (id : Uuid) (now : Session.Moment) (submitted : NewUser) :
    Flow (Except ServiceError OpenedAccount) :=
  match submitted.validate with
  | .error e => pure (.error e)
  | .ok () => do
    let account := submitted.normalised
    let user := User.make id account.email account.firstName account.lastName now.instant
    let place ← Flow.usersInUse
    match ← Flow.users place (.findByEmail account.email) with
    | .error e => pure (.error (.ofStore e))
    | .ok (some _) => pure (.error (.emailTaken account.email))
    | .ok none =>
      match ← Flow.users place (.create user) with
      | .error e => pure (.error (.ofStore e))
      | .ok () => pure (.ok ⟨user, tokens.issue id now⟩)

end Gatehouse
