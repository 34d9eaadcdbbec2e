import Gatehouse.Access.Form
import Gatehouse.Session.Error

/-!
# Session claims

What a session token says: whose session it is, when it was issued, and between which seconds it
holds.  A session lasts twelve hours, so it can begin only at a moment that is at least that far
from the end of representable time.
-/

namespace Gatehouse

namespace Session

/-- How many seconds a session lasts. -/
def lifetime : Int := 43200

/-- An instant at which a session can begin: its end can still be represented. -/
structure Moment where
  instant : Time.Instant
  room : instant.second + lifetime ≤ Time.lastSecond

/-- The moment at an instant, when a session can begin there. -/
def Moment.of? (t : Time.Instant) : Option Moment :=
  if h : t.second + lifetime ≤ Time.lastSecond then some ⟨t, h⟩ else none

/-- The whole second of a moment. -/
def Moment.second (m : Moment) : Int := m.instant.second

end Session

/-- What a session token says; times are in whole seconds since the beginning of 1970. -/
structure Claims where
  /-- the user's identifier, as text -/
  subject : String
  issuedAt : Int64
  notBefore : Int64
  expiresAt : Int64
deriving DecidableEq

namespace Claims

/-- The claims of a session that a user begins at a moment. -/
def start (user : Uuid) (m : Session.Moment) : Claims :=
  let issued := Int64.ofInt m.second
  ⟨user.text, issued, issued, Int64.ofInt (m.second + Session.lifetime)⟩

/-- The user whose session it is. -/
def user (c : Claims) : Except AuthError Uuid :=
  match Uuid.ofText? c.subject with
  | some u => .ok u
  | none => .error .invalidSubject

/-- The instant the token was issued at, when there is such an instant. -/
def issuedInstant? (c : Claims) : Option Time.Instant := Time.Instant.ofSecond? c.issuedAt.toInt

/-- The instant the session ends at, when there is such an instant. -/
def expiryInstant? (c : Claims) : Option Time.Instant := Time.Instant.ofSecond? c.expiresAt.toInt

/-- The members of claims; the times are whole numbers of sixty-four bits. -/
def form : Form Claims where
  write c := .object [("id", .text c.subject), ("iat", .int c.issuedAt.toInt),
    ("nbf", .int c.notBefore.toInt), ("exp", .int c.expiresAt.toInt)]
  shape := .record [.required "id" .text, .required "iat" .integer, .required "nbf" .integer,
    .required "exp" .integer]
  build?
    | .object [(_, .text id), (_, .number iat), (_, .number nbf), (_, .number exp)] => do
      some ⟨id, Int64.ofInt (← iat.toInt?), Int64.ofInt (← nbf.toInt?), Int64.ofInt (← exp.toInt?)⟩
    | _ => none

end Claims

end Gatehouse
