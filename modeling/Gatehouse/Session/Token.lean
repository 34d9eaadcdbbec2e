import Gatehouse.Digest.Hmac
import Gatehouse.Encoding.Base64Url
import Gatehouse.Session.Claims
import Gatehouse.Session.Header

/-!
# Session tokens

A token is three texts joined by dots: a header that names how it is signed, the claims, and the
signature of the first two under a secret, each in Base64 for URLs.  Tokens are signed with HMAC
over SHA-256 and in no other way.

A token is read from its end, so that the signature is what follows the last dot.  It is opened
only if its signature is exactly the text that signing would have produced and its claims can be
read; only then is it asked whether the session holds at present.  A token that cannot be opened
therefore never tells whether it would have been expired.
-/

namespace Gatehouse

namespace Token

/-! ## Writing -/

/-- The signature of the first two parts, as text. -/
def signature (secret : String) (signed : List Char) : List Char :=
  Base64Url.encode (Hmac.sign (Text.Utf8.encode secret) (Text.Utf8.encode (String.ofList signed)))

/-- The first two parts of a token. -/
def signedPart (claims : Claims) : List Char :=
  Base64Url.encode header.bytes ++ '.' :: Base64Url.encode (Claims.form.write claims).bytes

/-- The token for given claims. -/
def sign (secret : String) (claims : Claims) : List Char :=
  signedPart claims ++ '.' :: signature secret (signedPart claims)

/-- The token of a session that a user begins at a moment. -/
def issue (secret : String) (user : Uuid) (m : Session.Moment) : String :=
  String.ofList (sign secret (Claims.start user m))

/-! ## Opening -/

/-- A text cut at its last dot. -/
def splitLast? (cs : List Char) : Option (List Char × List Char) :=
  let last := cs.reverse.takeWhile (· != '.')
  if last.length = cs.length then none
  else some ((cs.reverse.drop (last.length + 1)).reverse, last.reverse)

/-- The values of the members of a given name. -/
def valuesOf (name : String) (members : List (Option String × Document)) : List Document :=
  (members.filter fun m => m.1 = some name).map Prod.snd

/-- Whether reading gets past the values that are held with brackets at most `depth` deep. -/
def passes (depth : Nat) (values : List Document) : Bool :=
  values.all fun d => d.hold depth != .caught

/-- Whether a document is a text. -/
def isText : Document → Bool
  | .text (.ok _) => true
  | _ => false

/-- Whether a value names an audience: a text, or a list of texts. -/
def namesAudience : Document → Bool
  | .array ds _ => ds.all isText
  | d => isText d

/-- An opened token. -/
structure Opened where
  claims : Claims
  /-- whether it is addressed to somebody; no audience is ever expected -/
  hasAudience : Bool

/-- The claims that bytes hold.  Subject, issuer and audience may each be named once.  The first
two mean nothing here, but like the audience they are held if they can be: a subject as a text, so
without brackets, the others whatever they are. -/
def claimsOf? (bytes : List UInt8) : Option Opened := do
  let document := Document.readWhole? bytes
  let claims ← Claims.form.ofDocument? document
  match document with
  | .object members _ =>
    let subjects := valuesOf "sub" members
    let issuers := valuesOf "iss" members
    let audiences := valuesOf "aud" members
    if subjects.length ≤ 1 ∧ issuers.length ≤ 1 ∧ audiences.length ≤ 1 ∧
        passes 0 subjects ∧ passes Document.maxDepth (issuers ++ audiences) ∧
        0 ≤ claims.expiresAt.toInt ∧ 0 ≤ claims.notBefore.toInt then
      some ⟨claims, audiences.any namesAudience⟩
    else none
  | _ => none

/-- What a token says, when it is signed with the secret and can be read. -/
def open? (secret : String) (token : List Char) : Option Opened := do
  let (signed, given) ← splitLast? token
  let (head, body) ← splitLast? signed
  let headBytes ← Base64Url.decode? head
  if isHeader headBytes ∧ given = signature secret signed then
    claimsOf? (← Base64Url.decode? body)
  else none

/-! ## Validating -/

/-- Whether claims hold at a second; both ends of the session belong to it. -/
def holdsAt (claims : Claims) (now : Int) : Bool :=
  claims.notBefore.toInt ≤ now && now ≤ claims.expiresAt.toInt

/-- The claims of a token that is accepted at a second.  Whether the session holds is looked at
before whom the token is addressed to. -/
def validate (secret : String) (now : Int) (token : String) : Except AuthError Claims :=
  match open? secret token.toList with
  | none => .error .invalidToken
  | some opened =>
    if holdsAt opened.claims now then
      if opened.hasAudience then .error .invalidToken else .ok opened.claims
    else .error .expiredToken

end Token

end Gatehouse
