import Gatehouse.Json.Hold
import Gatehouse.Json.Shape

/-!
# Keys described in JSON

A token may describe the key it is signed with.  Nothing is ever checked with a key from there,
but a description that describes no key makes the token unreadable.

A description is an object.  Some of its members say what the key is for; each of them may be
left out or null.  The others make it a key of one of four kinds, told apart by `kty`.  Members
that mean nothing for its kind are not looked at, except that every member has to be held.
-/

namespace Gatehouse.WebKey

open Shape

/-- The names of the algorithms that a key may be meant for. -/
def algorithms : List String :=
  ["HS256", "HS384", "HS512", "ES256", "ES384", "RS256", "RS384", "RS512", "PS256", "PS384",
    "PS512", "EdDSA", "RSA1_5", "RSA-OAEP", "RSA-OAEP-256"]

/-- The name of an algorithm; where it is given as the one member of an object, that member may
also hold an empty object. -/
def algorithm : Shape
  | .object [(name, .object [] true)] closed =>
    choice algorithms (.object [(name, .null)] closed)
  | document => choice algorithms document

/-- The members that say what a key is for and where its certificate is found. -/
def purpose : List Field :=
  [.optional "use" (nullable text) .null,
    .optional "key_ops" (nullable (list text)) .null,
    .optional "alg" (nullable algorithm) .null,
    .optional "kid" (nullable text) .null,
    .optional "x5u" (nullable text) .null,
    .optional "x5c" (nullable (list text)) .null,
    .optional "x5t" (nullable text) .null,
    .optional "x5t#S256" (nullable text) .null]

/-- The name of a curve. -/
def curve : Shape := choice ["P-256", "P-384", "P-521", "Ed25519"]

/-- The members of each kind of key: a point on a curve, an RSA key, a secret, and one coordinate
of a point on a curve. -/
def kinds : List (List Field) :=
  [[.required "kty" (choice ["EC"]), .required "crv" curve, .required "x" text,
      .required "y" text],
    [.required "kty" (choice ["RSA"]), .required "n" text, .required "e" text],
    [.required "kty" (choice ["oct"]), .required "k" text],
    [.required "kty" (choice ["OKP"]), .required "crv" curve, .required "x" text]]

/-- A record in normal form, when the members make one. -/
def record? (fields : List Field) (document : Document) : Option Json :=
  (record fields document).toOption

/-- The description of a key: what it is for, and what it is. -/
def shape : Shape
  | .object members closed =>
    let document := Document.object members closed
    if document.hold Document.maxDepth = .whole then
      match record purpose document, kinds.findSome? fun fields => record? fields document with
      | .error fault, _ => .error fault
      | .ok _, none => .error (.here .invalidType)
      | .ok purpose, some kind => .ok (.array [purpose, kind])
    else .error .malformed
  | document => .error (wrongKind document)

end Gatehouse.WebKey
