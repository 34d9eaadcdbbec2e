import Gatehouse.Json.Printer
import Gatehouse.Session.WebKey

/-!
# Token headers

The first part of a token says how it is signed and may say more about the key.  There is only
one way of signing, so nothing in a header is ever made use of; but a header is refused when it
names another way, or when one of its known members is not what it should be.
-/

namespace Gatehouse.Token

open Shape

/-- The name of the only way of signing. -/
def algorithm : String := "HS256"

/-- The header of every token that is issued. -/
def header : Json := .object [("typ", .text "JWT"), ("alg", .text algorithm)]

/-- The known members of a header. -/
def headerFields : List Field :=
  [.optional "typ" (nullable text) .null,
    .required "alg" (choice [algorithm]),
    .optional "cty" (nullable text) .null,
    .optional "jku" (nullable text) .null,
    .optional "jwk" (nullable WebKey.shape) .null,
    .optional "kid" (nullable text) .null,
    .optional "x5u" (nullable text) .null,
    .optional "x5c" (nullable (list text)) .null,
    .optional "x5t" (nullable text) .null,
    .optional "x5t#S256" (nullable text) .null]

/-- A header: an object, or the array of all its members' values. -/
def headerShape : Shape
  | .array ds closed =>
    if ds.length = headerFields.length then record headerFields (.array ds closed)
    else .error (.here .invalidLength)
  | document => record headerFields document

/-- Whether bytes are a header that names the one way of signing. -/
def isHeader (bytes : List UInt8) : Bool := (headerShape (Document.readWhole? bytes)).isOk

end Gatehouse.Token
