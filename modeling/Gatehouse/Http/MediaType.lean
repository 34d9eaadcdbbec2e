import Gatehouse.Http.Header

/-!
# Media types

What sort of content a request carries: `type/subtype`, the subtype perhaps with a suffix behind
its last `+`, and parameters `; name=value` whose values may stand in quotation marks.  Between
the marks nothing can be escaped: a backslash stands for itself.
-/

namespace Gatehouse.Http

/-- A media type without its parameters, in small letters. -/
structure MediaType where
  main : String
  subtype : String
deriving DecidableEq

namespace MediaType

/-! ## Parameters -/

/-- Whether a character may stand between quotation marks. -/
def isQuotedChar (c : Char) : Bool := decide (31 < c.toNat) && c.toNat != 127

/-- What follows a value that was opened by a quotation mark and has one character at least. -/
def afterQuoted : List Char → Option (List Char)
  | [] => none
  | c :: rest =>
    if c = '"' then some rest else if isQuotedChar c then afterQuoted rest else none

/-- What follows a value in quotation marks, behind its opening mark; the first character of the
value may be a quotation mark itself. -/
def afterOpening : List Char → Option (List Char)
  | '"' :: rest => afterQuoted rest
  | cs => afterQuoted cs

/-- Where the next parameter begins behind a value in quotation marks. -/
def nextParameter : List Char → Option (List Char)
  | [] => some []
  | c :: rest => if c = ';' then some rest else if c = ' ' then nextParameter rest else none

/-- What follows a parameter and its semicolon. -/
def afterParameter (cs : List Char) : Option (List Char) :=
  let name := cs.takeWhile isTokenChar
  match cs.drop name.length with
  | '=' :: '"' :: rest => if name.isEmpty then none else (afterOpening rest).bind nextParameter
  | '=' :: rest =>
    let value := rest.takeWhile isTokenChar
    if name.isEmpty then none
    else match rest.drop value.length with
      | [] => some []
      | ';' :: rest => if value.isEmpty then none else some rest
      | _ => none
  | _ => none

/-- Whether a text is a list of parameters; spaces may stand before each of them. -/
def areParameters : Nat → List Char → Bool
  | _, [] => true
  | 0, _ => false
  | fuel + 1, ' ' :: rest => areParameters fuel rest
  | fuel + 1, cs =>
    match afterParameter cs with
    | none => false
    | some rest => areParameters fuel rest

/-! ## The type itself -/

/-- The media type that a text spells. -/
def ofChars? (cs : List Char) : Option MediaType :=
  let main := cs.takeWhile isTokenChar
  match cs.drop main.length with
  | '/' :: rest =>
    let subtype := rest.takeWhile isTokenChar
    let parameters := rest.drop subtype.length
    let spelled := match parameters with
      | [] => true
      | ';' :: parameters => !subtype.isEmpty && areParameters parameters.length parameters
      | _ => false
    if !main.isEmpty && spelled then
      some ⟨Text.lowerAscii (String.ofList main), Text.lowerAscii (String.ofList subtype)⟩
    else none
  | _ => none

/-- The part of a subtype behind its last `+`; something has to stand before it. -/
def suffix? (type : MediaType) : Option (List Char) :=
  let cs := type.subtype.toList
  let last := (cs.reverse.takeWhile (· != '+')).reverse
  if last.length + 1 < cs.length then some last else none

/-- The subtype without its suffix. -/
def stem (type : MediaType) : List Char :=
  let cs := type.subtype.toList
  match type.suffix? with
  | none => cs
  | some suffix => cs.take (cs.length - suffix.length - 1)

/-- How JSON is called in a media type. -/
def jsonName : List Char := ['j', 's', 'o', 'n']

/-- Whether the type is JSON, or is written in JSON as its suffix says. -/
def isJson (type : MediaType) : Bool :=
  type.main == "application" && (type.stem == jsonName || type.suffix? == some jsonName)

end MediaType

/-- Whether the content announced by header fields is JSON. -/
def announcesJson (headers : List Header) : Bool :=
  match (Header.first? headers "content-type").bind plainText? with
  | none => false
  | some cs => (MediaType.ofChars? cs).any MediaType.isJson

end Gatehouse.Http
