import Gatehouse.Json.Document
import Gatehouse.Json.Magnitude

/-!
# Shapes of JSON

What a reader expects of a document: a text, a whole number, a list, or a record with named
fields.  A shape takes a document to a value in normal form, in which a record is an object with
exactly its fields in their declared order, or says what is wrong.

The first fault in the order of the text is the one reported, whether it is a member that does
not fit or a place that is not JSON at all.  A member that no field asks for has only to be well
spelled.  A record may also be given as the array of its fields' values.
-/

namespace Gatehouse

/-! ## Faults -/

/-- What is wrong with a value that is well-formed JSON. -/
inductive Misfit where
  | missingField (name : String)
  | duplicateField (name : String)
  | invalidType
  | invalidLength
deriving DecidableEq

/-- One step on the way from a document to a value inside it. -/
inductive PathStep where
  | member (name : String)
  | item (index : Nat)
deriving DecidableEq

/-- Why a document was not accepted. -/
inductive Fault where
  /-- the bytes are not JSON -/
  | malformed
  /-- the value at the end of the path does not fit -/
  | unfit (path : List PathStep) (misfit : Misfit)
deriving DecidableEq

namespace Fault

/-- A fault of a value itself. -/
def here (misfit : Misfit) : Fault := .unfit [] misfit

/-- A fault seen from the value one step further out. -/
def under (step : PathStep) : Fault → Fault
  | .malformed => .malformed
  | .unfit path misfit => .unfit (step :: path) misfit

end Fault

/-! ## Shapes -/

/-- What a reader expects of a document. -/
abbrev Shape := Document → Except Fault Json

namespace Shape

open Document

/-- The fault of a document of the wrong kind.  A number too large to be held at all counts as
bytes that are not JSON, and so does a text that spells nothing. -/
def wrongKind : Document → Fault
  | .malformed => .malformed
  | .text (.error _) => .malformed
  | .number n => if n.fits then .here .invalidType else .malformed
  | _ => .here .invalidType

/-- A text. -/
def text : Shape
  | .text (.ok s) => .ok (.text s)
  | document => .error (wrongKind document)

/-- A value that may also be null. -/
def nullable (shape : Shape) : Shape
  | .null => .ok .null
  | document => shape document

/-- A whole number of sixty-four bits with a sign. -/
def integer : Shape
  | .number n =>
    match n.toInt? with
    | some i =>
      if -9223372036854775808 ≤ i ∧ i ≤ 9223372036854775807 then .ok (.number n)
      else .error (.here .invalidType)
    | none => .error (wrongKind (.number n))
  | document => .error (wrongKind document)

/-- One of the given names: a text, or an object whose one member has that name and holds
nothing. -/
def choice (names : List String) : Shape
  | .text (.ok s) => if s ∈ names then .ok (.text s) else .error (.here .invalidType)
  | .object [(some s, .null)] true =>
    if s ∈ names then .ok (.text s) else .error (.here .invalidType)
  | document => .error (wrongKind document)

/-- The items of a list, the first of which has the given index. -/
def items (shape : Shape) (closed : Bool) : Nat → List Document → Except Fault (List Json)
  | _, [] => if closed then .ok [] else .error .malformed
  | index, d :: rest =>
    match shape d with
    | .error fault => .error (fault.under (.item index))
    | .ok j =>
      match items shape closed (index + 1) rest with
      | .error fault => .error fault
      | .ok js => .ok (j :: js)

/-- A list of values of one shape. -/
def list (shape : Shape) : Shape
  | .array ds closed => (items shape closed 0 ds).map .array
  | document => .error (wrongKind document)

/-! ## Well-spelled values -/

mutual

/-- Whether a value that nobody asks for may be passed over: JSON stands there, whatever its
texts spell and however large its numbers are. -/
def passable : Document → Bool
  | .malformed => false
  | .array ds closed => closed && allPassable ds
  | .object ms closed => closed && allMembersPassable ms
  | _ => true

/-- `passable` for every item. -/
def allPassable : List Document → Bool
  | [] => true
  | d :: ds => passable d && allPassable ds

/-- `passable` for every member. -/
def allMembersPassable : List (Option String × Document) → Bool
  | [] => true
  | (_, d) :: ms => passable d && allMembersPassable ms

end

/-! ## Records -/

/-- A field of a record; one with a default may be absent. -/
structure Field where
  name : String
  shape : Shape
  default : Option Json

/-- A field that has to be there. -/
def Field.required (name : String) (shape : Shape) : Field := ⟨name, shape, none⟩

/-- A field that stands for `value` when it is absent. -/
def Field.optional (name : String) (shape : Shape) (value : Json) : Field :=
  ⟨name, shape, some value⟩

/-- The field of a given name. -/
def field? (fields : List Field) (name : String) : Option Field :=
  fields.find? fun f => f.name == name

/-- The values of the fields among the members of an object, in the order of the text. -/
def members (fields : List Field) (closed : Bool) :
    List (String × Json) → List (Option String × Document) → Except Fault (List (String × Json))
  | found, [] => if closed then .ok found else .error .malformed
  | _, (none, _) :: _ => .error .malformed
  | found, (some name, d) :: rest =>
    match field? fields name with
    | none => if passable d then members fields closed found rest else .error .malformed
    | some f =>
      if (found.lookup name).isSome then .error (.here (.duplicateField name))
      else match f.shape d with
        | .error fault => .error (fault.under (.member name))
        | .ok j => members fields closed (found ++ [(name, j)]) rest

/-- The record in normal form: every field in its declared order, absent ones by default. -/
def complete (found : List (String × Json)) : List Field → Except Fault (List (String × Json))
  | [] => .ok []
  | f :: fields =>
    match (found.lookup f.name).or f.default with
    | none => .error (.here (.missingField f.name))
    | some j =>
      match complete found fields with
      | .error fault => .error fault
      | .ok js => .ok ((f.name, j) :: js)

/-- The record whose fields' values are the items of an array; only fields with a default may be
left out, at the end. -/
def positional (closed : Bool) : Nat → List Field → List Document →
    Except Fault (List (String × Json))
  | _, [], [] => if closed then .ok [] else .error .malformed
  | _, [], _ :: _ => .error .malformed
  | index, f :: fields, [] =>
    if closed then
      match f.default with
      | none => .error (.here .invalidLength)
      | some j =>
        match positional closed (index + 1) fields [] with
        | .error fault => .error fault
        | .ok js => .ok ((f.name, j) :: js)
    else .error .malformed
  | index, f :: fields, d :: rest =>
    match f.shape d with
    | .error fault => .error (fault.under (.item index))
    | .ok j =>
      match positional closed (index + 1) fields rest with
      | .error fault => .error fault
      | .ok js => .ok ((f.name, j) :: js)

/-- A record with the given fields. -/
def record (fields : List Field) : Shape
  | .object ms closed =>
    match members fields closed [] ms with
    | .error fault => .error fault
    | .ok found => (complete found fields).map .object
  | .array ds closed => (positional closed 0 fields ds).map .object
  | document => .error (wrongKind document)

end Shape

end Gatehouse
