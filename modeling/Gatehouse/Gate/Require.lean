import Gatehouse.Access.Principal
import Gatehouse.Session.Error

/-!
# Requiring rights

Each requirement is met by a principal or refused with the name of what is missing.
-/

namespace Gatehouse

namespace Principal

/-- Requires some permission that allows what is requested. -/
def ensure [Text.Engine] (p : Principal) (requested : String) : Except AuthError Unit :=
  if p.holds requested then .ok () else .error (.forbidden requested)

/-- Requires a permission of exactly the given scope that allows what is requested. -/
def ensureWithin [Text.Engine] (p : Principal) (scope : Scope) (requested : String) :
    Except AuthError Unit :=
  if p.holdsWithin scope requested then .ok ()
  else .error (.forbidden (scope.text ++ ":" ++ requested))

/-- Requires one of several rights; where none is named, nothing is required. -/
def ensureAny [Text.Engine] (p : Principal) (requested : List String) : Except AuthError Unit :=
  if requested.isEmpty || requested.any p.holds then .ok ()
  else .error (.forbidden (" | ".intercalate requested))

/-- The principal that a request was let in with. -/
def require (principal : Option Principal) : Except AuthError Principal :=
  match principal with
  | some p => .ok p
  | none => .error .unauthenticated

end Principal

end Gatehouse
