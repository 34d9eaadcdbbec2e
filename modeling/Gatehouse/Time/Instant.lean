/-!
# Instants

A moment in UTC: the second it falls in, counted from the beginning of 1970, and the
nanoseconds since that second began.  A leap second is told as the continuation of the second
before it, so the nanoseconds may run on past one second.  Leap seconds come at the end of a
minute, but nothing keeps the nanoseconds of an instant from running on elsewhere.
-/

namespace Gatehouse.Time

/-- The first second that an instant can fall in, the first of the year -262143. -/
def firstSecond : Int := -8334601228800

/-- The last second that an instant can fall in, the last of the year 262142. -/
def lastSecond : Int := 8210266876799

/-- A moment in UTC. -/
structure Instant where
  second : Int
  nano : Nat
  second_mem : firstSecond ≤ second ∧ second ≤ lastSecond
  nano_lt : nano < 2000000000
deriving DecidableEq

namespace Instant

/-- The nanoseconds run on past one second at the end of a minute only, where leap seconds are. -/
def InPlace (t : Instant) : Prop := t.nano < 1000000000 ∨ t.second % 60 = 59

instance (t : Instant) : Decidable t.InPlace := inferInstanceAs (Decidable (_ ∨ _))

/-- The instant with the given parts, when there is one and any leap second in it is in place. -/
def make? (second : Int) (nano : Nat) : Option Instant :=
  if h : (firstSecond ≤ second ∧ second ≤ lastSecond) ∧
      (nano < 1000000000 ∨ nano < 2000000000 ∧ second % 60 = 59) then
    some ⟨second, nano, h.1, by omega⟩
  else none

theorem make?_parts {t : Instant} (h : t.InPlace) : make? t.second t.nano = some t :=
  dif_pos ⟨t.second_mem, h.imp_right fun hlast => ⟨t.nano_lt, hlast⟩⟩

/-- The instant at which a second begins, when there is one. -/
def ofSecond? (second : Int) : Option Instant := make? second 0

instance : Inhabited Instant := ⟨⟨0, 0, by decide, by decide⟩⟩

end Instant

end Gatehouse.Time
