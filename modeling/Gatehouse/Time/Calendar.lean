/-!
# Calendar

Dates of the Gregorian calendar, extended to all years, and the day numbers that count them
from 1 January 1970.

Years are taken to begin on 1 March, so that the leap day comes last and the months have the
same lengths every year.  A day number then falls into a year and a day within it, and that day
into a month and a day of the month; each step is undone exactly (`dayNumber_ofDayNumber`).  No
table of month lengths is needed: a date exists when it is the date of its own day number.
-/

namespace Gatehouse.Time

/-! ## Years that begin in March -/

/-- The day number of 1 March of a year. -/
def firstDay (year : Int) : Int :=
  year * 365 + year / 4 - year / 100 + year / 400 - 719468

/-- The year, beginning in March, that a day number falls into.  Four centuries have 146097
days, a century 36524 and four years 1461; the last century of four and the last year of four
may have one day more. -/
def yearOf (n : Int) : Int :=
  let days := n + 719468
  let centuries := min (days % 146097 / 36524) 3
  let inCentury := days % 146097 - centuries * 36524
  let years := min (inCentury % 1461 / 365) 3
  days / 146097 * 400 + centuries * 100 + inCentury / 1461 * 4 + years

/-- How many days of its year have passed before a day. -/
def dayOfYear (n : Int) : Int := n - firstDay (yearOf n)

theorem firstDay_cycles {cycles centuries quads years : Int} (hc : 0 ≤ centuries ∧ centuries ≤ 3)
    (hq : 0 ≤ quads ∧ quads ≤ 24) (hy : 0 ≤ years ∧ years ≤ 3) :
    firstDay (cycles * 400 + centuries * 100 + quads * 4 + years) =
      cycles * 146097 + centuries * 36524 + quads * 1461 + years * 365 - 719468 := by
  have h4 : (cycles * 400 + centuries * 100 + quads * 4 + years) / 4 =
      cycles * 100 + centuries * 25 + quads := by omega
  have h100 : (cycles * 400 + centuries * 100 + quads * 4 + years) / 100 =
      cycles * 4 + centuries := by omega
  have h400 : (cycles * 400 + centuries * 100 + quads * 4 + years) / 400 = cycles := by omega
  rw [firstDay, h4, h100, h400]
  omega

theorem dayOfYear_bounds (n : Int) : 0 ≤ dayOfYear n ∧ dayOfYear n ≤ 365 := by
  simp only [dayOfYear, yearOf]
  have hcycle : 0 ≤ (n + 719468) % 146097 ∧ (n + 719468) % 146097 ≤ 146096 := by omega
  have hsplit : (n + 719468) / 146097 * 146097 + (n + 719468) % 146097 = n + 719468 := by omega
  generalize (n + 719468) / 146097 = cycles at *
  generalize (n + 719468) % 146097 = inCycle at *
  have hcent : 0 ≤ inCycle - min (inCycle / 36524) 3 * 36524 ∧
      inCycle - min (inCycle / 36524) 3 * 36524 ≤ 36524 := by omega
  have hc : 0 ≤ min (inCycle / 36524) 3 ∧ min (inCycle / 36524) 3 ≤ 3 := by omega
  generalize min (inCycle / 36524) 3 = centuries at *
  generalize hi : inCycle - centuries * 36524 = inCentury at *
  rw [firstDay_cycles hc (by omega) (by omega)]
  omega

/-! ## Dates -/

/-- A date; whether it exists in the calendar is `Date.Exists`. -/
structure Date where
  year : Int
  month : Nat
  day : Nat
deriving DecidableEq

namespace Date

/-- The day number of a date. -/
def dayNumber (d : Date) : Int :=
  if d.month ≤ 2 then firstDay (d.year - 1) + (153 * (d.month + 9) + 2) / 5 + (d.day - 1)
  else firstDay d.year + (153 * (d.month - 3) + 2) / 5 + (d.day - 1)

/-- The date of a day number; the months of five that begin in March have 153 days. -/
def ofDayNumber (n : Int) : Date :=
  let month := (5 * dayOfYear n + 2) / 153
  let day := dayOfYear n - (153 * month + 2) / 5 + 1
  if month < 10 then ⟨yearOf n, (month + 3).toNat, day.toNat⟩
  else ⟨yearOf n + 1, (month - 9).toNat, day.toNat⟩

/-- Taking a day number apart loses nothing. -/
theorem dayNumber_ofDayNumber (n : Int) : (ofDayNumber n).dayNumber = n := by
  obtain ⟨h0, h1⟩ := dayOfYear_bounds n
  have hn : firstDay (yearOf n) + dayOfYear n = n := by simp only [dayOfYear]; omega
  simp only [ofDayNumber]
  generalize dayOfYear n = d at *
  generalize yearOf n = y at *
  split
  · rename_i hm
    have h3 : ¬ ((5 * d + 2) / 153 + 3).toNat ≤ 2 := by omega
    simp only [dayNumber, if_neg h3]
    omega
  · rename_i hm
    have h2 : ((5 * d + 2) / 153 - 9).toNat ≤ 2 := by omega
    simp only [dayNumber, if_pos h2, Int.add_sub_cancel]
    omega

/-- A date exists when it is the date of its own day number. -/
def Exists (d : Date) : Prop := ofDayNumber d.dayNumber = d

instance (d : Date) : Decidable d.Exists := inferInstanceAs (Decidable (_ = _))

theorem exists_ofDayNumber (n : Int) : (ofDayNumber n).Exists := by
  simp [Exists, dayNumber_ofDayNumber]

end Date

end Gatehouse.Time
