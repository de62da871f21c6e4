/-!
# Days of the calendar

Days are told by their year and their number in it. The calendar goes from the start of the year
-9999 to the end of the year 9999.
-/

namespace Roadbook

def isLeap (year : Int) : Bool := year % 4 = 0 && (year % 100 != 0 || year % 400 = 0)

def daysInYear (year : Int) : Nat := if isLeap year then 366 else 365

def daysInMonth (year : Int) (month : Nat) : Nat :=
  if month = 2 then (if isLeap year then 29 else 28)
  else if month = 4 ∨ month = 6 ∨ month = 9 ∨ month = 11 then 30
  else 31

/-- The number of days in the first months of a year. -/
def daysInMonths (year : Int) : Nat → Nat
  | 0 => 0
  | months + 1 => daysInMonths year months + daysInMonth year (months + 1)

/-- The day of the week, from 0 for Monday, on which a year starts. -/
def firstWeekday (year : Int) : Int :=
  let before := year - 1
  (365 * before + before / 4 - before / 100 + before / 400) % 7

/-- Of the weeks that start on a Monday a year has those with more than half of their days in it. -/
def weeksInYear (year : Int) : Nat :=
  if firstWeekday year = 3 ∨ (isLeap year ∧ firstWeekday year = 2) then 53 else 52

/-- A day by its number in a year, from 1. -/
structure CalendarDay where
  year : Int
  number : Int
  deriving DecidableEq, Repr

namespace CalendarDay

/-- A day of a year by a number that may lie beside the year, by not more than another year. -/
def near (year number : Int) : CalendarDay :=
  if number < 1 then ⟨year - 1, number + daysInYear (year - 1)⟩
  else if daysInYear year < number then ⟨year + 1, number - daysInYear year⟩
  else ⟨year, number⟩

/-- The day so many days later. -/
def later (d : CalendarDay) (days : Int) : CalendarDay := near d.year (d.number + days)

def ofMonth? (year : Int) (month day : Nat) : Option CalendarDay :=
  if day ≤ daysInMonth year month then some ⟨year, daysInMonths year (month - 1) + day⟩ else none

def ofYear? (year : Int) (day : Nat) : Option CalendarDay :=
  if day ≤ daysInYear year then some ⟨year, day⟩ else none

/-- The last year of the calendar. The first one is as far on the other side of zero. -/
def lastYear : Int := 9999

def IsInCalendar (d : CalendarDay) : Prop := -lastYear ≤ d.year ∧ d.year ≤ lastYear

instance (d : CalendarDay) : Decidable d.IsInCalendar := inferInstanceAs (Decidable (_ ∧ _))

/-- The number of the day on which the first week of a year starts. -/
def firstMonday (year : Int) : Int :=
  if firstWeekday year ≤ 3 then 1 - firstWeekday year else 8 - firstWeekday year

/-- A day of a week, from 1 for Monday. -/
def ofWeek? (year : Int) (week weekday : Nat) : Option CalendarDay :=
  let d := near year (firstMonday year + 7 * (week - 1) + (weekday - 1))
  if week ≤ weeksInYear year ∧ d.IsInCalendar then some d else none

/-- Whether a day is the last one of its month. -/
def endsMonth (d : CalendarDay) : Bool :=
  (List.range 12).any fun month => d.number = daysInMonths d.year (month + 1)

end CalendarDay

end Roadbook
