import Roadbook.Format.Calendar
import Roadbook.Number.Literal

/-!
# Dates with times

`DateTime.read?` reads a date and a time of day in one of the forms of ISO 8601: a day by month, by
year or by week, then the time, then perhaps how far the clock is ahead of universal time. The
extended form has hyphens in the date and colons in the time, the basic one has neither. A minute
may have a second too many where universal time may have one, at the end of a month.
-/

namespace Roadbook

/-- A time of day, to the minute. -/
structure ClockTime where
  hour : Nat
  minute : Nat
  /-- In the second that follows the last one of the minute. -/
  isExtra : Bool
  deriving DecidableEq, Repr

structure DateTime where
  day : CalendarDay
  time : ClockTime
  /-- How many minutes the clock is ahead of universal time, if that is said. -/
  ahead : Option Int
  deriving DecidableEq, Repr

namespace DateTime

def minutesInDay : Int := 1440

/-- The minutes since midnight of the day, in universal time. They may lie beside the day. -/
def universalMinutes (d : DateTime) : Int := 60 * d.time.hour + d.time.minute - d.ahead.getD 0

/-- The day in universal time. A clock that does not say otherwise shows universal time. -/
def universalDay (d : DateTime) : CalendarDay := d.day.later (d.universalMinutes / minutesInDay)

/-- Whether the last minute of a month ends in universal time. -/
def endsMonth (d : DateTime) : Bool :=
  d.universalMinutes % minutesInDay = minutesInDay - 1 && d.universalDay.endsMonth &&
    d.universalDay.IsInCalendar

/-- Whether there is such a time: an extra second has to be at the end of a month, on a clock that
says how far it is ahead. -/
def IsReal (d : DateTime) : Prop := d.time.isExtra → d.ahead.isSome ∧ d.endsMonth

instance (d : DateTime) : Decidable d.IsReal := inferInstanceAs (Decidable (_ → _))

/-- The number that the first digits of a text make, and the text after them. -/
def digits? (count : Nat) (cs : List Char) : Option (Nat × List Char) :=
  let ds := cs.take count
  if ds.length = count && ds.all Literal.isDigit then some (digitsValue ds, cs.drop count)
  else none

/-- Some digits that make a number in a range. -/
def digitsIn? (count low high : Nat) (cs : List Char) : Option (Nat × List Char) := do
  let (n, rest) ← digits? count cs
  if low ≤ n ∧ n ≤ high then return (n, rest) else none

/-- A text without a mark at its start, which is there in one form and not in the other. -/
def mark? (c : Char) (isThere : Bool) (cs : List Char) : Option (List Char) :=
  if !isThere then some cs
  else if cs.head? = some c then some cs.tail
  else none

section Dates

/-- A year of four digits, or a sign and six. -/
def year? : List Char → Option (Int × List Char)
  | '+' :: cs => (digitsIn? 6 0 9999 cs).map fun (n, rest) => ((n : Int), rest)
  | '-' :: cs => (digitsIn? 6 0 9999 cs).map fun (n, rest) => (-(n : Int), rest)
  | cs => (digits? 4 cs).map fun (n, rest) => ((n : Int), rest)

/-- A month and a day. -/
def monthDay? (extended : Bool) (cs : List Char) : Option ((Nat × Nat) × List Char) := do
  let (month, rest) ← digitsIn? 2 1 12 cs
  let (day, rest) ← digitsIn? 2 1 99 (← mark? '-' extended rest)
  return ((month, day), rest)

/-- A week and a day of it. -/
def weekDay? (extended : Bool) (cs : List Char) : Option ((Nat × Nat) × List Char) := do
  let (week, rest) ← digitsIn? 2 1 99 (← mark? 'W' true cs)
  let (weekday, rest) ← digitsIn? 1 1 7 (← mark? '-' extended rest)
  return ((week, weekday), rest)

/-- A date, whether it is in extended form, and the rest. -/
def date? (cs : List Char) : Option ((CalendarDay × Bool) × List Char) := do
  let (year, rest) ← year? cs
  let extended := rest.head? = some '-'
  let cs := if extended then rest.tail else rest
  let (day, rest) ←
    match monthDay? extended cs with
    | some ((month, day), rest) => some (CalendarDay.ofMonth? year month day, rest)
    | none =>
      match digitsIn? 3 1 999 cs with
      | some (day, rest) => some (CalendarDay.ofYear? year day, rest)
      | none => (weekDay? extended cs).map fun ((week, weekday), rest) =>
        (CalendarDay.ofWeek? year week weekday, rest)
  return ((← day, extended), rest)

end Dates

section Times

/-- The sum of decimal places. -/
def fraction (ds : List Char) : Float :=
  (ds.foldl (fun (sum, unit) d => (sum + Float.ofNat (digitsValue [d]) / unit, unit * 10))
    ((0 : Float), (10 : Float))).1

/-- Two digits, which make a number up to a limit, and perhaps a fraction. -/
def component? (high : Nat) (cs : List Char) : Option ((Nat × Option Float) × List Char) := do
  let (n, rest) ← digitsIn? 2 0 high cs
  match rest with
  | c :: more =>
    if c = '.' ∨ c = ',' then
      let ds := more.takeWhile Literal.isDigit
      if ds.isEmpty then none
      else return ((n, some (fraction ds)), more.dropWhile Literal.isDigit)
    else return ((n, none), rest)
  | [] => return ((n, none), [])

/-- How many sixtieths a fraction comes to, the last one cut off. -/
def sixtieths (fraction : Float) : Nat := (fraction * 60).toUInt8.toNat

/-- Whether a fraction comes to less than a second when it is rounded to nanoseconds. -/
def isBelowSecond (fraction : Float) : Bool := (fraction * 1e9).round < 1e9

/-- The seconds; the answer is whether they make an extra second. -/
def seconds? (cs : List Char) : Option (Bool × List Char) := do
  let ((second, part), rest) ← component? 60 cs
  if part.all isBelowSecond then return (second == 60, rest) else none

/-- The minutes and the seconds, of which the latter may make an extra second. In extended form the
minutes have to be there, and the seconds after another colon. -/
def minutes? (extended : Bool) (cs : List Char) : Option ((Nat × Bool) × List Char) :=
  match component? 59 cs with
  | some ((minute, some part), rest) => some ((minute, sixtieths part = 60), rest)
  | some ((minute, none), rest) =>
    let plain := some ((minute, false), rest)
    let withSeconds (cs : List Char) := (seconds? cs).map fun (isExtra, rest) =>
      ((minute, isExtra), rest)
    match rest with
    | ':' :: cs => if extended then withSeconds cs else plain
    | _ => if extended || (digits? 2 rest).isNone then plain else withSeconds rest
  | none => if extended then none else some ((0, false), cs)

/-- A time of day, and the rest. A fraction ends it. -/
def time? (extended : Bool) (cs : List Char) : Option (ClockTime × List Char) := do
  let ((hour, part), rest) ← component? 23 cs
  match part, rest with
  | some part, _ =>
    if sixtieths part < 60 then return (⟨hour, sixtieths part, false⟩, rest) else none
  | none, _ =>
    let rest ← if rest.head? = some ':' then (if extended then some rest.tail else none)
      else some rest
    let ((minute, isExtra), rest) ← minutes? extended rest
    return (⟨hour, minute, isExtra⟩, rest)

end Times

/-- How many minutes the clock is ahead of universal time, if that is said: nothing, or hours and
perhaps minutes. -/
def ahead? (extended : Bool) : List Char → Option (Option Int)
  | [] => some none
  | ['Z'] => some (some 0)
  | c :: cs => do
    let sign : Int ← if c = '+' then some 1 else if c = '-' then some (-1) else none
    let (hours, rest) ← digitsIn? 2 0 25 cs
    let rest := if extended && rest.head? = some ':' then rest.tail else rest
    let (minutes, rest) := (digitsIn? 2 0 59 rest).getD (0, rest)
    if rest.isEmpty then return some (sign * (60 * hours + minutes)) else none

/-- The date and time that a text says. -/
def read? (text : String) : Option DateTime := do
  let ((day, extended), rest) ← date? text.toList
  let (time, rest) ← time? extended (← mark? 'T' true rest)
  let d : DateTime := ⟨day, time, ← ahead? extended rest⟩
  if d.IsReal then return d else none

end DateTime

end Roadbook
