/-!
# Days and instants

The Gregorian calendar is extended backwards without a gap; the year zero exists and is a leap year.
Days are numbered from the first of January of that year.

An instant is one of universal time, to the nanosecond. A leap second has no number of its own: it
is the second before it, with a full second of nanoseconds on top, so that it differs from the
second after it.
-/

namespace Conformance

attribute [local instance (high)] Zero.ofOfNat0

/-- A day by its year, month and day of the month, the last two counted from one. -/
structure CalendarDay where
  year : Int
  month : Nat
  day : Nat
  deriving DecidableEq

namespace CalendarDay

def isLeap (year : Int) : Bool := year % 4 == 0 && (year % 100 != 0 || year % 400 == 0)

def monthLengths (leap : Bool) : List Nat :=
  [31, if leap then 29 else 28, 31, 30, 31, 30, 31, 31, 30, 31, 30, 31]

def exists? (d : CalendarDay) : Bool :=
  d.month != 0 && d.day != 0 &&
    ((monthLengths (isLeap d.year))[d.month - 1]?).any (d.day ≤ ·)

/-- The days of the years `0, …, year - 1`. -/
def daysBefore (year : Nat) : Nat :=
  365 * year + (year + 3) / 4 - (year + 99) / 100 + (year + 399) / 400

/-- The days of 400 years, after which the calendar repeats. -/
def cycleDays : Nat := 146097

def number (d : CalendarDay) : Int :=
  let cycle := d.year / 400
  let months := (monthLengths (isLeap d.year)).take (d.month - 1)
  cycle * cycleDays + daysBefore (d.year % 400).toNat + months.sum + (d.day - 1 : Nat)

/-- The year of the given day of a cycle. -/
def yearOfCycle (day : Nat) : Nat :=
  let least := day / 366
  least + (if daysBefore (least + 1) ≤ day then 1 else 0) +
    (if daysBefore (least + 2) ≤ day then 1 else 0)

/-- Month and day of the month of the given day of a year, counted from zero; the list holds the
lengths of the months from `month` on. -/
def monthOfYear (month : Nat) : List Nat → Nat → Nat × Nat
  | [], day => (month, day + 1)
  | length :: rest, day =>
    if day < length then (month, day + 1) else monthOfYear (month + 1) rest (day - length)

def ofNumber (n : Int) : CalendarDay :=
  let inCycle := (n % cycleDays).toNat
  let yearInCycle := yearOfCycle inCycle
  let year := n / cycleDays * 400 + yearInCycle
  let (month, day) := monthOfYear 1 (monthLengths (isLeap year)) (inCycle - daysBefore yearInCycle)
  ⟨year, month, day⟩

end CalendarDay

/-- Seconds since the start of the year zero, and nanoseconds (of which a leap second has more
than a second's worth). -/
structure Instant where
  seconds : Int
  nanos : Nat
  deriving DecidableEq, Inhabited

namespace Instant

def nanosPerSecond : Nat := 1000000000

/-- A number with at least `width` digits. -/
def padded (width n : Nat) : List Char :=
  let digits := Nat.toDigits 10 n
  List.replicate (width - digits.length) '0' ++ digits

/-- A year has four digits, and a sign if it needs more or is before the year zero. -/
def writeYear (year : Int) : List Char :=
  if 0 ≤ year ∧ year ≤ 9999 then padded 4 year.natAbs
  else (if year < 0 then '-' else '+') :: padded 4 year.natAbs

/-- `YYYY-MM-DDTHH:MM:SS.mmmZ`, cut to milliseconds; a leap second is written `60`. -/
def write (t : Instant) : List Char :=
  let day := CalendarDay.ofNumber (t.seconds / 86400)
  let inDay := (t.seconds % 86400).toNat
  let second := inDay % 60 + t.nanos / nanosPerSecond
  let millis := t.nanos % nanosPerSecond / 1000000
  writeYear day.year ++ '-' :: padded 2 day.month ++ '-' :: padded 2 day.day ++
    'T' :: padded 2 (inDay / 3600) ++ ':' :: padded 2 (inDay / 60 % 60) ++
    ':' :: padded 2 second ++ '.' :: padded 3 millis ++ ['Z']

def text (t : Instant) : String := String.ofList t.write

end Instant

end Conformance
