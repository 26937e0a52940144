import Conformance.Calendar.Instant
import Conformance.Text

/-!
# Reading timestamps

`YYYY-MM-DDTHH:MM:SS`, a fraction of a second if there is a point, and an offset from universal
time: `Z`, or a sign with hours and minutes. The text is read from left to right and the first
thing wrong with it is reported; only the size of the offset is looked at last.
-/

namespace Conformance.Timestamp

attribute [local instance (high)] instPowNat

inductive Flaw where
  | tooShort
  | invalid
  | outOfRange
  | tooLong
  deriving DecidableEq

def Flaw.reason : Flaw → String
  | tooShort => "premature end of input"
  | invalid => "input contains invalid characters"
  | outOfRange => "input is out of range"
  | tooLong => "trailing input"

def Flaw.message (flaw : Flaw) (text : String) : String :=
  "invalid date " ++ Text.quote text ++ ": " ++ flaw.reason

/-- A number of exactly `count` digits; `value` is what was read before. -/
def readDigits : Nat → Nat → List Char → Except Flaw (Nat × List Char)
  | 0, value, cs => .ok (value, cs)
  | count + 1, value, c :: rest =>
    if c.isDigit then readDigits count (value * 10 + (c.toNat - 48)) rest else .error .invalid
  | _ + 1, _, [] => .error .invalid

def readOneOf (allowed : List Char) : List Char → Except Flaw (List Char)
  | c :: rest => if c ∈ allowed then .ok rest else .error .invalid
  | [] => .error .invalid

def readDay (cs : List Char) : Except Flaw (CalendarDay × List Char) := do
  let (year, cs) ← readDigits 4 0 cs
  let cs ← readOneOf ['-'] cs
  let (month, cs) ← readDigits 2 0 cs
  let cs ← readOneOf ['-'] cs
  let (day, cs) ← readDigits 2 0 cs
  let date : CalendarDay := ⟨year, month, day⟩
  if date.exists? then .ok (date, cs) else .error .outOfRange

/-- The nanoseconds behind a point, if there is one: nine digits count, the others are passed
over. -/
def readFraction : List Char → Except Flaw (Nat × List Char)
  | '.' :: rest => do
    let (digits, cs) := rest.span Char.isDigit
    if digits.isEmpty then .error (if rest.isEmpty then .tooShort else .invalid)
    else
      let kept := digits.take 9
      .ok (Nat.ofDigitChars 10 kept 0 * 10 ^ (9 - kept.length), cs)
  | cs => .ok (0, cs)

/-- The text goes on, by `count` bytes at least. -/
def goesOn (count : Nat) (cs : List Char) : Except Flaw Unit :=
  if Text.byteLength cs < count then .error .tooShort else .ok ()

def readMinutes : List Char → Except Flaw (Nat × List Char)
  | a :: b :: rest =>
    if !a.isDigit || !b.isDigit then .error .invalid
    else if '6' ≤ a then .error .outOfRange
    else .ok ((a.toNat - 48) * 10 + (b.toNat - 48), rest)
  | _ => .error .invalid

def readOffset : List Char → Except Flaw (Int × List Char)
  | [] => .error .tooShort
  | c :: rest =>
    if c = 'Z' ∨ c = 'z' then .ok (0, rest)
    else do
      let negative ← if c = '+' then .ok false
        else if c = '-' ∨ c = '\u2212' then .ok true
        else .error .invalid
      goesOn 2 rest
      let (hours, rest) ← readDigits 2 0 rest
      goesOn 1 rest
      let rest ← readOneOf [':'] rest
      goesOn 2 rest
      let (minutes, rest) ← readMinutes rest
      let offset : Int := hours * 60 + minutes
      .ok (if negative then -offset else offset, rest)

def read (text : String) : Except Flaw Instant := do
  let cs := text.toList
  goesOn 19 cs
  let (day, cs) ← readDay cs
  let cs ← readOneOf ['T', 't', ' '] cs
  let (hour, cs) ← readDigits 2 0 cs
  let cs ← readOneOf [':'] cs
  let (minute, cs) ← readDigits 2 0 cs
  let cs ← readOneOf [':'] cs
  let (second, cs) ← readDigits 2 0 cs
  let (nanos, cs) ← readFraction cs
  if 23 < hour ∨ 59 < minute ∨ 60 < second then .error .outOfRange
  let (offset, cs) ← readOffset cs
  if !cs.isEmpty then .error .tooLong
  if 24 * 60 ≤ offset.natAbs then .error .outOfRange
  let wall : Int := day.number * 86400 + hour * 3600 + minute * 60 + min second 59
  .ok ⟨wall - offset * 60, nanos + if second = 60 then Instant.nanosPerSecond else 0⟩

end Conformance.Timestamp
