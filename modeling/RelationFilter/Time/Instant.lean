import RelationFilter.Json.Basic
import RelationFilter.Time.Calendar

namespace RelationFilter

/-- Seconds since the first of January 1970 and nanoseconds of the second. From `1000000000` on, the nanoseconds are those
of a leap second after it. -/
structure Instant where
  seconds : Int
  nanos : Nat
deriving DecidableEq, Repr

namespace Instant

def epochDay : Int := 719162

def secondsPerDay : Nat := 86400

def day (t : Instant) : Int := t.seconds / secondsPerDay + epochDay

def secondOfDay (t : Instant) : Nat := (t.seconds % secondsPerDay).toNat

def date (t : Instant) : Date := Date.ofDays t.day

def hour (t : Instant) : Nat := t.secondOfDay / 3600
def minute (t : Instant) : Nat := t.secondOfDay / 60 % 60
def second (t : Instant) : Nat := t.secondOfDay % 60

/-- The second that a text shows: a leap second is counted on, as the second 60 of a minute. -/
def shownSecond (t : Instant) : Nat := t.second + t.nanos / 1000000000

def millis (t : Instant) : Nat := t.nanos % 1000000000 / 1000000

def weekday (t : Instant) : Nat := ((t.day + 1) % 7).toNat

def threeDigits (n : Nat) : String :=
  if n < 10 then "00" ++ toString n else if n < 100 then "0" ++ toString n else toString n

def text (t : Instant) : String :=
  t.date.text ++ " " ++ Date.twoDigits t.hour ++ ":" ++ Date.twoDigits t.minute ++ ":" ++
    Date.twoDigits t.shownSecond ++ "." ++ threeDigits t.millis ++ "Z"

def startOfDay (day : Int) : Instant := ⟨(day - epochDay) * secondsPerDay, 0⟩

def endBeforeDay (day : Int) : Instant := ⟨(day - epochDay) * secondsPerDay - 1, 999000000⟩

def startOfMonth (t : Instant) : Instant := startOfDay (Date.toDays ⟨t.date.year, t.date.month, 1⟩)

def nextMonth (d : Date) : Date := if d.month = 12 then ⟨d.year + 1, 1, 1⟩ else ⟨d.year, d.month + 1, 1⟩

def endOfMonth (t : Instant) : Instant := endBeforeDay (nextMonth t.date).toDays

def lastYear : Int := 262142

def named? (t : Instant) (name : String) : Option Json :=
  match name with
  | "@now" => some (.string t.text)
  | "@second" => some (.int t.second)
  | "@minute" => some (.int t.minute)
  | "@hour" => some (.int t.hour)
  | "@day" => some (.int t.date.day)
  | "@month" => some (.int t.date.month)
  | "@weekday" => some (.int t.weekday)
  | "@year" => some (.int t.date.year)
  | "@todayStart" => some (.string (startOfDay t.day).text)
  | "@todayEnd" => some (.string (endBeforeDay (t.day + 1)).text)
  | "@monthStart" => some (.string t.startOfMonth.text)
  | "@monthEnd" => if lastYear < (nextMonth t.date).year then none else some (.string t.endOfMonth.text)
  | "@yearStart" => some (.string (startOfDay (Date.daysBeforeYear t.date.year)).text)
  | "@yearEnd" => some (.string (endBeforeDay (Date.daysBeforeYear (t.date.year + 1))).text)
  | _ => none

end Instant
end RelationFilter
