namespace RelationFilter

structure Date where
  year : Int
  month : Nat
  day : Nat
deriving DecidableEq, Repr

namespace Date

def isLeap (year : Int) : Bool := year % 4 = 0 && (year % 100 ≠ 0 || year % 400 = 0)

def daysInMonth (year : Int) (month : Nat) : Nat :=
  match month with
  | 2 => if isLeap year then 29 else 28
  | 4 | 6 | 9 | 11 => 30
  | _ => 31

def daysBeforeYear (year : Int) : Int := 365 * (year - 1) + (year - 1) / 4 - (year - 1) / 100 + (year - 1) / 400

def daysBeforeMonth (year : Int) : (month : Nat) → Nat
  | 0 => 0
  | 1 => 0
  | month + 1 => daysBeforeMonth year month + daysInMonth year month

def toDays (d : Date) : Int := daysBeforeYear d.year + daysBeforeMonth d.year d.month + (d.day - 1)

def yearOfDay (n : Int) : Int :=
  let guess := n * 400 / 146097 + 1
  if daysBeforeYear (guess + 1) ≤ n then guess + 1
  else if n < daysBeforeYear guess then guess - 1
  else guess

def monthDay (year : Int) : (months : Nat) → (month dayOfYear : Nat) → Nat × Nat
  | 0, month, n => (month, n + 1)
  | months + 1, month, n =>
    if n < daysInMonth year month then (month, n + 1)
    else monthDay year months (month + 1) (n - daysInMonth year month)

def ofDays (n : Int) : Date :=
  let year := yearOfDay n
  let md := monthDay year 11 1 (n - daysBeforeYear year).toNat
  ⟨year, md.1, md.2⟩

def yearText (year : Int) : String :=
  let digits := toString year.natAbs
  let padded := String.ofList (List.replicate (4 - digits.length) '0') ++ digits
  if year < 0 then "-" ++ padded else if 9999 < year then "+" ++ padded else padded

def twoDigits (n : Nat) : String := if n < 10 then "0" ++ toString n else toString n

def text (d : Date) : String := yearText d.year ++ "-" ++ twoDigits d.month ++ "-" ++ twoDigits d.day

end Date
end RelationFilter
