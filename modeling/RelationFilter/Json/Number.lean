import RelationFilter.Decimal.Read
import RelationFilter.Json.Basic

namespace RelationFilter.Json

def takeFitting : Nat → List Char → Nat × List Char
  | n, [] => (n, [])
  | n, c :: rest =>
    let next := 10 * n + Decimal.digitValue c
    if next < UInt64.size then takeFitting next rest else (n, c :: rest)

def powerOfTen (n : Nat) : Float := Decimal.nearest 1 n

def scaleDown (f : Float) (n : Nat) : Float :=
  if n ≤ 308 then f / powerOfTen n
  else if f == 0.0 then f
  else scaleDown (f / powerOfTen 308) (n - 308)
termination_by n

def scaled? (m : Nat) (e : Int) : Option Float :=
  let f := m.toUInt64.toFloat
  if e < 0 then some (scaleDown f (-e).toNat)
  else if e ≤ 308 then
    let r := f * powerOfTen e.toNat
    if r.isInf then none else some r
  else if f == 0.0 then some f else none

structure NumberParts where
  negative : Bool
  whole : List Char
  fraction : Option (List Char)
  exponent : Option Int

def signed (negative : Bool) (f : Float) : Json := float (if negative then -f else f)

def NumberParts.value? (p : NumberParts) : Option Json :=
  let (m, dropped) := takeFitting 0 p.whole
  match p.fraction, p.exponent, dropped with
  | none, none, [] =>
    if !p.negative then some (int m)
    else if m = 0 || Nat.pow 2 63 < m then some (signed true m.toUInt64.toFloat)
    else some (int (-(m : Int)))
  | fraction, exponent, dropped =>
    let digits := fraction.getD []
    let (m, rest) := takeFitting m digits
    let e := exponent.getD 0
    if Nat.pow 2 31 ≤ e.natAbs then
      if 0 < e && m ≠ 0 then none else some (signed p.negative 0.0)
    else (scaled? m (dropped.length - (digits.length - rest.length : Nat) + e)).map (signed p.negative)

def takeWhole? (cs : List Char) : Option (List Char × List Char) :=
  let digits := cs.takeWhile Char.isDigit
  let rest := cs.dropWhile Char.isDigit
  match digits with
  | [] => none
  | '0' :: _ :: _ => none
  | _ => some (digits, rest)

def takeFraction? (cs : List Char) : Option (Option (List Char) × List Char) :=
  match cs with
  | '.' :: rest =>
    let digits := rest.takeWhile Char.isDigit
    if digits.isEmpty then none else some (some digits, rest.dropWhile Char.isDigit)
  | rest => some (none, rest)

def takeExponent? (cs : List Char) : Option (Option Int × List Char) :=
  match cs with
  | c :: rest =>
    if c = 'e' || c = 'E' then
      let (negative, rest) := Decimal.takeSign rest
      let digits := rest.takeWhile Char.isDigit
      let n : Int := Decimal.ofDigits digits
      if digits.isEmpty then none
      else some (some (if negative then -n else n), rest.dropWhile Char.isDigit)
    else some (none, c :: rest)
  | [] => some (none, [])

def takeNumber? (cs : List Char) : Option (Json × List Char) := do
  let (negative, rest) := match cs with
    | '-' :: rest => (true, rest)
    | rest => (false, rest)
  let (whole, rest) ← takeWhole? rest
  let (fraction, rest) ← takeFraction? rest
  let (exponent, rest) ← takeExponent? rest
  let value ← NumberParts.value? ⟨negative, whole, fraction, exponent⟩
  pure (value, rest)

end RelationFilter.Json
