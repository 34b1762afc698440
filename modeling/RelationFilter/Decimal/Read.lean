import RelationFilter.Decimal.Nearest
import RelationFilter.Text.Keyword

namespace RelationFilter.Decimal

def digitValue (c : Char) : Nat := c.toNat - '0'.toNat

def ofDigits (digits : List Char) : Nat := digits.foldl (fun n c => 10 * n + digitValue c) 0

def takeSign : List Char → Bool × List Char
  | '-' :: rest => (true, rest)
  | '+' :: rest => (false, rest)
  | rest => (false, rest)

def allDigits (cs : List Char) : Bool := cs.all Char.isDigit && !cs.isEmpty

def exponent? : List Char → Option Int
  | [] => some 0
  | c :: rest =>
    let (negative, digits) := takeSign rest
    if c.toLower = 'e' && allDigits digits then
      some (if negative then -(ofDigits digits : Int) else ofDigits digits)
    else none

def magnitude? (cs : List Char) : Option Float :=
  let whole := cs.takeWhile Char.isDigit
  let rest := cs.dropWhile Char.isDigit
  let (fraction, rest) := match rest with
    | '.' :: rest => (rest.takeWhile Char.isDigit, rest.dropWhile Char.isDigit)
    | rest => ([], rest)
  if whole.isEmpty && fraction.isEmpty then none
  else (exponent? rest).map fun e => nearest (ofDigits (whole ++ fraction)) (e - fraction.length)

def word? (cs : List Char) : Option Float :=
  match String.ofList (cs.map Char.toLower) with
  | "inf" | "infinity" => some (1.0 / 0.0)
  | "nan" => some (0.0 / 0.0)
  | _ => none

def float? (cs : List Char) : Option Float :=
  let (negative, rest) := takeSign cs
  ((word? rest).or (magnitude? rest)).map fun f => if negative then -f else f

def int64? (cs : List Char) : Option Int :=
  let (negative, digits) := takeSign cs
  if allDigits digits then
    let n : Int := if negative then -(ofDigits digits : Int) else ofDigits digits
    let bound : Int := Nat.pow 2 63
    if -bound ≤ n ∧ n < bound then some n else none
  else none

end RelationFilter.Decimal
