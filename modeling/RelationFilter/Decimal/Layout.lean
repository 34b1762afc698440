import RelationFilter.Decimal.Shortest

namespace RelationFilter.Decimal

/-- The least and the greatest exponent of the first digit that are written positionally (`none`: no bound), and
whether a whole number keeps a fraction of one zero. -/
structure Layout where
  least : Option Int
  greatest : Option Int
  wholeFraction : Bool

def Layout.isPositional (l : Layout) (x : Int) : Bool :=
  l.least.all (fun bound => decide (bound ≤ x)) && l.greatest.all (fun bound => decide (x ≤ bound))

def zeros (n : Nat) : List Char := List.replicate n '0'

def dropTrailingZeros (digits : List Char) : List Char :=
  match (digits.reverse.dropWhile (· = '0')).reverse with
  | [] => ['0']
  | rest => rest

def Layout.positional (l : Layout) (digits : List Char) (x : Int) : List Char :=
  if x < 0 then '0' :: '.' :: zeros (-x - 1).toNat ++ digits
  else
    let whole := x.toNat + 1
    if digits.length ≤ whole then
      digits ++ zeros (whole - digits.length) ++ if l.wholeFraction then ['.', '0'] else []
    else digits.take whole ++ '.' :: digits.drop whole

def scientific (digits : List Char) (x : Int) : List Char :=
  let fraction := if digits.length ≤ 1 then [] else '.' :: digits.drop 1
  digits.take 1 ++ fraction ++ 'e' :: (if x < 0 then '-' else '+') :: Nat.toDigits 10 x.natAbs

def Layout.write (l : Layout) (s : Scaled) : List Char :=
  let digits := Nat.toDigits 10 s.digits
  let x := s.exponent + digits.length - 1
  let shown := dropTrailingZeros digits
  if l.isPositional x then l.positional shown x else scientific shown x

def isNegative (f : Float) : Bool := f.toBits.toNat / Nat.pow 2 63 = 1

def Layout.magnitudeText (l : Layout) (f : Float) : List Char :=
  if f.isNaN then "NaN".toList
  else if f.isInf then "inf".toList
  else if f == 0 then l.positional ['0'] 0
  else l.write (Rounding.ofFloat f).shortest

def Layout.text (l : Layout) (f : Float) : String :=
  String.ofList ((if isNegative f && !f.isNaN then ['-'] else []) ++ l.magnitudeText f)

end RelationFilter.Decimal
