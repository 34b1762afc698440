namespace RelationFilter.Decimal

def roundDiv (num den : Nat) : Nat :=
  let down := num / den
  let rest := 2 * (num % den)
  if rest < den || (rest = den && down % 2 = 0) then down else down + 1

def binaryExponent (num den : Nat) : Int :=
  let guess : Int := num.log2 - den.log2 - 52
  let fits : Bool := Nat.pow 2 52 * (den * Nat.pow 2 guess.toNat) ≤ num * Nat.pow 2 (-guess).toNat
  max (-1074) (if fits then guess else guess - 1)

def infinityBits : Nat := 0x7ff * Nat.pow 2 52

def nearestBits (num den : Nat) : Nat :=
  let q := binaryExponent num den
  min infinityBits ((q + 1074).toNat * Nat.pow 2 52 + roundDiv (num * Nat.pow 2 (-q).toNat) (den * Nat.pow 2 q.toNat))

def nearest (m : Nat) (e : Int) : Float :=
  let x := e + (Nat.toDigits 10 m).length
  if m = 0 || x < -400 then 0.0
  else if 400 < x then 1.0 / 0.0
  else Float.ofBits (nearestBits (m * Nat.pow 10 e.toNat) (Nat.pow 10 (-e).toNat)).toUInt64

end RelationFilter.Decimal
