namespace RelationFilter.Decimal

structure Scaled where
  digits : Nat
  exponent : Int
deriving DecidableEq, Repr

/-- A positive value `value / unit` with the bounds `low / unit` and `high / unit` of the reals that round to it. -/
structure Rounding where
  value : Nat
  low : Nat
  high : Nat
  unit : Nat
  closed : Bool

def Rounding.ofBinary (m : Nat) (q : Int) (narrow : Bool) : Rounding :=
  let up : Nat := Nat.pow 2 q.toNat
  { value := 4 * m * up
    low := (4 * m - if narrow then 1 else 2) * up
    high := (4 * m + 2) * up
    unit := 4 * Nat.pow 2 (-q).toNat
    closed := m % 2 == 0 }

def Rounding.ofFloat (f : Float) : Rounding :=
  let bits := f.toBits.toNat
  let fraction := bits % Nat.pow 2 52
  let exponent : Nat := bits / Nat.pow 2 52 % Nat.pow 2 11
  if exponent = 0 then Rounding.ofBinary fraction (-1074) false
  else Rounding.ofBinary (Nat.pow 2 52 + fraction) ((exponent : Int) - 1075) (fraction == 0 && exponent != 1)

def Rounding.contains (r : Rounding) (d : Nat) (e : Int) : Bool :=
  let point := d * Nat.pow 10 e.toNat * r.unit
  let scale := Nat.pow 10 (-e).toNat
  if r.closed then r.low * scale ≤ point && point ≤ r.high * scale
  else r.low * scale < point && point < r.high * scale

def Rounding.onGrid? (r : Rounding) (e : Int) : Option Nat :=
  let step := Nat.pow 10 e.toNat * r.unit
  let target := r.value * Nat.pow 10 (-e).toNat
  let down := target / step
  let up := down + 1
  if r.contains down e then
    if r.contains up e then
      let middle := (down + up) * step
      some (if 2 * target < middle || (2 * target = middle && down % 2 = 0) then down else up)
    else some down
  else if r.contains up e then some up else none

def Rounding.magnitude (r : Rounding) : Int :=
  if r.unit ≤ r.value then (Nat.toDigits 10 (r.value / r.unit)).length - 1
  else -(Nat.toDigits 10 ((r.unit + r.value - 1) / r.value - 1)).length

def Rounding.shortest (r : Rounding) : Scaled :=
  let x := r.magnitude
  ((List.range 17).findSome? fun (k : Nat) =>
    (r.onGrid? (x - k)).map fun d => Scaled.mk d (x - k)).getD ⟨0, 0⟩

end RelationFilter.Decimal
