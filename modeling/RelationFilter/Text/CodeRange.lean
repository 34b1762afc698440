namespace RelationFilter.Text

structure CodeRange where
  first : Nat
  last : Nat

def CodeRange.covers (r : CodeRange) (n : Nat) : Bool := r.first ≤ n && n ≤ r.last

def inTable (table : List (Nat × Nat)) (c : Char) : Bool :=
  table.any fun r => (CodeRange.mk r.1 r.2).covers c.toNat

end RelationFilter.Text
