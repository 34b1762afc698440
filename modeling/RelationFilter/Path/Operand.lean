import RelationFilter.Sql.Condition

namespace RelationFilter

structure Operand where
  text : String
  /-- Compared as it is, without a default for NULL. -/
  direct : Bool := false
  bindings : Bindings := Bindings.empty
  /-- The same value on a chain of joins of its own, if the path may have several values. -/
  chain : Option Chain := none
  /-- What becomes of the comparison that the operand takes part in. -/
  guard : Option (Condition → Condition) := none

namespace Operand

def null : Operand := { text := "NULL" }

def bound (placeholder : String) (value : Json) : Operand :=
  { text := ":" ++ placeholder, bindings := Bindings.single placeholder value }

def applyGuard (o : Operand) (c : Condition) : Condition :=
  match o.guard with
  | some guard => guard c
  | none => c

end Operand
end RelationFilter
