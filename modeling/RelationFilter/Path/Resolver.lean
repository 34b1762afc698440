import RelationFilter.Path.Error
import RelationFilter.Path.Operand
import RelationFilter.Sql.Select

namespace RelationFilter

class Resolver (σ : Type) where
  dialect : σ → Dialect
  resolve : String → σ → Except PathError Operand × σ
  /-- A placeholder with the given beginning that was not given out before. -/
  placeholder : String → σ → String × σ
  /-- Adds to the statement what the resolved paths need. -/
  update : σ → Select → Select

def numbered (start : String) (n : Nat) : String := start ++ toString n

end RelationFilter
