import RelationFilter.Path.FieldList
import RelationFilter.Path.Resolver
import RelationFilter.Path.Segment

namespace RelationFilter

structure TableScope where
  dialect : Dialect
  fields : FieldList
  counter : Nat := 0

namespace TableScope

def operand? (d : Dialect) (path : String) : Except PathCause Operand :=
  match Text.split '.' path with
  | [] => .error .emptyPath
  | head :: rest =>
    let column := identifier head
    if column = "" then .error .emptyPath
    else if rest.isEmpty then .ok { text := d.quoteColumnPart column }
    else .ok { text := d.jsonExtract column (JsonPath.ofSegments rest), direct := true }

def resolve (path : String) (s : TableScope) : Except PathError Operand × TableScope :=
  if s.fields.allows path then ((operand? s.dialect path).mapError (PathError.mk path), s)
  else (.error ⟨path, .disallowedField⟩, s)

def placeholder (start : String) (s : TableScope) : String × TableScope :=
  (numbered start s.counter, { s with counter := s.counter + 1 })

instance : Resolver TableScope where
  dialect := TableScope.dialect
  resolve := resolve
  placeholder := placeholder
  update _ select := select

end TableScope
end RelationFilter
