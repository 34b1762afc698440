import RelationFilter.Filter.Compile

namespace RelationFilter

structure SortField where
  name : String
  direction : Direction
deriving DecidableEq, Repr

namespace SortField

def ofText (text : String) : SortField :=
  match text.toList with
  | '-' :: rest => ⟨String.ofList rest, .descending⟩
  | '+' :: rest => ⟨String.ofList rest, .ascending⟩
  | _ => ⟨text, .ascending⟩

def ofList (text : String) : List SortField :=
  (((Text.split ',' text).map Text.trim).filter (· ≠ "")).map ofText

def isSortable (o : Operand) : Bool := o.bindings.size = 0 && o.text ≠ "" && Text.lowerAscii o.text ≠ "null"

variable {σ : Type} [Resolver σ]

def term (f : SortField) (s : σ) : Except FilterError String × σ :=
  if f.name = "@random" then (.ok (Resolver.dialect s).randomCall, s)
  else
    match Resolver.resolve f.name s with
    | (.error e, s) => (.error (.path e), s)
    | (.ok o, s) =>
      if isSortable o then (.ok (o.text ++ " " ++ f.direction.keyword), s) else (.error (.invalidSortField f.name), s)

end SortField
end RelationFilter
