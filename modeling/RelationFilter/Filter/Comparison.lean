import RelationFilter.Filter.Comparator
import RelationFilter.Json.Printer
import RelationFilter.Path.Operand
import RelationFilter.Sql.Dialect
import RelationFilter.Text.Keyword

namespace RelationFilter

namespace LikePattern

def isSpecial (c : Char) : Bool := c = '\\' || c = '%' || c = '_'

def hasUnescaped (target : Char) : (escaped : Bool) → List Char → Bool
  | _, [] => false
  | escaped, c :: rest => (c = target && !escaped) || hasUnescaped target (c = '\\' && !escaped) rest

def escape : List Char → List Char
  | [] => []
  | [c] => if isSpecial c then ['\\', c] else [c]
  | c :: next :: rest =>
    if c = '\\' && isSpecial next then c :: next :: escape rest
    else if isSpecial c then '\\' :: c :: escape (next :: rest)
    else c :: escape (next :: rest)

/-- The pattern of the texts that contain a text; a text with a wildcard of its own is a pattern already. -/
def containing (cs : List Char) : List Char :=
  if hasUnescaped '%' false cs then cs else '%' :: escape cs ++ ['%']

def ofValue (v : Json) : Json := .string (String.ofList (containing v.plainText.toList))

end LikePattern

namespace Operand

def isEmptyText (o : Operand) : Bool := ["", "null", "''", "\"\"", "``"].contains (Text.lowerAscii o.text)

def isEmptyValue : Json → Bool
  | .null => true
  | .string s => s = ""
  | _ => false

def hasEmptyValue (o : Operand) : Bool := o.bindings.values.any isEmptyValue

def isEmpty (o : Operand) : Bool := o.isEmptyText || (o.bindings.size = 1 && o.hasEmptyValue)

def isTruthWord (o : Operand) : Bool := ["1", "0", "false", "true"].contains (Text.lowerAscii o.text)

def isFilled (o : Operand) : Bool :=
  o.isTruthWord || (o.bindings.size ≠ 0 && !o.hasEmptyValue && !o.isEmptyText)

end Operand

namespace Comparison

def compared (l op r : String) : String := l ++ " " ++ op ++ " " ++ r

def shown (o : Operand) : String := if o.isEmpty then "''" else o.text

def equalitySql (equal : Bool) (left right : Operand) : String :=
  let op := if equal then "=" else "!="
  if left.direct || right.direct then compared left.text op right.text
  else if left.isEmpty && right.isEmpty then compared "''" op "''"
  else if left.isFilled || right.isFilled then compared (shown left) op (shown right)
  else if left.isEmpty then
    if equal then "(" ++ compared "''" op right.text ++ " OR " ++ right.text ++ " IS NULL)"
    else compared "''" op right.text
  else if right.isEmpty then
    if equal then "(" ++ compared left.text op "''" ++ " OR " ++ left.text ++ " IS NULL)"
    else compared left.text op "''"
  else compared ("COALESCE(" ++ left.text ++ ", '')") op ("COALESCE(" ++ right.text ++ ", '')")

def equality (equal : Bool) (left right : Operand) : Condition :=
  .raw (equalitySql equal left right) (left.bindings.merge right.bindings)

def ordered (op : String) (left right : Operand) : Condition :=
  .raw (compared left.text op right.text) (left.bindings.merge right.bindings)

/-- A test of likeness. A right side without values is a column, and is searched for as it is. -/
def likeness (d : Dialect) (keyword : String) (left right : Operand) : Condition :=
  if right.bindings.size = 0 then
    .raw (compared left.text keyword (d.containing right.text)) left.bindings
  else
    let patterns : Bindings := ⟨right.bindings.entries.map fun e => (e.1, LikePattern.ofValue e.2)⟩
    .raw (compared left.text keyword right.text ++ d.escapeClause) (left.bindings.merge patterns)

def condition (d : Dialect) (test : Test) (left right : Operand) : Condition :=
  match test with
  | .equal => equality true left right
  | .notEqual => equality false left right
  | .like => likeness d "LIKE" left right
  | .notLike => likeness d "NOT LIKE" left right
  | .less => ordered "<" left right
  | .lessEqual => ordered "<=" left right
  | .greater => ordered ">" left right
  | .greaterEqual => ordered ">=" left right

end Comparison
end RelationFilter
