import RelationFilter.Sql.Alias
import RelationFilter.Sql.Render

namespace RelationFilter

inductive JoinKind where
  | inner
  | left
  | right
deriving DecidableEq, Repr

def JoinKind.keyword : JoinKind → String
  | inner => "INNER JOIN"
  | left => "LEFT JOIN"
  | right => "RIGHT JOIN"

structure TableJoin where
  kind : JoinKind
  table : String
  aliasName : Option String
  on : Option Condition

def TableJoin.reference (j : TableJoin) : String := j.aliasName.getD j.table

structure UnionMember where
  all : Bool
  statement : Statement

namespace Sql

def commaList (items : List String) : String := String.intercalate ", " items

def selectColumn (d : Dialect) (column : String) : String :=
  match splitAlias (Text.trim column) with
  | (expression, some aliasName) => d.quoteColumn expression ++ " AS " ++ d.quoteColumnPart aliasName
  | (expression, none) => d.quoteColumn expression

def selectClause (d : Dialect) (columns : List String) (distinct : Bool) (option : Option String) : String :=
  let head := if distinct then "SELECT DISTINCT" else "SELECT"
  let head := match option with
    | some word => if word = "" then head else head ++ " " ++ word
    | none => head
  if columns.isEmpty then head ++ " *" else head ++ " " ++ commaList (columns.map (selectColumn d))

def tableSource (d : Dialect) (table : String) : String :=
  match splitAlias (Text.trim table) with
  | (name, some aliasName) => d.tableWithAlias name aliasName
  | (name, none) => d.quoteTable name

def fromClause (d : Dialect) (tables : List String) : String :=
  if tables.isEmpty then "" else "FROM " ++ commaList (tables.map (tableSource d))

def optionalCondition (d : Dialect) (c : Option Condition) (b : Bindings) : String × Bindings :=
  match c with
  | some c => c.render d b
  | none => ("", b)

def joinText (d : Dialect) (j : TableJoin) (on : String) : String :=
  let table := match j.aliasName with
    | some aliasName => d.tableWithAlias j.table aliasName
    | none => d.quoteTable j.table
  if on = "" then j.kind.keyword ++ " " ++ table else j.kind.keyword ++ " " ++ table ++ " ON " ++ on

def joinTexts (d : Dialect) : List TableJoin → Bindings → List String × Bindings
  | [], b => ([], b)
  | j :: rest, b =>
    let on := optionalCondition d j.on b
    let others := joinTexts d rest on.2
    (joinText d j on.1 :: others.1, others.2)

def joinClause (d : Dialect) (joins : List TableJoin) (b : Bindings) : String × Bindings :=
  let r := joinTexts d joins b
  (String.intercalate " " r.1, r.2)

def conditionClause (d : Dialect) (keyword : String) (c : Option Condition) (b : Bindings) : String × Bindings :=
  let r := optionalCondition d c b
  (if r.1 = "" then "" else keyword ++ " " ++ r.1, r.2)

def whereClause (d : Dialect) (c : Option Condition) (b : Bindings) : String × Bindings := conditionClause d "WHERE" c b

def havingClause (d : Dialect) (c : Option Condition) (b : Bindings) : String × Bindings :=
  conditionClause d "HAVING" c b

def groupClause (d : Dialect) (columns : List String) : String :=
  if columns.isEmpty then "" else "GROUP BY " ++ commaList (columns.map fun c => d.quoteColumn (Text.trim c))

def orderColumn (d : Dialect) (column : String) : String :=
  let column := Text.trim column
  match directionSplit? column.toList with
  | some (before, direction) => d.quoteColumn (String.ofList before) ++ " " ++ direction.keyword
  | none => d.quoteColumn column

def orderClause (d : Dialect) (columns : List String) : String :=
  if columns.isEmpty then "" else "ORDER BY " ++ commaList (columns.map (orderColumn d))

def clauses (parts : List String) : String := String.intercalate " " (parts.filter (· ≠ ""))

def orderAndLimit (d : Dialect) (columns : List String) (limit : Option Nat) (offset : Nat) : String :=
  clauses [orderClause d columns, d.limitOffset limit offset]

/-- The bindings of a member, added to those of the statement. A name that is taken there gets a fresh one; the first
component holds the old names with the new ones. -/
def adopt : List (String × Json) → Bindings → List (String × String) × Bindings
  | [], b => ([], b)
  | (name, value) :: rest, b =>
    if b.contains name then
      let others := adopt rest (b.insert b.freeSlot value)
      ((name, b.freeSlot) :: others.1, others.2)
    else adopt rest (b.insert name value)

def unionMember (m : UnionMember) (b : Bindings) : String × Bindings :=
  let r := adopt m.statement.bindings.entries b
  let sql := renamePlaceholders (fun name => r.1.lookup name) m.statement.sql
  ((if m.all then "UNION ALL (" else "UNION (") ++ sql ++ ")", r.2)

def unionTexts : List UnionMember → Bindings → List String × Bindings
  | [], b => ([], b)
  | m :: rest, b =>
    let first := unionMember m b
    let others := unionTexts rest first.2
    (first.1 :: others.1, others.2)

def unionClause (members : List UnionMember) (b : Bindings) : String × Bindings :=
  let r := unionTexts members b
  (String.intercalate " " r.1, r.2)

end Sql
end RelationFilter
