import RelationFilter.Sql.Condition
import RelationFilter.Sql.Dialect
import RelationFilter.Sql.Placeholder
import RelationFilter.Json.Printer
import RelationFilter.Text.Blank

namespace RelationFilter

namespace Sql

/-- Two or more parts stand in parentheses, a single part stands alone, and empty parts are left out. -/
def combine (operator : String) (parts : List String) : String :=
  match parts.filter (· ≠ "") with
  | [] => ""
  | [part] => part
  | parts => "(" ++ String.intercalate (") " ++ operator ++ " (") parts ++ ")"

def membership (d : Dialect) (column : String) (values : List String) (negated : Bool) : String :=
  match values, negated with
  | [], true => ""
  | [], false => "0=1"
  | [value], true => d.quoteColumn column ++ "<>" ++ value
  | [value], false => d.quoteColumn column ++ "=" ++ value
  | values, true => d.quoteColumn column ++ " NOT IN (" ++ String.intercalate ", " values ++ ")"
  | values, false => d.quoteColumn column ++ " IN (" ++ String.intercalate ", " values ++ ")"

def existence (sql : String) (negated : Bool) : String :=
  if sql = "" then if negated then "" else "0=1"
  else (if negated then "NOT EXISTS (" else "EXISTS (") ++ sql ++ ")"

def negation (sql : String) : String := if Text.allBlank sql then "" else "NOT (" ++ sql ++ ")"

def enclose (sql : String) : String := if sql = "" then "" else "(" ++ sql ++ ")"

def listValue (v : Json) (b : Bindings) : String × Bindings :=
  if v.isNull then ("NULL", b) else (":" ++ b.freeSlot, b.insert b.freeSlot v)

def listValues : List Json → Bindings → List String × Bindings
  | [], b => ([], b)
  | v :: rest, b =>
    let first := listValue v b
    let others := listValues rest first.2
    (first.1 :: others.1, others.2)

def columnValue (d : Dialect) (column : String) (v : Json) (b : Bindings) : String × Bindings :=
  match v with
  | .null => (d.quoteColumn column ++ " IS NULL", b)
  | .array items =>
    let values := listValues items b
    (membership d column values.1 false, values.2)
  | v => (d.quoteColumn column ++ " = :" ++ b.freeSlot, b.insert b.freeSlot v)

def leftJoin (d : Dialect) (table aliasName on : String) : String :=
  if on = "" then "LEFT JOIN " ++ d.tableWithAlias table aliasName
  else "LEFT JOIN " ++ d.tableWithAlias table aliasName ++ " ON " ++ on

def chainSource {C : Type} (d : Dialect) (m : ChainOf C) (joins : List String) : String :=
  String.intercalate " " (("FROM " ++ d.tableWithAlias m.fromTable m.fromAlias) :: joins ++
    ["WHERE " ++ d.quoteColumn (m.fromAlias ++ ".id") ++ " = " ++ d.quoteColumn (m.baseAlias ++ ".id")])

def rowConditions (parts : List String) : String :=
  String.join ((parts.filter (· ≠ "")).map fun part => " AND (" ++ part ++ ")")

end Sql

namespace Condition

open Sql

mutual

def render (d : Dialect) : Condition → Bindings → String × Bindings
  | raw sql own, b => (sql, b.merge own)
  | all parts, b =>
    let r := renderAll d parts b
    (combine "AND" r.1, r.2)
  | any parts, b =>
    let r := renderAll d parts b
    (combine "OR" r.1, r.2)
  | columns pairs, b =>
    let r := renderColumns d pairs b
    (String.intercalate " AND " r.1, r.2)
  | oneOf column values negated, b =>
    let r := renderEntries d values b
    (membership d column r.1 negated, r.2)
  | existence inner negated, b =>
    let r := render d inner b
    (Sql.existence r.1 negated, r.2)
  | negation inner, b =>
    let r := render d inner b
    (Sql.negation r.1, r.2)
  | enclosed inner, b =>
    let r := render d inner b
    (enclose r.1, r.2)
  | chainValues chain, b =>
    if chain.isComplete then
      let r := renderChain d chain b
      ("SELECT " ++ d.quoteColumn chain.value ++ " AS " ++ d.quoteColumnPart "multiMatchValue" ++ " " ++ r.1, r.2)
    else ("0=1", b)
  | chainRow chain conditions, b =>
    if chain.isRooted then
      let source := renderChain d chain b
      let r := renderAll d conditions source.2
      ("EXISTS (SELECT 1 " ++ source.1 ++ rowConditions r.1 ++ ")", r.2)
    else ("0=1", b)

def renderAll (d : Dialect) : List Condition → Bindings → List String × Bindings
  | [], b => ([], b)
  | c :: rest, b =>
    let first := render d c b
    let others := renderAll d rest first.2
    (first.1 :: others.1, others.2)

def renderColumns (d : Dialect) : List (String × EntryOf Condition) → Bindings → List String × Bindings
  | [], b => ([], b)
  | (column, .value v) :: rest, b =>
    let first := columnValue d column v b
    let others := renderColumns d rest first.2
    (first.1 :: others.1, others.2)
  | (_, .condition c) :: rest, b =>
    let first := render d c b
    let others := renderColumns d rest first.2
    (if first.1 = "" then others.1 else ("(" ++ first.1 ++ ")") :: others.1, others.2)

def renderEntries (d : Dialect) : List (EntryOf Condition) → Bindings → List String × Bindings
  | [], b => ([], b)
  | .value v :: rest, b =>
    let first := listValue v b
    let others := renderEntries d rest first.2
    (first.1 :: others.1, others.2)
  | .condition c :: rest, b =>
    let first := render d c b
    let others := renderEntries d rest first.2
    (first.1 :: others.1, others.2)

def renderChain (d : Dialect) : ChainOf Condition → Bindings → String × Bindings
  | ⟨baseAlias, fromTable, fromAlias, value, joins, own⟩, b =>
    let r := renderJoins d joins (b.merge own)
    (chainSource d (ChainOf.mk baseAlias fromTable fromAlias value joins own) r.1, r.2)

def renderJoins (d : Dialect) : List (JoinOf Condition) → Bindings → List String × Bindings
  | [], b => ([], b)
  | ⟨table, aliasName, on⟩ :: rest, b =>
    let first := render d on b
    let others := renderJoins d rest first.2
    (leftJoin d table aliasName first.1 :: others.1, others.2)

end

def toStatement (d : Dialect) (c : Condition) : Statement :=
  let r := c.render d Bindings.empty
  ⟨r.1, r.2⟩

end Condition

namespace ChainOf

/-- The chain without the column of its value: the placeholders are numbered by the order of binding, and the values
follow as JSON text. Two resolutions of one path have one signature. -/
def signature (d : Dialect) (m : Chain) : String :=
  let source := Condition.renderChain d m Bindings.empty
  let place (name : String) : Option String := (source.2.indexOf? name).map fun n => "$" ++ toString n
  renamePlaceholders place source.1 ++ " [" ++ String.intercalate "," (source.2.values.map Json.text) ++ "]"

end ChainOf
end RelationFilter
