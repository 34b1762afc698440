import RelationFilter.Text.Split

namespace RelationFilter

inductive Dialect where
  | mysql
  | sqlite
deriving DecidableEq, Repr, Inhabited

namespace Dialect

def quoteMark : Dialect → Char
  | mysql => '\x60'
  | sqlite => '"'

def wrap (d : Dialect) (name : List Char) : List Char := d.quoteMark :: name ++ [d.quoteMark]

def isVerbatim (name : List Char) : Bool :=
  name.contains '(' || Text.hasTwice '\x7b' name || Text.hasTwice '[' name

def columnPart (d : Dialect) (name : List Char) : List Char :=
  if name.contains d.quoteMark || name = ['*'] then name else d.wrap name

def tablePart (d : Dialect) (name : List Char) : List Char :=
  if name.contains d.quoteMark then name else d.wrap name

def tableChars (d : Dialect) (name : List Char) : List Char :=
  if isVerbatim name then name else List.intercalate ['.'] ((name.splitOn '.').map d.tablePart)

def columnChars (d : Dialect) (name : List Char) : List Char :=
  if isVerbatim name then name
  else
    match Text.splitLast? '.' name with
    | some (table, column) => d.tableChars table ++ '.' :: d.columnPart column
    | none => d.columnPart name

def quoteColumnPart (d : Dialect) (name : String) : String := String.ofList (d.columnPart name.toList)

def quoteTablePart (d : Dialect) (name : String) : String := String.ofList (d.tablePart name.toList)

def quoteTable (d : Dialect) (name : String) : String := String.ofList (d.tableChars name.toList)

def quoteColumn (d : Dialect) (name : String) : String := String.ofList (d.columnChars name.toList)

def tableWithAlias (d : Dialect) (table aliasName : String) : String :=
  match d with
  | mysql => d.quoteTable table ++ " " ++ d.quoteTablePart aliasName
  | sqlite => d.quoteTable table ++ " AS " ++ d.quoteTablePart aliasName

def unlimited : Dialect → String
  | mysql => "18446744073709551615"
  | sqlite => "-1"

def limitOffset (d : Dialect) (limit : Option Nat) (offset : Nat) : String :=
  if limit.isNone && offset = 0 then ""
  else
    let bound := match limit with
      | some n => toString n
      | none => d.unlimited
    if offset = 0 then "LIMIT " ++ bound else "LIMIT " ++ bound ++ " OFFSET " ++ toString offset

def columnElements (d : Dialect) (column : String) : String :=
  let c := d.quoteColumn column
  match d with
  | mysql =>
    "JSON_TABLE(IF(JSON_VALID(" ++ c ++ ")," ++ c ++ ",JSON_ARRAY(" ++ c ++
      ")),'$[*]' COLUMNS(`value` VARCHAR(255) PATH '$'))"
  | sqlite => "json_each(CASE WHEN json_valid(" ++ c ++ ") THEN " ++ c ++ " ELSE json_array(" ++ c ++ ") END)"

def boundElements (d : Dialect) (placeholder : String) : String :=
  match d with
  | mysql => "JSON_TABLE(:" ++ placeholder ++ ",'$[*]' COLUMNS(`value` VARCHAR(255) PATH '$'))"
  | sqlite => "json_each(:" ++ placeholder ++ ")"

def elementCount (d : Dialect) (column : String) : String :=
  let c := d.quoteColumn column
  match d with
  | mysql =>
    "JSON_LENGTH(IF(JSON_VALID(" ++ c ++ ")," ++ c ++ ",IF(" ++ c ++ "='' OR " ++ c ++
      " IS NULL,JSON_ARRAY(),JSON_ARRAY(" ++ c ++ "))))"
  | sqlite =>
    "json_array_length(CASE WHEN json_valid(" ++ c ++ ") THEN " ++ c ++ " ELSE (CASE WHEN " ++ c ++ " = '' OR " ++ c ++
      " IS NULL THEN json_array() ELSE json_array(" ++ c ++ ") END) END)"

def jsonStep (path : String) : String :=
  match path.toList with
  | [] => path
  | c :: _ => if c = '[' then path else "." ++ path

def jsonExtract (d : Dialect) (column path : String) : String :=
  let c := d.quoteColumn column
  let p := jsonStep path
  match d with
  | mysql =>
    "(IF(JSON_VALID(" ++ c ++ "),JSON_EXTRACT(" ++ c ++ ",'$" ++ p ++ "'),JSON_EXTRACT(JSON_OBJECT('pb'," ++ c ++
      "),'$.pb" ++ p ++ "')))"
  | sqlite =>
    "(CASE WHEN json_valid(" ++ c ++ ") THEN JSON_EXTRACT(" ++ c ++ ", '$" ++ p ++
      "') ELSE JSON_EXTRACT(json_object('pb', " ++ c ++ "), '$.pb" ++ p ++ "') END)"

def containing (d : Dialect) (operand : String) : String :=
  match d with
  | mysql => "CONCAT('%'," ++ operand ++ ",'%')"
  | sqlite => "('%' || " ++ operand ++ " || '%')"

def escapeClause : Dialect → String
  | mysql => ""
  | sqlite => " ESCAPE '\\'"

def randomCall : Dialect → String
  | mysql => "RAND()"
  | sqlite => "RANDOM()"

end Dialect
end RelationFilter
