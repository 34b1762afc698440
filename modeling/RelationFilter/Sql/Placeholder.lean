import RelationFilter.Text.Word

namespace RelationFilter

inductive SqlPiece where
  | char (c : Char)
  | placeholder (name : List Char)
deriving DecidableEq, Repr

namespace SqlPiece

def chars : SqlPiece → List Char
  | char c => [c]
  | placeholder name => ':' :: name

/-- The pieces of a text. `pending` is the name that is being read, after its colon and in reverse. -/
def scan : (pending : Option (List Char)) → List Char → List SqlPiece
  | none, [] => []
  | some [], [] => [char ':']
  | some name, [] => [placeholder name.reverse]
  | none, c :: rest => if c = ':' then scan (some []) rest else char c :: scan none rest
  | some [], c :: rest =>
    if Text.isWord c then scan (some [c]) rest
    else if c = ':' then char ':' :: scan (some []) rest
    else char ':' :: char c :: scan none rest
  | some name, c :: rest =>
    if Text.isWord c then scan (some (c :: name)) rest
    else if c = ':' then placeholder name.reverse :: scan (some []) rest
    else placeholder name.reverse :: char c :: scan none rest

def ofText (sql : String) : List SqlPiece := scan none sql.toList

def text (pieces : List SqlPiece) : String := String.ofList (pieces.flatMap chars)

def rename (new : String → Option String) : SqlPiece → SqlPiece
  | char c => char c
  | placeholder name => placeholder ((new (String.ofList name)).getD (String.ofList name)).toList

end SqlPiece

def renamePlaceholders (new : String → Option String) (sql : String) : String :=
  SqlPiece.text ((SqlPiece.ofText sql).map (SqlPiece.rename new))

end RelationFilter
