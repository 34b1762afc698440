import RelationFilter.Sql.Clause

namespace RelationFilter

structure Select where
  dialect : Dialect
  columns : List String := []
  distinct : Bool := false
  option : Option String := none
  tables : List String := []
  joins : List TableJoin := []
  filter : Option Condition := none
  groups : List String := []
  groupFilter : Option Condition := none
  order : List String := []
  limit : Option Nat := none
  offset : Nat := 0
  unions : List UnionMember := []
  bindings : Bindings := Bindings.empty

namespace Select

def replaceJoin (new : TableJoin) (j : TableJoin) : TableJoin := { j with kind := new.kind, on := new.on }

def putJoin (new : TableJoin) : List TableJoin → List TableJoin
  | [] => [new]
  | j :: rest => if j.reference = new.reference then replaceJoin new j :: rest else j :: putJoin new rest

def join (s : Select) (kind : JoinKind) (table : String) (on : Option Condition) : Select :=
  let (name, aliasName) := Sql.splitAlias (Text.trim table)
  { s with joins := putJoin ⟨kind, Text.trim name, aliasName, on⟩ s.joins }

def mainReference? (s : Select) : Option String :=
  s.tables.head?.map fun table =>
    match Sql.splitAlias (Text.trim table) with
    | (_, some aliasName) => aliasName
    | (name, none) => name

def both (current : Option Condition) (c : Condition) : Condition :=
  match current with
  | some current => .all [current, c]
  | none => c

def either (current : Option Condition) (c : Condition) : Condition :=
  match current with
  | some current => .any [current, c]
  | none => c

def restrict (s : Select) (c : Condition) : Select := { s with filter := some (both s.filter c) }

def widen (s : Select) (c : Condition) : Select := { s with filter := some (either s.filter c) }

def restrictGroups (s : Select) (c : Condition) : Select := { s with groupFilter := some (both s.groupFilter c) }

def widenGroups (s : Select) (c : Condition) : Select := { s with groupFilter := some (either s.groupFilter c) }

def bind (s : Select) (name : String) (value : Json) : Select := { s with bindings := s.bindings.insert name value }

/-- The statement. Values are bound in the order joins, conditions, group conditions, unions; unions follow the whole
main statement in parentheses. -/
def toStatement (s : Select) : Statement :=
  let joins := Sql.joinClause s.dialect s.joins s.bindings
  let filter := Sql.whereClause s.dialect s.filter joins.2
  let groupFilter := Sql.havingClause s.dialect s.groupFilter filter.2
  let body := Sql.clauses [Sql.selectClause s.dialect s.columns s.distinct s.option, Sql.fromClause s.dialect s.tables,
    joins.1, filter.1, Sql.groupClause s.dialect s.groups, groupFilter.1]
  let suffix := Sql.orderAndLimit s.dialect s.order s.limit s.offset
  let main := if suffix = "" then body else body ++ " " ++ suffix
  let unions := Sql.unionClause s.unions groupFilter.2
  ⟨if unions.1 = "" then main else "(" ++ main ++ ") " ++ unions.1, unions.2⟩

end Select
end RelationFilter
