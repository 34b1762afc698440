import RelationFilter.Sql.Bindings

namespace RelationFilter

structure JoinOf (C : Type) where
  table : String
  aliasName : String
  on : C

/-- A chain of joins from a second copy of the base table, tied to the row of the first copy by its id, and the column
of the chain that holds the value. -/
structure ChainOf (C : Type) where
  baseAlias : String
  fromTable : String
  fromAlias : String
  value : String
  joins : List (JoinOf C)
  bindings : Bindings

inductive EntryOf (C : Type) where
  | value (v : Json)
  | condition (c : C)

inductive Condition where
  | raw (sql : String) (bindings : Bindings)
  | all (parts : List Condition)
  | any (parts : List Condition)
  | columns (pairs : List (String × EntryOf Condition))
  | oneOf (column : String) (values : List (EntryOf Condition)) (negated : Bool)
  | existence (inner : Condition) (negated : Bool)
  | negation (inner : Condition)
  | enclosed (inner : Condition)
  /-- The values of a chain as a subquery. -/
  | chainValues (chain : ChainOf Condition)
  /-- One row of a chain on which all the conditions hold. -/
  | chainRow (chain : ChainOf Condition) (conditions : List Condition)
deriving Inhabited

abbrev Join := JoinOf Condition
abbrev Chain := ChainOf Condition
abbrev Entry := EntryOf Condition

namespace Condition

def text (sql : String) : Condition := raw sql Bindings.empty

def putColumn (column : String) (entry : Entry) : List (String × Entry) → List (String × Entry)
  | [] => [(column, entry)]
  | (c, e) :: rest =>
    if column = c then (column, entry) :: rest
    else if column < c then (column, entry) :: (c, e) :: rest
    else (c, e) :: putColumn column entry rest

def ofColumns (pairs : List (String × Entry)) : Condition :=
  columns (pairs.foldl (fun pairs pair => putColumn pair.1 pair.2 pairs) [])

def columnIs (column : String) (value : Json) : Condition := columns [(column, .value value)]

def valueIn (column : String) (values : List Json) : Condition := oneOf column (values.map .value) false

end Condition

namespace ChainOf

def isRooted {C : Type} (m : ChainOf C) : Bool := m.baseAlias ≠ "" && m.fromTable ≠ "" && m.fromAlias ≠ ""

def isComplete {C : Type} (m : ChainOf C) : Bool := m.isRooted && m.value ≠ ""

end ChainOf
end RelationFilter
