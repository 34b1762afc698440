import RelationFilter.Json.Record
import RelationFilter.Sql.Dialect

namespace RelationFilter

open Json

structure Settings where
  dialect : Dialect := .mysql
  /-- Paths of records may reach fields that are hidden, such as an e-mail address. -/
  allowHiddenFields : Bool := false
  maxNestedRelations : Nat := 6
  defaultPerPage : Nat := 30
  maxPerPage : Nat := 500
deriving DecidableEq, Repr

def Dialect.name : Dialect → String
  | mysql => "mysql"
  | sqlite => "sqlite"

def Dialect.ofName? : String → Option Dialect
  | "mysql" => some mysql
  | "sqlite" => some sqlite
  | _ => none

namespace Settings

def asSize (v : Json) : Read Nat := asBelow UInt64.size v

def readMember (s : Settings) (key : String) (v : Json) : Read Settings :=
  match key with
  | "dialect" => (asName Dialect.ofName? v).map fun d => { s with dialect := d }
  | "allowHiddenFields" => (asBool v).map fun b => { s with allowHiddenFields := b }
  | "maxNestedRelations" => (asSize v).map fun n => { s with maxNestedRelations := n }
  | "defaultPerPage" => (asSize v).map fun n => { s with defaultPerPage := n }
  | "maxPerPage" => (asSize v).map fun n => { s with maxPerPage := n }
  | _ => .ok s

def read (v : Json) : Read Settings := do
  (← record ["dialect", "allowHiddenFields", "maxNestedRelations", "defaultPerPage", "maxPerPage"] v).read readMember {}

def toJson (s : Settings) : Json :=
  .object [("allowHiddenFields", .bool s.allowHiddenFields), ("defaultPerPage", .int s.defaultPerPage),
    ("dialect", .string s.dialect.name), ("maxNestedRelations", .int s.maxNestedRelations),
    ("maxPerPage", .int s.maxPerPage)]

end Settings
end RelationFilter
