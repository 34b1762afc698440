import RelationFilter.Path.Operand
import RelationFilter.Path.Segment
import RelationFilter.Sql.Dialect

namespace RelationFilter

inductive Side where
  | primary
  | copy
deriving DecidableEq, Repr

inductive Root where
  | base (table : String)
  | collection (table aliasName : String)
  | auth (table id : String)
  | submitted (source field : String) (ids : List String) (multiple : Bool)
  | submittedItems (field placeholder items : String) (multiple : Bool)
deriving DecidableEq, Repr

inductive Hop where
  | record (field table : String)
  | records (field table : String)
  | referrers (segment field table : String) (multiple : Bool)
  | elements (field : String) (multiple : Bool)
deriving DecidableEq, Repr

def always : Condition := .text "1=1"

namespace Root

def aliasOn (side : Side) : Root → String
  | base table => match side with
    | .primary => table
    | .copy => "__mm_" ++ table
  | collection _ aliasName => match side with
    | .primary => aliasName
    | .copy => "__mm" ++ aliasName
  | auth table _ => match side with
    | .primary => "__auth_" ++ table
    | .copy => "__mm___auth_" ++ table
  | submitted source field _ _ => match side with
    | .primary => identifier ("__data_" ++ source ++ "_" ++ field)
    | .copy => identifier ("__data_mm_" ++ source ++ "_" ++ field)
  | submittedItems field _ _ _ => match side with
    | .primary => "__dataEach_" ++ field ++ "_je"
    | .copy => "__mm__dataEach_" ++ field ++ "_je"

def placeholder (side : Side) (name : String) : String :=
  match side with
  | .primary => name
  | .copy => "mm" ++ name

def joins (d : Dialect) (side : Side) (r : Root) : List Join :=
  match r with
  | base _ => []
  | collection table _ => [⟨table, r.aliasOn side, always⟩]
  | auth table id => [⟨table, r.aliasOn side, .columnIs (r.aliasOn side ++ ".id") (.string id)⟩]
  | submitted source _ ids _ =>
    [⟨identifier source, r.aliasOn side, .valueIn (r.aliasOn side ++ ".id") (ids.map .string)⟩]
  | submittedItems _ name _ _ => [⟨d.boundElements (placeholder side name), r.aliasOn side, always⟩]

def bindings (side : Side) : Root → Bindings
  | submittedItems _ name items _ => Bindings.single (placeholder side name) (.string items)
  | _ => Bindings.empty

def isMultiple : Root → Bool
  | base _ => false
  | collection _ _ => true
  | auth _ _ => false
  | submitted _ _ _ multiple => multiple
  | submittedItems _ _ _ multiple => multiple

end Root

namespace Hop

def elementAlias (row field : String) : String := row ++ "_" ++ field ++ "_je"

def target (row : String) : Hop → String
  | record field _ => row ++ "_" ++ field
  | records field _ => row ++ "_" ++ field
  | referrers segment _ _ _ => row ++ "_" ++ segment
  | elements field _ => elementAlias row field

def referrerCondition (d : Dialect) (row segment field : String) (multiple : Bool) : String :=
  let new := row ++ "_" ++ segment
  if multiple then
    let je := elementAlias row segment
    row ++ ".id IN (SELECT " ++ je ++ ".value FROM " ++ d.columnElements (new ++ "." ++ field) ++ " " ++ je ++ ")"
  else new ++ "." ++ field ++ " = " ++ row ++ ".id"

def joins (d : Dialect) (row : String) (h : Hop) : List Join :=
  let new := h.target row
  match h with
  | record field table => [⟨table, new, .text (new ++ ".id = " ++ row ++ "." ++ field)⟩]
  | records field table =>
    let je := elementAlias row field
    [⟨d.columnElements (row ++ "." ++ field), je, always⟩,
      ⟨table, new, .text (new ++ ".id = " ++ je ++ ".value")⟩]
  | referrers segment field table multiple =>
    [⟨table, new, .text (referrerCondition d row segment field multiple)⟩]
  | elements field _ => [⟨d.columnElements (row ++ "." ++ field), new, always⟩]

def isMultiple : Hop → Bool
  | record _ _ => false
  | records _ _ => true
  | referrers _ _ _ multiple => multiple
  | elements _ multiple => multiple

end Hop

structure Route where
  root : Root
  hops : List Hop
deriving DecidableEq, Repr

namespace Route

def hopAlias (row : String) (hops : List Hop) : String := hops.foldl Hop.target row

def hopJoins (d : Dialect) : (row : String) → List Hop → List Join
  | _, [] => []
  | row, h :: rest => h.joins d row ++ hopJoins d (h.target row) rest

def aliasOn (side : Side) (r : Route) : String := hopAlias (r.root.aliasOn side) r.hops

def joins (d : Dialect) (side : Side) (r : Route) : List Join :=
  r.root.joins d side ++ hopJoins d (r.root.aliasOn side) r.hops

def isMultiple (r : Route) : Bool := r.root.isMultiple || r.hops.any Hop.isMultiple

end Route

inductive Arrival where
  | null
  | column (name : String) (guarded : Bool)
  | json (field path : String)
  | count (field : String)
  | element
deriving DecidableEq, Repr

namespace Arrival

def text (d : Dialect) (row : String) : Arrival → String
  | null => "NULL"
  | column name _ => row ++ "." ++ name
  | json field path => d.jsonExtract (row ++ "." ++ field) path
  | count field => d.elementCount (row ++ "." ++ field)
  | element => row ++ ".value"

def isDirect : Arrival → Bool
  | json _ _ => true
  | _ => false

def emailGuard (row : String) (c : Condition) : Condition :=
  .enclosed (.all [c, .text (row ++ ".emailVisibility = TRUE")])

def guard (row : String) : Arrival → Option (Condition → Condition)
  | column _ true => some (emailGuard row)
  | _ => none

end Arrival

namespace Route

def chain (d : Dialect) (table : String) (r : Route) (a : Arrival) : Chain where
  baseAlias := table
  fromTable := table
  fromAlias := (Root.base table).aliasOn .copy
  value := a.text d (r.aliasOn .copy)
  joins := r.joins d .copy
  bindings := r.root.bindings .copy

def operand (d : Dialect) (table : String) (r : Route) (a : Arrival) : Operand :=
  match a with
  | .null => .null
  | a =>
    { text := a.text d (r.aliasOn .primary)
      direct := a.isDirect
      bindings := r.root.bindings .primary
      chain := if r.isMultiple then some (r.chain d table a) else none
      guard := a.guard (r.aliasOn .primary) }

end Route
end RelationFilter
