import RelationFilter.Json.Parser
import RelationFilter.Json.Printer
import RelationFilter.Json.Record
import RelationFilter.Schema.Collection

namespace RelationFilter

open Json

structure AuthRecord where
  collection : Collection
  id : String
  data : Members

/-- The fields of the record; its id and its collection take precedence over the data. -/
def AuthRecord.members (a : AuthRecord) : Members :=
  ((a.data.insert "id" (.string a.id)).insert "collectionId" (.string a.collection.id)).insert "collectionName"
    (.string a.collection.name)

structure Request where
  context : String := ""
  method : String := ""
  query : Members := []
  headers : Members := []
  data : Members := []
  auth : Option AuthRecord := none

namespace Request

def ofMethod (method : String) : Request := { context := "default", method }

def readMember (r : Request) (key : String) (v : Json) : Read Request :=
  match key with
  | "context" => (asString v).map fun s => { r with context := s }
  | "method" => (asString v).map fun s => { r with method := s }
  | "query" => (asMembers v).map fun ms => { r with query := ms }
  | "headers" => (asMembers v).map fun ms => { r with headers := ms }
  | "data" => (asMembers v).map fun ms => { r with data := ms }
  | _ => .ok r

def read (v : Json) : Read Request := do
  (← record ["context", "method", "query", "headers", "data"] v).read readMember {}

def members (r : Request) : Members :=
  (match r.auth with
    | some a => [("auth", object a.members)]
    | none => []) ++
  [("context", .string r.context), ("data", object r.data), ("headers", object r.headers), ("method", .string r.method),
    ("query", object r.query)]

end Request

namespace Submitted

def itemText? (v : Json) : Option String := if v.isNull then none else some v.plainText

/-- The items of a submitted value: of an array, of a string that holds a JSON array, or the one value. -/
def items : Option Json → List String
  | none => []
  | some (.array vs) => vs.filterMap itemText?
  | some (.string s) =>
    if s.toList.contains '[' then
      match parse? s with
      | some (.array vs) => vs.filterMap itemText?
      | _ => [s]
    else [s]
  | some v => (itemText? v).toList

def addItem (found : List String) (item : String) : List String :=
  if item = "" || found.contains item then found else found ++ [item]

def uniqueItems (v : Option Json) : List String := (items v).foldl addItem []

end Submitted
end RelationFilter
