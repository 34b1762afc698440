import RelationFilter.Decimal.Layout

namespace RelationFilter

inductive Json where
  | null
  | bool (value : Bool)
  | int (value : Int)
  | float (value : Float)
  | string (value : String)
  | array (items : List Json)
  | object (members : List (String × Json))
deriving Inhabited

namespace Json

abbrev Members := List (String × Json)

def Members.insert (key : String) (value : Json) : Members → Members
  | [] => [(key, value)]
  | (k, v) :: rest =>
    if key = k then (key, value) :: rest
    else if key < k then (key, value) :: (k, v) :: rest
    else (k, v) :: Members.insert key value rest

def Members.ofList (pairs : List (String × Json)) : Members :=
  pairs.foldl (fun members pair => Members.insert pair.1 pair.2 members) []

def Members.get? (members : Members) (key : String) : Option Json :=
  (members.find? fun pair => pair.1 = key).map Prod.snd

def ofPairs (pairs : List (String × Json)) : Json := object (Members.ofList pairs)

def ofFloat (f : Float) : Json := if f.isFinite then float f else null

def ofStrings (items : List String) : Json := array (items.map string)

def isNull : Json → Bool
  | null => true
  | _ => false

def Members.nested? (members : Members) : List String → Option Json
  | [] => none
  | [key] => members.get? key
  | key :: next :: rest =>
    match members.get? key with
    | some (object inner) => Members.nested? inner (next :: rest)
    | _ => none

end Json
end RelationFilter
