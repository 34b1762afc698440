import RelationFilter.Json.Basic

namespace RelationFilter

structure Bindings where
  entries : List (String × Json)
deriving Inhabited

namespace Bindings

def empty : Bindings := ⟨[]⟩

def size (b : Bindings) : Nat := b.entries.length

def names (b : Bindings) : List String := b.entries.map Prod.fst

def values (b : Bindings) : List Json := b.entries.map Prod.snd

def contains (b : Bindings) (name : String) : Bool := b.entries.any fun e => e.1 = name

def get? (b : Bindings) (name : String) : Option Json := (b.entries.find? fun e => e.1 = name).map Prod.snd

def indexOf? (b : Bindings) (name : String) : Option Nat := b.entries.findIdx? fun e => e.1 = name

def put (name : String) (value : Json) : List (String × Json) → List (String × Json)
  | [] => [(name, value)]
  | e :: rest => if e.1 = name then (name, value) :: rest else e :: put name value rest

/-- A name that is bound keeps its place and takes the new value; any other name comes last. -/
def insert (b : Bindings) (name : String) (value : Json) : Bindings := ⟨put name value b.entries⟩

def merge (b other : Bindings) : Bindings := other.entries.foldl (fun b e => b.insert e.1 e.2) b

def single (name : String) (value : Json) : Bindings := ⟨[(name, value)]⟩

def ofList (pairs : List (String × Json)) : Bindings := empty.merge ⟨pairs⟩

def slot (n : Nat) : String := "p" ++ toString n

def freeIndex (b : Bindings) : (tries n : Nat) → Nat
  | 0, n => n
  | tries + 1, n => if b.contains (slot n) then freeIndex b tries (n + 1) else n

/-- The free slot with the least number from the size on. Among `size + 1` slots one is free. -/
def freeSlot (b : Bindings) : String := slot (b.freeIndex b.size b.size)

def bind (b : Bindings) (value : Json) : String × Bindings := (b.freeSlot, b.insert b.freeSlot value)

end Bindings

structure Statement where
  sql : String
  bindings : Bindings
deriving Inhabited

end RelationFilter
