import RelationFilter.Schema.Collection

namespace RelationFilter

structure Catalog where
  collections : List Collection := []
deriving Repr

namespace Catalog

def empty : Catalog := {}

def names (cat : Catalog) : List String := cat.collections.map Collection.name

def isStale (new c : Collection) : Bool := c.id ≠ new.id && Text.sameIgnoringCase c.name new.name

def put (new : Collection) : List Collection → List Collection
  | [] => [new]
  | c :: rest => if c.id = new.id then new :: rest else c :: put new rest

/-- Saves a collection. A collection with the same name and another id gives way. -/
def save (cat : Catalog) (c : Collection) : Catalog := ⟨put c (cat.collections.eraseP (isStale c))⟩

def saveAll (cat : Catalog) (cs : List Collection) : Catalog := cs.foldl save cat

/-- The collection with this id, else the first with this name. -/
def get? (cat : Catalog) (nameOrId : String) : Option Collection :=
  (cat.collections.find? fun c => c.id = nameOrId).or
    (cat.collections.find? fun c => Text.sameIgnoringCase c.name nameOrId)

def delete (cat : Catalog) (nameOrId : String) : Catalog :=
  match cat.get? nameOrId with
  | some found => ⟨cat.collections.eraseP fun c => c.id = found.id⟩
  | none => cat

end Catalog
end RelationFilter
