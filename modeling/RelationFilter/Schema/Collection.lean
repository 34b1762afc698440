import RelationFilter.Schema.Field
import RelationFilter.Schema.Index

namespace RelationFilter

inductive CollectionKind where
  | base
  | auth
  | view
deriving DecidableEq, Repr

def CollectionKind.name : CollectionKind → String
  | base => "base"
  | auth => "auth"
  | view => "view"

structure Collection where
  id : String
  name : String
  kind : CollectionKind := .base
  system : Bool := false
  fields : List Field := []
  indexes : List String := []
deriving DecidableEq, Repr

namespace Collection

def isAuth (c : Collection) : Bool := c.kind = .auth

def isView (c : Collection) : Bool := c.kind = .view

def field? (c : Collection) (name : String) : Option Field := c.fields.find? fun f => f.name = name

def systemFields (c : Collection) : List String :=
  if c.isAuth then ["id", "created", "updated", "username", "verified", "emailVisibility", "email"]
  else ["id", "created", "updated"]

def hasSystemField (c : Collection) (name : String) : Bool := c.systemFields.contains name

def indexSettles (column : String) (i : Index) : Bool :=
  i.isValid && i.unique &&
    match i.columns with
    | [only] => Text.sameIgnoringCase only.name column
    | _ => false

def isUniqueColumn (c : Collection) (column : String) : Bool :=
  c.indexes.any fun sql => indexSettles column (Index.parse sql)

def isCalled (c : Collection) (nameOrId : String) : Bool := c.id = nameOrId || Text.sameIgnoringCase c.name nameOrId

end Collection
end RelationFilter
