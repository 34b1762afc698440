namespace RelationFilter

structure SelectOptions where
  maxSelect : UInt32 := 0
  values : List String := []
deriving DecidableEq, Repr

structure FileOptions where
  maxSelect : UInt32 := 0
  maxSize : UInt64 := 0
  mimeTypes : List String := []
  isProtected : Bool := false
deriving DecidableEq, Repr

structure RelationOptions where
  collectionId : String := ""
  cascadeDelete : Bool := false
  minSelect : Option UInt32 := none
  maxSelect : Option UInt32 := none
deriving DecidableEq, Repr

def RelationOptions.isMultiple (o : RelationOptions) : Bool := o.maxSelect.all (1 < ·)

inductive FieldKind where
  | text
  | number
  | bool
  | email
  | url
  | editor
  | date
  | json
  | select (options : SelectOptions)
  | file (options : FileOptions)
  | relation (options : RelationOptions)
deriving DecidableEq, Repr

def FieldKind.name : FieldKind → String
  | text => "text"
  | number => "number"
  | bool => "bool"
  | email => "email"
  | url => "url"
  | editor => "editor"
  | date => "date"
  | json => "json"
  | select _ => "select"
  | file _ => "file"
  | relation _ => "relation"

structure Field where
  id : String := ""
  name : String
  system : Bool := false
  required : Bool := false
  kind : FieldKind
deriving DecidableEq, Repr

namespace Field

def isJson (f : Field) : Bool := f.kind = .json

def isNumber (f : Field) : Bool := f.kind = .number

/-- Whether the field may hold several values; `none` for the kinds that never do. -/
def isMultiple? (f : Field) : Option Bool :=
  match f.kind with
  | .select o => some (1 < o.maxSelect)
  | .file o => some (1 < o.maxSelect)
  | .relation o => some o.isMultiple
  | _ => none

def isArrayable (f : Field) : Bool := f.isMultiple?.isSome

def relation? (f : Field) : Option RelationOptions :=
  match f.kind with
  | .relation o => some o
  | _ => none

end Field
end RelationFilter
