import RelationFilter.Json.Record
import RelationFilter.Schema.Catalog
import RelationFilter.Json.Parser
import RelationFilter.Text.Quoted

namespace RelationFilter

open Json

namespace SelectOptions

def readMember (o : SelectOptions) (key : String) (v : Json) : Read SelectOptions :=
  match key with
  | "maxSelect" => (asUInt32 v).map fun n => { o with maxSelect := n }
  | "values" => (asStrings v).map fun ss => { o with values := ss }
  | _ => .ok o

def read (v : Json) : Read SelectOptions := do
  (← record ["maxSelect", "values"] v).read readMember {}

end SelectOptions

namespace FileOptions

def readMember (o : FileOptions) (key : String) (v : Json) : Read FileOptions :=
  match key with
  | "maxSelect" => (asUInt32 v).map fun n => { o with maxSelect := n }
  | "maxSize" => (asUInt64 v).map fun n => { o with maxSize := n }
  | "mimeTypes" => (asStrings v).map fun ss => { o with mimeTypes := ss }
  | "protected" => (asBool v).map fun b => { o with isProtected := b }
  | _ => .ok o

def read (v : Json) : Read FileOptions := do
  (← record ["maxSelect", "maxSize", "mimeTypes", "protected"] v).read readMember {}

end FileOptions

namespace RelationOptions

def readMember (o : RelationOptions) (key : String) (v : Json) : Read RelationOptions :=
  match key with
  | "collectionId" => (asString v).map fun s => { o with collectionId := s }
  | "cascadeDelete" => (asBool v).map fun b => { o with cascadeDelete := b }
  | "minSelect" => (asOption asUInt32 v).map fun n => { o with minSelect := n }
  | "maxSelect" => (asOption asUInt32 v).map fun n => { o with maxSelect := n }
  | _ => .ok o

def read (v : Json) : Read RelationOptions := do
  (← record ["collectionId", "cascadeDelete", "minSelect", "maxSelect"] v).read readMember {}

end RelationOptions

namespace FieldKind

/-- Options that are null count as none. Whatever is wrong with options is reported for their field. -/
def readOptions {α : Type} (field : String) (read : Json → Read α) (options : Json) : Read α :=
  match read (if options.isNull then object [] else options) with
  | .ok a => .ok a
  | .error _ => .error (.invalidOptions field)

def read (field kind : String) (options : Json) : Read FieldKind :=
  match kind with
  | "text" => .ok text
  | "number" => .ok number
  | "bool" => .ok bool
  | "email" => .ok email
  | "url" => .ok url
  | "editor" => .ok editor
  | "date" => .ok date
  | "json" => .ok json
  | "select" => (readOptions field SelectOptions.read options).map select
  | "file" => (readOptions field FileOptions.read options).map file
  | "relation" => (readOptions field RelationOptions.read options).map relation
  | kind => .error (.unknownKind field kind)

end FieldKind

structure FieldMembers where
  id : String := ""
  name : Option String := none
  kind : Option String := none
  system : Bool := false
  required : Bool := false
  options : Json := .null

def FieldMembers.readMember (f : FieldMembers) (key : String) (v : Json) : Read FieldMembers :=
  match key with
  | "id" => (asString v).map fun s => { f with id := s }
  | "name" => (asString v).map fun s => { f with name := some s }
  | "type" => (asString v).map fun s => { f with kind := some s }
  | "system" => (asBool v).map fun b => { f with system := b }
  | "required" => (asBool v).map fun b => { f with required := b }
  | "options" => .ok { f with options := v }
  | _ => .ok f

def Field.read (v : Json) : Read Field := do
  let r ← record ["id", "name", "type", "system", "required", "options"] v
  let f ← r.read FieldMembers.readMember {}
  let name ← r.need "name" f.name
  let kindName ← r.need "type" f.kind
  let kind ← FieldKind.read name kindName f.options
  pure ⟨f.id, name, f.system, f.required, kind⟩

def CollectionKind.ofName? : String → Option CollectionKind
  | "base" => some base
  | "auth" => some auth
  | "view" => some view
  | _ => none

structure CollectionMembers where
  id : Option String := none
  name : Option String := none
  kind : CollectionKind := .base
  system : Bool := false
  fields : List Field := []
  indexes : List String := []

def CollectionMembers.readMember (c : CollectionMembers) (key : String) (v : Json) : Read CollectionMembers :=
  match key with
  | "id" => (asString v).map fun s => { c with id := some s }
  | "name" => (asString v).map fun s => { c with name := some s }
  | "type" => (asName CollectionKind.ofName? v).map fun k => { c with kind := k }
  | "system" => (asBool v).map fun b => { c with system := b }
  | "schema" => (asList Field.read v).map fun fs => { c with fields := fs }
  | "indexes" => (asStrings v).map fun ss => { c with indexes := ss }
  | _ => .ok c

def Collection.read (v : Json) : Read Collection := do
  let r ← record ["id", "name", "type", "system", "schema", "indexes"] v
  let c ← r.read CollectionMembers.readMember {}
  let id ← r.need "id" c.id
  let name ← r.need "name" c.name
  pure ⟨id, name, c.kind, c.system, c.fields, c.indexes⟩

inductive LoadError where
  | shape
  | unreadable
  | malformed
  | invalid (reason : ReadError)
deriving DecidableEq, Repr

namespace LoadError

def reasonText : ReadError → Option String
  | .mismatch => none
  | .missing key => some ("missing field `" ++ key ++ "`")
  | .unknownKind field kind => some ("unknown type " ++ Text.quoted kind ++ " for field " ++ Text.quoted field)
  | .invalidOptions field => some ("invalid options for field " ++ Text.quoted field)

def message : LoadError → Option String
  | shape => some "expected a collection object or an array of collections"
  | unreadable => none
  | malformed => none
  | invalid reason => (reasonText reason).map ("invalid collection definition: " ++ ·)

end LoadError

namespace Catalog

def definitions (v : Json) : Except LoadError (List Collection) :=
  match v with
  | .array items => (items.mapM Collection.read).mapError .invalid
  | .object members => ((Collection.read (.object members)).map ([·])).mapError .invalid
  | _ => .error .shape

def load (cat : Catalog) (v : Json) : Except LoadError (Catalog × Nat) :=
  (definitions v).map fun cs => (cat.saveAll cs, cs.length)

def loadText (cat : Catalog) (text : String) : Except LoadError (Catalog × Nat) :=
  match parse? text with
  | some v => cat.load v
  | none => .error .malformed

end Catalog
end RelationFilter
