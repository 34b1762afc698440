import RelationFilter.Schema.Catalog
import RelationFilter.Json.Basic

namespace RelationFilter

open Json

def optionalCount : Option UInt32 → Json
  | some n => .int n.toNat
  | none => .null

def SelectOptions.toJson (o : SelectOptions) : Json :=
  .object [("maxSelect", .int o.maxSelect.toNat), ("values", ofStrings o.values)]

def FileOptions.toJson (o : FileOptions) : Json :=
  .object [("maxSelect", .int o.maxSelect.toNat), ("maxSize", .int o.maxSize.toNat),
    ("mimeTypes", ofStrings o.mimeTypes), ("protected", .bool o.isProtected)]

def RelationOptions.toJson (o : RelationOptions) : Json :=
  .object [("cascadeDelete", .bool o.cascadeDelete), ("collectionId", .string o.collectionId),
    ("maxSelect", optionalCount o.maxSelect), ("minSelect", optionalCount o.minSelect)]

def FieldKind.optionsJson : FieldKind → Json
  | select o => o.toJson
  | file o => o.toJson
  | relation o => o.toJson
  | _ => .object []

def Field.toJson (f : Field) : Json :=
  .object [("id", .string f.id), ("name", .string f.name), ("options", f.kind.optionsJson),
    ("required", .bool f.required), ("system", .bool f.system), ("type", .string f.kind.name)]

def Collection.toJson (c : Collection) : Json :=
  .object [("id", .string c.id), ("indexes", ofStrings c.indexes), ("name", .string c.name),
    ("schema", .array (c.fields.map Field.toJson)), ("system", .bool c.system), ("type", .string c.kind.name)]

def Catalog.toJson (cat : Catalog) : Json := .array (cat.collections.map Collection.toJson)

end RelationFilter
