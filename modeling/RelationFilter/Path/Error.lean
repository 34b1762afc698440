import RelationFilter.Text.Quoted

namespace RelationFilter

inductive PathCause where
  | disallowedField
  | emptyPath
  | unknownModifier (segment : String)
  | invalidCollectionPath
  | maxNestedRelations (segment : String)
  | unknownCollection (name : String)
  | unknownField (name : String)
  | notARelation (segment : String)
  | invalidBackRelation (segment : String)
  | missingTarget (field : String)
deriving DecidableEq, Repr

inductive PathCategory where
  | schemaLookup
  | pathSyntax
  | optionsInitialization
deriving DecidableEq, Repr

namespace PathCause

def category : PathCause → PathCategory
  | disallowedField | emptyPath | unknownModifier _ | invalidCollectionPath | maxNestedRelations _ => .pathSyntax
  | unknownCollection _ | unknownField _ | notARelation _ | invalidBackRelation _ => .schemaLookup
  | missingTarget _ => .optionsInitialization

def message : PathCause → String
  | disallowedField => "field is not allowed to be used in filters"
  | emptyPath => "empty field path"
  | unknownModifier segment => "unknown modifier in " ++ Text.quoted segment
  | invalidCollectionPath => "invalid @collection field path"
  | maxNestedRelations segment => "max nested relations reached at " ++ Text.quoted segment
  | unknownCollection name => "unknown collection " ++ Text.quoted name
  | unknownField name => "unknown field " ++ Text.quoted name
  | notARelation segment => "field " ++ Text.quoted segment ++ " is not a relation"
  | invalidBackRelation segment => "invalid back relation " ++ Text.quoted segment
  | missingTarget field =>
    "failed to initialize options of field " ++ Text.quoted field ++ ": missing related collection id"

end PathCause

structure PathError where
  path : String
  cause : PathCause
deriving DecidableEq, Repr

def PathError.message (e : PathError) : String :=
  "failed to resolve field " ++ Text.quoted e.path ++ ": " ++ e.cause.message

end RelationFilter
