import RelationFilter.Path.Allowed
import RelationFilter.Path.Request
import RelationFilter.Path.Resolver
import RelationFilter.Path.Walk
import RelationFilter.Settings

namespace RelationFilter

structure RecordScope where
  catalog : Catalog
  base : Collection
  request : Option Request
  settings : Settings
  /-- The collections seen so far; they are looked up before those of the catalog. -/
  loaded : List Collection
  joins : List Join
  counter : Nat

namespace RecordScope

def new (catalog : Catalog) (base : Collection) (request : Option Request) (settings : Settings) : RecordScope :=
  ⟨catalog, base, request, settings, [base], [], 0⟩

/-- What a path comes to: the operand or what stopped it, the route that was walked, if any, and the collections loaded
and the placeholders given out by then. -/
structure Visit where
  outcome : Except PathCause Operand
  route : Option Route := none
  loaded : List Collection
  counter : Nat

def Visit.joins (d : Dialect) (v : Visit) : List Join := v.route.elim [] (Route.joins d .primary)

def table (s : RecordScope) : String := identifier s.base.name

/-- A join takes the place of the one with its alias, or comes last. -/
def putJoin (new : Join) : List Join → List Join
  | [] => [new]
  | j :: rest => if j.aliasName = new.aliasName then new :: rest else j :: putJoin new rest

def putJoins (new : List Join) (joins : List Join) : List Join := new.foldl (fun joins j => putJoin j joins) joins

def registerJoin (s : RecordScope) (j : Join) : RecordScope := { s with joins := putJoin j s.joins }

def after (s : RecordScope) (v : Visit) : RecordScope :=
  { s with loaded := v.loaded, counter := v.counter, joins := putJoins (v.joins s.settings.dialect) s.joins }

def load (nameOrId : String) (s : RecordScope) : Option Collection × RecordScope :=
  let r := loadCollection s.catalog s.loaded nameOrId
  (r.1, { s with loaded := r.2 })

def remember (s : RecordScope) (c : Collection) : RecordScope := { s with loaded := rememberCollection s.loaded c }

def placeholder (start : String) (s : RecordScope) : String × RecordScope :=
  (numbered start s.counter, { s with counter := s.counter + 1 })

def rules (s : RecordScope) (lenient showHidden : Bool) : WalkRules :=
  ⟨s.catalog, s.settings.maxNestedRelations, lenient, s.settings.allowHiddenFields || showHidden⟩

def stay (s : RecordScope) (loaded : List Collection) (outcome : Except PathCause Operand) : Visit :=
  { outcome, loaded, counter := s.counter }

/-- Walks from a root. The joins of the route are registered also where the walk fails. -/
def follow (s : RecordScope) (loaded : List Collection) (lenient showHidden : Bool) (root : Root) (c : Collection)
    (segments : List String) : Visit :=
  let w := Walk.ofSegments (s.rules lenient showHidden) 0 c loaded segments
  let route : Route := ⟨root, w.hops⟩
  { outcome := w.outcome.map (route.operand s.settings.dialect s.table)
    route := some route
    loaded := w.loaded
    counter := s.counter }

/-- The value that a string stands for in a comparison with a field of the base collection: fields of numbers take a
text that reads as a number. -/
def submittedString (s : RecordScope) (field text : String) : Json :=
  if (s.base.field? field).any Field.isNumber then
    match Decimal.float? (Text.trim text).toList with
    | some f => Json.ofFloat f
    | none => .string text
  else .string text

def boundValue (s : RecordScope) (field : String) : Json → Json
  | .string text => s.submittedString field text
  | .int n => .int n
  | .float f => .float f
  | .bool b => .bool b
  | v => .string v.text

def visitStatic (s : RecordScope) (segments : List String) : Visit :=
  match segments.getLast? with
  | none => s.stay s.loaded (.error .emptyPath)
  | some last =>
    match splitModifier last with
    | .error cause => s.stay s.loaded (.error cause)
    | .ok (name, modifier) =>
      let members := (s.request.map Request.members).getD []
      let found := members.nested? (segments.dropLast ++ [name])
      if modifier = some .isset then s.stay s.loaded (.ok { text := if found.isSome then "TRUE" else "FALSE" })
      else
        match found with
        | none | some .null => s.stay s.loaded (.ok .null)
        | some v =>
          { outcome := .ok (.bound (s.placeholder "t").1 (s.boundValue name v))
            loaded := s.loaded
            counter := s.counter + 1 }

def submittedItems (r : Request) (f : Field) : List String := Submitted.uniqueItems (r.data.get? f.name)

def visitSubmittedRecords (s : RecordScope) (r : Request) (f : Field) (o : RelationOptions) (segments : List String) :
    Visit :=
  match Step.target? f o with
  | .error cause => s.stay s.loaded (.error cause)
  | .ok id =>
    match loadCollection s.catalog s.loaded id with
    | (none, loaded) => s.stay loaded (.error (.unknownCollection id))
    | (some c, loaded) =>
      let ids := submittedItems r f
      if ids.isEmpty then s.stay loaded (.ok .null)
      else s.follow loaded true true (.submitted c.name f.name ids o.isMultiple) c segments

def visitSubmittedItems (s : RecordScope) (r : Request) (f : Field) (multiple : Bool) : Visit :=
  let items := (Json.ofStrings (submittedItems r f)).text
  let route : Route := ⟨.submittedItems (identifier f.name) (s.placeholder "dataEach").1 items multiple, []⟩
  { outcome := .ok (route.operand s.settings.dialect s.table .element)
    route := some route
    loaded := s.loaded
    counter := s.counter + 1 }

def visitData (s : RecordScope) (r : Request) (head : String) (rest : List String) : Visit :=
  match splitModifier head with
  | .error cause => s.stay s.loaded (.error cause)
  | .ok (name, modifier) =>
    match s.base.field? name with
    | none => s.visitStatic ("data" :: head :: rest)
    | some f =>
      match f.relation?, rest, modifier, f.isMultiple? with
      | some o, _ :: _, _, _ => s.visitSubmittedRecords r f o rest
      | _, [], some .each, some multiple => s.visitSubmittedItems r f multiple
      | _, [], some .length, some _ => s.stay s.loaded (.ok { text := toString (submittedItems r f).length })
      | _, _, _, _ => s.visitStatic ("data" :: head :: rest)

def isPlainAuthField (segments : List String) : Bool :=
  match segments with
  | [name] =>
    ["id", "collectionId", "collectionName", "username", "email", "emailVisibility", "verified", "created",
      "updated"].contains name
  | _ => false

def visitAuth (s : RecordScope) (r : Request) (segments : List String) : Visit :=
  if isPlainAuthField segments then s.visitStatic ("auth" :: segments)
  else
    match r.auth with
    | none => s.stay s.loaded (.ok .null)
    | some a =>
      let root := Root.auth (identifier a.collection.name) a.id
      s.follow (rememberCollection s.loaded a.collection) true true root a.collection segments

def visitRequest (s : RecordScope) (segments : List String) : Visit :=
  match s.request with
  | none => s.stay s.loaded (.ok .null)
  | some r =>
    match segments with
    | "auth" :: next :: rest => s.visitAuth r (next :: rest)
    | "data" :: head :: rest => s.visitData r head rest
    | segments => s.visitStatic segments

def splitCollection (segment : String) : String × String :=
  match Text.splitFirst? ':' segment.toList with
  | some (name, aliasName) => (String.ofList name, String.ofList aliasName)
  | none => (segment, "")

def collectionAlias (collection aliasName : String) : String :=
  identifier (if aliasName = "" then "__collection_" ++ collection else "__collection_alias_" ++ aliasName)

def visitCollection (s : RecordScope) (segments : List String) : Visit :=
  match segments with
  | segment :: next :: rest =>
    let (name, aliasName) := splitCollection segment
    match loadCollection s.catalog s.loaded name with
    | (none, loaded) => s.stay loaded (.error (.unknownCollection name))
    | (some c, loaded) =>
      let root := Root.collection (identifier c.name) (collectionAlias c.name aliasName)
      s.follow loaded false true root c (next :: rest)
  | _ => s.stay s.loaded (.error .invalidCollectionPath)

def visitSegments (s : RecordScope) (segments : List String) : Visit :=
  match segments with
  | "@collection" :: rest => s.visitCollection rest
  | "@request" :: rest => s.visitRequest rest
  | segments => s.follow s.loaded false false (.base s.table) s.base segments

def visit (s : RecordScope) (path : String) : Visit :=
  if RecordPath.isAllowed path then s.visitSegments (Text.split '.' path) else s.stay s.loaded (.error .disallowedField)

def resolve (path : String) (s : RecordScope) : Except PathError Operand × RecordScope :=
  ((s.visit path).outcome.mapError (PathError.mk path), s.after (s.visit path))

def resolveStatic (s : RecordScope) (segments : List String) : Except PathCause Operand × RecordScope :=
  ((s.visitStatic segments).outcome, s.after (s.visitStatic segments))

def addJoin (select : Select) (j : Join) : Select := select.join .left (j.table ++ " " ++ j.aliasName) (some j.on)

/-- Adds the joins of a scope to a statement, which then lists each row once. -/
def update (s : RecordScope) (select : Select) : Select :=
  if s.joins.isEmpty then select else s.joins.foldl addJoin { select with distinct := true }

instance : Resolver RecordScope where
  dialect s := s.settings.dialect
  resolve := resolve
  placeholder := placeholder
  update := update

end RecordScope
end RelationFilter
