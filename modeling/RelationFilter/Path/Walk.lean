import RelationFilter.Path.Route
import RelationFilter.Schema.Catalog

namespace RelationFilter

/-- The collection that a name or id denotes, first among those loaded before and then in the catalog, with the
collections loaded after that. -/
def loadCollection (cat : Catalog) (loaded : List Collection) (nameOrId : String) :
    Option Collection × List Collection :=
  match loaded.find? fun c => c.isCalled nameOrId with
  | some c => (some c, loaded)
  | none =>
    match cat.get? nameOrId with
    | some c => (some c, loaded ++ [c])
    | none => (none, loaded)

def rememberCollection (loaded : List Collection) (c : Collection) : List Collection :=
  if loaded.any fun l => l.id = c.id then loaded else loaded ++ [c]

structure WalkRules where
  catalog : Catalog
  maxNested : Nat
  /-- A name that is not there gives NULL instead of a failure. -/
  lenient : Bool
  /-- E-mail addresses are read without a guard. -/
  showHidden : Bool

inductive Step where
  | hop (h : Hop) (next : Collection)
  | absent (cause : PathCause)
  | failure (cause : PathCause)

namespace Step

def target? (f : Field) (o : RelationOptions) : Except PathCause String :=
  if o.collectionId = "" then .error (.missingTarget f.name) else .ok o.collectionId

def ofRelation (cat : Catalog) (loaded : List Collection) (f : Field) (segment : String) : Step × List Collection :=
  match f.relation? with
  | none => (failure (.notARelation segment), loaded)
  | some o =>
    match target? f o with
    | .error cause => (failure cause, loaded)
    | .ok id =>
      match loadCollection cat loaded id with
      | (none, loaded) => (failure (.unknownCollection id), loaded)
      | (some c, loaded) =>
        let field := identifier f.name
        let table := identifier c.name
        (hop (if o.isMultiple then .records field table else .record field table) c, loaded)

/-- A field of another collection that refers to the current one. One record refers at most once if the field holds one
id and is unique. -/
def ofReferrer (current : Collection) (other : Collection) (f : Field) (segment : String) : Step :=
  match f.relation? with
  | none => failure (.invalidBackRelation segment)
  | some o =>
    match target? f o with
    | .error cause => failure cause
    | .ok id =>
      if id ≠ current.id then failure (.invalidBackRelation segment)
      else
        let multiple := o.isMultiple || !other.isUniqueColumn f.name
        hop (.referrers (identifier segment) (identifier f.name) (identifier other.name) multiple) other

def ofBackReference (cat : Catalog) (loaded : List Collection) (current : Collection) (segment : String) :
    Step × List Collection :=
  match BackReference.parse? segment with
  | none => (absent (.unknownField segment), loaded)
  | some back =>
    match loadCollection cat loaded back.collection with
    | (none, loaded) => (absent (.unknownCollection back.collection), loaded)
    | (some other, loaded) =>
      match other.field? back.field with
      | none => (absent (.unknownField back.field), loaded)
      | some f => (ofReferrer current other f segment, loaded)

def ofSegment (cat : Catalog) (loaded : List Collection) (current : Collection) (segment : String) :
    Step × List Collection :=
  match current.field? segment with
  | some f => ofRelation cat loaded f segment
  | none => ofBackReference cat loaded current segment

end Step

structure Walk where
  hops : List Hop
  loaded : List Collection
  outcome : Except PathCause Arrival

namespace Walk

def after (h : Hop) (w : Walk) : Walk := { w with hops := h :: w.hops }

def missing (rules : WalkRules) (cause : PathCause) : Except PathCause Arrival :=
  if rules.lenient then .ok .null else .error cause

def ofField (f : Field) (modifier : Option Modifier) : List Hop × Arrival :=
  let column := identifier f.name
  match modifier, f.isMultiple? with
  | some .length, some _ => ([], .count column)
  | some .each, some multiple => ([.elements column multiple], .element)
  | _, _ => ([], if f.isJson then .json column "" else .column column false)

def ofLast (rules : WalkRules) (c : Collection) (loaded : List Collection) (segment : String) : Walk :=
  if c.hasSystemField segment then
    ⟨[], loaded, .ok (.column (identifier segment) (segment = "email" && !rules.showHidden))⟩
  else
    match splitModifier segment with
    | .error cause => ⟨[], loaded, .error cause⟩
    | .ok (name, modifier) =>
      match c.field? name with
      | none => ⟨[], loaded, missing rules (.unknownField name)⟩
      | some f => ⟨(ofField f modifier).1, loaded, .ok (ofField f modifier).2⟩

def ofSegments (rules : WalkRules) : (depth : Nat) → Collection → (loaded : List Collection) → List String → Walk
  | _, _, loaded, [] => ⟨[], loaded, .error .emptyPath⟩
  | _, c, loaded, [last] => ofLast rules c loaded last
  | depth, c, loaded, segment :: next :: rest =>
    match (c.field? segment).filter Field.isJson with
    | some f => ⟨[], loaded, .ok (.json (identifier f.name) (JsonPath.ofSegments (next :: rest)))⟩
    | none =>
      if rules.maxNested ≤ depth then ⟨[], loaded, .error (.maxNestedRelations segment)⟩
      else
        match Step.ofSegment rules.catalog loaded c segment with
        | (.hop h reached, loaded) => after h (ofSegments rules (depth + 1) reached loaded (next :: rest))
        | (.absent cause, loaded) => ⟨[], loaded, missing rules cause⟩
        | (.failure cause, loaded) => ⟨[], loaded, .error cause⟩

end Walk
end RelationFilter
