import RelationFilter.Filter.Comparator
import RelationFilter.Json.Record
import RelationFilter.Time.Instant

namespace RelationFilter

open Json

inductive Term where
  | identifier (name : String)
  | text (value : String)
  | number (value : Float)

namespace Term

def numberLayout : Decimal.Layout := ⟨none, none, false⟩

def literal : Term → String
  | identifier name => name
  | text value => value
  | number value => numberLayout.text value

inductive Kind where
  | identifier
  | text
  | number

def Kind.ofName? : String → Option Kind
  | "identifier" => some identifier
  | "text" => some text
  | "number" => some number
  | _ => none

def asFloat : Json → Read Float
  | .int n => .ok (if n < 0 then -(n.natAbs.toUInt64.toFloat) else n.natAbs.toUInt64.toFloat)
  | .float f => .ok f
  | _ => .error .mismatch

def ofParts (kind : Kind) (literal : Json) : Read Term :=
  match kind with
  | .identifier => (asString literal).map identifier
  | .text => (asString literal).map text
  | .number => (asFloat literal).map number

def read (v : Json) : Read Term := do
  match v with
  | .object members =>
    match Json.Members.get? members "type", Json.Members.get? members "literal" with
    | some kind, some literal => ofParts (← asName Kind.ofName? kind) literal
    | _, _ => .error .mismatch
  | .array [.string kind, literal] =>
    match Kind.ofName? kind with
    | some kind => ofParts kind literal
    | none => .error .mismatch
  | _ => .error .mismatch

def toJson : Term → Json
  | identifier name => .object [("literal", .string name), ("type", .string "identifier")]
  | text value => .object [("literal", .string value), ("type", .string "text")]
  | number value => .object [("literal", ofFloat value), ("type", .string "number")]

end Term

inductive Conjunction where
  | and
  | or
deriving DecidableEq, Repr

/-- A comparison or a filter in parentheses. Each node of a filter comes with the word that joins it to the node before
it; the word of the first node means nothing. -/
inductive FilterNode where
  | comparison (left : Term) (op : Comparator) (right : Term)
  | group (nodes : List (Conjunction × FilterNode))

abbrev Filter := List (Conjunction × FilterNode)

end RelationFilter
