import RelationFilter.Decimal.Read
import RelationFilter.Path.Error
import RelationFilter.Text.Split
import RelationFilter.Text.Word

namespace RelationFilter

def isIdentifierChar (c : Char) : Bool := Text.isWord c || c = '.' || c = '*' || c = '-' || c = '@' || c = '#'

def identifier (s : String) : String := String.ofList (s.toList.filter isIdentifierChar)

inductive Modifier where
  | each
  | isset
  | length
deriving DecidableEq, Repr

namespace Modifier

def ofName? : String → Option Modifier
  | "each" => some each
  | "isset" => some isset
  | "length" => some length
  | _ => none

def name : Modifier → String
  | each => "each"
  | isset => "isset"
  | length => "length"

end Modifier

/-- The name and the modifier of a segment. Without a colon, or with more than one, there is no modifier. -/
def splitModifier (segment : String) : Except PathCause (String × Option Modifier) :=
  match segment.toList.splitOn ':' with
  | [name, modifier] =>
    match Modifier.ofName? (String.ofList modifier) with
    | some m => .ok (String.ofList name, some m)
    | none => .error (.unknownModifier segment)
  | _ => .ok (segment, none)

structure BackReference where
  collection : String
  field : String
deriving DecidableEq, Repr

namespace BackReference

/-- The parts around the last `_via_` that has text on both sides. The first argument is what stands to the right of
the text given in reverse. -/
def splitVia? (after : List Char) : List Char → Option (List Char × List Char)
  | [] => none
  | c :: back =>
    match ['_', 'a', 'i', 'v', '_'].isPrefixOf? (c :: back), after with
    | some (b :: before), a :: after => some ((b :: before).reverse, a :: after)
    | _, _ => splitVia? (c :: after) back

def parse? (segment : String) : Option BackReference :=
  if segment.toList.all Text.isWord then
    (splitVia? [] segment.toList.reverse).map fun p => ⟨String.ofList p.1, String.ofList p.2⟩
  else none

end BackReference

namespace JsonPath

def step (segment : String) : List Char :=
  if (Decimal.int64? segment.toList).isSome then '[' :: segment.toList ++ [']']
  else '.' :: (identifier segment).toList

def dropDot : List Char → List Char
  | '.' :: rest => rest
  | cs => cs

def ofSegments (segments : List String) : String := String.ofList (dropDot (segments.flatMap step))

end JsonPath
end RelationFilter
