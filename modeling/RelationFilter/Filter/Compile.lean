import RelationFilter.Filter.Run
import RelationFilter.Path.Resolver

namespace RelationFilter

inductive FilterError where
  | emptyFilter
  | invalidLeftOperand (literal : String)
  | invalidRightOperand (literal : String)
  | invalidSortField (name : String)
  | path (e : PathError)
deriving DecidableEq, Repr

def FilterError.message : FilterError → String
  | emptyFilter => "empty filter expression"
  | invalidLeftOperand literal => "invalid left operand " ++ Text.quoted literal
  | invalidRightOperand literal => "invalid right operand " ++ Text.quoted literal
  | invalidSortField name => "invalid sort field " ++ Text.quoted name
  | path e => e.message

namespace Filter

variable {σ : Type} [Resolver σ]

def bareWord? (name : String) : Option Operand :=
  match Text.lowerAscii name with
  | "null" => some .null
  | "true" => some { text := "1" }
  | "false" => some { text := "0" }
  | _ => none

def bindValue (v : Json) (s : σ) : Operand × σ :=
  let p := Resolver.placeholder "f" s
  (.bound p.1 v, p.2)

def resolveIdentifier (now : Instant) (name : String) (s : σ) : Except FilterError Operand × σ :=
  match now.named? name with
  | some v => let r := bindValue v s; (.ok r.1, r.2)
  | none =>
    match Resolver.resolve name s with
    | (.ok o, s) => (.ok o, s)
    | (.error e, s) => ((bareWord? name).elim (.error (.path e)) .ok, s)

def resolveTerm (now : Instant) (t : Term) (s : σ) : Except FilterError Operand × σ :=
  match t with
  | .identifier name => resolveIdentifier now name s
  | .text value => let r := bindValue (.string value) s; (.ok r.1, r.2)
  | .number value => let r := bindValue (Json.ofFloat value) s; (.ok r.1, r.2)

def resolveLeaf (now : Instant) (left : Term) (op : Comparator) (right : Term) (s : σ) : Except FilterError Leaf × σ :=
  match resolveTerm now left s with
  | (.error e, s) => (.error e, s)
  | (.ok l, s) =>
    if l.text = "" then (.error (.invalidLeftOperand left.literal), s)
    else
      match resolveTerm now right s with
      | (.error e, s) => (.error e, s)
      | (.ok r, s) =>
        if r.text = "" then (.error (.invalidRightOperand right.literal), s) else (.ok ⟨l, op, r⟩, s)

mutual

def compileNode (now : Instant) : FilterNode → σ → Except FilterError RunItem × σ
  | .comparison left op right, s =>
    let r := resolveLeaf now left op right s
    (r.1.map .leaf, r.2)
  | .group nodes, s =>
    match nodes with
    | [] => (.error .emptyFilter, s)
    | node :: rest =>
      let r := compileNodes now (node :: rest) s
      (r.1.map fun items => .nested (Run.conditionOf (Resolver.dialect r.2) items), r.2)

def compileNodes (now : Instant) : List (Conjunction × FilterNode) → σ →
    Except FilterError (List (Conjunction × RunItem)) × σ
  | [], s => (.ok [], s)
  | (conjunction, node) :: rest, s =>
    match compileNode now node s with
    | (.error e, s) => (.error e, s)
    | (.ok item, s) =>
      let r := compileNodes now rest s
      (r.1.map ((conjunction, item) :: ·), r.2)

end

def compile (now : Instant) (filter : Filter) (s : σ) : Except FilterError Condition × σ :=
  if filter.isEmpty then (.error .emptyFilter, s)
  else
    let r := compileNodes now filter s
    (r.1.map (Run.conditionOf (Resolver.dialect r.2)), r.2)

end Filter
end RelationFilter
