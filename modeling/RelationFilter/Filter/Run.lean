import RelationFilter.Filter.Comparison
import RelationFilter.Filter.Term
import RelationFilter.Sql.Render

namespace RelationFilter

structure Leaf where
  left : Operand
  op : Comparator
  right : Operand

namespace Leaf

def plain (d : Dialect) (l : Leaf) : Condition :=
  l.right.applyGuard (l.left.applyGuard (Comparison.condition d l.op.test l.left l.right))

/-- The chain of a comparison that may be grouped: it does not ask for any one value, has no guard, and just one of its
sides may have several values. -/
def chain? (l : Leaf) : Option Chain :=
  if l.op.any || l.left.guard.isSome || l.right.guard.isSome then none
  else
    match l.left.chain, l.right.chain with
    | some m, none => if m.isComplete then some m else none
    | none, some m => if m.isComplete then some m else none
    | _, _ => none

def onChain (d : Dialect) (l : Leaf) (m : Chain) : Condition :=
  match l.left.chain with
  | some _ => Comparison.condition d l.op.test { l.left with text := m.value } l.right
  | none => Comparison.condition d l.op.test l.left { l.right with text := m.value }

end Leaf

inductive RunItem where
  | leaf (l : Leaf)
  | nested (c : Condition)

namespace RunItem

def plain (d : Dialect) : RunItem → Condition
  | leaf l => l.plain d
  | nested c => c

def signature? (d : Dialect) : RunItem → Option String
  | leaf l => l.chain?.map (ChainOf.signature d)
  | nested _ => none

def onChain? (d : Dialect) : RunItem → Option (Chain × Condition)
  | leaf l => l.chain?.map fun m => (m, l.onChain d m)
  | nested _ => none

end RunItem

namespace Run

abbrev Signed := List (Option String × RunItem)

def sign (d : Dialect) (items : List RunItem) : Signed := items.map fun i => (i.signature? d, i)

def withSignature (run : Signed) (signature : String) : List RunItem :=
  (run.filter fun p => p.1 = some signature).map Prod.snd

def isShared (run : Signed) (signature : String) : Bool := 1 < (withSignature run signature).length

def row (d : Dialect) (run : Signed) (signature : String) : Condition :=
  match (withSignature run signature).filterMap (RunItem.onChain? d) with
  | [] => .all []
  | (m, c) :: rest => .chainRow m (c :: rest.map Prod.snd)

/-- The conditions of a run. A shared signature gives its row in the place of its first item. -/
def parts (d : Dialect) (run : Signed) : (seen : List String) → Signed → List Condition
  | _, [] => []
  | seen, (none, i) :: rest => i.plain d :: parts d run seen rest
  | seen, (some signature, i) :: rest =>
    if !isShared run signature then i.plain d :: parts d run seen rest
    else if seen.contains signature then parts d run seen rest
    else row d run signature :: parts d run (signature :: seen) rest

def allOf : List Condition → Condition
  | [c] => c
  | cs => .all cs

def anyOf : List Condition → Condition
  | [c] => c
  | cs => .any cs

def condition (d : Dialect) (items : List RunItem) : Condition :=
  let run := sign d items
  allOf (parts d run [] run)

def ofItems {α : Type} : List (Conjunction × α) → List (List α)
  | [] => []
  | [(_, a)] => [[a]]
  | (_, a) :: (.or, b) :: rest => [a] :: ofItems ((.or, b) :: rest)
  | (_, a) :: (.and, b) :: rest =>
    match ofItems ((.and, b) :: rest) with
    | [] => [[a]]
    | run :: runs => (a :: run) :: runs

def conditionOf (d : Dialect) (items : List (Conjunction × RunItem)) : Condition :=
  anyOf ((ofItems items).map (condition d))

end Run
end RelationFilter
