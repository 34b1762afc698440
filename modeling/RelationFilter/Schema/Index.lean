import RelationFilter.Sql.Alias
import RelationFilter.Text.Split

namespace RelationFilter

structure IndexColumn where
  name : String
  collation : Option String := none
  direction : Option Direction := none
deriving DecidableEq, Repr

structure Index where
  unique : Bool := false
  optional : Bool := false
  schema : String := ""
  name : String := ""
  table : String := ""
  columns : List IndexColumn := []
  condition : String := ""
deriving DecidableEq, Repr

namespace Index

open Text

def isValid (i : Index) : Bool := i.name ≠ "" && i.table ≠ "" && !i.columns.isEmpty

def isNameMark (c : Char) : Bool := c = '\x60' || c = '"' || c = '\'' || c = '[' || c = ']'

def cleanName (cs : List Char) : String :=
  trim (String.ofList ((trim (String.ofList cs)).toList.filter fun c => !isNameMark c))

def isQuote (c : Char) : Bool := c = '\'' || c = '"' || c = '\x60'

def consToFirst (c : Char) : List (List Char) → List (List Char)
  | [] => [[c]]
  | part :: parts => (c :: part) :: parts

def topLevelParts (sep : Char) : (depth : Nat) → (quote : Option Char) → List Char → List (List Char)
  | _, _, [] => [[]]
  | depth, some q, c :: rest => consToFirst c (topLevelParts sep depth (if c = q then none else some q) rest)
  | depth, none, c :: rest =>
    if isQuote c then consToFirst c (topLevelParts sep depth (some c) rest)
    else if c = '(' then consToFirst c (topLevelParts sep (depth + 1) none rest)
    else if c = ')' then consToFirst c (topLevelParts sep (depth - 1) none rest)
    else if c = sep && depth = 0 then [] :: topLevelParts sep depth none rest
    else consToFirst c (topLevelParts sep depth none rest)

def directionEnd? (cs : List Char) : Option (Option Direction) :=
  if cs.isEmpty then some none
  else
    match afterBlanks? cs with
    | none => none
    | some rest =>
      if afterKeyword? ['a', 's', 'c'] rest = some [] then some (some .ascending)
      else if afterKeyword? ['d', 'e', 's', 'c'] rest = some [] then some (some .descending)
      else none

def columnEnd? (cs : List Char) : Option (Option String × Option Direction) :=
  match ((afterBlanks? cs).bind (afterKeyword? ['c', 'o', 'l', 'l', 'a', 't', 'e'])).bind afterBlanks? with
  | some rest =>
    if (rest.takeWhile isWord).isEmpty then none
    else (directionEnd? (rest.dropWhile isWord)).map fun d => (some (String.ofList (rest.takeWhile isWord)), d)
  | none => (directionEnd? cs).map fun d => (none, d)

def splitColumn? : List Char → Option (List Char × Option String × Option Direction)
  | [] => none
  | c :: rest =>
    match columnEnd? rest with
    | some tail => some ([c], tail)
    | none => (splitColumn? rest).map fun p => (c :: p.1, p.2)

def column? (part : List Char) : Option IndexColumn :=
  match splitColumn? (trim (String.ofList part)).toList with
  | some (name, collation, direction) =>
    if cleanName name = "" then none else some ⟨cleanName name, collation, direction⟩
  | none => none

def columnsOf (list : List Char) : List IndexColumn := (topLevelParts ',' 0 none list).filterMap column?

def qualifiedName (cs : List Char) : String × String :=
  match cs.splitOn '.' with
  | [schema, name] => (cleanName schema, cleanName name)
  | _ => ("", cleanName cs)

def conditionOf (cs : List Char) : String :=
  match (afterKeyword? ['w', 'h', 'e', 'r', 'e'] (trimLeft cs)).bind afterBlanks? with
  | some rest => trim (String.ofList rest)
  | none => ""

def columnList? : List Char → Option (List IndexColumn × String)
  | '(' :: rest => (splitLast? ')' rest).map fun p => (columnsOf p.1, conditionOf p.2)
  | _ => none

/-- The table, given in reverse, and its columns. The table takes as many characters as it can. -/
def tableEnd? : List Char → List Char → Option (String × List IndexColumn × String)
  | back, rest =>
    match columnList? (trimLeft rest), back with
    | some list, back => some (cleanName back.reverse, list)
    | none, [] => none
    | none, c :: back => tableEnd? back (c :: rest)

def isInk (c : Char) : Bool := !isBlank c

def table? (cs : List Char) : Option (String × List IndexColumn × String) :=
  tableEnd? (cs.takeWhile isInk).reverse (cs.dropWhile isInk)

def onTable? (cs : List Char) : Option (String × List IndexColumn × String) :=
  ((afterKeyword? ['o', 'n'] cs).bind afterBlanks?).bind table?

def ofParts (unique optional : Bool) (name : List Char) (t : String × List IndexColumn × String) : Index :=
  let q := qualifiedName name
  ⟨unique, optional, q.1, q.2, t.1, t.2.1, t.2.2⟩

/-- The name and the table. Where a blank is to spare before the word ON, the name may be missing. -/
def named? (unique optional spare : Bool) (cs : List Char) : Option Index :=
  match ((afterBlanks? (cs.dropWhile isInk)).bind onTable?) with
  | some t => some (ofParts unique optional (cs.takeWhile isInk) t)
  | none => if spare then (onTable? cs).map (ofParts unique optional []) else none

def afterIfNotExists? (cs : List Char) : Option (List Char) := do
  let cs ← (afterKeyword? ['i', 'f'] cs).bind afterBlanks?
  let cs ← (afterKeyword? ['n', 'o', 't'] cs).bind afterBlanks?
  afterKeyword? ['e', 'x', 'i', 's', 't', 's'] cs

def startsWithBlank (cs : List Char) : Bool := cs.head?.any isBlank

def body? (unique : Bool) (cs : List Char) : Option Index :=
  let rest := trimLeft cs
  let optional := (afterIfNotExists? rest).bind fun after =>
    (afterBlanks? after).bind (named? unique true (startsWithBlank (after.drop 1)))
  optional.or (named? unique false (startsWithBlank cs) rest)

def afterIndex? (cs : List Char) : Option (List Char) := afterKeyword? ['i', 'n', 'd', 'e', 'x'] cs

def statement? (cs : List Char) : Option Index :=
  match (afterKeyword? ['c', 'r', 'e', 'a', 't', 'e'] cs).bind afterBlanks? with
  | none => none
  | some rest =>
    let unique := ((afterKeyword? ['u', 'n', 'i', 'q', 'u', 'e'] rest).bind afterBlanks?).bind afterIndex?
    (unique.bind (body? true)).or ((afterIndex? rest).bind (body? false))

def find? : List Char → Option Index
  | [] => none
  | c :: rest => (statement? (c :: rest)).or (find? rest)

def parse (sql : String) : Index := (find? sql.toList).getD {}

end Index
end RelationFilter
