import RelationFilter.Text.Keyword
import RelationFilter.Text.Word

namespace RelationFilter

inductive Direction where
  | ascending
  | descending
deriving DecidableEq, Repr

def Direction.keyword : Direction → String
  | ascending => "ASC"
  | descending => "DESC"

namespace Sql

open Text

def isAliasChar (c : Char) : Bool := isWord c || c = '-' || c = '.'

def dropAs (back : List Char) : List Char := ((afterKeyword? ['s', 'a'] back).bind afterBlanks?).getD back

def aliasSplit? (cs : List Char) : Option (List Char × List Char) :=
  let name := cs.reverse.takeWhile isAliasChar
  match afterBlanks? (cs.reverse.dropWhile isAliasChar) with
  | some before => if name.isEmpty then none else some ((dropAs before).reverse, name.reverse)
  | none => none

def splitAlias (source : String) : String × Option String :=
  match aliasSplit? source.toList with
  | some (before, name) => (String.ofList before, some (String.ofList name))
  | none => (source, none)

def directionSplit? (cs : List Char) : Option (List Char × Direction) :=
  match (afterKeyword? ['c', 's', 'a'] cs.reverse).bind afterBlanks? with
  | some before => some (before.reverse, .ascending)
  | none =>
    match (afterKeyword? ['c', 's', 'e', 'd'] cs.reverse).bind afterBlanks? with
    | some before => some (before.reverse, .descending)
    | none => none

end Sql
end RelationFilter
