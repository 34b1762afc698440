import RelationFilter.Text.Word

namespace RelationFilter.RecordPath

open Text

def isPathChar (c : Char) : Bool := isWord c || c = '.' || c = ':'

def isPlain : List Char → Bool
  | [] => false
  | c :: rest => isWord c && rest.all isPathChar

def isTail (cs : List Char) : Bool := cs.all isPathChar && cs.getLast?.any isWord

def isName (cs : List Char) : Bool := cs.all isWord && !cs.isEmpty

def isDotTail : List Char → Bool
  | '.' :: rest => isTail rest
  | _ => false

def isCollectionTail (cs : List Char) : Bool :=
  isName (cs.takeWhile isWord) &&
    match cs.dropWhile isWord with
    | ':' :: rest => isName (rest.takeWhile isWord) && isDotTail (rest.dropWhile isWord)
    | rest => isDotTail rest

def follows (start : String) (test : List Char → Bool) (cs : List Char) : Bool :=
  (start.toList.isPrefixOf? cs).any test

def isAllowed (path : String) : Bool :=
  let cs := path.toList
  isPlain cs || path = "@request.context" || path = "@request.method" ||
    follows "@request.auth." isTail cs || follows "@request.data." isTail cs || follows "@request.query." isTail cs ||
    follows "@request.headers." isName cs || follows "@collection." isCollectionTail cs

end RelationFilter.RecordPath
