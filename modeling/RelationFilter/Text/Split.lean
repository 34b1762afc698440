namespace RelationFilter.Text

def splitLast? (sep : Char) (cs : List Char) : Option (List Char × List Char) :=
  match cs.reverse.dropWhile (· ≠ sep) with
  | [] => none
  | _ :: before => some (before.reverse, (cs.reverse.takeWhile (· ≠ sep)).reverse)

def splitFirst? (sep : Char) (cs : List Char) : Option (List Char × List Char) :=
  match cs.dropWhile (· ≠ sep) with
  | [] => none
  | _ :: after => some (cs.takeWhile (· ≠ sep), after)

def split (sep : Char) (s : String) : List String := (s.toList.splitOn sep).map String.ofList

def hasTwice (c : Char) : List Char → Bool
  | a :: b :: rest => (a = c && b = c) || hasTwice c (b :: rest)
  | _ => false

end RelationFilter.Text
