import RelationFilter.Text.Blank

namespace RelationFilter.Text

/-- The lower-case ASCII letter a character folds to: U+017F folds to `s` and U+212A to `k`. -/
def foldCase (c : Char) : Char :=
  if c.toNat = 0x17f then 's' else if c.toNat = 0x212a then 'k' else c.toLower

def afterKeyword? : List Char → List Char → Option (List Char)
  | [], cs => some cs
  | k :: ks, c :: cs => if foldCase c = k then afterKeyword? ks cs else none
  | _ :: _, [] => none

def afterBlanks? (cs : List Char) : Option (List Char) :=
  match cs with
  | c :: rest => if isBlank c then some (trimLeft rest) else none
  | [] => none

def lowerAscii (s : String) : String := String.ofList (s.toList.map Char.toLower)

def sameIgnoringCase (s t : String) : Bool := s.toList.map Char.toLower = t.toList.map Char.toLower

end RelationFilter.Text
