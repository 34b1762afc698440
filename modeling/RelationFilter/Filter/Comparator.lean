import RelationFilter.Text.Quoted

namespace RelationFilter

inductive Test where
  | equal
  | notEqual
  | like
  | notLike
  | less
  | lessEqual
  | greater
  | greaterEqual
deriving DecidableEq, Repr

def Test.text : Test → String
  | equal => "="
  | notEqual => "!="
  | like => "~"
  | notLike => "!~"
  | less => "<"
  | lessEqual => "<="
  | greater => ">"
  | greaterEqual => ">="

structure Comparator where
  test : Test
  any : Bool := false
deriving DecidableEq, Repr

namespace Comparator

def tests : List Test := [.equal, .notEqual, .like, .notLike, .less, .lessEqual, .greater, .greaterEqual]

def all : List Comparator := tests.map (fun t => ⟨t, false⟩) ++ tests.map fun t => ⟨t, true⟩

def text (c : Comparator) : String := if c.any then "?" ++ c.test.text else c.test.text

def ofText? (s : String) : Option Comparator := all.find? fun c => c.text = s

def unknownMessage (s : String) : String := "unknown sign operator " ++ Text.quoted s

end Comparator
end RelationFilter
