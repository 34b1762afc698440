import RelationFilter.Text.Pattern

namespace RelationFilter

inductive FieldRule where
  | exact (name : String)
  | pattern (p : Text.Pattern)

def isPatternText (s : String) : Bool :=
  1 < s.toList.length && s.toList.head? = some '^' && s.toList.getLast? = some '$'

def FieldRule.ofText? (s : String) : Option FieldRule :=
  if isPatternText s then (Text.Pattern.parse? s).map pattern else some (exact s)

def FieldRule.allows : FieldRule → String → Bool
  | exact name, field => name = field
  | pattern p, field => p.occursIn field

structure FieldList where
  rules : List FieldRule

def FieldList.ofTexts (texts : List String) : FieldList := ⟨texts.filterMap FieldRule.ofText?⟩

def FieldList.allows (l : FieldList) (field : String) : Bool := l.rules.any fun r => r.allows field

end RelationFilter
