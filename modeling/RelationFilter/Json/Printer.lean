import RelationFilter.Json.Basic

namespace RelationFilter.Json

def numberLayout : Decimal.Layout := ⟨some (-5), some 15, true⟩

def hexDigit (n : Nat) : Char := (Nat.toDigits 16 n).headD '0'

def escape (c : Char) : List Char :=
  if c = '"' then ['\\', '"']
  else if c = '\\' then ['\\', '\\']
  else if c = '\x08' then ['\\', 'b']
  else if c = '\x0c' then ['\\', 'f']
  else if c = '\n' then ['\\', 'n']
  else if c = '\r' then ['\\', 'r']
  else if c = '\t' then ['\\', 't']
  else if c.toNat < 0x20 then ['\\', 'u', '0', '0', hexDigit (c.toNat / 16), hexDigit (c.toNat % 16)]
  else [c]

def stringText (s : String) : List Char := '"' :: s.toList.flatMap escape ++ ['"']

mutual

def chars : Json → List Char
  | null => ['n', 'u', 'l', 'l']
  | bool true => ['t', 'r', 'u', 'e']
  | bool false => ['f', 'a', 'l', 's', 'e']
  | int n => (toString n).toList
  | float f => (numberLayout.text f).toList
  | string s => stringText s
  | array items => '[' :: itemChars items
  | object members => '\x7b' :: memberChars members

def itemChars : List Json → List Char
  | [] => [']']
  | item :: rest => chars item ++ moreItemChars rest

def moreItemChars : List Json → List Char
  | [] => [']']
  | item :: rest => ',' :: chars item ++ moreItemChars rest

def memberChars : List (String × Json) → List Char
  | [] => ['\x7d']
  | (key, value) :: rest => stringText key ++ ':' :: chars value ++ moreMemberChars rest

def moreMemberChars : List (String × Json) → List Char
  | [] => ['\x7d']
  | (key, value) :: rest => ',' :: stringText key ++ ':' :: chars value ++ moreMemberChars rest

end

def text (v : Json) : String := String.ofList v.chars

def plainText : Json → String
  | string s => s
  | v => v.text

end RelationFilter.Json
