import RelationFilter.Json.Number

namespace RelationFilter.Json

def isSpace (c : Char) : Bool := c = ' ' || c = '\n' || c = '\t' || c = '\r'

def skipSpaces (cs : List Char) : List Char := cs.dropWhile isSpace

def hexValue? (c : Char) : Option Nat :=
  if c.isDigit then some (c.toNat - '0'.toNat)
  else if 'a' ≤ c && c ≤ 'f' then some (c.toNat - 'a'.toNat + 10)
  else if 'A' ≤ c && c ≤ 'F' then some (c.toNat - 'A'.toNat + 10)
  else none

def unit? (a b c d : Char) : Option Nat := do
  pure (((← hexValue? a) * 16 + (← hexValue? b)) * 256 + (← hexValue? c) * 16 + (← hexValue? d))

def isHighSurrogate (u : Nat) : Bool := 0xd800 ≤ u && u < 0xdc00
def isLowSurrogate (u : Nat) : Bool := 0xdc00 ≤ u && u < 0xe000

def shortEscape? (c : Char) : Option Char :=
  match c with
  | '"' => some '"'
  | '\\' => some '\\'
  | '/' => some '/'
  | 'b' => some '\x08'
  | 'f' => some '\x0c'
  | 'n' => some '\n'
  | 'r' => some '\r'
  | 't' => some '\t'
  | _ => none

def consTo (c : Char) (p : List Char × List Char) : List Char × List Char := (c :: p.1, p.2)

def ofSurrogates (high low : Nat) : Char := Char.ofNat (0x10000 + (high - 0xd800) * 0x400 + (low - 0xdc00))

def stringBody? : List Char → Option (List Char × List Char)
  | [] => none
  | '"' :: rest => some ([], rest)
  | '\\' :: 'u' :: a :: b :: c :: d :: rest =>
    match unit? a b c d with
    | none => none
    | some u =>
      if isLowSurrogate u then none
      else if isHighSurrogate u then
        match rest with
        | '\\' :: 'u' :: a :: b :: c :: d :: rest =>
          match unit? a b c d with
          | none => none
          | some low => if isLowSurrogate low then (stringBody? rest).map (consTo (ofSurrogates u low)) else none
        | _ => none
      else (stringBody? rest).map (consTo (Char.ofNat u))
  | '\\' :: c :: rest =>
    match shortEscape? c with
    | some e => (stringBody? rest).map (consTo e)
    | none => none
  | c :: rest => if c.toNat < 0x20 || c = '\\' then none else (stringBody? rest).map (consTo c)
termination_by structural cs => cs

def takeString? : List Char → Option (String × List Char)
  | '"' :: rest => (stringBody? rest).map fun p => (String.ofList p.1, p.2)
  | _ => none

mutual

/-- The value at the head of a text. `fuel` bounds the calls and `depth` the nesting. -/
def takeValue? : (fuel depth : Nat) → List Char → Option (Json × List Char)
  | 0, _, _ => none
  | fuel + 1, depth, cs =>
    match skipSpaces cs with
    | 'n' :: 'u' :: 'l' :: 'l' :: rest => some (null, rest)
    | 't' :: 'r' :: 'u' :: 'e' :: rest => some (bool true, rest)
    | 'f' :: 'a' :: 'l' :: 's' :: 'e' :: rest => some (bool false, rest)
    | '"' :: rest => (takeString? ('"' :: rest)).map fun p => (string p.1, p.2)
    | '[' :: rest =>
      if depth = 0 then none
      else
        match skipSpaces rest with
        | ']' :: rest => some (array [], rest)
        | rest => (takeItems? fuel (depth - 1) rest).map fun p => (array p.1, p.2)
    | '\x7b' :: rest =>
      if depth = 0 then none
      else
        match skipSpaces rest with
        | '\x7d' :: rest => some (ofPairs [], rest)
        | rest => (takeMembers? fuel (depth - 1) rest).map fun p => (ofPairs p.1, p.2)
    | rest => takeNumber? rest

def takeItems? : (fuel depth : Nat) → List Char → Option (List Json × List Char)
  | 0, _, _ => none
  | fuel + 1, depth, cs =>
    match takeValue? fuel depth cs with
    | none => none
    | some (item, rest) =>
      match skipSpaces rest with
      | ']' :: rest => some ([item], rest)
      | ',' :: rest => (takeItems? fuel depth rest).map fun p => (item :: p.1, p.2)
      | _ => none

def takeMembers? : (fuel depth : Nat) → List Char → Option (List (String × Json) × List Char)
  | 0, _, _ => none
  | fuel + 1, depth, cs =>
    match takeString? (skipSpaces cs) with
    | none => none
    | some (key, rest) =>
      match skipSpaces rest with
      | ':' :: rest =>
        match takeValue? fuel depth rest with
        | none => none
        | some (value, rest) =>
          match skipSpaces rest with
          | '\x7d' :: rest => some ([(key, value)], rest)
          | ',' :: rest => (takeMembers? fuel depth rest).map fun p => ((key, value) :: p.1, p.2)
          | _ => none
      | _ => none

end

def maxDepth : Nat := 127

def parse? (s : String) : Option Json :=
  match takeValue? (2 * s.toList.length + 2) maxDepth s.toList with
  | some (value, rest) => if (skipSpaces rest).isEmpty then some value else none
  | none => none

end RelationFilter.Json
