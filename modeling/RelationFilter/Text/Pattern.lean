import RelationFilter.Text.Blank
import RelationFilter.Text.Digit
import RelationFilter.Text.Word

namespace RelationFilter.Text

inductive CharSet where
  | none
  | one (c : Char)
  | range (first last : Char)
  | word
  | digit
  | blank
  | either (s t : CharSet)
  | both (s t : CharSet)
  | other (s : CharSet)
deriving Repr

namespace CharSet

def contains : CharSet → Char → Bool
  | none, _ => false
  | one c, x => x = c
  | range first last, x => first ≤ x && x ≤ last
  | word, x => isWord x
  | digit, x => isDecimalDigit x
  | blank, x => isBlank x
  | either s t, x => s.contains x || t.contains x
  | both s t, x => s.contains x && t.contains x
  | other s, x => !s.contains x

def ofRanges (ranges : List (Char × Char)) : CharSet :=
  ranges.foldr (fun r s => either (range r.1 r.2) s) none

def minus (s t : CharSet) : CharSet := both s (other t)

def named? (name : String) : Option CharSet :=
  match name with
  | "alnum" => some (ofRanges [('0', '9'), ('A', 'Z'), ('a', 'z')])
  | "alpha" => some (ofRanges [('A', 'Z'), ('a', 'z')])
  | "ascii" => some (range '\x00' '\x7f')
  | "blank" => some (ofRanges [('\t', '\t'), (' ', ' ')])
  | "cntrl" => some (ofRanges [('\x00', '\x1f'), ('\x7f', '\x7f')])
  | "digit" => some (range '0' '9')
  | "graph" => some (range '!' '~')
  | "lower" => some (range 'a' 'z')
  | "print" => some (range ' ' '~')
  | "punct" => some (ofRanges [('!', '/'), (':', '@'), ('\x5b', '\x60'), ('\x7b', '~')])
  | "space" => some (ofRanges [('\t', '\r'), (' ', ' ')])
  | "upper" => some (range 'A' 'Z')
  | "word" => some (ofRanges [('0', '9'), ('A', 'Z'), ('_', '_'), ('a', 'z')])
  | "xdigit" => some (ofRanges [('0', '9'), ('A', 'F'), ('a', 'f')])
  | _ => Option.none

end CharSet

/-- A text is read once, with marks in the pattern at the characters that a match under way may have ended on. -/
inductive Pattern where
  | empty
  | set (s : CharSet) (marked : Bool)
  | seq (p q : Pattern)
  | choice (p q : Pattern)
  | plus (p : Pattern)
  | start
  | stop
  /-- Between a character of a word and one that is none, or else between two of a kind. -/
  | boundary (apart : Bool)
deriving Repr

structure Place where
  before : Option Char
  after : Option Char

def Place.isBoundary (x : Place) : Bool := x.before.any isWord != x.after.any isWord

namespace Pattern

def ofSet (s : CharSet) : Pattern := set s false

def optional (p : Pattern) : Pattern := choice p empty

def star (p : Pattern) : Pattern := optional (plus p)

def copies (p : Pattern) : Nat → Pattern
  | 0 => empty
  | n + 1 => seq p (p.copies n)

def upTo (p : Pattern) : Nat → Pattern
  | 0 => empty
  | n + 1 => optional (seq p (p.upTo n))

def counted (p : Pattern) (least : Nat) : (most : Option Nat) → Pattern
  | none => seq (p.copies least) p.star
  | some most => seq (p.copies least) (p.upTo (most - least))

def skips (x : Place) : Pattern → Bool
  | empty => true
  | set _ _ => false
  | seq p q => p.skips x && q.skips x
  | choice p q => p.skips x || q.skips x
  | plus p => p.skips x
  | start => x.before.isNone
  | stop => x.after.isNone
  | boundary apart => x.isBoundary == apart

def ends (x : Place) : Pattern → Bool
  | set _ marked => marked
  | seq p q => (p.ends x && q.skips x) || q.ends x
  | choice p q => p.ends x || q.ends x
  | plus p => p.ends x
  | empty | start | stop | boundary _ => false

def advance (x : Place) (c : Char) : (enter : Bool) → Pattern → Pattern
  | enter, set s _ => set s (enter && s.contains c)
  | enter, seq p q => seq (p.advance x c enter) (q.advance x c ((enter && p.skips x) || p.ends x))
  | enter, choice p q => choice (p.advance x c enter) (q.advance x c enter)
  | enter, plus p => plus (p.advance x c (enter || p.ends x))
  | _, p => p

def occursFrom (p : Pattern) (before : Option Char) : List Char → Bool
  | [] => p.skips ⟨before, none⟩ || p.ends ⟨before, none⟩
  | c :: cs =>
    p.skips ⟨before, some c⟩ || p.ends ⟨before, some c⟩ ||
      (p.advance ⟨before, some c⟩ c true).occursFrom (some c) cs

def occursIn (p : Pattern) (s : String) : Bool := p.occursFrom none s.toList

def escaped? (c : Char) : Option CharSet :=
  match c with
  | 'w' => some .word
  | 'W' => some (.other .word)
  | 'd' => some .digit
  | 'D' => some (.other .digit)
  | 's' => some .blank
  | 'S' => some (.other .blank)
  | 'a' => some (.one '\x07')
  | 'f' => some (.one '\x0c')
  | 'n' => some (.one '\n')
  | 'r' => some (.one '\r')
  | 't' => some (.one '\t')
  | 'v' => some (.one '\x0b')
  | c => if c.isAlphanum || c = '<' || c = '>' || 0x80 ≤ c.toNat then none else some (.one c)

def takeMember? : Char → List Char → Option (CharSet × List Char)
  | '\\', c :: rest => (escaped? c).map fun s => (s, rest)
  | '\\', [] => none
  | c, rest => some (.one c, rest)

/-- A member of a set, or two characters with a dash for all between them. A dash before a closing bracket or another dash is no
such sign. -/
def takeRange? (c : Char) (cs : List Char) : Option (CharSet × List Char) :=
  match takeMember? c cs with
  | none => none
  | some (s, '-' :: next :: rest) =>
    if next = ']' || next = '-' then some (s, '-' :: next :: rest)
    else
      match s, takeMember? next rest with
      | .one a, some (.one b, rest) => if a ≤ b then some (.range a b, rest) else none
      | _, _ => none
  | some r => some r

def takeNamed? : List Char → Option (CharSet × List Char)
  | ':' :: cs =>
    let (negated, cs) := match cs with
      | '^' :: cs => (true, cs)
      | cs => (false, cs)
    match CharSet.named? (String.ofList (cs.takeWhile (· ≠ ':'))), cs.dropWhile (· ≠ ':') with
    | some s, ':' :: ']' :: rest => some (if negated then .other s else s, rest)
    | _, _ => none
  | _ => none

def takeFront : List Char → CharSet × List Char
  | ']' :: rest => (.one ']', rest)
  | '-' :: rest => (.one '-', rest.dropWhile (· = '-'))
  | cs => (.none, cs)

mutual

def takeSet? : Nat → List Char → Option (CharSet × List Char)
  | 0, _ => none
  | n + 1, '^' :: cs => (takeMembers? n id (takeFront cs).1 (takeFront cs).2).map fun r => (.other r.1, r.2)
  | n + 1, cs => takeMembers? n id (takeFront cs).1 (takeFront cs).2

def takeMembers? : Nat → (CharSet → CharSet) → CharSet → List Char → Option (CharSet × List Char)
  | 0, _, _, _ => none
  | n + 1, operation, found, cs =>
    match cs with
    | [] => none
    | ']' :: rest => some (operation found, rest)
    | '&' :: '&' :: rest => takeMembers? n (operation found).both .none rest
    | '-' :: '-' :: rest => takeMembers? n (operation found).minus .none rest
    | '~' :: '~' :: rest =>
      takeMembers? n (fun s => .either ((operation found).minus s) (s.minus (operation found))) .none rest
    | '[' :: rest =>
      match (takeNamed? rest).or (takeSet? n rest) with
      | some (s, rest) => takeMembers? n operation (.either found s) rest
      | none => none
    | c :: rest =>
      match takeRange? c rest with
      | some (s, rest) => takeMembers? n operation (.either found s) rest
      | none => none

end

def takeNumber? (cs : List Char) : Option (Nat × List Char) :=
  let cs := trimLeft cs
  match (String.ofList (cs.takeWhile Char.isDigit)).toNat? with
  | some n => if n < UInt32.size then some (n, trimLeft (cs.dropWhile Char.isDigit)) else none
  | none => none

def takeBounds? (cs : List Char) : Option ((Nat × Option Nat) × List Char) :=
  match takeNumber? cs with
  | some (n, '\x7d' :: rest) => some ((n, some n), rest)
  | some (n, ',' :: '\x7d' :: rest) => some ((n, none), rest)
  | some (n, ',' :: rest) =>
    match takeNumber? rest with
    | some (m, '\x7d' :: rest) => if n ≤ m then some ((n, some m), rest) else none
    | _ => none
  | _ => none

/-- A question mark after a repetition asks for as few matches as possible and changes no answer. -/
def dropLazy : List Char → List Char
  | '?' :: rest => rest
  | rest => rest

def takeRepetitions? : Nat → Pattern → List Char → Option (Pattern × List Char)
  | 0, _, _ => none
  | n + 1, p, cs =>
    match cs with
    | '*' :: rest => takeRepetitions? n p.star (dropLazy rest)
    | '+' :: rest => takeRepetitions? n p.plus (dropLazy rest)
    | '?' :: rest => takeRepetitions? n p.optional (dropLazy rest)
    | '\x7b' :: rest =>
      match takeBounds? rest with
      | some (bounds, rest) => takeRepetitions? n (p.counted bounds.1 bounds.2) (dropLazy rest)
      | none => none
    | rest => some (p, rest)

def isRepetition (c : Char) : Bool := c = '*' || c = '+' || c = '?' || c = '\x7b'

def takeName? (cs : List Char) : Option (List Char) :=
  let isInner (c : Char) : Bool := c.isAlphanum || c = '_' || c = '.' || c = '[' || c = ']'
  match cs, cs.dropWhile isInner with
  | c :: _, '>' :: rest => if c.isAlpha || c = '_' then some rest else none
  | _, _ => none

def takeOpening? : List Char → Option (List Char)
  | '?' :: ':' :: rest => some rest
  | '?' :: '<' :: rest => takeName? rest
  | '?' :: 'P' :: '<' :: rest => takeName? rest
  | '?' :: _ => none
  | rest => some rest

mutual

def takeChoice? : Nat → List Char → Option (Pattern × List Char)
  | 0, _ => none
  | n + 1, cs =>
    match takeSequence? n cs with
    | some (p, '|' :: rest) => (takeChoice? n rest).map fun r => (choice p r.1, r.2)
    | r => r

def takeSequence? : Nat → List Char → Option (Pattern × List Char)
  | 0, _ => none
  | n + 1, cs =>
    match cs with
    | [] => some (empty, [])
    | '|' :: rest => some (empty, '|' :: rest)
    | ')' :: rest => some (empty, ')' :: rest)
    | c :: rest =>
      match takeAtom? n c rest with
      | none => none
      | some (p, rest) =>
        match takeRepetitions? n p rest with
        | none => none
        | some (p, rest) => (takeSequence? n rest).map fun r => (seq p r.1, r.2)

def takeAtom? : Nat → Char → List Char → Option (Pattern × List Char)
  | 0, _, _ => none
  | n + 1, c, rest =>
    match c with
    | '(' =>
      match takeOpening? rest with
      | none => none
      | some body =>
        match takeChoice? n body with
        | some (p, ')' :: rest) => some (p, rest)
        | _ => none
    | '[' => (takeSet? n rest).map fun r => (ofSet r.1, r.2)
    | '\\' =>
      match rest with
      | 'A' :: rest => some (start, rest)
      | 'z' :: rest => some (stop, rest)
      | 'b' :: rest => some (boundary true, rest)
      | 'B' :: rest => some (boundary false, rest)
      | e :: rest => (escaped? e).map fun s => (ofSet s, rest)
      | [] => none
    | '.' => some (ofSet (.other (.one '\n')), rest)
    | '^' => some (start, rest)
    | '$' => some (stop, rest)
    | c => if isRepetition c then none else some (ofSet (.one c), rest)

end

/-- Reads characters, sets with their names and operations, groups with and without names, alternatives, repetitions and
places. Flags such as `(?i)`, the sets `\p` of Unicode and characters by their codes are not read, nor are the halves of
boundaries: a text with one of them counts as one with a fault. The names of groups are in ASCII and are not compared, and a
pattern may be of any size. -/
def parse? (s : String) : Option Pattern :=
  match takeChoice? (3 * s.toList.length + 3) s.toList with
  | some (p, []) => some p
  | _ => none

end Pattern
end RelationFilter.Text
