import RelationFilter.Proofs.Sql.Written
import RelationFilter.Proofs.Sql.Lexis
import RelationFilter.Path.Segment
import RelationFilter.Sql.Bindings
import RelationFilter.Text.Keyword

namespace RelationFilter.Sql

inductive Truth where
  | true
  | false
  | unknown
deriving DecidableEq, Repr

namespace Truth

def ofBool (b : Bool) : Truth := if b then .true else .false

def not : Truth → Truth
  | true => false
  | false => true
  | unknown => unknown

def or : Truth → Truth → Truth
  | true, _ => true
  | _, true => true
  | false, false => false
  | _, _ => unknown

end Truth

inductive Token where
  | word (letters : List Char)
  | left
  | right
  | comma
deriving DecidableEq

def endWord (word : List Char) (rest : List Token) : List Token :=
  if word = [] then rest else .word word.reverse :: rest

def punctuation? (c : Char) : Option Token :=
  if c = '(' then some .left else if c = ')' then some .right else if c = ',' then some .comma else none

def tokens : (mark : Option Char) → (word : List Char) → List Char → List Token
  | _, word, [] => endWord word []
  | some m, word, c :: cs => tokens (if c = m then none else some m) (c :: word) cs
  | none, word, c :: cs =>
    if isQuoteMark c then tokens (some c) (c :: word) cs
    else if Text.isBlank c then endWord word (tokens none [] cs)
    else
      match punctuation? c with
      | some t => endWord word (t :: tokens none [] cs)
      | none => tokens none (c :: word) cs

inductive Scalar where
  | null
  | empty
  | truth (b : Bool)
  | placeholder (name : String)
  | column (text : String)
  | orElse (first second : Scalar)
deriving DecidableEq

def Scalar.ofWord (word : List Char) : Scalar :=
  match word with
  | ':' :: name => placeholder (String.ofList name)
  | word =>
    match Text.lowerAscii (String.ofList word) with
    | "null" => null
    | "''" => empty
    | "true" => truth true
    | "1" => truth true
    | "false" => truth false
    | "0" => truth false
    | _ => column (String.ofList word)

inductive EqualityTest where
  | equal (left right : Scalar)
  | unequal (left right : Scalar)
  | isNull (value : Scalar)
  | or (first second : EqualityTest)
deriving DecidableEq

def scalar? : List Token → Option (Scalar × List Token)
  | .word f :: .left :: .word a :: .comma :: .word b :: .right :: rest =>
    if String.ofList f = "COALESCE" then some (.orElse (.ofWord a) (.ofWord b), rest) else none
  | .word w :: rest => some (.ofWord w, rest)
  | _ => none

def comparison? (ts : List Token) : Option (EqualityTest × List Token) := do
  let (left, ts) ← scalar? ts
  match ts with
  | .word op :: ts =>
    match String.ofList op, ts with
    | "=", ts => (scalar? ts).map fun r => (.equal left r.1, r.2)
    | "!=", ts => (scalar? ts).map fun r => (.unequal left r.1, r.2)
    | "IS", .word null :: ts => if String.ofList null = "NULL" then some (.isNull left, ts) else none
    | _, _ => none
  | _ => none

def test? : List Token → Option EqualityTest
  | .left :: ts => do
    let (first, ts) ← comparison? ts
    match ts with
    | .word or :: ts =>
      if String.ofList or = "OR" then
        match ← comparison? ts with
        | (second, [.right]) => some (.or first second)
        | _ => none
      else none
    | _ => none
  | ts =>
    match comparison? ts with
    | some (test, []) => some test
    | _ => none

/-- The values of a database without NULL. The empty text equals itself alone, and of all that is bound only the empty text
is bound as it, and only null as NULL. -/
structure Values (V : Type) where
  empty : V
  truth : Bool → V
  ofJson : Json → Option V
  equal : V → V → Bool
  empty_equal : ∀ v, equal empty v = true ↔ v = empty
  equal_empty : ∀ v, equal v empty = true ↔ v = empty
  truth_ne : ∀ b, truth b ≠ empty
  ofJson_eq_none : ∀ v, ofJson v = none ↔ v = .null
  ofJson_eq_empty : ∀ v, ofJson v = some empty ↔ v = .string ""

namespace Values

def equalJson : Json → Json → Bool
  | .string s, .string t => s = t
  | .int i, .int j => i = j
  | .float x, .float y => x == y
  | _, _ => false

def plain : Values Json where
  empty := .string ""
  truth b := .int b.toNat
  ofJson
    | .null => none
    | .bool b => some (.int b.toNat)
    | v => some v
  equal := equalJson
  empty_equal v := by cases v <;> simp [equalJson, eq_comm]
  equal_empty v := by cases v <;> simp [equalJson]
  truth_ne b := by simp
  ofJson_eq_none v := by cases v <;> simp
  ofJson_eq_empty v := by cases v <;> simp

variable {V : Type} (vals : Values V) (row : String → Option V) (b : Bindings)

def compare : Option V → Option V → Truth
  | some v, some w => .ofBool (vals.equal v w)
  | _, _ => .unknown

def value : Scalar → Option V
  | .null => none
  | .empty => some vals.empty
  | .truth t => some (vals.truth t)
  | .placeholder name => (b.get? name).bind vals.ofJson
  | .column text => row text
  | .orElse first second => (value first).or (value second)

def truthOf : EqualityTest → Truth
  | .equal left right => vals.compare (vals.value row b left) (vals.value row b right)
  | .unequal left right => (vals.compare (vals.value row b left) (vals.value row b right)).not
  | .isNull v => .ofBool (vals.value row b v).isNone
  | .or first second => (truthOf first).or (truthOf second)

end Values

def truth? {V : Type} (vals : Values V) (row : String → Option V) (s : Statement) : Option Truth :=
  (test? (tokens none [] s.sql.toList)).map (vals.truthOf row s.bindings)

def InWord (cs : List Char) : Prop := ∀ word rest, tokens none word (cs ++ rest) = tokens none (cs.reverse ++ word) rest

def isColumnChars : (mark : Option Char) → List Char → Bool
  | none, [] => true
  | some _, [] => false
  | some m, c :: cs => isColumnChars (if c = m then none else some m) cs
  | none, c :: cs => if c = '"' ∨ c = '\x60' then isColumnChars (some c) cs else isIdentifierChar c && isColumnChars none cs

def literals : List String := ["", "''", "null", "true", "false", "1", "0", "\"\"", "\x60\x60"]

def IsColumn (text : String) : Prop :=
  isColumnChars none text.toList = true ∧ literals.contains (Text.lowerAscii text) = false

instance (text : String) : Decidable (IsColumn text) := inferInstanceAs (Decidable (_ ∧ _))

theorem tokens_letter {c : Char} (blank : Text.isBlank c = false) (mark : isQuoteMark c = false)
    (other : punctuation? c = none) (word cs : List Char) : tokens none word (c :: cs) = tokens none (c :: word) cs := by
  simp [tokens, blank, mark, other]

theorem isBlank_of_isIdentifierChar {c : Char} (h : isIdentifierChar c = true) : Text.isBlank c = false := by
  cases blank : Text.isBlank c with
  | false => rfl
  | true =>
    simp only [isIdentifierChar, Text.isWord_of_isBlank blank, Bool.false_or, Bool.or_eq_true, decide_eq_true_eq] at h
    rcases h with (((rfl | rfl) | rfl) | rfl) | rfl <;> exact absurd blank (by decide)

theorem tokens_identifierChar {c : Char} (h : isIdentifierChar c = true) (word cs : List Char) :
    tokens none word (c :: cs) = tokens none (c :: word) cs := by
  have blank := isBlank_of_isIdentifierChar h
  have mark : isQuoteMark c = false := by
    cases found : isQuoteMark c with
    | false => rfl
    | true =>
      simp only [isQuoteMark, Bool.or_eq_true, decide_eq_true_eq] at found
      rcases found with (rfl | rfl) | rfl <;> exact absurd h (by decide)
  have other : punctuation? c = none := by
    unfold punctuation?
    split_ifs with left right comma
    · exact absurd h (by rw [left]; decide)
    · exact absurd h (by rw [right]; decide)
    · exact absurd h (by rw [comma]; decide)
    · rfl
  exact tokens_letter blank mark other word cs

theorem tokens_columnChars {cs : List Char} {mark : Option Char} (h : isColumnChars mark cs = true)
    (word rest : List Char) : tokens mark word (cs ++ rest) = tokens none (cs.reverse ++ word) rest := by
  fun_induction isColumnChars mark cs generalizing word with
  | case1 => rfl
  | case2 => cases h
  | case3 m c cs ih =>
    rw [List.cons_append, tokens, ih h, List.reverse_cons, List.append_assoc, List.singleton_append]
  | case4 c cs opens ih =>
    have mark : isQuoteMark c = true := by rcases opens with rfl | rfl <;> rfl
    rw [List.cons_append, tokens, if_pos mark, ih h, List.reverse_cons, List.append_assoc, List.singleton_append]
  | case5 c cs _ ih =>
    obtain ⟨letter, later⟩ := Bool.and_eq_true_iff.mp h
    rw [List.cons_append, tokens_identifierChar letter, ih later, List.reverse_cons, List.append_assoc,
      List.singleton_append]

theorem inWord_of_isColumn {text : String} (h : IsColumn text) : InWord text.toList :=
  fun word rest => tokens_columnChars h.1 word rest

theorem inWord_placeholder {name : String} (word : name.toList.all Text.isWord = true) :
    InWord (":" ++ name).toList := by
  have letters (cs : List Char) (word : cs.all Text.isWord = true) : InWord cs := by
    induction cs with
    | nil => exact fun _ _ => rfl
    | cons c cs ih =>
      obtain ⟨letter, later⟩ := Bool.and_eq_true_iff.mp word
      intro before rest
      rw [List.cons_append, tokens_identifierChar (by simp [isIdentifierChar, letter]), ih later, List.reverse_cons,
        List.append_assoc, List.singleton_append]
  intro before rest
  have colon : tokens none before (':' :: (name.toList ++ rest)) = tokens none (':' :: before) (name.toList ++ rest) :=
    tokens_letter (by decide) (by decide) (by decide) _ _
  have shape : (":" ++ name).toList = ':' :: name.toList := by simp
  rw [shape, List.cons_append, colon, letters _ word, List.reverse_cons, List.append_assoc, List.singleton_append]

structure OneWord (text : String) : Prop where
  inWord : InWord text.toList
  ne_empty : text.toList ≠ []

namespace OneWord

variable {text : String} (h : OneWord text)
include h

theorem endWord_reverse (rest : List Token) : endWord (text.toList.reverse ++ []) rest = .word text.toList :: rest := by
  rw [endWord, List.append_nil, if_neg (by simpa using h.ne_empty), List.reverse_reverse]

theorem alone : tokens none [] text.toList = [.word text.toList] := by
  have whole := h.inWord [] []
  rw [List.append_nil, tokens, h.endWord_reverse] at whole
  exact whole

theorem blank (rest : List Char) : tokens none [] (text.toList ++ ' ' :: rest) = .word text.toList :: tokens none [] rest := by
  have step (word : List Char) : tokens none word (' ' :: rest) = endWord word (tokens none [] rest) := rfl
  rw [h.inWord, step, h.endWord_reverse]

theorem comma (rest : List Char) :
    tokens none [] (text.toList ++ ',' :: rest) = .word text.toList :: .comma :: tokens none [] rest := by
  have step (word : List Char) : tokens none word (',' :: rest) = endWord word (.comma :: tokens none [] rest) := rfl
  rw [h.inWord, step, h.endWord_reverse]

end OneWord

end RelationFilter.Sql
