import Mathlib.Logic.Basic
import RelationFilter.Filter.Comparison
import RelationFilter.Proofs.Sql.Bindings
import RelationFilter.Proofs.Sql.Truth
import RelationFilter.Sql.Render

namespace RelationFilter

open Sql

inductive Comparand where
  | null
  | literal (value asWord : Bool)
  | placeholder (name : String) (value : Json) (named : name.toList.all Text.isWord = true)
  | column (text : String) (isColumn : IsColumn text)

namespace Comparand

def text : Comparand → String
  | null => "NULL"
  | literal true asWord => if asWord then "TRUE" else "1"
  | literal false asWord => if asWord then "FALSE" else "0"
  | placeholder name _ _ => ":" ++ name
  | column text _ => text

def bindings : Comparand → Bindings
  | placeholder name value _ => Bindings.single name value
  | _ => Bindings.empty

def scalar : Comparand → Scalar
  | null => .null
  | literal value _ => .truth value
  | placeholder name _ _ => .placeholder name
  | column text _ => .column text

def isEmpty : Comparand → Bool
  | null => true
  | placeholder _ value _ => Operand.isEmptyValue value
  | _ => false

def isFilled : Comparand → Bool
  | literal _ _ => true
  | placeholder _ value _ => !Operand.isEmptyValue value
  | _ => false

def shown (c : Comparand) : Scalar := if c.isEmpty then .empty else c.scalar

def value {V : Type} (vals : Values V) (row : String → Option V) : Comparand → Option V
  | null => none
  | literal value _ => some (vals.truth value)
  | placeholder _ value _ => vals.ofJson value
  | column text _ => row text

/-- The operand stands for the side, and its comparison takes defaults for NULL. -/
structure Denotes (o : Operand) (c : Comparand) : Prop where
  text : o.text = c.text
  bindings : o.bindings = c.bindings
  direct : o.direct = false

theorem oneWord (c : Comparand) : OneWord c.text := by
  cases c with
  | null => exact ⟨fun _ _ => rfl, by decide⟩
  | literal value asWord => cases value <;> cases asWord <;> exact ⟨fun _ _ => rfl, by decide⟩
  | placeholder name value named => exact ⟨inWord_placeholder named, by simp [text]⟩
  | column text isColumn =>
    refine ⟨inWord_of_isColumn isColumn, ?_⟩
    intro empty
    have none : text = "" := String.toList_inj.mp empty
    subst none
    exact absurd isColumn (by decide)

theorem ofWord_text (c : Comparand) : Scalar.ofWord c.text.toList = c.scalar := by
  cases c with
  | null => rfl
  | literal value asWord => cases value <;> cases asWord <;> rfl
  | placeholder name value named =>
    have shape : (":" ++ name).toList = ':' :: name.toList := by simp
    rw [text, shape, Scalar.ofWord, String.ofList_toList]
    rfl
  | column text isColumn =>
    obtain ⟨chars, free⟩ := isColumn
    show Scalar.ofWord text.toList = .column text
    unfold Scalar.ofWord
    split
    · rename_i name shape
      rw [shape] at chars
      exact absurd chars (by simp [isColumnChars, isIdentifierChar, show Text.isWord ':' = false by decide])
    · rw [String.ofList_toList]
      split <;> first | rfl | (rename_i word; rw [word] at free; exact absurd free (by decide))

theorem lowerAscii_placeholder {words : List String} (other : ∀ w ∈ words, w.toList.head? ≠ some ':') (name : String) :
    words.contains (Text.lowerAscii (":" ++ name)) = false := by
  rw [Bool.eq_false_iff, ne_eq, List.contains_iff_mem]
  intro member
  exact other _ member (by simp [Text.lowerAscii])

theorem lowerAscii_column {words : List String} (known : words ⊆ literals) {text : String}
    (isColumn : IsColumn text) : words.contains (Text.lowerAscii text) = false := by
  rw [Bool.eq_false_iff, ne_eq, List.contains_iff_mem]
  intro member
  have free := isColumn.2
  rw [Bool.eq_false_iff, ne_eq, List.contains_iff_mem] at free
  exact free (known member)

namespace Denotes

variable {o : Operand} {c : Comparand}

theorem isEmpty (h : Denotes o c) : o.isEmpty = c.isEmpty := by
  have text := h.text
  have bindings := h.bindings
  simp only [Operand.isEmpty, Operand.isEmptyText, Operand.hasEmptyValue, text, bindings]
  cases c with
  | null => decide
  | literal value asWord => cases value <;> cases asWord <;> decide
  | placeholder name value named =>
    rw [Comparand.text, lowerAscii_placeholder (by decide)]
    simp [Comparand.bindings, Bindings.single, Bindings.size, Bindings.values, Comparand.isEmpty]
  | column text isColumn =>
    rw [Comparand.text, lowerAscii_column (by decide) isColumn]
    rfl

theorem isFilled (h : Denotes o c) : o.isFilled = c.isFilled := by
  have text := h.text
  have bindings := h.bindings
  simp only [Operand.isFilled, Operand.isTruthWord, Operand.isEmptyText, Operand.hasEmptyValue, text, bindings]
  cases c with
  | null => decide
  | literal value asWord => cases value <;> cases asWord <;> decide
  | placeholder name value named =>
    rw [Comparand.text, lowerAscii_placeholder (by decide), lowerAscii_placeholder (by decide)]
    simp [Comparand.bindings, Bindings.single, Bindings.size, Bindings.values, Comparand.isFilled]
  | column text isColumn =>
    rw [Comparand.text, lowerAscii_column (by decide) isColumn, lowerAscii_column (by decide) isColumn]
    rfl

end Denotes

end Comparand

namespace Comparison

variable {l r m : String}

theorem tokens_compared (hl : OneWord l) {op : String} (hop : OneWord op) (hr : OneWord r) :
    tokens none [] (compared l op r).toList = [.word l.toList, .word op.toList, .word r.toList] := by
  have shape : (compared l op r).toList = l.toList ++ ' ' :: (op.toList ++ ' ' :: r.toList) := by simp [compared]
  rw [shape, hl.blank, hop.blank, hr.alone]

theorem oneWord_operator (equal : Bool) : OneWord (if equal then "=" else "!=") := by
  cases equal <;> exact ⟨fun _ _ => rfl, by decide⟩

theorem oneWord_empty : OneWord "''" := ⟨fun _ _ => rfl, by decide⟩

def tested (equal : Bool) (left right : Scalar) : EqualityTest := if equal then .equal left right else .unequal left right

theorem test?_compared (equal : Bool) (hl : OneWord l) (hr : OneWord r) :
    test? (tokens none [] (compared l (if equal then "=" else "!=") r).toList) =
      some (tested equal (.ofWord l.toList) (.ofWord r.toList)) := by
  rw [tokens_compared hl (oneWord_operator equal) hr]
  cases equal <;> rfl

def coalesced (text : String) : String := "COALESCE(" ++ text ++ ", '')"

theorem tokens_coalesced (h : OneWord l) (rest : List Char) :
    tokens none [] ((coalesced l).toList ++ rest) =
      .word "COALESCE".toList :: .left :: .word l.toList :: .comma :: .word "''".toList :: .right :: tokens none [] rest := by
  have start (cs : List Char) : tokens none [] ("COALESCE(".toList ++ cs) =
      .word "COALESCE".toList :: .left :: tokens none [] cs := rfl
  have last : tokens none [] (" '')".toList ++ rest) = .word "''".toList :: .right :: tokens none [] rest := rfl
  have shape : (coalesced l).toList ++ rest = "COALESCE(".toList ++ (l.toList ++ ',' :: (" '')".toList ++ rest)) := by
    simp [coalesced]
  rw [shape, start, h.comma, last]

theorem test?_coalesced (equal : Bool) (hl : OneWord l) (hr : OneWord r) :
    test? (tokens none [] (compared (coalesced l) (if equal then "=" else "!=") (coalesced r)).toList) =
      some (tested equal (.orElse (.ofWord l.toList) .empty) (.orElse (.ofWord r.toList) .empty)) := by
  have shape (op : String) : (compared (coalesced l) op (coalesced r)).toList =
      (coalesced l).toList ++ ' ' :: (op.toList ++ ' ' :: ((coalesced r).toList ++ [])) := by simp [compared]
  have blank (cs : List Char) : tokens none [] (' ' :: cs) = tokens none [] cs := rfl
  rw [shape, tokens_coalesced hl, blank, (oneWord_operator equal).blank, tokens_coalesced hr]
  cases equal <;> rfl

def testedOrNull (equal : Bool) (left right column : Scalar) : EqualityTest :=
  if equal then .or (.equal left right) (.isNull column) else .unequal left right

theorem test?_orNull (hl : OneWord l) (hr : OneWord r) (hm : OneWord m) :
    test? (tokens none [] ("(" ++ compared l "=" r ++ " OR " ++ m ++ " IS NULL)").toList) =
      some (.or (.equal (.ofWord l.toList) (.ofWord r.toList)) (.isNull (.ofWord m.toList))) := by
  have word (text : String) (known : text = "=" ∨ text = "OR") : OneWord text := by
    rcases known with rfl | rfl <;> exact ⟨fun _ _ => rfl, by decide⟩
  have shape : ("(" ++ compared l "=" r ++ " OR " ++ m ++ " IS NULL)").toList =
      '(' :: (l.toList ++ ' ' :: ("=".toList ++ ' ' :: (r.toList ++ ' ' :: ("OR".toList ++ ' ' :: (m.toList ++
        ' ' :: "IS NULL)".toList))))) := by simp [compared]
  have left (cs : List Char) : tokens none [] ('(' :: cs) = .left :: tokens none [] cs := rfl
  rw [shape, left, hl.blank, (word "=" (.inl rfl)).blank, hr.blank, (word "OR" (.inr rfl)).blank, hm.blank]
  rfl

theorem test?_testedOrNull (equal : Bool) (hl : OneWord l) (hr : OneWord r) (hm : OneWord m) :
    test? (tokens none [] (if equal then
      "(" ++ compared l (if equal then "=" else "!=") r ++ " OR " ++ m ++ " IS NULL)"
      else compared l (if equal then "=" else "!=") r).toList) =
      some (testedOrNull equal (.ofWord l.toList) (.ofWord r.toList) (.ofWord m.toList)) := by
  cases equal with
  | true => exact test?_orNull hl hr hm
  | false => exact test?_compared false hl hr

def test (equal : Bool) (a b : Comparand) : EqualityTest :=
  if a.isEmpty && b.isEmpty then tested equal .empty .empty
  else if a.isFilled || b.isFilled then tested equal a.shown b.shown
  else if a.isEmpty then testedOrNull equal .empty b.scalar b.scalar
  else if b.isEmpty then testedOrNull equal a.scalar .empty a.scalar
  else tested equal (.orElse a.scalar .empty) (.orElse b.scalar .empty)

variable {left right : Operand} {a b : Comparand}

theorem oneWord_shown (h : a.Denotes left) : OneWord (shown left) ∧ Scalar.ofWord (shown left).toList = a.shown := by
  rw [shown, h.isEmpty, h.text, Comparand.shown]
  split
  · exact ⟨oneWord_empty, rfl⟩
  · exact ⟨a.oneWord, a.ofWord_text⟩

theorem test?_equalitySql (hl : a.Denotes left) (hr : b.Denotes right) (equal : Bool) :
    test? (tokens none [] (equalitySql equal left right).toList) = some (test equal a b) := by
  have coalesces : ¬ (left.direct || right.direct) = true := by simp [hl.direct, hr.direct]
  obtain ⟨shownLeft, readLeft⟩ := oneWord_shown hl
  obtain ⟨shownRight, readRight⟩ := oneWord_shown hr
  have ha := a.oneWord
  have hb := b.oneWord
  simp only [equalitySql, if_neg coalesces, hl.isEmpty, hr.isEmpty, hl.isFilled, hr.isFilled, hl.text, hr.text, test]
  by_cases bothEmpty : (a.isEmpty && b.isEmpty) = true
  · rw [if_pos bothEmpty, if_pos bothEmpty, test?_compared equal oneWord_empty oneWord_empty]
    rfl
  rw [if_neg bothEmpty, if_neg bothEmpty]
  by_cases filled : (a.isFilled || b.isFilled) = true
  · rw [if_pos filled, if_pos filled, test?_compared equal shownLeft shownRight, readLeft, readRight]
  rw [if_neg filled, if_neg filled]
  by_cases leftEmpty : a.isEmpty = true
  · rw [if_pos leftEmpty, if_pos leftEmpty, test?_testedOrNull equal oneWord_empty hb hb, b.ofWord_text]
    rfl
  rw [if_neg leftEmpty, if_neg leftEmpty]
  by_cases rightEmpty : b.isEmpty = true
  · rw [if_pos rightEmpty, if_pos rightEmpty, test?_testedOrNull equal ha oneWord_empty ha, a.ofWord_text]
    rfl
  rw [if_neg rightEmpty, if_neg rightEmpty]
  have read := test?_coalesced equal ha hb
  rw [a.ofWord_text, b.ofWord_text] at read
  exact read

end Comparison

namespace Comparand

variable {V : Type} (vals : Values V) (row : String → Option V) (c : Comparand)

def filledValue : V := (c.value vals row).getD vals.empty

def IsNullColumn : Comparand → Prop
  | column text _ => row text = none
  | _ => False

inductive Known : Prop
  | empty (isEmpty : c.isEmpty = true) (isFilled : c.isFilled = false) (value : c.filledValue vals row = vals.empty)
  | filled (isEmpty : c.isEmpty = false) (isFilled : c.isFilled = true) (v : V) (value : c.value vals row = some v)
    (ne : v ≠ vals.empty)
  | column (isEmpty : c.isEmpty = false) (isFilled : c.isFilled = false)
    (null : c.IsNullColumn row ↔ c.value vals row = none)

theorem known : c.Known vals row := by
  cases c with
  | null => exact .empty rfl rfl rfl
  | literal value asWord => exact .filled rfl rfl _ rfl (vals.truth_ne value)
  | column text isColumn => exact .column rfl rfl Iff.rfl
  | placeholder name value named =>
    cases known : Operand.isEmptyValue value with
    | true =>
      refine .empty known (by simp [isFilled, known]) ?_
      show (vals.ofJson value).getD vals.empty = vals.empty
      unfold Operand.isEmptyValue at known
      split at known
      · rw [(vals.ofJson_eq_none .null).mpr rfl, Option.getD_none]
      · rename_i text
        rw [(vals.ofJson_eq_empty _).mpr (by simpa using known), Option.getD_some]
      · cases known
    | false =>
      cases read : vals.ofJson value with
      | none =>
        rw [(vals.ofJson_eq_none value).mp read] at known
        cases known
      | some v =>
        refine .filled known (by simp [isFilled, known]) v read ?_
        rintro rfl
        rw [(vals.ofJson_eq_empty value).mp read] at known
        exact absurd known (by decide)

variable {vals row c}

theorem filledValue_of_isEmpty (h : c.isEmpty = true) : c.filledValue vals row = vals.empty := by
  rcases c.known vals row with ⟨-, -, value⟩ | ⟨other, -⟩ | ⟨other, -⟩
  · exact value
  · rw [h] at other
    cases other
  · rw [h] at other
    cases other

theorem ne_empty_of_isFilled (h : c.isFilled = true) : c.filledValue vals row ≠ vals.empty := by
  rcases c.known vals row with ⟨-, other, -⟩ | ⟨-, -, v, value, ne⟩ | ⟨-, other, -⟩
  · rw [h] at other
    cases other
  · rwa [filledValue, value]
  · rw [h] at other
    cases other

namespace IsNullColumn

variable (null : c.IsNullColumn row)
include null

theorem value (vals : Values V) : c.value vals row = none := by
  cases c with
  | column text isColumn => exact null
  | _ => cases null

theorem isEmpty : c.isEmpty = false := by
  cases c with
  | column text isColumn => rfl
  | _ => cases null

theorem isFilled : c.isFilled = false := by
  cases c with
  | column text isColumn => rfl
  | _ => cases null

end IsNullColumn

def Bound (c : Comparand) (b : Bindings) : Prop := ∀ name v, c.bindings.get? name = some v → b.get? name = some v

theorem nodup_bindings (c : Comparand) : c.bindings.names.Nodup := by
  cases c <;> simp [Comparand.bindings, Bindings.single, Bindings.empty, Bindings.names]

namespace Bound

variable {b : Bindings} (bound : c.Bound b) (vals row)
include bound

theorem value : vals.value row b c.scalar = c.value vals row := by
  cases c with
  | placeholder name v named =>
    have found := bound name v (by simp [Comparand.bindings, Bindings.single, Bindings.get?])
    show (b.get? name).bind vals.ofJson = vals.ofJson v
    rw [found, Option.bind_some]
  | _ => rfl

theorem coalesced : vals.value row b (.orElse c.scalar .empty) = some (c.filledValue vals row) := by
  show (vals.value row b c.scalar).or (some vals.empty) = _
  rw [bound.value, filledValue]
  cases c.value vals row <;> rfl

theorem shown (notNull : ¬ c.IsNullColumn row) : vals.value row b c.shown = some (c.filledValue vals row) := by
  rcases c.known vals row with ⟨isEmpty, -, value⟩ | ⟨isEmpty, -, v, value, -⟩ | ⟨isEmpty, -, null⟩
  · rw [Comparand.shown, if_pos isEmpty, value]
    rfl
  · rw [Comparand.shown, if_neg (by simp [isEmpty]), bound.value, filledValue, value, Option.getD_some]
  · rw [Comparand.shown, if_neg (by simp [isEmpty]), bound.value, filledValue]
    cases value : c.value vals row with
    | none => exact absurd (null.mpr value) notNull
    | some v => rfl

theorem shown_null (null : c.IsNullColumn row) : vals.value row b c.shown = none := by
  rw [Comparand.shown, if_neg (by simp [null.isEmpty]), bound.value, null.value vals]

end Bound

end Comparand

namespace Comparison

variable {V : Type} {vals : Values V} {row : String → Option V} {a b : Comparand} {own : Bindings}

/-- A column that is NULL beside a value known to be neither NULL nor empty. -/
def Missed (row : String → Option V) (a b : Comparand) : Prop :=
  (a.IsNullColumn row ∧ b.isFilled = true) ∨ (a.isFilled = true ∧ b.IsNullColumn row)

/-- The sides have the same value, NULL and the empty text being one. -/
def same (vals : Values V) (row : String → Option V) (a b : Comparand) : Bool :=
  vals.equal (a.filledValue vals row) (b.filledValue vals row)

theorem truthOf_tested (equal : Bool) {l r : Scalar} {v w : V} (hl : vals.value row own l = some v)
    (hr : vals.value row own r = some w) :
    vals.truthOf row own (tested equal l r) = .true ↔ vals.equal v w = equal := by
  have compared : vals.compare (vals.value row own l) (vals.value row own r) = .ofBool (vals.equal v w) := by rw [hl, hr]; rfl
  cases equal with
  | true =>
    show vals.compare _ _ = .true ↔ _
    rw [compared]
    cases vals.equal v w <;> decide
  | false =>
    show (vals.compare _ _).not = .true ↔ _
    rw [compared]
    cases vals.equal v w <;> decide

theorem truthOf_testedOrNull (equal : Bool) {l r column : Scalar} {same : Bool}
    (null : vals.value row own column = none →
      vals.compare (vals.value row own l) (vals.value row own r) = .unknown ∧ same = true)
    (filled : ∀ v, vals.value row own column = some v →
      vals.compare (vals.value row own l) (vals.value row own r) = .ofBool same) :
    vals.truthOf row own (testedOrNull equal l r column) = .true ↔ same = equal := by
  have known : vals.truthOf row own (testedOrNull equal l r column) =
      if equal then (vals.compare (vals.value row own l) (vals.value row own r)).or
        (.ofBool (vals.value row own column).isNone)
      else (vals.compare (vals.value row own l) (vals.value row own r)).not := by cases equal <;> rfl
  rw [known]
  cases value : vals.value row own column with
  | none =>
    obtain ⟨unknown, rfl⟩ := null value
    rw [unknown]
    cases equal <;> simp [Truth.or, Truth.not, Truth.ofBool]
  | some v =>
    rw [filled v value]
    cases equal <;> cases same <;> simp [Truth.or, Truth.not, Truth.ofBool]

theorem truthOf_test_missed (vals : Values V) (ha : a.Bound own) (hb : b.Bound own) (missed : Missed row a b) (equal : Bool) :
    vals.truthOf row own (test equal a b) = .unknown ∧ same vals row a b = false := by
  have filled : (a.isFilled || b.isFilled) = true := by
    rcases missed with ⟨-, filled⟩ | ⟨filled, -⟩ <;> simp [filled]
  have notEmpty : ¬ (a.isEmpty && b.isEmpty) = true := by
    rcases missed with ⟨null, -⟩ | ⟨-, null⟩ <;> simp [null.isEmpty]
  rw [test, if_neg notEmpty, if_pos filled, same, Bool.eq_false_iff]
  rcases missed with ⟨null, filled⟩ | ⟨filled, null⟩
  · refine ⟨?_, ?_⟩
    · cases equal <;> simp [tested, Values.truthOf, ha.shown_null vals row null, Values.compare, Truth.not]
    · rw [Comparand.filledValue, null.value vals, Option.getD_none, ne_eq, vals.empty_equal]
      exact Comparand.ne_empty_of_isFilled filled
  · refine ⟨?_, ?_⟩
    · cases equal <;> simp [tested, Values.truthOf, hb.shown_null vals row null, Values.compare, Truth.not]
    · rw [Comparand.filledValue.eq_def vals row b, null.value vals, Option.getD_none, ne_eq, vals.equal_empty]
      exact Comparand.ne_empty_of_isFilled filled

theorem truthOf_test (ha : a.Bound own) (hb : b.Bound own) (found : ¬ Missed row a b) (equal : Bool) :
    vals.truthOf row own (test equal a b) = .true ↔ same vals row a b = equal := by
  have self : vals.equal vals.empty vals.empty = true := (vals.empty_equal _).mpr rfl
  rw [test, same]
  by_cases bothEmpty : (a.isEmpty && b.isEmpty) = true
  · obtain ⟨ea, eb⟩ := Bool.and_eq_true_iff.mp bothEmpty
    rw [if_pos bothEmpty, Comparand.filledValue_of_isEmpty ea, Comparand.filledValue_of_isEmpty eb]
    exact truthOf_tested equal rfl rfl
  rw [if_neg bothEmpty]
  by_cases filled : (a.isFilled || b.isFilled) = true
  · rw [if_pos filled]
    have neither : ¬ a.IsNullColumn row ∧ ¬ b.IsNullColumn row := by
      rw [Bool.or_eq_true] at filled
      constructor <;> intro null
      · exact found (.inl ⟨null, filled.resolve_left (by simp [null.isFilled])⟩)
      · exact found (.inr ⟨filled.resolve_right (by simp [null.isFilled]), null⟩)
    exact truthOf_tested equal (ha.shown vals row neither.1) (hb.shown vals row neither.2)
  rw [if_neg filled]
  by_cases leftEmpty : a.isEmpty = true
  · rw [if_pos leftEmpty, Comparand.filledValue_of_isEmpty leftEmpty, Comparand.filledValue, ← hb.value]
    apply truthOf_testedOrNull
    · intro null
      exact ⟨by rw [null]; rfl, by rw [null]; exact self⟩
    · intro v value
      rw [value]
      rfl
  rw [if_neg leftEmpty]
  by_cases rightEmpty : b.isEmpty = true
  · rw [if_pos rightEmpty, Comparand.filledValue_of_isEmpty rightEmpty, Comparand.filledValue, ← ha.value]
    apply truthOf_testedOrNull
    · intro null
      exact ⟨by rw [null]; rfl, by rw [null]; exact self⟩
    · intro v value
      rw [value]
      rfl
  rw [if_neg rightEmpty]
  exact truthOf_tested equal (ha.coalesced vals row) (hb.coalesced vals row)

theorem truthOf_test_equal (ha : a.Bound own) (hb : b.Bound own) :
    vals.truthOf row own (test true a b) = .true ↔ same vals row a b = true := by
  by_cases missed : Missed row a b
  · obtain ⟨unknown, differ⟩ := truthOf_test_missed vals ha hb missed true
    rw [unknown, differ]
    decide
  · exact truthOf_test ha hb missed true

variable (vals row) {left right : Operand}

theorem render_equality (equal : Bool) (left right : Operand) (d : Dialect) (sink : Bindings) :
    (equality equal left right).render d sink =
      (equalitySql equal left right, sink.merge (left.bindings.merge right.bindings)) := by
  rw [equality, Condition.render]

theorem truth?_equality (hl : a.Denotes left) (hr : b.Denotes right) (equal : Bool) (own : Bindings) :
    truth? vals row ⟨equalitySql equal left right, own⟩ = some (vals.truthOf row own (test equal a b)) := by
  rw [truth?, test?_equalitySql hl hr, Option.map_some]

theorem truth?_coalesced (hl : a.Denotes left) (hr : b.Denotes right) (own : Bindings) :
    truth? vals row ⟨compared (coalesced left.text) "=" (coalesced right.text), own⟩ =
      some (vals.truthOf row own (tested true (.orElse a.scalar .empty) (.orElse b.scalar .empty))) := by
  have read := test?_coalesced true a.oneWord b.oneWord
  rw [a.ofWord_text, b.ofWord_text] at read
  rw [truth?, hl.text, hr.text]
  exact congrArg (Option.map (vals.truthOf row own)) read

/-- Two placeholders of one name, as two values of one statement never are, stand for one value. -/
theorem bound_merge (hl : a.Denotes left) (hr : b.Denotes right) (agree : left.bindings.Agree right.bindings)
    (sink : Bindings) :
    a.Bound (sink.merge (left.bindings.merge right.bindings)) ∧
      b.Bound (sink.merge (left.bindings.merge right.bindings)) := by
  have distinctLeft : left.bindings.names.Nodup := hl.bindings ▸ a.nodup_bindings
  have distinctRight : right.bindings.names.Nodup := hr.bindings ▸ b.nodup_bindings
  have distinct := Bindings.nodup_names_merge distinctLeft right.bindings
  refine ⟨?_, ?_⟩
  · intro name v found
    rw [← hl.bindings] at found
    rw [Bindings.get?_merge distinct, Bindings.get?_merge_left distinctRight agree found, Option.some_or]
  · intro name v found
    rw [← hr.bindings] at found
    rw [Bindings.get?_merge distinct, Bindings.get?_merge distinctRight, found, Option.some_or, Option.some_or]

/-- Equality is true on the rows on which the sides with defaults for NULL are equal. -/
theorem equality_coalesces (hl : a.Denotes left) (hr : b.Denotes right) (agree : left.bindings.Agree right.bindings)
    (d : Dialect) (sink : Bindings) :
    let written := (equality true left right).render d sink
    let defaults := compared (coalesced left.text) "=" (coalesced right.text)
    ∃ t u, truth? vals row ⟨written.1, written.2⟩ = some t ∧ truth? vals row ⟨defaults, written.2⟩ = some u ∧
      (t = .true ↔ u = .true) ∧ (u = .true ↔ same vals row a b = true) := by
  rw [render_equality]
  obtain ⟨boundLeft, boundRight⟩ := bound_merge hl hr agree sink
  have defaults := truthOf_tested true (boundLeft.coalesced vals row) (boundRight.coalesced vals row)
  exact ⟨_, _, truth?_equality vals row hl hr true _, truth?_coalesced vals row hl hr _,
    (truthOf_test_equal boundLeft boundRight).trans defaults.symm, defaults⟩

theorem equality_coalesces_title :
    let title : Operand := { text := "title" }
    let text := Operand.bound "f0" (.string "")
    (Comparand.column "title" (by decide)).Denotes title ∧ (Comparand.placeholder "f0" (.string "") (by decide)).Denotes text ∧
      title.bindings.Agree text.bindings ∧
      let written := (equality true title text).render .sqlite Bindings.empty
      ∃ t u, truth? .plain (fun _ => none) ⟨written.1, written.2⟩ = some t ∧
        truth? .plain (fun _ => none) ⟨"COALESCE(title, '') = COALESCE(:f0, '')", written.2⟩ = some u ∧
        (t = .true ↔ u = .true) ∧ u = .true := by
  have column : (Comparand.column "title" (by decide)).Denotes { text := "title" } := ⟨rfl, rfl, rfl⟩
  have value : (Comparand.placeholder "f0" (.string "") (by decide)).Denotes (.bound "f0" (.string "")) := ⟨rfl, rfl, rfl⟩
  have agree : ({ text := "title" } : Operand).bindings.Agree (Operand.bound "f0" (.string "")).bindings := by
    intro name v w found
    cases found
  obtain ⟨t, u, written, defaults, alike, equal⟩ :=
    equality_coalesces .plain (fun _ => none) column value agree .sqlite Bindings.empty
  exact ⟨column, value, agree, t, u, written, defaults, alike, equal.mpr (by decide)⟩

/-- Inequality is the complement of equality on all rows but those with a column that is NULL beside a value known to be
neither NULL nor empty, and there both are unknown. -/
theorem equality_complement (hl : a.Denotes left) (hr : b.Denotes right) (agree : left.bindings.Agree right.bindings)
    (d : Dialect) (sink : Bindings) :
    let equal := (equality true left right).render d sink
    let unequal := (equality false left right).render d sink
    ∃ t u, truth? vals row ⟨equal.1, equal.2⟩ = some t ∧ truth? vals row ⟨unequal.1, unequal.2⟩ = some u ∧
      (Xor (t = .true) (u = .true) ↔ ¬ Missed row a b) ∧ (Missed row a b → t = .unknown ∧ u = .unknown) := by
  rw [render_equality, render_equality]
  obtain ⟨boundLeft, boundRight⟩ := bound_merge hl hr agree sink
  have unknown (missed : Missed row a b) (equal : Bool) :=
    (truthOf_test_missed vals boundLeft boundRight missed equal).1
  refine ⟨_, _, truth?_equality vals row hl hr true _, truth?_equality vals row hl hr false _, ⟨?_, ?_⟩, ?_⟩
  · intro one missed
    rw [unknown missed, unknown missed] at one
    exact absurd one (by decide)
  · intro found
    rw [truthOf_test boundLeft boundRight found, truthOf_test boundLeft boundRight found]
    cases same vals row a b <;> decide
  · intro missed
    exact ⟨unknown missed true, unknown missed false⟩

theorem equality_complement_title :
    let title : Operand := { text := "title" }
    let text := Operand.bound "f0" (.string "hello")
    let row := fun _ : String => some (Json.string "")
    (Comparand.column "title" (by decide)).Denotes title ∧
      (Comparand.placeholder "f0" (.string "hello") (by decide)).Denotes text ∧ title.bindings.Agree text.bindings ∧
      ¬ Missed row (.column "title" (by decide)) (.placeholder "f0" (.string "hello") (by decide)) ∧
      let equal := (equality true title text).render .sqlite Bindings.empty
      let unequal := (equality false title text).render .sqlite Bindings.empty
      ∃ t u, truth? .plain row ⟨equal.1, equal.2⟩ = some t ∧ truth? .plain row ⟨unequal.1, unequal.2⟩ = some u ∧
        Xor (t = .true) (u = .true) := by
  have column : (Comparand.column "title" (by decide)).Denotes { text := "title" } := ⟨rfl, rfl, rfl⟩
  have value : (Comparand.placeholder "f0" (.string "hello") (by decide)).Denotes (.bound "f0" (.string "hello")) :=
    ⟨rfl, rfl, rfl⟩
  have agree : ({ text := "title" } : Operand).bindings.Agree (Operand.bound "f0" (.string "hello")).bindings := by
    intro name v w found
    cases found
  have found : ¬ Missed (fun _ : String => some (Json.string "")) (.column "title" (by decide))
      (.placeholder "f0" (.string "hello") (by decide)) := by
    rintro (⟨null, -⟩ | ⟨filled, -⟩)
    · cases null
    · cases filled
  obtain ⟨t, u, equal, unequal, exclusive, -⟩ :=
    equality_complement .plain (fun _ => some (.string "")) column value agree .sqlite Bindings.empty
  exact ⟨column, value, agree, found, t, u, equal, unequal, exclusive.mpr found⟩

/-- On a row whose column is NULL, neither equality with a text nor inequality is true. -/
theorem equality_not_complement_null :
    let title : Operand := { text := "title" }
    let text := Operand.bound "f0" (.string "hello")
    (Comparand.column "title" (by decide)).Denotes title ∧
      (Comparand.placeholder "f0" (.string "hello") (by decide)).Denotes text ∧
      let equal := (equality true title text).render .sqlite Bindings.empty
      let unequal := (equality false title text).render .sqlite Bindings.empty
      ¬ ∃ t u, truth? .plain (fun _ => none) ⟨equal.1, equal.2⟩ = some t ∧
        truth? .plain (fun _ => none) ⟨unequal.1, unequal.2⟩ = some u ∧ Xor (t = .true) (u = .true) := by
  refine ⟨⟨rfl, rfl, rfl⟩, ⟨rfl, rfl, rfl⟩, ?_⟩
  intro equal unequal ⟨t, u, first, second, one⟩
  have neither : truth? .plain (fun _ => none) ⟨equal.1, equal.2⟩ = some .unknown ∧
      truth? .plain (fun _ => none) ⟨unequal.1, unequal.2⟩ = some .unknown := by decide
  rw [neither.1, Option.some.injEq] at first
  rw [neither.2, Option.some.injEq] at second
  rw [← first, ← second] at one
  exact absurd one (by decide)

end Comparison

end RelationFilter
