import Mathlib.Data.List.Forall2
import RelationFilter.Proofs.Sql.Grammar
import RelationFilter.Proofs.Sql.Rendering

namespace RelationFilter

open Sql

namespace Sql

def joined (op : Proposition → Proposition → Proposition) : List Proposition → Option Proposition
  | [] => none
  | f :: rest =>
    match joined op rest with
    | none => some f
    | some g => some (op f g)

def falsehood : Proposition := .atom "0=1"

def existing (negated : Bool) : Option Proposition → Option Proposition
  | none => if negated then none else some falsehood
  | some f => some (if negated then .not (.existence f) else .existence f)

end Sql

mutual

/-- What the condition says when it is rendered from `b`, if it says anything. Tests of columns are atoms with the text
that they are rendered to. -/
def Condition.proposition (d : Dialect) : Condition → Bindings → Option Proposition
  | .raw sql _, _ => if sql = "" then none else some (.atom sql)
  | .all parts, b => joined .and (propositions d parts b)
  | .any parts, b => joined .or (propositions d parts b)
  | .columns pairs, b => joined .and (columnPropositions d pairs b)
  | .oneOf column values negated, b =>
    if values.isEmpty then if negated then none else some falsehood
    else some (.atom ((Condition.oneOf column values negated).render d b).1)
  | .existence inner negated, b => existing negated (inner.proposition d b)
  | .negation inner, b => (inner.proposition d b).map .not
  | .enclosed inner, b => inner.proposition d b
  | .chainValues _, _ => none
  | .chainRow _ _, _ => none

def propositions (d : Dialect) : List Condition → Bindings → List Proposition
  | [], _ => []
  | c :: rest, b => (c.proposition d b).toList ++ propositions d rest (c.render d b).2

def columnPropositions (d : Dialect) : List (String × EntryOf Condition) → Bindings → List Proposition
  | [], _ => []
  | (column, .value v) :: rest, b =>
    .atom (columnValue d column v b).1 :: columnPropositions d rest (columnValue d column v b).2
  | (_, .condition c) :: rest, b => (c.proposition d b).toList ++ columnPropositions d rest (c.render d b).2

end

mutual

/-- The condition has no chains, its fragments are empty or atomic, and its columns are dotted names. -/
def Condition.Structured (q : Quotes) : Condition → Prop
  | .raw sql _ => sql = "" ∨ q.Atomic sql
  | .all parts => StructuredAll q parts
  | .any parts => StructuredAll q parts
  | .columns pairs => StructuredColumns q pairs
  | .oneOf column values _ => Dotted column ∧ ∃ vs : List Json, values = vs.map .value
  | .existence inner _ => inner.Structured q
  | .negation inner => inner.Structured q
  | .enclosed inner => inner.Structured q
  | .chainValues _ => False
  | .chainRow _ _ => False

def StructuredAll (q : Quotes) : List Condition → Prop
  | [] => True
  | c :: rest => c.Structured q ∧ StructuredAll q rest

def StructuredColumns (q : Quotes) : List (String × EntryOf Condition) → Prop
  | [] => True
  | (column, .value _) :: rest => Dotted column ∧ StructuredColumns q rest
  | (_, .condition c) :: rest => c.Structured q ∧ StructuredColumns q rest

end

namespace Sql

variable {q : Quotes}

def BeginsWithBreak (text : String) : Prop := ∃ c cs, text.toList = c :: cs ∧ isBreak c = true

theorem Quotes.Quiet.append {text more : String} (h : q.Quiet text) (h' : q.Quiet more) (start : BeginsWithBreak more) :
    q.Quiet (text ++ more) := by
  obtain ⟨c, cs, shape, atBreak⟩ := start
  refine ⟨h.balanced.append h'.balanced, ?_⟩
  intro k w member
  rw [String.toList_append, shape, Quotes.words_append h.balanced atBreak] at member
  rcases List.mem_append.mp member with first | later
  · exact h.silent k w first
  · apply h'.silent k w
    rw [shape, ← List.nil_append (c :: cs), Quotes.words_append rfl atBreak]
    exact List.mem_append_right _ later

theorem Quotes.Atomic.append {text more : String} (h : q.Atomic text) (h' : q.Quiet more)
    (start : BeginsWithBreak more) : q.Atomic (text ++ more) := by
  refine ⟨h.toQuiet.append h' start, ?_⟩
  have shown := h.visible
  unfold Text.allBlank at shown ⊢
  rw [String.toList_append, List.all_append, shown, Bool.false_and]

theorem beginsWithBreak {c : Char} (atBreak : isBreak c = true) (more : String) :
    BeginsWithBreak (String.singleton c ++ more) := ⟨c, more.toList, by simp, atBreak⟩

theorem quiet_word {word : String} (isWord : word.toList.all Text.isWord = true)
    (other : ∀ k : Keyword, word.toList.map Char.toLower ≠ k.letters) : q.Quiet word := by
  refine ⟨balanced_word isWord, ?_⟩
  intro k w member
  rw [words_of_isWord isWord, List.mem_singleton] at member
  rw [member]
  exact other k

theorem Quotes.Quiet.after {more : String} (h : q.Quiet more) {c : Char} (atBreak : isBreak c = true) :
    q.Quiet (String.singleton c ++ more) := by
  have mark : q.Quiet "" := quiet_word rfl (by intro k; cases k <;> decide)
  have start := beginsWithBreak atBreak more
  refine ⟨?_, ?_⟩
  · apply (Quotes.balanced_of_bare _).append h.balanced
    simp [(Bool.and_eq_true_iff.mp atBreak).1]
  · intro k w member
    have shape : (String.singleton c ++ more).toList = [] ++ c :: more.toList := by simp
    rw [shape, Quotes.words_append rfl atBreak] at member
    rcases List.mem_append.mp member with first | later
    · exact mark.silent k w first
    · exact h.silent k w later

theorem quiet_parenthesized {text : String} (closed : q.Balanced text) : q.Quiet ("(" ++ text ++ ")") := by
  refine ⟨closed.parenthesized, ?_⟩
  intro k w member
  rw [words_parenthesized closed member]
  cases k <;> decide

theorem falsehood_atomic : q.Atomic "0=1" := by
  have left : q.Quiet "0" := quiet_word (by decide) (by intro k; cases k <;> decide)
  have right : q.Quiet "1" := quiet_word (by decide) (by intro k; cases k <;> decide)
  have whole := left.append (right.after (c := '=') (by decide)) (beginsWithBreak (by decide) _)
  exact ⟨whole, by decide⟩

theorem IsValue.quiet {value : String} (h : IsValue value) : q.Quiet value := by
  cases h with
  | null => exact quiet_word (by decide) (by intro k; cases k <;> decide)
  | slot n =>
    have name : (Bindings.slot n).toList = 'p' :: (toString n).toList := by simp [Bindings.slot]
    have quiet : q.Quiet (Bindings.slot n) := by
      apply quiet_word (all_isWord_slot n)
      intro k same
      rw [name] at same
      have heads := congrArg List.head? same
      cases k <;> exact absurd heads (by simp [Keyword.letters])
    exact quiet.after (c := ':') (by decide)

theorem mem_of_hasTwice {c : Char} {cs : List Char} (twice : Text.hasTwice c cs = true) : c ∈ cs := by
  fun_induction Text.hasTwice c cs with
  | case1 a b rest ih =>
    rcases Bool.or_eq_true_iff.mp twice with here | later
    · simp only [Bool.and_eq_true, decide_eq_true_eq] at here
      rw [here.1]
      exact List.mem_cons_self
    · exact List.mem_cons_of_mem _ (ih later)
  | case2 => cases twice

theorem atomic_wrap (d : Dialect) {name : List Char} (word : name.all Text.isWord = true) :
    q.Atomic (String.ofList (d.wrap name)) := by
  have visible : Text.isBlank d.quoteMark = false := by cases d <;> decide
  refine ⟨⟨?_, ?_⟩, ?_⟩
  · rw [Quotes.Balanced, String.toList_ofList]
    exact Quotes.read_wrap d (all_isBare_of_isWord word)
  · intro k w member
    rw [String.toList_ofList] at member
    rcases Quotes.words_wrap d (all_isBare_of_isWord word) word member with rfl | rfl
    · cases k <;> decide
    · intro same
      have heads := congrArg List.head? same
      simp only [Dialect.wrap, List.cons_append, List.map_cons, List.head?_cons] at heads
      cases d <;> cases k <;> exact absurd heads (by decide)
  · simp [Text.allBlank, Dialect.wrap, visible]

/-- What holds of quoted words and of what is joined by a dot holds of a quoted column, if that is a dotted name. -/
theorem quotable_of_dotted (d : Dialect) {column : String} (dotted : Dotted column) {P : List Char → Prop}
    (wrapped : ∀ part, part.all Text.isWord = true → P (d.wrap part))
    (joined : ∀ left right, P left → P right → P (left ++ '.' :: right)) : d.Quotable P column.toList := by
  have plain {part : List Char} (within : part ⊆ column.toList) {c : Char} (member : c ∈ part) :
      Text.isWord c = true ∨ c = '.' := by simpa using List.all_eq_true.mp dotted c (within member)
  refine ⟨?_, ?_, joined⟩
  · intro part within apart
    apply wrapped
    rw [List.all_eq_true]
    intro c member
    rcases plain within member with word | dot
    · exact word
    · exact absurd (dot ▸ member) apart
  · intro part within special
    have other {c : Char} (member : c ∈ part) (no : Text.isWord c = false ∧ c ≠ '.') : False := by
      rcases plain within member with word | dot
      · rw [no.1] at word
        cases word
      · exact no.2 dot
    rcases special with verbatim | marked | rfl
    · simp only [Dialect.isVerbatim, Bool.or_eq_true, List.contains_iff_mem] at verbatim
      rcases verbatim with (call | braces) | brackets
      · exact (other call (by decide)).elim
      · exact (other (mem_of_hasTwice braces) (by decide)).elim
      · exact (other (mem_of_hasTwice brackets) (by decide)).elim
    · exact (other (List.contains_iff_mem.mp marked) (by cases d <;> decide)).elim
    · exact (other List.mem_cons_self (by decide)).elim

theorem atomic_quoteColumn (d : Dialect) {column : String} (dotted : Dotted column) :
    q.Atomic (d.quoteColumn column) := by
  have quotable : d.Quotable (fun cs => q.Atomic (String.ofList cs)) column.toList := by
    apply quotable_of_dotted d dotted
    · exact fun part word => atomic_wrap d word
    · intro left right first second
      have shape : String.ofList (left ++ '.' :: right) =
          String.ofList left ++ (String.singleton '.' ++ String.ofList right) := by
        rw [← String.toList_inj]
        simp
      rw [shape]
      exact first.append (second.toQuiet.after (by decide)) (beginsWithBreak (by decide) _)
  exact quotable.columnChars

/-- A test of a column is an atom, unless it is a list without values that nothing is in. -/
theorem derives_membership (d : Dialect) {column : String} (dotted : Dotted column) {values : List String}
    (each : ∀ value ∈ values, IsValue value) {negated : Bool} (listed : values ≠ [] ∨ negated = false) :
    Derives q .primary (membership d column values negated) (.atom (membership d column values negated)) := by
  have quoted : q.Atomic (d.quoteColumn column) := atomic_quoteColumn d dotted
  have list : q.Balanced (String.intercalate ", " values) :=
    Quotes.balanced_intercalate (by decide) fun value member => (each value member).quiet.balanced
  have listed_in : q.Quiet (" IN (" ++ String.intercalate ", " values ++ ")") ∧
      BeginsWithBreak (" IN (" ++ String.intercalate ", " values ++ ")") := by
    have shape : " IN (" ++ String.intercalate ", " values ++ ")" = String.singleton ' ' ++
        ("IN" ++ (String.singleton ' ' ++ ("(" ++ String.intercalate ", " values ++ ")"))) := by
      have parts : " IN (" = String.singleton ' ' ++ ("IN" ++ (String.singleton ' ' ++ "(")) := rfl
      simp only [parts, String.append_assoc]
    have keyword : q.Quiet "IN" := quiet_word (by decide) (by intro k; cases k <;> decide)
    have tail := (quiet_parenthesized list).after (c := ' ') (by decide)
    rw [shape]
    exact ⟨(keyword.append tail (beginsWithBreak (by decide) _)).after (by decide), beginsWithBreak (by decide) _⟩
  unfold membership
  split
  · simp at listed
  · exact .atom falsehood_atomic
  · rename_i value
    have quiet : q.Quiet value := (each value List.mem_cons_self).quiet
    have shape : d.quoteColumn column ++ "<>" ++ value =
        d.quoteColumn column ++ (String.singleton '<' ++ (String.singleton '>' ++ value)) := by
      have parts : "<>" = String.singleton '<' ++ String.singleton '>' := rfl
      simp only [parts, String.append_assoc]
    rw [shape]
    exact .atom (quoted.append ((quiet.after (by decide)).after (by decide)) (beginsWithBreak (by decide) _))
  · rename_i value
    have quiet : q.Quiet value := (each value List.mem_cons_self).quiet
    rw [String.append_assoc]
    exact .atom (quoted.append (quiet.after (c := '=') (by decide)) (beginsWithBreak (c := '=') (by decide) _))
  · exact .notIn quoted list
  · have shape : d.quoteColumn column ++ " IN (" ++ String.intercalate ", " values ++ ")" =
        d.quoteColumn column ++ (" IN (" ++ String.intercalate ", " values ++ ")") := by
      simp only [String.append_assoc]
    rw [shape]
    exact .atom (quoted.append listed_in.1 listed_in.2)

theorem derives_columnValue (d : Dialect) {column : String} (dotted : Dotted column) (v : Json) (b : Bindings) :
    Derives q .primary (columnValue d column v b).1 (.atom (columnValue d column v b).1) := by
  have quoted : q.Atomic (d.quoteColumn column) := atomic_quoteColumn d dotted
  unfold columnValue
  split
  · have is : q.Quiet "IS" := quiet_word (by decide) (by intro k; cases k <;> decide)
    have null : q.Quiet "NULL" := quiet_word (by decide) (by intro k; cases k <;> decide)
    have test := is.append (null.after (c := ' ') (by decide)) (beginsWithBreak (by decide) _)
    have start : BeginsWithBreak " IS NULL" := ⟨' ', "IS NULL".toList, rfl, by decide⟩
    exact .atom (quoted.append (test.after (c := ' ') (by decide)) start)
  · rename_i items
    exact derives_membership d dotted (isValue_listValues items b) (.inr rfl)
  · have value : q.Quiet (":" ++ b.freeSlot) := (IsValue.slot _).quiet
    have shape : d.quoteColumn column ++ " = :" ++ b.freeSlot = d.quoteColumn column ++ (String.singleton ' ' ++
        (String.singleton '=' ++ (String.singleton ' ' ++ (":" ++ b.freeSlot)))) := by
      have parts : " = :" = String.singleton ' ' ++ (String.singleton '=' ++ (String.singleton ' ' ++ ":")) := rfl
      simp only [parts, String.append_assoc]
    rw [shape]
    have test := (value.after (c := ' ') (by decide)).after (c := '=') (by decide)
    exact .atom (quoted.append (test.after (by decide)) (beginsWithBreak (by decide) _))

/-- The text of a condition says what the proposition says, and an empty text says nothing. -/
def Expresses (q : Quotes) (level : Level) (text : String) : Option Proposition → Prop
  | none => text = ""
  | some f => Derives q level text f

theorem Expresses.eq_empty_iff {level : Level} {text : String} {f : Option Proposition} (h : Expresses q level text f) :
    text = "" ↔ f = none := by
  cases f with
  | none => exact ⟨fun _ => rfl, fun _ => h⟩
  | some f => exact ⟨fun same => absurd same h.ne_empty, nofun⟩

theorem Derives.disjunct {text : String} {f : Proposition} (h : Derives q .primary text f) :
    Derives q .disjunction text f := .conjunction (.negation (.primary h))

/-- Operands with an operator between them, for an operator that joins an operand to what follows it. -/
theorem derives_intercalate {lower upper : Level} {sep : String} {op : Proposition → Proposition → Proposition}
    (single : ∀ {text f}, Derives q lower text f → Derives q upper text f)
    (step : ∀ {left right f g}, Derives q lower left f → Derives q upper right g →
      Derives q upper (left ++ sep ++ right) (op f g))
    {texts : List String} {fs : List Proposition} (each : List.Forall₂ (Derives q lower) texts fs) :
    Expresses q upper (String.intercalate sep texts) (joined op fs) := by
  induction each with
  | nil => rfl
  | @cons text f texts fs first rest ih =>
    cases rest with
    | nil => simpa [joined, Expresses] using single first
    | @cons next g texts fs second rest =>
      rw [String.intercalate_cons_cons, joined]
      cases others : joined op (g :: fs) with
      | none =>
        rw [others] at ih
        rw [joined] at others
        split at others <;> cases others
      | some h =>
        rw [others] at ih
        exact step first ih

theorem expresses_and {texts : List String} {fs : List Proposition}
    (each : List.Forall₂ (Derives q .negation) texts fs) :
    Expresses q .disjunction (String.intercalate " AND " texts) (joined .and fs) := by
  have conjunction : Expresses q .conjunction (String.intercalate " AND " texts) (joined .and fs) :=
    derives_intercalate .negation .and each
  cases whole : joined .and fs with
  | none =>
    rw [whole] at conjunction
    exact conjunction
  | some f =>
    rw [whole] at conjunction
    exact .conjunction conjunction

theorem intercalate_parenthesized (op : String) (texts : List String) (some_text : texts ≠ []) :
    "(" ++ String.intercalate (") " ++ op ++ " (") texts ++ ")" =
      String.intercalate (" " ++ op ++ " ") (texts.map fun text => "(" ++ text ++ ")") := by
  induction texts with
  | nil => contradiction
  | cons text rest ih =>
    cases rest with
    | nil => simp
    | cons next rest =>
      have later := ih (by simp)
      rw [List.map_cons] at later
      rw [List.map_cons, List.map_cons, String.intercalate_cons_cons, String.intercalate_cons_cons, ← later]
      have left : ") " ++ op ++ " (" = ")" ++ (" " ++ op ++ " " ++ "(") := by
        have parts : ") " = ")" ++ " " ∧ " (" = " " ++ "(" := ⟨rfl, rfl⟩
        simp only [parts, String.append_assoc]
      rw [left]
      simp only [String.append_assoc]

theorem expresses_combine {operator : String} {op : Proposition → Proposition → Proposition}
    (chain : ∀ {texts fs}, List.Forall₂ (Derives q .primary) texts fs →
      Expresses q .disjunction (String.intercalate (" " ++ operator ++ " ") texts) (joined op fs))
    {parts : List String} {fs : List Proposition}
    (each : List.Forall₂ (Derives q .disjunction) (parts.filter (· ≠ "")) fs) :
    Expresses q .disjunction (combine operator parts) (joined op fs) := by
  unfold combine
  generalize parts.filter (· ≠ "") = texts at each
  cases each with
  | nil => rfl
  | cons first rest =>
    cases rest with
    | nil => exact first
    | @cons next g texts fs second rest =>
      have operands := (List.Forall₂.cons first (.cons second rest)).imp fun text f h => h.parentheses
      have whole := chain (List.forall₂_map_left_iff.mpr operands)
      rwa [← intercalate_parenthesized operator _ (by simp)] at whole

theorem expresses_combine_and {parts : List String} {fs : List Proposition}
    (each : List.Forall₂ (Derives q .disjunction) (parts.filter (· ≠ "")) fs) :
    Expresses q .disjunction (combine "AND" parts) (joined .and fs) :=
  expresses_combine (fun operands => expresses_and (operands.imp fun _ _ h => h.primary)) each

theorem expresses_combine_or {parts : List String} {fs : List Proposition}
    (each : List.Forall₂ (Derives q .disjunction) (parts.filter (· ≠ "")) fs) :
    Expresses q .disjunction (combine "OR" parts) (joined .or fs) :=
  expresses_combine (fun operands =>
    derives_intercalate .conjunction .or (operands.imp fun _ _ h => h.primary.negation)) each

theorem expresses_existence {text : String} {f : Option Proposition} (h : Expresses q .disjunction text f)
    (negated : Bool) : Expresses q .disjunction (existence text negated) (existing negated f) := by
  unfold existence
  cases f with
  | none =>
    have nothing : text = "" := h
    rw [if_pos nothing]
    cases negated
    · exact (Derives.atom falsehood_atomic).disjunct
    · rfl
  | some f =>
    have inside : Derives q .disjunction text f := h
    rw [if_neg inside.ne_empty]
    cases negated
    · exact inside.existence.disjunct
    · have shape : "NOT EXISTS (" ++ text ++ ")" = "NOT " ++ ("EXISTS (" ++ text ++ ")") := by
        have parts : "NOT EXISTS (" = "NOT " ++ "EXISTS (" := rfl
        simp only [parts, String.append_assoc]
      simp only [if_true, shape]
      exact .conjunction (.negation (.not inside.existence.primary))

theorem expresses_negation {text : String} {f : Option Proposition} (h : Expresses q .disjunction text f) :
    Expresses q .disjunction (negation text) (f.map .not) := by
  unfold negation
  cases f with
  | none =>
    rw [show text = "" from h]
    rfl
  | some f =>
    have inside : Derives q .disjunction text f := h
    have shape : "NOT (" ++ text ++ ")" = "NOT " ++ ("(" ++ text ++ ")") := by
      have parts : "NOT (" = "NOT " ++ "(" := rfl
      simp only [parts, String.append_assoc]
    rw [inside.visible, shape]
    exact .conjunction (.negation (.not inside.parentheses.primary))

theorem expresses_enclose {text : String} {f : Option Proposition} (h : Expresses q .disjunction text f) :
    Expresses q .disjunction (enclose text) f := by
  unfold enclose
  cases f with
  | none =>
    have nothing : text = "" := h
    rw [if_pos nothing]
    rfl
  | some f =>
    have inside : Derives q .disjunction text f := h
    rw [if_neg inside.ne_empty]
    exact inside.parentheses.disjunct

end Sql

namespace Condition

variable {q : Quotes} (d : Dialect)

mutual

theorem render_expresses (c : Condition) (b : Bindings) (structured : c.Structured q) :
    Expresses q .disjunction (c.render d b).1 (c.proposition d b) := by
  match c with
  | .raw sql own =>
    simp only [render, proposition]
    by_cases empty : sql = ""
    · rw [if_pos empty]
      exact empty
    · rw [if_neg empty]
      have atomic : q.Atomic sql := structured.resolve_left empty
      exact (Derives.atom atomic).disjunct
  | .all parts => exact expresses_combine_and (renderAll_expresses parts b structured)
  | .any parts => exact expresses_combine_or (renderAll_expresses parts b structured)
  | .columns pairs => exact expresses_and ((renderColumns_expresses pairs b structured).imp fun _ _ h => h.primary)
  | .oneOf column values negated =>
    obtain ⟨dotted, vs, rfl⟩ := structured
    have each := isValue_listValues vs b
    simp only [proposition, render, renderEntries_values]
    cases vs with
    | nil =>
      cases negated
      · exact (Derives.atom falsehood_atomic).disjunct
      · rfl
    | cons v rest => exact (derives_membership d dotted each (.inl (by simp [listValues]))).disjunct
  | .existence inner negated => exact expresses_existence (render_expresses inner b structured) negated
  | .negation inner => exact expresses_negation (render_expresses inner b structured)
  | .enclosed inner => exact expresses_enclose (render_expresses inner b structured)
  | .chainValues _ => exact structured.elim
  | .chainRow _ _ => exact structured.elim

theorem renderAll_expresses (cs : List Condition) (b : Bindings) (structured : StructuredAll q cs) :
    List.Forall₂ (Derives q .disjunction) ((renderAll d cs b).1.filter (· ≠ "")) (propositions d cs b) := by
  match cs with
  | [] => exact .nil
  | c :: rest =>
    have first := render_expresses c b structured.1
    have others := renderAll_expresses rest (c.render d b).2 structured.2
    simp only [renderAll, propositions]
    cases stated : c.proposition d b with
    | none =>
      rw [stated] at first
      have nothing : (c.render d b).1 = "" := first
      simpa [nothing] using others
    | some f =>
      rw [stated] at first
      have shown : (c.render d b).1 ≠ "" := Derives.ne_empty first
      rw [List.filter_cons_of_pos (by simpa using shown)]
      exact .cons first others

theorem renderColumns_expresses (pairs : List (String × EntryOf Condition)) (b : Bindings)
    (structured : StructuredColumns q pairs) :
    List.Forall₂ (Derives q .primary) (renderColumns d pairs b).1 (columnPropositions d pairs b) := by
  match pairs with
  | [] => exact .nil
  | (column, .value v) :: rest =>
    exact .cons (derives_columnValue d structured.1 v b) (renderColumns_expresses rest _ structured.2)
  | (_, .condition c) :: rest =>
    have first := render_expresses c b structured.1
    have others := renderColumns_expresses rest (c.render d b).2 structured.2
    simp only [renderColumns, columnPropositions]
    cases stated : c.proposition d b with
    | none =>
      rw [stated] at first
      have nothing : (c.render d b).1 = "" := first
      rw [if_pos nothing]
      exact others
    | some f =>
      rw [stated] at first
      rw [if_neg (Derives.ne_empty first)]
      exact .cons first.parentheses others

end

/-- The text is empty exactly for a condition that says nothing. Any other text is read as what the condition says, and as
nothing else if no fragment is in parentheses as a whole. -/
theorem render_structure (d : Dialect) {c : Condition} (structured : c.Structured q) (b : Bindings) :
    ((c.render d b).1 = "" ↔ c.proposition d b = none) ∧
      ∀ f, c.proposition d b = some f → Derives q .disjunction (c.render d b).1 f ∧
        (f.Open → ∀ g : Proposition, g.Open → Derives q .disjunction (c.render d b).1 g → g = f) := by
  have expressed := render_expresses d c b structured
  refine ⟨expressed.eq_empty_iff, ?_⟩
  intro f stated
  rw [stated] at expressed
  refine ⟨expressed, ?_⟩
  intro bare g bare' derives
  exact derives.unique expressed bare' bare

def nested : Condition :=
  let test : Condition := .columns [("t.x", .value .null), ("y", .value (.array [.int 1, .int 2]))]
  .all [.any [.text "", .text "a = 1", .negation test], .negation (.oneOf "z" [] true),
    .existence (.text "SELECT 1") true, .enclosed (.oneOf "or" [.value (.int 3), .value .null] true)]

theorem render_structure_nested :
    nested.Structured ⟨true, true, true⟩ ∧
      (nested.render .sqlite Bindings.empty).1 =
        "((a = 1) OR (NOT (\"t\".\"x\" IS NULL AND \"y\" IN (:p0, :p1)))) AND (NOT EXISTS (SELECT 1)) AND " ++
          "((\"or\" NOT IN (:p2, NULL)))" ∧
      ((nested.render .sqlite Bindings.empty).1 = "" ↔ nested.proposition .sqlite Bindings.empty = none) ∧
      ∀ f, nested.proposition .sqlite Bindings.empty = some f →
        Derives ⟨true, true, true⟩ .disjunction (nested.render .sqlite Bindings.empty).1 f ∧
          (f.Open → ∀ g : Proposition, g.Open →
            Derives ⟨true, true, true⟩ .disjunction (nested.render .sqlite Bindings.empty).1 g → g = f) := by
  have structured : nested.Structured ⟨true, true, true⟩ := by
    have choice : StructuredAll ⟨true, true, true⟩ [.text "", .text "a = 1", .negation (.columns [("t.x", .value .null),
        ("y", .value (.array [.int 1, .int 2]))])] := ⟨.inl rfl, .inr (by decide), ⟨rfl, rfl, trivial⟩, trivial⟩
    exact ⟨choice, ⟨rfl, [], rfl⟩, .inr (by decide), ⟨rfl, [.int 3, .null], rfl⟩, trivial⟩
  exact ⟨structured, by decide +kernel, render_structure .sqlite structured Bindings.empty⟩

end Condition

end RelationFilter
