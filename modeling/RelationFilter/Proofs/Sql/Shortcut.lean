import RelationFilter.Proofs.Sql.Overwrite
import RelationFilter.Proofs.Sql.Precedence
import RelationFilter.Proofs.Sql.Structure

namespace RelationFilter

namespace Sql

def listForm (d : Dialect) (column : String) (values : List String) (negated : Bool) : String :=
  d.quoteColumn column ++ (if negated then " NOT IN (" else " IN (") ++ String.intercalate ", " values ++ ")"

theorem membership_single (d : Dialect) (column value : String) (negated : Bool) :
    membership d column [value] negated = d.quoteColumn column ++ (String.ofList (comparison negated).letters ++ value) := by
  rw [← String.append_assoc]
  cases negated <;> rfl

theorem membership_several (d : Dialect) (column : String) {values : List String} (several : 2 ≤ values.length)
    (negated : Bool) : membership d column values negated = listForm d column values negated := by
  match values, several with
  | first :: second :: rest, _ => cases negated <;> rfl

section

variable {q : Quotes} {d : Dialect} {n : Nat} {negated : Bool} {ts : List (List Char)} {f l r : Expression} {cs : List Char}
  {column value : String}

theorem rank?_comparison : (comparison negated).rank? d = some 5 := by cases negated <;> rfl

theorem Expression.member_cases (negated : Bool) (left list : Expression) :
    member negated left list = .among negated left list ∨
      member negated left list = .apply (comparison negated) left list := by
  unfold member
  split <;> simp

theorem Expression.member_of_level_le (left : Expression) (tight : r.level d ≤ 8) :
    member negated left r = .apply (comparison negated) left r := by
  unfold member
  split
  · simp [level] at tight
  · simp [level, Word.rank?] at tight
  · rfl

namespace Reads

theorem rank_le_level (h : Reads q d n ts f) (bound : n ≤ 9) : ∀ t ∈ ts, ∀ k, rank? d t = some k → k ≤ f.level d :=
  h.tight.2.rank_le (Nat.le_trans h.tight.1 bound)

/-- What says that something is in a list, or equal to a value, is written with IN or as a comparison. -/
theorem of_member (h : Reads q d n ts (.member negated l r)) :
    ∃ before w after, ts = before ++ w :: after ∧ rank? d w = some 5 ∧
      (∀ t ∈ before, ∀ k, rank? d t = some k → k ≤ l.level d) ∧
      ((Word.ofLexeme? w = some (comparison negated) ∧ Reads q d 4 after r) ∨ Word.ofLexeme? w = some .isIn) := by
  generalize same : Expression.member negated l r = g at h
  have left := congrArg Expression.left? same
  rw [Expression.left?_member] at left
  cases h with
  | @apply n m op w ls rs _ _ spelled _ rank _ first last =>
    cases left
    rcases Expression.member_cases negated l r with shape | shape
    · cases shape.symm.trans same
    · cases shape.symm.trans same
      cases rank?_comparison.symm.trans rank
      exact ⟨ls, w, rs, rfl, (rank?_spelled spelled).trans rank, first.rank_le_level (by omega), .inl ⟨spelled, last⟩⟩
  | @member n negated' w inner ls front _ _ denies spelled _ first _ _ =>
    rw [Expression.left?_member] at left
    cases left
    refine ⟨ls ++ front, w, _, rfl, rank?_spelled spelled, ?_, .inr spelled⟩
    intro t member k rank
    rcases List.mem_append.mp member with inFirst | inFront
    · exact first.rank_le_level (by omega) t inFirst k rank
    · rw [rank?_of_denies denies t inFront] at rank
      cases rank
  | _ => cases left

end Reads

/-- The list of one value: the column, IN or NOT IN, and the value in parentheses. -/
theorem lexemes_listForm (negated : Bool) (named : q.Balanced (d.quoteColumn column)) (closed : q.Balanced value) :
    ∃ front w, Denies negated front ∧ Word.ofLexeme? w = some .isIn ∧
      q.lexemes (listForm d column [value] negated).toList =
        q.lexemes (d.quoteColumn column).toList ++ front ++ w :: [enclosed value.toList] := by
  have isIn : q.read .top ['I', 'N'] = some .top := Quotes.read_top (by decide)
  have nots : q.read .top ['N', 'O', 'T'] = some .top := Quotes.read_top (by decide)
  have tail : q.lexemes (['I', 'N'] ++ ' ' :: enclosed value.toList) = [['I', 'N'], enclosed value.toList] := by
    rw [Quotes.lexemes_blank isIn, Quotes.lexemes_bare (by decide), Quotes.lexemes_enclosed closed]
    rfl
  cases negated with
  | false =>
    have shape : (listForm d column [value] false).toList =
        (d.quoteColumn column).toList ++ ' ' :: (['I', 'N'] ++ ' ' :: enclosed value.toList) := by
      simp [listForm, enclosed]
    refine ⟨[], ['I', 'N'], rfl, by decide, ?_⟩
    rw [shape, Quotes.lexemes_blank named, tail, List.append_nil]
  | true =>
    have shape : (listForm d column [value] true).toList = (d.quoteColumn column).toList ++
        ' ' :: (['N', 'O', 'T'] ++ ' ' :: (['I', 'N'] ++ ' ' :: enclosed value.toList)) := by
      simp [listForm, enclosed]
    have spelled : Word.ofLexeme? ['N', 'O', 'T'] = some .not := by decide
    have word : q.lexemes ['N', 'O', 'T'] = [['N', 'O', 'T']] := Quotes.lexemes_bare (by decide)
    refine ⟨[['N', 'O', 'T']], ['I', 'N'], congrArg (fun k => [k]) spelled, by decide, ?_⟩
    rw [shape, Quotes.lexemes_blank named, Quotes.lexemes_blank nots, word, tail, List.append_assoc]

theorem bare_comparison (negated : Bool) : (comparison negated).letters.all isBare = true := by
  cases negated <;> decide

theorem exists_letters_comparison (negated : Bool) :
    ∃ c cs, (comparison negated).letters = c :: cs ∧ isBare c = true ∧ roleOf c = .sign := by
  cases negated
  · exact ⟨'=', [], rfl, by decide⟩
  · exact ⟨'<', ['>'], rfl, by decide⟩

theorem toList_membership (negated : Bool) :
    (membership d column [value] negated).toList =
      (d.quoteColumn column).toList ++ ((comparison negated).letters ++ value.toList) := by
  simp [membership_single, String.toList_append]

/-- The comparison: its operator is one lexeme, or it goes on into the value. -/
theorem lexemes_membership (negated : Bool) (named : q.SaysWithin d 4 (d.quoteColumn column) l) (value : String) :
    ∃ us, q.lexemes (membership d column [value] negated).toList = q.lexemes (d.quoteColumn column).toList ++ us ∧
      (((∀ y ∈ (q.roles .top value.toList).head?, y.2 ≠ .sign) ∧
          us = (comparison negated).letters :: q.lexemes value.toList) ∨
        ∃ y ∈ (q.roles .top value.toList).head?, y.2 = .sign ∧ ∃ w ws, w ≠ [] ∧
          us = ((comparison negated).letters ++ w) :: ws) := by
  have bare := bare_comparison negated
  have signs : (comparison negated).letters.all (fun c => roleOf c = .sign) = true := by cases negated <;> decide
  have apart : ∀ x ∈ (q.roles .top (d.quoteColumn column).toList).getLast?,
      ∀ y ∈ (q.roles .top ((comparison negated).letters ++ value.toList)).head?, x.2 = y.2 → x.2 = .blank := by
    obtain ⟨c, cs, letters, mark, sign⟩ := exists_letters_comparison negated
    intro x last y first same
    rw [letters, List.cons_append, Quotes.roles_cons_bare mark] at first
    cases first
    exact absurd (same.trans sign) (named.2.last_ne_sign (by omega) named.1 x last)
  rw [toList_membership, Quotes.lexemes_append named.1 apart]
  exact ⟨_, rfl, Quotes.lexemes_signs bare signs (by cases negated <;> decide)⟩

theorem balanced_membership_iff (negated : Bool) (named : q.Balanced (d.quoteColumn column)) :
    q.Balanced (membership d column [value] negated) ↔ q.Balanced value := by
  have before : q.read .top (d.quoteColumn column).toList = some .top := named
  rw [Quotes.Balanced, toList_membership, Quotes.read_append, before, Option.bind_some, Quotes.read_append,
    Quotes.read_top (bare_comparison negated), Option.bind_some]
  rfl

theorem balanced_listForm (negated : Bool) (named : q.Balanced (d.quoteColumn column)) (closed : q.Balanced value) :
    q.Balanced (listForm d column [value] negated) := by
  have shape : listForm d column [value] negated =
      d.quoteColumn column ++ ((if negated then " NOT IN " else " IN ") ++ ("(" ++ value ++ ")")) := by
    cases negated <;> simp [listForm, ← String.toList_inj]
  rw [shape]
  apply named.append
  cases negated
  · exact (Quotes.balanced_of_bare (by decide)).append closed.parenthesized
  · exact (Quotes.balanced_of_bare (by decide)).append closed.parenthesized

theorem ofLexeme?_comparison (negated : Bool) : Word.ofLexeme? (comparison negated).letters = some (comparison negated) := by
  cases negated <;> decide

theorem Reads.not_mem_comparison_append {more : List Char} (h : Reads q d n ts f) (bound : n ≤ 9) (longer : more ≠ []) :
    (comparison negated).letters ++ more ∉ ts := by
  intro member
  obtain ⟨c, cs, letters, mark, sign⟩ := exists_letters_comparison negated
  rcases h.mem_cases bound _ member with named | ⟨inner, same⟩ | ⟨k, spelled⟩
  · have whole := named.whole
    rw [letters, List.cons_append, Quotes.roles_cons_bare mark, sign] at whole
    cases (List.cons.inj whole).1
  · rw [letters, List.cons_append] at same
    cases (List.cons.inj same).1
    exact absurd mark (by decide)
  · have lower : (comparison negated).letters.map Char.toLower = (comparison negated).letters := by cases negated <;> decide
    have shape := Word.letters_of_ofLexeme? spelled
    rw [List.map_append, lower] at shape
    have start : (comparison negated).letters <+: k.letters := ⟨_, shape.symm⟩
    have only : ∀ k ∈ Word.all, (comparison negated).letters <+: k.letters → k = comparison negated := by
      cases negated <;> decide
    obtain rfl := only k (List.mem_of_find?_eq_some spelled) start
    have nothing := List.append_cancel_left ((List.append_nil _).trans shape)
    exact longer (List.map_eq_nil_iff.mp nothing.symm)

/-- Whatever a list of one value is read as is membership of the column. -/
theorem Quotes.Says.member_of_listForm (named : q.SaysWithin d 4 (d.quoteColumn column) l) (closed : q.Balanced value)
    (h : q.Says d (listForm d column [value] negated) f) : ∃ r, f = .member negated l r := by
  obtain ⟨front, w, denies, spelled, shape⟩ := lexemes_listForm negated named.1 closed
  have operand := named.2.loosen (m := 5) (by omega) (by omega)
  have reads := h.2
  rw [shape] at reads
  rcases reads.split_cases (.ofMember denies spelled operand _) with ⟨op, l, r, spelled', plain, -, -, -⟩ |
    ⟨negated', ls, front', inner, l, r, before, denies', -, -, left, -, rfl⟩
  · exact absurd (Option.some.inj (spelled'.symm.trans spelled)) plain
  · obtain ⟨rfl, rfl⟩ := Reads.denies_unique operand left denies denies' before
    exact ⟨r, by rw [operand.unique left]⟩

/-- What parentheses would hold may go without them just if it is an operand. -/
theorem agree_iff_selfDelimiting (named : q.SelfDelimiting d (d.quoteColumn column)) (negated : Bool) (value : String) :
    q.Agree d (membership d column [value] negated) (listForm d column [value] negated) ↔ q.SelfDelimiting d value := by
  obtain ⟨l, named⟩ := named
  obtain ⟨us, shape, tail⟩ := lexemes_membership negated named value
  have rank : rank? d (comparison negated).letters = some 5 :=
    (rank?_spelled (ofLexeme?_comparison negated)).trans rank?_comparison
  rw [Quotes.agree_iff]
  constructor
  · intro common
    obtain ⟨f, short, long⟩ := common
    have closed := (balanced_membership_iff negated named.1).mp short.1
    obtain ⟨r, rfl⟩ := long.member_of_listForm named closed
    have reads := short.2
    rw [shape] at reads
    obtain ⟨-, rfl⟩ | ⟨-, -, -, more, ws, longer, rfl⟩ := tail
    · obtain ⟨before, w, after, same, rank', below, side⟩ := reads.of_member
      -- each is the first operator that binds no more than a comparison
      have level := named.2.tight.1
      have inColumn : w ∉ q.lexemes (d.quoteColumn column).toList := by
        intro member
        have := named.2.rank_le (by omega) w member 5 rank'
        omega
      have inFront : (comparison negated).letters ∉ before := by
        intro member
        have := below _ member 5 rank
        omega
      obtain ⟨-, rfl, rfl⟩ := append_cons_unique (fun front _ => inFront front) (fun front _ => inColumn front) same
      rcases side with ⟨-, operand⟩ | isIn
      · exact ⟨r, closed, operand⟩
      · rw [ofLexeme?_comparison] at isIn
        cases negated <;> cases isIn
    · have glued : (comparison negated).letters ++ more ∉ _ := reads.not_mem_comparison_append (by omega) longer
      simp at glued
  · intro operand
    obtain ⟨r, closed, reads⟩ := operand
    obtain ⟨front, w, denies, spelled, listed⟩ := lexemes_listForm negated named.1 closed
    have tail := tail.resolve_right fun ⟨y, first, sign, _⟩ => reads.head_ne_sign y first sign
    have left := named.2.loosen (m := 5) (by omega) (by omega)
    refine ⟨.member negated l r, ⟨?_, ?_⟩, ⟨?_, ?_⟩⟩
    · exact (balanced_membership_iff negated named.1).mpr closed
    · rw [shape, tail.2, Expression.member_of_level_le l (Nat.le_trans reads.tight.1 (by omega))]
      have plain : comparison negated ≠ .isIn := by cases negated <;> decide
      exact .apply (ofLexeme?_comparison negated) plain rank?_comparison (by omega) left reads
    · exact balanced_listForm negated named.1 closed
    · rw [listed]
      exact .member denies spelled (by omega) left closed (reads.loosen (by omega) (by omega))

theorem all_part_of_isWord (word : cs.all Text.isWord = true) : cs.all (fun c => roleOf c = .part) = true := by
  rw [List.all_eq_true] at word ⊢
  intro c member
  have part : roleOf c = .part := by simp [roleOf, Text.isBlank_of_isWord (word c member), isNamePart, word c member]
  exact decide_eq_true part

theorem isOperand_bare (bare : cs.all isBare = true) (parts : cs.all (fun c => roleOf c = .part) = true)
    (ne_nil : cs ≠ []) (free : Word.ofLexeme? cs = none) : q.IsOperand cs := by
  refine ⟨ne_nil, Quotes.read_top bare, Quotes.roles_run bare parts, ?_, free⟩
  intro first
  have left := List.all_eq_true.mp bare '(' (List.mem_of_head? first)
  exact absurd left (by decide)

theorem IsValue.isOperand {value : String} (h : IsValue value) : q.IsOperand value.toList := by
  cases h with
  | null => exact isOperand_bare (by decide) (by decide) (by decide) (by decide)
  | slot n =>
    have word := all_isWord_slot n
    have shape : (":" ++ Bindings.slot n).toList = ':' :: (Bindings.slot n).toList := by simp
    rw [shape]
    apply isOperand_bare
    · rw [List.all_cons, all_isBare_of_isWord word]
      rfl
    · rw [List.all_cons, all_part_of_isWord word]
      rfl
    · exact List.cons_ne_nil _ _
    · exact Word.ofLexeme?_of_mem (c := ':') List.mem_cons_self (by decide)

theorem roles_wrap (d : Dialect) {name : List Char} (word : name.all Text.isWord = true) :
    q.roles .top (d.wrap name) = (d.wrap name).map fun c => (c, .part) := by
  have bare := all_isBare_of_isWord word
  rw [Dialect.wrap, List.cons_append]
  by_cases opening : q.opens d.quoteMark = true
  · have opened : q.next .top d.quoteMark = some ⟨some d.quoteMark, 0⟩ := Quotes.next_opening opening 0
    have outside : ∀ m, (some d.quoteMark : Option Char) = some m → isQuoteMark m = true := by
      intro m same
      rw [← Option.some.inj same]
      exact Quotes.isQuoteMark_quoteMark d
    have inside : q.read ⟨some d.quoteMark, 0⟩ name = some ⟨some d.quoteMark, 0⟩ := Quotes.read_bare bare outside
    have below : (⟨some d.quoteMark, 0⟩ : Place) ≠ .top := by simp [Place.top]
    simp only [Quotes.roles, opened, below, and_false, if_false, Quotes.roles_append inside,
      Quotes.roles_hidden bare outside below, Quotes.next_inside, false_and, if_true, List.map_cons, List.map_append,
      List.map_nil]
  · have other : isParenthesis d.quoteMark = false := by cases d <;> decide
    have stays : q.next .top d.quoteMark = some .top := Quotes.next_plain (by simpa using opening) other 0
    have mark : roleOf d.quoteMark = .part := by cases d <;> decide
    simp only [Quotes.roles, stays, and_self, if_true, Quotes.roles_append (Quotes.read_top bare),
      Quotes.roles_run bare (all_part_of_isWord word), mark, List.map_cons, List.map_append, List.map_nil]

theorem isOperand_wrap (d : Dialect) {name : List Char} (word : name.all Text.isWord = true) : q.IsOperand (d.wrap name) := by
  refine ⟨List.cons_ne_nil _ _, Quotes.read_wrap d (all_isBare_of_isWord word), roles_wrap d word, ?_, ?_⟩
  · cases d <;> simp [Dialect.wrap, Dialect.quoteMark]
  · apply Word.ofLexeme?_of_mem (c := d.quoteMark)
    · simp [Dialect.wrap]
    · cases d <;> decide

theorem Quotes.IsOperand.joined {left right : List Char} (h : q.IsOperand left) (h' : q.IsOperand right) :
    q.IsOperand (left ++ '.' :: right) := by
  have dot : isBare '.' = true := by decide
  have stays : q.next .top '.' = some .top := next_bare dot (by simp [Place.top])
  refine ⟨?_, ?_, ?_, ?_, ?_⟩
  · simp
  · rw [read_append, h.closed, Option.bind_some, read, stays, Option.bind_some, h'.closed]
  · have part : roleOf '.' = .part := by decide
    rw [roles_append h.closed, roles_cons_bare dot, h.whole, h'.whole, part, List.map_append, List.map_cons]
  · obtain ⟨c, cs, rfl⟩ := List.exists_cons_of_ne_nil h.ne_nil
    exact h.bare
  · exact Word.ofLexeme?_of_mem (c := '.') (by simp) (by decide)

theorem Quotes.IsOperand.selfDelimiting {text : String} (h : q.IsOperand text.toList) : q.SelfDelimiting d text :=
  ⟨.operand text.toList, h.closed, by rw [h.lexemes]; exact .operand h⟩

theorem selfDelimiting_quoteColumn (d : Dialect) (dotted : Dotted column) :
    q.SelfDelimiting d (d.quoteColumn column) := by
  have quotable : d.Quotable q.IsOperand column.toList :=
    quotable_of_dotted d dotted (fun part word => isOperand_wrap d word) fun left right h h' => h.joined h'
  have named : q.IsOperand (d.quoteColumn column).toList := by
    rw [Dialect.quoteColumn, String.toList_ofList]
    exact quotable.columnChars
  exact named.selfDelimiting

theorem selfDelimiting_parenthesized {text : String} (closed : q.Balanced text)
    (content : Reads q d 10 (q.lexemes text.toList) f) : q.SelfDelimiting d ("(" ++ text ++ ")") := by
  have shape : ("(" ++ text ++ ")").toList = enclosed text.toList := by simp [enclosed]
  refine ⟨.group f, closed.parenthesized, ?_⟩
  rw [shape, Quotes.lexemes_enclosed closed]
  exact .group closed content

/-- An operator that binds no more than a comparison keeps a text from being an operand. -/
theorem not_selfDelimiting {text : String} {w : List Char} {m : Nat} (there : w ∈ q.lexemes text.toList)
    (rank : rank? d w = some m) (loose : 5 ≤ m) : ¬ q.SelfDelimiting d text := by
  intro operand
  obtain ⟨f, -, reads⟩ := operand
  have := reads.rank_le (by omega) w there m rank
  omega

end

end Sql

namespace Condition

open Sql

variable (d : Dialect)

/-- Whether a condition is rendered to nothing does not depend on what is bound. -/
theorem render_eq_empty_iff (c : Condition) (b : Bindings) : (c.render d b).1 = "" ↔ (c.toStatement d).sql = "" := by
  obtain ⟨_, filled, -⟩ := c.render_overwrites d b
  obtain ⟨_, alone, -⟩ := c.render_overwrites d Bindings.empty
  rw [filled.eq_empty_iff, toStatement, alone.eq_empty_iff]

theorem length_renderEntries (values : List Entry) (b : Bindings) : (renderEntries d values b).1.length = values.length := by
  induction values generalizing b with
  | nil => rfl
  | cons entry rest ih => cases entry <;> simp [renderEntries, ih]

theorem empty_mem_renderEntries_iff (values : List Entry) (b : Bindings) :
    "" ∈ (renderEntries d values b).1 ↔ ∃ c, .condition c ∈ values ∧ (c.toStatement d).sql = "" := by
  induction values generalizing b with
  | nil => simp [renderEntries]
  | cons entry rest ih =>
    cases entry with
    | value v =>
      have shown : "" ≠ (listValue v b).1 := by
        intro same
        have operand : (⟨true, true, true⟩ : Quotes).IsOperand (listValue v b).1.toList := (isValue_listValue v b).isOperand
        rw [← same] at operand
        exact operand.ne_nil rfl
      simp [renderEntries, ih, shown]
    | condition c =>
      simp only [renderEntries, List.mem_cons, ih, EntryOf.condition.injEq, or_and_right, exists_or,
        exists_eq_left, eq_comm (a := ""), render_eq_empty_iff]

/-- The comparison that stands for a list of one value says what the list does for every plain value, and for a condition
just if that is written as an operand. The elements of a list are empty where a condition among the values says nothing. -/
theorem oneOf_agrees_iff {q : Quotes} {column : String} (named : q.SelfDelimiting d (d.quoteColumn column))
    (negated : Bool) (b : Bindings) :
    (∀ v : Json, q.SelfDelimiting d (listValue v b).1 ∧
      q.Agree d ((oneOf column [.value v] negated).render d b).1 (listForm d column [(listValue v b).1] negated)) ∧
    (∀ c : Condition,
      q.Agree d ((oneOf column [.condition c] negated).render d b).1 (listForm d column [(c.render d b).1] negated) ↔
        q.SelfDelimiting d (c.render d b).1) ∧
    ∀ values : List Entry,
      (2 ≤ values.length →
        ((oneOf column values negated).render d b).1 = listForm d column (renderEntries d values b).1 negated) ∧
      ("" ∈ (renderEntries d values b).1 ↔ ∃ c, .condition c ∈ values ∧ (c.toStatement d).sql = "") := by
  refine ⟨?_, ?_, ?_⟩
  · intro v
    have delimited : q.SelfDelimiting d (listValue v b).1 := (isValue_listValue v b).isOperand.selfDelimiting
    refine ⟨delimited, ?_⟩
    simp only [render, renderEntries]
    exact (agree_iff_selfDelimiting named negated _).mpr delimited
  · intro c
    simp only [render, renderEntries]
    exact agree_iff_selfDelimiting named negated _
  · intro values
    refine ⟨?_, empty_mem_renderEntries_iff d values b⟩
    intro several
    rw [← length_renderEntries d values b] at several
    simp only [render]
    exact membership_several d column several negated

def eitherTest : Condition := .text "a = 1 OR b = 2"

def sqlQuotes : Quotes := ⟨true, true, true⟩

theorem lexemes_eitherTest :
    sqlQuotes.lexemes "a = 1 OR b = 2".toList = [['a'], ['='], ['1'], ['O', 'R'], ['b'], ['='], ['2']] := by
  decide +kernel

theorem reads_eitherTest :
    Reads sqlQuotes .mysql 10 (sqlQuotes.lexemes "a = 1 OR b = 2".toList)
      (.apply .or (.apply .equal (.operand ['a']) (.operand ['1'])) (.apply .equal (.operand ['b']) (.operand ['2']))) := by
  have test (x y : Char) (left : sqlQuotes.IsOperand [x]) (right : sqlQuotes.IsOperand [y]) :
      Reads sqlQuotes .mysql 5 ([[x]] ++ ['='] :: [[y]]) (.apply .equal (.operand [x]) (.operand [y])) :=
    .apply (by decide) (by decide) rfl (by omega) (.operand left) (.operand right)
  have first := (test 'a' '1' (by decide) (by decide)).loosen (m := 8) (by omega) (by omega)
  have second := (test 'b' '2' (by decide) (by decide)).loosen (m := 7) (by omega) (by omega)
  have spelled : Word.ofLexeme? ['O', 'R'] = some .or := by decide
  rw [lexemes_eitherTest]
  exact .apply spelled (by decide) rfl (by omega) first second

theorem oneOf_agrees_iff_enclosed :
    sqlQuotes.SelfDelimiting .mysql (Dialect.mysql.quoteColumn "t.id") ∧
      ((oneOf "t.id" [.condition eitherTest.enclosed] true).render .mysql Bindings.empty).1 =
        "`t`.`id`<>(a = 1 OR b = 2)" ∧
      sqlQuotes.Agree .mysql ((oneOf "t.id" [.condition eitherTest.enclosed] true).render .mysql Bindings.empty).1
        (listForm .mysql "t.id" [(eitherTest.enclosed.render .mysql Bindings.empty).1] true) := by
  have dotted : Dotted "t.id" := by
    unfold Dotted
    decide
  have named : sqlQuotes.SelfDelimiting .mysql (Dialect.mysql.quoteColumn "t.id") := selfDelimiting_quoteColumn .mysql dotted
  have text : (eitherTest.enclosed.render .mysql Bindings.empty).1 = "(" ++ "a = 1 OR b = 2" ++ ")" := by decide +kernel
  refine ⟨named, by decide +kernel, ?_⟩
  apply ((oneOf_agrees_iff .mysql named true Bindings.empty).2.1 eitherTest.enclosed).mpr
  rw [text]
  exact selfDelimiting_parenthesized (by decide +kernel) reads_eitherTest

/-- The OR is read outside the comparison, and inside the list. -/
theorem oneOf_not_agrees_either :
    ((oneOf "id" [.condition eitherTest] false).render .mysql Bindings.empty).1 = "`id`=a = 1 OR b = 2" ∧
      ¬ sqlQuotes.Agree .mysql ((oneOf "id" [.condition eitherTest] false).render .mysql Bindings.empty).1
        (listForm .mysql "id" [(eitherTest.render .mysql Bindings.empty).1] false) ∧
      ((oneOf "id" [.value (.string "x"), .condition (.text "")] false).render .mysql Bindings.empty).1 =
        "`id` IN (:p0, )" := by
  have dotted : Dotted "id" := by
    unfold Dotted
    decide
  have named : sqlQuotes.SelfDelimiting .mysql (Dialect.mysql.quoteColumn "id") := selfDelimiting_quoteColumn .mysql dotted
  have short : ((oneOf "id" [.condition eitherTest] false).render .mysql Bindings.empty).1 =
      membership .mysql "id" ["a = 1 OR b = 2"] false := rfl
  have value : (eitherTest.render .mysql Bindings.empty).1 = "a = 1 OR b = 2" := rfl
  have inside : ['O', 'R'] ∈ sqlQuotes.lexemes "a = 1 OR b = 2".toList := by
    rw [lexemes_eitherTest]
    decide
  refine ⟨by decide +kernel, ?_, by decide +kernel⟩
  rw [short, value, agree_iff_selfDelimiting named]
  exact not_selfDelimiting (m := 8) inside (by decide) (by omega)

end Condition

end RelationFilter
