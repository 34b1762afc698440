import RelationFilter.Proofs.Sql.Lexis

namespace RelationFilter.Sql

inductive Proposition where
  | atom (text : String)
  | existence (inner : Proposition)
  | not (inner : Proposition)
  | and (left right : Proposition)
  | or (left right : Proposition)

def Proposition.atoms : Proposition → List String
  | atom text => [text]
  | existence inner => inner.atoms
  | not inner => inner.atoms
  | and left right => left.atoms ++ right.atoms
  | or left right => left.atoms ++ right.atoms

inductive Keyword where
  | and
  | or
  | not
deriving DecidableEq

def Keyword.letters : Keyword → List Char
  | and => ['a', 'n', 'd']
  | or => ['o', 'r']
  | not => ['n', 'o', 't']

namespace Quotes

variable (q : Quotes)

def Silent (k : Keyword) (text : String) : Prop := ∀ w ∈ q.words text.toList, w.map Char.toLower ≠ k.letters

instance (k : Keyword) (text : String) : Decidable (q.Silent k text) := inferInstanceAs (Decidable (∀ _ ∈ _, _))

structure Quiet (text : String) : Prop where
  balanced : q.Balanced text
  silent : ∀ k, q.Silent k text

structure Atomic (text : String) : Prop extends Quotes.Quiet q text where
  visible : Text.allBlank text = false

instance (text : String) : Decidable (q.Atomic text) :=
  decidable_of_iff (q.Balanced text ∧ (q.Silent .and text ∧ q.Silent .or text ∧ q.Silent .not text) ∧
      Text.allBlank text = false)
    ⟨fun ⟨balanced, ⟨notAnd, notOr, notNot⟩, visible⟩ =>
        ⟨⟨balanced, fun | .and => notAnd | .or => notOr | .not => notNot⟩, visible⟩,
      fun h => ⟨h.balanced, ⟨h.silent _, h.silent _, h.silent _⟩, h.visible⟩⟩

end Quotes

inductive Level where
  | primary
  | negation
  | conjunction
  | disjunction

def Level.hides : Level → Keyword → Bool
  | primary, k => k ≠ .not
  | negation, k => k ≠ .not
  | conjunction, k => k = .or
  | disjunction, _ => false

/-- The text has a reading at the level. -/
inductive Derives (q : Quotes) : Level → String → Proposition → Prop
  | atom {text : String} (atomic : q.Atomic text) : Derives q .primary text (.atom text)
  | notIn {column list : String} (atomic : q.Atomic column) (closed : q.Balanced list) :
    Derives q .primary (column ++ " NOT IN (" ++ list ++ ")") (.atom (column ++ " NOT IN (" ++ list ++ ")"))
  | parentheses {text : String} {f : Proposition} (inner : Derives q .disjunction text f) :
    Derives q .primary ("(" ++ text ++ ")") f
  | existence {text : String} {f : Proposition} (inner : Derives q .disjunction text f) :
    Derives q .primary ("EXISTS (" ++ text ++ ")") (.existence f)
  | primary {text : String} {f : Proposition} (operand : Derives q .primary text f) : Derives q .negation text f
  | not {text : String} {f : Proposition} (operand : Derives q .negation text f) :
    Derives q .negation ("NOT " ++ text) (.not f)
  | negation {text : String} {f : Proposition} (operand : Derives q .negation text f) : Derives q .conjunction text f
  | and {left right : String} {f g : Proposition} (first : Derives q .negation left f)
    (rest : Derives q .conjunction right g) : Derives q .conjunction (left ++ " AND " ++ right) (.and f g)
  | conjunction {text : String} {f : Proposition} (operand : Derives q .conjunction text f) :
    Derives q .disjunction text f
  | or {left right : String} {f g : Proposition} (first : Derives q .conjunction left f)
    (rest : Derives q .disjunction right g) : Derives q .disjunction (left ++ " OR " ++ right) (.or f g)

section

variable {q : Quotes}

theorem words_of_isWord {cs : List Char} (word : cs.all Text.isWord = true) : q.words cs = [cs] := by
  rw [Quotes.words, Quotes.surface_bare (all_isBare_of_isWord word)]
  apply List.splitOnP_eq_singleton
  intro c member
  simp [isNamePart, List.all_eq_true.mp word c member]

theorem words_spaced {text : String} (closed : q.Balanced text) (more : String) :
    q.words (text ++ (" " ++ more)).toList = q.words text.toList ++ q.words more.toList := by
  have shape : (text ++ (" " ++ more)).toList = text.toList ++ ' ' :: more.toList := by simp
  rw [shape]
  exact Quotes.words_append closed (by decide)

theorem balanced_word {word : String} (isWord : word.toList.all Text.isWord = true) : q.Balanced word :=
  Quotes.balanced_of_bare (all_isBare_of_isWord isWord)

theorem words_headed {word : String} (isWord : word.toList.all Text.isWord = true) (more : String) :
    q.words (word ++ (" " ++ more)).toList = word.toList :: q.words more.toList := by
  rw [words_spaced (balanced_word isWord), words_of_isWord isWord, List.singleton_append]

theorem words_between (sep word : String) (blanks : sep = " " ++ word ++ " ")
    (isWord : word.toList.all Text.isWord = true) {text : String} (closed : q.Balanced text) (more : String) :
    q.words (text ++ sep ++ more).toList = q.words text.toList ++ word.toList :: q.words more.toList := by
  have shape : text ++ sep ++ more = text ++ (" " ++ (word ++ (" " ++ more))) := by
    rw [blanks]
    simp only [String.append_assoc]
  rw [shape, words_spaced closed, words_headed isWord]

theorem words_parenthesized {text : String} (closed : q.Balanced text) {w : List Char}
    (member : w ∈ q.words ("(" ++ text ++ ")").toList) : w = [] :=
  Quotes.words_of_blank closed.read_parenthesized.2 member

theorem Quotes.Balanced.spaced {text more : String} (h : q.Balanced text) (h' : q.Balanced more) :
    q.Balanced (text ++ (" " ++ more)) := h.append ((Quotes.balanced_of_bare (by decide)).append h')

theorem exists_shape (text : String) : "EXISTS (" ++ text ++ ")" = "EXISTS" ++ (" " ++ ("(" ++ text ++ ")")) := by
  have parts : "EXISTS (" = "EXISTS" ++ (" " ++ "(") := rfl
  simp only [parts, String.append_assoc]

theorem not_shape (text : String) : "NOT " ++ text = "NOT" ++ (" " ++ text) := by
  have parts : "NOT " = "NOT" ++ " " := rfl
  rw [parts, String.append_assoc]

theorem notIn_shape (column list : String) :
    column ++ " NOT IN (" ++ list ++ ")" = column ++ " NOT " ++ ("IN" ++ (" " ++ ("(" ++ list ++ ")"))) := by
  have parts : " NOT IN (" = " NOT " ++ ("IN" ++ (" " ++ "(")) := rfl
  simp only [parts, String.append_assoc]

namespace Derives

variable {level : Level} {text : String} {f g : Proposition}

theorem balanced (h : Derives q level text f) : q.Balanced text := by
  have between {left op right : String} (bare : op.toList.all isBare = true) (closed : q.Balanced left)
      (closed' : q.Balanced right) : q.Balanced (left ++ op ++ right) :=
    (closed.append (Quotes.balanced_of_bare bare)).append closed'
  induction h with
  | atom atomic => exact atomic.balanced
  | notIn atomic closed =>
    rw [notIn_shape]
    exact between (by decide) atomic.balanced ((balanced_word (by decide)).spaced closed.parenthesized)
  | parentheses _ ih => exact ih.parenthesized
  | existence _ ih =>
    rw [exists_shape]
    exact (balanced_word (by decide)).spaced ih.parenthesized
  | primary _ ih => exact ih
  | not _ ih => exact (Quotes.balanced_of_bare (by decide)).append ih
  | negation _ ih => exact ih
  | and _ _ ihl ihr => exact between (by decide) ihl ihr
  | conjunction _ ih => exact ih
  | or _ _ ihl ihr => exact between (by decide) ihl ihr

/-- The keywords on the surface of a text are those of its level. -/
theorem silent (h : Derives q level text f) {k : Keyword} (hides : level.hides k = true) : q.Silent k text := by
  have empty : ([] : List Char).map Char.toLower ≠ k.letters := by cases k <;> decide
  induction h with
  | atom atomic => exact atomic.silent k
  | @notIn column list atomic closed =>
    intro w member
    rw [notIn_shape, words_between " NOT " "NOT" rfl (by decide) atomic.balanced, words_headed (by decide)] at member
    simp only [List.mem_append, List.mem_cons] at member
    rcases member with inColumn | rfl | rfl | hidden
    · exact atomic.silent k w inColumn
    · cases k with
      | and => decide
      | or => decide
      | not => cases hides
    · cases k <;> decide
    · rw [words_parenthesized closed hidden]
      exact empty
  | parentheses inner _ =>
    intro w member
    rw [words_parenthesized inner.balanced member]
    exact empty
  | existence inner _ =>
    intro w member
    rw [exists_shape, words_headed (by decide)] at member
    rcases List.mem_cons.mp member with rfl | hidden
    · cases k <;> decide
    · rw [words_parenthesized inner.balanced hidden]
      exact empty
  | primary _ ih => exact ih hides
  | @not text _ _ ih =>
    intro w member
    rw [not_shape, words_headed (by decide)] at member
    rcases List.mem_cons.mp member with rfl | later
    · cases k with
      | and => decide
      | or => decide
      | not => cases hides
    · exact ih hides w later
  | negation _ ih =>
    rw [of_decide_eq_true hides] at ih ⊢
    exact ih rfl
  | @and left right _ _ first _ ihl ihr =>
    have disjunct := of_decide_eq_true hides
    subst disjunct
    intro w member
    rw [words_between " AND " "AND" rfl (by decide) first.balanced] at member
    rcases List.mem_append.mp member with inLeft | later
    · exact ihl rfl w inLeft
    · rcases List.mem_cons.mp later with rfl | inRight
      · decide
      · exact ihr rfl w inRight
  | conjunction _ _ => cases hides
  | or _ _ _ _ => cases hides

theorem visible (h : Derives q level text f) : Text.allBlank text = false := by
  have joined {left right : String} (shown : Text.allBlank left = false) : Text.allBlank (left ++ right) = false := by
    unfold Text.allBlank at shown ⊢
    rw [String.toList_append, List.all_append, shown, Bool.false_and]
  induction h with
  | atom atomic => exact atomic.visible
  | notIn atomic _ => exact joined (joined (joined atomic.visible))
  | parentheses _ _ => exact joined (joined (by decide))
  | existence _ _ => exact joined (joined (by decide))
  | primary _ ih => exact ih
  | not _ _ => exact joined (by decide)
  | negation _ ih => exact ih
  | and _ _ ihl _ => exact joined (joined ihl)
  | conjunction _ ih => exact ih
  | or _ _ ihl _ => exact joined (joined ihl)

theorem ne_empty (h : Derives q level text f) : text ≠ "" := by
  rintro rfl
  exact absurd h.visible (by decide)

end Derives

/-- A text that goes on beyond the first place of the word has the word on its surface. -/
theorem eq_nil_of_split {word left more right right' : List Char} (isWord : word.all Text.isWord = true)
    (closed : q.read .top left = some .top) (absent : word ∉ q.words (left ++ more))
    (same : ' ' :: (word ++ ' ' :: right) = more ++ ' ' :: (word ++ ' ' :: right')) : more = [] := by
  cases more with
  | nil => rfl
  | cons c more =>
    obtain ⟨rfl, later⟩ := List.cons.inj same
    have split (tail : List Char) (start : tail = [] ∨ ∃ rest, tail = ' ' :: rest) (shape : more = word ++ tail) :
        word ∈ q.words (left ++ ' ' :: more) := by
      rw [Quotes.words_append closed (by decide), shape]
      apply List.mem_append_right
      rcases start with rfl | ⟨rest, rfl⟩
      · rw [List.append_nil, words_of_isWord isWord]
        exact List.mem_singleton_self _
      · have read := Quotes.read_top (q := q) (all_isBare_of_isWord isWord)
        rw [Quotes.words_append read (by decide), words_of_isWord isWord]
        exact List.mem_append_left _ (List.mem_singleton_self _)
    rcases List.append_eq_append_iff.mp later with ⟨tail, shape, rest⟩ | ⟨tail, shape, rest⟩
    · cases tail with
      | nil => exact absurd (split [] (.inl rfl) shape) absent
      | cons b tail =>
        obtain ⟨rfl, -⟩ := List.cons.inj rest
        exact absurd (split _ (.inr ⟨tail, rfl⟩) shape) absent
    · cases tail with
      | nil => exact absurd (split [] (.inl rfl) (by simpa using shape.symm)) absent
      | cons b tail =>
        obtain ⟨rfl, -⟩ := List.cons.inj rest
        have inWord : ' ' ∈ word := by simp [shape]
        exact absurd (List.all_eq_true.mp isWord _ inWord) (by decide)

theorem split_unique (sep word : String) (blanks : sep = " " ++ word ++ " ")
    (isWord : word.toList.all Text.isWord = true) {left right left' right' : String} (closed : q.Balanced left)
    (closed' : q.Balanced left') (absent : word.toList ∉ q.words left.toList)
    (absent' : word.toList ∉ q.words left'.toList) (same : left ++ sep ++ right = left' ++ sep ++ right') :
    left = left' ∧ right = right' := by
  have lists := congrArg String.toList same
  simp only [blanks, String.toList_append, List.append_assoc] at lists
  have blank : " ".toList = [' '] := rfl
  simp only [blank, List.singleton_append] at lists
  have prefixes : left.toList = left'.toList := by
    rcases List.append_eq_append_iff.mp lists with ⟨more, longer, rest⟩ | ⟨more, longer, rest⟩
    · rw [longer] at absent'
      rw [longer, eq_nil_of_split isWord closed absent' rest, List.append_nil]
    · rw [longer] at absent
      rw [longer, eq_nil_of_split isWord closed' absent rest, List.append_nil]
  rw [prefixes, List.append_cancel_left_eq] at lists
  obtain ⟨-, rest⟩ := List.cons.inj lists
  rw [List.append_cancel_left_eq] at rest
  exact ⟨String.toList_inj.mp prefixes, String.toList_inj.mp (List.cons.inj rest).2⟩

def Enclosed (text : String) : Prop := ∃ inner, text = "(" ++ inner ++ ")" ∨ text = "EXISTS (" ++ inner ++ ")"

/-- No atom is in parentheses as a whole. -/
def Proposition.Open (f : Proposition) : Prop := ∀ a ∈ f.atoms, ¬ Enclosed a

namespace Derives

variable {text : String} {f g : Proposition}

theorem disjunction_cases (h : Derives q .disjunction text g) :
    Derives q .conjunction text g ∨ ∃ left right l r, text = left ++ " OR " ++ right ∧ g = .or l r ∧
      Derives q .conjunction left l ∧ Derives q .disjunction right r := by
  cases h with
  | conjunction operand => exact .inl operand
  | or first rest => exact .inr ⟨_, _, _, _, rfl, rfl, first, rest⟩

theorem conjunction_cases (h : Derives q .conjunction text g) :
    Derives q .negation text g ∨ ∃ left right l r, text = left ++ " AND " ++ right ∧ g = .and l r ∧
      Derives q .negation left l ∧ Derives q .conjunction right r := by
  cases h with
  | negation operand => exact .inl operand
  | and first rest => exact .inr ⟨_, _, _, _, rfl, rfl, first, rest⟩

theorem negation_cases (h : Derives q .negation text g) :
    Derives q .primary text g ∨ ∃ inner i, text = "NOT " ++ inner ∧ g = .not i ∧ Derives q .negation inner i := by
  cases h with
  | primary operand => exact .inl operand
  | not operand => exact .inr ⟨_, _, rfl, rfl, operand⟩

theorem primary_cases (h : Derives q .primary text g) :
    g = .atom text ∨ (∃ inner, text = "(" ++ inner ++ ")" ∧ Derives q .disjunction inner g) ∨
      ∃ inner i, text = "EXISTS (" ++ inner ++ ")" ∧ g = .existence i ∧ Derives q .disjunction inner i := by
  cases h with
  | atom _ => exact .inl rfl
  | notIn _ _ => exact .inl rfl
  | parentheses inner => exact .inr (.inl ⟨_, rfl, inner⟩)
  | existence inner => exact .inr (.inr ⟨_, _, rfl, rfl, inner⟩)

/-- A text whose level hides the keyword is not split by it. -/
theorem ne_operator {level : Level} {k : Keyword} (h : Derives q level text f) (hides : level.hides k = true)
    (sep word : String) (blanks : sep = " " ++ word ++ " ") (isWord : word.toList.all Text.isWord = true)
    (spelled : word.toList.map Char.toLower = k.letters) {left : String} (closed : q.Balanced left) (right : String) :
    text ≠ left ++ sep ++ right := by
  rintro rfl
  apply h.silent hides word.toList _ spelled
  rw [words_between sep word blanks isWord closed]
  exact List.mem_append_right _ List.mem_cons_self

theorem ne_and (h : Derives q .negation text f) {left : String} (closed : q.Balanced left) (right : String) :
    text ≠ left ++ " AND " ++ right :=
  h.ne_operator (k := .and) rfl " AND " "AND" rfl (by decide) rfl closed right

theorem ne_or (h : Derives q .conjunction text f) {left : String} (closed : q.Balanced left) (right : String) :
    text ≠ left ++ " OR " ++ right :=
  h.ne_operator (k := .or) rfl " OR " "OR" rfl (by decide) rfl closed right

/-- A text without an operator does not begin with NOT, for its first word is not NOT. -/
theorem ne_not (h : Derives q .primary text f) (inner : String) : text ≠ "NOT " ++ inner := by
  have headed : q.words ("NOT " ++ inner).toList = "NOT".toList :: q.words inner.toList := by
    rw [not_shape, words_headed (by decide)]
  intro same
  cases h with
  | atom atomic =>
    apply atomic.silent .not "NOT".toList _ (by decide)
    rw [same, headed]
    exact List.mem_cons_self
  | @notIn column list atomic _ =>
    have words := congrArg (fun t => q.words t.toList) same
    simp only [headed, notIn_shape, words_between " NOT " "NOT" rfl (by decide) atomic.balanced] at words
    cases first : q.words column.toList with
    | nil => exact List.splitOnP_ne_nil _ _ first
    | cons w ws =>
      rw [first, List.cons_append] at words
      apply atomic.silent .not w _ (by rw [(List.cons.inj words).1]; decide)
      rw [first]
      exact List.mem_cons_self
  | parentheses _ =>
    have heads := congrArg (fun t => t.toList.head?) same
    simp at heads
  | existence _ =>
    have heads := congrArg (fun t => t.toList.head?) same
    simp at heads

theorem unique {level : Level} (h : Derives q level text f) (h' : Derives q level text g) (bare : f.Open)
    (bare' : g.Open) : f = g := by
  have inside {before left right : String} (same : before ++ left ++ ")" = before ++ right ++ ")") : left = right := by
    have lists := congrArg String.toList same
    simp only [String.toList_append, List.append_cancel_right_eq, List.append_cancel_left_eq] at lists
    exact String.toList_inj.mp lists
  have apart (left right : String) : "(" ++ left ++ ")" ≠ "EXISTS (" ++ right ++ ")" := by
    intro same
    have heads := congrArg (fun t => t.toList.head?) same
    simp at heads
  induction h generalizing g with
  | atom _ =>
    rcases h'.primary_cases with rfl | ⟨inner, shape, _⟩ | ⟨inner, _, shape, _⟩
    · rfl
    · exact absurd ⟨inner, .inl shape⟩ (bare _ List.mem_cons_self)
    · exact absurd ⟨inner, .inr shape⟩ (bare _ List.mem_cons_self)
  | notIn _ _ =>
    rcases h'.primary_cases with rfl | ⟨inner, shape, _⟩ | ⟨inner, _, shape, _⟩
    · rfl
    · exact absurd ⟨inner, .inl shape⟩ (bare _ List.mem_cons_self)
    · exact absurd ⟨inner, .inr shape⟩ (bare _ List.mem_cons_self)
  | @parentheses text _ _ ih =>
    rcases h'.primary_cases with rfl | ⟨inner, shape, derives⟩ | ⟨inner, _, shape, _⟩
    · exact absurd ⟨text, .inl rfl⟩ (bare' _ List.mem_cons_self)
    · rw [← inside shape] at derives
      exact ih derives bare bare'
    · exact absurd shape (apart text inner)
  | @existence text _ _ ih =>
    rcases h'.primary_cases with rfl | ⟨inner, shape, _⟩ | ⟨inner, i, shape, rfl, derives⟩
    · exact absurd ⟨text, .inr rfl⟩ (bare' _ List.mem_cons_self)
    · exact absurd shape.symm (apart inner text)
    · rw [← inside shape] at derives
      exact congrArg Proposition.existence (ih derives bare bare')
  | primary operand ih =>
    rcases h'.negation_cases with derives | ⟨inner, i, shape, -, -⟩
    · exact ih derives bare bare'
    · exact absurd shape (operand.ne_not inner)
  | @not text _ operand ih =>
    rcases h'.negation_cases with derives | ⟨inner, i, shape, rfl, derives⟩
    · exact absurd rfl (derives.ne_not text)
    · have lists := congrArg String.toList shape
      simp only [String.toList_append, List.append_cancel_left_eq] at lists
      rw [← String.toList_inj.mp lists] at derives
      exact congrArg Proposition.not (ih derives bare bare')
  | negation operand ih =>
    rcases h'.conjunction_cases with derives | ⟨left, right, l, r, shape, rfl, first, _⟩
    · exact ih derives bare bare'
    · exact absurd shape (operand.ne_and first.balanced right)
  | @and left right _ _ first rest ihl ihr =>
    rcases h'.conjunction_cases with derives | ⟨left', right', l, r, shape, rfl, first', rest'⟩
    · exact absurd rfl (derives.ne_and first.balanced right)
    · obtain ⟨rfl, rfl⟩ := split_unique " AND " "AND" rfl (by decide) first.balanced first'.balanced
        (fun there => first.silent (k := .and) rfl _ there rfl)
        (fun there => first'.silent (k := .and) rfl _ there rfl) shape
      obtain ⟨bareLeft, bareRight⟩ := List.forall_mem_append.mp bare
      obtain ⟨bareLeft', bareRight'⟩ := List.forall_mem_append.mp bare'
      rw [ihl first' bareLeft bareLeft', ihr rest' bareRight bareRight']
  | conjunction operand ih =>
    rcases h'.disjunction_cases with derives | ⟨left, right, l, r, shape, rfl, first, _⟩
    · exact ih derives bare bare'
    · exact absurd shape (operand.ne_or first.balanced right)
  | @or left right _ _ first rest ihl ihr =>
    rcases h'.disjunction_cases with derives | ⟨left', right', l, r, shape, rfl, first', rest'⟩
    · exact absurd rfl (derives.ne_or first.balanced right)
    · obtain ⟨rfl, rfl⟩ := split_unique " OR " "OR" rfl (by decide) first.balanced first'.balanced
        (fun there => first.silent (k := .or) rfl _ there rfl)
        (fun there => first'.silent (k := .or) rfl _ there rfl) shape
      obtain ⟨bareLeft, bareRight⟩ := List.forall_mem_append.mp bare
      obtain ⟨bareLeft', bareRight'⟩ := List.forall_mem_append.mp bare'
      rw [ihl first' bareLeft bareLeft', ihr rest' bareRight bareRight']

end Derives

end

end RelationFilter.Sql
