import Mathlib.Data.List.DropRight
import RelationFilter.Proofs.Schema.TopLevel
import RelationFilter.Proofs.Sql.Lexis
import RelationFilter.Proofs.Sql.Written
import RelationFilter.Schema.Index

namespace RelationFilter

open Text

namespace Text

variable {cs before after : List Char}

theorem trimLeft_of_head? (ink : ∀ c ∈ cs.head?, isBlank c = false) : trimLeft cs = cs := by
  cases cs with
  | nil => rfl
  | cons c rest => simp [trimLeft, ink c rfl]

theorem trimRight_of_getLast? (ink : ∀ c ∈ cs.getLast?, isBlank c = false) : trimRight cs = cs := by
  have back : trimLeft cs.reverse = cs.reverse := trimLeft_of_head? (by simpa using ink)
  rw [trimRight, ← trimLeft, back, List.reverse_reverse]

theorem afterBlanks?_of_head? (ink : ∀ c ∈ cs.head?, isBlank c = false) : afterBlanks? (' ' :: cs) = some cs := by
  have blank : isBlank ' ' = true := by decide
  rw [afterBlanks?, if_pos blank, trimLeft_of_head? ink]

theorem trim_trimLeft (cs : List Char) : trim (String.ofList (trimLeft cs)) = trim (String.ofList cs) := by
  rw [trim, trim, String.toList_ofList, String.toList_ofList, trimLeft, trimLeft, List.dropWhile_idempotent]

theorem mem_of_mem_afterKeyword? {ks rest : List Char} (h : afterKeyword? ks cs = some rest) {c : Char}
    (member : c ∈ rest) : c ∈ cs := by
  obtain ⟨word, rfl⟩ := exists_of_afterKeyword? h
  exact List.mem_append_right _ member

theorem mem_of_mem_trim {s : String} {c : Char} (member : c ∈ (trim s).toList) : c ∈ s.toList := by
  rw [trim, String.toList_ofList, trimRight, List.mem_reverse] at member
  exact (List.dropWhile_suffix _).subset (List.mem_reverse.mp ((List.dropWhile_suffix _).subset member))

end Text

def isNameChar (c : Char) : Bool := Index.isInk c && !Index.isNameMark c && !(['.', ',', '(', ')'].contains c)

def IsName (name : String) : Prop := name ≠ "" ∧ ∀ c ∈ name.toList, isNameChar c = true

instance (name : String) : Decidable (IsName name) :=
  decidable_of_iff (name ≠ "" ∧ name.toList.all isNameChar = true) (and_congr_right fun _ => List.all_eq_true)

theorem isBlank_of_isNameChar {c : Char} (h : isNameChar c = true) : isBlank c = false := by
  simp only [isNameChar, Index.isInk, Bool.and_eq_true, Bool.not_eq_true'] at h
  exact h.1.1

namespace IsName

variable {name : String}

theorem ne_nil (h : IsName name) : name.toList ≠ [] := fun none => h.1 (by simpa using none)

theorem ink (h : IsName name) : ∀ c ∈ name.toList, Index.isInk c = true :=
  fun c member => by simp [Index.isInk, isBlank_of_isNameChar (h.2 c member)]

theorem head? (h : IsName name) (rest : List Char) : ∀ c ∈ (name.toList ++ rest).head?, isBlank c = false := by
  intro c first
  rw [List.head?_append_of_ne_nil _ h.ne_nil] at first
  exact isBlank_of_isNameChar (h.2 c (List.mem_of_mem_head? first))

theorem getLast? (h : IsName name) : ∀ c ∈ name.toList.getLast?, isBlank c = false :=
  fun c last => isBlank_of_isNameChar (h.2 c (List.mem_of_mem_getLast? last))

theorem dot_not_mem (h : IsName name) : '.' ∉ name.toList := fun member => absurd (h.2 _ member) (by decide)

theorem cleanName (h : IsName name) : Index.cleanName name.toList = name := by
  have first := h.head? []
  rw [List.append_nil] at first
  have trimmed : trim name = name := by
    rw [trim, trimLeft_of_head? first, trimRight_of_getLast? h.getLast?, String.ofList_toList]
  have unmarked : name.toList.filter (fun c => !Index.isNameMark c) = name.toList := by
    rw [List.filter_eq_self]
    intro c member
    have own := h.2 c member
    simp only [isNameChar, Bool.and_eq_true] at own
    exact own.1.2
  rw [Index.cleanName, String.ofList_toList, trimmed, unmarked, String.ofList_toList, trimmed]

end IsName

def IndexColumn.text (c : IndexColumn) : String :=
  c.name ++ (c.collation.elim "" fun word => " COLLATE " ++ word) ++ c.direction.elim "" fun d => " " ++ d.keyword

structure IndexColumn.Plain (c : IndexColumn) : Prop where
  name : IsName c.name
  collation : ∀ word ∈ c.collation, word ≠ "" ∧ word.toList.all isWord = true

namespace Index

theorem directionEnd?_keyword (d : Option Direction) :
    directionEnd? (d.elim "" fun d => " " ++ d.keyword).toList = some d := by
  rcases d with _ | _ | _ <;> decide

theorem columnEnd?_text {collation : Option String}
    (word : ∀ w ∈ collation, w ≠ "" ∧ w.toList.all isWord = true) (d : Option Direction) :
    columnEnd? ((collation.elim "" fun w => " COLLATE " ++ w) ++ d.elim "" fun d => " " ++ d.keyword).toList =
      some (collation, d) := by
  have ends := directionEnd?_keyword d
  generalize shape : (d.elim "" fun d => " " ++ d.keyword).toList = tail at ends
  rw [String.toList_append, shape]
  cases collation with
  | none =>
    have keyword : ((afterBlanks? tail).bind (afterKeyword? ['c', 'o', 'l', 'l', 'a', 't', 'e'])).bind afterBlanks? = none := by
      rw [← shape]
      rcases d with _ | _ | _ <;> decide
    simp only [Option.elim_none, String.toList_empty, List.nil_append, columnEnd?, keyword, ends, Option.map_some]
  | some w =>
    obtain ⟨some_char, letters⟩ := word w rfl
    rw [List.all_eq_true] at letters
    have stop : tail.takeWhile isWord = [] ∧ tail.dropWhile isWord = tail := by
      rw [← shape]
      rcases d with _ | _ | _ <;> decide
    have first : ∀ c ∈ (w.toList ++ tail).head?, isBlank c = false := by
      intro c head
      rw [List.head?_append_of_ne_nil _ (by simpa using some_char)] at head
      exact isBlank_of_isWord (letters c (List.mem_of_mem_head? head))
    have before : ((afterBlanks? (" COLLATE ".toList ++ (w.toList ++ tail))).bind
        (afterKeyword? ['c', 'o', 'l', 'l', 'a', 't', 'e'])).bind afterBlanks? = some (w.toList ++ tail) :=
      afterBlanks?_of_head? first
    have read : (w.toList ++ tail).takeWhile isWord = w.toList ∧ (w.toList ++ tail).dropWhile isWord = tail := by
      rw [List.takeWhile_append_of_pos letters, List.dropWhile_append_of_pos letters, stop.1, stop.2, List.append_nil]
      exact ⟨rfl, rfl⟩
    simp only [Option.elim_some, String.toList_append, List.append_assoc, columnEnd?, before, read]
    simp [some_char, ends]

theorem columnEnd?_of_ink {c : Char} (ink : isBlank c = false) (rest : List Char) : columnEnd? (c :: rest) = none := by
  simp [columnEnd?, directionEnd?, afterBlanks?, ink]

/-- A name ends where the end of a column begins, and not before. -/
theorem splitColumn?_append {name tail : List Char} {e : Option String × Option Direction} (nonempty : name ≠ [])
    (ink : ∀ c ∈ name, isInk c = true) (ends : columnEnd? tail = some e) :
    splitColumn? (name ++ tail) = some (name, e) := by
  induction name with
  | nil => contradiction
  | cons c rest ih =>
    cases rest with
    | nil => simp [splitColumn?, ends]
    | cons next rest =>
      have more := ih (List.cons_ne_nil _ _) fun c member => ink c (List.mem_cons_of_mem _ member)
      have inside : isBlank next = false := by simpa [isInk] using ink next (by simp)
      have goes_on := columnEnd?_of_ink inside (rest ++ tail)
      simp only [List.cons_append] at more ⊢
      rw [splitColumn?, goes_on, more]
      rfl

theorem isBlank_of_text_getLast? {c : IndexColumn} (h : c.Plain) : ∀ l ∈ c.text.toList.getLast?, isBlank l = false := by
  rw [IndexColumn.text]
  cases direction : c.direction with
  | some d => cases d <;> simp [List.getLast?_append, Direction.keyword] <;> decide
  | none =>
    cases collation : c.collation with
    | none => simpa using h.name.getLast?
    | some w =>
      obtain ⟨some_char, letters⟩ := h.collation w collation
      have shown : w.toList.getLast? ≠ none := by simpa using some_char
      obtain ⟨l', last⟩ := Option.ne_none_iff_exists'.mp shown
      intro l ends
      simp only [Option.elim_some, Option.elim_none, String.append_empty, String.toList_append, List.getLast?_append, last,
        Option.some_or, Option.mem_some_iff] at ends
      exact isBlank_of_isWord (List.all_eq_true.mp letters l (ends ▸ List.mem_of_getLast? last))

theorem trim_text {c : IndexColumn} (h : c.Plain) {lead : List Char} (blank : lead.all isBlank = true) :
    trim (String.ofList (lead ++ c.text.toList)) = c.text := by
  have first : trimLeft (lead ++ c.text.toList) = c.text.toList := by
    rw [trimLeft, List.dropWhile_append_of_pos (List.all_eq_true.mp blank), ← trimLeft]
    apply trimLeft_of_head?
    rw [IndexColumn.text, String.append_assoc, String.toList_append]
    exact h.name.head? _
  rw [trim, String.toList_ofList, first, trimRight_of_getLast? (isBlank_of_text_getLast? h), String.ofList_toList]

theorem column?_text {c : IndexColumn} (h : c.Plain) {lead : List Char} (blank : lead.all isBlank = true) :
    column? (lead ++ c.text.toList) = some c := by
  have split : splitColumn? c.text.toList = some (c.name.toList, c.collation, c.direction) := by
    rw [IndexColumn.text, String.append_assoc, String.toList_append]
    exact splitColumn?_append h.name.ne_nil h.name.ink (columnEnd?_text h.collation c.direction)
  simp only [column?, trim_text h blank, split, h.name.cleanName, h.name.1, if_false]

def isQuiet (c : Char) : Bool := !(['\x27', '"', '\x60', '(', ')', ','].contains c)

theorem isQuiet_of {p : Char → Bool} (others : ['\x27', '"', '\x60', '(', ')', ','].all (fun c => !p c) = true) {c : Char}
    (h : p c = true) : isQuiet c = true := by
  have apart : c ∉ ['\x27', '"', '\x60', '(', ')', ','] := fun member => by
    simpa [h] using List.all_eq_true.mp others c member
  simpa [isQuiet] using apart

theorem isQuiet_of_mem_text {c : IndexColumn} (h : c.Plain) : ∀ l ∈ c.text.toList, isQuiet l = true := by
  intro l member
  simp only [IndexColumn.text, String.toList_append, List.mem_append] at member
  rcases member with (inName | inCollation) | inDirection
  · exact isQuiet_of (by decide) (h.name.2 l inName)
  · cases collation : c.collation with
    | none => simp [collation] at inCollation
    | some w =>
      rw [collation, Option.elim_some, String.toList_append, List.mem_append] at inCollation
      have keyword : " COLLATE ".toList.all isQuiet = true := by decide
      rcases inCollation with inKeyword | inWord
      · exact List.all_eq_true.mp keyword l inKeyword
      · exact isQuiet_of (by decide) (List.all_eq_true.mp (h.collation w collation).2 l inWord)
  · cases direction : c.direction with
    | none => simp [direction] at inDirection
    | some d =>
      have keyword : (" " ++ d.keyword).toList.all isQuiet = true := by cases d <;> decide
      rw [direction] at inDirection
      exact List.all_eq_true.mp keyword l inDirection

theorem next_of_isQuiet {c : Char} (quiet : isQuiet c = true) : Nesting.top.next c = .top := by
  simp only [isQuiet, Bool.not_eq_true', List.contains_eq_mem, List.mem_cons, List.not_mem_nil, or_false,
    decide_eq_false_iff_not, not_or] at quiet
  simp [Nesting.top, Nesting.next, quiet]

theorem after_of_quiet {part : List Char} (quiet : ∀ c ∈ part, isQuiet c = true) : Nesting.top.after part = .top := by
  induction part with
  | nil => rfl
  | cons c rest ih =>
    have stays := next_of_isQuiet (quiet c List.mem_cons_self)
    rw [Nesting.after, List.foldl_cons, stays]
    exact ih fun c member => quiet c (List.mem_cons_of_mem _ member)

theorem uncut_of_quiet {part : List Char} (quiet : ∀ c ∈ part, isQuiet c = true) : Uncut .top part := by
  rintro before after rfl
  exact absurd (quiet ',' (List.mem_append_right before List.mem_cons_self)) (by decide)

theorem topLevelParts_last {part : List Char} (quiet : ∀ c ∈ part, isQuiet c = true) :
    topLevelParts ',' 0 none part = [part] := (uncut_of_quiet quiet).parts_eq

theorem topLevelParts_append {part : List Char} (quiet : ∀ c ∈ part, isQuiet c = true) (rest : List Char) :
    topLevelParts ',' 0 none (part ++ ',' :: rest) = part :: topLevelParts ',' 0 none rest :=
  (uncut_of_quiet quiet).parts_append (after_of_quiet quiet) rest

def listText (columns : List IndexColumn) : String := ", ".intercalate (columns.map IndexColumn.text)

theorem columnsOf_listText {columns : List IndexColumn} (nonempty : columns ≠ []) (plain : ∀ c ∈ columns, c.Plain) :
    columnsOf (listText columns).toList = columns := by
  -- after the first column a blank leads each of them
  suffices led : ∀ lead : List Char, lead.all isBlank = true → lead.all isQuiet = true →
      columnsOf (lead ++ (listText columns).toList) = columns from led [] rfl rfl
  induction columns with
  | nil => contradiction
  | cons c rest ih =>
    intro lead blank quiet
    have here := plain c List.mem_cons_self
    have column := column?_text here blank
    have quietPart : ∀ l ∈ lead ++ c.text.toList, isQuiet l = true := by
      intro l member
      rcases List.mem_append.mp member with inLead | inText
      · exact List.all_eq_true.mp quiet l inLead
      · exact isQuiet_of_mem_text here l inText
    cases rest with
    | nil =>
      have only : listText [c] = c.text := String.intercalate_singleton
      rw [columnsOf, only, topLevelParts_last quietPart]
      simp [column]
    | cons next rest =>
      have more := ih (List.cons_ne_nil _ _) (fun c member => plain c (List.mem_cons_of_mem _ member)) [' '] rfl rfl
      have text : lead ++ (listText (c :: next :: rest)).toList =
          (lead ++ c.text.toList) ++ ',' :: ([' '] ++ (listText (next :: rest)).toList) := by
        simp [listText, String.intercalate_cons_cons]
      rw [columnsOf, text, topLevelParts_append quietPart, List.filterMap_cons, column]
      exact congrArg (c :: ·) more

def nameText (i : Index) : String := if i.schema = "" then i.name else i.schema ++ "." ++ i.name

def conditionText (i : Index) : String := if i.condition = "" then "" else " WHERE " ++ i.condition

def text (i : Index) : String :=
  "CREATE " ++ (if i.unique then "UNIQUE " else "") ++ "INDEX " ++ (if i.optional then "IF NOT EXISTS " else "") ++
    i.nameText ++ " ON " ++ i.table ++ " (" ++ listText i.columns ++ ")" ++ i.conditionText

/-- Plain names and columns, and a condition without blanks around it. -/
structure Plain (i : Index) : Prop where
  schema : i.schema = "" ∨ IsName i.schema
  name : IsName i.name
  table : IsName i.table
  nonempty : i.columns ≠ []
  columns : ∀ c ∈ i.columns, c.Plain
  condition : trim i.condition = i.condition

theorem conditionOf_conditionText {i : Index} (trimmed : trim i.condition = i.condition) :
    conditionOf i.conditionText.toList = i.condition := by
  unfold conditionText
  split
  · rename_i none
    rw [none]
    rfl
  · have after : (afterKeyword? ['w', 'h', 'e', 'r', 'e'] (trimLeft (" WHERE " ++ i.condition).toList)).bind afterBlanks? =
        some (trimLeft i.condition.toList) := by
      rw [String.toList_append]
      rfl
    rw [conditionOf, after]
    show trim (String.ofList (trimLeft i.condition.toList)) = i.condition
    rw [trim_trimLeft, String.ofList_toList, trimmed]

theorem close_not_mem_conditionOf {cs : List Char} (h : ')' ∉ cs) : ')' ∉ (conditionOf cs).toList := by
  unfold conditionOf
  split
  · rename_i rest after
    obtain ⟨cs', keyword, blanks⟩ := Option.bind_eq_some_iff.mp after
    obtain ⟨blank, rfl, -⟩ := exists_of_afterBlanks? blanks
    intro member
    have inRest : ')' ∈ rest := by simpa using mem_of_mem_trim member
    have inText := mem_of_mem_afterKeyword? keyword (List.mem_append_right blank inRest)
    exact h ((List.dropWhile_suffix _).subset inText)
  · decide

section

variable {i : Index}

theorem table?_text (h : IsName i.table) {rest : List Char} {list : List IndexColumn × String}
    (read : columnList? ('(' :: rest) = some list) :
    table? (i.table.toList ++ (' ' :: '(' :: rest)) = some (i.table, list) := by
  have stop : isInk ' ' = false := by decide
  have found : columnList? (trimLeft (' ' :: '(' :: rest)) = some list := read
  rw [table?, List.takeWhile_append_of_pos h.ink, List.dropWhile_append_of_pos h.ink]
  simp only [List.takeWhile_cons, List.dropWhile_cons, stop, Bool.false_eq_true, if_false, List.append_nil]
  unfold tableEnd?
  simp only [found, List.reverse_reverse, h.cleanName]

theorem nameText_ink (h : i.Plain) : i.nameText.toList ≠ [] ∧ ∀ c ∈ i.nameText.toList, isInk c = true := by
  unfold nameText
  split
  · exact ⟨h.name.ne_nil, h.name.ink⟩
  · rename_i led
    have schema := h.schema.resolve_left led
    refine ⟨by simp [schema.ne_nil], ?_⟩
    intro c member
    simp only [String.toList_append, List.mem_append] at member
    rcases member with (inSchema | dot) | inName
    · exact schema.ink c inSchema
    · have only : ".".toList.all isInk = true := by decide
      exact List.all_eq_true.mp only c dot
    · exact h.name.ink c inName

theorem qualifiedName_nameText (h : i.Plain) : qualifiedName i.nameText.toList = (i.schema, i.name) := by
  unfold nameText
  split
  · rename_i none
    rw [qualifiedName, List.splitOn_eq_singleton h.name.dot_not_mem, none]
    simp only [h.name.cleanName]
  · rename_i led
    have schema := h.schema.resolve_left led
    have parts : (i.schema ++ "." ++ i.name).toList.splitOn '.' = [i.schema.toList, i.name.toList] := by
      have whole : (i.schema ++ "." ++ i.name).toList = i.schema.toList ++ '.' :: i.name.toList := by simp
      rw [whole, List.splitOn_append_cons_self_of_not_mem schema.dot_not_mem, List.splitOn_eq_singleton h.name.dot_not_mem]
    rw [qualifiedName, parts]
    simp only [schema.cleanName, h.name.cleanName]

def namedText (i : Index) (rest : List Char) : List Char :=
  i.nameText.toList ++ (" ON ".toList ++ (i.table.toList ++ ' ' :: '(' :: rest))

theorem named?_namedText (h : i.Plain) {rest : List Char} {list : List IndexColumn × String}
    (read : columnList? ('(' :: rest) = some list) (unique optional spare : Bool) :
    named? unique optional spare (i.namedText rest) =
      some { i with unique, optional, columns := list.1, condition := list.2 } := by
  have table := table?_text h.table read
  have onTable : onTable? ("ON ".toList ++ (i.table.toList ++ ' ' :: '(' :: rest)) = some (i.table, list) := by
    have blanks : (afterKeyword? ['o', 'n'] ("ON ".toList ++ (i.table.toList ++ ' ' :: '(' :: rest))).bind afterBlanks? =
        some (i.table.toList ++ ' ' :: '(' :: rest) := afterBlanks?_of_head? (h.table.head? _)
    rw [onTable?, blanks, Option.bind_some, table]
  have ink := (nameText_ink h).2
  have name : (i.namedText rest).takeWhile isInk = i.nameText.toList := by
    rw [namedText, List.takeWhile_append_of_pos ink]
    exact List.append_nil _
  have after : (afterBlanks? ((i.namedText rest).dropWhile isInk)).bind onTable? = some (i.table, list) := by
    rw [namedText, List.dropWhile_append_of_pos ink]
    exact onTable
  simp only [named?, after, name, ofParts, qualifiedName_nameText h]

theorem afterIfNotExists?_of_ink {name : List Char} (ink : ∀ c ∈ name, isInk c = true) (rest : List Char) :
    afterIfNotExists? (name ++ (" ON ".toList ++ rest)) = none := by
  have stopped : (afterKeyword? ['i', 'f'] (name ++ (" ON ".toList ++ rest))).bind afterBlanks? = none ∨
      (afterKeyword? ['i', 'f'] (name ++ (" ON ".toList ++ rest))).bind afterBlanks? = some ("ON ".toList ++ rest) := by
    match name with
    | [] => exact .inl rfl
    | [a] =>
      left
      by_cases first : foldCase a = 'i'
      · simp only [List.cons_append, List.nil_append, afterKeyword?, first, if_true]
        rfl
      · simp [afterKeyword?, first]
    | a :: b :: name =>
      by_cases matched : foldCase a = 'i' ∧ foldCase b = 'f'
      · simp only [List.cons_append, afterKeyword?, matched, if_true, Option.bind_some]
        cases name with
        | nil => exact .inr rfl
        | cons c name =>
          left
          have inside : isBlank c = false := by simpa [isInk] using ink c (by simp)
          simp [afterBlanks?, inside]
      · left
        simp only [List.cons_append, afterKeyword?]
        split
        · rename_i first
          have second : ¬ foldCase b = 'f' := fun second => matched ⟨first, second⟩
          simp [second]
        · rfl
  rcases stopped with none | on
  · simp only [afterIfNotExists?, none]
    rfl
  · simp only [afterIfNotExists?, on]
    rfl

theorem body?_text (h : i.Plain) {rest : List Char} {list : List IndexColumn × String}
    (read : columnList? ('(' :: rest) = some list) (unique : Bool) :
    body? unique (' ' :: ((if i.optional then "IF NOT EXISTS " else "").toList ++ i.namedText rest)) =
      some { i with unique, columns := list.1, condition := list.2 } := by
  have named := named?_namedText h read unique i.optional
  have first : ∀ c ∈ (i.namedText rest).head?, isBlank c = false := by
    intro c head
    rw [namedText, List.head?_append_of_ne_nil _ (nameText_ink h).1] at head
    simpa [isInk] using (nameText_ink h).2 c (List.mem_of_mem_head? head)
  cases optional : i.optional with
  | true =>
    have after : afterIfNotExists? (trimLeft (' ' :: ("IF NOT EXISTS ".toList ++ i.namedText rest))) =
        some (' ' :: i.namedText rest) := rfl
    rw [optional] at named
    simp only [body?, if_true, after, Option.bind_some, afterBlanks?_of_head? first, named, Option.some_or]
  | false =>
    have start : trimLeft (' ' :: i.namedText rest) = i.namedText rest := trimLeft_of_head? first
    have other : afterIfNotExists? (i.namedText rest) = none := afterIfNotExists?_of_ink (nameText_ink h).2 _
    rw [optional] at named
    simp only [body?, Bool.false_eq_true, if_false, String.toList_empty, List.nil_append, start, other, Option.bind_none,
      Option.none_or, named]

theorem parse_of_columnList? (h : i.Plain) {rest : List Char} {list : List IndexColumn × String}
    (read : columnList? ('(' :: rest) = some list)
    (whole : (listText i.columns).toList ++ ')' :: i.conditionText.toList = rest) :
    parse i.text = { i with columns := list.1, condition := list.2 } := by
  have body := body?_text h read i.unique
  have text : i.text.toList = "CREATE ".toList ++ ((if i.unique then "UNIQUE " else "").toList ++ ("INDEX".toList ++
      (' ' :: ((if i.optional then "IF NOT EXISTS " else "").toList ++ i.namedText rest)))) := by
    rw [← whole]
    -- not by its equation, which takes long to derive
    delta Index.text
    simp [namedText]
  generalize (' ' :: ((if i.optional then "IF NOT EXISTS " else "").toList ++ i.namedText rest)) = tail at body text
  have statement : statement? i.text.toList = some { i with columns := list.1, condition := list.2 } := by
    rw [text]
    cases unique : i.unique with
    | true =>
      rw [unique] at body
      show (body? true tail).or _ = _
      rw [body, ← unique]
      rfl
    | false =>
      rw [unique] at body
      show body? false tail = _
      rw [body, ← unique]
  rw [parse]
  have head : ∃ cs, i.text.toList = 'C' :: cs := ⟨_, text⟩
  obtain ⟨cs, shape⟩ := head
  rw [shape] at statement ⊢
  rw [find?, statement]
  rfl

/-- A written definition is read back just if its condition has no closing parenthesis. Otherwise the list of columns ends at
the last one of the condition, and only what follows is read as the condition; all names and flags are read back anyway. -/
theorem parse_text_iff (h : i.Plain) :
    (parse i.text = i ↔ ')' ∉ i.condition.toList) ∧
      ∀ before after, i.condition.toList = before ++ ')' :: after → ')' ∉ after →
        parse i.text =
          { i with
            columns := columnsOf ((listText i.columns).toList ++ (") WHERE ".toList ++ before))
            condition := conditionOf after } := by
  have cut : ∀ before after, i.condition.toList = before ++ ')' :: after → ')' ∉ after →
      parse i.text =
        { i with
          columns := columnsOf ((listText i.columns).toList ++ (") WHERE ".toList ++ before))
          condition := conditionOf after } := by
    intro before after shape last
    have shown : i.condition ≠ "" := fun none => by simp [none] at shape
    have whole : (listText i.columns).toList ++ ')' :: i.conditionText.toList =
        ((listText i.columns).toList ++ (") WHERE ".toList ++ before)) ++ ')' :: after := by
      simp [conditionText, shown, shape]
    have read : columnList? ('(' :: (((listText i.columns).toList ++ (") WHERE ".toList ++ before)) ++ ')' :: after)) =
        some (columnsOf ((listText i.columns).toList ++ (") WHERE ".toList ++ before)), conditionOf after) := by
      rw [columnList?, splitLast?_append ')' _ last, Option.map_some]
    exact parse_of_columnList? h read whole
  refine ⟨⟨?_, ?_⟩, cut⟩
  · intro same member
    obtain ⟨before, after, shape, last⟩ : ∃ before after, i.condition.toList = before ++ ')' :: after ∧ ')' ∉ after := by
      cases parts : splitLast? ')' i.condition.toList with
      | none => exact absurd member (not_mem_of_splitLast? parts)
      | some p => exact ⟨p.1, p.2, eq_append_of_splitLast? parts, not_mem_after_splitLast? parts⟩
    have read := congrArg Index.condition (same.symm.trans (cut before after shape last))
    rw [read] at member
    exact close_not_mem_conditionOf last member
  · intro absent
    have tail : ')' ∉ i.conditionText.toList := by
      unfold conditionText
      split
      · decide
      · have keyword : ')' ∉ " WHERE ".toList := by decide
        rw [String.toList_append]
        exact List.not_mem_append keyword absent
    have read : columnList? ('(' :: ((listText i.columns).toList ++ ')' :: i.conditionText.toList)) =
        some (i.columns, i.condition) := by
      rw [columnList?, splitLast?_append ')' _ tail, Option.map_some, columnsOf_listText h.nonempty h.columns,
        conditionOf_conditionText h.condition]
    exact parse_of_columnList? h read rfl

end

theorem parse_text_iff_title :
    let i : Index :=
      { unique := true, optional := true, schema := "main", name := "idx_title", table := "posts"
        columns := [⟨"title", some "nocase", some .descending⟩, ⟨"body", none, none⟩], condition := "status = 'x'" }
    i.text = "CREATE UNIQUE INDEX IF NOT EXISTS main.idx_title ON posts (title COLLATE nocase DESC, body) WHERE status = 'x'" ∧
      i.Plain ∧ parse i.text = i := by
  intro i
  have plain : i.Plain :=
    { schema := .inr (by decide), name := by decide, table := by decide, nonempty := by decide
      columns := by
        intro c member
        simp only [i, List.mem_cons, List.not_mem_nil, or_false] at member
        rcases member with rfl | rfl
        · exact ⟨by decide, by rintro _ ⟨⟩; decide⟩
        · exact ⟨by decide, nofun⟩
      condition := by decide }
  exact ⟨by decide, plain, (parse_text_iff plain).1.mpr (by decide)⟩

/-- The parentheses of the condition end the list of columns. -/
theorem parse_text_ne_parenthesized :
    let i : Index :=
      { unique := true, name := "idx_slug", table := "posts", columns := [⟨"slug", none, none⟩], condition := "(deleted = 0)" }
    i.text = "CREATE UNIQUE INDEX idx_slug ON posts (slug) WHERE (deleted = 0)" ∧ i.Plain ∧
      parse i.text = { i with columns := [⟨"slug) WHERE (deleted = 0", none, none⟩], condition := "" } ∧ parse i.text ≠ i := by
  intro i
  have plain : i.Plain :=
    { schema := .inl rfl, name := by decide, table := by decide, nonempty := by decide
      columns := by
        intro c member
        rw [List.mem_singleton.mp member]
        exact ⟨by decide, nofun⟩
      condition := by decide }
  exact ⟨by decide, plain, by decide +kernel, by decide +kernel⟩

end Index

end RelationFilter
