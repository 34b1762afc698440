import RelationFilter.Proofs.Sql.Lexis
import RelationFilter.Proofs.Sql.Rendering

namespace RelationFilter.Sql

/-- No end of a statement, no escape, no line break, no comment, and nothing left open. -/
structure Harmless (text : String) : Prop where
  signs : ∀ c ∈ [';', '\\', '#'], c ∉ text.toList
  breaks : ∀ c ∈ ['\n', '\r', '\x0b', '\x0c', '\u0085', '\u2028', '\u2029'], c ∉ text.toList
  dashes : ¬ "--".toList <:+: text.toList
  comments : ¬ "/*".toList <:+: text.toList
  balanced : ∀ q : Quotes, q.Balanced text

def fragmentSigns : List Char := " .,:=<>()[]$*\x27\"\x60".toList

def isSafe (c : Char) : Bool := Text.isWord c || fragmentSigns.contains c

structure Safe (text : String) : Prop where
  safe : text.toList.all isSafe = true
  balanced : ∀ q : Quotes, q.Balanced text

theorem Safe.harmless {text : String} (h : Safe text) : Harmless text := by
  have absent {c : Char} (unsafe_sign : isSafe c = false) : c ∉ text.toList := by
    intro member
    rw [List.all_eq_true.mp h.safe c member] at unsafe_sign
    cases unsafe_sign
  have signs : [';', '\\', '#'].all (fun c => !isSafe c) = true := by decide
  have breaks : ['\n', '\r', '\x0b', '\x0c', '\u0085', '\u2028', '\u2029'].all
      (fun c => Text.isBlank c && !fragmentSigns.contains c) = true := by decide
  refine ⟨?_, ?_, ?_, ?_, h.balanced⟩
  · intro c member
    exact absent (by simpa using List.all_eq_true.mp signs c member)
  · intro c member
    obtain ⟨blank, other⟩ := Bool.and_eq_true_iff.mp (List.all_eq_true.mp breaks c member)
    apply absent
    rw [isSafe, Text.isWord_of_isBlank blank, Bool.false_or]
    simpa using other
  · intro inside
    exact absent (c := '-') (by decide) (inside.subset (by decide))
  · intro inside
    exact absent (c := '/') (by decide) (inside.subset (by decide))

theorem Safe.append {text more : String} (h : Safe text) (h' : Safe more) : Safe (text ++ more) := by
  refine ⟨?_, fun q => (h.balanced q).append (h'.balanced q)⟩
  rw [String.toList_append, List.all_append, h.safe, h'.safe]
  rfl

def IsWord (name : String) : Prop := name.toList.all Text.isWord = true

instance (name : String) : Decidable (IsWord name) := inferInstanceAs (Decidable (_ = _))

theorem IsWord.append {a b : String} (ha : IsWord a) (hb : IsWord b) : IsWord (a ++ b) := by
  unfold IsWord at *
  rw [String.toList_append, List.all_append, ha, hb]
  rfl

def isPlainSafe (c : Char) : Bool := isSafe c && isBare c

theorem safe_of_plain {text : String} (plain : text.toList.all isPlainSafe = true) : Safe text := by
  have each {c : Char} (member : c ∈ text.toList) : isSafe c = true ∧ isBare c = true :=
    Bool.and_eq_true_iff.mp (List.all_eq_true.mp plain c member)
  refine ⟨List.all_eq_true.mpr fun c member => (each member).1, fun q => ?_⟩
  exact Quotes.balanced_of_bare (List.all_eq_true.mpr fun c member => (each member).2)

def weave (first : String) (rest : List (String × String)) : String :=
  rest.foldl (fun text h => text ++ h.1 ++ h.2) first

def Quotes.readOutline (q : Quotes) : Place → List String → Option Place
  | p, [] => some p
  | p, literal :: rest =>
    (q.read p literal.toList).bind fun p => if p.mark = none then q.readOutline p rest else none

def Outline (literals : List String) : Prop :=
  (∀ l ∈ literals, l.toList.all isSafe = true) ∧
    ∀ single double back : Bool, Quotes.readOutline ⟨single, double, back⟩ .top literals = some .top

instance (literals : List String) : Decidable (Outline literals) := inferInstanceAs (Decidable (_ ∧ _))

theorem balanced_weave {q : Quotes} {first : String} {rest : List (String × String)} {p p' : Place}
    (begins : q.read .top first.toList = some p) (outside : p.mark = none)
    (outline : q.readOutline p (rest.map Prod.snd) = some p') (holes : ∀ h ∈ rest, q.Balanced h.1) :
    q.read .top (weave first rest).toList = some p' := by
  induction rest generalizing first p with
  | nil =>
    cases outline
    exact begins
  | cons h rest ih =>
    obtain ⟨mark, n⟩ := p
    cases outside
    obtain ⟨next, literal, later⟩ := Option.bind_eq_some_iff.mp outline
    split at later
    · rename_i outside
      have longer : q.read .top (first ++ h.1 ++ h.2).toList = some next := by
        rw [String.toList_append, String.toList_append, Quotes.read_append, Quotes.read_append, begins,
          Option.bind_some, (holes h List.mem_cons_self).read_at, Option.bind_some, literal]
      exact ih longer outside later fun h member => holes h (List.mem_cons_of_mem _ member)
    · cases later

theorem safe_weave (first : String) (rest : List (String × String)) {text : String} (shape : text = weave first rest)
    (outline : Outline (first :: rest.map Prod.snd)) (holes : ∀ h ∈ rest, Safe h.1) : Safe text := by
  rw [shape]
  constructor
  · have literals := outline.1
    clear outline shape
    induction rest generalizing first with
    | nil => exact literals first List.mem_cons_self
    | cons h rest ih =>
      apply ih _ fun h member => holes h (List.mem_cons_of_mem _ member)
      intro l member
      rcases List.mem_cons.mp member with rfl | later
      · have start := literals first List.mem_cons_self
        have hole := (holes h List.mem_cons_self).safe
        have literal := literals h.2 (by simp)
        simp only [String.toList_append, List.all_append, start, hole, literal, Bool.and_self]
      · exact literals l (by simp [later])
  · intro q
    obtain ⟨p, begins, later⟩ := Option.bind_eq_some_iff.mp (outline.2 q.single q.double q.back)
    split at later
    · rename_i outside
      exact balanced_weave begins outside later fun h member => (holes h member).balanced q
    · cases later

theorem plainSafe_of_isWord {c : Char} (word : Text.isWord c = true) : isPlainSafe c = true := by
  simp [isPlainSafe, isSafe, word, isBare_of_isWord word]

theorem Dotted.plain {name : String} (h : Dotted name) : name.toList.all isPlainSafe = true := by
  rw [List.all_eq_true]
  intro c member
  have dotted : Text.isWord c = true ∨ c = '.' := by simpa using List.all_eq_true.mp h c member
  rcases dotted with word | rfl
  · exact plainSafe_of_isWord word
  · decide

theorem Dotted.safe {name : String} (h : Dotted name) : Safe name := safe_of_plain h.plain

theorem IsWord.dotted {name : String} (h : IsWord name) : Dotted name := by
  unfold Dotted
  rw [List.all_eq_true]
  intro c member
  simp [List.all_eq_true.mp h c member]

theorem IsWord.safe {name : String} (h : IsWord name) : Safe name := h.dotted.safe

theorem dotted_column {row field : String} (hr : IsWord row) (hf : IsWord field) : Dotted (row ++ "." ++ field) := by
  have parts := And.intro hr.dotted hf.dotted
  unfold Dotted at *
  rw [String.toList_append, String.toList_append, List.all_append, List.all_append, parts.1, parts.2]
  rfl

variable (d : Dialect)

theorem safe_quoteColumn {column : String} (h : Dotted column) : Safe (d.quoteColumn column) := by
  have bare : column.toList.all isBare = true := by
    rw [List.all_eq_true]
    exact fun c member => (Bool.and_eq_true_iff.mp (List.all_eq_true.mp h.plain c member)).2
  refine ⟨?_, fun q => Quotes.balanced_quoteColumn d bare⟩
  rw [List.all_eq_true]
  intro c member
  by_cases mark : c = d.quoteMark
  · rw [mark]
    cases d <;> decide
  · exact List.all_eq_true.mp h.safe.safe c (d.mem_of_mem_quoteColumn mark member)

theorem safe_columnElements {column : String} (h : Dotted column) : Safe (d.columnElements column) := by
  have quoted := safe_quoteColumn d h
  unfold Dialect.columnElements
  generalize d.quoteColumn column = c at quoted
  cases d with
  | mysql =>
    apply safe_weave "JSON_TABLE(IF(JSON_VALID("
      [(c, "),"), (c, ",JSON_ARRAY("), (c, ")),'$[*]' COLUMNS(`value` VARCHAR(255) PATH '$'))")] rfl
    · simp only [List.map]
      decide
    · simp [quoted]
  | sqlite =>
    apply safe_weave "json_each(CASE WHEN json_valid("
      [(c, ") THEN "), (c, " ELSE json_array("), (c, ") END)")] rfl
    · simp only [List.map]
      decide
    · simp [quoted]

theorem safe_boundElements {name : String} (h : IsWord name) : Safe (d.boundElements name) := by
  cases d with
  | mysql =>
    apply safe_weave "JSON_TABLE(:" [(name, ",'$[*]' COLUMNS(`value` VARCHAR(255) PATH '$'))")] rfl
    · simp only [List.map]
      decide
    · simp [h.safe]
  | sqlite =>
    apply safe_weave "json_each(:" [(name, ")")] rfl
    · simp only [List.map]
      decide
    · simp [h.safe]

theorem safe_elementCount {column : String} (h : Dotted column) : Safe (d.elementCount column) := by
  have quoted := safe_quoteColumn d h
  unfold Dialect.elementCount
  generalize d.quoteColumn column = c at quoted
  cases d with
  | mysql =>
    apply safe_weave "JSON_LENGTH(IF(JSON_VALID("
      [(c, "),"), (c, ",IF("), (c, "='' OR "), (c, " IS NULL,JSON_ARRAY(),JSON_ARRAY("), (c, "))))")] rfl
    · simp only [List.map]
      decide
    · simp [quoted]
  | sqlite =>
    apply safe_weave "json_array_length(CASE WHEN json_valid("
      [(c, ") THEN "), (c, " ELSE (CASE WHEN "), (c, " = '' OR "), (c, " IS NULL THEN json_array() ELSE json_array("),
        (c, ") END) END)")] rfl
    · simp only [List.map]
      decide
    · simp [quoted]

theorem safe_literal (inner : List Char) {start path : String} (opened : start.toList = '\x27' :: inner)
    (start_plain : inner.all isPlainSafe = true) (plain : path.toList.all isPlainSafe = true) :
    Safe (start ++ path ++ "'") := by
  have inside : (inner ++ path.toList).all isPlainSafe = true := by
    rw [List.all_append, start_plain, plain]
    rfl
  have shape : (start ++ path ++ "'").toList = '\x27' :: (inner ++ path.toList) ++ ['\x27'] := by simp [opened]
  have each {c : Char} (member : c ∈ inner ++ path.toList) : isSafe c = true ∧ isBare c = true :=
    Bool.and_eq_true_iff.mp (List.all_eq_true.mp inside c member)
  constructor
  · rw [shape, List.all_append, List.all_cons, Bool.and_eq_true_iff, Bool.and_eq_true_iff, List.all_eq_true]
    exact ⟨⟨by decide, fun c member => (each member).1⟩, by decide⟩
  · intro q
    rw [Quotes.Balanced, shape]
    exact Quotes.read_quoted (List.all_eq_true.mpr fun c member => (each member).2) (by decide)

theorem safe_jsonExtract {column path : String} (h : Dotted column) (plain : path.toList.all isPlainSafe = true) :
    Safe (d.jsonExtract column path) := by
  have quoted := safe_quoteColumn d h
  have step : (Dialect.jsonStep path).toList.all isPlainSafe = true := by
    unfold Dialect.jsonStep
    split
    · exact plain
    · split
      · exact plain
      · rw [String.toList_append, List.all_append, plain]
        decide
  have root : Safe ("'$" ++ Dialect.jsonStep path ++ "'") := safe_literal ['$'] rfl (by decide) step
  have member : Safe ("'$.pb" ++ Dialect.jsonStep path ++ "'") := safe_literal "$.pb".toList rfl (by decide) step
  unfold Dialect.jsonExtract
  generalize Dialect.jsonStep path = p at root member
  generalize d.quoteColumn column = c at quoted
  cases d with
  | mysql =>
    have cuts : ",'$" = "," ++ "'$" ∧ "'),JSON_EXTRACT(JSON_OBJECT('pb'," = "'" ++ "),JSON_EXTRACT(JSON_OBJECT('pb'," ∧
        "),'$.pb" = ")," ++ "'$.pb" ∧ "')))" = "'" ++ ")))" := ⟨rfl, rfl, rfl, rfl⟩
    apply safe_weave "(IF(JSON_VALID("
      [(c, "),JSON_EXTRACT("), (c, ","), ("'$" ++ p ++ "'", "),JSON_EXTRACT(JSON_OBJECT('pb',"), (c, "),"),
        ("'$.pb" ++ p ++ "'", ")))")]
    · simp only [weave, List.foldl, cuts, String.append_assoc]
    · simp only [List.map]
      decide
    · simpa [quoted] using ⟨root, member⟩
  | sqlite =>
    have cuts : ", '$" = ", " ++ "'$" ∧ "') ELSE JSON_EXTRACT(json_object('pb', " =
        "'" ++ ") ELSE JSON_EXTRACT(json_object('pb', " ∧ "), '$.pb" = "), " ++ "'$.pb" ∧ "') END)" = "'" ++ ") END)" :=
      ⟨rfl, rfl, rfl, rfl⟩
    apply safe_weave "(CASE WHEN json_valid("
      [(c, ") THEN JSON_EXTRACT("), (c, ", "), ("'$" ++ p ++ "'", ") ELSE JSON_EXTRACT(json_object('pb', "), (c, "), "),
        ("'$.pb" ++ p ++ "'", ") END)")]
    · simp only [weave, List.foldl, cuts, String.append_assoc]
    · simp only [List.map]
      decide
    · simpa [quoted] using ⟨root, member⟩

theorem Safe.intercalate (sep : String) (plain : sep.toList.all isPlainSafe = true) {parts : List String}
    (h : ∀ part ∈ parts, Safe part) : Safe (String.intercalate sep parts) := by
  induction parts with
  | nil =>
    rw [String.intercalate_nil]
    exact safe_of_plain (by decide)
  | cons part rest ih =>
    have first := h part List.mem_cons_self
    cases rest with
    | nil => simpa using first
    | cons next rest =>
      rw [String.intercalate_cons_cons]
      exact (first.append (safe_of_plain plain)).append (ih fun part member => h part (List.mem_cons_of_mem _ member))

theorem safe_membership {column : String} (h : Dotted column) {values : List String}
    (each : ∀ value ∈ values, Safe value) : Safe (membership d column values false) := by
  have quoted := safe_quoteColumn d h
  match values, each with
  | [], _ =>
    show Safe "0=1"
    exact safe_of_plain (by decide)
  | [value], each => exact (quoted.append (safe_of_plain (by decide))).append (each value List.mem_cons_self)
  | value :: next :: rest, each =>
    apply safe_weave "" [(d.quoteColumn column, " IN ("), (String.intercalate ", " (value :: next :: rest), ")")]
    · simp [membership, weave]
    · simp only [List.map]
      decide
    · simpa [quoted] using Safe.intercalate ", " (by decide) each

theorem isWord_nat (n : Nat) : IsWord (toString n) := List.all_eq_true.mpr fun _ member => isWord_toString member

theorem isWord_numbered {start : String} (h : IsWord start) (n : Nat) : IsWord (start ++ toString n) :=
  h.append (isWord_nat n)

theorem isWord_slot (n : Nat) : IsWord (Bindings.slot n) := all_isWord_slot n

theorem IsValue.safe {value : String} (h : IsValue value) : Safe value := by
  cases h with
  | null => exact safe_of_plain (by decide)
  | slot n => exact (safe_of_plain (by decide)).append (isWord_slot n).safe

end RelationFilter.Sql
