import RelationFilter.Proofs.Sql.Pieces
import RelationFilter.Proofs.Sql.Quoting
import RelationFilter.Sql.Alias

namespace RelationFilter

open Text

def SqlPiece.name? : SqlPiece → Option String
  | char _ => none
  | placeholder name => some (String.ofList name)

def written (sql : String) : List String := (SqlPiece.ofText sql).filterMap SqlPiece.name?

def CoversChars (names : List String) : List Char → Prop
  | [] => True
  | c :: rest =>
    (c = ':' → rest.takeWhile isWord = [] ∨ String.ofList (rest.takeWhile isWord) ∈ names) ∧ CoversChars names rest

structure Covers (names : List String) (text : String) : Prop where
  chars : CoversChars names text.toList

variable {names : List String}

theorem mem_of_mem_scan {pending : Option (List Char)} {cs name : List Char} (covers : CoversChars names cs)
    (reading : ∀ back, pending = some back →
      back.reverse ++ cs.takeWhile isWord = [] ∨ String.ofList (back.reverse ++ cs.takeWhile isWord) ∈ names)
    (member : SqlPiece.placeholder name ∈ SqlPiece.scan pending cs) : String.ofList name ∈ names := by
  fun_induction SqlPiece.scan pending cs with
  | case1 => simp at member
  | case2 => simp at member
  | case3 back nonempty =>
    simp only [List.mem_singleton, SqlPiece.placeholder.injEq] at member
    subst member
    have read : back.reverse = [] ∨ String.ofList back.reverse ∈ names := by simpa using reading back rfl
    exact read.resolve_left (by simpa using nonempty)
  | case4 rest ih => exact ih covers.2 (fun back same => by cases same; simpa using covers.1 rfl) member
  | case5 c rest other ih =>
    simp only [List.mem_cons, reduceCtorEq, false_or] at member
    exact ih covers.2 (by simp) member
  | case6 c rest word ih =>
    exact ih covers.2 (fun back same => by cases same; simpa [word] using reading [] rfl) member
  | case7 rest word ih =>
    simp only [List.mem_cons, reduceCtorEq, false_or] at member
    exact ih covers.2 (fun back same => by cases same; simpa using covers.1 rfl) member
  | case8 c rest word other ih =>
    simp only [List.mem_cons, reduceCtorEq, false_or] at member
    exact ih covers.2 (by simp) member
  | case9 back c rest nonempty word ih =>
    exact ih covers.2 (fun b same => by cases same; simpa [word] using reading back rfl) member
  | case10 back rest nonempty word ih =>
    rcases List.mem_cons.mp member with same | later
    · cases same
      have read : back.reverse = [] ∨ String.ofList back.reverse ∈ names := by simpa [word] using reading back rfl
      exact read.resolve_left (by simpa using nonempty)
    · exact ih covers.2 (fun b same => by cases same; simpa using covers.1 rfl) later
  | case11 back c rest nonempty word other ih =>
    rcases List.mem_cons.mp member with same | later
    · cases same
      have read : back.reverse = [] ∨ String.ofList back.reverse ∈ names := by simpa [word] using reading back rfl
      exact read.resolve_left (by simpa using nonempty)
    · simp only [List.mem_cons, reduceCtorEq, false_or] at later
      exact ih covers.2 (by simp) later

theorem Covers.mem {text name : String} (h : Covers names text) (member : name ∈ written text) : name ∈ names := by
  obtain ⟨piece, inText, named⟩ := List.mem_filterMap.mp member
  cases piece with
  | char c => cases named
  | placeholder cs =>
    cases named
    exact mem_of_mem_scan h.chars (by simp) inText

namespace CoversChars

theorem mono {more : List String} (sub : names ⊆ more) {cs : List Char} (h : CoversChars names cs) :
    CoversChars more cs := by
  induction cs with
  | nil => trivial
  | cons c rest ih => exact ⟨fun colon => (h.1 colon).imp id fun member => sub member, ih h.2⟩

theorem of_not_mem {cs : List Char} (plain : ':' ∉ cs) : CoversChars names cs := by
  induction cs with
  | nil => trivial
  | cons c rest ih =>
    simp only [List.mem_cons, not_or] at plain
    exact ⟨fun colon => absurd colon.symm plain.1, ih plain.2⟩

theorem right {cs more : List Char} (h : CoversChars names (cs ++ more)) : CoversChars names more := by
  induction cs with
  | nil => exact h
  | cons c rest ih => exact ih h.2

theorem takeWhile_append_of_stop {cs more : List Char} (stop : more.takeWhile isWord = []) :
    (cs ++ more).takeWhile isWord = cs.takeWhile isWord := by
  induction cs with
  | nil => exact stop
  | cons c rest ih => simp only [List.cons_append, List.takeWhile_cons, ih]

theorem left {cs more : List Char} (stop : more.takeWhile isWord = []) (h : CoversChars names (cs ++ more)) :
    CoversChars names cs := by
  induction cs with
  | nil => trivial
  | cons c rest ih => exact ⟨takeWhile_append_of_stop stop ▸ h.1, ih h.2⟩

theorem append {cs more : List Char} (stop : more.takeWhile isWord = []) (first : CoversChars names cs)
    (second : CoversChars names more) : CoversChars names (cs ++ more) := by
  induction cs with
  | nil => exact second
  | cons c rest ih => exact ⟨(takeWhile_append_of_stop stop).symm ▸ first.1, ih first.2⟩

theorem append_of_not_mem {cs more : List Char} (plain : ':' ∉ cs) (second : CoversChars names more) :
    CoversChars names (cs ++ more) := by
  induction cs with
  | nil => exact second
  | cons c rest ih =>
    simp only [List.mem_cons, not_or] at plain
    exact ⟨fun colon => absurd colon.symm plain.1, ih plain.2⟩

end CoversChars

def IsSeparator (text : String) : Prop := Plain text ∧ text.toList.head?.any (fun c => !isWord c) = true

instance (text : String) : Decidable (IsSeparator text) :=
  inferInstanceAs (Decidable (Plain text ∧ text.toList.head?.any (fun c => !isWord c) = true))

theorem IsSeparator.stop {text : String} (h : IsSeparator text) (more : List Char) :
    (text.toList ++ more).takeWhile isWord = [] := by
  obtain ⟨-, first⟩ := h
  cases shape : text.toList with
  | nil => simp [shape] at first
  | cons c rest =>
    have other : isWord c = false := by simpa [shape] using first
    simp [other]

namespace Covers

theorem mono {more : List String} (sub : names ⊆ more) {text : String} (h : Covers names text) : Covers more text :=
  ⟨h.chars.mono sub⟩

theorem of_plain {text : String} (plain : Plain text) : Covers names text := ⟨.of_not_mem plain⟩

theorem after {text next : String} (plain : Plain text) (h : Covers names next) : Covers names (text ++ next) := by
  constructor
  rw [String.toList_append]
  exact .append_of_not_mem plain h.chars

theorem before {text sep : String} (h : Covers names text) (separator : IsSeparator sep) :
    Covers names (text ++ sep) := by
  constructor
  rw [String.toList_append]
  exact h.chars.append (by simpa using separator.stop []) (.of_not_mem separator.1)

theorem between {text sep next : String} (h : Covers names text) (separator : IsSeparator sep)
    (h' : Covers names next) : Covers names (text ++ sep ++ next) := by
  constructor
  rw [String.toList_append, String.toList_append, List.append_assoc]
  exact h.chars.append (separator.stop _) (.append_of_not_mem separator.1 h'.chars)

theorem intercalate {sep : String} (separator : IsSeparator sep) {parts : List String}
    (h : ∀ part ∈ parts, Covers names part) : Covers names (String.intercalate sep parts) := by
  induction parts with
  | nil => simpa using of_plain (by decide : Plain "")
  | cons part rest ih =>
    cases rest with
    | nil => simpa using h part List.mem_cons_self
    | cons next rest =>
      rw [String.intercalate_cons_cons]
      exact between (h part List.mem_cons_self) separator (ih fun part member => h part (List.mem_cons_of_mem _ member))

end Covers

theorem covers_placeholder {name : String} (word : name.toList.all isWord) (member : name ∈ names) :
    Covers names (":" ++ name) := by
  rw [List.all_eq_true] at word
  have noColon : ':' ∉ name.toList := fun inName => absurd (word _ inName) (by decide)
  have whole : name.toList.takeWhile isWord = name.toList := by
    rw [← List.append_nil name.toList, List.takeWhile_append_of_pos (by simpa using word)]
    simp
  constructor
  rw [String.toList_append]
  refine ⟨fun _ => .inr ?_, CoversChars.of_not_mem noColon⟩
  simpa [whole] using member

namespace Text

theorem isAsciiWord_of_lt {c : Char} (below : c.toNat < 0x30) : isAsciiWord c = false := by
  have codes : ∀ code < 0x30, isAsciiWord (Char.ofNat code) = false := by decide
  rw [← Char.ofNat_toNat c]
  exact codes c.toNat below

theorem isWord_of_isBlank {c : Char} (blank : isBlank c) : isWord c = false := by
  have apart : ∀ r ∈ blankTable, (∀ w ∈ wordTable, r.2 < w.1 ∨ w.2 < r.1) ∧ (r.1 < 0x80 → r.2 < 0x30) := by
    decide +kernel
  obtain ⟨r, inBlanks, within⟩ := List.any_eq_true.mp blank
  simp only [CodeRange.covers, Bool.and_eq_true, decide_eq_true_eq] at within
  obtain ⟨words, ascii⟩ := apart r inBlanks
  unfold isWord
  split
  · exact isAsciiWord_of_lt (by have := ascii (by omega); omega)
  · rw [Bool.eq_false_iff, ne_eq, inTable, List.any_eq_true]
    rintro ⟨w, inWords, inside⟩
    simp only [CodeRange.covers, Bool.and_eq_true, decide_eq_true_eq] at inside
    have := words w inWords
    omega

theorem isBlank_of_isWord {c : Char} (word : isWord c = true) : isBlank c = false := by
  cases blank : isBlank c with
  | false => rfl
  | true =>
    rw [isWord_of_isBlank blank] at word
    cases word

theorem takeWhile_isWord_of_blanks {blanks tail : List Char} (blank : ∀ c ∈ blanks, isBlank c = true)
    (h : blanks ≠ [] ∨ tail = []) : (blanks ++ tail).takeWhile isWord = [] := by
  cases blanks with
  | nil => simp [h.resolve_left (by simp)]
  | cons c rest => simp [isWord_of_isBlank (blank c List.mem_cons_self)]

theorem exists_of_afterKeyword? {ks cs rest : List Char} (h : afterKeyword? ks cs = some rest) :
    ∃ word, cs = word ++ rest := by
  induction ks generalizing cs with
  | nil =>
    cases h
    exact ⟨[], rfl⟩
  | cons k ks ih =>
    cases cs with
    | nil => cases h
    | cons c cs =>
      by_cases same : foldCase c = k
      · simp only [afterKeyword?, same, ↓reduceIte] at h
        obtain ⟨word, rfl⟩ := ih h
        exact ⟨c :: word, rfl⟩
      · simp [afterKeyword?, same] at h

theorem exists_of_afterBlanks? {cs rest : List Char} (h : afterBlanks? cs = some rest) :
    ∃ blanks, cs = blanks ++ rest ∧ blanks ≠ [] ∧ ∀ c ∈ blanks, isBlank c = true := by
  cases cs with
  | nil => cases h
  | cons c cs =>
    rcases blank : isBlank c with _ | _
    · simp [afterBlanks?, blank] at h
    · simp only [afterBlanks?, blank, ↓reduceIte, Option.some.injEq] at h
      refine ⟨c :: cs.takeWhile isBlank, ?_, by simp, ?_⟩
      · rw [← h, trimLeft, List.cons_append, List.takeWhile_append_dropWhile]
      · intro c' member
        rcases List.mem_cons.mp member with rfl | member
        · exact blank
        · exact List.all_eq_true.mp List.all_takeWhile c' member

end Text

namespace CoversChars

theorem trim {cs : List Char} (h : CoversChars names cs) : CoversChars names (trimRight (trimLeft cs)) := by
  have suffix : CoversChars names (trimLeft cs) := by
    rw [← List.takeWhile_append_dropWhile (p := isBlank) (l := cs)] at h
    exact h.right
  generalize trimLeft cs = rest at suffix
  have parts : rest = trimRight rest ++ ((rest.reverse.takeWhile isBlank).reverse ++ []) := by
    rw [List.append_nil, trimRight, ← List.reverse_append, List.takeWhile_append_dropWhile, List.reverse_reverse]
  rw [parts] at suffix
  apply suffix.left
  apply takeWhile_isWord_of_blanks _ (.inr rfl)
  intro c member
  exact List.all_eq_true.mp List.all_takeWhile c (List.mem_reverse.mp member)

theorem of_afterBlanks? {back rest tail : List Char} (after : afterBlanks? back = some rest)
    (h : CoversChars names (back.reverse ++ tail)) : CoversChars names rest.reverse := by
  obtain ⟨blanks, rfl, nonempty, blank⟩ := exists_of_afterBlanks? after
  rw [List.reverse_append, List.append_assoc] at h
  apply h.left
  apply takeWhile_isWord_of_blanks _ (.inl (by simpa using nonempty))
  intro c member
  exact blank c (List.mem_reverse.mp member)

theorem dropAs {back : List Char} (h : CoversChars names back.reverse) :
    CoversChars names (Sql.dropAs back).reverse := by
  unfold Sql.dropAs
  rcases keyword : afterKeyword? ['s', 'a'] back with _ | rest
  · exact h
  · rcases blanks : afterBlanks? rest with _ | before
    · simpa [blanks] using h
    · obtain ⟨word, rfl⟩ := exists_of_afterKeyword? keyword
      rw [List.reverse_append] at h
      simpa [blanks] using of_afterBlanks? blanks h

end CoversChars

theorem Covers.trim {text : String} (h : Covers names text) : Covers names (Text.trim text) := by
  constructor
  rw [Text.trim, String.toList_ofList]
  exact h.chars.trim

theorem Covers.splitAlias {text : String} (h : Covers names text) :
    Covers names (Sql.splitAlias text).1 ∧ ∀ aliasName, (Sql.splitAlias text).2 = some aliasName → Plain aliasName := by
  unfold Sql.splitAlias
  split
  · rename_i before name split
    unfold Sql.aliasSplit? at split
    dsimp only at split
    split at split
    · rename_i rest blanks
      split at split
      · cases split
      · simp only [Option.some.injEq, Prod.mk.injEq] at split
        obtain ⟨rfl, rfl⟩ := split
        have parts : text.toList = (text.toList.reverse.dropWhile Sql.isAliasChar).reverse ++
            (text.toList.reverse.takeWhile Sql.isAliasChar).reverse := by
          rw [← List.reverse_append, List.takeWhile_append_dropWhile, List.reverse_reverse]
        have chars := h.chars
        rw [parts] at chars
        refine ⟨⟨?_⟩, ?_⟩
        · rw [String.toList_ofList]
          exact (CoversChars.of_afterBlanks? blanks chars).dropAs
        · intro aliasName same
          cases same
          intro member
          rw [String.toList_ofList, List.mem_reverse] at member
          exact absurd (List.all_eq_true.mp List.all_takeWhile _ member) (by decide)
    · cases split
  · exact ⟨h, nofun⟩

namespace CoversChars

variable (d : Dialect)

theorem tablePart {cs : List Char} (h : CoversChars names cs) : CoversChars names (d.tablePart cs) := by
  have mark : d.quoteMark ≠ ':' ∧ isWord d.quoteMark = false := by cases d <;> decide
  unfold Dialect.tablePart
  split
  · exact h
  · refine ⟨fun colon => absurd colon mark.1, h.append (by simp [mark.2]) (of_not_mem ?_)⟩
    simpa using mark.1.symm

theorem intercalate_map {f : List Char → List Char} (kept : ∀ cs, CoversChars names cs → CoversChars names (f cs))
    {parts : List (List Char)} (h : CoversChars names (List.intercalate ['.'] parts)) :
    CoversChars names (List.intercalate ['.'] (parts.map f)) := by
  induction parts with
  | nil => exact h
  | cons part rest ih =>
    cases rest with
    | nil => simpa using kept part (by simpa using h)
    | cons next rest =>
      rw [List.intercalate_cons_cons, List.append_assoc] at h
      rw [List.map_cons, List.map_cons, List.intercalate_cons_cons, List.append_assoc]
      have after := ih (h.right.right)
      exact append rfl (kept part (h.left rfl)) (append_of_not_mem (by decide) after)

end CoversChars

theorem Covers.quoteTable (d : Dialect) {text : String} (h : Covers names text) : Covers names (d.quoteTable text) := by
  constructor
  rw [Dialect.quoteTable, String.toList_ofList, Dialect.tableChars]
  split
  · exact h.chars
  · apply CoversChars.intercalate_map fun cs => CoversChars.tablePart d
    rw [List.intercalate_splitOn]
    exact h.chars

theorem Covers.tableWithAlias (d : Dialect) {text aliasName : String} (h : Covers names text) (plain : Plain aliasName) :
    Covers names (d.tableWithAlias text aliasName) := by
  have quoted : Covers names (d.quoteTablePart aliasName) := by
    constructor
    rw [Dialect.quoteTablePart, String.toList_ofList]
    exact CoversChars.tablePart d (.of_not_mem plain)
  cases d
  · exact (h.quoteTable .mysql).between (by decide) quoted
  · exact (h.quoteTable .sqlite).between (by decide) quoted

end RelationFilter
