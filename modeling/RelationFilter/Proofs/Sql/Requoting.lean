import RelationFilter.Proofs.Sql.Quoting

namespace RelationFilter

namespace Text

theorem hasTwice_cons_of_ne {c sep : Char} (other : sep ≠ c) (cs : List Char) : hasTwice c (sep :: cs) = hasTwice c cs := by
  cases cs with
  | nil => rfl
  | cons b rest => simp [hasTwice, other]

theorem hasTwice_append_cons {c sep : Char} (other : sep ≠ c) (before after : List Char) :
    hasTwice c (before ++ sep :: after) = (hasTwice c before || hasTwice c after) := by
  induction before with
  | nil => simp [hasTwice_cons_of_ne other, hasTwice]
  | cons a rest ih =>
    cases rest with
    | nil => simp [hasTwice, other, hasTwice_cons_of_ne other]
    | cons b rest =>
      simp only [List.cons_append] at ih ⊢
      simp only [hasTwice, ih, Bool.or_assoc]

theorem hasTwice_iff {c : Char} {cs : List Char} : hasTwice c cs = true ↔ [c, c] <:+: cs := by
  induction cs with
  | nil => simp [hasTwice]
  | cons a rest ih =>
    rw [List.infix_cons_iff, ← ih]
    cases rest with
    | nil => simp [hasTwice]
    | cons b rest =>
      have pair : [c, c] <+: a :: b :: rest ↔ a = c ∧ b = c := by
        simp [List.cons_prefix_cons, eq_comm]
      simp [hasTwice, pair]

theorem splitOn_of_splitLast? {sep : Char} {cs before after : List Char} (h : splitLast? sep cs = some (before, after)) :
    cs.splitOn sep = before.splitOn sep ++ [after] := by
  have one : after.splitOnP (· == sep) = [after] := by
    apply List.splitOnP_eq_singleton
    intro c member
    simpa using fun same : c = sep => not_mem_after_splitLast? h (same ▸ member)
  rw [eq_append_of_splitLast? h, List.splitOn_eq_splitOnP, List.splitOnP_append_cons before after (by simp), one,
    List.splitOn_eq_splitOnP]

end Text

namespace Dialect

variable (d : Dialect)

theorem isVerbatim_append_cons {sep : Char} (paren : sep ≠ '(') (brace : sep ≠ '\x7b') (bracket : sep ≠ '[')
    (before after : List Char) : isVerbatim (before ++ sep :: after) = (isVerbatim before || isVerbatim after) := by
  have call : (before ++ sep :: after).contains '(' = (before.contains '(' || after.contains '(') := by
    simp [List.contains_eq_mem, Ne.symm paren]
  simp only [isVerbatim, call, Text.hasTwice_append_cons brace, Text.hasTwice_append_cons bracket]
  ac_rfl

theorem isVerbatim_dotted (before after : List Char) :
    isVerbatim (before ++ '.' :: after) = (isVerbatim before || isVerbatim after) :=
  isVerbatim_append_cons (by decide) (by decide) (by decide) before after

theorem isVerbatim_wrap (name : List Char) : isVerbatim (d.wrap name) = isVerbatim name := by
  have mark (before after : List Char) :
      isVerbatim (before ++ d.quoteMark :: after) = (isVerbatim before || isVerbatim after) := by
    cases d <;> exact isVerbatim_append_cons (by decide) (by decide) (by decide) before after
  have shape : d.wrap name = [] ++ d.quoteMark :: (name ++ d.quoteMark :: []) := by simp [wrap]
  have none : isVerbatim [] = false := by decide
  rw [shape, mark, mark, none, Bool.false_or, Bool.or_false]

theorem isVerbatim_tablePart (name : List Char) : isVerbatim (d.tablePart name) = isVerbatim name := by
  unfold tablePart
  split
  · rfl
  · exact d.isVerbatim_wrap name

theorem isVerbatim_columnPart (name : List Char) : isVerbatim (d.columnPart name) = isVerbatim name := by
  unfold columnPart
  split
  · rfl
  · exact d.isVerbatim_wrap name

theorem isVerbatim_intercalate (parts : List (List Char)) :
    isVerbatim (['.'].intercalate parts) = parts.any isVerbatim := by
  induction parts with
  | nil => decide
  | cons part rest ih =>
    cases rest with
    | nil => simp
    | cons next rest =>
      rw [List.intercalate_cons_cons, List.append_assoc, List.singleton_append, isVerbatim_dotted, ih]
      rfl

theorem isVerbatim_tableChars (name : List Char) : isVerbatim (d.tableChars name) = isVerbatim name := by
  unfold tableChars
  split
  · rfl
  · calc isVerbatim (['.'].intercalate ((name.splitOn '.').map d.tablePart))
        = (name.splitOn '.').any isVerbatim := by
          simp only [isVerbatim_intercalate, List.any_map, Function.comp_def, isVerbatim_tablePart]
      _ = isVerbatim name := by rw [← isVerbatim_intercalate, List.intercalate_splitOn]

theorem quoteMark_mem_wrap (name : List Char) : (d.wrap name).contains d.quoteMark = true := by simp [wrap]

theorem tablePart_tablePart (name : List Char) : d.tablePart (d.tablePart name) = d.tablePart name := by
  by_cases marked : name.contains d.quoteMark = true
  · simp only [tablePart, marked, ↓reduceIte]
  · simp only [tablePart, marked, d.quoteMark_mem_wrap, Bool.false_eq_true, ↓reduceIte]

theorem columnPart_columnPart (name : List Char) : d.columnPart (d.columnPart name) = d.columnPart name := by
  by_cases kept : (name.contains d.quoteMark || decide (name = ['*'])) = true
  · simp only [columnPart, kept, ↓reduceIte]
  · simp only [columnPart, kept, d.quoteMark_mem_wrap, Bool.true_or, Bool.false_eq_true, ↓reduceIte]

theorem dot_not_mem_tablePart {name : List Char} (whole : '.' ∉ name) : '.' ∉ d.tablePart name :=
  d.not_mem_of_erase (by cases d <;> decide) (d.erase_tablePart name) whole

theorem dot_not_mem_columnPart {name : List Char} (whole : '.' ∉ name) : '.' ∉ d.columnPart name :=
  d.not_mem_of_erase (by cases d <;> decide) (d.erase_columnPart name) whole

theorem tableChars_tableChars (name : List Char) : d.tableChars (d.tableChars name) = d.tableChars name := by
  cases verbatim : isVerbatim name with
  | true => simp only [tableChars, verbatim, ↓reduceIte]
  | false =>
    have shape : d.tableChars name = ['.'].intercalate ((name.splitOn '.').map d.tablePart) := by
      rw [tableChars, if_neg (by simp [verbatim])]
    have segments : (d.tableChars name).splitOn '.' = (name.splitOn '.').map d.tablePart := by
      rw [shape]
      apply List.splitOn_intercalate
      · intro part member
        obtain ⟨own, inName, rfl⟩ := List.mem_map.mp member
        exact d.dot_not_mem_tablePart (Text.not_mem_of_mem_splitOn inName)
      · simp
    rw [tableChars, if_neg (by rw [isVerbatim_tableChars, verbatim]; decide), segments, List.map_map]
    have again : d.tablePart ∘ d.tablePart = d.tablePart := funext d.tablePart_tablePart
    rw [again, shape]

theorem columnChars_columnChars (name : List Char) : d.columnChars (d.columnChars name) = d.columnChars name := by
  cases verbatim : isVerbatim name with
  | true => simp only [columnChars, verbatim, ↓reduceIte]
  | false =>
    cases cut : Text.splitLast? '.' name with
    | none =>
      have shape : d.columnChars name = d.columnPart name := by simp only [columnChars, verbatim, cut]; rfl
      have single : Text.splitLast? '.' (d.columnPart name) = none := by
        cases again : Text.splitLast? '.' (d.columnPart name) with
        | none => rfl
        | some parts =>
          have dotted : '.' ∈ d.columnPart name := by simp [Text.eq_append_of_splitLast? again]
          exact absurd dotted (d.dot_not_mem_columnPart (Text.not_mem_of_splitLast? cut))
      have kept : isVerbatim (d.columnPart name) = false := by rw [isVerbatim_columnPart, verbatim]
      rw [shape]
      simp only [columnChars, kept, single, columnPart_columnPart]
      rfl
    | some parts =>
      obtain ⟨table, column⟩ := parts
      have shape : d.columnChars name = d.tableChars table ++ '.' :: d.columnPart column := by
        simp only [columnChars, verbatim, cut]
        rfl
      have again : Text.splitLast? '.' (d.columnChars name) = some (d.tableChars table, d.columnPart column) := by
        rw [shape]
        exact Text.splitLast?_append '.' _ (d.dot_not_mem_columnPart (Text.not_mem_after_splitLast? cut))
      have kept : isVerbatim (d.columnChars name) = false := by
        rw [shape, isVerbatim_dotted, isVerbatim_tableChars, isVerbatim_columnPart, ← isVerbatim_dotted,
          ← Text.eq_append_of_splitLast? cut, verbatim]
      rw [columnChars, if_neg (by simp [kept]), again]
      simp only [tableChars_tableChars, columnPart_columnPart, shape]

/-- Without quote marks, and neither a call nor a placeholder in double braces or brackets. -/
structure IsBare (d : Dialect) (name : String) : Prop where
  unmarked : d.quoteMark ∉ name.toList
  noCall : '(' ∉ name.toList
  noBraces : ¬ ['\x7b', '\x7b'] <:+: name.toList
  noBrackets : ¬ ['[', '['] <:+: name.toList

def enquote (segment : String) : String := String.ofList (d.wrap segment.toList)

def unquote (text : String) : String := String.ofList (d.erase text.toList)

variable {d}

theorem isBare_iff {name : String} : d.IsBare name ↔ d.quoteMark ∉ name.toList ∧ isVerbatim name.toList = false := by
  have plain : isVerbatim name.toList = false ↔
      '(' ∉ name.toList ∧ ¬ ['\x7b', '\x7b'] <:+: name.toList ∧ ¬ ['[', '['] <:+: name.toList := by
    simp only [isVerbatim, ← Text.hasTwice_iff, Bool.or_eq_false_iff, Bool.not_eq_true, List.contains_eq_mem,
      decide_eq_false_iff_not, and_assoc]
  rw [plain]
  exact ⟨fun h => ⟨h.1, h.2, h.3, h.4⟩, fun h => ⟨h.1, h.2.1, h.2.2.1, h.2.2.2⟩⟩

instance (name : String) : Decidable (d.IsBare name) := decidable_of_iff _ isBare_iff.symm

theorem tablePart_of_unmarked {part : List Char} (unmarked : d.quoteMark ∉ part) : d.tablePart part = d.wrap part := by
  rw [tablePart, if_neg (by simpa using unmarked)]

theorem columnPart_of_unmarked {part : List Char} (unmarked : d.quoteMark ∉ part) :
    d.columnPart part = if part = ['*'] then part else d.wrap part := by
  simp [columnPart, unmarked]

theorem not_mem_of_mem_splitOn {name part : List Char} (unmarked : d.quoteMark ∉ name) (member : part ∈ name.splitOn '.') :
    d.quoteMark ∉ part := by
  have inside : part <:+: ['.'].intercalate (name.splitOn '.') := Text.infix_intercalate member
  rw [List.intercalate_splitOn] at inside
  exact fun inPart => unmarked (inside.subset inPart)

theorem quoteTable_of_unmarked {name : List Char} (plain : isVerbatim name = false) (unmarked : d.quoteMark ∉ name) :
    d.quoteTable (String.ofList name) =
      String.intercalate "." (((name.splitOn '.').map String.ofList).map d.enquote) := by
  have parts : (name.splitOn '.').map d.tablePart = (name.splitOn '.').map d.wrap :=
    List.map_congr_left fun part member => tablePart_of_unmarked (not_mem_of_mem_splitOn unmarked member)
  have texts : (((name.splitOn '.').map String.ofList).map d.enquote).map String.toList =
      (name.splitOn '.').map d.wrap := by
    simp [enquote, Function.comp_def]
  rw [← String.toList_inj, quoteTable, String.toList_ofList, String.toList_ofList, tableChars, if_neg (by simp [plain]),
    parts, String.toList_intercalate, texts]
  rfl

theorem quoteColumn_of_unmarked {name last : List Char} {before : List (List Char)} (plain : isVerbatim name = false)
    (unmarked : d.quoteMark ∉ name) (segments : name.splitOn '.' = before ++ [last]) :
    d.quoteColumn (String.ofList name) =
      String.intercalate "." ((before.map String.ofList).map d.enquote ++
        [if last = ['*'] then String.ofList last else d.enquote (String.ofList last)]) := by
  have final : String.ofList (d.columnPart last) =
      if last = ['*'] then String.ofList last else d.enquote (String.ofList last) := by
    rw [columnPart_of_unmarked (not_mem_of_mem_splitOn unmarked (by simp [segments]))]
    split <;> simp [enquote]
  cases cut : Text.splitLast? '.' name with
  | none =>
    have one : name.splitOn '.' = [name] := by
      rw [List.splitOn_eq_splitOnP]
      apply List.splitOnP_eq_singleton
      intro c member
      simpa using fun same : c = '.' => Text.not_mem_of_splitLast? cut (same ▸ member)
    obtain ⟨rfl, rfl⟩ : before = [] ∧ last = name := by
      have single : [] ++ [name] = before ++ [last] := one.symm.trans segments
      simpa [eq_comm] using List.append_inj' single rfl
    rw [quoteColumn, String.toList_ofList]
    simp only [columnChars, plain, cut]
    simpa using final
  | some parts =>
    obtain ⟨table, column⟩ := parts
    have whole := Text.eq_append_of_splitLast? cut
    obtain ⟨rfl, same⟩ := List.append_inj' (segments.symm.trans (Text.splitOn_of_splitLast? cut)) rfl
    obtain rfl : last = column := by simpa using same
    have inTable : isVerbatim table = false := by
      rw [whole, isVerbatim_dotted, Bool.or_eq_false_iff] at plain
      exact plain.1
    have quoted : d.quoteColumn (String.ofList name) =
        d.quoteTable (String.ofList table) ++ "." ++ String.ofList (d.columnPart last) := by
      rw [← String.toList_inj, quoteColumn, quoteTable]
      simp [columnChars, plain, cut]
    rw [quoted, quoteTable_of_unmarked inTable fun inTable => unmarked (by rw [whole]; simp [inTable]), final,
      String.intercalate_append_of_ne_nil (by simp) (by simp), String.intercalate_singleton]

theorem unquote_quoteTable {name : String} (unmarked : d.quoteMark ∉ name.toList) : d.unquote (d.quoteTable name) = name := by
  rw [unquote, quoteTable, String.toList_ofList, erase_tableChars, d.erase_of_not_mem unmarked, String.ofList_toList]

theorem unquote_quoteColumn {name : String} (unmarked : d.quoteMark ∉ name.toList) :
    d.unquote (d.quoteColumn name) = name := by
  rw [unquote, erase_quoteColumn, d.erase_of_not_mem unmarked, String.ofList_toList]

/-- A name that is quoted again does not change. A bare name is quoted segment by segment, but for the star at the end of a
column name, and is read back where the quote marks are left out. -/
theorem quote_idempotent (d : Dialect) (name : String) :
    d.quoteColumn (d.quoteColumn name) = d.quoteColumn name ∧
      d.quoteTable (d.quoteTable name) = d.quoteTable name ∧
      d.quoteColumnPart (d.quoteColumnPart name) = d.quoteColumnPart name ∧
      d.quoteTablePart (d.quoteTablePart name) = d.quoteTablePart name ∧
      (d.IsBare name →
        ∃ before last, Text.split '.' name = before ++ [last] ∧
          d.quoteTable name = String.intercalate "." ((before ++ [last]).map d.enquote) ∧
          d.quoteColumn name =
            String.intercalate "." (before.map d.enquote ++ [if last = "*" then last else d.enquote last]) ∧
          d.unquote (d.quoteTable name) = name ∧ d.unquote (d.quoteColumn name) = name) := by
  refine ⟨?_, ?_, ?_, ?_, ?_⟩
  · simp only [quoteColumn, String.toList_ofList, columnChars_columnChars]
  · simp only [quoteTable, String.toList_ofList, tableChars_tableChars]
  · simp only [quoteColumnPart, String.toList_ofList, columnPart_columnPart]
  · simp only [quoteTablePart, String.toList_ofList, tablePart_tablePart]
  · intro bare
    obtain ⟨before, last, segments⟩ : ∃ before last, name.toList.splitOn '.' = before ++ [last] :=
      ⟨_, _, (List.dropLast_concat_getLast (List.splitOn_ne_nil '.' name.toList)).symm⟩
    have plain := (isBare_iff.mp bare).2
    have table := quoteTable_of_unmarked plain bare.unmarked
    have column := quoteColumn_of_unmarked plain bare.unmarked segments
    have star : String.ofList last = "*" ↔ last = ['*'] := by rw [← String.toList_inj, String.toList_ofList]; rfl
    rw [String.ofList_toList] at table column
    refine ⟨before.map String.ofList, String.ofList last, ?_, ?_, ?_, unquote_quoteTable bare.unmarked,
      unquote_quoteColumn bare.unmarked⟩
    · rw [Text.split, segments, List.map_append, List.map_singleton]
    · rw [table, segments, List.map_append, List.map_singleton]
    · simp only [column, star]

theorem quote_idempotent_star :
    IsBare .mysql "db.posts.*" ∧ quoteColumn .mysql "db.posts.*" = "`db`.`posts`.*" ∧
      quoteTable .mysql "db.posts.*" = "`db`.`posts`.`*`" ∧ unquote .mysql "`db`.`posts`.*" = "db.posts.*" := by
  have bare : IsBare .mysql "db.posts.*" := by decide
  obtain ⟨before, last, segments, table, column, -, back⟩ := (quote_idempotent .mysql "db.posts.*").2.2.2.2 bare
  have parts : before ++ [last] = ["db", "posts"] ++ ["*"] := segments.symm.trans (by rfl)
  obtain ⟨rfl, same⟩ := List.append_inj' parts rfl
  obtain rfl : last = "*" := by simpa using same
  rw [if_pos rfl] at column
  have shown : quoteColumn .mysql "db.posts.*" = "`db`.`posts`.*" := column.trans (by rfl)
  exact ⟨bare, shown, table.trans (by rfl), shown ▸ back⟩

end Dialect
end RelationFilter
