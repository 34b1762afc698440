import RelationFilter.Proofs.Path.LinkText
import RelationFilter.Proofs.Sql.Harmless

namespace RelationFilter

def Undotted (text : String) : Prop := '.' ∉ text.toList

instance (text : String) : Decidable (Undotted text) := inferInstanceAs (Decidable ('.' ∉ text.toList))

theorem undotted_append {a b : String} : Undotted (a ++ b) ↔ Undotted a ∧ Undotted b := by
  simp [Undotted, String.toList_append]

theorem Sql.IsWord.undotted {text : String} (word : IsWord text) : Undotted text :=
  fun dotted => absurd (List.all_eq_true.mp word '.' dotted) (by decide)

theorem undotted_numbered (n : Nat) : Undotted (numbered "dataEach" n) :=
  (Sql.isWord_numbered (by decide) n).undotted

namespace Sql

def isGap (c : Char) : Bool := !isIdentifierChar c && !isQuoteMark c

def qualifiers (d : Dialect) (text : String) : List String :=
  ((d.erase text.toList).splitOnP fun c => !isIdentifierChar c).filterMap fun run =>
    (Text.splitLast? '.' run).map fun parts => String.ofList parts.1

/-- All columns in the text are of tables with these names. A subquery for the values of a table may name that one too, as it
gives it the name. -/
inductive RefersTo (d : Dialect) (names : List String) : String → Prop where
  | flat {text : String} (within : qualifiers d text ⊆ names) : RefersTo d names text
  | subquery {before source own : String} (name : IsIdentifier own) (outside : qualifiers d before ⊆ names)
    (inside : qualifiers d source ⊆ names) :
    RefersTo d names (before ++ "(SELECT " ++ own ++ ".value FROM " ++ source ++ " " ++ own ++ ")")

variable {d : Dialect} {names names' : List String} {text : String}

theorem RefersTo.mono (h : RefersTo d names text) (more : names ⊆ names') : RefersTo d names' text := by
  cases h with
  | flat within => exact .flat (List.Subset.trans within more)
  | subquery name outside inside =>
    exact .subquery name (List.Subset.trans outside more) (List.Subset.trans inside more)

def opensApart (text : String) : Bool := text.toList.head?.any isGap

def endsApart (text : String) : Bool := text.toList.getLast?.any isGap

theorem endsApart_append (before : String) {text : String} (h : endsApart text) : endsApart (before ++ text) := by
  unfold endsApart at h ⊢
  rw [String.toList_append, List.getLast?_append]
  cases last : text.toList.getLast? with
  | none => simp [last] at h
  | some c => rwa [last] at h

theorem qualifiers_split (before after : List Char) {c : Char} (gap : isGap c) :
    qualifiers d (String.ofList (before ++ c :: after)) =
      qualifiers d (String.ofList before) ++ qualifiers d (String.ofList after) := by
  obtain ⟨outside, unmarked⟩ := Bool.and_eq_true_iff.mp gap
  have kept : d.erase (before ++ c :: after) = d.erase before ++ c :: d.erase after := by
    have unquoted : c ≠ d.quoteMark := by
      rintro rfl
      simp [Quotes.isQuoteMark_quoteMark] at unmarked
    rw [Dialect.erase_append]
    simp [Dialect.erase, unquoted]
  have runs := List.splitOnP_append_cons (p := fun c => !isIdentifierChar c) (d.erase before) (d.erase after) outside
  simp only [qualifiers, String.toList_ofList, kept, runs, List.filterMap_append]

/-- Where one of two texts has a gap beside the other one, no column is made of both. -/
theorem qualifiers_append {before after : String} (apart : endsApart before ∨ opensApart after) :
    qualifiers d (before ++ after) = qualifiers d before ++ qualifiers d after := by
  have nil : qualifiers d (String.ofList []) = [] := rfl
  have joined : before ++ after = String.ofList (before.toList ++ after.toList) := by
    rw [← String.toList_append, String.ofList_toList]
  rcases apart with ends | opens
  · obtain ⟨c, last, gap⟩ := (Option.any_eq_true _ _).mp ends
    obtain ⟨first, whole⟩ := List.getLast?_eq_some_iff.mp last
    have text : before = String.ofList (first ++ [c]) := by rw [← whole, String.ofList_toList]
    rw [joined, whole, List.append_assoc, List.singleton_append, qualifiers_split _ _ gap, text, qualifiers_split _ _ gap,
      nil, List.append_nil, String.ofList_toList]
  · obtain ⟨c, first, gap⟩ := (Option.any_eq_true _ _).mp opens
    obtain ⟨rest, whole⟩ := List.head?_eq_some_iff.mp first
    have text : after = String.ofList ([] ++ c :: rest) := by rw [List.nil_append, ← whole, String.ofList_toList]
    rw [joined, whole, qualifiers_split _ _ gap, text, qualifiers_split _ _ gap, nil, List.nil_append,
      String.ofList_toList]

theorem qualifiers_of_undotted (undotted : Undotted text) : qualifiers d text = [] := by
  rw [qualifiers, List.filterMap_eq_nil_iff]
  intro run member
  rw [Option.map_eq_none_iff, Option.eq_none_iff_forall_ne_some]
  rintro ⟨before, after⟩ cut
  have inText : '.' ∈ text.toList := by
    apply (List.filter_sublist (p := fun c => c ≠ d.quoteMark)).subset
    apply Text.subset_of_mem_splitOnP member
    rw [Text.eq_append_of_splitLast? cut]
    simp
  exact undotted inText

theorem qualifiers_literal_append {text : String} (ends : endsApart text) (undotted : Undotted text) (after : String) :
    qualifiers d (text ++ after) = qualifiers d after := by
  rw [qualifiers_append (.inl ends), qualifiers_of_undotted undotted, List.nil_append]

theorem qualifiers_append_literal (before : String) {text : String} (opens : opensApart text)
    (undotted : Undotted text) : qualifiers d (before ++ text) = qualifiers d before := by
  rw [qualifiers_append (.inr opens), qualifiers_of_undotted undotted, List.append_nil]

theorem qualifiers_between (before : String) {text : String} (opens : opensApart text) (ends : endsApart text)
    (undotted : Undotted text) (after : String) :
    qualifiers d (before ++ text ++ after) = qualifiers d before ++ qualifiers d after := by
  rw [qualifiers_append (.inl (endsApart_append before ends)), qualifiers_append_literal before opens undotted]

theorem qualifiers_quoteColumn (name : String) : qualifiers d (d.quoteColumn name) = qualifiers d name := by
  rw [qualifiers, Dialect.erase_quoteColumn, qualifiers]

theorem qualifiers_column {row field : String} (hr : IsIdentifier row) (hf : IsIdentifier field)
    (undotted : Undotted field) : qualifiers d (row ++ "." ++ field) = [row] := by
  have name : IsIdentifier (row ++ "." ++ field) := isIdentifier_column hr hf
  have bare : d.quoteMark ∉ (row ++ "." ++ field).toList := name.not_mem (by cases d <;> decide)
  have one : (row ++ "." ++ field).toList.splitOnP (fun c => !isIdentifierChar c) = [(row ++ "." ++ field).toList] :=
    List.splitOnP_eq_singleton fun c member => by rw [name c member]; rfl
  have cut : Text.splitLast? '.' (row ++ "." ++ field).toList = some (row.toList, field.toList) := by
    rw [String.toList_append, String.toList_append, List.append_assoc]
    exact Text.splitLast?_append '.' _ undotted
  rw [qualifiers, d.erase_of_not_mem bare, one]
  simp only [List.filterMap_cons, List.filterMap_nil, cut, Option.map_some, String.ofList_toList]

theorem qualifiers_id {row : String} (hr : IsIdentifier row) : qualifiers d (row ++ ".id") = [row] := by
  have whole : row ++ ".id" = row ++ "." ++ "id" := by rw [String.append_assoc]; rfl
  rw [whole, qualifiers_column hr (by decide) (by decide)]

theorem qualifiers_columnElements (column : String) :
    qualifiers d (d.columnElements column) = qualifiers d column ++ qualifiers d column ++ qualifiers d column := by
  unfold Dialect.columnElements
  cases d <;>
  · dsimp only
    rw [qualifiers_append_literal _ (by decide) (by decide), qualifiers_between _ (by decide) (by decide) (by decide),
      qualifiers_between _ (by decide) (by decide) (by decide), qualifiers_literal_append (by decide) (by decide),
      qualifiers_quoteColumn]

theorem qualifiers_boundElements {placeholder : String} (undotted : Undotted placeholder) :
    qualifiers d (d.boundElements placeholder) = [] := by
  apply qualifiers_of_undotted
  cases d <;> exact undotted_append.mpr ⟨undotted_append.mpr ⟨by decide, undotted⟩, by decide⟩

theorem qualifiers_equation (column column' : String) :
    qualifiers d (column ++ " = " ++ column') = qualifiers d column ++ qualifiers d column' :=
  qualifiers_between _ (by decide) (by decide) (by decide) _

/-- The test that ties the row of a relation to the row that refers to it. -/
theorem qualifiers_tie {new row field : String} (hn : IsIdentifier new) (hr : IsIdentifier row) (hf : IsIdentifier field)
    (undotted : Undotted field) : qualifiers d (new ++ ".id = " ++ row ++ "." ++ field) = [new, row] := by
  have text : new ++ ".id = " ++ row ++ "." ++ field = new ++ ".id" ++ " = " ++ (row ++ "." ++ field) := by
    simp only [String.append_assoc]
    rfl
  rw [text, qualifiers_equation, qualifiers_id hn, qualifiers_column hr hf undotted]
  rfl

theorem qualifiers_columnIs (column id : String) :
    qualifiers d ((Condition.columnIs column (.string id)).toStatement d).sql = qualifiers d column := by
  rw [sql_columnIs, qualifiers_append_literal _ (by decide) (by decide), qualifiers_quoteColumn]

theorem undotted_slotTexts (n : Nat) : ∀ t ∈ slotTexts n, Undotted t := by
  intro t member
  obtain ⟨i, -, rfl⟩ := List.mem_map.mp member
  exact undotted_append.mpr ⟨by decide, (isWord_slot i).undotted⟩

theorem undotted_intercalate {parts : List String} (undotted : ∀ part ∈ parts, Undotted part) :
    Undotted (String.intercalate ", " parts) := by
  induction parts with
  | nil =>
    rw [String.intercalate_nil]
    decide
  | cons part rest ih =>
    have first := undotted part List.mem_cons_self
    have later := ih fun part member => undotted part (List.mem_cons_of_mem _ member)
    cases rest with
    | nil => simpa using first
    | cons next rest =>
      rw [String.intercalate_cons_cons]
      exact undotted_append.mpr ⟨undotted_append.mpr ⟨first, by decide⟩, later⟩

theorem qualifiers_membership (column : String) {values : List String} (undotted : ∀ v ∈ values, Undotted v) :
    qualifiers d (membership d column values false) ⊆ qualifiers d column := by
  match values with
  | [] =>
    rw [membership, qualifiers_of_undotted (by decide)]
    exact List.nil_subset _
  | [value] =>
    rw [membership, qualifiers_between _ (by decide) (by decide) (by decide), qualifiers_quoteColumn,
      qualifiers_of_undotted (undotted value List.mem_cons_self), List.append_nil]
    exact List.Subset.refl _
  | value :: next :: rest =>
    show qualifiers d (d.quoteColumn column ++ " IN (" ++ String.intercalate ", " (value :: next :: rest) ++ ")") ⊆ _
    rw [qualifiers_append_literal _ (by decide) (by decide), qualifiers_between _ (by decide) (by decide) (by decide),
      qualifiers_quoteColumn, qualifiers_of_undotted (undotted_intercalate undotted), List.append_nil]
    exact List.Subset.refl _

theorem qualifiers_valueIn (column : String) (ids : List String) :
    qualifiers d ((Condition.valueIn column (ids.map .string)).toStatement d).sql ⊆ qualifiers d column := by
  rw [sql_valueIn]
  exact qualifiers_membership _ (undotted_slotTexts _)

/-- The test of a reference from other records: the id of a record among the values of a column, or equal to it. -/
theorem refersTo_referrerCondition {row new segment field : String} {multiple : Bool} (hr : IsIdentifier row)
    (hs : IsIdentifier segment) (hn : new = row ++ "_" ++ segment) (hf : IsIdentifier field)
    (undotted : Undotted field) : RefersTo d [new, row] (Hop.referrerCondition d row segment field multiple) := by
  have target : IsIdentifier new := hn ▸ isIdentifier_glued hr hs
  cases multiple with
  | false =>
    have text : Hop.referrerCondition d row segment field false = new ++ "." ++ field ++ " = " ++ (row ++ ".id") := by
      simp only [Hop.referrerCondition, hn, String.append_assoc]
      rfl
    rw [text]
    refine .flat ?_
    rw [qualifiers_equation, qualifiers_column target hf undotted, qualifiers_id hr]
    exact List.Subset.refl _
  | true =>
    have text : Hop.referrerCondition d row segment field true =
        row ++ ".id" ++ " IN " ++ "(SELECT " ++ Hop.elementAlias row segment ++ ".value FROM " ++
          d.columnElements (new ++ "." ++ field) ++ " " ++ Hop.elementAlias row segment ++ ")" := by
      simp only [Hop.referrerCondition, hn, String.append_assoc]
      rfl
    rw [text]
    refine .subquery (isIdentifier_elementAlias hr hs) ?_ ?_
    · rw [qualifiers_append_literal _ (by decide) (by decide), qualifiers_id hr]
      simp
    · rw [qualifiers_columnElements, qualifiers_column target hf undotted]
      simp

end Sql

/-- The columns that a join names are of tables with these names: those of its condition, and those of its table, where that
is a call. -/
structure JoinOf.Scoped (d : Dialect) (names : List String) (j : Join) : Prop where
  table : '(' ∈ j.table.toList → Sql.qualifiers d j.table ⊆ names
  on : Sql.RefersTo d names (j.on.toStatement d).sql

end RelationFilter
