import RelationFilter.Sql.Dialect

namespace RelationFilter

def Plain (text : String) : Prop := ':' ∉ text.toList

instance (text : String) : Decidable (Plain text) := inferInstanceAs (Decidable (':' ∉ text.toList))

theorem plain_append {a b : String} : Plain (a ++ b) ↔ Plain a ∧ Plain b := by
  simp [Plain, String.toList_append]

theorem Plain.append {a b : String} (ha : Plain a) (hb : Plain b) : Plain (a ++ b) := plain_append.mpr ⟨ha, hb⟩

end RelationFilter

namespace RelationFilter.Text

theorem eq_append_of_splitLast? {sep : Char} {cs before after : List Char} (h : splitLast? sep cs = some (before, after)) :
    cs = before ++ sep :: after := by
  unfold splitLast? at h
  split at h
  · cases h
  · rename_i c back shape
    cases h
    have whole := List.takeWhile_append_dropWhile (p := fun c => decide (c ≠ sep)) (l := cs.reverse)
    have atSep : c = sep := by
      have stopped := List.head?_dropWhile_not (fun c => decide (c ≠ sep)) cs.reverse
      rw [shape] at stopped
      simpa using stopped
    rw [shape, atSep] at whole
    calc cs = cs.reverse.reverse := cs.reverse_reverse.symm
      _ = (cs.reverse.takeWhile (fun c => decide (c ≠ sep)) ++ sep :: back).reverse := by rw [whole]
      _ = back.reverse ++ sep :: (cs.reverse.takeWhile fun c => decide (c ≠ sep)).reverse := by simp

theorem not_mem_after_splitLast? {sep : Char} {cs before after : List Char}
    (h : splitLast? sep cs = some (before, after)) : sep ∉ after := by
  unfold splitLast? at h
  split at h
  · cases h
  · cases h
    intro member
    have other := List.all_eq_true.mp List.all_takeWhile sep (List.mem_reverse.mp member)
    simp at other

theorem not_mem_of_splitLast? {sep : Char} {cs : List Char} (h : splitLast? sep cs = none) : sep ∉ cs := by
  unfold splitLast? at h
  split at h
  · rename_i shape
    intro member
    have whole := List.takeWhile_append_dropWhile (p := fun c => decide (c ≠ sep)) (l := cs.reverse)
    rw [shape, List.append_nil] at whole
    have inWhole : sep ∈ cs.reverse.takeWhile (fun c => decide (c ≠ sep)) := by
      rw [whole]
      exact List.mem_reverse.mpr member
    have other := List.all_eq_true.mp List.all_takeWhile sep inWhole
    simp at other
  · cases h

theorem splitLast?_append (sep : Char) (before : List Char) {after : List Char} (last : sep ∉ after) :
    splitLast? sep (before ++ sep :: after) = some (before, after) := by
  have others : ∀ c ∈ after.reverse, decide (c ≠ sep) = true := by
    intro c member
    simpa using fun same : c = sep => last (same ▸ List.mem_reverse.mp member)
  have back : (before ++ sep :: after).reverse = after.reverse ++ sep :: before.reverse := by simp
  unfold splitLast?
  rw [back, List.dropWhile_append_of_pos others, List.takeWhile_append_of_pos others]
  simp

theorem append_inj_of_takeWhile {p : Char → Bool} {cs cs' more more' : List Char} (all : ∀ c ∈ cs, p c = true)
    (all' : ∀ c ∈ cs', p c = true) (stop : more.takeWhile p = []) (stop' : more'.takeWhile p = [])
    (same : cs ++ more = cs' ++ more') : cs = cs' ∧ more = more' := by
  have read := congrArg (List.takeWhile p) same
  rw [List.takeWhile_append_of_pos all, List.takeWhile_append_of_pos all', stop, stop', List.append_nil,
    List.append_nil] at read
  subst read
  exact ⟨rfl, List.append_cancel_left same⟩

theorem infix_intercalate {α : Type} {sep part : List α} {parts : List (List α)} (member : part ∈ parts) :
    part <:+: sep.intercalate parts := by
  induction parts with
  | nil => cases member
  | cons first rest ih =>
    cases rest with
    | nil => simp [List.mem_singleton.mp member]
    | cons next rest =>
      rw [List.intercalate_cons_cons]
      rcases List.mem_cons.mp member with rfl | later
      · exact ((List.prefix_append ..).trans (List.prefix_append ..)).isInfix
      · exact (ih later).trans (List.suffix_append ..).isInfix

theorem not_mem_of_mem_splitOn {sep : Char} {part cs : List Char} (member : part ∈ cs.splitOn sep) : sep ∉ part := by
  rw [List.splitOn_eq_splitOnP] at member
  induction cs generalizing part with
  | nil =>
    rw [List.splitOnP_nil, List.mem_singleton] at member
    rw [member]
    exact List.not_mem_nil
  | cons c rest ih =>
    rw [List.splitOnP_cons_eq_if_modifyHead] at member
    split at member
    · rcases List.mem_cons.mp member with rfl | later
      · exact List.not_mem_nil
      · exact ih later
    · rename_i other
      cases parts : rest.splitOnP (· == sep) with
      | nil => exact absurd parts (List.splitOnP_ne_nil _ _)
      | cons first others =>
        rw [parts] at ih member
        rcases List.mem_cons.mp member with rfl | later
        · intro inPart
          rcases List.mem_cons.mp inPart with rfl | inFirst
          · simp at other
          · exact ih List.mem_cons_self inFirst
        · exact ih (List.mem_cons_of_mem _ later)

theorem subset_of_mem_splitOnP {p : Char → Bool} {part cs : List Char} (member : part ∈ cs.splitOnP p) : part ⊆ cs := by
  induction cs generalizing part with
  | nil =>
    rw [List.splitOnP_nil, List.mem_singleton] at member
    exact member ▸ List.Subset.refl _
  | cons c rest ih =>
    rw [List.splitOnP_cons_eq_if_modifyHead] at member
    split at member
    · rcases List.mem_cons.mp member with rfl | later
      · exact List.nil_subset _
      · exact List.subset_cons_of_subset c (ih later)
    · cases parts : rest.splitOnP p with
      | nil => exact absurd parts (List.splitOnP_ne_nil _ _)
      | cons first others =>
        rw [parts] at ih member
        rcases List.mem_cons.mp member with rfl | later
        · exact List.cons_subset_cons c (ih List.mem_cons_self)
        · exact List.subset_cons_of_subset c (ih (List.mem_cons_of_mem _ later))

end RelationFilter.Text

namespace RelationFilter.Dialect

variable (d : Dialect)

def erase (cs : List Char) : List Char := cs.filter fun c => c ≠ d.quoteMark

theorem erase_append (a b : List Char) : d.erase (a ++ b) = d.erase a ++ d.erase b := List.filter_append ..

theorem erase_of_not_mem {cs : List Char} (h : d.quoteMark ∉ cs) : d.erase cs = cs := by
  rw [erase, List.filter_eq_self]
  intro c member
  simpa using fun same : c = d.quoteMark => h (same ▸ member)

theorem erase_wrap (name : List Char) : d.erase (d.wrap name) = d.erase name := by simp [erase, wrap]

theorem erase_columnPart (name : List Char) : d.erase (d.columnPart name) = d.erase name := by
  unfold columnPart
  split
  · rfl
  · exact d.erase_wrap name

theorem erase_tablePart (name : List Char) : d.erase (d.tablePart name) = d.erase name := by
  unfold tablePart
  split
  · rfl
  · exact d.erase_wrap name

theorem erase_intercalate (parts : List (List Char)) :
    d.erase (List.intercalate ['.'] parts) = List.intercalate ['.'] (parts.map d.erase) := by
  have dot : d.erase ['.'] = ['.'] := by cases d <;> rfl
  induction parts with
  | nil => rfl
  | cons part rest ih =>
    cases rest with
    | nil => simp
    | cons next rest =>
      simp only [List.intercalate_cons_cons, List.map_cons, erase_append, dot]
      rw [ih, List.map_cons]

theorem erase_tableChars (name : List Char) : d.erase (d.tableChars name) = d.erase name := by
  unfold tableChars
  split
  · rfl
  · calc d.erase (List.intercalate ['.'] ((name.splitOn '.').map d.tablePart))
        = List.intercalate ['.'] ((name.splitOn '.').map d.erase) := by
          rw [erase_intercalate, List.map_map]
          congr 1
          exact List.map_congr_left fun part _ => d.erase_tablePart part
      _ = d.erase name := by rw [← erase_intercalate, List.intercalate_splitOn]

theorem erase_columnChars (name : List Char) : d.erase (d.columnChars name) = d.erase name := by
  unfold columnChars
  split
  · rfl
  · split
    · rename_i table column shape
      have dot : d.erase ['.'] = ['.'] := by cases d <;> rfl
      rw [Text.eq_append_of_splitLast? shape, ← List.singleton_append, ← List.singleton_append (l := column)]
      simp only [erase_append, erase_tableChars, erase_columnPart, dot]
    · exact d.erase_columnPart name

theorem erase_quoteColumn (name : String) : d.erase (d.quoteColumn name).toList = d.erase name.toList := by
  rw [quoteColumn, String.toList_ofList, erase_columnChars]

theorem quoteColumn_inj {name other : String} (h : d.quoteMark ∉ name.toList) (h' : d.quoteMark ∉ other.toList)
    (same : d.quoteColumn name = d.quoteColumn other) : name = other := by
  have erased := congrArg (fun t => d.erase t.toList) same
  simp only [erase_quoteColumn, d.erase_of_not_mem h, d.erase_of_not_mem h'] at erased
  exact String.toList_inj.mp erased

theorem not_mem_of_erase {text name : List Char} {c : Char} (other : c ≠ d.quoteMark) (same : d.erase text = d.erase name)
    (absent : c ∉ name) : c ∉ text := by
  intro member
  have kept : c ∈ d.erase text := by simp [erase, member, other]
  rw [same] at kept
  exact absent (List.mem_filter.mp kept).1

theorem mem_of_mem_quoteColumn {name : String} {c : Char} (other : c ≠ d.quoteMark)
    (member : c ∈ (d.quoteColumn name).toList) : c ∈ name.toList :=
  Decidable.byContradiction fun absent => d.not_mem_of_erase other (d.erase_quoteColumn name) absent member

theorem plain_quoteColumn {name : String} (h : Plain name) : Plain (d.quoteColumn name) :=
  fun member => h (d.mem_of_mem_quoteColumn (by cases d <;> decide) member)

theorem plain_quoteTablePart {name : String} (h : Plain name) : Plain (d.quoteTablePart name) := by
  rw [Plain, quoteTablePart, String.toList_ofList]
  exact d.not_mem_of_erase (by cases d <;> decide) (d.erase_tablePart _) h

theorem plain_tableWithAlias {table aliasName : String} (h : Plain table) (h' : Plain aliasName) :
    Plain (d.tableWithAlias table aliasName) := by
  have name : Plain (d.quoteTable table) := by
    rw [Plain, quoteTable, String.toList_ofList]
    exact d.not_mem_of_erase (by cases d <;> decide) (d.erase_tableChars _) h
  have quoted := d.plain_quoteTablePart h'
  cases d <;> exact (name.append (by decide)).append quoted

structure Quotable (P : List Char → Prop) (name : List Char) : Prop where
  wrapped : ∀ part, part ⊆ name → '.' ∉ part → P (d.wrap part)
  asIs : ∀ part, part ⊆ name → isVerbatim part = true ∨ part.contains d.quoteMark = true ∨ part = ['*'] → P part
  joined : ∀ left right, P left → P right → P (left ++ '.' :: right)

namespace Quotable

variable {d} {P : List Char → Prop} {name : List Char}

theorem tablePart (h : d.Quotable P name) {part : List Char} (within : part ⊆ name) (whole : '.' ∉ part) :
    P (d.tablePart part) := by
  unfold Dialect.tablePart
  split
  · rename_i marked
    exact h.asIs part within (.inr (.inl marked))
  · exact h.wrapped part within whole

theorem tableChars (h : d.Quotable P name) {table : List Char} (within : table ⊆ name) : P (d.tableChars table) := by
  unfold Dialect.tableChars
  split
  · rename_i verbatim
    exact h.asIs table within (.inl verbatim)
  · have parts : ∀ part ∈ table.splitOn '.', part ⊆ name ∧ '.' ∉ part := by
      intro part member
      have inside : part <:+: ['.'].intercalate (table.splitOn '.') := Text.infix_intercalate member
      rw [List.intercalate_splitOn] at inside
      exact ⟨List.Subset.trans inside.subset within, Text.not_mem_of_mem_splitOn member⟩
    have some_part : table.splitOn '.' ≠ [] := List.splitOn_ne_nil _ _
    generalize table.splitOn '.' = all at parts some_part
    induction all with
    | nil => contradiction
    | cons first rest ih =>
      have quoted := h.tablePart (parts first List.mem_cons_self).1 (parts first List.mem_cons_self).2
      cases rest with
      | nil => simpa using quoted
      | cons second rest =>
        rw [List.map_cons, List.map_cons, List.intercalate_cons_cons, List.append_assoc]
        exact h.joined _ _ quoted (ih (fun part member => parts part (List.mem_cons_of_mem _ member)) (by simp))

theorem columnChars (h : d.Quotable P name) : P (d.columnChars name) := by
  have columnPart {part : List Char} (within : part ⊆ name) (apart : '.' ∉ part) : P (d.columnPart part) := by
    unfold Dialect.columnPart
    split
    · rename_i kept
      rw [Bool.or_eq_true, decide_eq_true_eq] at kept
      exact h.asIs part within (.inr kept)
    · exact h.wrapped part within apart
  unfold Dialect.columnChars
  split
  · rename_i verbatim
    exact h.asIs name (List.Subset.refl _) (.inl verbatim)
  · split
    · rename_i table column shape
      have whole := Text.eq_append_of_splitLast? shape
      have apart := Text.not_mem_after_splitLast? shape
      have before : table ⊆ name := by
        rw [whole]
        exact List.subset_append_left _ _
      have after : column ⊆ name := by
        rw [whole]
        intro c here
        simp [here]
      exact h.joined _ _ (h.tableChars before) (columnPart after apart)
    · rename_i none
      exact columnPart (List.Subset.refl _) (Text.not_mem_of_splitLast? none)

end Quotable

theorem columnElements_inj {column other : String} (h : d.columnElements column = d.columnElements other) :
    d.quoteColumn column = d.quoteColumn other := by
  have same := congrArg String.toList h
  cases d <;>
  · unfold columnElements at same
    simp only [String.toList_append, List.append_assoc] at same
    rw [List.append_cancel_left_eq] at same
    have lengths := congrArg List.length same
    simp only [List.length_append] at lengths
    exact String.toList_inj.mp (List.append_inj same (by omega)).1

theorem plain_columnElements {column : String} (h : Plain column) : Plain (d.columnElements column) := by
  have quoted := d.plain_quoteColumn h
  cases d <;>
  · unfold columnElements
    simp only [plain_append, quoted, and_true]
    decide +kernel

end RelationFilter.Dialect
