import RelationFilter.Proofs.Schema.IndexText
import RelationFilter.Proofs.Sql.Harmless
import RelationFilter.Sql.Clause

namespace RelationFilter.Sql

open Text

def IsAliasText (name : String) : Prop := ∀ c ∈ name.toList, isAliasChar c = true

instance (name : String) : Decidable (IsAliasText name) :=
  decidable_of_iff (name.toList.all isAliasChar = true) List.all_eq_true

structure IsAlias (name : String) : Prop where
  filled : name ≠ ""
  chars : IsAliasText name

instance (name : String) : Decidable (IsAlias name) :=
  decidable_of_iff (name ≠ "" ∧ IsAliasText name) ⟨fun h => ⟨h.1, h.2⟩, fun h => ⟨h.1, h.2⟩⟩

structure IsSource (source : String) : Prop where
  filled : source ≠ ""
  first : ∀ c ∈ source.toList.head?, isBlank c = false
  last : ∀ c ∈ source.toList.getLast?, isBlank c = false
  kept : dropAs source.toList.reverse = source.toList.reverse

theorem isBlank_of_isAliasChar {c : Char} (h : isAliasChar c = true) : isBlank c = false := by
  simp only [isAliasChar, Bool.or_eq_true, decide_eq_true_eq] at h
  rcases h with (word | rfl) | rfl
  · exact isBlank_of_isWord word
  · decide
  · decide

theorem IsWord.aliasText {name : String} (h : IsWord name) : IsAliasText name := by
  intro c member
  simp [isAliasChar, List.all_eq_true.mp h c member]

theorem IsAliasText.append {a b : String} (ha : IsAliasText a) (hb : IsAliasText b) : IsAliasText (a ++ b) := by
  intro c member
  rw [String.toList_append] at member
  rcases List.mem_append.mp member with member | member
  · exact ha c member
  · exact hb c member

theorem afterBlanks?_eq_none {cs : List Char} (ink : ∀ c ∈ cs, isBlank c = false) : afterBlanks? cs = none := by
  cases cs with
  | nil => rfl
  | cons c rest => simp [afterBlanks?, ink c List.mem_cons_self]

theorem dropAs_of_ink {back : List Char} (ink : ∀ c ∈ back, isBlank c = false) : dropAs back = back := by
  unfold dropAs
  cases word : afterKeyword? ['s', 'a'] back with
  | none => rfl
  | some rest =>
    have none := afterBlanks?_eq_none fun c member => ink c (mem_of_mem_afterKeyword? word member)
    rw [Option.bind_some, none]
    rfl

theorem dropAs_of_close (back : List Char) : dropAs (')' :: back) = ')' :: back := by
  have other : foldCase ')' ≠ 's' := by decide
  simp [dropAs, afterKeyword?, other]

theorem isSource_of_ink {source : String} (filled : source ≠ "") (ink : ∀ c ∈ source.toList, isBlank c = false) :
    IsSource source := by
  refine ⟨filled, ?_, ?_, ?_⟩
  · intro c head
    exact ink c (List.mem_of_mem_head? head)
  · intro c last
    exact ink c (List.mem_of_getLast? last)
  · apply dropAs_of_ink
    intro c member
    exact ink c (List.mem_reverse.mp member)

theorem IsAlias.source {name : String} (h : IsAlias name) : IsSource name :=
  isSource_of_ink h.filled fun c member => isBlank_of_isAliasChar (h.chars c member)

theorem isSource_call (start arguments stop : String) (opens : start.toList.head?.any (fun c => !isBlank c) = true)
    (closes : stop.toList.getLast? = some ')') : IsSource (start ++ arguments ++ stop) := by
  obtain ⟨body, ends⟩ : ∃ body, stop.toList = body ++ [')'] := List.getLast?_eq_some_iff.mp closes
  obtain ⟨first, head, ink⟩ := (Option.any_eq_true _ _).mp opens
  obtain ⟨rest, begins⟩ := List.head?_eq_some_iff.mp head
  have shape : (start ++ arguments ++ stop).toList = first :: (rest ++ arguments.toList ++ body) ++ [')'] := by
    simp [begins, ends]
  refine ⟨?_, ?_, ?_, ?_⟩
  · intro empty
    rw [empty] at shape
    simp at shape
  · rw [shape]
    simpa using ink
  · rw [shape, List.getLast?_concat]
    simp only [Option.mem_def, Option.some.injEq, forall_eq']
    decide
  · rw [shape, List.reverse_concat]
    exact dropAs_of_close _

theorem isSource_columnElements (d : Dialect) (column : String) : IsSource (d.columnElements column) := by
  unfold Dialect.columnElements
  generalize d.quoteColumn column = c
  cases d with
  | mysql =>
    have call := isSource_call "JSON_TABLE(IF(JSON_VALID(" (c ++ ")," ++ c ++ ",JSON_ARRAY(" ++ c)
      ")),'$[*]' COLUMNS(`value` VARCHAR(255) PATH '$'))" (by decide) (by decide)
    simpa only [String.append_assoc] using call
  | sqlite =>
    have call := isSource_call "json_each(CASE WHEN json_valid(" (c ++ ") THEN " ++ c ++ " ELSE json_array(" ++ c)
      ") END)" (by decide) (by decide)
    simpa only [String.append_assoc] using call

theorem isSource_boundElements (d : Dialect) (placeholder : String) : IsSource (d.boundElements placeholder) := by
  cases d with
  | mysql =>
    exact isSource_call "JSON_TABLE(:" placeholder ",'$[*]' COLUMNS(`value` VARCHAR(255) PATH '$'))" (by decide)
      (by decide)
  | sqlite => exact isSource_call "json_each(:" placeholder ")" (by decide) (by decide)

theorem IsSource.trim {source : String} (h : IsSource source) : trim source = source := by
  rw [Text.trim, trimLeft_of_head? h.first, trimRight_of_getLast? h.last, String.ofList_toList]

theorem ink_of_getLast? {cs : List Char} {l : Char} (ends : cs.getLast? = some l) (ink : isBlank l = false) :
    ∀ c ∈ cs.getLast?, isBlank c = false := by
  rintro c last
  rwa [Option.some.inj (ends.symm.trans last)] at ink

theorem trim_spaced {before after : String} (filled : before ≠ "")
    (first : ∀ c ∈ before.toList.head?, isBlank c = false) (word : after ≠ "")
    (last : ∀ c ∈ after.toList.getLast?, isBlank c = false) :
    Text.trim (before ++ " " ++ after) = before ++ " " ++ after := by
  have whole : (before ++ " " ++ after).toList = before.toList ++ [' '] ++ after.toList := by simp
  have head : ∀ c ∈ (before ++ " " ++ after).toList.head?, isBlank c = false := by
    rw [whole, List.append_assoc, List.head?_append_of_ne_nil _ fun none => filled (String.toList_inj.mp none)]
    exact first
  have final : ∀ c ∈ (before ++ " " ++ after).toList.getLast?, isBlank c = false := by
    rw [whole, List.getLast?_append_of_ne_nil _ fun none => word (String.toList_inj.mp none)]
    exact last
  rw [Text.trim, trimLeft_of_head? head, trimRight_of_getLast? final, String.ofList_toList]

/-- What stands before the alias is the source, without the word `AS` at its end. -/
theorem splitAlias_trim {before name : String} (filled : before ≠ "")
    (first : ∀ c ∈ before.toList.head?, isBlank c = false) (last : ∀ c ∈ before.toList.getLast?, isBlank c = false)
    (named : IsAlias name) :
    splitAlias (Text.trim (before ++ " " ++ name)) = (String.ofList (dropAs before.toList.reverse).reverse, some name) := by
  have whole : (before ++ " " ++ name).toList = before.toList ++ [' '] ++ name.toList := by simp
  have filled' : name.toList ≠ [] := fun none => named.filled (String.toList_inj.mp none)
  have back : (before ++ " " ++ name).toList.reverse = name.toList.reverse ++ ' ' :: before.toList.reverse := by
    rw [whole, List.reverse_append, List.reverse_append, List.reverse_singleton, List.singleton_append]
  have letters : ∀ c ∈ name.toList.reverse, isAliasChar c = true := by
    intro c member
    exact named.chars c (List.mem_reverse.mp member)
  have stop : isAliasChar ' ' = false := by decide
  have blanks : afterBlanks? (' ' :: before.toList.reverse) = some before.toList.reverse := by
    apply afterBlanks?_of_head?
    rw [List.head?_reverse]
    exact last
  have split : aliasSplit? (before ++ " " ++ name).toList =
      some ((dropAs before.toList.reverse).reverse, name.toList) := by
    simp only [aliasSplit?, back, List.takeWhile_append_of_pos letters, List.dropWhile_append_of_pos letters]
    simp [stop, blanks, filled']
  rw [trim_spaced filled first named.filled named.source.last, splitAlias, split]
  simp only [String.ofList_toList]

theorem splitAlias_spaced {source name : String} (h : IsSource source) (named : IsAlias name) :
    splitAlias (Text.trim (source ++ " " ++ name)) = (source, some name) := by
  rw [splitAlias_trim h.filled h.first h.last named, h.kept, List.reverse_reverse, String.ofList_toList]

theorem splitAlias_as {source name : String} (h : IsSource source) (named : IsAlias name) :
    splitAlias (Text.trim (source ++ " AS " ++ name)) = (source, some name) := by
  have whole : source ++ " AS " ++ name = source ++ " AS" ++ " " ++ name := by
    rw [← String.toList_inj]
    simp
  have shape : (source ++ " AS").toList = source.toList ++ [' ', 'A', 'S'] := by simp
  have filled : source.toList ≠ [] := fun none => h.filled (String.toList_inj.mp none)
  have word : dropAs (source ++ " AS").toList.reverse = source.toList.reverse := by
    have keyword : afterKeyword? ['s', 'a'] ('S' :: 'A' :: ' ' :: source.toList.reverse) =
        some (' ' :: source.toList.reverse) := by
      have s : foldCase 'S' = 's' := by decide
      have a : foldCase 'A' = 'a' := by decide
      simp [afterKeyword?, s, a]
    have blanks : afterBlanks? (' ' :: source.toList.reverse) = some source.toList.reverse := by
      apply afterBlanks?_of_head?
      rw [List.head?_reverse]
      exact h.last
    have back : (source ++ " AS").toList.reverse = 'S' :: 'A' :: ' ' :: source.toList.reverse := by simp [shape]
    rw [back, dropAs, keyword, Option.bind_some, blanks, Option.getD_some]
  have first : ∀ c ∈ (source ++ " AS").toList.head?, isBlank c = false := by
    rw [shape, List.head?_append_of_ne_nil _ filled]
    exact h.first
  have last : ∀ c ∈ (source ++ " AS").toList.getLast?, isBlank c = false := by
    rw [shape, List.getLast?_append_of_ne_nil _ (by simp)]
    exact ink_of_getLast? (l := 'S') rfl (by decide)
  rw [whole, splitAlias_trim (by simp) first last named, word, List.reverse_reverse, String.ofList_toList]

theorem directionSplit?_spaced {column : String} (h : IsSource column) (direction : Direction) :
    directionSplit? (column ++ " " ++ direction.keyword).toList = some (column.toList, direction) := by
  have blanks : afterBlanks? (' ' :: column.toList.reverse) = some column.toList.reverse := by
    apply afterBlanks?_of_head?
    rw [List.head?_reverse]
    exact h.last
  have c : foldCase 'C' = 'c' := by decide
  have s : foldCase 'S' = 's' := by decide
  cases direction with
  | ascending =>
    have a : foldCase 'A' = 'a' := by decide
    have back : (column ++ " " ++ Direction.ascending.keyword).toList.reverse =
        'C' :: 'S' :: 'A' :: ' ' :: column.toList.reverse := by simp [Direction.keyword]
    rw [directionSplit?, back]
    simp [afterKeyword?, c, s, a, blanks]
  | descending =>
    have e : foldCase 'E' = 'e' := by decide
    have d : foldCase 'D' = 'd' := by decide
    have back : (column ++ " " ++ Direction.descending.keyword).toList.reverse =
        'C' :: 'S' :: 'E' :: 'D' :: ' ' :: column.toList.reverse := by simp [Direction.keyword]
    rw [directionSplit?, back]
    simp [afterKeyword?, c, s, e, d, blanks]

theorem orderColumn_spaced (d : Dialect) {column : String} (h : IsSource column) (direction : Direction) :
    orderColumn d (column ++ " " ++ direction.keyword) = d.quoteColumn column ++ " " ++ direction.keyword := by
  have filled : direction.keyword ≠ "" := by cases direction <;> decide
  have ink : ∀ c ∈ direction.keyword.toList.getLast?, isBlank c = false := by
    cases direction <;> exact ink_of_getLast? (l := 'C') rfl (by decide)
  simp only [orderColumn, trim_spaced h.filled h.first filled ink, directionSplit?_spaced h, String.ofList_toList]

end RelationFilter.Sql
