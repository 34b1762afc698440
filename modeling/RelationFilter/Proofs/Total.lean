import RelationFilter.Path.TableScope
import RelationFilter.Proofs.Search
import RelationFilter.Proofs.Sql.AliasText
import RelationFilter.Proofs.Sql.Embedded

namespace RelationFilter

namespace Sql

theorem clauses_nested (before parts after : List String) :
    clauses (before ++ clauses parts :: after) = clauses (before ++ (parts ++ after)) := by
  have shown : ∀ text ∈ parts.filter (· ≠ ""), text ≠ "" := by simp
  rw [clauses.eq_def parts, clauses_joined before after shown]
  simp [clauses, List.filter_filter]

theorem clauses_pair {first : String} (shown : first ≠ "") (second : String) :
    clauses [first, second] = if second = "" then first else first ++ " " ++ second := by
  split
  · rename_i alone
    simp [clauses, shown, alone]
  · rename_i more
    simp [clauses, shown, more, String.intercalate_cons_cons]

theorem quoteColumn_of_verbatim (d : Dialect) {name : String} (verbatim : Dialect.isVerbatim name.toList = true) :
    d.quoteColumn name = name := by
  rw [Dialect.quoteColumn, Dialect.columnChars, if_pos verbatim, String.ofList_toList]

theorem selectColumn_call (d : Dialect) (start arguments stop name : String)
    (opens : start.toList.head?.any (fun c => !Text.isBlank c) = true) (closes : stop.toList.getLast? = some ')')
    (call : '(' ∈ start.toList) (named : IsAlias name) :
    selectColumn d (start ++ arguments ++ stop ++ " AS " ++ name) =
      start ++ arguments ++ stop ++ " AS " ++ d.quoteColumnPart name := by
  have verbatim : Dialect.isVerbatim (start ++ arguments ++ stop).toList = true := by
    simp [Dialect.isVerbatim, call]
  rw [selectColumn, splitAlias_as (isSource_call start arguments stop opens closes) named]
  simp only [quoteColumn_of_verbatim d verbatim]

def optionWord : Option String → String
  | some word => if word = "" then "" else word ++ " "
  | none => ""

theorem selectClause_single (d : Dialect) (column : String) (option : Option String) :
    selectClause d [column] false option = "SELECT " ++ optionWord option ++ selectColumn d column := by
  cases option with
  | none => simp [selectClause, optionWord, commaList]
  | some word =>
    by_cases empty : word = ""
    · simp [selectClause, optionWord, commaList, empty]
    · simp [selectClause, optionWord, commaList, empty, String.append_assoc]

end Sql

namespace Select

def head (q : Select) : String := Sql.selectClause q.dialect q.columns q.distinct q.option

def body (q : Select) : String × Bindings :=
  let joins := Sql.joinClause q.dialect q.joins q.bindings
  let filter := Sql.whereClause q.dialect q.filter joins.2
  let groupFilter := Sql.havingClause q.dialect q.groupFilter filter.2
  (Sql.clauses [Sql.fromClause q.dialect q.tables, joins.1, filter.1, Sql.groupClause q.dialect q.groups, groupFilter.1],
    groupFilter.2)

def suffix (q : Select) : String := Sql.orderAndLimit q.dialect q.order q.limit q.offset

def mainColumn (q : Select) (column : String) : String := q.mainReference?.elim column fun main => main ++ "." ++ column

theorem toStatement_of_no_unions {q : Select} (plain : q.unions = []) :
    q.toStatement = ⟨Sql.clauses [q.head, q.body.1, q.suffix], q.body.2⟩ := by
  let joins := Sql.joinClause q.dialect q.joins q.bindings
  let filter := Sql.whereClause q.dialect q.filter joins.2
  let groupFilter := Sql.havingClause q.dialect q.groupFilter filter.2
  let parts := [Sql.fromClause q.dialect q.tables, joins.1, filter.1, Sql.groupClause q.dialect q.groups, groupFilter.1]
  have none : Sql.unionClause q.unions groupFilter.2 = ("", groupFilter.2) := by rw [plain]; rfl
  have shape : q.toStatement =
      ⟨if q.suffix = "" then Sql.clauses (q.head :: parts) else Sql.clauses (q.head :: parts) ++ " " ++ q.suffix,
        groupFilter.2⟩ := by
    show Statement.mk (if (Sql.unionClause q.unions groupFilter.2).1 = "" then _ else _) _ = _
    rw [none, if_pos rfl]
    rfl
  have shown : Sql.clauses (q.head :: parts) ≠ "" := Sql.clauses_ne_empty parts (Sql.selectClause_ne_empty _ _ _ _)
  have main : Sql.clauses [Sql.clauses (q.head :: parts), q.suffix] = Sql.clauses [q.head, q.body.1, q.suffix] :=
    (Sql.clauses_nested [] (q.head :: parts) [q.suffix]).trans (Sql.clauses_nested [q.head] parts [q.suffix]).symm
  rw [shape, ← Sql.clauses_pair shown, main]
  rfl

end Select

/-- The contract of `Resolver.update`: what the resolved fields need are joins, and each row listed once. A union is neither, so
a resolver leaves the unions of a statement as they are, and a theorem on every resolver may assume it. -/
class Resolver.KeepsUnions (σ : Type) [Resolver σ] : Prop where
  unions_update (s : σ) (q : Select) : (Resolver.update s q).unions = q.unions

instance : Resolver.KeepsUnions RecordScope where
  unions_update s q := by
    obtain ⟨joins, distinct, updated⟩ := Search.update_eq s q
    show (s.update q).unions = q.unions
    rw [updated]

instance : Resolver.KeepsUnions TableScope where
  unions_update _ _ := rfl

namespace Search

variable {σ : Type} [Resolver σ] {s t : σ}

theorem unions_applyFilters {filters : List (Instant × Filter)} {q q' : Select}
    (h : applyFilters filters q s = (.ok q', t)) : q'.unions = q.unions := by
  induction filters generalizing q s with
  | nil =>
    cases h
    rfl
  | cons f rest ih =>
    simp only [applyFilters] at h
    split at h
    · cases h
    · exact (ih h).trans rfl

theorem unions_applySort {fields : List SortField} {q q' : Select} (h : applySort fields q s = (.ok q', t)) :
    q'.unions = q.unions := by
  induction fields generalizing q s with
  | nil =>
    cases h
    rfl
  | cons field rest ih =>
    simp only [applySort] at h
    split at h
    · cases h
    · exact (ih h).trans rfl

theorem unions_fullSelect [Resolver.KeepsUnions σ] {q : Search} {full : Select} (h : q.fullSelect s = (.ok full, t)) :
    full.unions = q.select.unions := by
  unfold fullSelect at h
  split at h
  · cases h
  · rename_i filtered _ filters
    split at h
    · cases h
    · rename_i sorted _ order
      cases h
      rw [Resolver.KeepsUnions.unions_update, unions_applySort order, unions_applyFilters filters]

def countHead (q : Select) (column : String) : String :=
  "SELECT " ++ Sql.optionWord q.option ++ "COUNT(DISTINCT " ++ q.dialect.quoteColumn (q.mainColumn column) ++ ") AS " ++
    q.dialect.quoteColumnPart "count"

theorem countSelect_eq (q : Select) (column : String) :
    countSelect q column =
      { q with
        distinct := false
        columns := ["COUNT(DISTINCT " ++ q.dialect.quoteColumn (q.mainColumn column) ++ ") AS count"]
        order := []
        limit := none
        offset := 0 } := by
  unfold countSelect Select.mainColumn
  cases q.mainReference? <;> rfl

theorem toStatement_countSelect {q : Select} (plain : q.unions = []) (column : String) :
    (countSelect q column).toStatement = ⟨Sql.clauses [countHead q column, q.body.1], q.body.2⟩ := by
  let counted := q.dialect.quoteColumn (q.mainColumn column)
  have call := Sql.selectColumn_call q.dialect "COUNT(DISTINCT " counted ")" "count" (by decide) (by decide) (by decide)
    (by decide)
  have written : "COUNT(DISTINCT " ++ counted ++ ")" ++ " AS " ++ "count" = "COUNT(DISTINCT " ++ counted ++ ") AS count" := by
    simp only [String.append_assoc]
    rfl
  have head : Sql.selectClause q.dialect ["COUNT(DISTINCT " ++ counted ++ ") AS count"] false q.option =
      countHead q column := by
    rw [Sql.selectClause_single, ← written, call, countHead]
    simp only [String.append_assoc]
    rfl
  have ends : Sql.clauses [countHead q column, q.body.1, ""] = Sql.clauses [countHead q column, q.body.1] := by
    simp [Sql.clauses, List.filter_cons]
  have counting : (countSelect q column).unions = [] := by
    rw [countSelect_eq]
    exact plain
  rw [Select.toStatement_of_no_unions counting, countSelect_eq]
  show Statement.mk (Sql.clauses [Sql.selectClause _ _ false _, q.body.1, ""]) q.body.2 = _
  rw [head, ends]

end Search

end RelationFilter
