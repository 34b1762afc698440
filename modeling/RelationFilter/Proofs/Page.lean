import Mathlib.Algebra.Group.Int.Defs
import Mathlib.Algebra.Group.Nat.Defs
import RelationFilter.Proofs.Total

namespace RelationFilter

namespace Sql

def pageClause (size offset : Nat) : String :=
  "LIMIT " ++ toString size ++ if offset = 0 then "" else " OFFSET " ++ toString offset

theorem pageClause_ne_empty (size offset : Nat) : pageClause size offset ≠ "" := by simp [pageClause]

theorem limitOffset_some (d : Dialect) (size offset : Nat) : d.limitOffset (some size) offset = pageClause size offset := by
  by_cases first : offset = 0
  · simp [Dialect.limitOffset, pageClause, first]
  · simp [Dialect.limitOffset, pageClause, first, String.append_assoc]

theorem clauses_concat {first : String} (before : List String) {last : String} (started : first ≠ "") (ends : last ≠ "") :
    clauses (first :: before ++ [last]) = clauses (first :: before) ++ " " ++ last := by
  have whole := clauses_nested [] (first :: before) [last]
  rw [List.nil_append, List.nil_append] at whole
  rw [← whole, clauses_pair (clauses_ne_empty before started), if_neg ends]

end Sql

namespace Select

def unpaged (q : Select) : Select := { q with limit := none, offset := 0, unions := [] }

theorem sql_alone {q : Select} (plain : q.unions = []) :
    q.toStatement.sql = Sql.clauses [q.head, q.body.1, Sql.orderClause q.dialect q.order,
      q.dialect.limitOffset q.limit q.offset] := by
  rw [toStatement_of_no_unions plain]
  exact Sql.clauses_nested [q.head, q.body.1] [Sql.orderClause q.dialect q.order, q.dialect.limitOffset q.limit q.offset] []

theorem sql_paged {q : Select} (plain : q.unions = []) {size : Nat} (limited : q.limit = some size) :
    q.toStatement.sql = q.unpaged.toStatement.sql ++ " " ++ Sql.pageClause size q.offset := by
  have shown : q.head ≠ "" := Sql.selectClause_ne_empty _ _ _ _
  have rows : q.unpaged.toStatement.sql = Sql.clauses [q.head, q.body.1, Sql.orderClause q.dialect q.order] := by
    have ends : q.dialect.limitOffset none 0 = "" := rfl
    rw [sql_alone rfl]
    show Sql.clauses [q.head, q.body.1, Sql.orderClause q.dialect q.order, q.dialect.limitOffset none 0] = _
    rw [ends]
    simp [Sql.clauses, List.filter_cons]
  rw [sql_alone plain, limited, Sql.limitOffset_some, rows]
  exact Sql.clauses_concat [q.body.1, Sql.orderClause q.dialect q.order] shown (Sql.pageClause_ne_empty size q.offset)

theorem sql_with_unions (q : Select) :
    ∃ others, (q.unions = [] → others = "") ∧
      q.toStatement.sql =
        if others = "" then { q with unions := [] }.toStatement.sql
        else "(" ++ { q with unions := [] }.toStatement.sql ++ ") " ++ others := by
  refine ⟨(Sql.unionClause q.unions q.body.2).1, fun plain => by rw [plain]; rfl, ?_⟩
  rfl

end Select

namespace Search

variable {settings : Settings}

theorem pageOffset_eq (page size : Nat) :
    pageOffset page size = if (page - 1) * size < 2 ^ 64 then (page - 1) * size else 2 ^ 64 - 1 := by
  have limit : UInt64.size = 2 ^ 64 := rfl
  unfold pageOffset
  split <;> omega

theorem requestedSize_none (wide : settings.defaultPerPage < 2 ^ 64) :
    requestedSize settings none =
      if settings.defaultPerPage < 2 ^ 63 then (settings.defaultPerPage : Int) else settings.defaultPerPage - 2 ^ 64 := by
  have limit : UInt64.size = 18446744073709551616 := rfl
  rw [requestedSize, Option.getD_none, limit, Int.bmod_def]
  split_ifs <;> omega

theorem pageSize_of_pos {perPage : Option Int} (asked : 0 < requestedSize settings perPage) :
    pageSize settings perPage = max 1 (min (requestedSize settings perPage).toNat settings.maxPerPage) := by
  simp only [pageSize, if_neg (Int.not_le.mpr asked)]

theorem pageSize_of_nonpos {perPage : Option Int} (unasked : requestedSize settings perPage ≤ 0) :
    pageSize settings perPage = max 1 settings.defaultPerPage := by
  simp only [pageSize, if_pos unasked]

theorem pageSize_none (wide : settings.defaultPerPage < 2 ^ 64) :
    pageSize settings none =
      max 1 (if settings.defaultPerPage < 2 ^ 63 then min settings.defaultPerPage settings.maxPerPage
        else settings.defaultPerPage) := by
  have size := requestedSize_none wide
  by_cases fits : settings.defaultPerPage < 2 ^ 63
  · rw [if_pos fits] at size ⊢
    by_cases none : settings.defaultPerPage = 0
    · rw [pageSize_of_nonpos (by omega)]
      omega
    · rw [pageSize_of_pos (by omega), size]
      omega
  · rw [if_neg fits] at size ⊢
    exact pageSize_of_nonpos (by omega)

theorem pageSize_some_of_pos {n : Int} (pos : 0 < n) (some_rows : 1 ≤ settings.maxPerPage) :
    pageSize settings (some n) = min n.toNat settings.maxPerPage := by
  rw [pageSize_of_pos (show 0 < requestedSize settings (some n) from pos)]
  show max 1 (min n.toNat settings.maxPerPage) = min n.toNat settings.maxPerPage
  omega

theorem pageSize_some_of_nonpos {n : Int} (unasked : n ≤ 0) :
    pageSize settings (some n) = max 1 settings.defaultPerPage :=
  pageSize_of_nonpos (show requestedSize settings (some n) ≤ 0 from unasked)

/-- A positive size, given or by a default that is no negative number of 64 bits. -/
def AsksSize (settings : Settings) : Option Int → Prop
  | some n => 0 < n
  | none => settings.defaultPerPage < 2 ^ 63

theorem pageSize_le_iff (wide : settings.defaultPerPage < 2 ^ 64) (some_rows : 1 ≤ settings.maxPerPage)
    (perPage : Option Int) :
    pageSize settings perPage ≤ settings.maxPerPage ↔
      settings.defaultPerPage ≤ settings.maxPerPage ∨ AsksSize settings perPage := by
  cases perPage with
  | none =>
    rw [pageSize_none wide, AsksSize]
    split <;> omega
  | some n =>
    by_cases pos : 0 < n
    · rw [pageSize_some_of_pos pos some_rows, AsksSize]
      omega
    · rw [pageSize_some_of_nonpos (Int.not_lt.mp pos), AsksSize]
      omega

theorem pageSize_none_eq_iff (wide : settings.defaultPerPage < 2 ^ 64) (some_rows : 1 ≤ settings.maxPerPage) {n : Int}
    (unasked : n ≤ 0) :
    pageSize settings none = pageSize settings (some n) ↔
      settings.defaultPerPage ≤ settings.maxPerPage ∨ 2 ^ 63 ≤ settings.defaultPerPage := by
  rw [pageSize_none wide, pageSize_some_of_nonpos unasked]
  split <;> omega

variable {σ : Type} [Resolver σ] {s : σ} {q : Search} {plan : SearchPlan}

theorem plan_eq_ok_iff :
    (q.plan settings s).1 = .ok plan ↔ ∃ full, (q.fullSelect s).1 = .ok full ∧ plan = planOf settings q full := by
  rcases searched : (q.fullSelect s).1 with e | full
  · simp [Search.plan, searched, Except.map]
  · simp [Search.plan, searched, Except.map, eq_comm]

/-- The text of the statement that lists the rows: a statement of all of them with its page, and other statements of a union
behind it. -/
def Pages (sql : String) (full : Select) (page size : Nat) : Prop :=
  ∃ rows others, rows = full.unpaged.toStatement.sql ++ " " ++ Sql.pageClause size
      (if (page - 1) * size < 2 ^ 64 then (page - 1) * size else 2 ^ 64 - 1) ∧
    (full.unions = [] → others = "") ∧ sql = if others = "" then rows else "(" ++ rows ++ ") " ++ others

theorem pages_pageSelect (full : Select) (page size : Nat) :
    Pages (pageSelect full page size).toStatement.sql full page size := by
  obtain ⟨others, alone, shape⟩ := (pageSelect full page size).sql_with_unions
  have rows := Select.sql_paged (q := { pageSelect full page size with unions := [] }) rfl rfl
  rw [rows] at shape
  refine ⟨_, others, ?_, alone, shape⟩
  rw [← pageOffset_eq]
  rfl

/-- The page of a search is at least 1 and at least one row long, and it is written with the rows before it, within 64 bits.
It has at most as many rows as the settings allow just if the default does or a positive size is asked for, and no size is
the same as one that is not positive just if the default is allowed or no positive number of 64 bits. -/
theorem plan_capped_iff (wide : settings.defaultPerPage < 2 ^ 64) (some_rows : 1 ≤ settings.maxPerPage)
    (planned : (q.plan settings s).1 = .ok plan) :
    (1 ≤ plan.page ∧ (1 ≤ q.page → plan.page = q.page)) ∧
    (1 ≤ plan.perPage ∧
      (plan.perPage ≤ settings.maxPerPage ↔
        settings.defaultPerPage ≤ settings.maxPerPage ∨ AsksSize settings q.perPage)) ∧
    (∃ full, (q.fullSelect s).1 = .ok full ∧ Pages plan.models.sql full plan.page plan.perPage) ∧
    ∀ n ≤ 0, ∃ unset given, ({ q with perPage := none }.plan settings s).1 = .ok unset ∧
      ({ q with perPage := some n }.plan settings s).1 = .ok given ∧
      (unset.perPage = given.perPage ↔
        settings.defaultPerPage ≤ settings.maxPerPage ∨ 2 ^ 63 ≤ settings.defaultPerPage) := by
  obtain ⟨full, searched, rfl⟩ := plan_eq_ok_iff.mp planned
  have planned_as (perPage : Option Int) :
      ({ q with perPage }.plan settings s).1 = .ok (planOf settings { q with perPage } full) :=
    plan_eq_ok_iff.mpr ⟨full, searched, rfl⟩
  refine ⟨?_, ⟨?_, ?_⟩, ⟨full, searched, ?_⟩, fun n unasked => ⟨_, _, planned_as none, planned_as (some n), ?_⟩⟩
  · show 1 ≤ pageNumber q.page ∧ (1 ≤ q.page → (pageNumber q.page : Int) = q.page)
    unfold pageNumber
    omega
  · exact Nat.le_max_left 1 _
  · exact pageSize_le_iff wide some_rows q.perPage
  · exact pages_pageSelect full _ _
  · exact pageSize_none_eq_iff wide some_rows unasked

def postSearch (perPage : Option Int) : Search where
  select := { dialect := .mysql, columns := ["posts.*"], tables := ["posts"] }
  page := 3
  perPage := perPage
  skipTotal := true

theorem plan_capped_iff_posts :
    ∃ plan, ((postSearch none).plan {} Blog.scope).1 = .ok plan ∧ plan.perPage ≤ 500 ∧
      ∃ full, Pages plan.models.sql full 3 30 ∧ plan.models.sql = "SELECT `posts`.* FROM `posts` LIMIT 30 OFFSET 60" := by
  have planned : ((postSearch none).plan {} Blog.scope).1 = .ok _ := plan_eq_ok_iff.mpr ⟨_, rfl, rfl⟩
  obtain ⟨-, ⟨-, capped⟩, ⟨full, -, pages⟩, -⟩ := plan_capped_iff (by decide) (by decide) planned
  exact ⟨_, planned, capped.mpr (.inl (by decide)), full, pages, by decide +kernel⟩

/-- A default of a thousand rows is the page where a size of 0 is asked for, and is capped where none is. -/
theorem plan_not_capped_zero :
    let settings : Settings := { defaultPerPage := 1000 }
    ∃ plan unset, ((postSearch (some 0)).plan settings Blog.scope).1 = .ok plan ∧
      ((postSearch none).plan settings Blog.scope).1 = .ok unset ∧
      settings.maxPerPage < plan.perPage ∧
      plan.models.sql = "SELECT `posts`.* FROM `posts` LIMIT 1000 OFFSET 2000" ∧
      unset.perPage = settings.maxPerPage := by
  refine ⟨_, _, rfl, rfl, ?_, ?_, ?_⟩ <;> decide +kernel

end Search
end RelationFilter
