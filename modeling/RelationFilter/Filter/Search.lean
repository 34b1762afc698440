import RelationFilter.Filter.Sort
import RelationFilter.Settings

namespace RelationFilter

structure Search where
  select : Select
  filters : List (Instant × Filter) := []
  sort : List SortField := []
  page : Int := 1
  perPage : Option Int := none
  skipTotal : Bool := false
  countColumn : String := "id"

structure SearchPlan where
  models : Statement
  count : Option Statement
  page : Nat
  perPage : Nat

namespace Search

variable {σ : Type} [Resolver σ]

def applyFilters : List (Instant × Filter) → Select → σ → Except FilterError Select × σ
  | [], select, s => (.ok select, s)
  | (now, filter) :: rest, select, s =>
    match Filter.compile now filter s with
    | (.error e, s) => (.error e, s)
    | (.ok c, s) => applyFilters rest (select.restrict c) s

def applySort : List SortField → Select → σ → Except FilterError Select × σ
  | [], select, s => (.ok select, s)
  | field :: rest, select, s =>
    match field.term s with
    | (.error e, s) => (.error e, s)
    | (.ok term, s) => applySort rest { select with order := select.order ++ [term] } s

def pageNumber (page : Int) : Nat := max 1 page.toNat

def requestedSize (settings : Settings) (perPage : Option Int) : Int :=
  perPage.getD (Int.bmod settings.defaultPerPage UInt64.size)

/-- At least 1. A size that is not positive stands for the default, any other size is capped. -/
def pageSize (settings : Settings) (perPage : Option Int) : Nat :=
  let size := requestedSize settings perPage
  max 1 (if size ≤ 0 then settings.defaultPerPage else min size.toNat settings.maxPerPage)

def pageOffset (page size : Nat) : Nat := min ((page - 1) * size) (UInt64.size - 1)

def countSelect (select : Select) (column : String) : Select :=
  let counted := match select.mainReference? with
    | some main => select.dialect.quoteColumn (main ++ "." ++ column)
    | none => select.dialect.quoteColumn column
  { select with
    distinct := false
    columns := ["COUNT(DISTINCT " ++ counted ++ ") AS count"]
    order := []
    limit := none
    offset := 0 }

def pageSelect (select : Select) (page size : Nat) : Select :=
  { select with limit := some size, offset := pageOffset page size }

def fullSelect (q : Search) (s : σ) : Except FilterError Select × σ :=
  match applyFilters q.filters q.select s with
  | (.error e, s) => (.error e, s)
  | (.ok select, s) =>
    match applySort q.sort select s with
    | (.error e, s) => (.error e, s)
    | (.ok select, s) => (.ok (Resolver.update s select), s)

def planOf (settings : Settings) (q : Search) (select : Select) : SearchPlan :=
  let page := pageNumber q.page
  let size := pageSize settings q.perPage
  { models := (pageSelect select page size).toStatement
    count := if q.skipTotal then none else some (countSelect select q.countColumn).toStatement
    page := page
    perPage := size }

def plan (settings : Settings) (q : Search) (s : σ) : Except FilterError SearchPlan × σ :=
  let r := fullSelect q s
  (r.1.map (planOf settings q), r.2)

end Search
end RelationFilter
