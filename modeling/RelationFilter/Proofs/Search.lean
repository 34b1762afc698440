import Mathlib.Data.List.Nodup
import RelationFilter.Filter.Search
import RelationFilter.Proofs.Filter.Values

namespace RelationFilter

namespace Select

/-- Neither joins nor conditions, values or unions. -/
structure IsBare (q : Select) : Prop where
  joins : q.joins = []
  filter : q.filter = none
  groupFilter : q.groupFilter = none
  unions : q.unions = []
  bindings : q.bindings = Bindings.empty

def FilterSound (P : String → Json → Prop) (q : Select) : Prop := ∀ c, q.filter = some c → c.Sound P

def FilterBinds (q : Select) (name : String) : Prop := ∃ c, q.filter = some c ∧ c.Binds name

theorem FilterSound.restrict {P : String → Json → Prop} {q : Select} {c : Condition} (h : q.FilterSound P)
    (h' : c.Sound P) : (q.restrict c).FilterSound P := by
  rintro whole ⟨⟩
  unfold both
  split
  · rename_i current same
    exact ⟨h current same, h', trivial⟩
  · exact h'

theorem FilterBinds.restrict {q : Select} {name : String} (h : q.FilterBinds name) (c : Condition) :
    (q.restrict c).FilterBinds name := by
  obtain ⟨current, same, binds⟩ := h
  exact ⟨_, by rw [Select.restrict, same]; rfl, .all List.mem_cons_self binds⟩

theorem filterBinds_restrict {q : Select} {c : Condition} {name : String} (binds : c.Binds name) :
    (q.restrict c).FilterBinds name := by
  refine ⟨_, rfl, ?_⟩
  unfold both
  split
  · exact .all (by simp) binds
  · exact binds

end Select

namespace Filter

theorem compile_binds {σ : Type} [Resolver σ] {now : Instant} {filter : Filter} {s t : σ} {c : Condition}
    (h : compile now filter s = (.ok c, t)) :
    ∃ leaves, resolveAll now (comparisons filter) s = (.ok leaves, t) ∧
      ∀ P, (∀ l ∈ leaves, l.Sound P) → c.Sound P ∧ ∀ l ∈ leaves, ∀ name ∈ l.names, c.Binds name := by
  obtain ⟨items, compiled, rfl⟩ := compile_eq_ok (by rw [h])
  rw [h] at compiled
  obtain ⟨leaves, resolved, read⟩ := compileNodes_reading now filter s t items compiled
  obtain ⟨parts, rfl, each, once, -⟩ := read leaves 0 fun i _ => by simp
  obtain ⟨f, reads, same, -⟩ := Run.conditionOf_reading (Resolver.dialect (compile now filter s).2) parts each
  have numbers : f.numbers.Perm (List.range leaves.length) := by
    rw [List.range_eq_range']
    exact same.trans once
  refine ⟨leaves, resolved, ?_⟩
  intro P sound
  obtain ⟨whole, binds⟩ := reads.carries sound
  refine ⟨whole, ?_⟩
  intro l member name inLeaf
  obtain ⟨n, place⟩ := List.mem_iff_getElem?.mp member
  obtain ⟨bound, -⟩ := List.getElem?_eq_some_iff.mp place
  exact binds n (numbers.mem_iff.mpr (List.mem_range.mpr bound)) l place name inLeaf

theorem map_leaf_resolved {σ : Type} [Resolver σ] {now : Instant} {cs : List (Term × Comparator × Term)} {s t : σ}
    {leaves : List Leaf} (h : resolveAll now cs s = (.ok leaves, t)) :
    (resolved now cs leaves).map Resolved.leaf = leaves := by
  rw [resolved, List.map_map]
  exact List.map_snd_zip (Nat.le_of_eq (length_of_resolveAll h))

end Filter

namespace Search

open RelationFilter.Filter

theorem applyFilters_binds {σ : Type} [Resolver σ] {filters : List (Instant × Filter)} {q q' : Select} {s t : σ}
    (h : applyFilters filters q s = (.ok q', t)) :
    ∃ all, resolveFilters filters s = (.ok all, t) ∧ q' = { q with filter := q'.filter } ∧
      ∀ P, (∀ r ∈ all, r.leaf.Sound P) → q.FilterSound P →
        q'.FilterSound P ∧ (∀ name, q.FilterBinds name → q'.FilterBinds name) ∧
          ∀ r ∈ all, ∀ name ∈ r.leaf.names, q'.FilterBinds name := by
  induction filters generalizing q s with
  | nil =>
    cases h
    exact ⟨[], rfl, rfl, fun P _ sound => ⟨sound, fun _ => id, by simp⟩⟩
  | cons f rest ih =>
    obtain ⟨now, filter⟩ := f
    simp only [applyFilters] at h
    rcases first : compile now filter s with ⟨e | c, u⟩
    · simp [first] at h
    · simp only [first] at h
      obtain ⟨leaves, resolvedLeaves, binds⟩ := compile_binds first
      obtain ⟨more, others, shape, later⟩ := ih h
      have whole : resolveFilters ((now, filter) :: rest) s = (.ok (resolved now (comparisons filter) leaves ++ more), t) := by
        simp [resolveFilters, resolvedLeaves, others, Except.map]
      refine ⟨_, whole, shape, ?_⟩
      intro P sound before
      have leaf := map_leaf_resolved resolvedLeaves
      have ofFirst : ∀ r ∈ resolved now (comparisons filter) leaves, r.leaf ∈ leaves :=
        fun r member => leaf ▸ List.mem_map_of_mem member
      obtain ⟨whole, bound⟩ := binds P fun l member => by
        obtain ⟨r, inFirst, rfl⟩ := List.mem_map.mp (leaf.symm ▸ member)
        exact sound r (List.mem_append_left _ inFirst)
      have inRest : ∀ r ∈ more, r.leaf.Sound P := fun r member => sound r (List.mem_append_right _ member)
      obtain ⟨after, kept, new⟩ := later P inRest (before.restrict whole)
      refine ⟨after, fun name earlier => kept name (earlier.restrict c), ?_⟩
      intro r member name inLeaf
      rcases List.mem_append.mp member with inFirst | inRest
      · exact kept name (Select.filterBinds_restrict (bound r.leaf (ofFirst r inFirst) name inLeaf))
      · exact new r inRest name inLeaf

theorem applySort_joins {fields : List SortField} {q q' : Select} {s t : RecordScope}
    (h : applySort fields q s = (.ok q', t)) :
    q' = { q with order := q'.order } ∧ ∀ P known, s.JoinsSound P known → t.JoinsSound P known := by
  induction fields generalizing q s with
  | nil =>
    cases h
    exact ⟨rfl, fun _ _ => id⟩
  | cons field rest ih =>
    simp only [applySort] at h
    rcases first : field.term s with ⟨e | term, u⟩
    · simp [first] at h
    · simp only [first] at h
      obtain ⟨shape, joins⟩ := ih h
      refine ⟨shape, ?_⟩
      intro P known sound
      apply joins P known
      unfold SortField.term at first
      split at first
      · cases first
        exact sound
      · rcases outcome : (s.visit field.name).outcome with cause | o
        · simp [Resolver.resolve, RecordScope.resolve_of_error outcome] at first
        · simp only [Resolver.resolve, RecordScope.resolve_of_ok outcome] at first
          split at first
          · rename_i sortable
            cases first
            have after := sound.after (RecordScope.visits (s := s) field.name)
            have unbound : o.bindings.names = [] := by
              simp only [SortField.isSortable, Bool.and_eq_true, decide_eq_true_eq] at sortable
              simpa [Bindings.size, Bindings.names] using sortable.1.1
            rwa [RecordScope.Visit.names, outcome, Except.toOption, Option.elim_some, unbound, List.append_nil] at after
          · cases first

theorem update_eq (s : RecordScope) (q : Select) :
    ∃ joins distinct, s.update q = { q with joins := joins, distinct := distinct } := by
  have step : ∀ (joins : List Join) (q : Select),
      ∃ more, joins.foldl RecordScope.addJoin q = { q with joins := more } := by
    intro joins
    induction joins with
    | nil => exact fun q => ⟨q.joins, rfl⟩
    | cons first rest ih =>
      intro q
      obtain ⟨joins, one⟩ : ∃ joins, RecordScope.addJoin q first = { q with joins := joins } := by
        rcases split : Sql.splitAlias (Text.trim (first.table ++ " " ++ first.aliasName)) with ⟨name, aliasName⟩
        simp only [RecordScope.addJoin, Select.join, split]
        exact ⟨_, rfl⟩
      obtain ⟨more, shape⟩ := ih (RecordScope.addJoin q first)
      rw [one] at shape
      exact ⟨more, by rw [List.foldl_cons, one, shape]⟩
  unfold RecordScope.update
  split
  · exact ⟨q.joins, q.distinct, rfl⟩
  · obtain ⟨more, shape⟩ := step s.joins { q with distinct := true }
    exact ⟨more, true, shape⟩

/-- A search that goes well resolves the comparisons of its filters, and its statement is sound for all their values. -/
theorem fullSelect_sound {q : Search} {s t : RecordScope} {select : Select} (bare : q.select.IsBare)
    (fresh : s.joins = []) (h : fullSelect q s = (.ok select, t)) :
    ∃ all u placed, resolveFilters q.filters s = (.ok all, u) ∧ Brings s u all placed ∧
      ∀ P, IsFree P → (∀ p ∈ placed, P (numbered "f" p.1) p.2) →
        select.Sound P ∧ ∀ p ∈ placed, select.FilterBinds (numbered "f" p.1) := by
  unfold fullSelect at h
  rcases filtered : applyFilters q.filters q.select s with ⟨e | q', u⟩
  · simp [filtered] at h
  · simp only [filtered] at h
    rcases sorted : applySort q.sort q' u with ⟨e | q'', u'⟩
    · simp [sorted] at h
    · simp only [sorted, Prod.mk.injEq, Except.ok.injEq] at h
      obtain ⟨rfl, rfl⟩ := h
      obtain ⟨all, resolved, filterOnly, binds⟩ := applyFilters_binds filtered
      obtain ⟨orderOnly, sortJoins⟩ := applySort_joins sorted
      obtain ⟨placed, brings⟩ := resolveFilters_brings resolved
      obtain ⟨joins, distinct, updated⟩ := update_eq u' q''
      refine ⟨all, u, placed, resolved, brings, ?_⟩
      intro P free values
      have leaves := brings.sound P free values
      obtain ⟨filter, -, bound⟩ := binds P leaves fun c same => by simp [bare.filter] at same
      have inScope := sortJoins P _ (brings.joins P [] fun j member => by simp [fresh] at member)
      have sameFilter : (u'.update q'').filter = q'.filter := by rw [updated, orderOnly]
      have inJoins := inScope.update (q := q'') (by rw [orderOnly, filterOnly]; exact bare.joins)
      refine ⟨⟨⟨?_, ?_, ?_⟩, ?_, _, inJoins, ?_⟩, ?_⟩
      · show (u'.update q'').bindings = _
        rw [updated, orderOnly, filterOnly]
        exact bare.bindings
      · show (u'.update q'').groupFilter = _
        rw [updated, orderOnly, filterOnly]
        exact bare.groupFilter
      · show (u'.update q'').unions = _
        rw [updated, orderOnly, filterOnly]
        exact bare.unions
      · intro c same
        exact filter c (sameFilter ▸ same)
      · intro name member
        obtain ⟨r, inAll, inLeaf⟩ := List.mem_flatMap.mp (by simpa using member)
        obtain ⟨c, same, binds⟩ := bound r inAll name inLeaf
        exact ⟨c, sameFilter.trans same, binds⟩
      · intro p member
        obtain ⟨r, inAll, inLeaf⟩ := brings.named p member
        obtain ⟨c, same, binds⟩ := bound r inAll _ inLeaf
        exact ⟨c, sameFilter.trans same, binds⟩

/-- Every placeholder that joins and filter write is bound, and so are the given names, each to its value. -/
structure Covered (q : Select) (placed : List (String × Json)) : Prop where
  joins : ∀ name ∈ written q.joinText, name ∈ q.toStatement.bindings.names
  filter : ∀ name ∈ written q.filterText, name ∈ q.toStatement.bindings.names
  values : ∀ p ∈ placed, q.toStatement.bindings.get? p.1 = some p.2

def NumberedAre (placed : List (Nat × Json)) (name : String) (value : Json) : Prop :=
  ∀ p ∈ placed, name = numbered "f" p.1 → value = p.2

theorem covered_of_sound {q : Select} {placed : List (Nat × Json)}
    (sound : q.Sound (NumberedAre placed)) (binds : ∀ p ∈ placed, q.FilterBinds (numbered "f" p.1)) :
    Covered q (placed.map fun p => (numbered "f" p.1, p.2)) := by
  have free : IsFree (NumberedAre placed) := fun name value other p _ same => absurd same (other p.1)
  have bound := Select.bound_of_sound free.slots sound
  refine ⟨fun name => bound.joins.mem, fun name => bound.filter.mem, ?_⟩
  intro p member
  obtain ⟨p, inPlaced, rfl⟩ := List.mem_map.mp member
  obtain ⟨c, same, inFilter⟩ := binds p inPlaced
  obtain ⟨value, found, entry⟩ := Bindings.exists_get? (bound.names c _ same inFilter)
  have own : value = p.2 := bound.values _ entry p inPlaced rfl
  rw [found, own]

theorem numberedAre_of_increasing {placed : List (Nat × Json)} (increasing : (placed.map Prod.fst).Pairwise (· < ·)) :
    ∀ p ∈ placed, NumberedAre placed (numbered "f" p.1) p.2 := by
  intro p member q member' same
  have distinct : (placed.map Prod.fst).Nodup := increasing.imp Nat.ne_of_lt
  rw [List.inj_on_of_nodup_map distinct member member' (append_toString_inj same)]

/-- In both statements of a search, every placeholder that the joins and the filter write is bound. Each operand that
stands for a text, a number or a time of the filters is a placeholder of its own, which is bound to its value, or to the
pattern of its value on the right side of a test of likeness. -/
theorem plan_bound {settings limits : Settings} {catalog : Catalog} {base : Collection} {request : Option Request}
    {q : Search} {plan : SearchPlan} (bare : q.select.IsBare)
    (planned : (q.plan limits (RecordScope.new catalog base request settings)).1 = .ok plan) :
    ∃ select all placed, plan = planOf limits q select ∧
      (resolveFilters q.filters (RecordScope.new catalog base request settings)).1 = .ok all ∧
      (all.flatMap Resolved.literals).map (Prod.map Operand.text id) = placed.map (fun p => (":" ++ p.1, p.2)) ∧
      (placed.map Prod.fst).Nodup ∧
      Covered (pageSelect select (pageNumber q.page) (pageSize limits q.perPage)) placed ∧
      Covered (countSelect select q.countColumn) placed := by
  rcases full : q.fullSelect (RecordScope.new catalog base request settings) with ⟨e | select, t⟩
  · simp [Search.plan, full, Except.map] at planned
  · simp only [Search.plan, full, Except.map, Except.ok.injEq] at planned
    obtain ⟨all, u, placed, resolved, brings, holds⟩ := fullSelect_sound bare rfl full
    obtain ⟨sound, binds⟩ := holds (NumberedAre placed) (fun name value other p _ same => absurd same (other p.1))
      (numberedAre_of_increasing brings.numbers.increasing)
    have page := covered_of_sound (q := pageSelect select (pageNumber q.page) (pageSize limits q.perPage))
      ⟨⟨sound.flat.1, sound.flat.2, sound.flat.3⟩, sound.filter, sound.joins⟩ binds
    have count := covered_of_sound (q := countSelect select q.countColumn)
      ⟨⟨sound.flat.1, sound.flat.2, sound.flat.3⟩, sound.filter, sound.joins⟩ binds
    refine ⟨select, all, _, planned.symm, by rw [resolved], ?_, ?_, page, count⟩
    · rw [brings.literals, List.map_map]
      rfl
    · rw [List.map_map]
      have distinct : (placed.map Prod.fst).Nodup := brings.numbers.increasing.imp Nat.ne_of_lt
      have named := distinct.map (f := numbered "f") fun m n => append_toString_inj
      rwa [List.map_map] at named

def taggedSearch : Search where
  select := { dialect := .mysql, tables := ["posts"] }
  filters := [(⟨0, 0⟩, taggedPosts),
    (⟨0, 0⟩, [(.and, .comparison (.identifier "@request.data.tags:each") ⟨.equal, true⟩ (.identifier "tags.name")),
      (.and, .comparison (.identifier "title") ⟨.notLike, false⟩ (.identifier "@now"))])]
  sort := [⟨"title", .ascending⟩]

theorem plan_bound_taggedSearch :
    ∃ plan select placed, (taggedSearch.plan {} Blog.scope).1 = .ok plan ∧ plan = planOf {} taggedSearch select ∧
      (placed.map Prod.fst).Nodup ∧ Covered (pageSelect select 1 30) placed ∧ Covered (countSelect select "id") placed := by
  obtain ⟨plan, planned⟩ : ∃ plan, (taggedSearch.plan {} Blog.scope).1 = .ok plan := ⟨_, rfl⟩
  obtain ⟨select, all, placed, shape, -, -, distinct, page, count⟩ :=
    plan_bound (q := taggedSearch) ⟨rfl, rfl, rfl, rfl, rfl⟩ planned
  exact ⟨plan, select, placed, planned, shape, distinct, page, count⟩

end Search

end RelationFilter
