import Mathlib.Data.List.Perm.Basic
import RelationFilter.Proofs.Filter.Grouping
import RelationFilter.Proofs.Filter.Reading

namespace RelationFilter

structure Standing where
  alone : List Leaf
  grouped : List Leaf
  chains : ∀ l ∈ grouped, ∃ m, l.chain? = some m

namespace Standing

def leaves (st : Standing) : List Leaf := st.alone ++ st.grouped

def single (l : Leaf) : Standing := ⟨[l], [], by simp⟩

def joined (sts : List Standing) : Standing where
  alone := sts.flatMap alone
  grouped := sts.flatMap grouped
  chains l member := by
    obtain ⟨st, -, inGrouped⟩ := List.mem_flatMap.mp member
    exact st.chains l inGrouped

theorem leaves_joined (sts : List Standing) : (joined sts).leaves.Perm (sts.flatMap leaves) :=
  List.flatMap_append_perm sts alone grouped

end Standing

inductive Condition.Stands (d : Dialect) : Condition → Standing → Prop where
  | alone (l : Leaf) : Stands d (l.plain d) (.single l)
  | row {m : Chain} {members : List Leaf} (chains : ∀ l ∈ members, ∃ own, l.chain? = some own)
      (head : ∃ l ∈ members, l.chain? = some m) :
      Stands d (.chainRow m (members.map fun l => l.onChain d (l.chain?.getD m))) ⟨[], members, chains⟩
  | all {cs : List Condition} {sts : List Standing} (parts : List.Forall₂ (Stands d) cs sts) :
      Stands d (.all cs) (.joined sts)
  | any {cs : List Condition} {sts : List Standing} (parts : List.Forall₂ (Stands d) cs sts) :
      Stands d (.any cs) (.joined sts)

def RunItem.Stands (d : Dialect) : RunItem → Standing → Prop
  | .leaf l, st => st = .single l
  | .nested c, st => c.Stands d st

theorem RunItem.Stands.plain {d : Dialect} {i : RunItem} {st : Standing} (h : i.Stands d st) :
    (i.plain d).Stands d st := by
  cases i with
  | leaf l =>
    cases h
    exact .alone l
  | nested c => exact h

namespace Sql

theorem infix_combine {operator part : String} {parts : List String} (member : part ∈ parts) :
    part.toList <:+: (combine operator parts).toList := by
  by_cases empty : part = ""
  · rw [empty]
    exact List.nil_infix
  · have kept : part ∈ parts.filter (· ≠ "") := List.mem_filter.mpr ⟨member, by simpa using empty⟩
    unfold combine
    split
    · rename_i none
      rw [none] at kept
      cases kept
    · rename_i only one
      rw [one, List.mem_singleton] at kept
      simp [kept]
    · rw [String.toList_append, String.toList_append, String.toList_intercalate]
      exact (Text.infix_intercalate (List.mem_map_of_mem kept)).trans (List.infix_append ..)

end Sql

namespace Condition

theorem exists_mem_renderAll (d : Dialect) {cs : List Condition} {c : Condition} (member : c ∈ cs) (b : Bindings) :
    ∃ b', (c.render d b').1 ∈ (renderAll d cs b).1 := by
  induction cs generalizing b with
  | nil => cases member
  | cons first rest ih =>
    rw [renderAll]
    rcases List.mem_cons.mp member with rfl | later
    · exact ⟨b, List.mem_cons_self⟩
    · obtain ⟨b', there⟩ := ih later (first.render d b).2
      exact ⟨b', List.mem_cons_of_mem _ there⟩

def Shows (d : Dialect) (c : Condition) (l : Leaf) : Prop :=
  ∀ b, ∃ b', ((l.plain d).render d b').1.toList <:+: (c.render d b).1.toList

theorem Shows.combine {d : Dialect} {c : Condition} {l : Leaf} (shows : c.Shows d l) {cs : List Condition}
    (member : c ∈ cs) (operator : String) (b : Bindings) :
    ∃ b', ((l.plain d).render d b').1.toList <:+: (Sql.combine operator (renderAll d cs b).1).toList := by
  obtain ⟨b', there⟩ := exists_mem_renderAll d member b
  obtain ⟨b'', within⟩ := shows b'
  exact ⟨b'', within.trans (Sql.infix_combine there)⟩

theorem shows_parts {d : Dialect} {cs : List Condition} {sts : List Standing}
    (parts : List.Forall₂ (fun c st => ∀ l ∈ st.alone, c.Shows d l) cs sts) {l : Leaf}
    (member : l ∈ (Standing.joined sts).alone) : ∃ c ∈ cs, c.Shows d l := by
  induction parts with
  | nil => cases member
  | cons first rest ih =>
    rcases List.mem_append.mp member with here | later
    · exact ⟨_, List.mem_cons_self, first l here⟩
    · obtain ⟨c, inRest, shows⟩ := ih later
      exact ⟨c, List.mem_cons_of_mem _ inRest, shows⟩

theorem Stands.shows {d : Dialect} {c : Condition} {st : Standing} (h : c.Stands d st) :
    ∀ l ∈ st.alone, c.Shows d l := by
  -- The parts of a condition stand in a list, so the recursion goes by the size of the condition.
  have each {cs : List Condition} {sts : List Standing} (parts : List.Forall₂ (Condition.Stands d) cs sts)
      (ih : ∀ c ∈ cs, ∀ st, c.Stands d st → ∀ l ∈ st.alone, c.Shows d l) :
      ∀ l ∈ (Standing.joined sts).alone, ∃ c ∈ cs, c.Shows d l :=
    fun _ => shows_parts (((List.forall₂_and_left ..).mpr ⟨ih, parts⟩).imp fun c st h => h.1 st h.2)
  cases h with
  | alone l =>
    intro l' member b
    rw [List.mem_singleton.mp member]
    exact ⟨b, List.infix_rfl⟩
  | row chains head => simp
  | @all cs sts parts =>
    intro l member b
    obtain ⟨c, inCs, shows⟩ := each parts (fun c member st stands => Stands.shows stands) l member
    rw [render]
    exact shows.combine inCs "AND" b
  | @any cs sts parts =>
    intro l member b
    obtain ⟨c, inCs, shows⟩ := each parts (fun c member st stands => Stands.shows stands) l member
    rw [render]
    exact shows.combine inCs "OR" b
termination_by sizeOf c
decreasing_by
  all_goals
    have smaller := List.sizeOf_lt_of_mem member
    simp only [Condition.all.sizeOf_spec, Condition.any.sizeOf_spec]
    omega

end Condition

namespace Run

variable {d : Dialect}

theorem exists_standings {β : Type} {f : β → Condition} {g : β → List Leaf} {bs : List β}
    (each : ∀ b ∈ bs, ∃ st, (f b).Stands d st ∧ st.leaves.Perm (g b)) :
    ∃ sts, List.Forall₂ (Condition.Stands d) (bs.map f) sts ∧ (sts.flatMap Standing.leaves).Perm (bs.flatMap g) := by
  induction bs with
  | nil => exact ⟨[], .nil, .nil⟩
  | cons b bs ih =>
    obtain ⟨st, first, once⟩ := each b List.mem_cons_self
    obtain ⟨sts, others, all⟩ := ih fun b later => each b (List.mem_cons_of_mem _ later)
    exact ⟨st :: sts, .cons first others, by simpa using once.append all⟩

theorem allOf_stands {cs : List Condition} {sts : List Standing} (h : List.Forall₂ (Condition.Stands d) cs sts) :
    ∃ st, (allOf cs).Stands d st ∧ st.leaves.Perm (sts.flatMap Standing.leaves) := by
  match h with
  | .nil => exact ⟨_, .all .nil, Standing.leaves_joined _⟩
  | .cons head .nil => exact ⟨_, head, by simp⟩
  | .cons head (.cons next rest) => exact ⟨_, .all (.cons head (.cons next rest)), Standing.leaves_joined _⟩

theorem anyOf_stands {cs : List Condition} {sts : List Standing} (h : List.Forall₂ (Condition.Stands d) cs sts) :
    ∃ st, (anyOf cs).Stands d st ∧ st.leaves.Perm (sts.flatMap Standing.leaves) := by
  match h with
  | .nil => exact ⟨_, .any .nil, Standing.leaves_joined _⟩
  | .cons head .nil => exact ⟨_, head, by simp⟩
  | .cons head (.cons next rest) => exact ⟨_, .any (.cons head (.cons next rest)), Standing.leaves_joined _⟩

theorem exists_grouped {items : List (RunItem × Standing)} (stands : ∀ p ∈ items, p.1.Stands d p.2)
    (signed : ∀ p ∈ items, ∃ signature, p.1.signature? d = some signature) :
    ∃ members : List Leaf, items = members.map (fun l => (.leaf l, .single l)) ∧
      ∀ l ∈ members, ∃ m, l.chain? = some m := by
  apply exists_map_eq
  intro p member
  obtain ⟨i, st⟩ := p
  obtain ⟨signature, own⟩ := signed _ member
  obtain ⟨l, m, rfl, groups, -⟩ := RunItem.signature?_eq_some_iff.mp own
  cases stands _ member
  exact ⟨l, rfl, m, Leaf.chain?_eq_some_iff.mpr groups⟩

theorem Slot.condition_stands {slot : Slot (RunItem × Standing)} (stands : ∀ p ∈ slot.items, p.1.Stands d p.2)
    (row : ∀ signature items, slot = .together signature items →
      items ≠ [] ∧ ∀ p ∈ items, p.1.signature? d = some signature) :
    ∃ st, (slot.condition d Prod.fst).Stands d st ∧ st.leaves.Perm (slot.items.flatMap fun p => p.2.leaves) := by
  cases slot with
  | alone p => exact ⟨p.2, (stands p List.mem_cons_self).plain, by simp [items]⟩
  | together signature items =>
    obtain ⟨nonempty, signed⟩ := row signature items rfl
    obtain ⟨members, rfl, chains⟩ := exists_grouped stands fun p member => ⟨signature, signed p member⟩
    obtain ⟨l, rest, rfl⟩ := List.exists_cons_of_ne_nil (l := members) (by simpa using nonempty)
    obtain ⟨m, first⟩ := chains l List.mem_cons_self
    have shape := rowOf_leaves d l rest first fun l' later => chains l' (List.mem_cons_of_mem _ later)
    refine ⟨⟨[], l :: rest, chains⟩, ?_, ?_⟩
    · rw [Slot.condition, List.map_map]
      exact shape ▸ .row chains ⟨l, List.mem_cons_self, first⟩
    · simp [Slot.items, Standing.leaves, Standing.single, List.flatMap_map]

theorem condition_stands {items : List (RunItem × Standing)} (stands : ∀ p ∈ items, p.1.Stands d p.2) :
    ∃ st, (condition d (items.map Prod.fst)).Stands d st ∧ st.leaves.Perm (items.flatMap fun p => p.2.leaves) := by
  have perm := places_perm d Prod.fst items
  have each : ∀ slot ∈ places d Prod.fst items, ∃ st, (slot.condition d Prod.fst).Stands d st ∧
      st.leaves.Perm (slot.items.flatMap fun p => p.2.leaves) := by
    intro slot place
    apply Slot.condition_stands
    · intro p inSlot
      exact stands p (perm.subset (List.mem_flatMap.mpr ⟨slot, place, inSlot⟩))
    · rintro signature members rfl
      exact of_together_mem_places d Prod.fst items place
  obtain ⟨sts, parts, all⟩ := exists_standings each
  obtain ⟨st, whole, once⟩ := allOf_stands parts
  refine ⟨st, condition_places d Prod.fst items ▸ whole, once.trans (all.trans ?_)⟩
  rw [← List.flatMap_assoc]
  exact perm.flatMap_right _

theorem conditionOf_stands {items : List (Conjunction × RunItem × Standing)}
    (stands : ∀ p ∈ items, p.2.1.Stands d p.2.2) :
    ∃ st, (conditionOf d (items.map (Prod.map id Prod.fst))).Stands d st ∧
      st.leaves.Perm (items.flatMap fun p => p.2.2.leaves) := by
  have each : ∀ run ∈ ofItems items, ∃ st, (condition d (run.map Prod.fst)).Stands d st ∧
      st.leaves.Perm (run.flatMap fun p => p.2.leaves) := by
    intro run member
    apply condition_stands
    intro p inRun
    have inItems : p ∈ (ofItems items).flatten := List.mem_flatten.mpr ⟨run, member, inRun⟩
    rw [ofItems_flatten] at inItems
    obtain ⟨q, there, rfl⟩ := List.mem_map.mp inItems
    exact stands q there
  obtain ⟨sts, parts, all⟩ := exists_standings each
  obtain ⟨st, whole, once⟩ := anyOf_stands parts
  have order : (ofItems items).flatMap (fun run => run.flatMap fun p => p.2.leaves) =
      items.flatMap fun p => p.2.2.leaves :=
    calc (ofItems items).flatMap (fun run => run.flatMap fun p => p.2.leaves)
        = (ofItems items).flatten.flatMap fun p => p.2.leaves := by
          rw [List.flatten_eq_flatMap, List.flatMap_assoc]
          rfl
      _ = items.flatMap fun p => p.2.2.leaves := by rw [ofItems_flatten, List.flatMap_map]
  refine ⟨st, ?_, order ▸ once.trans all⟩
  simpa [conditionOf, ofItems_map, Function.comp_def] using whole

end Run

namespace Filter

variable {now : Instant} {s : RecordScope}

theorem settings_resolveTerm (now : Instant) (s : RecordScope) (u : Term) : (resolveTerm now u s).2.settings = s.settings := by
  cases u with
  | text value => rfl
  | number value => rfl
  | identifier name =>
    simp only [resolveTerm, resolveIdentifier]
    split
    · rfl
    · rcases outcome : (s.visit name).outcome with cause | o
      · simp only [Resolver.resolve, RecordScope.resolve_of_error outcome, RecordScope.after]
      · simp only [Resolver.resolve, RecordScope.resolve_of_ok outcome, RecordScope.after]

theorem settings_resolveLeaf (now : Instant) (s : RecordScope) (left right : Term) (op : Comparator) :
    (resolveLeaf now left op right s).2.settings = s.settings := by
  have first := settings_resolveTerm now s left
  unfold resolveLeaf
  rcases resolved : resolveTerm now left s with ⟨e | l, t⟩
  · rwa [resolved] at first
  · rw [resolved] at first
    have second := settings_resolveTerm now t right
    dsimp only
    split
    · exact first
    · rcases resolved' : resolveTerm now right t with ⟨e | r, u⟩ <;> rw [resolved'] at second
      · exact second.trans first
      · dsimp only
        split <;> exact second.trans first

theorem settings_resolveAll (now : Instant) (s : RecordScope) (cs : List (Term × Comparator × Term)) :
    (resolveAll now cs s).2.settings = s.settings := by
  induction cs generalizing s with
  | nil => rfl
  | cons c cs ih =>
    obtain ⟨left, op, right⟩ := c
    have first := settings_resolveLeaf now s left right op
    rw [resolveAll]
    rcases resolved : resolveLeaf now left op right s with ⟨e | l, t⟩
    · simpa [resolved] using first
    · rw [resolved] at first
      exact (ih t).trans first

theorem dialect_of_resolveAll {cs : List (Term × Comparator × Term)} {leaves : List Leaf} {t : RecordScope}
    (h : resolveAll now cs s = (.ok leaves, t)) : Resolver.dialect t = s.settings.dialect := by
  have kept : (resolveAll now cs s).2.settings = s.settings := settings_resolveAll now s cs
  rw [h] at kept
  exact congrArg Settings.dialect kept

mutual

theorem compileNode_standing (node : FilterNode) (s t : RecordScope) (item : RunItem)
    (h : compileNode now node s = (.ok item, t)) :
    ∃ ls st, resolveAll now node.comparisons s = (.ok ls, t) ∧ item.Stands s.settings.dialect st ∧
      st.leaves.Perm ls := by
  match node with
  | .comparison left op right =>
    obtain ⟨l, resolved, rfl⟩ := compileNode_comparison_eq_ok h
    refine ⟨[l], .single l, ?_, rfl, ?_⟩
    · simp [FilterNode.comparisons, resolveAll, resolved, Except.map]
    · simp [Standing.leaves, Standing.single]
  | .group nodes =>
    obtain ⟨items, compiled, rfl⟩ := compileNode_group_eq_ok h
    obtain ⟨ls, parts, resolved, rfl, stands, once⟩ := compileNodes_standing nodes s t items compiled
    obtain ⟨st, whole, all⟩ := Run.conditionOf_stands stands
    refine ⟨ls, st, by rw [FilterNode.comparisons, resolved], ?_, all.trans once⟩
    rw [dialect_of_resolveAll resolved]
    exact whole

theorem compileNodes_standing (nodes : List (Conjunction × FilterNode)) (s t : RecordScope)
    (items : List (Conjunction × RunItem)) (h : compileNodes now nodes s = (.ok items, t)) :
    ∃ ls, ∃ parts : List (Conjunction × RunItem × Standing),
      resolveAll now (comparisons nodes) s = (.ok ls, t) ∧ items = parts.map (Prod.map id Prod.fst) ∧
        (∀ p ∈ parts, p.2.1.Stands s.settings.dialect p.2.2) ∧ (parts.flatMap fun p => p.2.2.leaves).Perm ls := by
  match nodes with
  | [] =>
    rw [compileNodes] at h
    cases h
    exact ⟨[], [], rfl, rfl, by simp, .nil⟩
  | (word, node) :: rest =>
    obtain ⟨item, more, u, first, others, rfl⟩ := compileNodes_cons_eq_ok h
    obtain ⟨ls, st, resolved, stands, once⟩ := compileNode_standing node s u item first
    obtain ⟨ls', parts, resolved', rfl, each, all⟩ := compileNodes_standing rest u t more others
    have kept : Resolver.dialect u = s.settings.dialect := dialect_of_resolveAll resolved
    refine ⟨ls ++ ls', (word, item, st) :: parts, ?_, rfl, ?_, ?_⟩
    · rw [comparisons, resolveAll_append resolved resolved']
    · intro p member
      rcases List.mem_cons.mp member with rfl | later
      · exact stands
      · exact kept ▸ each p later
    · rw [List.flatMap_cons]
      exact once.append all

end

/-- Each comparison of a filter has one place in its condition. -/
theorem compile_standing {filter : Filter} {c : Condition} (h : (compile now filter s).1 = .ok c) :
    ∃ leaves st, resolveAll now (comparisons filter) s = (.ok leaves, (compile now filter s).2) ∧
      c.Stands s.settings.dialect st ∧ st.leaves.Perm leaves := by
  obtain ⟨items, compiled, rfl⟩ := compile_eq_ok h
  obtain ⟨leaves, parts, resolved, rfl, stands, once⟩ := compileNodes_standing filter s _ items compiled
  obtain ⟨st, whole, all⟩ := Run.conditionOf_stands stands
  rw [dialect_of_resolveAll resolved]
  exact ⟨leaves, st, resolved, whole, all.trans once⟩

end Filter
end RelationFilter
