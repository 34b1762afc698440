import Mathlib.Data.List.Basic
import Mathlib.Data.List.Forall2
import Mathlib.Data.List.Induction
import Mathlib.Data.List.Nodup
import RelationFilter.Sql.Select

namespace RelationFilter

structure JoinCall where
  kind : JoinKind
  table : String
  on : Option Condition

namespace JoinCall

def entry (c : JoinCall) : TableJoin :=
  ⟨c.kind, Text.trim (Sql.splitAlias (Text.trim c.table)).1, (Sql.splitAlias (Text.trim c.table)).2, c.on⟩

end JoinCall

namespace Select

def joinAll (s : Select) (calls : List JoinCall) : Select := calls.foldl (fun s c => s.join c.kind c.table c.on) s

theorem join_eq (s : Select) (c : JoinCall) :
    s.join c.kind c.table c.on = { s with joins := putJoin c.entry s.joins } := by
  rcases split : Sql.splitAlias (Text.trim c.table) with ⟨name, aliasName⟩
  simp only [join, JoinCall.entry, split]

theorem joinAll_eq (s : Select) (calls : List JoinCall) :
    s.joinAll calls = { s with joins := (calls.map JoinCall.entry).foldl (fun joins new => putJoin new joins) s.joins } := by
  induction calls generalizing s with
  | nil => rfl
  | cons c rest ih =>
    have later := ih (s.join c.kind c.table c.on)
    rw [join_eq] at later
    rw [joinAll, List.foldl_cons, join_eq]
    exact later

@[simp] theorem reference_replaceJoin (new j : TableJoin) : (replaceJoin new j).reference = j.reference := rfl

theorem references_putJoin (new : TableJoin) (joins : List TableJoin) :
    (putJoin new joins).map TableJoin.reference =
      if new.reference ∈ joins.map TableJoin.reference then joins.map TableJoin.reference
      else joins.map TableJoin.reference ++ [new.reference] := by
  induction joins with
  | nil => simp [putJoin]
  | cons j rest ih =>
    unfold putJoin
    by_cases same : j.reference = new.reference
    · simp [same]
    · have other : new.reference ≠ j.reference := Ne.symm same
      by_cases known : new.reference ∈ rest.map TableJoin.reference
      · simp [same, ih, known]
      · simp [same, ih, known, other]

/-- With one join for each reference, the one replaced is the only one with the reference of the new join. -/
theorem mem_putJoin {new j : TableJoin} {joins : List TableJoin} (nodup : (joins.map TableJoin.reference).Nodup)
    (member : j ∈ putJoin new joins) :
    (j ∈ joins ∧ j.reference ≠ new.reference) ∨ (∃ old ∈ joins, old.reference = new.reference ∧ j = replaceJoin new old) ∨
      (new.reference ∉ joins.map TableJoin.reference ∧ j = new) := by
  induction joins with
  | nil =>
    right; right
    exact ⟨List.not_mem_nil, List.mem_singleton.mp member⟩
  | cons first rest ih =>
    have fresh : first.reference ∉ rest.map TableJoin.reference := (List.nodup_cons.mp nodup).1
    have others := ih (List.nodup_cons.mp nodup).2
    unfold putJoin at member
    split at member
    case isTrue same =>
      rcases List.mem_cons.mp member with rfl | later
      · right; left
        exact ⟨first, List.mem_cons_self, same, rfl⟩
      · left
        refine ⟨List.mem_cons_of_mem _ later, ?_⟩
        intro again
        rw [same, ← again] at fresh
        exact fresh (List.mem_map_of_mem later)
    case isFalse other =>
      rcases List.mem_cons.mp member with rfl | later
      · left
        exact ⟨List.mem_cons_self, other⟩
      · rcases others later with ⟨inRest, apart⟩ | ⟨old, inRest, same, rfl⟩ | ⟨unknown, rfl⟩
        · left
          exact ⟨List.mem_cons_of_mem _ inRest, apart⟩
        · right; left
          exact ⟨old, List.mem_cons_of_mem _ inRest, same, rfl⟩
        · right; right
          refine ⟨?_, rfl⟩
          intro known
          rcases List.mem_cons.mp known with same | inRest
          · exact other same.symm
          · exact unknown inRest

theorem putJoin_of_fresh {new : TableJoin} {joins : List TableJoin}
    (fresh : new.reference ∉ joins.map TableJoin.reference) : putJoin new joins = joins ++ [new] := by
  induction joins with
  | nil => rfl
  | cons j rest ih =>
    rw [List.map_cons, List.mem_cons, not_or] at fresh
    rw [putJoin, if_neg (Ne.symm fresh.1), ih fresh.2]
    rfl

theorem putJoin_of_mem {j : TableJoin} {joins : List TableJoin} (nodup : (joins.map TableJoin.reference).Nodup)
    (member : j ∈ joins) : putJoin j joins = joins := by
  induction joins with
  | nil => cases member
  | cons first rest ih =>
    obtain ⟨fresh, others⟩ := List.nodup_cons.mp nodup
    rcases List.mem_cons.mp member with rfl | later
    · rw [putJoin, if_pos rfl]
      rfl
    · have other : first.reference ≠ j.reference := by
        intro same
        exact fresh (same ▸ List.mem_map_of_mem later)
      rw [putJoin, if_neg other, ih others later]

theorem foldl_putJoin_of_nodup {joins : List TableJoin} (nodup : (joins.map TableJoin.reference).Nodup) :
    joins.foldl (fun joins new => putJoin new joins) [] = joins := by
  induction joins using List.reverseRecOn with
  | nil => rfl
  | append_singleton joins new ih =>
    rw [List.map_append, List.nodup_append'] at nodup
    have fresh : new.reference ∉ joins.map TableJoin.reference := by
      intro known
      exact nodup.2.2 known (List.mem_singleton.mpr rfl)
    rw [List.foldl_concat, ih nodup.1, putJoin_of_fresh fresh]

theorem foldl_putJoin_of_subset {given joins : List TableJoin} (nodup : (joins.map TableJoin.reference).Nodup)
    (there : given ⊆ joins) : given.foldl (fun joins new => putJoin new joins) joins = joins := by
  induction given with
  | nil => rfl
  | cons j rest ih =>
    obtain ⟨first, others⟩ := List.cons_subset.mp there
    rw [List.foldl_cons, putJoin_of_mem nodup first, ih others]

/-- The join has the table and the alias of the first given one with its reference, and the kind and the condition of
the last one. -/
def Merges (given : List TableJoin) (j : TableJoin) : Prop :=
  ∃ first last, given.find? (fun g => g.reference = j.reference) = some first ∧
    given.reverse.find? (fun g => g.reference = j.reference) = some last ∧ j = replaceJoin last first

structure Keyed (given joins : List TableJoin) : Prop where
  nodup : (joins.map TableJoin.reference).Nodup
  references : joins.map TableJoin.reference = (given.map TableJoin.reference).eraseDups
  merges : ∀ j ∈ joins, Merges given j

theorem merges_concat_of_ne {given : List TableJoin} {new j : TableJoin} (merges : Merges given j)
    (apart : j.reference ≠ new.reference) : Merges (given ++ [new]) j := by
  obtain ⟨first, last, isFirst, isLast, shape⟩ := merges
  refine ⟨first, last, ?_, ?_, shape⟩
  · rw [List.find?_append, isFirst]
    rfl
  · rw [List.reverse_append, List.reverse_singleton, List.singleton_append, List.find?_cons_of_neg]
    · exact isLast
    · simpa using apart.symm

theorem merges_concat_replaced {given : List TableJoin} {new old : TableJoin} (merges : Merges given old)
    (same : old.reference = new.reference) : Merges (given ++ [new]) (replaceJoin new old) := by
  obtain ⟨first, last, isFirst, isLast, shape⟩ := merges
  refine ⟨first, new, ?_, ?_, ?_⟩
  · rw [reference_replaceJoin, List.find?_append, isFirst]
    rfl
  · rw [List.reverse_append, List.reverse_singleton, List.singleton_append, List.find?_cons_of_pos]
    exact decide_eq_true same.symm
  · rw [shape]
    rfl

theorem merges_concat_new {given : List TableJoin} {new : TableJoin}
    (unknown : new.reference ∉ given.map TableJoin.reference) : Merges (given ++ [new]) new := by
  refine ⟨new, new, ?_, ?_, rfl⟩
  · have none : given.find? (fun g => g.reference = new.reference) = none := by
      rw [List.find?_eq_none]
      intro g member same
      exact unknown (List.mem_map.mpr ⟨g, member, of_decide_eq_true same⟩)
    rw [List.find?_append, none, Option.none_or, List.find?_cons_of_pos]
    simp
  · rw [List.reverse_append, List.reverse_singleton, List.singleton_append, List.find?_cons_of_pos]
    simp

theorem removeAll_singleton (name : String) (names : List String) :
    [name].removeAll names = if name ∈ names then [] else [name] := by
  by_cases there : name ∈ names
  · simp [List.removeAll, there]
  · simp [List.removeAll, there]

theorem Keyed.put {given joins : List TableJoin} (keyed : Keyed given joins) (new : TableJoin) :
    Keyed (given ++ [new]) (putJoin new joins) := by
  have known : new.reference ∈ joins.map TableJoin.reference ↔ new.reference ∈ given.map TableJoin.reference := by
    rw [keyed.references, List.mem_eraseDups]
  refine ⟨?_, ?_, ?_⟩
  · rw [references_putJoin]
    split
    · exact keyed.nodup
    case isFalse fresh => exact List.concat_eq_append ▸ keyed.nodup.concat fresh
  · rw [references_putJoin, keyed.references, List.map_append, List.eraseDups_append, ← keyed.references]
    split
    case isTrue there => simp [removeAll_singleton, known.mp there]
    case isFalse fresh => simp [removeAll_singleton, mt known.mpr fresh, List.eraseDups_cons]
  · intro j member
    rcases mem_putJoin keyed.nodup member with ⟨inJoins, apart⟩ | ⟨old, inJoins, same, rfl⟩ | ⟨fresh, rfl⟩
    · exact merges_concat_of_ne (keyed.merges j inJoins) apart
    · exact merges_concat_replaced (keyed.merges old inJoins) same
    · exact merges_concat_new (mt known.mpr fresh)

theorem keyed_foldl (given : List TableJoin) : Keyed given (given.foldl (fun joins new => putJoin new joins) []) := by
  induction given using List.reverseRecOn with
  | nil => exact ⟨List.nodup_nil, rfl, by simp⟩
  | append_singleton given new ih =>
    rw [List.foldl_concat]
    exact ih.put new

end Select

namespace Sql

theorem keyword_ne_empty (kind : JoinKind) (rest : String) : kind.keyword ++ rest ≠ "" := by
  cases kind <;> simp [JoinKind.keyword]

theorem joinText_ne_empty (d : Dialect) (j : TableJoin) (on : String) : joinText d j on ≠ "" := by
  unfold joinText
  dsimp only
  split
  · rw [String.append_assoc]
    exact keyword_ne_empty _ _
  · simp only [String.append_assoc]
    exact keyword_ne_empty _ _

def IsTextOf (d : Dialect) (j : TableJoin) (text : String) : Prop :=
  ∃ b, text = joinText d j (optionalCondition d j.on b).1

theorem joinTexts_forall (d : Dialect) (joins : List TableJoin) (b : Bindings) :
    List.Forall₂ (IsTextOf d) joins (joinTexts d joins b).1 := by
  induction joins generalizing b with
  | nil => exact .nil
  | cons j rest ih => exact .cons ⟨b, rfl⟩ (ih (optionalCondition d j.on b).2)

theorem joinTexts_shown (d : Dialect) (joins : List TableJoin) (b : Bindings) :
    ∀ text ∈ (joinTexts d joins b).1, text ≠ "" := by
  induction joins generalizing b with
  | nil => simp [joinTexts]
  | cons j rest ih =>
    intro text member
    rcases List.mem_cons.mp member with rfl | later
    · exact joinText_ne_empty d j _
    · exact ih _ text later

theorem intercalate_ne_empty (sep : String) {first : String} (rest : List String) (shown : first ≠ "") :
    sep.intercalate (first :: rest) ≠ "" := by
  cases rest with
  | nil =>
    rw [String.intercalate_singleton]
    exact shown
  | cons second others =>
    rw [String.intercalate_cons_cons]
    simp [shown]

theorem intercalate_joined {sep : String} (before : List String) {texts : List String} (after : List String)
    (some : texts ≠ []) :
    sep.intercalate (before ++ sep.intercalate texts :: after) = sep.intercalate (before ++ (texts ++ after)) := by
  have tail : sep.intercalate (sep.intercalate texts :: after) = sep.intercalate (texts ++ after) := by
    cases after with
    | nil => rw [String.intercalate_singleton, List.append_nil]
    | cons part rest =>
      have more : part :: rest ≠ [] := List.cons_ne_nil part rest
      rw [String.intercalate_cons_of_ne_nil more, String.intercalate_append_of_ne_nil some more]
  cases before with
  | nil => exact tail
  | cons part rest =>
    rw [String.intercalate_append_of_ne_nil (List.cons_ne_nil part rest) (List.cons_ne_nil _ after), tail,
      String.intercalate_append_of_ne_nil (List.cons_ne_nil part rest) (List.append_ne_nil_of_left_ne_nil some after)]

theorem clauses_joined (before : List String) {texts : List String} (after : List String)
    (shown : ∀ text ∈ texts, text ≠ "") :
    clauses (before ++ String.intercalate " " texts :: after) = clauses (before ++ (texts ++ after)) := by
  have kept : texts.filter (· ≠ "") = texts := List.filter_eq_self.mpr (by simpa using shown)
  cases texts with
  | nil => simp [clauses]
  | cons first rest =>
    have ink := intercalate_ne_empty " " rest (shown first List.mem_cons_self)
    unfold clauses
    rw [List.filter_append, List.filter_append, List.filter_append, kept, List.filter_cons_of_pos]
    · exact intercalate_joined _ _ (List.cons_ne_nil first rest)
    · exact decide_eq_true ink

end Sql

namespace Select

def textAround (s : Select) (joins : List String) (b c : Bindings) : String :=
  let groupFilter := Sql.havingClause s.dialect s.groupFilter c
  let body := Sql.clauses ([Sql.selectClause s.dialect s.columns s.distinct s.option, Sql.fromClause s.dialect s.tables] ++
    (joins ++ [(Sql.whereClause s.dialect s.filter b).1, Sql.groupClause s.dialect s.groups, groupFilter.1]))
  let suffix := Sql.orderAndLimit s.dialect s.order s.limit s.offset
  let main := if suffix = "" then body else body ++ " " ++ suffix
  let unions := (Sql.unionClause s.unions groupFilter.2).1
  if unions = "" then main else "(" ++ main ++ ") " ++ unions

theorem toStatement_joined (s : Select) :
    ∃ b c, s.toStatement.sql = s.textAround (Sql.joinTexts s.dialect s.joins s.bindings).1 b c := by
  have shown := Sql.joinTexts_shown s.dialect s.joins s.bindings
  let joined := Sql.joinClause s.dialect s.joins s.bindings
  refine ⟨joined.2, (Sql.whereClause s.dialect s.filter joined.2).2, ?_⟩
  unfold textAround
  dsimp only
  rw [← Sql.clauses_joined _ _ shown]
  rfl

/-- Whatever joins are asked for, one for each reference is kept, in the order in which the references came, and the
statement has one clause for each. -/
theorem joinAll_keyed (s : Select) (calls : List JoinCall) :
    let q := { s with joins := [] }.joinAll calls
    q = { s with joins := q.joins } ∧
      (q.joins.map TableJoin.reference).Nodup ∧
      q.joins.map TableJoin.reference = ((calls.map JoinCall.entry).map TableJoin.reference).eraseDups ∧
      (∀ j ∈ q.joins, Merges (calls.map JoinCall.entry) j) ∧
      ∃ texts b c, List.Forall₂ (Sql.IsTextOf q.dialect) q.joins texts ∧ q.toStatement.sql = q.textAround texts b c := by
  intro q
  have shape : q = { s with joins := (calls.map JoinCall.entry).foldl (fun joins new => putJoin new joins) [] } :=
    joinAll_eq { s with joins := [] } calls
  have keyed : Keyed (calls.map JoinCall.entry) q.joins := by
    rw [shape]
    exact keyed_foldl _
  have texts := Sql.joinTexts_forall q.dialect q.joins q.bindings
  obtain ⟨b, c, written⟩ := q.toStatement_joined
  refine ⟨?_, keyed.nodup, keyed.references, keyed.merges, _, b, c, texts, written⟩
  rw [shape]

example : (Select.joinAll { dialect := .mysql } [⟨.left, "posts p", none⟩, ⟨.left, "p", none⟩, ⟨.inner, "tags AS p", none⟩]).joins.map
    (fun j => (j.kind, j.table, j.aliasName)) = [(.inner, "posts", some "p")] := by
  decide +kernel

end Select
end RelationFilter
