import Mathlib.Data.List.Forall2
import RelationFilter.Proofs.Sql.Rendering
import RelationFilter.Sql.Clause

namespace RelationFilter.Sql

open Bindings

theorem adopt_grows (entries : List (String × Json)) (b : Bindings) : b.entries <+: (adopt entries b).2.entries := by
  induction entries generalizing b with
  | nil => exact List.prefix_refl _
  | cons e rest ih =>
    obtain ⟨name, value⟩ := e
    rw [adopt]
    split
    · have first : b.entries <+: (b.insert b.freeSlot value).entries := by
        rw [entries_insert value b.freeSlot_not_mem]
        exact List.prefix_append _ _
      exact first.trans (ih _)
    · rename_i free
      have first : b.entries <+: (b.insert name value).entries := by
        rw [entries_insert value fun member => free (contains_iff.mpr member)]
        exact List.prefix_append _ _
      exact first.trans (ih _)

theorem lookup_adopt_of_not_mem {entries : List (String × Json)} {name : String} (absent : name ∉ entries.map Prod.fst)
    (b : Bindings) : (adopt entries b).1.lookup name = none := by
  induction entries generalizing b with
  | nil => rfl
  | cons e rest ih =>
    obtain ⟨first, value⟩ := e
    simp only [List.map_cons, List.mem_cons, not_or] at absent
    rw [adopt]
    split
    · rw [List.lookup_cons, beq_false_of_ne absent.1]
      exact ih absent.2 _
    · exact ih absent.2 _

/-- Under its new name, or its own if that was free, each name of the member has the member's value. -/
theorem get?_adopt {entries : List (String × Json)} (distinct : (entries.map Prod.fst).Nodup) {name : String} {v : Json}
    (member : (name, v) ∈ entries) (b : Bindings) :
    (adopt entries b).2.get? (((adopt entries b).1.lookup name).getD name) = some v := by
  induction entries generalizing b with
  | nil => cases member
  | cons e rest ih =>
    obtain ⟨first, value⟩ := e
    simp only [List.map_cons, List.nodup_cons] at distinct
    rcases List.mem_cons.mp member with here | later
    · obtain ⟨rfl, rfl⟩ := Prod.mk.inj here
      rw [adopt]
      split
      · rw [List.lookup_cons, beq_self_eq_true, Option.getD_some]
        exact get?_of_prefix (adopt_grows rest _) (get?_insert b _ v)
      · rw [lookup_adopt_of_not_mem distinct.1, Option.getD_none]
        exact get?_of_prefix (adopt_grows rest _) (get?_insert b name v)
    · have other : name ≠ first := by
        intro same
        apply distinct.1
        rw [← same]
        exact List.mem_map_of_mem later
      rw [adopt]
      split
      · rw [List.lookup_cons, beq_false_of_ne other]
        exact ih distinct.2 later _
      · exact ih distinct.2 later _

theorem givesWords_adopt (entries : List (String × Json)) (b : Bindings) :
    SqlPiece.GivesWords fun name => (adopt entries b).1.lookup name := by
  intro name next found
  dsimp only at found
  induction entries generalizing b with
  | nil => cases found
  | cons e rest ih =>
    obtain ⟨first, value⟩ := e
    rw [adopt] at found
    split at found
    · rw [List.lookup_cons] at found
      split at found
      · rw [← Option.some.inj found, freeSlot, slot, String.toList_append]
        refine ⟨by simp, ?_⟩
        intro c inSlot
        rcases List.mem_append.mp inSlot with letter | digit
        · rw [List.mem_singleton.mp letter]
          decide
        · exact isWord_toString digit
      · exact ih _ found
    · exact ih _ found

inductive Adopted (own all : Bindings) : SqlPiece → SqlPiece → Prop
  | char (c : Char) : Adopted own all (.char c) (.char c)
  | bound {name next : List Char} {v : Json} (there : own.get? (String.ofList name) = some v)
    (kept : all.get? (String.ofList next) = some v) : Adopted own all (.placeholder name) (.placeholder next)
  | unbound {name : List Char} (absent : own.get? (String.ofList name) = none) :
    Adopted own all (.placeholder name) (.placeholder name)

structure MemberText (all : Bindings) (m : UnionMember) (text : String) : Prop where
  exists_sql : ∃ sql, text = (if m.all then "UNION ALL (" else "UNION (") ++ sql ++ ")" ∧
    List.Forall₂ (Adopted m.statement.bindings all) (SqlPiece.ofText m.statement.sql) (SqlPiece.ofText sql)

theorem unionMember_text {m : UnionMember} (distinct : m.statement.bindings.names.Nodup) {b all : Bindings}
    (kept : (unionMember m b).2.entries <+: all.entries) : MemberText all m (unionMember m b).1 := by
  refine ⟨_, rfl, ?_⟩
  rw [SqlPiece.ofText_renamePlaceholders (givesWords_adopt _ b), List.forall₂_map_right_iff, List.forall₂_same]
  intro piece _
  cases piece with
  | char c => exact .char c
  | placeholder name =>
    simp only [SqlPiece.rename]
    cases own : m.statement.bindings.get? (String.ofList name) with
    | none =>
      rw [lookup_adopt_of_not_mem (get?_eq_none own), Option.getD_none, String.toList_ofList]
      exact .unbound own
    | some v =>
      apply Adopted.bound own
      rw [String.ofList_toList]
      exact get?_of_prefix kept (get?_adopt distinct (mem_of_get? own) b)

theorem unionTexts_keeps {members : List UnionMember}
    (distinct : ∀ m ∈ members, m.statement.bindings.names.Nodup) (b : Bindings) :
    b.entries <+: (unionTexts members b).2.entries ∧
      List.Forall₂ (MemberText (unionTexts members b).2) members (unionTexts members b).1 := by
  induction members generalizing b with
  | nil => exact ⟨List.prefix_refl _, .nil⟩
  | cons m rest ih =>
    obtain ⟨later, others⟩ := ih (fun m member => distinct m (List.mem_cons_of_mem _ member)) (unionMember m b).2
    have first := unionMember_text (distinct m List.mem_cons_self) later
    exact ⟨(adopt_grows _ b).trans later, .cons first others⟩

/-- What was bound before stays bound in its place, and in the text of each member every placeholder that the member binds
stands for the member's value; all else of its text stays as it is. -/
theorem unionClause_keeps {members : List UnionMember}
    (distinct : ∀ m ∈ members, m.statement.bindings.names.Nodup) (b : Bindings) :
    b.entries <+: (unionClause members b).2.entries ∧
      ∃ texts, (unionClause members b).1 = String.intercalate " " texts ∧
        List.Forall₂ (MemberText (unionClause members b).2) members texts := by
  obtain ⟨kept, texts⟩ := unionTexts_keeps distinct b
  exact ⟨kept, _, rfl, texts⟩

def overlapping : List UnionMember :=
  [⟨true, "SELECT :p0, :p1, :x", ⟨[("p0", .int 1), ("p1", .int 2)]⟩⟩, ⟨false, "SELECT :p2", ⟨[("p2", .int 3)]⟩⟩]

theorem unionClause_keeps_overlapping :
    let union := unionClause overlapping ⟨[("p0", .int 0)]⟩
    union.1 = "UNION ALL (SELECT :p1, :p2, :x) UNION (SELECT :p3)" ∧
      (∀ m ∈ overlapping, m.statement.bindings.names.Nodup) ∧ [("p0", Json.int 0)] <+: union.2.entries ∧
      ∃ texts, union.1 = String.intercalate " " texts ∧ List.Forall₂ (MemberText union.2) overlapping texts := by
  have distinct : ∀ m ∈ overlapping, m.statement.bindings.names.Nodup := by decide
  refine ⟨by decide +kernel, distinct, ?_⟩
  exact unionClause_keeps distinct ⟨[("p0", .int 0)]⟩

end RelationFilter.Sql
