import RelationFilter.Proofs.Sql.JoinList
import RelationFilter.Proofs.Sql.Overwrite
import RelationFilter.Proofs.Sql.Written

namespace RelationFilter

open Sql Bindings

namespace Condition

theorem nodup_render (d : Dialect) (c : Condition) {b : Bindings} (distinct : b.names.Nodup) :
    (c.render d b).2.names.Nodup := by
  obtain ⟨_, -, kept⟩ := render_realizes d stepwise_nodup c b
  exact kept distinct

end Condition

namespace Sql

theorem nodup_optionalCondition (d : Dialect) (c : Option Condition) {b : Bindings} (distinct : b.names.Nodup) :
    (optionalCondition d c b).2.names.Nodup := by
  cases c with
  | none => exact distinct
  | some c => exact c.nodup_render d distinct

theorem nodup_joinTexts (d : Dialect) (joins : List TableJoin) {b : Bindings} (distinct : b.names.Nodup) :
    (joinTexts d joins b).2.names.Nodup := by
  induction joins generalizing b with
  | nil => exact distinct
  | cons j rest ih => exact ih (nodup_optionalCondition d j.on distinct)

theorem nodup_adopt (entries : List (String × Json)) {b : Bindings} (distinct : b.names.Nodup) :
    (adopt entries b).2.names.Nodup := by
  induction entries generalizing b with
  | nil => exact distinct
  | cons e rest ih =>
    unfold adopt
    split
    · exact ih (nodup_names_insert distinct _ _)
    · exact ih (nodup_names_insert distinct _ _)

theorem nodup_unionTexts (members : List UnionMember) {b : Bindings} (distinct : b.names.Nodup) :
    (unionTexts members b).2.names.Nodup := by
  induction members generalizing b with
  | nil => exact distinct
  | cons m rest ih => exact ih (nodup_adopt m.statement.bindings.entries distinct)

theorem selectClause_ne_empty (d : Dialect) (columns : List String) (distinct : Bool) (option : Option String) :
    selectClause d columns distinct option ≠ "" := by
  unfold selectClause
  dsimp only
  split <;> simp

theorem clauses_ne_empty {first : String} (rest : List String) (shown : first ≠ "") : clauses (first :: rest) ≠ "" := by
  rw [clauses, List.filter_cons_of_pos]
  · exact intercalate_ne_empty " " _ shown
  · exact decide_eq_true shown

end Sql

namespace Select

theorem nodup_toStatement {s : Select} (unique : s.bindings.names.Nodup) : s.toStatement.bindings.names.Nodup := by
  apply nodup_unionTexts
  apply nodup_optionalCondition
  apply nodup_optionalCondition
  exact nodup_joinTexts s.dialect s.joins unique

theorem sql_ne_empty (s : Select) : s.toStatement.sql ≠ "" := by
  obtain ⟨b, c, shape⟩ := s.toStatement_joined
  have body (more : List String) :
      Sql.clauses (Sql.selectClause s.dialect s.columns s.distinct s.option :: more) ≠ "" :=
    Sql.clauses_ne_empty more (Sql.selectClause_ne_empty _ _ _ _)
  rw [shape]
  unfold textAround
  dsimp only
  split
  · split
    · exact body _
    · simp [body]
  · simp

end Select

/-- Every placeholder of the statement that has a value has it among the bindings too. -/
def Statement.Keeps (st : Statement) (more : Bindings) : Prop :=
  ∀ name ∈ written st.sql, ∀ v, st.bindings.get? name = some v → more.get? name = some v

/-- Every placeholder of a template has the value that it had, be it written in a text or a slot, where one filling took the
place of another. -/
structure Sql.Template.Keeps (t : Template) (slots moved : List (String × Json)) (b more : Bindings) : Prop where
  texts : ∀ s, .text s ∈ t → ∀ name ∈ written s, ∀ v, b.get? name = some v → more.get? name = some v
  slots : ∀ p ∈ slots.zip moved, more.get? p.2.1 = b.get? p.1.1

def Statement.existence (st : Statement) : Condition := .existence (.raw st.sql st.bindings) false

theorem Sql.lookup_of_mem {slots : List (String × Json)} (distinct : (slots.map Prod.fst).Nodup) {e : String × Json}
    (member : e ∈ slots) : slots.lookup e.1 = some e.2 := by
  obtain ⟨before, after, rfl⟩ := List.append_of_mem member
  rw [List.lookup_eq_some_iff]
  refine ⟨before, after, rfl, ?_⟩
  intro other earlier
  rw [List.map_append, List.nodup_append] at distinct
  have apart := distinct.2.2 other.1 (List.mem_map_of_mem earlier) e.1 (List.mem_map_of_mem List.mem_cons_self)
  simpa using Ne.symm apart

section

variable {st : Statement} {t : Template} {own slots moved : List (String × Json)} {b more alone : Bindings}

theorem Statement.keeps_merge (distinct : st.bindings.names.Nodup) (b : Bindings) : st.Keeps (b.merge st.bindings) := by
  intro name _ v found
  rw [get?_merge distinct, found, Option.some_or]

theorem Statement.keeps_merge_iff {other : Bindings} (distinct : other.names.Nodup) :
    st.Keeps (st.bindings.merge other) ↔
      ∀ name ∈ written st.sql, ∀ v w, st.bindings.get? name = some v → other.get? name = some w → w = v := by
  constructor
  · intro keeps name there v w found again
    have kept := keeps name there v found
    rw [get?_merge distinct, again, Option.some_or] at kept
    exact Option.some.inj kept
  · intro agree name there v found
    rw [get?_merge distinct]
    cases again : other.get? name with
    | none => exact found
    | some w => rw [Option.some_or, agree name there v w found again]

/-- Slots are no danger to what was bound, for they were free. -/
theorem Statement.keeps_iff_of_overwrites (same : ∀ name, b.get? name = st.bindings.get? name)
    (h : Overwrites own slots b more) :
    st.Keeps more ↔ ∀ name ∈ written st.sql, ∀ v w, st.bindings.get? name = some v → last? own name = some w → w = v := by
  have value {name : String} {v : Json} (found : st.bindings.get? name = some v) :
      more.get? name = some ((last? own name).getD v) := by
    have bound : b.get? name = some v := (same name).trans found
    have unslotted : slots.lookup name = none := by
      rw [List.lookup_eq_none_iff]
      intro s member
      have free := h.fresh s member
      have apart : name ≠ s.1 := fun named => free (named ▸ mem_names_of_get? bound)
      simpa using apart
    rw [h.get?, unslotted, bound]
    cases last? own name <;> rfl
  constructor
  · intro keeps name there v w found given
    have kept := keeps name there v found
    rw [value found, given] at kept
    exact Option.some.inj kept
  · intro agree name there v found
    rw [value found]
    cases given : last? own name with
    | none => rfl
    | some w => rw [Option.getD_some, agree name there v w found given]

/-- What becomes of the placeholders of a condition when it is rendered from other bindings than none. -/
theorem Sql.Template.keeps_iff (h : Overwrites own slots Bindings.empty alone) (h' : Overwrites own moved b more) :
    t.Keeps slots moved alone more ↔
      (∀ s, .text s ∈ t → ∀ name ∈ written s, last? own name = none → ∀ v, slots.lookup name = some v →
        (moved.lookup name).or (b.get? name) = some v) ∧
      ∀ p ∈ slots.zip moved, (last? own p.2.1).getD p.2.2 = (last? own p.1.1).getD p.1.2 := by
  have slot {p : (String × Json) × (String × Json)} (member : p ∈ slots.zip moved) :
      more.get? p.2.1 = some ((last? own p.2.1).getD p.2.2) ∧ alone.get? p.1.1 = some ((last? own p.1.1).getD p.1.2) := by
    obtain ⟨first, second⟩ := List.of_mem_zip member
    rw [h.get?, h'.get?, lookup_of_mem h.distinct first, lookup_of_mem h'.distinct second]
    constructor
    · cases last? own p.2.1 <;> rfl
    · cases last? own p.1.1 <;> rfl
  have nothing (name : String) : Bindings.empty.get? name = none := rfl
  constructor
  · intro keeps
    refine ⟨?_, ?_⟩
    · intro s piece name there unnamed v found
      have kept := keeps.texts s piece name there v (by rw [h.get?, unnamed, found]; rfl)
      rwa [h'.get?, unnamed, Option.none_or] at kept
    · intro p member
      have kept := keeps.slots p member
      rw [(slot member).1, (slot member).2] at kept
      exact Option.some.inj kept
  · intro conditions
    refine ⟨?_, ?_⟩
    · intro s piece name there v found
      rw [h.get?, nothing, Option.or_none] at found
      rw [h'.get?]
      cases given : last? own name with
      | some w =>
        rw [given, Option.some_or] at found
        rw [Option.some_or, found]
      | none =>
        rw [given, Option.none_or] at found
        rw [Option.none_or, conditions.1 s piece name there given v found]
    · intro p member
      rw [(slot member).1, (slot member).2, conditions.2 p member]

end

namespace Condition

theorem render_both (d : Dialect) (c c' : Condition) (b : Bindings) :
    (Condition.all [c, c']).render d b =
      (combine "AND" [(c.render d b).1, (c'.render d (c.render d b).2).1], (c'.render d (c.render d b).2).2) := by
  simp only [render, renderAll]

theorem render_existence (st : Statement) (shown : st.sql ≠ "") (d : Dialect) (b : Bindings) :
    st.existence.render d b = ("EXISTS (" ++ st.sql ++ ")", b.merge st.bindings) := by
  simp [Statement.existence, render, Sql.existence, shown]

/-- A condition before a subquery keeps its values just if the subquery binds none of its placeholders to another value.
Behind the subquery, which then binds first, it keeps them just if its slots meet the names that it binds itself in both
places alike, and none of its texts names a slot. -/
theorem embedded_keeps_iff (e : Condition) (d : Dialect) {s : Select} (unique : s.bindings.names.Nodup) :
    let q := s.toStatement
    let alone := e.toStatement d
    let before := (Condition.all [e, q.existence]).toStatement d
    let behind := (Condition.all [q.existence, e]).toStatement d
    (before.sql = combine "AND" [alone.sql, "EXISTS (" ++ q.sql ++ ")"] ∧
      q.Keeps before.bindings ∧
      (alone.Keeps before.bindings ↔
        ∀ name ∈ written alone.sql, ∀ v w, alone.bindings.get? name = some v → q.bindings.get? name = some w → w = v)) ∧
    ∃ slots moved text, Fills (e.template d) slots alone.sql ∧ Fills (e.template d) moved text ∧
      behind.sql = combine "AND" ["EXISTS (" ++ q.sql ++ ")", text] ∧
      (q.Keeps behind.bindings ↔
        ∀ name ∈ written q.sql, ∀ v w, q.bindings.get? name = some v → last? e.own name = some w → w = v) ∧
      ((e.template d).Keeps slots moved alone.bindings behind.bindings ↔
        (∀ s, .text s ∈ e.template d → ∀ name ∈ written s, last? e.own name = none → ∀ v, slots.lookup name = some v →
          (moved.lookup name).or (q.bindings.get? name) = some v) ∧
        ∀ p ∈ slots.zip moved, (last? e.own p.2.1).getD p.2.2 = (last? e.own p.1.1).getD p.1.2) := by
  intro q alone before behind
  have distinct : q.bindings.names.Nodup := s.nodup_toStatement unique
  have existence := render_existence q s.sql_ne_empty d
  have before_eq : before = ⟨combine "AND" [alone.sql, "EXISTS (" ++ q.sql ++ ")"], alone.bindings.merge q.bindings⟩ := by
    simp only [before, toStatement, render_both, existence, alone]
  have behind_eq : behind = ⟨combine "AND" ["EXISTS (" ++ q.sql ++ ")", (e.render d (Bindings.empty.merge q.bindings)).1],
      (e.render d (Bindings.empty.merge q.bindings)).2⟩ := by
    simp only [behind, toStatement, render_both, existence]
  have same (name : String) : (Bindings.empty.merge q.bindings).get? name = q.bindings.get? name := by
    rw [get?_merge distinct]
    exact Option.or_none
  obtain ⟨slots, filled, first⟩ := e.render_overwrites d Bindings.empty
  obtain ⟨moved, refilled, second⟩ := e.render_overwrites d (Bindings.empty.merge q.bindings)
  rw [before_eq, behind_eq]
  refine ⟨⟨rfl, q.keeps_merge distinct _, Statement.keeps_merge_iff distinct⟩, ?_⟩
  refine ⟨slots, moved, _, filled, refilled, rfl, Statement.keeps_iff_of_overwrites same second, ?_⟩
  have behind_iff := Template.keeps_iff (t := e.template d) first second
  simp only [same] at behind_iff
  exact behind_iff

def ofStatus (status : String) : Condition := .columnIs "status" (.string status)

def drafts (status : String) : Select := { dialect := .mysql, tables := ["drafts"], filter := some (ofStatus status) }

theorem embedded_keeps_iff_drafts :
    (drafts "B").bindings.names.Nodup ∧
      let q := (drafts "B").toStatement
      let alone := (ofStatus "A").toStatement .mysql
      let before := (Condition.all [ofStatus "A", q.existence]).toStatement .mysql
      alone.Keeps before.bindings ↔
        ∀ name ∈ written alone.sql, ∀ v w, alone.bindings.get? name = some v → q.bindings.get? name = some w → w = v := by
  have unique : (drafts "B").bindings.names.Nodup := List.nodup_nil
  exact ⟨unique, (embedded_keeps_iff (ofStatus "A") .mysql unique).1.2.2⟩

/-- Each of the two has `p0` for its only slot. -/
theorem embedded_not_keeps_status :
    let q := (drafts "B").toStatement
    let alone := (ofStatus "A").toStatement .mysql
    let before := (Condition.all [ofStatus "A", q.existence]).toStatement .mysql
    before.sql = "(`status` = :p0) AND (EXISTS (SELECT * FROM `drafts` WHERE `status` = :p0))" ∧
      before.bindings.entries = [("p0", .string "B")] ∧ ¬ alone.Keeps before.bindings := by
  intro q alone before
  have bound : before.bindings.entries = [("p0", .string "B")] := rfl
  refine ⟨by decide +kernel, bound, ?_⟩
  intro keeps
  have kept : before.bindings.get? "p0" = some (.string "A") := keeps "p0" (by decide +kernel) (.string "A") rfl
  have other : before.bindings.get? "p0" = some (.string "B") := by rw [get?, bound]; rfl
  rw [other, Option.some.injEq, Json.string.injEq] at kept
  exact absurd kept (by decide)

end Condition

end RelationFilter
