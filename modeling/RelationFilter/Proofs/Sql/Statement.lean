import RelationFilter.Proofs.Sql.Rendering
import RelationFilter.Sql.Select

namespace RelationFilter

inductive Condition.Binds (name : String) : Condition → Prop where
  | raw {sql : String} {own : Bindings} (there : name ∈ own.names) : Binds name (.raw sql own)
  | all {parts : List Condition} {c : Condition} (part : c ∈ parts) (binds : Binds name c) : Binds name (.all parts)
  | any {parts : List Condition} {c : Condition} (part : c ∈ parts) (binds : Binds name c) : Binds name (.any parts)
  | enclosed {inner : Condition} (binds : Binds name inner) : Binds name (.enclosed inner)
  | row {chain : Chain} {conditions : List Condition} {c : Condition} (rooted : chain.isRooted) (part : c ∈ conditions)
    (binds : Binds name c) : Binds name (.chainRow chain conditions)

section

variable {P : String → Json → Prop} (slots : ∀ n v, P (Bindings.slot n) v)

theorem SoundAll.of_mem {cs : List Condition} {c : Condition} (sound : SoundAll P cs) (member : c ∈ cs) : c.Sound P := by
  induction cs with
  | nil => cases member
  | cons first rest ih =>
    rcases List.mem_cons.mp member with rfl | later
    · exact sound.1
    · exact ih sound.2 later

theorem soundAll_of {cs : List Condition} (h : ∀ c ∈ cs, c.Sound P) : SoundAll P cs := by
  induction cs with
  | nil => trivial
  | cons c rest ih => exact ⟨h c List.mem_cons_self, ih fun c member => h c (List.mem_cons_of_mem _ member)⟩

theorem soundJoins_of {names : List String} {joins : List Join}
    (h : ∀ j ∈ joins, Covers names j.table ∧ Plain j.aliasName ∧ j.on.Sound P) : SoundJoins P names joins := by
  induction joins with
  | nil => trivial
  | cons j rest ih => exact ⟨h j List.mem_cons_self, ih fun j member => h j (List.mem_cons_of_mem _ member)⟩

theorem SoundChain.value_plain {m : Chain} (sound : SoundChain P m) : Plain m.value := by
  cases m
  exact sound.1.2.2.2

namespace Condition

include slots

theorem mem_names_renderAll (d : Dialect) {cs : List Condition} {c : Condition} {name : String} (sound : SoundAll P cs)
    (part : c ∈ cs) (binds : ∀ b, name ∈ (c.render d b).2.names) (b : Bindings) :
    name ∈ (renderAll d cs b).2.names := by
  induction cs generalizing b with
  | nil => cases part
  | cons first rest ih =>
    rcases List.mem_cons.mp part with rfl | later
    · exact (renderAll_sound d slots rest _ sound.2).more.names (binds b)
    · exact ih sound.2 later _

theorem Binds.mem_names {c : Condition} {name : String} (binds : c.Binds name) (sound : c.Sound P) (d : Dialect)
    (b : Bindings) : name ∈ (c.render d b).2.names := by
  induction binds generalizing b with
  | raw there => exact (b.extends_merge sound.2).2 there
  | all part _ ih => exact mem_names_renderAll slots d sound part (ih (sound.of_mem part)) b
  | any part _ ih => exact mem_names_renderAll slots d sound part (ih (sound.of_mem part)) b
  | enclosed _ ih => exact ih sound b
  | row rooted part _ ih =>
    simp only [render, rooted, ↓reduceIte]
    exact mem_names_renderAll slots d sound.2 part (ih (sound.2.of_mem part)) _

end Condition

structure TableJoin.Sound (P : String → Json → Prop) (names : List String) (j : TableJoin) : Prop where
  table : Covers names j.table
  alias_plain : ∀ aliasName, j.aliasName = some aliasName → Plain aliasName
  on : ∀ c, j.on = some c → c.Sound P

namespace Sql

include slots

theorem renders_optionalCondition (d : Dialect) {c : Option Condition} (sound : ∀ c', c = some c' → c'.Sound P)
    (b : Bindings) : Renders P b (optionalCondition d c b) := by
  cases c with
  | none => exact ⟨.refl b, .of_plain (by decide : Plain "")⟩
  | some c => exact Condition.render_sound d slots c b (sound c rfl)

omit slots in
theorem covers_joinText {names : List String} (d : Dialect) {j : TableJoin} (sound : j.Sound P names) {on : String}
    (h : Covers names on) : Covers names (joinText d j on) := by
  have keyword : Plain (j.kind.keyword ++ " ") := by cases j.kind <;> decide +kernel
  have joined {table : String} (covers : Covers names table) :
      Covers names
        (if on = "" then j.kind.keyword ++ " " ++ table else j.kind.keyword ++ " " ++ table ++ " ON " ++ on) := by
    split
    · exact covers.after keyword
    · exact (covers.after keyword).between (by decide) h
  rcases named : j.aliasName with _ | aliasName
  · simp only [joinText, named]
    exact joined (sound.table.quoteTable d)
  · simp only [joinText, named]
    exact joined (sound.table.tableWithAlias d (sound.alias_plain aliasName named))

theorem joinTexts_sound {names : List String} (d : Dialect) {joins : List TableJoin}
    (sound : ∀ j ∈ joins, j.Sound P names) (b : Bindings) :
    b.Extends P (joinTexts d joins b).2 ∧
      ∀ all, names ⊆ all → (joinTexts d joins b).2.names ⊆ all → ∀ text ∈ (joinTexts d joins b).1, Covers all text := by
  induction joins generalizing b with
  | nil => exact ⟨.refl b, by simp [joinTexts]⟩
  | cons j rest ih =>
    have on := renders_optionalCondition slots d (sound j List.mem_cons_self).on b
    obtain ⟨more, covers⟩ := ih (fun j member => sound j (List.mem_cons_of_mem _ member)) (optionalCondition d j.on b).2
    refine ⟨on.more.trans more, ?_⟩
    intro all tables bound text member
    rcases List.mem_cons.mp member with rfl | later
    · obtain ⟨table, plain, condition⟩ := sound j List.mem_cons_self
      exact covers_joinText d ⟨table.mono tables, plain, condition⟩ (on.covers.mono (List.Subset.trans more.names bound))
    · exact covers all tables bound text later

end Sql

end

namespace Select

theorem sound_putJoin {P : String → Json → Prop} {names : List String} {new : TableJoin} (h : new.Sound P names)
    {joins : List TableJoin} (h' : ∀ j ∈ joins, j.Sound P names) : ∀ j ∈ putJoin new joins, j.Sound P names := by
  intro j member
  induction joins with
  | nil => exact List.mem_singleton.mp member ▸ h
  | cons first rest ih =>
    have head := h' first List.mem_cons_self
    have others : ∀ j ∈ rest, j.Sound P names := fun j inRest => h' j (List.mem_cons_of_mem _ inRest)
    unfold putJoin at member
    split at member
    · rcases List.mem_cons.mp member with rfl | inRest
      · exact ⟨head.table, head.alias_plain, h.on⟩
      · exact others j inRest
    · rcases List.mem_cons.mp member with rfl | inRest
      · exact head
      · exact ih others inRest

theorem sound_join {P : String → Json → Prop} {names : List String} {q : Select} {kind : JoinKind} {table : String}
    {on : Condition} (covers : Covers names table) (sound : on.Sound P) (h : ∀ j ∈ q.joins, j.Sound P names) :
    ∀ j ∈ (q.join kind table (some on)).joins, j.Sound P names := by
  obtain ⟨source, plain⟩ := covers.trim.splitAlias
  rcases split : Sql.splitAlias (Text.trim table) with ⟨name, aliasName⟩
  simp only [split] at source plain
  simp only [join, split]
  exact sound_putJoin ⟨source.trim, plain, fun c same => Option.some.inj same ▸ sound⟩ h

def joinText (q : Select) : String := (Sql.joinClause q.dialect q.joins q.bindings).1

def filterText (q : Select) : String :=
  (Sql.whereClause q.dialect q.filter (Sql.joinClause q.dialect q.joins q.bindings).2).1

structure IsFlat (q : Select) : Prop where
  bindings : q.bindings = Bindings.empty
  groupFilter : q.groupFilter = none
  unions : q.unions = []

theorem bindings_toStatement {q : Select} (flat : q.IsFlat) :
    q.toStatement.bindings =
      (Sql.whereClause q.dialect q.filter (Sql.joinClause q.dialect q.joins q.bindings).2).2 := by
  simp [toStatement, flat.groupFilter, flat.unions, Sql.havingClause, Sql.conditionClause, Sql.optionalCondition,
    Sql.unionClause, Sql.unionTexts]

structure Sound (P : String → Json → Prop) (q : Select) : Prop where
  flat : q.IsFlat
  filter : ∀ c, q.filter = some c → c.Sound P
  joins : ∃ names, (∀ j ∈ q.joins, j.Sound P names) ∧ ∀ name ∈ names, ∃ c, q.filter = some c ∧ c.Binds name

structure Bound (P : String → Json → Prop) (q : Select) : Prop where
  joins : Covers q.toStatement.bindings.names q.joinText
  filter : Covers q.toStatement.bindings.names q.filterText
  values : q.toStatement.bindings.Are P
  names : ∀ c name, q.filter = some c → c.Binds name → name ∈ q.toStatement.bindings.names

theorem bound_of_sound {P : String → Json → Prop} (slots : ∀ n v, P (Bindings.slot n) v) {q : Select}
    (sound : q.Sound P) : q.Bound P := by
  obtain ⟨flat, filter, names, joins, inFilter⟩ := sound
  obtain ⟨more, covers⟩ := Sql.joinTexts_sound slots q.dialect joins q.bindings
  have whole := Sql.renders_optionalCondition slots q.dialect filter (Sql.joinClause q.dialect q.joins q.bindings).2
  have bound : ∀ c name, q.filter = some c → c.Binds name → name ∈ q.toStatement.bindings.names := by
    intro c name same binds
    rw [bindings_toStatement flat, same]
    exact binds.mem_names slots (filter c same) _ _
  have after : q.toStatement.bindings.names = (Sql.optionalCondition q.dialect q.filter
      (Sql.joinClause q.dialect q.joins q.bindings).2).2.names := by rw [bindings_toStatement flat]; rfl
  refine ⟨?_, ?_, ?_, bound⟩
  · apply Covers.intercalate (by decide)
    apply covers
    · intro name member
      obtain ⟨c, same, binds⟩ := inFilter name member
      exact bound c name same binds
    · rw [after]
      exact whole.more.names
  · rw [filterText, Sql.whereClause, Sql.conditionClause]
    dsimp only
    split
    · exact .of_plain (by decide)
    · rw [after]
      exact whole.covers.after (by decide)
  · rw [bindings_toStatement flat]
    apply whole.more.kept
    apply more.kept
    rw [flat.bindings]
    simp [Bindings.Are, Bindings.empty]

end Select

end RelationFilter
