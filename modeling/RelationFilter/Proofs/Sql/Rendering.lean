import RelationFilter.Proofs.Sql.Bindings
import RelationFilter.Proofs.Sql.Written
import RelationFilter.Sql.Render

namespace RelationFilter

open Text

def Bindings.Are (P : String → Json → Prop) (b : Bindings) : Prop := ∀ e ∈ b.entries, P e.1 e.2

structure Bindings.Extends (P : String → Json → Prop) (b more : Bindings) : Prop where
  names : b.names ⊆ more.names
  kept : b.Are P → more.Are P

namespace Bindings

variable {P : String → Json → Prop}

theorem Extends.refl (b : Bindings) : b.Extends P b := ⟨List.Subset.refl _, id⟩

theorem Extends.trans {b c e : Bindings} (h : b.Extends P c) (h' : c.Extends P e) : b.Extends P e :=
  ⟨List.Subset.trans h.names h'.names, h'.kept ∘ h.kept⟩

theorem mem_put {name : String} {value : Json} {entries : List (String × Json)} {e : String × Json}
    (h : e ∈ put name value entries) : e = (name, value) ∨ e ∈ entries := by
  induction entries with
  | nil => simpa [put] using h
  | cons first rest ih =>
    simp only [put] at h
    split at h
    · rcases List.mem_cons.mp h with rfl | member
      · exact .inl rfl
      · exact .inr (List.mem_cons_of_mem _ member)
    · rcases List.mem_cons.mp h with rfl | member
      · exact .inr List.mem_cons_self
      · exact (ih member).imp_right (List.mem_cons_of_mem _)

theorem extends_insert (b : Bindings) {name : String} {value : Json} (h : P name value) :
    b.Extends P (b.insert name value) := by
  refine ⟨fun other member => mem_names_insert.mpr (.inr member), ?_⟩
  intro are e member
  rcases mem_put member with rfl | earlier
  · exact h
  · exact are e earlier

theorem extends_merge (b : Bindings) {own : Bindings} (h : own.Are P) :
    b.Extends P (b.merge own) ∧ own.names ⊆ (b.merge own).names := by
  obtain ⟨entries⟩ := own
  induction entries generalizing b with
  | nil => exact ⟨.refl b, by simp [names]⟩
  | cons e rest ih =>
    obtain ⟨more, there⟩ := ih (b.insert e.1 e.2) fun e' member => h e' (List.mem_cons_of_mem _ member)
    refine ⟨(extends_insert b (h e List.mem_cons_self)).trans more, ?_⟩
    intro name member
    rcases List.mem_cons.mp member with rfl | member
    · exact more.names (mem_names_insert.mpr (.inl rfl))
    · exact there member

theorem exists_get? {b : Bindings} {name : String} (h : name ∈ b.names) :
    ∃ value, b.get? name = some value ∧ (name, value) ∈ b.entries := by
  rcases found : b.entries.find? fun e => e.1 = name with _ | e
  · obtain ⟨e, member, rfl⟩ := List.mem_map.mp h
    simpa using List.find?_eq_none.mp found e member
  · have named : e.1 = name := by simpa using List.find?_some found
    exact ⟨e.2, by simp [get?, found], named ▸ List.mem_of_find?_eq_some found⟩

end Bindings

theorem isWord_toString {n : Nat} {c : Char} (h : c ∈ (toString n).toList) : isWord c = true := by
  rw [Nat.toString_eq_repr, Nat.toList_repr] at h
  have digit := Nat.isDigit_of_mem_toDigits (by decide) (by decide) h
  have ascii : c.toNat < 0x80 := by
    simp only [Char.isDigit, UInt32.le_iff_toNat_le, ge_iff_le, Bool.and_eq_true, decide_eq_true_eq] at digit
    have := digit.2
    change c.toNat ≤ 57 at this
    omega
  simp [isWord, ascii, isAsciiWord, Char.isAlphanum, digit]

theorem covers_numbered {names : List String} {start name : String} {n : Nat} (shape : name = start ++ toString n)
    (word : start.toList.all isWord) (member : name ∈ names) : Covers names (":" ++ name) := by
  apply covers_placeholder _ member
  rw [List.all_eq_true]
  intro c inName
  rw [shape, String.toList_append] at inName
  rcases List.mem_append.mp inName with inStart | digit
  · exact List.all_eq_true.mp word c inStart
  · exact isWord_toString digit

namespace Sql

variable {names : List String}

theorem covers_combine {operator : String} (plain : Plain operator) {parts : List String}
    (h : ∀ part ∈ parts, Covers names part) : Covers names (combine operator parts) := by
  have kept : ∀ part ∈ parts.filter (· ≠ ""), Covers names part :=
    fun part member => h part (List.mem_filter.mp member).1
  have separator : IsSeparator (") " ++ operator ++ " (") :=
    ⟨(Plain.append (by decide) plain).append (by decide), by simp [String.toList_append]; decide⟩
  unfold combine
  split
  · exact .of_plain (by decide)
  · rename_i part shape
    exact kept part (shape ▸ List.mem_cons_self)
  · exact ((Covers.intercalate separator kept).after (by decide)).before (by decide)

theorem covers_membership (d : Dialect) {column : String} (plain : Plain column) {values : List String}
    (h : ∀ value ∈ values, Covers names value) (negated : Bool) :
    Covers names (membership d column values negated) := by
  have quoted : Plain (d.quoteColumn column) := d.plain_quoteColumn plain
  have list : Covers names (String.intercalate ", " values) := .intercalate (by decide) h
  unfold membership
  split
  · exact .of_plain (by decide)
  · exact .of_plain (by decide)
  · exact (h _ List.mem_cons_self).after (quoted.append (by decide : Plain "<>"))
  · exact (h _ List.mem_cons_self).after (quoted.append (by decide : Plain "="))
  · exact (list.after (quoted.append (by decide +kernel : Plain " NOT IN ("))).before (by decide)
  · exact (list.after (quoted.append (by decide : Plain " IN ("))).before (by decide)

theorem covers_existence {sql : String} (h : Covers names sql) (negated : Bool) :
    Covers names (existence sql negated) := by
  unfold existence
  split
  · exact .of_plain (by split <;> decide)
  · exact (h.after (by split <;> decide +kernel)).before (by decide)

theorem covers_negation {sql : String} (h : Covers names sql) : Covers names (negation sql) := by
  unfold negation
  split
  · exact .of_plain (by decide)
  · exact (h.after (by decide)).before (by decide)

theorem covers_enclose {sql : String} (h : Covers names sql) : Covers names (enclose sql) := by
  unfold enclose
  split
  · exact .of_plain (by decide)
  · exact (h.after (by decide)).before (by decide)

theorem covers_leftJoin (d : Dialect) {table aliasName on : String} (h : Covers names table) (plain : Plain aliasName)
    (h' : Covers names on) : Covers names (leftJoin d table aliasName on) := by
  have joined := (h.tableWithAlias d plain).after (by decide : Plain "LEFT JOIN ")
  unfold leftJoin
  split
  · exact joined
  · exact joined.between (by decide) h'

theorem covers_rowConditions {source : String} (h : Covers names source) {parts : List String}
    (h' : ∀ part ∈ parts, Covers names part) : Covers names (source ++ rowConditions parts) := by
  have kept : ∀ part ∈ parts.filter (· ≠ ""), Covers names part :=
    fun part member => h' part (List.mem_filter.mp member).1
  unfold rowConditions
  generalize parts.filter (· ≠ "") = shown at kept
  induction shown generalizing source with
  | nil => simpa using h
  | cons part rest ih =>
    rw [List.map_cons, String.join_cons, ← String.append_assoc, ← String.append_assoc, ← String.append_assoc]
    refine ih ?_ fun part member => kept part (List.mem_cons_of_mem _ member)
    exact (h.between (by decide) (kept part List.mem_cons_self)).before (by decide)

theorem covers_chainSource (d : Dialect) {m : Chain} (base : Plain m.baseAlias) (table : Plain m.fromTable)
    (alias_plain : Plain m.fromAlias) {joins : List String} (h : ∀ join ∈ joins, Covers names join) :
    Covers names (chainSource d m joins) := by
  apply Covers.intercalate (by decide)
  intro part member
  simp only [List.cons_append, List.mem_cons, List.mem_append, List.not_mem_nil, or_false] at member
  rcases member with rfl | inJoins | rfl
  · exact ((Covers.of_plain table).tableWithAlias d alias_plain).after (by decide)
  · exact h part inJoins
  · have id (row : String) (plain : Plain row) : Plain (d.quoteColumn (row ++ ".id")) :=
      d.plain_quoteColumn (plain.append (by decide))
    exact .of_plain ((((by decide : Plain "WHERE ").append (id _ alias_plain)).append (by decide)).append (id _ base))

theorem all_isWord_slot (n : Nat) : (Bindings.slot n).toList.all isWord = true := by
  have name : (Bindings.slot n).toList = 'p' :: (toString n).toList := by simp [Bindings.slot]
  rw [name, List.all_cons, Bool.and_eq_true_iff, List.all_eq_true]
  exact ⟨by decide, fun c digit => isWord_toString digit⟩

inductive IsValue : String → Prop
  | null : IsValue "NULL"
  | slot (n : Nat) : IsValue (":" ++ Bindings.slot n)

theorem isValue_listValue (v : Json) (b : Bindings) : IsValue (listValue v b).1 := by
  unfold listValue
  split
  · exact .null
  · exact .slot _

theorem isValue_listValues (vs : List Json) (b : Bindings) : ∀ value ∈ (listValues vs b).1, IsValue value := by
  induction vs generalizing b with
  | nil => simp [listValues]
  | cons v rest ih =>
    intro value member
    rcases List.mem_cons.mp member with rfl | later
    · exact isValue_listValue v b
    · exact ih _ value later

end Sql

theorem Condition.renderEntries_values (vs : List Json) (b : Bindings) :
    renderEntries d (vs.map .value) b = Sql.listValues vs b := by
  induction vs generalizing b with
  | nil => rfl
  | cons v rest ih => simp only [List.map_cons, renderEntries, Sql.listValues, ih]

mutual

/-- Every value of the condition is as `P` has it, and every placeholder that it writes by itself is among its values. -/
def Condition.Sound (P : String → Json → Prop) : Condition → Prop
  | .raw sql own => Covers own.names sql ∧ own.Are P
  | .all parts => SoundAll P parts
  | .any parts => SoundAll P parts
  | .columns pairs => SoundColumns P pairs
  | .oneOf column values _ => Plain column ∧ SoundEntries P values
  | .existence inner _ => inner.Sound P
  | .negation inner => inner.Sound P
  | .enclosed inner => inner.Sound P
  | .chainValues chain => SoundChain P chain
  | .chainRow chain conditions => SoundChain P chain ∧ SoundAll P conditions

def SoundAll (P : String → Json → Prop) : List Condition → Prop
  | [] => True
  | c :: rest => c.Sound P ∧ SoundAll P rest

def SoundColumns (P : String → Json → Prop) : List (String × EntryOf Condition) → Prop
  | [] => True
  | (column, .value _) :: rest => Plain column ∧ SoundColumns P rest
  | (_, .condition c) :: rest => c.Sound P ∧ SoundColumns P rest

def SoundEntries (P : String → Json → Prop) : List (EntryOf Condition) → Prop
  | [] => True
  | .value _ :: rest => SoundEntries P rest
  | .condition c :: rest => c.Sound P ∧ SoundEntries P rest

def SoundChain (P : String → Json → Prop) : ChainOf Condition → Prop
  | ⟨baseAlias, fromTable, fromAlias, value, joins, own⟩ =>
    (Plain baseAlias ∧ Plain fromTable ∧ Plain fromAlias ∧ Plain value) ∧ own.Are P ∧ SoundJoins P own.names joins

def SoundJoins (P : String → Json → Prop) (names : List String) : List (JoinOf Condition) → Prop
  | [] => True
  | ⟨table, aliasName, on⟩ :: rest =>
    (Covers names table ∧ Plain aliasName ∧ on.Sound P) ∧ SoundJoins P names rest

end

structure Renders (P : String → Json → Prop) (b : Bindings) (r : String × Bindings) : Prop where
  more : b.Extends P r.2
  covers : Covers r.2.names r.1

structure RendersAll (P : String → Json → Prop) (b : Bindings) (r : List String × Bindings) : Prop where
  more : b.Extends P r.2
  covers : ∀ part ∈ r.1, Covers r.2.names part

section

variable {P : String → Json → Prop} {b : Bindings}

theorem RendersAll.nil (b : Bindings) : RendersAll P b ([], b) := ⟨.refl b, by simp⟩

theorem RendersAll.cons {first : String × Bindings} {others : List String × Bindings} (h : Renders P b first)
    (h' : RendersAll P first.2 others) : RendersAll P b (first.1 :: others.1, others.2) := by
  refine ⟨h.more.trans h'.more, ?_⟩
  intro part member
  rcases List.mem_cons.mp member with rfl | member
  · exact h.covers.mono h'.more.names
  · exact h'.covers part member

theorem renders_slot (slots : ∀ n v, P (Bindings.slot n) v) (v : Json) {before : String} (plain : Plain before) :
    Renders P b (before ++ (":" ++ b.freeSlot), b.insert b.freeSlot v) := by
  refine ⟨Bindings.extends_insert b (slots _ v), .after plain ?_⟩
  exact covers_numbered rfl (by decide) (Bindings.mem_names_insert.mpr (.inl rfl))

namespace Sql

variable (slots : ∀ n v, P (Bindings.slot n) v)
include slots

theorem renders_listValue (v : Json) : Renders P b (listValue v b) := by
  unfold listValue
  split
  · exact ⟨.refl b, .of_plain (by decide : Plain "NULL")⟩
  · simpa using renders_slot slots v (by decide : Plain "")

theorem renders_listValues (vs : List Json) : RendersAll P b (listValues vs b) := by
  induction vs generalizing b with
  | nil => exact .nil b
  | cons v rest ih => exact .cons (renders_listValue slots v) ih

theorem renders_columnValue (d : Dialect) {column : String} (plain : Plain column) (v : Json) :
    Renders P b (columnValue d column v b) := by
  have quoted : Plain (d.quoteColumn column) := d.plain_quoteColumn plain
  unfold columnValue
  split
  · exact ⟨.refl b, .of_plain (quoted.append (by decide))⟩
  · rename_i items
    have values := renders_listValues slots (b := b) items
    exact ⟨values.more, covers_membership d plain values.covers false⟩
  · have slot := renders_slot slots (b := b) v (quoted.append (by decide : Plain " = "))
    have parts : " = :" = " = " ++ ":" := rfl
    rw [parts]
    simpa only [String.append_assoc] using slot

end Sql

namespace Condition

open Sql

variable (d : Dialect)

mutual

/-- A sound condition writes only placeholders that are bound when it is rendered. -/
theorem render_sound (slots : ∀ n v, P (Bindings.slot n) v) (c : Condition) (b : Bindings) (sound : c.Sound P) :
    Renders P b (c.render d b) := by
  match c with
  | .raw sql own =>
    obtain ⟨more, there⟩ := b.extends_merge sound.2
    exact ⟨more, sound.1.mono there⟩
  | .all parts =>
    have inner := renderAll_sound slots parts b sound
    exact ⟨inner.more, covers_combine (by decide) inner.covers⟩
  | .any parts =>
    have inner := renderAll_sound slots parts b sound
    exact ⟨inner.more, covers_combine (by decide) inner.covers⟩
  | .columns pairs =>
    have inner := renderColumns_sound slots pairs b sound
    exact ⟨inner.more, .intercalate (by decide) inner.covers⟩
  | .oneOf column values negated =>
    have inner := renderEntries_sound slots values b sound.2
    exact ⟨inner.more, covers_membership d sound.1 inner.covers negated⟩
  | .existence inner negated =>
    have inside := render_sound slots inner b sound
    exact ⟨inside.more, covers_existence inside.covers negated⟩
  | .negation inner =>
    have inside := render_sound slots inner b sound
    exact ⟨inside.more, covers_negation inside.covers⟩
  | .enclosed inner =>
    have inside := render_sound slots inner b sound
    exact ⟨inside.more, covers_enclose inside.covers⟩
  | .chainValues chain =>
    obtain ⟨baseAlias, fromTable, fromAlias, value, joins, own⟩ := chain
    have source := renderChain_sound slots ⟨baseAlias, fromTable, fromAlias, value, joins, own⟩ b sound
    have quoted : Plain (d.quoteColumn value) := d.plain_quoteColumn sound.1.2.2.2
    simp only [render]
    split
    · refine ⟨source.more, source.covers.after ?_⟩
      have named : Plain (d.quoteColumnPart "multiMatchValue") := by cases d <;> decide +kernel
      simp only [plain_append, quoted, named, and_true]
      decide
    · exact ⟨.refl b, .of_plain (by decide : Plain "0=1")⟩
  | .chainRow chain conditions =>
    have source := renderChain_sound slots chain b sound.1
    have inner := renderAll_sound slots conditions (renderChain d chain b).2 sound.2
    simp only [render]
    split
    · refine ⟨source.more.trans inner.more, ?_⟩
      have opened := (source.covers.mono inner.more.names).after (by decide +kernel : Plain "EXISTS (SELECT 1 ")
      exact (covers_rowConditions opened inner.covers).before (by decide)
    · exact ⟨.refl b, .of_plain (by decide : Plain "0=1")⟩

theorem renderAll_sound (slots : ∀ n v, P (Bindings.slot n) v) (cs : List Condition) (b : Bindings)
    (sound : SoundAll P cs) : RendersAll P b (renderAll d cs b) := by
  match cs with
  | [] => exact .nil b
  | c :: rest => exact .cons (render_sound slots c b sound.1) (renderAll_sound slots rest _ sound.2)

theorem renderColumns_sound (slots : ∀ n v, P (Bindings.slot n) v) (pairs : List (String × EntryOf Condition))
    (b : Bindings) (sound : SoundColumns P pairs) : RendersAll P b (renderColumns d pairs b) := by
  match pairs with
  | [] => exact .nil b
  | (column, .value v) :: rest =>
    exact .cons (renders_columnValue slots d sound.1 v) (renderColumns_sound slots rest _ sound.2)
  | (column, .condition c) :: rest =>
    have first := render_sound slots c b sound.1
    have others := renderColumns_sound slots rest (render d c b).2 sound.2
    simp only [renderColumns]
    split
    · exact ⟨first.more.trans others.more, others.covers⟩
    · have shown : Renders P b ("(" ++ (render d c b).1 ++ ")", (render d c b).2) :=
        ⟨first.more, (first.covers.after (by decide)).before (by decide)⟩
      exact .cons shown others

theorem renderEntries_sound (slots : ∀ n v, P (Bindings.slot n) v) (entries : List (EntryOf Condition)) (b : Bindings)
    (sound : SoundEntries P entries) : RendersAll P b (renderEntries d entries b) := by
  match entries with
  | [] => exact .nil b
  | .value v :: rest => exact .cons (renders_listValue slots v) (renderEntries_sound slots rest _ sound)
  | .condition c :: rest => exact .cons (render_sound slots c b sound.1) (renderEntries_sound slots rest _ sound.2)

theorem renderChain_sound (slots : ∀ n v, P (Bindings.slot n) v) (chain : ChainOf Condition) (b : Bindings)
    (sound : SoundChain P chain) : Renders P b (renderChain d chain b) := by
  match chain with
  | ⟨baseAlias, fromTable, fromAlias, value, joins, own⟩ =>
    obtain ⟨⟨base, table, named, -⟩, are, sound⟩ := sound
    obtain ⟨more, there⟩ := b.extends_merge are
    have inner := renderJoins_sound slots joins (b.merge own) there sound
    exact ⟨more.trans inner.more, covers_chainSource d base table named inner.covers⟩

theorem renderJoins_sound (slots : ∀ n v, P (Bindings.slot n) v) {names : List String}
    (joins : List (JoinOf Condition)) (b : Bindings) (there : names ⊆ b.names) (sound : SoundJoins P names joins) :
    RendersAll P b (renderJoins d joins b) := by
  match joins with
  | [] => exact .nil b
  | ⟨table, aliasName, on⟩ :: rest =>
    obtain ⟨⟨covered, plain, sound⟩, others⟩ := sound
    have first := render_sound slots on b sound
    have still := List.Subset.trans there first.more.names
    have tables := covered.mono still
    have joined : Renders P b (leftJoin d table aliasName (render d on b).1, (render d on b).2) :=
      ⟨first.more, covers_leftJoin d tables plain first.covers⟩
    exact .cons joined (renderJoins_sound slots rest _ still others)

end

end Condition

end

end RelationFilter
