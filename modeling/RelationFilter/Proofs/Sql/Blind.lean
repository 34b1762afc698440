import RelationFilter.Proofs.Sql.Bindings
import RelationFilter.Sql.Render

namespace RelationFilter

open Sql

namespace Bindings

variable {b c : Bindings}

theorem freeSlot_congr (same : b.names = c.names) : b.freeSlot = c.freeSlot := by
  have size : b.size = c.size := by simpa [names, Bindings.size] using congrArg List.length same
  have taken (name : String) : b.contains name = c.contains name := by
    rw [Bool.eq_iff_iff, contains_iff, contains_iff, same]
  have index (tries n : Nat) : b.freeIndex tries n = c.freeIndex tries n := by
    induction tries generalizing n with
    | zero => rfl
    | succ tries ih => simp only [freeIndex, taken, ih]
  rw [freeSlot, freeSlot, size, index]

theorem names_insert_congr (same : b.names = c.names) (name : String) (v w : Json) :
    (b.insert name v).names = (c.insert name w).names := by
  rw [names_insert, names_insert, same]

theorem names_merge_congr (same : b.names = c.names) (own : Bindings) : (b.merge own).names = (c.merge own).names := by
  unfold merge
  induction own.entries generalizing b c with
  | nil => exact same
  | cons e rest ih => exact ih (names_insert_congr same e.1 e.2 e.2)

end Bindings

namespace Sql

structure SameNames {α : Type} (r r' : α × Bindings) : Prop where
  text : r.1 = r'.1
  names : r.2.names = r'.2.names

variable {α β γ : Type}

theorem SameNames.map (f : α → β) {r r' : α × Bindings} (h : SameNames r r') : SameNames (f r.1, r.2) (f r'.1, r'.2) :=
  ⟨congrArg f h.text, h.names⟩

/-- A result from two parts, the second of which carries on the bindings of the first. -/
theorem SameNames.both (f : α → β → γ) {r r' : α × Bindings} {q q' : β × Bindings} (h : SameNames r r')
    (later : SameNames q q') : SameNames (f r.1 q.1, q.2) (f r'.1 q'.1, q'.2) := by
  refine ⟨?_, later.names⟩
  rw [h.text, later.text]

variable {b c : Bindings}

theorem bind_blind (same : b.names = c.names) (before : String) (v w : Json) :
    SameNames (before ++ b.freeSlot, b.insert b.freeSlot v) (before ++ c.freeSlot, c.insert c.freeSlot w) := by
  rw [Bindings.freeSlot_congr same]
  exact ⟨rfl, Bindings.names_insert_congr same _ v w⟩

theorem listValue_blind {v w : Json} (nulls : v.isNull = w.isNull) (same : b.names = c.names) :
    SameNames (listValue v b) (listValue w c) := by
  unfold listValue
  rw [nulls]
  split
  · exact ⟨rfl, same⟩
  · exact bind_blind same ":" v w

theorem listValues_blind {vs ws : List Json} (nulls : vs.map Json.isNull = ws.map Json.isNull)
    (same : b.names = c.names) : SameNames (listValues vs b) (listValues ws c) := by
  induction vs generalizing ws b c with
  | nil =>
    rw [List.map_eq_nil_iff.mp nulls.symm]
    exact ⟨rfl, same⟩
  | cons v rest ih =>
    obtain ⟨w, others, rfl, first, later⟩ := List.map_eq_cons_iff.mp nulls.symm
    have here := listValue_blind first.symm same
    exact here.both List.cons (ih later.symm here.names)

theorem columnValue_blind (d : Dialect) (column : String) (v : Json) (same : b.names = c.names) :
    SameNames (columnValue d column v b) (columnValue d column v c) := by
  cases v with
  | null => exact ⟨rfl, same⟩
  | array items => exact (listValues_blind rfl same).map fun values => membership d column values false
  | _ => exact bind_blind same (d.quoteColumn column ++ " = :") _ _

end Sql

namespace Condition

variable (d : Dialect)

mutual

/-- What was bound before enters the text of a condition by its names only. -/
theorem render_blind (c : Condition) {b b' : Bindings} (same : b.names = b'.names) :
    SameNames (render d c b) (render d c b') := by
  match c with
  | .raw sql own => exact ⟨rfl, Bindings.names_merge_congr same own⟩
  | .all parts => exact (renderAll_blind parts same).map (combine "AND")
  | .any parts => exact (renderAll_blind parts same).map (combine "OR")
  | .columns pairs => exact (renderColumns_blind pairs same).map (String.intercalate " AND ")
  | .oneOf column values negated =>
    exact (renderEntries_blind values same).map fun values => membership d column values negated
  | .existence inner negated => exact (render_blind inner same).map fun sql => Sql.existence sql negated
  | .negation inner => exact (render_blind inner same).map Sql.negation
  | .enclosed inner => exact (render_blind inner same).map enclose
  | .chainValues ⟨baseAlias, fromTable, fromAlias, value, joins, own⟩ =>
    have source := renderChain_blind ⟨baseAlias, fromTable, fromAlias, value, joins, own⟩ same
    simp only [render]
    split
    · exact source.map fun sql =>
        "SELECT " ++ d.quoteColumn value ++ " AS " ++ d.quoteColumnPart "multiMatchValue" ++ " " ++ sql
    · exact ⟨rfl, same⟩
  | .chainRow chain conditions =>
    have source := renderChain_blind chain same
    have inner := renderAll_blind conditions source.names
    simp only [render]
    split
    · exact source.both (fun sql parts => "EXISTS (SELECT 1 " ++ sql ++ rowConditions parts ++ ")") inner
    · exact ⟨rfl, same⟩

theorem renderAll_blind (cs : List Condition) {b b' : Bindings} (same : b.names = b'.names) :
    SameNames (renderAll d cs b) (renderAll d cs b') := by
  match cs with
  | [] => exact ⟨rfl, same⟩
  | c :: rest =>
    have first := render_blind c same
    exact first.both List.cons (renderAll_blind rest first.names)

theorem renderColumns_blind (pairs : List (String × EntryOf Condition)) {b b' : Bindings} (same : b.names = b'.names) :
    SameNames (renderColumns d pairs b) (renderColumns d pairs b') := by
  match pairs with
  | [] => exact ⟨rfl, same⟩
  | (column, .value v) :: rest =>
    have first := columnValue_blind d column v same
    exact first.both List.cons (renderColumns_blind rest first.names)
  | (_, .condition c) :: rest =>
    have first := render_blind c same
    exact first.both (fun sql others => if sql = "" then others else ("(" ++ sql ++ ")") :: others)
      (renderColumns_blind rest first.names)

theorem renderEntries_blind (entries : List (EntryOf Condition)) {b b' : Bindings} (same : b.names = b'.names) :
    SameNames (renderEntries d entries b) (renderEntries d entries b') := by
  match entries with
  | [] => exact ⟨rfl, same⟩
  | .value v :: rest =>
    have first := listValue_blind (v := v) rfl same
    exact first.both List.cons (renderEntries_blind rest first.names)
  | .condition c :: rest =>
    have first := render_blind c same
    exact first.both List.cons (renderEntries_blind rest first.names)

theorem renderChain_blind (chain : ChainOf Condition) {b b' : Bindings} (same : b.names = b'.names) :
    SameNames (renderChain d chain b) (renderChain d chain b') := by
  match chain with
  | ⟨baseAlias, fromTable, fromAlias, value, joins, own⟩ =>
    have inner := renderJoins_blind joins (Bindings.names_merge_congr same own)
    exact inner.map (chainSource d (ChainOf.mk baseAlias fromTable fromAlias value joins own))

theorem renderJoins_blind (joins : List (JoinOf Condition)) {b b' : Bindings} (same : b.names = b'.names) :
    SameNames (renderJoins d joins b) (renderJoins d joins b') := by
  match joins with
  | [] => exact ⟨rfl, same⟩
  | ⟨table, aliasName, on⟩ :: rest =>
    have first := render_blind on same
    exact first.both (fun sql others => leftJoin d table aliasName sql :: others) (renderJoins_blind rest first.names)

end

end Condition
end RelationFilter
