import RelationFilter.Proofs.Path.Wording
import RelationFilter.Proofs.Sql.Blind

namespace RelationFilter

open Sql

/-- The same members are there, and null or not. As many items are submitted for each field that takes several, and the
authenticated records, if any, are of one collection. -/
structure Request.Alike (base : Collection) (r r' : Request) : Prop where
  members (path : List String) : (r.members.nested? path).map Json.isNull = (r'.members.nested? path).map Json.isNull
  items (f : Field) : f ∈ base.fields → f.isArrayable = true →
    (RecordScope.submittedItems r f).length = (RecordScope.submittedItems r' f).length
  auth : r.auth.map AuthRecord.collection = r'.auth.map AuthRecord.collection

theorem Request.alike_self (base : Collection) (q : Option Request) : Option.Rel (Alike base) q q := by
  cases q with
  | none => exact .none
  | some r => exact .some ⟨fun _ => rfl, fun _ _ _ => rfl, rfl⟩

inductive Root.Alike : Root → Root → Prop
  | refl (r : Root) : Alike r r
  | auth (table id id' : String) : Alike (.auth table id) (.auth table id')
  | submitted (source field : String) (ids ids' : List String) (multiple : Bool) (many : ids.length = ids'.length) :
      Alike (.submitted source field ids multiple) (.submitted source field ids' multiple)
  | submittedItems (field placeholder items items' : String) (multiple : Bool) :
      Alike (.submittedItems field placeholder items multiple) (.submittedItems field placeholder items' multiple)

structure Operand.Alike (d : Dialect) (o o' : Operand) : Prop where
  texts (b b' : Bindings) : b.names = b'.names → o.texts d b = o'.texts d b'
  names : o.bindings.names = o'.bindings.names
  chainNames : o.chain.map (fun m => m.bindings.names) = o'.chain.map fun m => m.bindings.names
  direct : o.direct = o'.direct
  guard : o.guard = o'.guard

section

variable (d : Dialect) {b b' : Bindings}

theorem JoinOf.texts_blind (same : b.names = b'.names) (j : Join) : j.texts d b = j.texts d b' := by
  unfold texts
  rw [(Condition.render_blind d j.on same).text]

theorem ChainOf.texts_blind (same : b.names = b'.names) (m : Chain) : m.texts d b = m.texts d b' := by
  unfold texts
  rw [funext (JoinOf.texts_blind d same)]

theorem Operand.Alike.refl (o : Operand) : o.Alike d o := by
  refine ⟨?_, rfl, rfl, rfl, rfl⟩
  intro b b' same
  unfold Operand.texts
  rw [funext (ChainOf.texts_blind d same)]

namespace Root.Alike

variable {r r' : Root}

theorem aliasOn (h : r.Alike r') (side : Side) : r.aliasOn side = r'.aliasOn side := by
  cases h <;> rfl

theorem isMultiple (h : r.Alike r') : r.isMultiple = r'.isMultiple := by
  cases h <;> rfl

theorem names (h : r.Alike r') (side : Side) : (r.bindings side).names = (r'.bindings side).names := by
  cases h <;> rfl

theorem joins (h : r.Alike r') (side : Side) (same : b.names = b'.names) :
    (r.joins d side).map (JoinOf.texts d b) = (r'.joins d side).map (JoinOf.texts d b') := by
  cases h with
  | refl => rw [funext (JoinOf.texts_blind d same)]
  | auth table id id' =>
    have condition (column : String) : ((Condition.columnIs column (.string id)).render d b).1 =
        ((Condition.columnIs column (.string id')).render d b').1 := by
      simp [Condition.columnIs, Condition.render, Condition.renderColumns, columnValue, Bindings.freeSlot_congr same]
    simp only [Root.joins, List.map, JoinOf.texts, condition]
    rfl
  | submitted source field ids ids' multiple many =>
    have nulls : (ids.map Json.string).map Json.isNull = (ids'.map Json.string).map Json.isNull := by
      simp [Json.isNull, Function.comp_def, many]
    have condition (column : String) : ((Condition.valueIn column (ids.map .string)).render d b).1 =
        ((Condition.valueIn column (ids'.map .string)).render d b').1 := by
      show membership d column (Condition.renderEntries d (List.map EntryOf.value (ids.map .string)) b).1 false =
        membership d column (Condition.renderEntries d (List.map EntryOf.value (ids'.map .string)) b').1 false
      rw [Condition.renderEntries_values, Condition.renderEntries_values, (listValues_blind nulls same).text]
    simp only [Root.joins, List.map, JoinOf.texts, condition]
    rfl
  | submittedItems => rfl

variable (hops : List Hop)

theorem routeAlias (h : r.Alike r') (side : Side) :
    (Route.mk r hops).aliasOn side = (Route.mk r' hops).aliasOn side := by
  unfold Route.aliasOn
  rw [h.aliasOn]

theorem routeJoins (h : r.Alike r') (side : Side) (same : b.names = b'.names) :
    ((Route.mk r hops).joins d side).map (JoinOf.texts d b) =
      ((Route.mk r' hops).joins d side).map (JoinOf.texts d b') := by
  unfold Route.joins
  rw [List.map_append, List.map_append, h.joins d side same, h.aliasOn, funext (JoinOf.texts_blind d same)]

theorem chain (h : r.Alike r') (table : String) (a : Arrival) (same : b.names = b'.names) :
    ((Route.mk r hops).chain d table a).texts d b = ((Route.mk r' hops).chain d table a).texts d b' := by
  unfold ChainOf.texts
  rw [List.flatMap_def, List.flatMap_def]
  simp only [Route.chain, h.routeJoins d hops .copy same, h.routeAlias hops .copy]

theorem operand (h : r.Alike r') (table : String) (a : Arrival) :
    ((Route.mk r hops).operand d table a).Alike d ((Route.mk r' hops).operand d table a) := by
  have row := h.routeAlias hops .primary
  have multiple : (Route.mk r hops).isMultiple = (Route.mk r' hops).isMultiple := by
    unfold Route.isMultiple
    rw [h.isMultiple]
  by_cases none : a = .null
  · rw [none]
    exact .refl d _
  · have shape (root : Root) : (Route.mk root hops).operand d table a =
        { text := a.text d ((Route.mk root hops).aliasOn .primary)
          direct := a.isDirect
          bindings := root.bindings .primary
          chain := if (Route.mk root hops).isMultiple then some ((Route.mk root hops).chain d table a) else Option.none
          guard := a.guard ((Route.mk root hops).aliasOn .primary) } := by
      cases a with
      | null => contradiction
      | _ => rfl
    rw [shape, shape, row, multiple]
    refine ⟨?_, h.names .primary, ?_, rfl, rfl⟩
    · intro b b' same
      unfold Operand.texts
      split
      · simp [h.chain d hops table a same]
      · rfl
    · split
      · simp [Route.chain, h.names .copy]
      · rfl

end Root.Alike

end

end RelationFilter
