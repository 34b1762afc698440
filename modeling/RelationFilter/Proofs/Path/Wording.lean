import RelationFilter.Path.RecordScope
import RelationFilter.Proofs.Schema.Lookup
import RelationFilter.Proofs.Sql.Harmless

namespace RelationFilter

open Sql

def IsSegment (name : String) : Prop := ∀ c ∈ name.toList, Text.isWord c = true ∨ c = ':'

theorem Sql.IsWord.segment {name : String} (h : IsWord name) : IsSegment name :=
  fun c member => .inl (List.all_eq_true.mp h c member)

theorem IsSegment.append {a b : String} (ha : IsSegment a) (hb : IsSegment b) : IsSegment (a ++ b) := by
  intro c member
  rw [String.toList_append] at member
  rcases List.mem_append.mp member with member | member
  · exact ha c member
  · exact hb c member

/-- A colon cannot stand in a column identifier. -/
theorem IsSegment.identifier {name : String} (h : IsSegment name) : IsWord (identifier name) := by
  unfold IsWord RelationFilter.identifier
  rw [String.toList_ofList, List.all_eq_true]
  intro c member
  obtain ⟨inName, kept⟩ := List.mem_filter.mp member
  rcases h c inName with word | rfl
  · exact word
  · exact absurd kept (by decide)

theorem Sql.IsWord.identifier {name : String} (h : IsWord name) : IsWord (RelationFilter.identifier name) :=
  h.segment.identifier

def Root.Worded : Root → Prop
  | .base table => IsWord table
  | .collection table aliasName => IsWord table ∧ IsWord aliasName
  | .auth table _ => IsWord table
  | .submitted source field _ _ => IsWord source ∧ IsWord field
  | .submittedItems field placeholder _ _ => IsWord field ∧ IsWord placeholder

def Hop.Worded : Hop → Prop
  | .record field table => IsWord field ∧ IsWord table
  | .records field table => IsWord field ∧ IsWord table
  | .referrers segment field table _ => IsWord segment ∧ IsWord field ∧ IsWord table
  | .elements field _ => IsWord field

structure Route.Worded (r : Route) : Prop where
  root : r.root.Worded
  hops : ∀ h ∈ r.hops, h.Worded

def Arrival.Worded : Arrival → Prop
  | .null => True
  | .column name _ => IsWord name
  | .json field path => IsWord field ∧ path.toList.all isPlainSafe = true
  | .count field => IsWord field
  | .element => True

theorem Root.isWord_aliasOn {r : Root} (worded : r.Worded) (side : Side) : IsWord (r.aliasOn side) := by
  cases r with
  | base table =>
    cases side with
    | primary => exact worded
    | copy => exact IsWord.append (by decide) worded
  | collection table aliasName =>
    cases side with
    | primary => exact worded.2
    | copy => exact IsWord.append (by decide) worded.2
  | auth table id => cases side <;> exact IsWord.append (by decide) worded
  | submitted source field ids multiple =>
    cases side <;> exact (((IsWord.append (by decide) worded.1).append (by decide)).append worded.2).identifier
  | submittedItems field placeholder items multiple =>
    cases side <;> exact (IsWord.append (by decide) worded.1).append (by decide)

theorem isWord_glued {row field : String} (hr : IsWord row) (hf : IsWord field) : IsWord (row ++ "_" ++ field) :=
  (hr.append (by decide)).append hf

theorem isWord_elementAlias {row field : String} (hr : IsWord row) (hf : IsWord field) :
    IsWord (Hop.elementAlias row field) := (isWord_glued hr hf).append (by decide)

theorem Hop.isWord_target {h : Hop} {row : String} (worded : h.Worded) (hr : IsWord row) : IsWord (h.target row) := by
  cases h with
  | record field table => exact isWord_glued hr worded.1
  | records field table => exact isWord_glued hr worded.1
  | referrers segment field table multiple => exact isWord_glued hr worded.1
  | elements field multiple => exact isWord_elementAlias hr worded

theorem Route.isWord_hopAlias {hops : List Hop} {row : String} (worded : ∀ h ∈ hops, h.Worded) (hr : IsWord row) :
    IsWord (hopAlias row hops) := by
  induction hops generalizing row with
  | nil => exact hr
  | cons h rest ih =>
    have next := Hop.isWord_target (worded h List.mem_cons_self) hr
    exact ih (fun h member => worded h (List.mem_cons_of_mem _ member)) next

def JoinOf.texts (d : Dialect) (b : Bindings) (j : Join) : List String := [j.table, j.aliasName, (j.on.render d b).1]

def ChainOf.texts (d : Dialect) (b : Bindings) (m : Chain) : List String :=
  [m.baseAlias, m.fromTable, m.fromAlias, m.value] ++ m.joins.flatMap (JoinOf.texts d b)

def Operand.texts (d : Dialect) (b : Bindings) (o : Operand) : List String :=
  o.text :: o.chain.toList.flatMap (ChainOf.texts d b)

structure SafeJoin (d : Dialect) (j : Join) : Prop where
  table : Safe j.table
  aliasName : Safe j.aliasName
  on (b : Bindings) : Safe (j.on.render d b).1

theorem SafeJoin.texts {d : Dialect} {j : Join} (h : SafeJoin d j) (b : Bindings) :
    ∀ text ∈ j.texts d b, Safe text := by
  intro text member
  simp only [JoinOf.texts, List.mem_cons, List.not_mem_nil, or_false] at member
  rcases member with rfl | rfl | rfl
  · exact h.table
  · exact h.aliasName
  · exact h.on b

variable (d : Dialect)

theorem safe_always (b : Bindings) : Safe (always.render d b).1 :=
  safe_of_plain (by decide : "1=1".toList.all isPlainSafe = true)

theorem safe_columnIs {column : String} (h : Dotted column) (id : String) (b : Bindings) :
    Safe ((Condition.columnIs column (.string id)).render d b).1 := by
  have slot := isWord_slot (b.freeIndex b.size b.size)
  have text : ((Condition.columnIs column (.string id)).render d b).1 =
      d.quoteColumn column ++ " = :" ++ b.freeSlot := by
    simp [Condition.columnIs, Condition.render, Condition.renderColumns, columnValue]
  rw [text]
  exact ((safe_quoteColumn d h).append (safe_of_plain (by decide))).append slot.safe

theorem safe_valueIn {column : String} (h : Dotted column) (values : List Json) (b : Bindings) :
    Safe ((Condition.valueIn column values).render d b).1 := by
  show Safe (membership d column (Condition.renderEntries d (values.map .value) b).1 false)
  rw [Condition.renderEntries_values]
  exact safe_membership d h fun value member => (isValue_listValues values b value member).safe

theorem Root.safe_joins {r : Root} (worded : r.Worded) (side : Side) : ∀ j ∈ r.joins d side, SafeJoin d j := by
  have row := isWord_aliasOn worded side
  have id := dotted_column row (by decide : IsWord "id")
  rw [String.append_assoc] at id
  intro j member
  cases r with
  | base table => cases member
  | collection table aliasName =>
    rw [List.mem_singleton.mp member]
    exact ⟨worded.1.safe, row.safe, safe_always d⟩
  | auth table authId =>
    rw [List.mem_singleton.mp member]
    exact ⟨worded.safe, row.safe, safe_columnIs d id authId⟩
  | submitted source field ids multiple =>
    rw [List.mem_singleton.mp member]
    exact ⟨worded.1.identifier.safe, row.safe, safe_valueIn d id _⟩
  | submittedItems field name items multiple =>
    rw [List.mem_singleton.mp member]
    have bound : IsWord (placeholder side name) := by
      cases side with
      | primary => exact worded.2
      | copy => exact IsWord.append (by decide) worded.2
    exact ⟨safe_boundElements d bound, row.safe, safe_always d⟩

theorem Hop.safe_referrerCondition {row segment field : String} (hr : IsWord row) (hs : IsWord segment)
    (hf : IsWord field) (multiple : Bool) : Safe (referrerCondition d row segment field multiple) := by
  have new := isWord_glued hr hs
  cases multiple with
  | false =>
    have column := (dotted_column new hf).safe
    exact ((column.append (safe_of_plain (by decide))).append hr.safe).append (safe_of_plain (by decide))
  | true =>
    have elements := safe_columnElements d (dotted_column new hf)
    have je := (isWord_elementAlias hr hs).safe
    apply safe_weave "" [(row, ".id IN (SELECT "), (elementAlias row segment, ".value FROM "),
      (d.columnElements (row ++ "_" ++ segment ++ "." ++ field), " "), (elementAlias row segment, ")")]
    · simp [referrerCondition, weave]
    · simp only [List.map]
      decide
    · simp [hr.safe, je, elements]

theorem Hop.safe_joins {h : Hop} {row : String} (worded : h.Worded) (hr : IsWord row) :
    ∀ j ∈ h.joins d row, SafeJoin d j := by
  have new := isWord_target worded hr
  have plain {text : String} (safe : text.toList.all isPlainSafe = true) : Safe text := safe_of_plain safe
  intro j member
  cases h with
  | record field table =>
    rw [List.mem_singleton.mp member]
    refine ⟨worded.2.safe, new.safe, fun b => ?_⟩
    exact (((new.safe.append (plain (by decide))).append hr.safe).append (plain (by decide))).append worded.1.safe
  | records field table =>
    have je := isWord_elementAlias hr worded.1
    simp only [joins, List.mem_cons, List.not_mem_nil, or_false] at member
    rcases member with rfl | rfl
    · exact ⟨safe_columnElements d (dotted_column hr worded.1), je.safe, safe_always d⟩
    · refine ⟨worded.2.safe, new.safe, fun b => ?_⟩
      exact ((new.safe.append (plain (by decide))).append je.safe).append (plain (by decide))
  | referrers segment field table multiple =>
    rw [List.mem_singleton.mp member]
    exact ⟨worded.2.2.safe, new.safe, fun b => safe_referrerCondition d hr worded.1 worded.2.1 multiple⟩
  | elements field multiple =>
    rw [List.mem_singleton.mp member]
    exact ⟨safe_columnElements d (dotted_column hr worded), new.safe, safe_always d⟩

theorem Arrival.safe_text {a : Arrival} {row : String} (worded : a.Worded) (hr : IsWord row) : Safe (a.text d row) := by
  cases a with
  | null => exact safe_of_plain (by decide : "NULL".toList.all isPlainSafe = true)
  | column name guarded => exact (dotted_column hr worded).safe
  | json field path => exact safe_jsonExtract d (dotted_column hr worded.1) worded.2
  | count field => exact safe_elementCount d (dotted_column hr worded)
  | element => exact hr.safe.append (safe_of_plain (by decide))

namespace Route

variable {r : Route} {a : Arrival}

theorem safe_hopJoins {hops : List Hop} {row : String} (worded : ∀ h ∈ hops, h.Worded) (hr : IsWord row) :
    ∀ j ∈ hopJoins d row hops, SafeJoin d j := by
  induction hops generalizing row with
  | nil => nofun
  | cons h rest ih =>
    have here := worded h List.mem_cons_self
    intro j member
    rcases List.mem_append.mp member with first | later
    · exact h.safe_joins d here hr j first
    · exact ih (fun h member => worded h (List.mem_cons_of_mem _ member)) (h.isWord_target here hr) j later

theorem safe_joins (worded : r.Worded) (side : Side) : ∀ j ∈ r.joins d side, SafeJoin d j := by
  intro j member
  rcases List.mem_append.mp member with first | later
  · exact r.root.safe_joins d worded.root side j first
  · exact safe_hopJoins d worded.hops (r.root.isWord_aliasOn worded.root side) j later

theorem isWord_aliasOn (worded : r.Worded) (side : Side) : IsWord (r.aliasOn side) :=
  isWord_hopAlias worded.hops (r.root.isWord_aliasOn worded.root side)

theorem safe_chain {table : String} (named : IsWord table) (worded : r.Worded) (arrival : a.Worded) (b : Bindings) :
    ∀ text ∈ (r.chain d table a).texts d b, Safe text := by
  intro text member
  rcases List.mem_append.mp member with own | inJoins
  · simp only [chain, List.mem_cons, List.not_mem_nil, or_false] at own
    rcases own with rfl | rfl | rfl | rfl
    · exact named.safe
    · exact named.safe
    · exact ((Root.base table).isWord_aliasOn named .copy).safe
    · exact a.safe_text d arrival (isWord_aliasOn worded .copy)
  · obtain ⟨j, there, inJoin⟩ := List.mem_flatMap.mp inJoins
    exact (safe_joins d worded .copy j there).texts b text inJoin

theorem safe_operand {table : String} (named : IsWord table) (worded : r.Worded) (arrival : a.Worded) (b : Bindings) :
    ∀ text ∈ (r.operand d table a).texts d b, Safe text := by
  have value := a.safe_text d arrival (isWord_aliasOn worded .primary)
  have values := safe_chain d named worded arrival b
  intro text member
  rcases List.mem_cons.mp member with rfl | inChain
  · cases a <;> exact value
  · obtain ⟨m, given, inTexts⟩ := List.mem_flatMap.mp inChain
    have same : m = r.chain d table a := by
      cases a with
      | null => cases given
      | _ =>
        simp only [operand, Option.mem_toList, Option.ite_none_right_eq_some, Option.some.injEq] at given
        exact given.2.symm
    rw [same] at inTexts
    exact values text inTexts

end Route

structure Collection.Worded (c : Collection) : Prop where
  name : IsWord c.name
  fields : ∀ f ∈ c.fields, IsWord f.name

instance (c : Collection) : Decidable c.Worded :=
  decidable_of_iff (IsWord c.name ∧ ∀ f ∈ c.fields, IsWord f.name) ⟨fun h => ⟨h.1, h.2⟩, fun h => ⟨h.name, h.fields⟩⟩

def AllWorded (cs : List Collection) : Prop := ∀ c ∈ cs, c.Worded

instance (cs : List Collection) : Decidable (AllWorded cs) := inferInstanceAs (Decidable (∀ c ∈ cs, c.Worded))

theorem Collection.Worded.field {c : Collection} (h : c.Worded) {name : String} {f : Field}
    (found : c.field? name = some f) : IsWord f.name :=
  h.fields f (List.mem_of_find?_eq_some found)

theorem AllWorded.concat {cs : List Collection} (h : AllWorded cs) {c : Collection} (last : c.Worded) :
    AllWorded (cs ++ [c]) := by
  intro c' member
  rcases List.mem_append.mp member with earlier | here
  · exact h c' earlier
  · rw [List.mem_singleton.mp here]
    exact last

theorem loadCollection_worded {cat : Catalog} (catalog : AllWorded cat.collections) {loaded loaded' : List Collection}
    (h : AllWorded loaded) {nameOrId : String} {c? : Option Collection}
    (load : loadCollection cat loaded nameOrId = (c?, loaded')) : (∀ c, c? = some c → c.Worded) ∧ AllWorded loaded' := by
  unfold loadCollection at load
  split at load
  · rename_i c found
    cases load
    refine ⟨?_, h⟩
    rintro _ ⟨⟩
    exact h c (List.mem_of_find?_eq_some found)
  · split at load
    · rename_i c found
      have worded := catalog c (Catalog.mem_of_get? found)
      cases load
      refine ⟨?_, h.concat worded⟩
      rintro _ ⟨⟩
      exact worded
    · cases load
      exact ⟨nofun, h⟩

theorem rememberCollection_worded {loaded : List Collection} (h : AllWorded loaded) {c : Collection}
    (worded : c.Worded) : AllWorded (rememberCollection loaded c) := by
  unfold rememberCollection
  split
  · exact h
  · exact h.concat worded

namespace Step

def Worded : Step → Prop
  | .hop h next => h.Worded ∧ next.Worded
  | .absent _ => True
  | .failure _ => True

variable {cat : Catalog} {loaded : List Collection}

theorem ofRelation_worded (catalog : AllWorded cat.collections) (h : AllWorded loaded) {f : Field}
    (named : IsWord f.name) (segment : String) :
    (ofRelation cat loaded f segment).1.Worded ∧ AllWorded (ofRelation cat loaded f segment).2 := by
  unfold ofRelation
  split
  · exact ⟨trivial, h⟩
  · split
    · exact ⟨trivial, h⟩
    · split
      · rename_i load
        exact ⟨trivial, (loadCollection_worded catalog h load).2⟩
      · rename_i c _ load
        obtain ⟨found, later⟩ := loadCollection_worded catalog h load
        have reached := found c rfl
        refine ⟨⟨?_, reached⟩, later⟩
        split <;> exact ⟨named.identifier, reached.name.identifier⟩

theorem ofReferrer_worded (current : Collection) {other : Collection} (reached : other.Worded) {f : Field}
    (named : IsWord f.name) {segment : String} (word : IsWord segment) :
    (ofReferrer current other f segment).Worded := by
  unfold ofReferrer
  split
  · trivial
  · split
    · trivial
    · split
      · trivial
      · exact ⟨⟨word.identifier, named.identifier, reached.name.identifier⟩, reached⟩

theorem isWord_of_parse? {segment : String} {back : BackReference} (parsed : BackReference.parse? segment = some back) :
    IsWord segment := by
  unfold BackReference.parse? at parsed
  split at parsed
  · rename_i word
    exact word
  · cases parsed

theorem ofSegment_worded (catalog : AllWorded cat.collections) (h : AllWorded loaded) {current : Collection}
    (worded : current.Worded) {segment : String} {step : Step} {loaded' : List Collection}
    (made : ofSegment cat loaded current segment = (step, loaded')) : step.Worded ∧ AllWorded loaded' := by
  suffices both : (ofSegment cat loaded current segment).1.Worded ∧ AllWorded (ofSegment cat loaded current segment).2 by
    rwa [made] at both
  unfold ofSegment
  split
  · rename_i f field
    exact ofRelation_worded catalog h (worded.field field) segment
  · unfold ofBackReference
    split
    · exact ⟨trivial, h⟩
    · rename_i back parsed
      split
      · rename_i load
        exact ⟨trivial, (loadCollection_worded catalog h load).2⟩
      · rename_i other _ load
        obtain ⟨found, later⟩ := loadCollection_worded catalog h load
        have reached := found other rfl
        split
        · exact ⟨trivial, later⟩
        · rename_i f field
          exact ⟨ofReferrer_worded current reached (reached.field field) (isWord_of_parse? parsed), later⟩

end Step

namespace JsonPath

theorem plainSafe_step {segment : String} (h : IsSegment segment) : ∀ c ∈ step segment, isPlainSafe c = true := by
  intro c member
  unfold step at member
  split at member
  · simp only [List.cons_append, List.mem_cons, List.mem_append, List.not_mem_nil, or_false] at member
    rcases member with rfl | inSegment | rfl
    · decide
    · rcases h c inSegment with word | rfl
      · exact plainSafe_of_isWord word
      · decide
    · decide
  · rcases List.mem_cons.mp member with rfl | inName
    · decide
    · exact plainSafe_of_isWord (List.all_eq_true.mp h.identifier c inName)

theorem plainSafe_ofSegments {segments : List String} (h : ∀ segment ∈ segments, IsSegment segment) :
    (ofSegments segments).toList.all isPlainSafe = true := by
  have whole : ∀ c ∈ segments.flatMap step, isPlainSafe c = true := by
    intro c member
    obtain ⟨segment, there, inStep⟩ := List.mem_flatMap.mp member
    exact plainSafe_step (h segment there) c inStep
  rw [ofSegments, String.toList_ofList, List.all_eq_true]
  intro c member
  apply whole
  unfold dropDot at member
  split at member
  · rename_i rest shape
    rw [shape]
    exact List.mem_cons_of_mem _ member
  · exact member

end JsonPath

namespace Walk

structure Worded (w : Walk) : Prop where
  hops : ∀ h ∈ w.hops, h.Worded
  loaded : AllWorded w.loaded
  arrival : ∀ a, w.outcome = .ok a → a.Worded

variable {loaded : List Collection}

theorem worded_of_error (h : AllWorded loaded) (cause : PathCause) : Worded ⟨[], loaded, .error cause⟩ :=
  ⟨nofun, h, nofun⟩

theorem worded_of_missing (rules : WalkRules) (h : AllWorded loaded) (cause : PathCause) :
    Worded ⟨[], loaded, missing rules cause⟩ := by
  refine ⟨nofun, h, ?_⟩
  intro a reached
  unfold missing at reached
  split at reached
  · cases reached
    trivial
  · cases reached

theorem ofField_worded {f : Field} (named : IsWord f.name) (modifier : Option Modifier) :
    (∀ h ∈ (ofField f modifier).1, h.Worded) ∧ (ofField f modifier).2.Worded := by
  unfold ofField
  split
  · exact ⟨nofun, named.identifier⟩
  · refine ⟨?_, trivial⟩
    intro h member
    rw [List.mem_singleton.mp member]
    exact named.identifier
  · refine ⟨nofun, ?_⟩
    split
    · exact ⟨named.identifier, by decide⟩
    · exact named.identifier

theorem isWord_of_hasSystemField {c : Collection} {name : String} (h : c.hasSystemField name = true) : IsWord name := by
  unfold Collection.hasSystemField Collection.systemFields at h
  rw [List.contains_iff_mem] at h
  have each : ∀ column ∈ ["id", "created", "updated", "username", "verified", "emailVisibility", "email"],
      IsWord column := by decide
  apply each
  split at h
  · exact h
  · exact List.mem_append_left _ h

theorem ofLast_worded (rules : WalkRules) {c : Collection} (worded : c.Worded) (h : AllWorded loaded)
    (segment : String) : (ofLast rules c loaded segment).Worded := by
  unfold ofLast
  split
  · rename_i system
    refine ⟨nofun, h, ?_⟩
    intro a reached
    cases reached
    exact (isWord_of_hasSystemField system).identifier
  · split
    · exact worded_of_error h _
    · split
      · exact worded_of_missing _ h _
      · rename_i f field
        have both := ofField_worded (worded.field field)
        refine ⟨(both _).1, h, ?_⟩
        intro a reached
        cases reached
        exact (both _).2

theorem ofSegments_worded (rules : WalkRules) (catalog : AllWorded rules.catalog.collections) (depth : Nat)
    {c : Collection} (worded : c.Worded) (h : AllWorded loaded) {segments : List String}
    (path : ∀ segment ∈ segments.tail, IsSegment segment) : (ofSegments rules depth c loaded segments).Worded := by
  fun_induction ofSegments rules depth c loaded segments with
  | case1 => exact worded_of_error h _
  | case2 => exact ofLast_worded _ worded h _
  | case3 depth c loaded segment next rest f field =>
    have found := (Option.filter_eq_some_iff.mp field).1
    refine ⟨nofun, h, ?_⟩
    intro a reached
    cases reached
    exact ⟨(worded.field found).identifier, JsonPath.plainSafe_ofSegments path⟩
  | case4 => exact worded_of_error h _
  | case5 depth c loaded segment next rest _ _ hop reached loaded' step ih =>
    have made := Step.ofSegment_worded catalog h worded step
    have further := ih made.1.2 made.2 fun segment member => path segment (List.mem_cons_of_mem _ member)
    refine ⟨?_, further.loaded, further.arrival⟩
    intro h' member
    rcases List.mem_cons.mp member with rfl | later
    · exact made.1.1
    · exact further.hops h' later
  | case6 depth c loaded segment next rest _ _ cause loaded' step =>
    exact worded_of_missing _ (Step.ofSegment_worded catalog h worded step).2 _
  | case7 depth c loaded segment next rest _ _ cause loaded' step =>
    exact worded_of_error (Step.ofSegment_worded catalog h worded step).2 _

end Walk
end RelationFilter
