import RelationFilter.Proofs.Path.Document
import RelationFilter.Proofs.Path.Fault
import RelationFilter.Proofs.Path.Link
import RelationFilter.Proofs.Path.Multiplicity

namespace RelationFilter

theorem Modifier.name_of_ofName? {text : String} {m : Modifier} (h : ofName? text = some m) : m.name = text := by
  unfold ofName? at h
  split at h
  · cases h
    rfl
  · cases h
    rfl
  · cases h
    rfl
  · cases h

/-- A name, one colon, and a text that is no modifier. -/
structure AsksUnknown (segment name modifier : String) : Prop where
  shape : segment = name ++ ":" ++ modifier
  before : Plain name
  after : Plain modifier
  unknown : ∀ m : Modifier, m.name ≠ modifier

namespace AsksUnknown

variable {segment name modifier : String}

theorem splitModifier (h : AsksUnknown segment name modifier) :
    splitModifier segment = .error (.unknownModifier segment) := by
  have joined : segment.toList = [':'].intercalate [name.toList, modifier.toList] := by
    rw [h.shape]
    simp [List.intercalate]
  have parts : segment.toList.splitOn ':' = [name.toList, modifier.toList] := by
    rw [joined]
    refine List.splitOn_intercalate ':' ?_ (List.cons_ne_nil _ _)
    simp only [List.forall_mem_cons]
    exact ⟨h.before, h.after, nofun⟩
  have none : Modifier.ofName? modifier = none :=
    Option.eq_none_iff_forall_ne_some.mpr fun m found => h.unknown m (Modifier.name_of_ofName? found)
  simp only [RelationFilter.splitModifier, parts, String.ofList_toList, none]

/-- As a step into a document the segment is a key. Its colon is dropped, and the text after it is a part of the key. -/
theorem step (h : AsksUnknown segment name modifier) :
    JsonPath.step segment = '.' :: (identifier name ++ identifier modifier).toList := by
  have colon : ':' ∈ segment.toList := by rw [h.shape]; simp
  have key : (Decimal.int64? segment.toList).isSome = false := by
    rcases integer : (Decimal.int64? segment.toList).isSome with _ | _
    · rfl
    · exact absurd (JsonPath.digit_or_sign_of_int64? integer colon) (by decide)
  have dropped : identifier ":" = "" := by decide
  rw [JsonPath.step, key, h.shape, identifier_append, identifier_append, dropped, String.append_empty]
  rfl

/-- A path that ends with the segment reads that key last. -/
theorem exists_ofSegments (h : AsksUnknown segment name modifier) (keys : List String) :
    ∃ start, JsonPath.ofSegments (keys ++ [segment]) = start ++ identifier name ++ identifier modifier := by
  cases keys with
  | nil =>
    refine ⟨"", ?_⟩
    rw [List.nil_append, JsonPath.ofSegments_cons, h.step, ← String.toList_inj]
    simp [JsonPath.dropDot]
  | cons first rest =>
    refine ⟨JsonPath.ofSegments (first :: rest) ++ ".", ?_⟩
    rw [List.cons_append, JsonPath.ofSegments_cons, JsonPath.ofSegments_cons, List.flatMap_append, ← String.toList_inj]
    simp [h.step]

end AsksUnknown

/-- Segments that lead by hops to a JSON column, and on to the keys of its documents. -/
inductive IntoDocument (cat : Catalog) (loaded : List Collection) (c : Collection) :
    (segments : List String) → List Hop → Field → (keys : List String) → Prop where
  | column {first keys : List String} {segment : String} {hops : List Hop} {c' : Collection} {f : Field}
    (along : LeadsAlong cat loaded c first hops c') (field : c'.field? segment = some f) (json : f.isJson) :
    IntoDocument cat loaded c (first ++ segment :: keys) hops f keys

namespace IntoDocument

variable {cat : Catalog} {loaded loaded' : List Collection} {c next : Collection} {segments keys : List String}
  {hops : List Hop} {f : Field} {segment : String} {h : Hop}

theorem step (link : LeadsBy cat loaded c segment h next loaded')
    (into : IntoDocument cat loaded' next segments hops f keys) :
    IntoDocument cat loaded c (segment :: segments) (h :: hops) f keys := by
  cases into with
  | column along field json => exact .column (.step link along) field json

end IntoDocument

namespace Walk

variable {rules : WalkRules} {depth : Nat} {loaded : List Collection} {c : Collection} {before : List String}
  {last : String} {cause : PathCause}

theorem outcome_ofLast (failed : splitModifier last = .error cause) :
    (ofLast rules c loaded last).outcome = .error cause := by
  have column : ¬ c.hasSystemField last := by
    intro there
    rw [splitModifier_of_hasSystemField there] at failed
    cases failed
  rw [ofLast, if_neg column, failed]

/-- Where the last segment cannot be split, a strict walk arrives only in a document. -/
theorem exists_intoDocument {a : Arrival} (strict : rules.lenient = false) (failed : splitModifier last = .error cause)
    (limit : depth ≤ rules.maxNested)
    (reached : (ofSegments rules depth c loaded (before ++ [last])).outcome = .ok a) :
    ∃ hops f keys, IntoDocument rules.catalog loaded c before hops f keys ∧ depth + hops.length ≤ rules.maxNested := by
  -- Each of the segments before the last is a hop, or the column from which all others are keys.
  induction before generalizing depth c loaded with
  | nil =>
    rw [List.nil_append, ofSegments, outcome_ofLast failed] at reached
    cases reached
  | cons segment rest ih =>
    have more : rest ++ [last] ≠ [] := List.append_ne_nil_of_right_ne_nil _ (List.cons_ne_nil _ _)
    rw [List.cons_append] at reached
    rcases document : (c.field? segment).filter Field.isJson with _ | f
    · obtain ⟨h, next, loaded', step, shape⟩ := hop_of_ofSegments strict more document reached
      have link := Step.ofSegment_eq_hop_iff.mp step
      rw [ofSegments_of_leadsBy link more] at reached
      split at reached
      · cases reached
      · obtain ⟨hops, f, keys, into, within⟩ := ih (by omega) reached
        exact ⟨h :: hops, f, keys, into.step link, by rw [List.length_cons]; omega⟩
    · obtain ⟨field, json⟩ := Option.filter_eq_some_iff.mp document
      exact ⟨[], f, rest, .column (.here ..) field json, limit⟩

end Walk

namespace RecordScope

variable {s : RecordScope} {path last name modifier : String} {before keys : List String} {hops : List Hop} {f : Field}
  {c : Collection}

theorem resolve_of_intoDocument (plain : RecordPath.isPlain path.toList) (shape : Text.split '.' path = before ++ [last])
    (into : IntoDocument s.catalog s.loaded s.base before hops f keys)
    (within : hops.length ≤ s.settings.maxNestedRelations) :
    (resolve path s).1 = .ok ((Route.mk (.base s.table) hops).operand s.settings.dialect s.table
      (.json (identifier f.name) (JsonPath.ofSegments (keys ++ [last])))) := by
  have allowed : RecordPath.isAllowed path := by simp [RecordPath.isAllowed, plain]
  cases into with
  | @column first keys segment hops c' f along field json =>
    obtain ⟨next, rest, more⟩ :=
      List.exists_cons_of_ne_nil (List.append_ne_nil_of_right_ne_nil keys (List.cons_ne_nil last []))
    have whole : Text.split '.' path = first ++ segment :: next :: rest := by
      rw [shape, List.append_assoc, List.cons_append, more]
    rw [along.length_eq] at within
    rw [more]
    refine congrArg Prod.fst (resolve_of_ok ?_)
    rw [visit_of_document allowed (enters_of_plain plain whole) along within field json]
    rfl

theorem exists_intoDocument_of_resolve (plain : RecordPath.isPlain path.toList)
    (shape : Text.split '.' path = before ++ [last]) (asks : AsksUnknown last name modifier) {o : Operand}
    (resolved : (resolve path s).1 = .ok o) :
    ∃ hops f keys, IntoDocument s.catalog s.loaded s.base before hops f keys ∧
      hops.length ≤ s.settings.maxNestedRelations := by
  have reached := outcome_of_resolve resolved
  rw [visit_of_plain plain, shape] at reached
  obtain ⟨a, arrived, -⟩ := exists_arrival reached
  obtain ⟨hops, f, keys, into, within⟩ := Walk.exists_intoDocument rfl asks.splitModifier (Nat.zero_le _) arrived
  rw [Nat.zero_add] at within
  exact ⟨hops, f, keys, into, within⟩

theorem resolve_of_hopsTo_unknownModifier (plain : RecordPath.isPlain path.toList)
    (shape : Text.split '.' path = before ++ [last]) (asks : AsksUnknown last name modifier)
    (along : LeadsAlong s.catalog s.loaded s.base before hops c) (within : hops.length ≤ s.settings.maxNestedRelations) :
    (resolve path s).1 = .error ⟨path, .unknownModifier last⟩ := by
  have allowed : RecordPath.isAllowed path := by simp [RecordPath.isAllowed, plain]
  rw [along.length_eq] at within
  refine congrArg Prod.fst (resolve_of_error ?_)
  rw [visit_of_leadsAlong allowed (enters_of_plain plain shape) along (List.cons_ne_nil _ _) within]
  show ((Walk.ofLast _ _ _ last).outcome.map _) = _
  rw [Walk.outcome_ofLast asks.splitModifier]
  rfl

/-- A plain path that asks for an unknown modifier is resolved just if it leads into a document within the limit. What it
reads there ends with a key in which the modifier follows the name without the colon. Where no document is on the way, the
error names the segment. -/
theorem resolve_iff_of_unknownModifier (plain : RecordPath.isPlain path.toList)
    (shape : Text.split '.' path = before ++ [last]) (asks : AsksUnknown last name modifier) :
    ((∃ o, (resolve path s).1 = .ok o) ↔ ∃ hops f keys,
        IntoDocument s.catalog s.loaded s.base before hops f keys ∧ hops.length ≤ s.settings.maxNestedRelations) ∧
      (∀ hops f keys, IntoDocument s.catalog s.loaded s.base before hops f keys →
        hops.length ≤ s.settings.maxNestedRelations →
        (resolve path s).1 = .ok ((Route.mk (.base s.table) hops).operand s.settings.dialect s.table
          (.json (identifier f.name) (JsonPath.ofSegments (keys ++ [last])))) ∧
        ∃ start, JsonPath.ofSegments (keys ++ [last]) = start ++ identifier name ++ identifier modifier) ∧
      ∀ hops c, LeadsAlong s.catalog s.loaded s.base before hops c → hops.length ≤ s.settings.maxNestedRelations →
        (resolve path s).1 = .error ⟨path, .unknownModifier last⟩ := by
  refine ⟨⟨?_, ?_⟩, ?_, ?_⟩
  · rintro ⟨o, resolved⟩
    exact exists_intoDocument_of_resolve plain shape asks resolved
  · rintro ⟨hops, f, keys, into, within⟩
    exact ⟨_, resolve_of_intoDocument plain shape into within⟩
  · intro hops f keys into within
    exact ⟨resolve_of_intoDocument plain shape into within, asks.exists_ofSegments keys⟩
  · intro hops c along within
    exact resolve_of_hopsTo_unknownModifier plain shape asks along within

theorem resolve_iff_of_unknownModifier_meta :
    let s : RecordScope := .new ⟨[Blog.pages]⟩ Blog.pages none {}
    (∃ o start, (resolve "meta.title:bogus" s).1 = .ok o ∧
      o.text = s.settings.dialect.jsonExtract "pages.meta" (start ++ "title" ++ "bogus")) ∧
      (resolve "meta:bogus" s).1 = .error ⟨"meta:bogus", .unknownModifier "meta:bogus"⟩ := by
  intro s
  have key : AsksUnknown "title:bogus" "title" "bogus" := ⟨rfl, by decide, by decide, by rintro (_ | _ | _) <;> decide⟩
  have column : AsksUnknown "meta:bogus" "meta" "bogus" := ⟨rfl, by decide, by decide, by rintro (_ | _ | _) <;> decide⟩
  have title : identifier "title" = "title" := by decide
  have bogus : identifier "bogus" = "bogus" := by decide
  have shape : Text.split '.' "meta.title:bogus" = ["meta"] ++ ["title:bogus"] := by decide
  have shape' : Text.split '.' "meta:bogus" = [] ++ ["meta:bogus"] := by decide
  have field : Blog.pages.field? "meta" = some { name := "meta", kind := .json } := rfl
  have into : IntoDocument s.catalog s.loaded s.base ["meta"] [] { name := "meta", kind := .json } [] :=
    .column (.here ..) field rfl
  obtain ⟨-, document, -⟩ := resolve_iff_of_unknownModifier (s := s) (by decide) shape key
  obtain ⟨resolved, start, path⟩ := document _ _ _ into (by decide)
  obtain ⟨-, -, failed⟩ := resolve_iff_of_unknownModifier (s := s) (by decide) shape' column
  rw [title, bogus] at path
  have row : s.table ++ "." ++ identifier "meta" = "pages.meta" := by decide
  refine ⟨⟨_, start, resolved, ?_⟩, failed _ _ (.here ..) (by decide)⟩
  rw [← path, ← row]
  rfl

/-- The key that is read for `title:bogus` is `titlebogus`. -/
theorem resolve_titlebogus :
    let s : RecordScope := .new ⟨[Blog.pages]⟩ Blog.pages none {}
    let path := "meta.title:bogus"
    RecordPath.isPlain path.toList ∧ Text.split '.' path = ["meta"] ++ ["title:bogus"] ∧
      AsksUnknown "title:bogus" "title" "bogus" ∧
      ∃ o, (resolve path s).1 = .ok o ∧ o.text = "(IF(JSON_VALID(`pages`.`meta`)," ++
        "JSON_EXTRACT(`pages`.`meta`,'$.titlebogus'),JSON_EXTRACT(JSON_OBJECT('pb',`pages`.`meta`),'$.pb.titlebogus')))" := by
  refine ⟨by decide, by decide, ⟨rfl, by decide, by decide, ?_⟩, _, rfl, by decide +kernel⟩
  rintro (_ | _ | _) <;> decide

end RecordScope

end RelationFilter
