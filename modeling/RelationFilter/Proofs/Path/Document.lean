import RelationFilter.Path.TableScope
import RelationFilter.Proofs.Path.Entry
import RelationFilter.Proofs.Path.Order
import RelationFilter.Proofs.Path.Reads

namespace RelationFilter

namespace JsonPath

def steps (segments : List String) : String := String.ofList (segments.flatMap step)

def isInner (c : Char) : Bool := c ≠ '.' && c ≠ '['

theorem step_eq_cons {segment : String} (undotted : Undotted segment) :
    ∃ mark body, step segment = mark :: body ∧ isInner mark = false ∧ ∀ c ∈ body, isInner c = true := by
  unfold step
  split
  · rename_i integer
    refine ⟨'[', segment.toList ++ [']'], rfl, rfl, fun c member => ?_⟩
    rcases List.mem_append.mp member with inside | last
    · rcases digit_or_sign_of_int64? integer inside with digit | rfl | rfl
      · have dot : c ≠ '.' := by
          rintro rfl
          exact absurd digit (by decide)
        have bracket : c ≠ '[' := by
          rintro rfl
          exact absurd digit (by decide)
        simp [isInner, dot, bracket]
      · decide
      · decide
    · rw [List.mem_singleton.mp last]
      decide
  · refine ⟨'.', (identifier segment).toList, rfl, rfl, fun c member => ?_⟩
    have dot : c ≠ '.' := by
      rintro rfl
      exact Undotted.identifier undotted member
    have bracket : c ≠ '[' := by
      rintro rfl
      exact (isIdentifier_identifier segment).not_mem (by decide) member
    simp [isInner, dot, bracket]

theorem takeWhile_steps {segments : List String} (undotted : ∀ s ∈ segments, Undotted s) :
    (segments.flatMap step).takeWhile isInner = [] := by
  cases segments with
  | nil => rfl
  | cons segment rest =>
    obtain ⟨mark, body, shape, outer, -⟩ := step_eq_cons (undotted segment List.mem_cons_self)
    simp [shape, outer]

/-- Where a step ends can be read off the text: two paths are the same only if all their steps are. -/
theorem map_step_of_flatMap {segments segments' : List String} (undotted : ∀ s ∈ segments, Undotted s)
    (undotted' : ∀ s ∈ segments', Undotted s) (same : segments.flatMap step = segments'.flatMap step) :
    segments.map step = segments'.map step := by
  induction segments generalizing segments' with
  | nil =>
    cases segments' with
    | nil => rfl
    | cons segment rest =>
      obtain ⟨mark, body, shape, -⟩ := step_eq_cons (undotted' segment List.mem_cons_self)
      simp [shape] at same
  | cons segment rest ih =>
    obtain ⟨mark, body, shape, -, inner⟩ := step_eq_cons (undotted segment List.mem_cons_self)
    cases segments' with
    | nil => simp [shape] at same
    | cons segment' rest' =>
      obtain ⟨mark', body', shape', -, inner'⟩ := step_eq_cons (undotted' segment' List.mem_cons_self)
      have later : ∀ s ∈ rest, Undotted s := fun s member => undotted s (List.mem_cons_of_mem _ member)
      have later' : ∀ s ∈ rest', Undotted s := fun s member => undotted' s (List.mem_cons_of_mem _ member)
      rw [List.flatMap_cons, List.flatMap_cons, shape, shape', List.cons_append, List.cons_append, List.cons.injEq] at same
      obtain ⟨rfl, same⟩ := same
      -- A body has no mark inside and the next step begins with one, so both bodies end at the same place.
      obtain ⟨bodies, tail⟩ :=
        Text.append_inj_of_takeWhile inner inner' (takeWhile_steps later) (takeWhile_steps later') same
      rw [List.map_cons, List.map_cons, shape, shape', bodies, ih later later' tail]

/-- The first step stands without its dot. -/
theorem ofSegments_cons (first : String) (rest : List String) :
    ofSegments (first :: rest) = String.ofList (dropDot (step first) ++ rest.flatMap step) := by
  rw [ofSegments, List.flatMap_cons]
  unfold step
  split <;> rfl

/-- The path that follows the root: the steps of all segments, also where the first one is an index and where it is a key. -/
theorem jsonStep_ofSegments {first : String} (shown : identifier first ≠ "") (rest : List String) :
    Dialect.jsonStep (ofSegments (first :: rest)) = steps (first :: rest) := by
  rw [ofSegments_cons, steps, List.flatMap_cons]
  generalize rest.flatMap step = others
  unfold step
  split
  · simp [dropDot, Dialect.jsonStep]
  · obtain ⟨c, cs, shape⟩ := List.exists_cons_of_ne_nil (fun none => shown (String.toList_eq_nil_iff.mp none))
    have key : c ≠ '[' := by
      rintro rfl
      exact (isIdentifier_identifier first).not_mem (by decide) (shape ▸ List.mem_cons_self)
    rw [shape]
    simp [dropDot, Dialect.jsonStep, key]

end JsonPath

/-- The text reads a document at the path, and, where the column holds none, one that is made of the column as its only
member. -/
def ReadsAt (path text : String) : Prop :=
  ∃ before between after, text = before ++ "'$" ++ path ++ "'" ++ between ++ "'$.pb" ++ path ++ "'" ++ after ∧
    '$' ∉ before.toList ∧ '$' ∉ between.toList ∧ '$' ∉ after.toList

theorem readsAt_jsonExtract (d : Dialect) {column : String} (name : IsIdentifier column) (path : String) :
    ReadsAt (Dialect.jsonStep path) (d.jsonExtract column path) := by
  have free : '$' ∉ (d.quoteColumn column).toList :=
    fun member => name.not_mem (by decide) (d.mem_of_mem_quoteColumn (by cases d <;> decide) member)
  unfold Dialect.jsonExtract
  generalize d.quoteColumn column = c at free
  cases d with
  | mysql =>
    refine ⟨"(IF(JSON_VALID(" ++ c ++ "),JSON_EXTRACT(" ++ c ++ ",", "),JSON_EXTRACT(JSON_OBJECT('pb'," ++ c ++ "),",
      ")))", ?_, ?_, ?_, by decide⟩
    · simp only [String.append_assoc]
      rfl
    · simpa using free
    · simpa using free
  | sqlite =>
    refine ⟨"(CASE WHEN json_valid(" ++ c ++ ") THEN JSON_EXTRACT(" ++ c ++ ", ",
      ") ELSE JSON_EXTRACT(json_object('pb', " ++ c ++ "), ", ") END)", ?_, ?_, ?_, by decide⟩
    · simp only [String.append_assoc]
      rfl
    · simpa using free
    · simpa using free

theorem TableScope.resolve_of_split {t : TableScope} {path head next : String} {rest : List String}
    (allowed : t.fields.allows path) (shape : Text.split '.' path = head :: next :: rest) (named : identifier head ≠ "") :
    resolve path t =
      (.ok { text := t.dialect.jsonExtract (identifier head) (JsonPath.ofSegments (next :: rest)), direct := true }, t) := by
  rw [resolve, if_pos allowed, operand?, shape]
  simp only [if_neg named]
  rfl

namespace RecordScope

variable {s : RecordScope} {path : String} {loaded : List Collection} {lenient showHidden : Bool} {root : Root}
  {c c' : Collection} {before : List String} {hops : List Hop}

/-- The visit of a path that leads by hops to a JSON column, and into the document there. -/
theorem visit_of_document {segment next : String} {rest : List String} {f : Field} (allowed : RecordPath.isAllowed path)
    (enters : s.Enters (Text.split '.' path) loaded lenient showHidden root c (before ++ segment :: next :: rest))
    (along : LeadsAlong s.catalog loaded c before hops c') (within : before.length ≤ s.settings.maxNestedRelations)
    (field : c'.field? segment = some f) (json : f.isJson) :
    s.visit path =
      s.arrive root ⟨hops, loadedAlong s.catalog loaded c before,
        .ok (.json (identifier f.name) (JsonPath.ofSegments (next :: rest)))⟩ := by
  rw [visit_of_leadsAlong allowed enters along (List.cons_ne_nil _ _) within, Walk.ofSegments_of_json field json,
    Walk.afterAll, List.append_nil]

/-- Paths with the same segments after a JSON column, one over records and one over a single table, read the document at the
same path: the steps of these segments, one each and in order. No collection is loaded and no join registered for them, only
for the hops that lead to the column. -/
theorem resolve_document {t : TableScope} {path' segment next head : String} {rest : List String} {f : Field}
    (allowed : RecordPath.isAllowed path)
    (enters : s.Enters (Text.split '.' path) loaded lenient showHidden root c (before ++ segment :: next :: rest))
    (along : LeadsAlong s.catalog loaded c before hops c') (within : before.length ≤ s.settings.maxNestedRelations)
    (field : c'.field? segment = some f) (json : f.isJson) (allowed' : t.fields.allows path')
    (shape : Text.split '.' path' = head :: next :: rest) (named : identifier head ≠ "") (shown : identifier next ≠ "") :
    let route : Route := ⟨root, hops⟩
    let o := route.operand s.settings.dialect s.table (.json (identifier f.name) (JsonPath.ofSegments (next :: rest)))
    let o' : Operand :=
      { text := t.dialect.jsonExtract (identifier head) (JsonPath.ofSegments (next :: rest)), direct := true }
    let p := JsonPath.steps (next :: rest)
    resolve path s =
        (.ok o, { s with
          joins := putJoins (route.joins s.settings.dialect .primary) s.joins
          loaded := loadedAlong s.catalog loaded c before }) ∧
      TableScope.resolve path' t = (.ok o', t) ∧
      ReadsAt p o.text ∧ (∀ m ∈ o.chain, ReadsAt p m.value) ∧ ReadsAt p o'.text ∧
      ∀ others, (∀ s ∈ others, Undotted s) → JsonPath.steps others = p →
        others.map JsonPath.step = (next :: rest).map JsonPath.step := by
  intro route o o' p
  have visited := visit_of_document allowed enters along within field json
  have walked : (s.visit path).route = some route := by rw [visited]; rfl
  have clean : route.Clean := ((visits path).route walked).1
  have rendered (d : Dialect) {column : String} (name : IsIdentifier column) :
      ReadsAt p (d.jsonExtract column (JsonPath.ofSegments (next :: rest))) := by
    have whole := readsAt_jsonExtract d name (JsonPath.ofSegments (next :: rest))
    rwa [JsonPath.jsonStep_ofSegments shown] at whole
  have column (side : Side) : IsIdentifier (route.aliasOn side ++ "." ++ identifier f.name) :=
    isIdentifier_column (isIdentifier_hopAlias clean.hops (route.root.isIdentifier_aliasOn clean.root side))
      (isIdentifier_identifier _)
  have undotted : ∀ s ∈ next :: rest, Undotted s := by
    intro s member
    have inPath : s ∈ Text.split '.' path' := shape ▸ List.mem_cons_of_mem _ member
    obtain ⟨part, there, rfl⟩ := List.mem_map.mp inPath
    rw [Undotted, String.toList_ofList]
    exact Text.not_mem_of_mem_splitOn there
  refine ⟨?_, TableScope.resolve_of_split allowed' shape named, rendered _ (column .primary), ?_,
    rendered _ (isIdentifier_identifier _), ?_⟩
  · rw [resolve, visited]
    rfl
  · intro m chained
    rw [Route.chain_operand chained]
    exact rendered _ (column .copy)
  · intro others undotted' same
    exact JsonPath.map_step_of_flatMap undotted' undotted (String.ofList_injective same)

theorem resolve_document_meta :
    let s := Blog.tagScope
    let t : TableScope := { dialect := .sqlite, fields := .ofTexts ["meta.a.0.b"] }
    ∃ o o', (resolve "pages_via_tags.meta.a.0.b" s).1 = .ok o ∧ (t.resolve "meta.a.0.b").1 = .ok o' ∧
      ReadsAt ".a[0].b" o.text ∧ ReadsAt ".a[0].b" o'.text ∧
      (resolve "pages_via_tags.meta.a.0.b" s).2.loaded = [Blog.tags, Blog.pages] ∧
      (resolve "pages_via_tags.meta.a.0.b" s).2.joins.map JoinOf.aliasName = ["tags_pages_via_tags"] := by
  intro s t
  have link : LeadsBy s.catalog s.loaded s.base "pages_via_tags" (.referrers "pages_via_tags" "tags" "pages" true) Blog.pages
      [Blog.tags, Blog.pages] := Step.ofSegment_eq_hop_iff.mp rfl
  have along := LeadsAlong.step link (.here ..)
  have split : Text.split '.' "pages_via_tags.meta.a.0.b" = ["pages_via_tags"] ++ "meta" :: "a" :: ["0", "b"] := by decide
  have enters : s.Enters (Text.split '.' "pages_via_tags.meta.a.0.b") s.loaded false false (.base s.table) s.base
      (["pages_via_tags"] ++ "meta" :: "a" :: ["0", "b"]) := by
    rw [split]
    exact .base (by simp) (by simp)
  have allowed : RecordPath.isAllowed "pages_via_tags.meta.a.0.b" := by decide +kernel
  have field : Blog.pages.field? "meta" = some { name := "meta", kind := .json } := rfl
  have listed : t.fields.allows "meta.a.0.b" := by decide +kernel
  have shape : Text.split '.' "meta.a.0.b" = "meta" :: "a" :: ["0", "b"] := by decide
  obtain ⟨here, there, text, -, text', -⟩ :=
    resolve_document allowed enters along (by decide) field rfl listed shape (by decide) (by decide)
  have path : JsonPath.steps ("a" :: ["0", "b"]) = ".a[0].b" := by decide
  rw [path] at text text'
  rw [here, there]
  exact ⟨_, _, rfl, rfl, text, text', by rfl, by decide +kernel⟩

end RecordScope
end RelationFilter
