import RelationFilter.Proofs.Blog
import RelationFilter.Proofs.Path.Email
import RelationFilter.Proofs.Schema.Lookup

namespace RelationFilter

open Catalog

inductive Absence : PathCause → Prop where
  | field (name : String) : Absence (.unknownField name)
  | collection (name : String) : Absence (.unknownCollection name)

/-- A field that is found by a name is found by its own. -/
theorem Collection.field?_name {c : Collection} {name : String} {f : Field} (h : c.field? name = some f) :
    c.field? f.name = some f := by
  rw [name_of_field? h, h]

theorem unknownModifier_of_splitModifier {segment : String} {cause : PathCause}
    (failed : splitModifier segment = .error cause) : cause = .unknownModifier segment := by
  unfold splitModifier at failed
  split at failed
  · split at failed
    · cases failed
    · exact (Except.error.inj failed).symm
  · cases failed

namespace Text

theorem intercalate_split (sep : Char) (s : String) :
    [sep].intercalate ((split sep s).map String.toList) = s.toList := by
  have parts : (split sep s).map String.toList = s.toList.splitOn sep := by
    rw [split, List.map_map]
    exact List.map_id'' (fun cs => String.toList_ofList) _
  rw [parts, List.intercalate_splitOn]

end Text

namespace RecordPath

open Text

/-- The word that stands alone before a path into the request or to a collection is no path. -/
theorem ne_nil_of_request {path : String} {rest : List String} (allowed : isAllowed path)
    (shape : Text.split '.' path = "@request" :: rest) : rest ≠ [] := by
  rintro rfl
  have whole := Text.intercalate_split '.' path
  rw [shape] at whole
  have path_eq : path = "@request" := String.toList_inj.mp whole.symm
  subst path_eq
  revert allowed
  decide

theorem dot_mem_of_isDotTail {cs : List Char} (h : isDotTail cs) : '.' ∈ cs := by
  unfold isDotTail at h
  split at h
  · exact List.mem_cons_self
  · cases h

theorem dot_mem_of_isCollectionTail {cs : List Char} (h : isCollectionTail cs) : '.' ∈ cs := by
  have inside {cs' : List Char} (member : '.' ∈ cs'.dropWhile isWord) : '.' ∈ cs' := (List.dropWhile_sublist _).mem member
  obtain ⟨-, h⟩ := Bool.and_eq_true_iff.mp h
  apply inside
  split at h
  · rename_i rest shape
    rw [shape]
    exact List.mem_cons_of_mem _ (inside (dot_mem_of_isDotTail (Bool.and_eq_true_iff.mp h).2))
  · exact dot_mem_of_isDotTail h

/-- A path to a collection names the collection and something of it. -/
theorem exists_of_collection {path : String} {rest : List String} (allowed : isAllowed path)
    (shape : Text.split '.' path = "@collection" :: rest) : ∃ segment next more, rest = segment :: next :: more := by
  have whole := Text.intercalate_split '.' path
  rw [shape] at whole
  match rest with
  | [] =>
    have path_eq : path = "@collection" := String.toList_inj.mp whole.symm
    subst path_eq
    exact absurd allowed (by decide)
  | segment :: next :: more => exact ⟨segment, next, more, rfl⟩
  | [segment] =>
    have whole' : "@collection.".toList ++ segment.toList = path.toList := by
      rw [← whole]
      simp [List.intercalate]
    have undotted : '.' ∉ segment.toList := by
      have member : segment ∈ Text.split '.' path := by rw [shape]; simp
      obtain ⟨part, inPath, rfl⟩ := List.mem_map.mp member
      rw [String.toList_ofList]
      exact Text.not_mem_of_mem_splitOn inPath
    have second : path.toList[1]? = some 'c' := by rw [← whole']; rfl
    have elsewhere {start : String} {test : List Char → Bool} (mark : start.toList[1]? = some 'r') :
        ¬ follows start test path.toList := by
      intro h
      obtain ⟨tail, starts⟩ := prefix_of_follows h
      have inStart := (List.getElem?_eq_some_iff.mp mark).1
      rw [← starts, List.getElem?_append_left inStart, mark] at second
      exact absurd second (by decide)
    simp only [isAllowed, Bool.or_eq_true, decide_eq_true_eq] at allowed
    rcases allowed with ((((((plain | rfl) | rfl) | auth) | data) | query) | headers) | collection
    · rw [← whole'] at plain
      simp [isPlain] at plain
      exact absurd plain.1 (by decide)
    · exact absurd second (by decide)
    · exact absurd second (by decide)
    · exact absurd auth (elsewhere (by decide))
    · exact absurd data (elsewhere (by decide))
    · exact absurd query (elsewhere (by decide))
    · exact absurd headers (elsewhere (by decide))
    · obtain ⟨tail, starts, tested⟩ := (Option.any_eq_true _ _).mp collection
      have same : tail = segment.toList := by
        rw [List.isPrefixOf?_eq_some_iff_append_eq, ← whole', List.append_cancel_left_eq] at starts
        exact starts
      exact absurd (same ▸ dot_mem_of_isCollectionTail tested) undotted

end RecordPath

namespace RecordScope

/-- The collections that a path may come to. -/
inductive Knows (s : RecordScope) (c : Collection) : Prop where
  | loaded (member : c ∈ s.loaded)
  | stored (member : c ∈ s.catalog.collections)
  | base (same : c = s.base)
  | auth {r : Request} {a : AuthRecord} (given : s.request = some r) (authenticated : r.auth = some a)
    (same : c = a.collection)

/-- What is wrong with the segments of a path: an unknown modifier, too many of them, or a field that is there and does not
lead on. -/
inductive Fault (s : RecordScope) (segments : List String) : PathCause → Prop where
  | unknownModifier {segment : String} (named : segment ∈ segments)
    (unknown : splitModifier segment = .error (.unknownModifier segment)) : Fault s segments (.unknownModifier segment)
  | maxNestedRelations {segment : String} (named : segment ∈ segments)
    (deep : s.settings.maxNestedRelations < segments.length) : Fault s segments (.maxNestedRelations segment)
  | notARelation {segment : String} {c : Collection} {f : Field} (named : segment ∈ segments) (known : s.Knows c)
    (field : c.field? segment = some f) (other : f.relation? = none) : Fault s segments (.notARelation segment)
  | invalidBackRelation {segment : String} {back : BackReference} {c other : Collection} {f : Field}
    (named : segment ∈ segments) (parsed : BackReference.parse? segment = some back) (known : s.Knows c)
    (there : s.Knows other) (field : other.field? back.field = some f)
    (away : ∀ o, f.relation? = some o → o.collectionId ≠ c.id) : Fault s segments (.invalidBackRelation segment)
  | missingTarget {c : Collection} {f : Field} {o : RelationOptions} (known : s.Knows c)
    (field : c.field? f.name = some f) (options : f.relation? = some o) (unnamed : o.collectionId = "") :
    Fault s segments (.missingTarget f.name)
  | unknownTarget {c : Collection} {f : Field} {o : RelationOptions} (known : s.Knows c)
    (field : c.field? f.name = some f) (options : f.relation? = some o)
    (unknown : s.catalog.get? o.collectionId = none) : Fault s segments (.unknownCollection o.collectionId)

variable {s : RecordScope} {c : Collection} {loaded loaded' : List Collection} {segments : List String}
  {segment : String} {cause : PathCause}

theorem knows_of_loadCollection {nameOrId : String} {found : Option Collection} (cached : ∀ c ∈ loaded, s.Knows c)
    (load : loadCollection s.catalog loaded nameOrId = (found, loaded')) :
    (∀ c, found = some c → s.Knows c) ∧ ∀ c ∈ loaded', s.Knows c := by
  unfold loadCollection at load
  split at load
  · rename_i first there
    cases load
    exact ⟨fun c same => Option.some.inj same ▸ cached first (List.mem_of_find?_eq_some there), cached⟩
  · split at load
    · rename_i answer there
      cases load
      have known : s.Knows answer := .stored (mem_of_get? there)
      refine ⟨fun c same => Option.some.inj same ▸ known, fun c member => ?_⟩
      rcases List.mem_append.mp member with before | last
      · exact cached c before
      · exact List.mem_singleton.mp last ▸ known
    · cases load
      exact ⟨nofun, cached⟩

theorem knows_rememberCollection (known : s.Knows c) :
    ∀ other ∈ rememberCollection s.loaded c, s.Knows other := by
  intro other member
  unfold rememberCollection at member
  split at member
  · exact .loaded member
  · rcases List.mem_append.mp member with before | last
    · exact .loaded before
    · exact List.mem_singleton.mp last ▸ known

theorem get?_of_loadCollection {cat : Catalog} {nameOrId : String}
    (load : loadCollection cat loaded nameOrId = (none, loaded')) : cat.get? nameOrId = none := by
  unfold loadCollection at load
  split at load
  · cases load
  · split at load
    · cases load
    · assumption

theorem Fault.ofTarget {f : Field} {o : RelationOptions} (known : s.Knows c) (field : c.field? f.name = some f)
    (options : f.relation? = some o) (failed : Step.target? f o = .error cause) : s.Fault segments cause := by
  obtain ⟨unnamed, rfl⟩ := Step.target?_eq_error_iff.mp failed
  exact .missingTarget known field options unnamed

theorem knows_of_leadsBy {h : Hop} {next : Collection} (cached : ∀ c ∈ loaded, s.Knows c)
    (link : LeadsBy s.catalog loaded c segment h next loaded') : s.Knows next ∧ ∀ c ∈ loaded', s.Knows c := by
  cases link with
  | relation field options named target =>
    obtain ⟨found, cached'⟩ := knows_of_loadCollection cached target
    exact ⟨found _ rfl, cached'⟩
  | referrer free parsed other field options named target =>
    obtain ⟨found, cached'⟩ := knows_of_loadCollection cached other
    exact ⟨found _ rfl, cached'⟩

theorem Fault.ofRelation {f : Field} (known : s.Knows c) (named : segment ∈ segments)
    (field : c.field? segment = some f)
    (failed : Step.ofRelation s.catalog loaded f segment = (.failure cause, loaded')) : s.Fault segments cause := by
  have own := Collection.field?_name field
  unfold Step.ofRelation at failed
  split at failed
  · rename_i other
    cases failed
    exact .notARelation named known field other
  · rename_i o options
    split at failed
    · rename_i targetless
      cases failed
      exact .ofTarget known own options targetless
    · rename_i id target
      obtain ⟨-, rfl⟩ := Step.target?_eq_ok_iff.mp target
      split at failed
      · rename_i missing
        cases failed
        exact .unknownTarget known own options (get?_of_loadCollection missing)
      · cases failed

theorem Fault.ofReferrer {back : BackReference} {other : Collection} {f : Field} (known : s.Knows c)
    (named : segment ∈ segments) (parsed : BackReference.parse? segment = some back) (there : s.Knows other)
    (field : other.field? back.field = some f) (failed : Step.ofReferrer c other f segment = .failure cause) :
    s.Fault segments cause := by
  have own := Collection.field?_name field
  unfold Step.ofReferrer at failed
  split at failed
  · rename_i plain
    cases failed
    exact .invalidBackRelation named parsed known there field fun o options => by rw [plain] at options; cases options
  · rename_i o options
    split at failed
    · rename_i targetless
      cases failed
      exact .ofTarget there own options targetless
    · rename_i id target
      obtain ⟨-, rfl⟩ := Step.target?_eq_ok_iff.mp target
      split at failed
      · rename_i away
        cases failed
        refine .invalidBackRelation named parsed known there field fun o' options' => ?_
        exact Option.some.inj (options.symm.trans options') ▸ away
      · cases failed

/-- A segment that fails names a field that does not lead on. -/
theorem Fault.ofSegment (known : s.Knows c) (cached : ∀ c ∈ loaded, s.Knows c) (named : segment ∈ segments)
    (failed : Step.ofSegment s.catalog loaded c segment = (.failure cause, loaded')) : s.Fault segments cause := by
  unfold Step.ofSegment at failed
  split at failed
  · rename_i f field
    exact .ofRelation known named field failed
  · unfold Step.ofBackReference at failed
    split at failed
    · cases failed
    · rename_i back parsed
      split at failed
      · cases failed
      · rename_i other loaded'' load
        split at failed
        · cases failed
        · rename_i f field
          have there := (knows_of_loadCollection cached load).1 other rfl
          exact .ofReferrer known named parsed there field (Prod.mk.inj failed).1

theorem absence_of_ofSegment (absent : Step.ofSegment s.catalog loaded c segment = (.absent cause, loaded')) :
    Absence cause := by
  unfold Step.ofSegment Step.ofRelation Step.ofBackReference at absent
  split at absent
  · split at absent
    · cases absent
    · split at absent
      · cases absent
      · split at absent <;> cases absent
  · split at absent
    · cases absent
      exact .field _
    · split at absent
      · cases absent
        exact .collection _
      · split at absent
        · cases absent
          exact .field _
        · unfold Step.ofReferrer at absent
          split at absent
          · cases absent
          · split at absent
            · cases absent
            · split at absent <;> cases absent

theorem lenient_of_missing {rules : WalkRules} {reason : PathCause} (failed : Walk.missing rules reason = .error cause) :
    rules.lenient = false ∧ cause = reason := by
  unfold Walk.missing at failed
  split at failed
  · cases failed
  · rename_i strict
    exact ⟨by simpa using strict, (Except.error.inj failed).symm⟩

theorem Fault.ofSplit (named : segment ∈ segments) (failed : splitModifier segment = .error cause) :
    s.Fault segments cause := by
  cases unknownModifier_of_splitModifier failed
  exact .unknownModifier named failed

variable {lenient showHidden : Bool}

theorem Fault.ofLast (named : segment ∈ segments)
    (failed : (Walk.ofLast (s.rules lenient showHidden) c loaded segment).outcome = .error cause) :
    s.Fault segments cause ∨ lenient = false ∧ Absence cause := by
  unfold Walk.ofLast at failed
  split at failed
  · cases failed
  · split at failed
    · rename_i split
      cases failed
      exact .inl (.ofSplit named split)
    · split at failed
      · obtain ⟨strict, rfl⟩ := lenient_of_missing failed
        exact .inr ⟨strict, .field _⟩
      · cases failed

theorem Fault.ofSegments {depth : Nat} {walked : List String} (known : s.Knows c) (cached : ∀ c ∈ loaded, s.Knows c)
    (more : walked ≠ []) (named : walked ⊆ segments) (deep : depth + walked.length ≤ segments.length)
    (failed : (Walk.ofSegments (s.rules lenient showHidden) depth c loaded walked).outcome = .error cause) :
    s.Fault segments cause ∨ lenient = false ∧ Absence cause := by
  fun_induction Walk.ofSegments (s.rules lenient showHidden) depth c loaded walked with
  | case1 => exact absurd rfl more
  | case2 depth c loaded last => exact Fault.ofLast (named List.mem_cons_self) failed
  | case3 => cases failed
  | case4 depth c loaded segment next rest _ beyond =>
    cases failed
    have limit : s.settings.maxNestedRelations ≤ depth := beyond
    rw [List.length_cons, List.length_cons] at deep
    exact .inl (.maxNestedRelations (named List.mem_cons_self) (by omega))
  | case5 depth c loaded segment next rest _ _ h reached loaded' step ih =>
    obtain ⟨known', cached'⟩ := knows_of_leadsBy cached (Step.ofSegment_eq_hop_iff.mp step)
    rw [List.length_cons] at deep
    exact ih known' cached' (List.cons_ne_nil _ _) (List.subset_of_cons_subset named) (by omega) failed
  | case6 depth c loaded segment next rest _ _ reason loaded' step =>
    obtain ⟨strict, rfl⟩ := lenient_of_missing failed
    exact .inr ⟨strict, absence_of_ofSegment step⟩
  | case7 depth c loaded segment next rest _ _ reason loaded' step =>
    cases failed
    exact .inl (.ofSegment known cached (named List.mem_cons_self) step)

theorem Enters.knows {path : List String} {root : Root}
    (enters : s.Enters path loaded lenient showHidden root c segments) : s.Knows c ∧ ∀ c' ∈ loaded, s.Knows c' := by
  cases enters with
  | base => exact ⟨.base rfl, fun _ => .loaded⟩
  | collection found =>
    obtain ⟨known, cached⟩ := knows_of_loadCollection (fun _ => .loaded) found
    exact ⟨known c rfl, cached⟩
  | auth given authenticated =>
    have known := Knows.auth given authenticated rfl
    exact ⟨known, knows_rememberCollection known⟩
  | submitted given split field options named found =>
    obtain ⟨known, cached⟩ := knows_of_loadCollection (fun _ => .loaded) found
    exact ⟨known c rfl, cached⟩

theorem Enters.fault {path : List String} {root : Root} (more : path ≠ [])
    (enters : s.Enters path loaded lenient showHidden root c segments)
    (failed : (s.follow loaded lenient showHidden root c segments).outcome = .error cause) :
    s.Fault path cause ∨ (∀ rest, path ≠ "@request" :: rest) ∧ Absence cause := by
  have stopped : (Walk.ofSegments (s.rules lenient showHidden) 0 c loaded segments).outcome = .error cause := by
    rcases ends : (Walk.ofSegments (s.rules lenient showHidden) 0 c loaded segments).outcome with reason | a
    · simpa [follow, ends, Except.map] using failed
    · simp [follow, ends, Except.map] at failed
  have within := enters.suffix
  have deep : 0 + segments.length ≤ path.length := by rw [Nat.zero_add]; exact within.length_le
  have walked : segments ≠ [] := by
    cases enters with
    | base => exact more
    | collection | auth | submitted => exact List.cons_ne_nil _ _
  obtain ⟨known, cached⟩ := enters.knows
  refine (Fault.ofSegments known cached walked within.subset deep stopped).imp_right ?_
  rintro ⟨strict, absent⟩
  refine ⟨?_, absent⟩
  cases enters with
  | base collection request => exact request
  | collection => simp
  | auth | submitted => cases strict

theorem StaticCourse.fault {members : List String} {v : Visit} (course : s.StaticCourse members v) (more : members ≠ [])
    (within : members <:+ segments) (failed : v.outcome = .error cause) : s.Fault segments cause := by
  cases course with
  | empty none => exact absurd none more
  | misspelled ends split =>
    cases failed
    exact .ofSplit (within.subset (List.mem_of_getLast? ends)) split
  | presence | null | value => cases failed

theorem Course.fault {path : List String} {v : Visit} (course : s.Course path v) (more : path ≠ [])
    (members : ∀ rest, path = "@request" :: rest → rest ≠ [])
    (named : ∀ rest, path = "@collection" :: rest → ∃ segment next more, rest = segment :: next :: more)
    (failed : v.outcome = .error cause) :
    s.Fault path cause ∨ (∀ rest, path ≠ "@request" :: rest) ∧ Absence cause := by
  have known : s.Knows s.base := .base rfl
  cases course with
  | walked enters => exact enters.fault more failed
  | @short rest short =>
    obtain ⟨segment, next, more, same⟩ := named rest rfl
    exact absurd same (short segment next more)
  | uncollected missing =>
    cases failed
    exact .inr ⟨by simp, .collection _⟩
  | static given reads course => exact .inl (course.fault (members _ rfl) (List.suffix_cons _ _) failed)
  | misspelled given split =>
    cases failed
    exact .inl (.ofSplit (by simp) split)
  | targetless given split field options unnamed =>
    cases failed
    exact .inl (.missingTarget known (Collection.field?_name field) options unnamed)
  | untargeted given split field options named missing =>
    cases failed
    exact .inl (.unknownTarget known (Collection.field?_name field) options (get?_of_loadCollection missing))
  | unrequested | unauthenticated | unsubmitted | items | count => cases failed

theorem fault_of_visit {path : String} (allowed : RecordPath.isAllowed path)
    (failed : (s.visit path).outcome = .error cause) :
    s.Fault (Text.split '.' path) cause ∨ (∀ rest, Text.split '.' path ≠ "@request" :: rest) ∧ Absence cause := by
  rw [visit, if_pos allowed] at failed
  exact (course_segments _).fault (by simp [Text.split]) (fun _ => RecordPath.ne_nil_of_request allowed)
    (fun _ => RecordPath.exists_of_collection allowed) failed

/-- A path into the request fails at what is there and does not fit: at an unknown modifier, beyond the limit of relations, or
at a field that does not lead on. Where there is no request every such path is NULL, and nothing else happens. -/
theorem fault_of_resolve_request (s : RecordScope) {path : String} (allowed : RecordPath.isAllowed path)
    (request : "@request.".toList <+: path.toList) :
    (∀ e, (resolve path s).1 = .error e → e.path = path ∧ s.Fault (Text.split '.' path) e.cause) ∧
      (s.request = none → resolve path s = (.ok .null, s)) := by
  obtain ⟨members, whole⟩ := request
  have shape : Text.split '.' path = "@request" :: (members.splitOn '.').map String.ofList :=
    Text.split_of_prefix members whole.symm (by decide)
  refine ⟨fun e failed => ?_, fun given => ?_⟩
  · rcases outcome : (s.visit path).outcome with cause | o
    · rw [resolve_of_error outcome] at failed
      cases failed
      exact ⟨rfl, (fault_of_visit allowed outcome).resolve_right fun outside => outside.1 _ shape⟩
    · simp [resolve_of_ok outcome] at failed
  · have visited : s.visit path = s.stay s.loaded (.ok .null) := visit_of_course allowed (shape ▸ .unrequested given)
    rw [resolve, visited]
    rfl

/-- The tags that a request submits are records of a collection that has a field `name`, which is not a relation, and no
field `missing`. -/
theorem fault_of_resolve_request_tags :
    Blog.scope.Fault ["@request", "data", "tags", "name", "first"] (.notARelation "name") ∧
      (resolve "@request.data.tags.name.first" { Blog.scope with request := none }).1 = .ok .null ∧
      (resolve "@request.data.tags.missing.first" Blog.scope).1 = .ok .null := by
  have allowed : RecordPath.isAllowed "@request.data.tags.name.first" := by decide +kernel
  have request : "@request.".toList <+: "@request.data.tags.name.first".toList := by decide
  have stopped : (Blog.scope.visit "@request.data.tags.name.first").outcome = .error (.notARelation "name") := by rfl
  have split : Text.split '.' "@request.data.tags.name.first" = ["@request", "data", "tags", "name", "first"] := by decide
  obtain ⟨failed, -⟩ := fault_of_resolve_request Blog.scope allowed request
  obtain ⟨-, null⟩ := fault_of_resolve_request { Blog.scope with request := none } allowed request
  refine ⟨split ▸ (failed _ (congrArg Prod.fst (resolve_of_error stopped))).2, ?_, by rfl⟩
  rw [null rfl]

end RecordScope
end RelationFilter
