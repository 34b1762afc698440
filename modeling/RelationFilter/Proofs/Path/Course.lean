import RelationFilter.Path.RecordScope
import RelationFilter.Proofs.Path.Hop

namespace RelationFilter.RecordScope

/-- Where the walk of a path begins: the collections loaded by then, how strict the walk is and whether it shows hidden
fields, the root with its collection, and the segments that are left to walk. -/
inductive Enters (s : RecordScope) : (path : List String) → (loaded : List Collection) → (lenient showHidden : Bool) →
    Root → Collection → (segments : List String) → Prop where
  | base {path : List String} (collection : ∀ rest, path ≠ "@collection" :: rest)
    (request : ∀ rest, path ≠ "@request" :: rest) : Enters s path s.loaded false false (.base s.table) s.base path
  | collection {segment next : String} {rest : List String} {c : Collection} {loaded : List Collection}
    (found : loadCollection s.catalog s.loaded (splitCollection segment).1 = (some c, loaded)) :
    Enters s ("@collection" :: segment :: next :: rest) loaded false true
      (.collection (identifier c.name) (collectionAlias c.name (splitCollection segment).2)) c (next :: rest)
  | auth {next : String} {rest : List String} {r : Request} {a : AuthRecord} (given : s.request = some r)
    (authenticated : r.auth = some a) (joined : isPlainAuthField (next :: rest) = false) :
    Enters s ("@request" :: "auth" :: next :: rest) (rememberCollection s.loaded a.collection) true true
      (.auth (identifier a.collection.name) a.id) a.collection (next :: rest)
  | submitted {head next name : String} {rest : List String} {modifier : Option Modifier} {r : Request} {f : Field}
    {o : RelationOptions} {c : Collection} {loaded : List Collection} (given : s.request = some r)
    (split : splitModifier head = .ok (name, modifier)) (field : s.base.field? name = some f)
    (options : f.relation? = some o) (named : o.collectionId ≠ "")
    (found : loadCollection s.catalog s.loaded o.collectionId = (some c, loaded)) (ids : submittedItems r f ≠ []) :
    Enters s ("@request" :: "data" :: head :: next :: rest) loaded true true
      (.submitted c.name f.name (submittedItems r f) o.isMultiple) c (next :: rest)

def member? (s : RecordScope) (before : List String) (name : String) : Option Json :=
  ((s.request.map Request.members).getD []).nested? (before ++ [name])

inductive StaticCourse (s : RecordScope) (members : List String) : Visit → Prop where
  | empty (none : members = []) : StaticCourse s members (s.stay s.loaded (.error .emptyPath))
  | misspelled {last : String} {cause : PathCause} (ends : members.getLast? = some last)
    (split : splitModifier last = .error cause) : StaticCourse s members (s.stay s.loaded (.error cause))
  | presence {last name : String} (ends : members.getLast? = some last)
    (split : splitModifier last = .ok (name, some .isset)) :
    StaticCourse s members
      (s.stay s.loaded (.ok { text := if (s.member? members.dropLast name).isSome then "TRUE" else "FALSE" }))
  | null {last name : String} {modifier : Option Modifier} (ends : members.getLast? = some last)
    (split : splitModifier last = .ok (name, modifier)) (other : modifier ≠ some .isset)
    (absent : ∀ v, s.member? members.dropLast name = some v → v = .null) :
    StaticCourse s members (s.stay s.loaded (.ok .null))
  | value {last name : String} {modifier : Option Modifier} {v : Json} (ends : members.getLast? = some last)
    (split : splitModifier last = .ok (name, modifier)) (other : modifier ≠ some .isset)
    (found : s.member? members.dropLast name = some v) (shown : v ≠ .null) :
    StaticCourse s members
      { outcome := .ok (.bound (numbered "t" s.counter) (s.boundValue name v))
        loaded := s.loaded
        counter := s.counter + 1 }

structure ReadsMembers (base : Collection) (members : List String) : Prop where
  auth : ∀ next rest, members = "auth" :: next :: rest → isPlainAuthField (next :: rest) = true
  data : ∀ head rest, members = "data" :: head :: rest → ∃ name modifier, splitModifier head = .ok (name, modifier) ∧
    ∀ f, base.field? name = some f →
      (rest ≠ [] → f.relation? = none) ∧
      (rest = [] → f.isMultiple?.isSome → modifier ≠ some .each ∧ modifier ≠ some .length)

/-- The outcomes of a path. -/
inductive Course (s : RecordScope) : (path : List String) → Visit → Prop where
  | walked {path segments : List String} {loaded : List Collection} {lenient showHidden : Bool} {root : Root}
    {c : Collection} (enters : s.Enters path loaded lenient showHidden root c segments) :
    Course s path (s.follow loaded lenient showHidden root c segments)
  | short {rest : List String} (short : ∀ segment next more, rest ≠ segment :: next :: more) :
    Course s ("@collection" :: rest) (s.stay s.loaded (.error .invalidCollectionPath))
  | uncollected {segment next : String} {rest : List String} {loaded : List Collection}
    (missing : loadCollection s.catalog s.loaded (splitCollection segment).1 = (none, loaded)) :
    Course s ("@collection" :: segment :: next :: rest)
      (s.stay loaded (.error (.unknownCollection (splitCollection segment).1)))
  | unrequested {rest : List String} (given : s.request = none) :
    Course s ("@request" :: rest) (s.stay s.loaded (.ok .null))
  | static {r : Request} {members : List String} {v : Visit} (given : s.request = some r)
    (reads : ReadsMembers s.base members) (course : s.StaticCourse members v) : Course s ("@request" :: members) v
  | unauthenticated {next : String} {rest : List String} {r : Request} (given : s.request = some r)
    (joined : isPlainAuthField (next :: rest) = false) (absent : r.auth = none) :
    Course s ("@request" :: "auth" :: next :: rest) (s.stay s.loaded (.ok .null))
  | misspelled {head : String} {rest : List String} {r : Request} {cause : PathCause} (given : s.request = some r)
    (split : splitModifier head = .error cause) :
    Course s ("@request" :: "data" :: head :: rest) (s.stay s.loaded (.error cause))
  | targetless {head next name : String} {rest : List String} {modifier : Option Modifier} {r : Request} {f : Field}
    {o : RelationOptions} (given : s.request = some r) (split : splitModifier head = .ok (name, modifier))
    (field : s.base.field? name = some f) (options : f.relation? = some o) (unnamed : o.collectionId = "") :
    Course s ("@request" :: "data" :: head :: next :: rest) (s.stay s.loaded (.error (.missingTarget f.name)))
  | untargeted {head next name : String} {rest : List String} {modifier : Option Modifier} {r : Request} {f : Field}
    {o : RelationOptions} {loaded : List Collection} (given : s.request = some r)
    (split : splitModifier head = .ok (name, modifier)) (field : s.base.field? name = some f)
    (options : f.relation? = some o) (named : o.collectionId ≠ "")
    (missing : loadCollection s.catalog s.loaded o.collectionId = (none, loaded)) :
    Course s ("@request" :: "data" :: head :: next :: rest) (s.stay loaded (.error (.unknownCollection o.collectionId)))
  | unsubmitted {head next name : String} {rest : List String} {modifier : Option Modifier} {r : Request} {f : Field}
    {o : RelationOptions} {c : Collection} {loaded : List Collection} (given : s.request = some r)
    (split : splitModifier head = .ok (name, modifier)) (field : s.base.field? name = some f)
    (options : f.relation? = some o) (named : o.collectionId ≠ "")
    (found : loadCollection s.catalog s.loaded o.collectionId = (some c, loaded)) (ids : submittedItems r f = []) :
    Course s ("@request" :: "data" :: head :: next :: rest) (s.stay loaded (.ok .null))
  | items {head name : String} {r : Request} {f : Field} {multiple : Bool} (given : s.request = some r)
    (split : splitModifier head = .ok (name, some .each)) (field : s.base.field? name = some f)
    (several : f.isMultiple? = some multiple) :
    Course s ["@request", "data", head] (s.visitSubmittedItems r f multiple)
  | count {head name : String} {r : Request} {f : Field} {multiple : Bool} (given : s.request = some r)
    (split : splitModifier head = .ok (name, some .length)) (field : s.base.field? name = some f)
    (several : f.isMultiple? = some multiple) :
    Course s ["@request", "data", head] (s.stay s.loaded (.ok { text := toString (submittedItems r f).length }))

variable {s : RecordScope} {v : Visit}

theorem Enters.suffix {path segments : List String} {loaded : List Collection} {lenient showHidden : Bool} {root : Root}
    {c : Collection} (enters : s.Enters path loaded lenient showHidden root c segments) : segments <:+ path := by
  cases enters with
  | base => exact List.suffix_rfl
  | @collection segment next rest => exact ⟨["@collection", segment], rfl⟩
  | @auth next rest => exact ⟨["@request", "auth"], rfl⟩
  | @submitted head next name rest => exact ⟨["@request", "data", head], rfl⟩

theorem StaticCourse.eq {members : List String} (course : s.StaticCourse members v) : s.visitStatic members = v := by
  cases course with
  | empty none => simp only [visitStatic, none, List.getLast?_nil]
  | misspelled ends split => simp only [visitStatic, ends, split]
  | presence ends split =>
    simp only [visitStatic, ends, split, if_true]
    rfl
  | @null last name modifier ends split other absent =>
    simp only [visitStatic, ends, split, if_neg other]
    split
    · rfl
    · rfl
    · rename_i v shown found
      exact absurd (absent v found) shown
  | @value last name modifier v ends split other found shown =>
    unfold member? at found
    simp only [visitStatic, ends, split, if_neg other, found]
    cases v with
    | null => exact absurd rfl shown
    | _ => rfl

theorem course_static (members : List String) : s.StaticCourse members (s.visitStatic members) := by
  unfold visitStatic
  split
  · rename_i none
    exact .empty (List.getLast?_eq_none_iff.mp none)
  · rename_i last ends
    split
    · rename_i split
      exact .misspelled ends split
    · rename_i name modifier split
      dsimp only
      split
      · rename_i asked
        exact .presence ends (asked ▸ split)
      · rename_i other
        split
        · rename_i absent
          exact .null ends split other fun v found => by cases absent.symm.trans found
        · rename_i null
          exact .null ends split other fun v found => by cases null.symm.trans found; rfl
        · rename_i v shown found
          exact .value ends split other found fun null => shown null

theorem course_data {r : Request} (given : s.request = some r) (head : String) (rest : List String) :
    s.Course ("@request" :: "data" :: head :: rest) (s.visitData r head rest) := by
  have static {name : String} {modifier : Option Modifier} (split : splitModifier head = .ok (name, modifier))
      (plain : ∀ f, s.base.field? name = some f → (rest ≠ [] → f.relation? = none) ∧
        (rest = [] → f.isMultiple?.isSome → modifier ≠ some .each ∧ modifier ≠ some .length)) :
      s.Course ("@request" :: "data" :: head :: rest) (s.visitStatic ("data" :: head :: rest)) := by
    refine .static given ⟨by simp, fun head' rest' same => ?_⟩ (course_static _)
    cases same
    exact ⟨name, modifier, split, plain⟩
  unfold visitData
  split
  · rename_i split
    exact .misspelled given split
  · rename_i name modifier split
    split
    · rename_i unknown
      exact static split fun f field => by cases unknown.symm.trans field
    · rename_i f field
      split
      · rename_i options
        unfold visitSubmittedRecords
        split
        · rename_i cause targetless
          obtain ⟨unnamed, rfl⟩ := Step.target?_eq_error_iff.mp targetless
          exact .targetless given split field options unnamed
        · rename_i id target
          obtain ⟨named, rfl⟩ := Step.target?_eq_ok_iff.mp target
          split
          · rename_i missing
            exact .untargeted given split field options named missing
          · rename_i c loaded found
            dsimp only
            split
            · rename_i none
              exact .unsubmitted given split field options named found (List.isEmpty_iff.mp none)
            · rename_i some
              exact .walked (.submitted given split field options named found fun none => some (by rw [none]; rfl))
      · rename_i several
        exact .items given split field several
      · rename_i several
        exact .count given split field several
      · rename_i records each length
        refine static split fun f' field' => ?_
        cases field.symm.trans field'
        refine ⟨fun more => ?_, fun none several => ?_⟩
        · obtain ⟨next, others, rfl⟩ := List.exists_cons_of_ne_nil more
          exact Option.eq_none_iff_forall_ne_some.mpr fun o options => records o next others options rfl
        · obtain ⟨multiple, several⟩ := Option.isSome_iff_exists.mp several
          exact ⟨fun asked => each multiple none asked several, fun asked => length multiple none asked several⟩

theorem course_request (members : List String) : s.Course ("@request" :: members) (s.visitRequest members) := by
  unfold visitRequest
  split
  · rename_i given
    exact .unrequested given
  · rename_i r given
    split
    · rename_i next rest
      unfold visitAuth
      split
      · rename_i plain
        refine .static given ⟨fun next' rest' same => ?_, by simp⟩ (course_static _)
        cases same
        exact plain
      · rename_i joined
        have joined : isPlainAuthField (next :: rest) = false := by simpa using joined
        split
        · rename_i absent
          exact .unauthenticated given joined absent
        · rename_i a authenticated
          exact .walked (.auth given authenticated joined)
    · exact course_data given _ _
    · rename_i auth data
      refine .static given ⟨fun next rest same => ?_, fun head rest same => ?_⟩ (course_static _)
      · exact (auth next rest same).elim
      · exact (data head rest same).elim

theorem course_collection (rest : List String) : s.Course ("@collection" :: rest) (s.visitCollection rest) := by
  unfold visitCollection
  split
  · dsimp only
    split
    · rename_i missing
      exact .uncollected missing
    · rename_i found
      exact .walked (.collection found)
  · rename_i short
    exact .short short

theorem course_segments (path : List String) : s.Course path (s.visitSegments path) := by
  unfold visitSegments
  split
  · exact course_collection _
  · exact course_request _
  · rename_i collection request
    exact .walked (.base collection request)

theorem Enters.eq {path segments : List String} {loaded : List Collection} {lenient showHidden : Bool} {root : Root}
    {c : Collection} (enters : s.Enters path loaded lenient showHidden root c segments) :
    s.visitSegments path = s.follow loaded lenient showHidden root c segments := by
  cases enters with
  | base collection request =>
    unfold visitSegments
    split
    · exact absurd rfl (collection _)
    · exact absurd rfl (request _)
    · rfl
  | collection found => simp only [visitSegments, visitCollection, found]
  | auth given authenticated joined =>
    simp only [visitSegments, visitRequest, given, visitAuth, joined, authenticated]
    rfl
  | submitted given split field options named found ids =>
    have filled : (submittedItems _ _).isEmpty = false := List.isEmpty_eq_false_iff.mpr ids
    simp only [visitSegments, visitRequest, given, visitData, split, field, options, visitSubmittedRecords,
      Step.target?_eq_ok_iff.mpr ⟨named, rfl⟩, found, filled]
    rfl

theorem ReadsMembers.eq {r : Request} {members : List String} (reads : ReadsMembers s.base members)
    (given : s.request = some r) : s.visitRequest members = s.visitStatic members := by
  unfold visitRequest
  rw [given]
  dsimp only
  split
  · rename_i next rest
    rw [visitAuth, if_pos (reads.auth next rest rfl)]
  · rename_i head rest
    obtain ⟨name, modifier, split, plain⟩ := reads.data head rest rfl
    simp only [visitData, split]
    cases field : s.base.field? name with
    | none => rfl
    | some f =>
      obtain ⟨records, items⟩ := plain f field
      dsimp only
      split
      · rename_i options
        cases (records (List.cons_ne_nil _ _)).symm.trans options
      · rename_i several
        exact absurd rfl (items rfl (by rw [several]; rfl)).1
      · rename_i several
        exact absurd rfl (items rfl (by rw [several]; rfl)).2
      · rfl
  · rfl

theorem Course.eq {path : List String} (course : s.Course path v) : s.visitSegments path = v := by
  cases course with
  | walked enters => exact enters.eq
  | @short rest short =>
    show s.visitCollection rest = _
    unfold visitCollection
    split
    · exact absurd rfl (short _ _ _)
    · rfl
  | uncollected missing => simp only [visitSegments, visitCollection, missing]
  | unrequested given => simp only [visitSegments, visitRequest, given]
  | static given reads course => exact (reads.eq given).trans course.eq
  | unauthenticated given joined absent =>
    simp only [visitSegments, visitRequest, given, visitAuth, joined, absent]
    rfl
  | misspelled given split => simp only [visitSegments, visitRequest, given, visitData, split]
  | targetless given split field options unnamed =>
    simp only [visitSegments, visitRequest, given, visitData, split, field, options, visitSubmittedRecords,
      Step.target?_eq_error_iff.mpr ⟨unnamed, rfl⟩]
  | untargeted given split field options named missing =>
    simp only [visitSegments, visitRequest, given, visitData, split, field, options, visitSubmittedRecords,
      Step.target?_eq_ok_iff.mpr ⟨named, rfl⟩, missing]
  | unsubmitted given split field options named found ids =>
    simp only [visitSegments, visitRequest, given, visitData, split, field, options, visitSubmittedRecords,
      Step.target?_eq_ok_iff.mpr ⟨named, rfl⟩, found, ids]
    rfl
  | items given split field several =>
    simp only [visitSegments, visitRequest, given, visitData, split, field, several]
  | count given split field several =>
    simp only [visitSegments, visitRequest, given, visitData, split, field, several]

theorem visitSegments_eq_iff {path : List String} : s.visitSegments path = v ↔ s.Course path v := by
  constructor
  · rintro rfl
    exact course_segments path
  · exact Course.eq

/-- A path takes its course if it is allowed, and is refused otherwise. -/
theorem course_visit (s : RecordScope) (path : String) :
    s.visit path = s.stay s.loaded (.error .disallowedField) ∨
      RecordPath.isAllowed path ∧ s.Course (Text.split '.' path) (s.visit path) := by
  unfold visit
  split
  · rename_i allowed
    exact .inr ⟨allowed, visitSegments_eq_iff.mp rfl⟩
  · exact .inl rfl

theorem visit_of_course {path : String} (allowed : RecordPath.isAllowed path) (course : s.Course (Text.split '.' path) v) :
    s.visit path = v := by
  rw [visit, if_pos allowed]
  exact visitSegments_eq_iff.mpr course

end RelationFilter.RecordScope
