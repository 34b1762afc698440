import Mathlib.Data.List.Basic
import RelationFilter.Proofs.Blog
import RelationFilter.Proofs.Path.Alike
import RelationFilter.Proofs.Path.Registry

namespace RelationFilter

open Sql

namespace RecordPath

theorem pathChars_of_isTail {cs : List Char} (h : isTail cs = true) : cs.all isPathChar = true := by
  unfold isTail at h
  exact (Bool.and_eq_true_iff.mp h).1

theorem pathChars_of_words {cs : List Char} (h : cs.all Text.isWord = true) : cs.all isPathChar = true := by
  rw [List.all_eq_true] at h ⊢
  intro c member
  simp [isPathChar, h c member]

theorem pathChars_of_isDotTail {cs : List Char} (h : isDotTail cs = true) : cs.all isPathChar = true := by
  unfold isDotTail at h
  split at h
  · rw [List.all_cons, pathChars_of_isTail h]
    decide
  · cases h

theorem pathChars_of_parts {cs : List Char} (rest : (cs.dropWhile Text.isWord).all isPathChar = true) :
    cs.all isPathChar = true := by
  have name : (cs.takeWhile Text.isWord).all Text.isWord = true := List.all_takeWhile
  rw [← List.takeWhile_append_dropWhile (p := Text.isWord) (l := cs), List.all_append, pathChars_of_words name, rest]
  rfl

theorem pathChars_of_isCollectionTail {cs : List Char} (h : isCollectionTail cs = true) : cs.all isPathChar = true := by
  obtain ⟨-, h⟩ := Bool.and_eq_true_iff.mp h
  apply pathChars_of_parts
  split at h
  · rename_i rest shape
    rw [shape, List.all_cons, pathChars_of_parts (pathChars_of_isDotTail (Bool.and_eq_true_iff.mp h).2)]
    decide
  · exact pathChars_of_isDotTail h

/-- After the first character, an allowed path has path characters only. -/
theorem pathChars_of_isAllowed {path : String} (allowed : isAllowed path = true) :
    path.toList.tail.all isPathChar = true := by
  have after {start : String} {test : List Char → Bool} (begins : start.toList.tail.all isPathChar = true)
      (nonempty : start.toList ≠ []) (each : ∀ cs, test cs = true → cs.all isPathChar = true)
      (h : follows start test path.toList = true) : path.toList.tail.all isPathChar = true := by
    obtain ⟨rest, whole, tested⟩ := (Option.any_eq_true _ _).mp h
    rw [← List.isPrefixOf?_eq_some_iff_append_eq.mp whole, List.tail_append_of_ne_nil nonempty, List.all_append, begins,
      each rest tested]
    rfl
  simp only [isAllowed, Bool.or_eq_true, decide_eq_true_eq] at allowed
  rcases allowed with ((((((plain | rfl) | rfl) | auth) | data) | query) | headers) | collection
  · unfold isPlain at plain
    split at plain
    · cases plain
    · rename_i shape
      rw [shape]
      exact (Bool.and_eq_true_iff.mp plain).2
  · decide
  · decide
  · exact after (by decide) (by decide) (fun _ => pathChars_of_isTail) auth
  · exact after (by decide) (by decide) (fun _ => pathChars_of_isTail) data
  · exact after (by decide) (by decide) (fun _ => pathChars_of_isTail) query
  · exact after (by decide) (by decide) (fun _ h => pathChars_of_words (Bool.and_eq_true_iff.mp h).1) headers
  · exact after (by decide) (by decide) (fun _ => pathChars_of_isCollectionTail) collection

theorem segments_of_isAllowed {path : String} (allowed : isAllowed path = true) :
    ∀ segment ∈ (Text.split '.' path).tail, IsSegment segment := by
  have chars := pathChars_of_isAllowed allowed
  unfold Text.split
  cases shape : path.toList with
  | nil => nofun
  | cons first rest =>
    rw [shape] at chars
    have later : ∀ part ∈ ((first :: rest).splitOn '.').tail, part ∈ rest.splitOn '.' := by
      intro part member
      rw [List.splitOn_eq_splitOnP, List.splitOnP_cons_eq_if_modifyHead] at member
      rw [List.splitOn_eq_splitOnP]
      split at member
      · exact member
      · rw [List.tail_modifyHead] at member
        exact List.mem_of_mem_tail member
    intro segment member c inSegment
    rw [← List.map_tail] at member
    obtain ⟨part, there, rfl⟩ := List.mem_map.mp member
    have inRest := later part there
    rw [String.toList_ofList] at inSegment
    have here : c ∈ ['.'].intercalate (rest.splitOn '.') := (Text.infix_intercalate inRest).subset inSegment
    rw [List.intercalate_splitOn] at here
    have kind : isPathChar c = true := List.all_eq_true.mp chars c here
    have notDot : c ≠ '.' := fun dot => Text.not_mem_of_mem_splitOn inRest (dot ▸ inSegment)
    simpa [isPathChar, notDot] using kind

end RecordPath

namespace RecordScope

/-- Only word characters in the names of all collections at hand. -/
structure Worded (s : RecordScope) : Prop where
  catalog : AllWorded s.catalog.collections
  base : s.base.Worded
  loaded : AllWorded s.loaded
  auth : ∀ r, s.request = some r → ∀ a, r.auth = some a → a.collection.Worded

/-- A visit that brings safe texts only, and one that differs from it in values only. -/
structure Twins (d : Dialect) (v v' : Visit) : Prop where
  failure (cause : PathCause) : v.outcome = .error cause → v'.outcome = .error cause
  success (o : Operand) : v.outcome = .ok o → ∃ o', v'.outcome = .ok o' ∧ o.Alike d o'
  safe (o : Operand) (b : Bindings) : v.outcome = .ok o → ∀ text ∈ o.texts d b, Safe text
  joins : ∀ j ∈ v.joins d, SafeJoin d j
  sameJoins (b b' : Bindings) : b.names = b'.names →
    (v.joins d).map (JoinOf.texts d b) = (v'.joins d).map (JoinOf.texts d b')
  loaded : AllWorded v.loaded
  sameLoaded : v.loaded = v'.loaded
  counter : v.counter = v'.counter

variable {s : RecordScope} {q : Option Request} {loaded : List Collection}

theorem twins_error (h : AllWorded loaded) (cause : PathCause) :
    Twins s.settings.dialect (s.stay loaded (.error cause)) ({ s with request := q }.stay loaded (.error cause)) where
  failure _ same := same
  success _ := nofun
  safe _ _ := nofun
  joins := nofun
  sameJoins _ _ _ := rfl
  loaded := h
  sameLoaded := rfl
  counter := rfl

theorem twins_alone {o o' : Operand} {counter : Nat} (d : Dialect) (alike : o.Alike d o') (safe : Safe o.text)
    (alone : o.chain = none) (h : AllWorded loaded) :
    Twins d { outcome := .ok o, loaded, counter } { outcome := .ok o', loaded, counter } where
  failure _ := nofun
  success _ same := ⟨o', rfl, Except.ok.inj same ▸ alike⟩
  safe _ b same := by
    rw [← Except.ok.inj same, Operand.texts, alone]
    simpa using safe
  joins := nofun
  sameJoins _ _ _ := rfl
  loaded := h
  sameLoaded := rfl
  counter := rfl

theorem twins_text (h : AllWorded loaded) {text : String} (safe : Safe text) :
    Twins s.settings.dialect (s.stay loaded (.ok { text })) ({ s with request := q }.stay loaded (.ok { text })) :=
  twins_alone _ (.refl _ _) safe rfl h

theorem twins_null (h : AllWorded loaded) :
    Twins s.settings.dialect (s.stay loaded (.ok .null)) ({ s with request := q }.stay loaded (.ok .null)) :=
  twins_text h (safe_of_plain (by decide))

theorem twins_bound (worded : s.Worded) (v v' : Json) :
    Twins s.settings.dialect
      { outcome := .ok (.bound (numbered "t" s.counter) v), loaded := s.loaded, counter := s.counter + 1 }
      { outcome := .ok (.bound (numbered "t" s.counter) v'), loaded := s.loaded, counter := s.counter + 1 } := by
  have name : IsWord (numbered "t" s.counter) := isWord_numbered (by decide) _
  have text : Safe (":" ++ numbered "t" s.counter) := (safe_of_plain (by decide)).append name.safe
  exact twins_alone _ ⟨fun _ _ _ => rfl, rfl, rfl, rfl, rfl⟩ text rfl worded.loaded

theorem twins_walked {root root' : Root} (d : Dialect) {table : String} (named : IsWord table) (clean : root.Worded)
    (alike : root.Alike root') {w : Walk} (walk : w.Worded) (counter : Nat) :
    Twins d
      { outcome := w.outcome.map ((Route.mk root w.hops).operand d table)
        route := some ⟨root, w.hops⟩
        loaded := w.loaded
        counter }
      { outcome := w.outcome.map ((Route.mk root' w.hops).operand d table)
        route := some ⟨root', w.hops⟩
        loaded := w.loaded
        counter } where
  failure cause same := by
    cases outcome : w.outcome with
    | error => simpa [outcome, Except.map] using same
    | ok => simp [outcome, Except.map] at same
  success o same := by
    cases outcome : w.outcome with
    | error => simp [outcome, Except.map] at same
    | ok a =>
      simp only [outcome, Except.map, Except.ok.injEq] at same
      exact ⟨_, rfl, same ▸ alike.operand d w.hops table a⟩
  safe o b same := by
    cases outcome : w.outcome with
    | error => simp [outcome, Except.map] at same
    | ok a =>
      simp only [outcome, Except.map, Except.ok.injEq] at same
      rw [← same]
      exact Route.safe_operand d named ⟨clean, walk.hops⟩ (walk.arrival a outcome) b
  joins := Route.safe_joins d ⟨clean, walk.hops⟩ .primary
  sameJoins b b' same := alike.routeJoins d w.hops .primary same
  loaded := walk.loaded
  sameLoaded := rfl
  counter := rfl

theorem twins_follow (worded : s.Worded) (h : AllWorded loaded) (lenient showHidden : Bool) {root root' : Root}
    (clean : root.Worded) (alike : root.Alike root') {c : Collection} (reached : c.Worded) {segments : List String}
    (path : ∀ segment ∈ segments.tail, IsSegment segment) :
    Twins s.settings.dialect (s.follow loaded lenient showHidden root c segments)
      ({ s with request := q }.follow loaded lenient showHidden root' c segments) :=
  twins_walked _ worded.base.name.identifier clean alike
    (Walk.ofSegments_worded (s.rules lenient showHidden) worded.catalog 0 reached h path) s.counter

theorem eq_null_of_isNull {v : Json} (null : v.isNull = true) : v = .null := by
  cases v with
  | null => rfl
  | _ => cases null

theorem isNull_member? (alike : Option.Rel (Request.Alike s.base) s.request q) (before : List String) (name : String) :
    (s.member? before name).map Json.isNull = ({ s with request := q }.member? before name).map Json.isNull := by
  unfold member?
  dsimp only
  generalize s.request = p at alike
  cases alike with
  | some alike => exact alike.members _
  | none => rfl

theorem StaticCourse.twins (worded : s.Worded) (alike : Option.Rel (Request.Alike s.base) s.request q)
    {members : List String} {v : Visit} (course : s.StaticCourse members v) :
    ∃ v', { s with request := q }.StaticCourse members v' ∧ Twins s.settings.dialect v v' := by
  have nulls := isNull_member? alike members.dropLast
  cases course with
  | empty nil => exact ⟨_, .empty nil, twins_error worded.loaded _⟩
  | misspelled ends split => exact ⟨_, .misspelled ends split, twins_error worded.loaded _⟩
  | @presence last name ends split =>
    refine ⟨_, .presence ends split, ?_⟩
    have same : (s.member? members.dropLast name).isSome = ({ s with request := q }.member? members.dropLast name).isSome := by
      simpa using congrArg Option.isSome (nulls name)
    rw [← same]
    exact twins_text worded.loaded (by split <;> exact safe_of_plain (by decide))
  | @null last name modifier ends split other absent =>
    refine ⟨_, .null ends split other fun v' found' => ?_, twins_null worded.loaded⟩
    have same := nulls name
    rw [found'] at same
    obtain ⟨v, found, null⟩ := Option.map_eq_some_iff.mp same
    rw [absent v found] at null
    exact eq_null_of_isNull null.symm
  | @value last name modifier v ends split other found shown =>
    have same := nulls name
    rw [found] at same
    obtain ⟨v', found', null⟩ := Option.map_eq_some_iff.mp same.symm
    have shown' : v' ≠ .null := by
      rintro rfl
      exact shown (eq_null_of_isNull null.symm)
    exact ⟨_, .value ends split other found' shown', twins_bound worded _ _⟩

theorem isArrayable_of_relation? {f : Field} {o : RelationOptions} (h : f.relation? = some o) :
    f.isArrayable = true := by
  unfold Field.relation? at h
  unfold Field.isArrayable Field.isMultiple?
  split at h
  · rename_i kind
    rw [kind]
    rfl
  · cases h

theorem twins_submittedItems (worded : s.Worded) (r r' : Request) {f : Field} (named : IsWord f.name)
    (multiple : Bool) :
    Twins s.settings.dialect (s.visitSubmittedItems r f multiple)
      ({ s with request := q }.visitSubmittedItems r' f multiple) := by
  have placeholder : IsWord (numbered "dataEach" s.counter) := isWord_numbered (by decide) _
  let root (r : Request) : Root :=
    let items := (Json.ofStrings (submittedItems r f)).text
    .submittedItems (identifier f.name) (numbered "dataEach" s.counter) items multiple
  have clean : (root r).Worded := ⟨named.identifier, placeholder⟩
  have alike : (root r).Alike (root r') := .submittedItems _ _ _ _ _
  have walk : Walk.Worded ⟨[], s.loaded, .ok .element⟩ :=
    ⟨nofun, worded.loaded, fun a same => Except.ok.inj same ▸ trivial⟩
  exact twins_walked _ worded.base.name.identifier clean alike walk (s.counter + 1)

theorem isSegment_splitCollection {segment : String} (h : IsSegment segment) :
    IsSegment (splitCollection segment).2 := by
  unfold splitCollection
  split
  · rename_i name aliasName cut
    unfold Text.splitFirst? at cut
    split at cut
    · cases cut
    · rename_i after shape
      cases cut
      intro c member
      rw [String.toList_ofList] at member
      apply h c
      apply (List.dropWhile_suffix fun x => decide (x ≠ ':')).subset
      rw [shape]
      exact List.mem_cons_of_mem _ member
  · intro c member
    cases member

theorem isWord_collectionAlias {collection aliasName : String} (h : IsWord collection) (h' : IsSegment aliasName) :
    IsWord (collectionAlias collection aliasName) := by
  unfold collectionAlias
  split
  · exact (IsWord.append (by decide) h).identifier
  · have start : IsWord "__collection_alias_" := by decide
    exact (start.segment.append h').identifier

theorem exists_request_alike (alike : Option.Rel (Request.Alike s.base) s.request q) {r : Request}
    (given : s.request = some r) : ∃ r', q = some r' ∧ r.Alike s.base r' := by
  rw [given] at alike
  cases alike with
  | some alike => exact ⟨_, rfl, alike⟩

theorem submittedItems_eq_nil_iff {r r' : Request} (alike : r.Alike s.base r') {name : String} {f : Field}
    {o : RelationOptions} (field : s.base.field? name = some f) (options : f.relation? = some o) :
    submittedItems r f = [] ↔ submittedItems r' f = [] := by
  have many := alike.items f (List.mem_of_find?_eq_some field) (isArrayable_of_relation? options)
  rw [← List.length_eq_zero_iff, ← List.length_eq_zero_iff]
  exact Eq.congr many rfl

theorem Enters.twins (worded : s.Worded) (alike : Option.Rel (Request.Alike s.base) s.request q)
    {path segments : List String} {lenient showHidden : Bool} {root : Root} {c : Collection}
    (enters : s.Enters path loaded lenient showHidden root c segments) (parts : ∀ segment ∈ path.tail, IsSegment segment) :
    (∃ root', { s with request := q }.Enters path loaded lenient showHidden root' c segments ∧ root.Alike root') ∧
      root.Worded ∧ c.Worded ∧ AllWorded loaded := by
  cases enters with
  | base collection request =>
    exact ⟨⟨_, .base collection request, .refl _⟩, worded.base.name.identifier, worded.base, worded.loaded⟩
  | @collection segment next rest c loaded found =>
    obtain ⟨reached, later⟩ := loadCollection_worded worded.catalog worded.loaded found
    have named := (reached c rfl).name
    have row := isWord_collectionAlias named (isSegment_splitCollection (parts segment List.mem_cons_self))
    exact ⟨⟨_, .collection found, .refl _⟩, ⟨named.identifier, row⟩, reached c rfl, later⟩
  | @auth next rest r a given authenticated joined =>
    obtain ⟨r', given', requests⟩ := exists_request_alike alike given
    have same := requests.auth
    rw [authenticated] at same
    obtain ⟨a', authenticated', collection⟩ := Option.map_eq_some_iff.mp same.symm
    have reached := worded.auth r given a authenticated
    have enters' : { s with request := q }.Enters _ _ _ _ _ _ _ := .auth given' authenticated' joined
    rw [collection] at enters'
    exact ⟨⟨_, enters', .auth _ _ _⟩, reached.name.identifier, reached, rememberCollection_worded worded.loaded reached⟩
  | @submitted head next name rest modifier r f o c loaded given split field options named found ids =>
    obtain ⟨r', given', requests⟩ := exists_request_alike alike given
    have many := requests.items f (List.mem_of_find?_eq_some field) (isArrayable_of_relation? options)
    have ids' : submittedItems r' f ≠ [] := mt (submittedItems_eq_nil_iff requests field options).mpr ids
    obtain ⟨reached, later⟩ := loadCollection_worded worded.catalog worded.loaded found
    refine ⟨⟨_, .submitted given' split field options named found ids', .submitted _ _ _ _ _ many⟩, ?_, reached c rfl, later⟩
    exact ⟨(reached c rfl).name, worded.base.field field⟩

/-- One path takes the same course for two requests that differ in values only. -/
theorem Course.twins (worded : s.Worded) (alike : Option.Rel (Request.Alike s.base) s.request q) {path : List String}
    {v : Visit} (course : s.Course path v) (parts : ∀ segment ∈ path.tail, IsSegment segment) :
    ∃ v', { s with request := q }.Course path v' ∧ Twins s.settings.dialect v v' := by
  cases course with
  | @walked _ segments _ _ _ _ _ enters =>
    obtain ⟨⟨root', enters', same⟩, clean, reached, later⟩ := enters.twins worded alike parts
    have left : ∀ segment ∈ segments.tail, IsSegment segment := by
      cases enters with
      | base => exact parts
      | collection | auth | submitted =>
        exact fun segment member => parts segment (List.mem_cons_of_mem _ (by simp_all))
    exact ⟨_, .walked enters', twins_follow worded later _ _ clean same reached left⟩
  | short short => exact ⟨_, .short short, twins_error worded.loaded _⟩
  | uncollected missing =>
    exact ⟨_, .uncollected missing, twins_error (loadCollection_worded worded.catalog worded.loaded missing).2 _⟩
  | unrequested given =>
    rw [given] at alike
    cases alike with
    | none => exact ⟨_, .unrequested rfl, twins_null worded.loaded⟩
  | static given reads course =>
    obtain ⟨r', given', -⟩ := exists_request_alike alike given
    obtain ⟨v', course', twins⟩ := course.twins worded alike
    exact ⟨v', .static given' reads course', twins⟩
  | unauthenticated given joined absent =>
    obtain ⟨r', given', requests⟩ := exists_request_alike alike given
    have same := requests.auth
    rw [absent] at same
    exact ⟨_, .unauthenticated given' joined (Option.map_eq_none_iff.mp same.symm), twins_null worded.loaded⟩
  | misspelled given split =>
    obtain ⟨r', given', -⟩ := exists_request_alike alike given
    exact ⟨_, .misspelled given' split, twins_error worded.loaded _⟩
  | targetless given split field options unnamed =>
    obtain ⟨r', given', -⟩ := exists_request_alike alike given
    exact ⟨_, .targetless given' split field options unnamed, twins_error worded.loaded _⟩
  | untargeted given split field options named missing =>
    obtain ⟨r', given', -⟩ := exists_request_alike alike given
    have later := (loadCollection_worded worded.catalog worded.loaded missing).2
    exact ⟨_, .untargeted given' split field options named missing, twins_error later _⟩
  | @unsubmitted head next name rest modifier r f o c loaded given split field options named found ids =>
    obtain ⟨r', given', requests⟩ := exists_request_alike alike given
    have ids' : submittedItems r' f = [] := (submittedItems_eq_nil_iff requests field options).mp ids
    have later := (loadCollection_worded worded.catalog worded.loaded found).2
    exact ⟨_, .unsubmitted given' split field options named found ids', twins_null later⟩
  | @items head name r f multiple given split field several =>
    obtain ⟨r', given', -⟩ := exists_request_alike alike given
    exact ⟨_, .items given' split field several, twins_submittedItems worded r r' (worded.base.field field) multiple⟩
  | @count head name r f multiple given split field several =>
    obtain ⟨r', given', requests⟩ := exists_request_alike alike given
    have many := requests.items f (List.mem_of_find?_eq_some field) (by rw [Field.isArrayable, several, Option.isSome_some])
    refine ⟨_, .count given' split field several, ?_⟩
    rw [← many]
    exact twins_text worded.loaded (isWord_nat _).safe

theorem twins_visit (worded : s.Worded) (alike : Option.Rel (Request.Alike s.base) s.request q) (path : String) :
    Twins s.settings.dialect (s.visit path) ({ s with request := q }.visit path) := by
  unfold visit
  split
  · rename_i allowed
    obtain ⟨v', course, twins⟩ := (course_segments _).twins worded alike (RecordPath.segments_of_isAllowed allowed)
    rw [course.eq]
    exact twins
  · exact twins_error worded.loaded _

theorem worded_new {catalog : Catalog} {base : Collection} {request : Option Request} (settings : Settings)
    (collections : AllWorded catalog.collections) (own : base.Worded)
    (auth : ∀ r, request = some r → ∀ a, r.auth = some a → a.collection.Worded) :
    (new catalog base request settings).Worded :=
  ⟨collections, own, fun _ member => List.mem_singleton.mp member ▸ own, auth⟩

theorem Worded.after (worded : s.Worded) (path : String) : (resolve path s).2.Worded := by
  have own := twins_visit worded (Request.alike_self s.base s.request) path
  exact ⟨worded.catalog, worded.base, own.loaded, worded.auth⟩

section

variable (d : Dialect) {b b' : Bindings}

theorem texts_putJoin {new new' : Join} (same : new.texts d b = new'.texts d b') {joins joins' : List Join}
    (before : joins.map (JoinOf.texts d b) = joins'.map (JoinOf.texts d b')) :
    (putJoin new joins).map (JoinOf.texts d b) = (putJoin new' joins').map (JoinOf.texts d b') := by
  have aliasName {j k : Join} (h : j.texts d b = k.texts d b') : j.aliasName = k.aliasName := by
    simp only [JoinOf.texts, List.cons.injEq] at h
    exact h.2.1
  induction joins generalizing joins' with
  | nil =>
    rw [List.map_eq_nil_iff.mp before.symm]
    simp [putJoin, same]
  | cons j rest ih =>
    obtain ⟨k, others, rfl, first, later⟩ := List.map_eq_cons_iff.mp before.symm
    unfold putJoin
    rw [aliasName first.symm, aliasName same]
    split
    · rw [List.map_cons, List.map_cons, same, later]
    · rw [List.map_cons, List.map_cons, first, ih later.symm]

theorem texts_putJoins {new new' joins joins' : List Join}
    (same : new.map (JoinOf.texts d b) = new'.map (JoinOf.texts d b'))
    (before : joins.map (JoinOf.texts d b) = joins'.map (JoinOf.texts d b')) :
    (putJoins new joins).map (JoinOf.texts d b) = (putJoins new' joins').map (JoinOf.texts d b') := by
  induction new generalizing new' joins joins' with
  | nil =>
    rw [List.map_eq_nil_iff.mp same.symm]
    exact before
  | cons j rest ih =>
    obtain ⟨k, others, rfl, first, later⟩ := List.map_eq_cons_iff.mp same.symm
    show (putJoins rest (putJoin j joins)).map _ = (putJoins others (putJoin k joins')).map _
    exact ih later.symm (texts_putJoin d first.symm before)

end

/-- Scopes that differ in the values of the request and in those of the joins only. -/
structure Alike (s t : RecordScope) : Prop where
  rest : t = { s with request := t.request, joins := t.joins }
  request : Option.Rel (Request.Alike s.base) s.request t.request
  joins (b b' : Bindings) : b.names = b'.names →
    s.joins.map (JoinOf.texts s.settings.dialect b) = t.joins.map (JoinOf.texts s.settings.dialect b')

/-- One path, resolved in two scopes that are alike, fails in both or comes to operands that are alike. The scopes stay
alike. -/
theorem resolve_alike {t : RecordScope} (worded : s.Worded) (alike : s.Alike t) (path : String) :
    (∀ e, (resolve path s).1 = .error e → (resolve path t).1 = .error e) ∧
      (∀ o, (resolve path s).1 = .ok o → ∃ o', (resolve path t).1 = .ok o' ∧ o.Alike s.settings.dialect o') ∧
      (resolve path s).2.Alike (resolve path t).2 := by
  obtain ⟨rest, request, joins⟩ := alike
  generalize t.request = q at rest request
  generalize t.joins = others at rest joins
  subst rest
  have two : Twins s.settings.dialect (s.visit path) ({ s with request := q, joins := others }.visit path) :=
    twins_visit worded request path
  refine ⟨?_, ?_, ?_, request, ?_⟩
  · intro e failed
    cases outcome : (s.visit path).outcome with
    | error cause =>
      rw [resolve_of_error outcome] at failed
      rw [resolve_of_error (two.failure cause outcome)]
      exact failed
    | ok o =>
      rw [resolve_of_ok outcome] at failed
      cases failed
  · intro o resolved
    obtain ⟨o', reached, same⟩ := two.success o (outcome_of_resolve resolved)
    refine ⟨o', ?_, same⟩
    rw [resolve_of_ok reached]
  · simp only [resolve, after, two.sameLoaded, two.counter]
  · intro b b' names
    exact texts_putJoins _ (two.sameJoins b b' names) (joins b b' names)

/-- Over collections named with word characters, no path injects anything. The texts of the operand, of its chain and of
the joins that are registered are harmless, and none of them depends on a value of the request: in a scope that differs
in values only, the path comes to the same texts, with values bound under the same names. -/
theorem resolve_harmless (worded : s.Worded) {path : String} {o : Operand} (resolved : (resolve path s).1 = .ok o) :
    (∀ b, ∀ text ∈ o.texts s.settings.dialect b, Harmless text) ∧
      (∀ j ∈ (s.visit path).joins s.settings.dialect, ∀ b, ∀ text ∈ j.texts s.settings.dialect b, Harmless text) ∧
      (∀ j ∈ (resolve path s).2.joins, j ∈ (s.visit path).joins s.settings.dialect ∨ j ∈ s.joins) ∧
      ∀ t, s.Alike t → ∃ o', (resolve path t).1 = .ok o' ∧ o.Alike s.settings.dialect o' ∧
        (resolve path s).2.Alike (resolve path t).2 := by
  have own := twins_visit worded (Request.alike_self s.base s.request) path
  refine ⟨?_, ?_, fun j member => mem_or_mem_of_putJoins member, ?_⟩
  · intro b text member
    exact (own.safe o b (outcome_of_resolve resolved) text member).harmless
  · intro j member b text inJoin
    exact ((own.joins j member).texts b text inJoin).harmless
  · intro t alike
    obtain ⟨-, found, stay⟩ := resolve_alike worded alike path
    obtain ⟨o', resolved', same⟩ := found o resolved
    exact ⟨o', resolved', same, stay⟩

def hostile : Request := { data := [("tags", .array [.string "x') OR 1=1; --", .string "y"])] }

theorem alike_hostile : Blog.scope.Alike { Blog.scope with request := some hostile } := by
  have get {key : String} (other : key ≠ "data") :
      Json.Members.get? { data := [("tags", .array [.string "x", .string "y"])] : Request }.members key =
        hostile.members.get? key := by
    simp [Json.Members.get?, Request.members, hostile, List.find?_cons, Ne.symm other]
  refine ⟨rfl, .some ⟨?_, ?_, rfl⟩, fun _ _ _ => rfl⟩
  · intro keys
    match keys with
    | [] => rfl
    | key :: rest =>
      by_cases data : key = "data"
      · rw [data]
        match rest with
        | [] => rfl
        | next :: rest =>
          by_cases tags : next = "tags"
          · rw [tags]
            cases rest <;> rfl
          · cases rest <;> simp [Json.Members.nested?, Json.Members.get?, Request.members, hostile, Ne.symm tags]
      · cases rest <;> simp only [Json.Members.nested?, get data]
  · intro f member arrayable
    rcases List.mem_cons.mp member with rfl | title
    · decide +kernel
    · rw [List.mem_singleton.mp title] at arrayable
      cases arrayable

theorem resolve_harmless_hostile :
    Blog.scope.Worded ∧ ∃ o o', (resolve "@request.data.tags.name" Blog.scope).1 = .ok o ∧
      (resolve "@request.data.tags.name" { Blog.scope with request := some hostile }).1 = .ok o' ∧
      (∀ text ∈ o.texts .mysql Bindings.empty, Harmless text) ∧ o.Alike .mysql o' := by
  have worded : Blog.scope.Worded := worded_new {} (by decide) (by decide) (by rintro r ⟨⟩ a ⟨⟩)
  obtain ⟨o, resolved⟩ : ∃ o, (resolve "@request.data.tags.name" Blog.scope).1 = .ok o := ⟨_, rfl⟩
  obtain ⟨texts, -, -, others⟩ := resolve_harmless worded resolved
  obtain ⟨o', resolved', same, -⟩ := others { Blog.scope with request := some hostile } alike_hostile
  exact ⟨worded, o, o', resolved, resolved', texts Bindings.empty, same⟩

theorem safe_registered (worded : s.Worded) (paths : List String) :
    ∀ j ∈ registered paths s, SafeJoin s.settings.dialect j := by
  induction paths generalizing s with
  | nil => nofun
  | cons path rest ih =>
    rw [registered, visitEach, List.flatMap_cons]
    intro j member
    rcases List.mem_append.mp member with first | later
    · exact (twins_visit worded (Request.alike_self s.base s.request) path).joins j first
    · exact ih (worded.after path) j later

theorem resolveEach_harmless {catalog : Catalog} {base : Collection} {request : Option Request} {settings : Settings}
    (worded : (new catalog base request settings).Worded) (paths : List String) (b : Bindings) :
    ∀ j ∈ (resolveEach paths (new catalog base request settings)).joins, ∀ text ∈ j.texts settings.dialect b,
      Harmless text := by
  intro j member text inJoin
  rw [joins_resolveEach] at member
  have safe := safe_registered worded paths j (mem_of_mem_putJoins member)
  exact (safe.texts b text inJoin).harmless

theorem resolveEach_alike {t : RecordScope} (worded : s.Worded) (alike : s.Alike t) (paths : List String) :
    (resolveEach paths s).Alike (resolveEach paths t) := by
  induction paths generalizing s t with
  | nil => exact alike
  | cons path rest ih => exact ih (worded.after path) (resolve_alike worded alike path).2.2

end RecordScope
end RelationFilter
