import RelationFilter.Proofs.Blog
import RelationFilter.Proofs.Path.Registry
import RelationFilter.Proofs.Path.Renumber
import RelationFilter.Proofs.Schema.Lookup

namespace RelationFilter

open Catalog

section

variable {cat : Catalog} (keyed : cat.Keyed) (unambiguous : cat.Unambiguous)
include keyed unambiguous

theorem Step.ofRelation_eq (f : Field) (segment : String) {loaded : List Collection} (own : loaded ⊆ cat.collections) :
    ∃ loaded', loaded' ⊆ cat.collections ∧
      ofRelation cat loaded f segment = ((ofRelation cat [] f segment).1, loaded') := by
  unfold ofRelation
  cases f.relation? with
  | none => exact ⟨loaded, own, rfl⟩
  | some o =>
    dsimp only
    cases target? f o with
    | error cause => exact ⟨loaded, own, rfl⟩
    | ok id =>
      obtain ⟨first, -, load⟩ := loadCollection_eq keyed unambiguous id (List.nil_subset _)
      obtain ⟨loaded', own', load'⟩ := loadCollection_eq keyed unambiguous id own
      simp only [load, load']
      cases cat.get? id <;> exact ⟨loaded', own', rfl⟩

theorem Step.ofBackReference_eq (current : Collection) (segment : String) {loaded : List Collection}
    (own : loaded ⊆ cat.collections) : ∃ loaded', loaded' ⊆ cat.collections ∧
      ofBackReference cat loaded current segment = ((ofBackReference cat [] current segment).1, loaded') := by
  unfold ofBackReference
  cases BackReference.parse? segment with
  | none => exact ⟨loaded, own, rfl⟩
  | some back =>
    obtain ⟨first, -, load⟩ := loadCollection_eq keyed unambiguous back.collection (List.nil_subset _)
    obtain ⟨loaded', own', load'⟩ := loadCollection_eq keyed unambiguous back.collection own
    simp only [load, load']
    cases cat.get? back.collection with
    | none => exact ⟨loaded', own', rfl⟩
    | some other =>
      dsimp only
      cases other.field? back.field <;> exact ⟨loaded', own', rfl⟩

theorem Step.ofSegment_eq (current : Collection) (segment : String) {loaded : List Collection}
    (own : loaded ⊆ cat.collections) : ∃ loaded', loaded' ⊆ cat.collections ∧
      ofSegment cat loaded current segment = ((ofSegment cat [] current segment).1, loaded') := by
  unfold ofSegment
  cases current.field? segment with
  | none => exact ofBackReference_eq keyed unambiguous current segment own
  | some f => exact ofRelation_eq keyed unambiguous f segment own

omit keyed unambiguous in
theorem Walk.ofLast_eq (rules : WalkRules) (c : Collection) (segment : String) (loaded : List Collection) :
    ofLast rules c loaded segment = { ofLast rules c [] segment with loaded := loaded } := by
  unfold ofLast
  split
  · rfl
  · split
    · rfl
    · split <;> rfl

end

theorem Walk.ofSegments_eq {rules : WalkRules} (keyed : rules.catalog.Keyed) (unambiguous : rules.catalog.Unambiguous)
    (segments : List String) (depth : Nat) (c : Collection) {loaded : List Collection}
    (own : loaded ⊆ rules.catalog.collections) : ∃ loaded', loaded' ⊆ rules.catalog.collections ∧
      ofSegments rules depth c loaded segments = { ofSegments rules depth c [] segments with loaded := loaded' } := by
  induction segments generalizing depth c loaded with
  | nil => exact ⟨loaded, own, rfl⟩
  | cons segment rest ih =>
    cases rest with
    | nil => exact ⟨loaded, own, ofLast_eq rules c segment loaded⟩
    | cons next rest =>
      unfold ofSegments
      cases (c.field? segment).filter Field.isJson with
      | some f => exact ⟨loaded, own, rfl⟩
      | none =>
        dsimp only
        split
        · exact ⟨loaded, own, rfl⟩
        · obtain ⟨first, own₁, step⟩ := Step.ofSegment_eq keyed unambiguous c segment (List.nil_subset _)
          obtain ⟨loaded', own', step'⟩ := Step.ofSegment_eq keyed unambiguous c segment own
          rw [step', step]
          cases (Step.ofSegment rules.catalog [] c segment).1 with
          | hop h reached =>
            obtain ⟨any, -, walk⟩ := ih (depth + 1) reached own₁
            obtain ⟨last, ownLast, walk'⟩ := ih (depth + 1) reached own'
            exact ⟨last, ownLast, by simp only [walk, walk', after]⟩
          | absent cause => exact ⟨loaded', own', rfl⟩
          | failure cause => exact ⟨loaded', own', rfl⟩

namespace RecordScope

def resume (s : RecordScope) (loaded : List Collection) (joins : List Join) (counter : Nat) : RecordScope :=
  { s with loaded, joins, counter }

inductive Ending where
  | fixed (outcome : Except PathCause Operand) (route : Option Route)
  | value (v : Json)
  | submitted (field items : String) (multiple : Bool)

def Ending.visit (s : RecordScope) (loaded : List Collection) (counter : Nat) : Ending → Visit
  | fixed outcome route => { outcome, route, loaded, counter }
  | value v => { outcome := .ok (.bound (numbered "t" counter) v), loaded, counter := counter + 1 }
  | submitted field items multiple =>
    let route := itemsRoute (identifier field) items multiple counter
    { outcome := .ok (route.operand s.settings.dialect s.table .element)
      route := some route
      loaded
      counter := counter + 1 }

/-- From every point of the compilation a visit ends in the same way, and it loads collections of the catalog. -/
def Settles (s : RecordScope) (visit : RecordScope → Visit) : Prop :=
  ∃ e : Ending, ∀ loaded joins counter, loaded ⊆ s.catalog.collections →
    ∃ loaded', loaded' ⊆ s.catalog.collections ∧ visit (s.resume loaded joins counter) = e.visit s loaded' counter

/-- The catalog gives one answer to each name, and the authenticated record is of one of its collections. -/
structure Grounded (s : RecordScope) : Prop where
  keyed : s.catalog.Keyed
  unambiguous : s.catalog.Unambiguous
  auth : ∀ r a, s.request = some r → r.auth = some a → a.collection ∈ s.catalog.collections

variable {s : RecordScope}

theorem Grounded.load (grounded : s.Grounded) {nameOrId : String} {found : Option Collection}
    {first loaded : List Collection} (load : loadCollection s.catalog [] nameOrId = (found, first))
    (own : loaded ⊆ s.catalog.collections) :
    ∃ loaded', loaded' ⊆ s.catalog.collections ∧ loadCollection s.catalog loaded nameOrId = (found, loaded') := by
  obtain ⟨_, -, start⟩ := loadCollection_eq grounded.keyed grounded.unambiguous nameOrId (List.nil_subset _)
  obtain ⟨loaded', own', later⟩ := loadCollection_eq grounded.keyed grounded.unambiguous nameOrId own
  cases load.symm.trans start
  exact ⟨loaded', own', later⟩

theorem StaticCourse.settles {members : List String} {v : Visit} (course : (s.resume [] [] 0).StaticCourse members v) :
    ∃ e : Ending, ∀ loaded joins counter,
      (s.resume loaded joins counter).StaticCourse members (e.visit s loaded counter) := by
  cases course with
  | empty nil => exact ⟨.fixed (.error .emptyPath) none, fun _ _ _ => .empty nil⟩
  | misspelled ends split => exact ⟨.fixed (.error _) none, fun _ _ _ => .misspelled ends split⟩
  | @presence last name ends split =>
    let answer := if (s.member? members.dropLast name).isSome then "TRUE" else "FALSE"
    exact ⟨.fixed (.ok { text := answer }) none, fun _ _ _ => .presence ends split⟩
  | null ends split other absent => exact ⟨.fixed (.ok .null) none, fun _ _ _ => .null ends split other absent⟩
  | @value last name modifier v ends split other found shown =>
    exact ⟨.value (s.boundValue name v), fun _ _ _ => .value ends split other found shown⟩

theorem settles_static (segments : List String) : s.Settles fun t => t.visitStatic segments := by
  obtain ⟨e, ends⟩ := (course_static (s := s.resume [] [] 0) segments).settles
  exact ⟨e, fun loaded joins counter own => ⟨loaded, own, (ends loaded joins counter).eq⟩⟩

section

variable {path segments : List String} {first loaded : List Collection} {lenient showHidden : Bool} {root : Root}
  {c : Collection}

theorem Enters.resume (grounded : s.Grounded)
    (enters : (s.resume [] [] 0).Enters path first lenient showHidden root c segments)
    (own : loaded ⊆ s.catalog.collections) (joins : List Join) (counter : Nat) :
    ∃ first', first' ⊆ s.catalog.collections ∧
      (s.resume loaded joins counter).Enters path first' lenient showHidden root c segments := by
  cases enters with
  | base collection request => exact ⟨loaded, own, .base collection request⟩
  | collection found =>
    obtain ⟨first', own', found'⟩ := grounded.load found own
    exact ⟨first', own', .collection found'⟩
  | auth given authenticated joined =>
    have reached := grounded.auth _ _ given authenticated
    exact ⟨_, rememberCollection_subset own reached, .auth given authenticated joined⟩
  | submitted given split field options named found ids =>
    obtain ⟨first', own', found'⟩ := grounded.load found own
    exact ⟨first', own', .submitted given split field options named found' ids⟩

theorem follow_resume (grounded : s.Grounded) (lenient showHidden : Bool) (root : Root) (c : Collection)
    (segments : List String) : ∃ e : Ending, ∀ loaded joins counter first, first ⊆ s.catalog.collections →
      ∃ loaded', loaded' ⊆ s.catalog.collections ∧
        (s.resume loaded joins counter).follow first lenient showHidden root c segments = e.visit s loaded' counter := by
  let w := Walk.ofSegments (s.rules lenient showHidden) 0 c [] segments
  let route : Route := ⟨root, w.hops⟩
  refine ⟨.fixed (w.outcome.map (route.operand s.settings.dialect s.table)) (some route), ?_⟩
  intro loaded joins counter first own
  have keyed : (s.rules lenient showHidden).catalog.Keyed := grounded.keyed
  obtain ⟨loaded', own', walk⟩ := Walk.ofSegments_eq keyed grounded.unambiguous segments 0 c own
  refine ⟨loaded', own', ?_⟩
  have rules : (s.resume loaded joins counter).rules lenient showHidden = s.rules lenient showHidden := rfl
  rw [follow, rules, walk]
  rfl

end

theorem Course.settles (grounded : s.Grounded) {path : List String} {v : Visit}
    (course : (s.resume [] [] 0).Course path v) :
    ∃ e : Ending, ∀ loaded joins counter, loaded ⊆ s.catalog.collections →
      ∃ loaded', loaded' ⊆ s.catalog.collections ∧
        (s.resume loaded joins counter).Course path (e.visit s loaded' counter) := by
  cases course with
  | @walked _ segments _ lenient showHidden root c enters =>
    obtain ⟨e, ends⟩ := follow_resume grounded lenient showHidden root c segments
    refine ⟨e, fun loaded joins counter own => ?_⟩
    obtain ⟨first, own', enters'⟩ := enters.resume grounded own joins counter
    obtain ⟨loaded', own'', ended⟩ := ends loaded joins counter first own'
    exact ⟨loaded', own'', ended ▸ .walked enters'⟩
  | short short => exact ⟨.fixed (.error _) none, fun loaded _ _ own => ⟨loaded, own, .short short⟩⟩
  | @uncollected segment next rest first missing =>
    refine ⟨.fixed (.error (.unknownCollection (splitCollection segment).1)) none, fun loaded _ _ own => ?_⟩
    obtain ⟨loaded', own', missing'⟩ := grounded.load missing own
    exact ⟨loaded', own', .uncollected missing'⟩
  | unrequested given => exact ⟨.fixed (.ok _) none, fun loaded _ _ own => ⟨loaded, own, .unrequested given⟩⟩
  | static given reads course =>
    obtain ⟨e, ends⟩ := course.settles
    exact ⟨e, fun loaded joins counter own => ⟨loaded, own, .static given reads (ends loaded joins counter)⟩⟩
  | unauthenticated given joined absent =>
    exact ⟨.fixed (.ok _) none, fun loaded _ _ own => ⟨loaded, own, .unauthenticated given joined absent⟩⟩
  | misspelled given split =>
    exact ⟨.fixed (.error _) none, fun loaded _ _ own => ⟨loaded, own, .misspelled given split⟩⟩
  | targetless given split field options unnamed =>
    exact ⟨.fixed (.error _) none, fun loaded _ _ own => ⟨loaded, own, .targetless given split field options unnamed⟩⟩
  | @untargeted head next name rest modifier r f o first given split field options named missing =>
    refine ⟨.fixed (.error (.unknownCollection o.collectionId)) none, fun loaded _ _ own => ?_⟩
    obtain ⟨loaded', own', missing'⟩ := grounded.load missing own
    exact ⟨loaded', own', .untargeted given split field options named missing'⟩
  | unsubmitted given split field options named found ids =>
    refine ⟨.fixed (.ok .null) none, fun loaded _ _ own => ?_⟩
    obtain ⟨loaded', own', found'⟩ := grounded.load found own
    exact ⟨loaded', own', .unsubmitted given split field options named found' ids⟩
  | @items head name r f multiple given split field several =>
    refine ⟨.submitted f.name (Json.ofStrings (submittedItems r f)).text multiple, fun loaded _ _ own => ?_⟩
    exact ⟨loaded, own, .items given split field several⟩
  | count given split field several =>
    exact ⟨.fixed (.ok _) none, fun loaded _ _ own => ⟨loaded, own, .count given split field several⟩⟩

theorem settles_visit (grounded : s.Grounded) (path : String) : s.Settles fun t => t.visit path := by
  unfold visit
  split
  · obtain ⟨e, ends⟩ := (course_segments (s := s.resume [] [] 0) (Text.split '.' path)).settles grounded
    refine ⟨e, fun loaded joins counter own => ?_⟩
    obtain ⟨loaded', own', course⟩ := ends loaded joins counter own
    exact ⟨loaded', own', course.eq⟩
  · exact ⟨.fixed (.error .disallowedField) none, fun loaded _ _ own => ⟨loaded, own, rfl⟩⟩

theorem resolveEach_eq (grounded : s.Grounded) (paths : List String) {loaded : List Collection}
    (own : loaded ⊆ s.catalog.collections) (joins : List Join) (counter : Nat) :
    ∃ loaded' joins' counter', loaded' ⊆ s.catalog.collections ∧
      resolveEach paths (s.resume loaded joins counter) = s.resume loaded' joins' counter' := by
  induction paths generalizing loaded joins counter with
  | nil => exact ⟨loaded, joins, counter, own, rfl⟩
  | cons path rest ih =>
    obtain ⟨e, ends⟩ := settles_visit grounded path
    obtain ⟨next, own', ended⟩ := ends loaded joins counter own
    have loads : ((s.resume loaded joins counter).visit path).loaded = next :=
      (congrArg Visit.loaded ended).trans (by cases e <;> rfl)
    exact ih (loads ▸ own') _ _

theorem Visits.unbound {v : Visit} (seen : s.Visits v) (quiet : v.counter = s.counter) {o : Operand}
    (reached : v.outcome = .ok o) :
    o.bindings = Bindings.empty ∧ ∀ m, o.chain = some m → m.bindings = Bindings.empty := by
  cases seen with
  | stayed loaded outcome plain =>
    obtain ⟨text, rfl, -⟩ := plain o reached
    exact ⟨rfl, by simp⟩
  | bound value => simp at quiet
  | walked r arrival loaded clean end_clean unbound based =>
    cases arrival with
    | error cause => cases reached
    | ok a =>
      cases reached
      have chain : ∀ m, (if r.isMultiple then some (r.chain s.settings.dialect s.table a) else none) = some m →
          m.bindings = Bindings.empty := by
        intro m multi
        split at multi
        · cases multi
          exact unbound .copy
        · cases multi
      cases a with
      | null => exact ⟨rfl, by simp [Route.operand, Operand.null]⟩
      | _ => exact ⟨unbound .primary, chain⟩
  | items field items multiple clean => simp at quiet

/-- Two visits that end in the same way, the second one with the number `n` for `m`. -/
structure Renumbered (d : Dialect) (m n : Nat) (v w : Visit) : Prop where
  outcome : w.outcome = v.outcome.map (Operand.rename (renumber m n))
  joins : w.joins d = (v.joins d).map (JoinOf.rename (renumber m n))
  signature : ∀ o o', v.outcome = .ok o → w.outcome = .ok o' →
    o'.chain.map (ChainOf.signature d) = o.chain.map (ChainOf.signature d)

theorem Ending.renumbered {e : Ending} {first loaded : List Collection} {joins : List Join} {m : Nat}
    (seen : (s.resume first joins m).Visits (e.visit s loaded m)) (loaded' : List Collection) (n : Nat) :
    Renumbered s.settings.dialect m n (e.visit s loaded m) (e.visit s loaded' n) := by
  cases e with
  | fixed outcome route =>
    have free : IsFree fun _ _ => True := fun _ _ _ => trivial
    have kept : ∀ o, outcome = .ok o → o.rename (renumber m n) = o := by
      intro o reached
      obtain ⟨bindings, chain⟩ := seen.unbound rfl reached
      exact (seen.operand free reached).1.rename_eq bindings chain
    have unnamed : (Ending.visit s loaded m (.fixed outcome route)).names = [] := by
      cases outcome with
      | error cause => rfl
      | ok o => simp [Visit.names, visit, Except.toOption, (seen.unbound rfl rfl).1, Bindings.names, Bindings.empty]
    constructor
    · cases outcome with
      | error cause => rfl
      | ok o => exact congrArg Except.ok (kept o rfl).symm
    · have joins_kept : ∀ j ∈ (Ending.visit s loaded m (.fixed outcome route)).joins s.settings.dialect,
          JoinOf.rename (renumber m n) j = j := by
        intro j member
        have sound : Join.Sound (fun _ _ => True) _ j := seen.join j member
        rw [unnamed] at sound
        exact JoinOf.rename_of_covers sound.table
      rw [List.map_congr_left joins_kept, List.map_id']
      rfl
    · intro o o' reached reached'
      cases reached.symm.trans reached'
      rfl
  | value v =>
    refine ⟨congrArg Except.ok (Operand.bound_rename m n v).symm, rfl, ?_⟩
    rintro o o' ⟨⟩ ⟨⟩
    rfl
  | submitted field items multiple =>
    have named := isIdentifier_identifier field
    refine ⟨congrArg Except.ok (itemsRoute_operand _ _ _ _ _ m n named).symm, (itemsRoute_joins _ _ _ _ m n _).symm, ?_⟩
    rintro o o' ⟨⟩ ⟨⟩
    cases multiple with
    | false => rfl
    | true =>
      have signature := itemsRoute_signature s.settings.dialect s.isIdentifier_table named items true n m
      exact congrArg some signature

/-- Over a catalog in which no name is the id of another collection, a path comes to what it comes to on a new scope,
whatever paths were resolved before, with or without success. Only the number of its placeholder is another one. -/
theorem resolve_history {catalog : Catalog} {base : Collection} {request : Option Request} (settings : Settings)
    (built : catalog.Built) (unambiguous : catalog.Unambiguous) (own : base ∈ catalog.collections)
    (auth : ∀ r a, request = some r → r.auth = some a → a.collection ∈ catalog.collections) (paths : List String)
    (path : String) :
    let fresh := new catalog base request settings
    let s := resolveEach paths fresh
    let later := renumber 0 s.counter
    (resolve path s).1 = (resolve path fresh).1.map (Operand.rename later) ∧
      (s.visit path).joins settings.dialect =
        ((fresh.visit path).joins settings.dialect).map (JoinOf.rename later) ∧
      ∀ o o', (resolve path fresh).1 = .ok o → (resolve path s).1 = .ok o' →
        o'.chain.map (ChainOf.signature settings.dialect) = o.chain.map (ChainOf.signature settings.dialect) := by
  intro fresh s later
  have grounded : fresh.Grounded := ⟨built.keyed, unambiguous, auth⟩
  have owned : [base] ⊆ fresh.catalog.collections := List.cons_subset.mpr ⟨own, List.nil_subset _⟩
  obtain ⟨loaded, joins, counter, owned', shape⟩ := resolveEach_eq grounded paths owned [] 0
  have reached : s = fresh.resume loaded joins counter := shape
  obtain ⟨e, ends⟩ := settles_visit grounded path
  obtain ⟨first, -, visit⟩ := ends [base] [] 0 owned
  obtain ⟨second, -, visit'⟩ := ends loaded joins counter owned'
  have seen : (fresh.resume [base] [] 0).Visits (e.visit fresh first 0) := visit ▸ visits path
  have same : Renumbered settings.dialect 0 s.counter (fresh.visit path) (s.visit path) := by
    rw [reached]
    have two := Ending.renumbered seen second counter
    rw [← visit, ← visit'] at two
    exact two
  refine ⟨?_, same.joins, ?_⟩
  · simp only [resolve, same.outcome]
    cases (fresh.visit path).outcome <;> rfl
  · intro o o' ok ok'
    exact same.signature o o' (outcome_of_resolve ok) (outcome_of_resolve ok')

theorem resolve_history_blog :
    let s := resolveEach ["@request.data.tags:each", "tags.missing"] Blog.scope
    (resolve "tags.missing" Blog.scope).1.toOption.isNone ∧ s.counter = 1 ∧
      (resolve "@request.data.tags:each" s).1 =
        (resolve "@request.data.tags:each" Blog.scope).1.map (Operand.rename (renumber 0 1)) := by
  have built : Blog.scope.catalog.Built := (Built.empty.save Blog.posts).save Blog.tags
  have unambiguous : Blog.scope.catalog.Unambiguous := by decide +kernel
  have own : Blog.posts ∈ Blog.scope.catalog.collections := List.mem_cons_self
  have auth : ∀ r a, Blog.scope.request = some r → r.auth = some a → a.collection ∈ Blog.scope.catalog.collections := by
    rintro r a ⟨⟩ ⟨⟩
  obtain ⟨outcome, -⟩ := resolve_history {} built unambiguous own auth ["@request.data.tags:each", "tags.missing"]
    "@request.data.tags:each"
  exact ⟨rfl, rfl, outcome⟩

end RecordScope
end RelationFilter
