import RelationFilter.Proofs.Blog
import RelationFilter.Proofs.Path.Email

namespace RelationFilter

inductive LeadsAlong (cat : Catalog) : (loaded : List Collection) → Collection → (segments : List String) → List Hop →
    Collection → Prop where
  | here (loaded : List Collection) (c : Collection) : LeadsAlong cat loaded c [] [] c
  | step {loaded loaded' : List Collection} {c next c' : Collection} {segment : String} {rest : List String} {h : Hop}
    {hops : List Hop} (link : LeadsBy cat loaded c segment h next loaded')
    (tail : LeadsAlong cat loaded' next rest hops c') : LeadsAlong cat loaded c (segment :: rest) (h :: hops) c'

inductive Collection.Ends (c : Collection) : (segments : List String) → Prop where
  | system {last : String} (there : c.hasSystemField last) : Ends c [last]
  | field {last name : String} {modifier : Option Modifier} {f : Field}
    (split : splitModifier last = .ok (name, modifier)) (field : c.field? name = some f) : Ends c [last]
  | json {segment next : String} {rest : List String} {f : Field} (field : c.field? segment = some f) (json : f.isJson) :
    Ends c (segment :: next :: rest)

def loadedAlong (cat : Catalog) : (loaded : List Collection) → Collection → (segments : List String) → List Collection
  | loaded, _, [] => loaded
  | loaded, c, segment :: rest =>
    match Step.ofSegment cat loaded c segment with
    | (.hop _ next, loaded) => loadedAlong cat loaded next rest
    | (_, loaded) => loaded

theorem loadedAlong_cons {cat : Catalog} {loaded loaded' : List Collection} {c next : Collection} {segment : String}
    {h : Hop} (link : LeadsBy cat loaded c segment h next loaded') (rest : List String) :
    loadedAlong cat loaded c (segment :: rest) = loadedAlong cat loaded' next rest := by
  rw [loadedAlong, Step.ofSegment_eq_hop_iff.mpr link]

theorem LeadsAlong.length_eq {cat : Catalog} {loaded : List Collection} {c c' : Collection} {segments : List String}
    {hops : List Hop} (along : LeadsAlong cat loaded c segments hops c') : hops.length = segments.length := by
  induction along with
  | here => rfl
  | step link tail ih => rw [List.length_cons, List.length_cons, ih]

theorem LeadsAlong.concat {cat : Catalog} {loaded loaded' : List Collection} {c c' next : Collection}
    {segments : List String} {segment : String} {hops : List Hop} {h : Hop}
    (along : LeadsAlong cat loaded c segments hops c')
    (link : LeadsBy cat (loadedAlong cat loaded c segments) c' segment h next loaded') :
    LeadsAlong cat loaded c (segments ++ [segment]) (hops ++ [h]) next := by
  induction along with
  | here => exact .step link (.here ..)
  | step first tail ih =>
    rw [loadedAlong_cons first] at link
    exact .step first (ih link)

theorem Collection.Ends.ne_nil {c : Collection} {segments : List String} (h : c.Ends segments) : segments ≠ [] := by
  cases h <;> exact List.cons_ne_nil _ _

namespace Walk

variable {rules : WalkRules} {depth : Nat} {loaded : List Collection} {c c' : Collection} {segments rest : List String}
  {hops : List Hop}

def afterAll (hops : List Hop) (w : Walk) : Walk := { w with hops := hops ++ w.hops }

/-- A walk ends in a JSON document, whatever the segments in it are. -/
theorem ofSegments_of_json {segment next : String} {f : Field} (field : c.field? segment = some f) (json : f.isJson) :
    ofSegments rules depth c loaded (segment :: next :: rest) =
      ⟨[], loaded, .ok (.json (identifier f.name) (JsonPath.ofSegments (next :: rest)))⟩ := by
  have found : (c.field? segment).filter Field.isJson = some f := by simp [field, json]
  rw [ofSegments, found]

theorem exists_of_ends (ends : c.Ends segments) :
    ∃ a, (ofSegments rules depth c loaded segments).outcome = .ok a := by
  cases ends with
  | system there => exact ⟨_, by rw [ofSegments, ofLast, if_pos there]⟩
  | @field last name modifier f split field =>
    rw [ofSegments, ofLast]
    split
    · exact ⟨_, rfl⟩
    · simp only [split, field]
      exact ⟨_, rfl⟩
  | json field json =>
    rw [ofSegments_of_json field json]
    exact ⟨_, rfl⟩

theorem ofSegments_of_leadsBy {segment : String} {h : Hop} {next : Collection} {loaded' : List Collection}
    (link : LeadsBy rules.catalog loaded c segment h next loaded') (more : rest ≠ []) :
    ofSegments rules depth c loaded (segment :: rest) =
      if rules.maxNested ≤ depth then ⟨[], loaded, .error (.maxNestedRelations segment)⟩
      else after h (ofSegments rules (depth + 1) next loaded' rest) := by
  obtain ⟨first, others, rfl⟩ := List.exists_cons_of_ne_nil more
  rw [ofSegments, link.related.1.not_json]
  simp only [Step.ofSegment_eq_hop_iff.mpr link]

theorem ofSegments_append (along : LeadsAlong rules.catalog loaded c segments hops c') (more : rest ≠ [])
    (within : depth + segments.length ≤ rules.maxNested) :
    ofSegments rules depth c loaded (segments ++ rest) =
      afterAll hops
        (ofSegments rules (depth + segments.length) c' (loadedAlong rules.catalog loaded c segments) rest) := by
  generalize known : rules.catalog = cat at along
  induction along generalizing depth with
  | here => rfl
  | @step loaded loaded' c next c' segment segments h hops link tail ih =>
    subst known
    rw [List.length_cons] at within ⊢
    have deeper : depth + (segments.length + 1) = depth + 1 + segments.length := by omega
    rw [List.cons_append, ofSegments_of_leadsBy link (List.append_ne_nil_of_right_ne_nil _ more), if_neg (by omega),
      loadedAlong_cons link, deeper, ih (by omega)]
    rfl

theorem exists_of_leadsAlong (along : LeadsAlong rules.catalog loaded c segments hops c') (ends : c'.Ends rest)
    (within : depth + segments.length ≤ rules.maxNested) :
    ∃ a, (ofSegments rules depth c loaded (segments ++ rest)).outcome = .ok a := by
  rw [ofSegments_append along ends.ne_nil within]
  exact exists_of_ends ends

theorem ofSegments_of_beyond {n : Nat} (along : LeadsAlong rules.catalog loaded c segments hops c') (more : rest ≠ [])
    (limit : rules.maxNested = depth + n) (beyond : n < segments.length) :
    (ofSegments rules depth c loaded (segments ++ rest)).hops = hops.take n ∧
      (ofSegments rules depth c loaded (segments ++ rest)).outcome = .error (.maxNestedRelations segments[n]) := by
  generalize known : rules.catalog = cat at along
  induction along generalizing depth n with
  | here => exact absurd beyond (Nat.not_lt_zero n)
  | step link tail ih =>
    subst known
    rw [List.cons_append, ofSegments_of_leadsBy link (List.append_ne_nil_of_right_ne_nil _ more)]
    cases n with
    | zero =>
      rw [if_pos (by omega)]
      exact ⟨rfl, rfl⟩
    | succ n =>
      obtain ⟨made, failed⟩ := @ih (depth + 1) n (by omega) (Nat.lt_of_succ_lt_succ beyond)
      rw [if_neg (by omega), after, made]
      exact ⟨rfl, failed⟩

end Walk

/-- No segment with an at sign at its front starts a plain path. -/
theorem RecordPath.unmarked_of_isPlain {path first : String} (plain : isPlain path.toList)
    (marked : first.toList.head? = some '@') (rest : List String) : Text.split '.' path ≠ first :: rest := by
  intro shape
  obtain ⟨tail, whole⟩ := List.head?_eq_some_iff.mp (Text.head?_of_split shape marked)
  rw [whole, isPlain, Bool.and_eq_true] at plain
  exact absurd plain.1 (by decide)

namespace RecordScope

variable {s : RecordScope} {path : String} {segments rest : List String} {hops : List Hop} {c : Collection}

theorem visit_of_plain (plain : RecordPath.isPlain path.toList) :
    s.visit path = s.follow s.loaded false false (.base s.table) s.base (Text.split '.' path) := by
  have allowed : RecordPath.isAllowed path := by simp [RecordPath.isAllowed, plain]
  have unmarked {first : String} (sign : first.toList.head? = some '@') := RecordPath.unmarked_of_isPlain plain sign
  exact visit_of_course allowed (.walked (.base (unmarked (by decide)) (unmarked (by decide))))

theorem joins_follow_base (loaded : List Collection) (lenient showHidden : Bool) (c : Collection) (segments : List String)
    (d : Dialect) :
    (s.follow loaded lenient showHidden (.base s.table) c segments).joins d =
      Route.hopJoins d s.table (Walk.ofSegments (s.rules lenient showHidden) 0 c loaded segments).hops := rfl

/-- A path of hops is resolved just if they are no more than the limit. Otherwise the first one beyond the limit is named,
and the joins of the hops before it are registered. -/
theorem resolve_iff_withinLimit (plain : RecordPath.isPlain path.toList) (shape : Text.split '.' path = segments ++ rest)
    (along : LeadsAlong s.catalog s.loaded s.base segments hops c) (ends : c.Ends rest) :
    ((∃ o, (resolve path s).1 = .ok o) ↔ segments.length ≤ s.settings.maxNestedRelations) ∧
      ∀ beyond : s.settings.maxNestedRelations < segments.length,
        (resolve path s).1 = .error ⟨path, .maxNestedRelations segments[s.settings.maxNestedRelations]⟩ ∧
        (resolve path s).2.joins =
          putJoins (Route.hopJoins s.settings.dialect s.table (hops.take s.settings.maxNestedRelations)) s.joins := by
  have visited := visit_of_plain (s := s) plain
  rw [shape] at visited
  have onRules : LeadsAlong (s.rules false false).catalog s.loaded s.base segments hops c := along
  have start : (s.rules false false).maxNested = 0 + s.settings.maxNestedRelations := (Nat.zero_add _).symm
  have stopped (beyond : s.settings.maxNestedRelations < segments.length) :=
    Walk.ofSegments_of_beyond onRules ends.ne_nil start beyond
  have failed (beyond : s.settings.maxNestedRelations < segments.length) :
      (s.visit path).outcome = .error (.maxNestedRelations segments[s.settings.maxNestedRelations]) := by
    rw [visited, follow, (stopped beyond).2]
    rfl
  refine ⟨⟨?_, ?_⟩, ?_⟩
  · rintro ⟨o, resolved⟩
    by_contra beyond
    rw [resolve_of_error (failed (Nat.lt_of_not_le beyond))] at resolved
    cases resolved
  · intro within
    have inRules : 0 + segments.length ≤ (s.rules false false).maxNested := by
      rw [start]
      omega
    obtain ⟨a, arrived⟩ := Walk.exists_of_leadsAlong onRules ends inRules
    have reached : ∃ o, (s.visit path).outcome = .ok o := by
      rw [visited, follow, arrived]
      exact ⟨_, rfl⟩
    obtain ⟨o, reached⟩ := reached
    exact ⟨o, congrArg Prod.fst (resolve_of_ok reached)⟩
  · intro beyond
    rw [resolve_of_error (failed beyond)]
    refine ⟨rfl, ?_⟩
    show putJoins ((s.visit path).joins s.settings.dialect) s.joins = _
    rw [visited, joins_follow_base, (stopped beyond).1]

/-- One hop is allowed where the path makes two, along a relation and back. -/
theorem resolve_iff_withinLimit_tags :
    let s : RecordScope := { Blog.scope with settings := { maxNestedRelations := 1 } }
    let path := "tags.posts_via_tags.title"
    (resolve path s).1 = .error ⟨path, .maxNestedRelations "posts_via_tags"⟩ ∧
      (resolve path s).2.joins = putJoins (Route.hopJoins s.settings.dialect s.table [.records "tags" "tags"]) [] ∧
      ∃ o, (resolve path { s with settings := { maxNestedRelations := 2 } }).1 = .ok o := by
  intro s path
  have there : LeadsBy s.catalog s.loaded s.base "tags" (.records "tags" "tags") Blog.tags [Blog.posts, Blog.tags] :=
    Step.ofSegment_eq_hop_iff.mp rfl
  have back : LeadsBy s.catalog [Blog.posts, Blog.tags] Blog.tags "posts_via_tags"
      (.referrers "posts_via_tags" "tags" "posts" true) Blog.posts [Blog.posts, Blog.tags] :=
    Step.ofSegment_eq_hop_iff.mp rfl
  have along := LeadsAlong.step there (.step back (.here ..))
  have ends : Blog.posts.Ends ["title"] := .field rfl rfl
  have plain : RecordPath.isPlain path.toList := by decide
  have shape : Text.split '.' path = ["tags", "posts_via_tags"] ++ ["title"] := by decide
  obtain ⟨-, failed⟩ := resolve_iff_withinLimit (s := s) plain shape along ends
  obtain ⟨error, joins⟩ := failed (by decide)
  refine ⟨error, joins, ?_⟩
  exact (resolve_iff_withinLimit (s := { s with settings := { maxNestedRelations := 2 } }) plain shape along ends).1.mpr
    (by decide)

end RecordScope

end RelationFilter
