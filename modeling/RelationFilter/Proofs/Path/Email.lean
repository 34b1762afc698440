import Mathlib.Data.List.Basic
import RelationFilter.Proofs.Path.Visit

namespace RelationFilter

inductive Related (cat : Catalog) (loaded : List Collection) (c : Collection) (segment : String) :
    Collection → List Collection → Prop where
  | relation {next : Collection} {loaded' : List Collection} {f : Field} {o : RelationOptions}
      (field : c.field? segment = some f) (options : f.relation? = some o)
      (target : loadCollection cat loaded o.collectionId = (some next, loaded')) :
      Related cat loaded c segment next loaded'
  | referrer {next : Collection} {loaded' : List Collection} {back : BackReference} {f : Field} {o : RelationOptions}
      (free : c.field? segment = none) (parsed : BackReference.parse? segment = some back)
      (other : loadCollection cat loaded back.collection = (some next, loaded'))
      (field : next.field? back.field = some f) (options : f.relation? = some o) (target : o.collectionId = c.id) :
      Related cat loaded c segment next loaded'

inductive Leads (cat : Catalog) : (loaded : List Collection) → Collection → (row : String) → List String → Collection →
    (row' : String) → Prop where
  | here (loaded : List Collection) (c : Collection) (row : String) : Leads cat loaded c row [] c row
  | step {loaded loaded' : List Collection} {c next c' : Collection} {row row' segment : String} {rest : List String}
      (link : Related cat loaded c segment next loaded')
      (tail : Leads cat loaded' next (row ++ "_" ++ identifier segment) rest c' row') :
      Leads cat loaded c row (segment :: rest) c' row'

theorem Collection.hasSystemField_email (c : Collection) : c.hasSystemField "email" = c.isAuth := by
  unfold hasSystemField systemFields
  cases c.isAuth <;> decide

theorem Collection.name_of_field? {c : Collection} {name : String} {f : Field} (h : c.field? name = some f) :
    f.name = name := by
  simpa using List.find?_some h

theorem Related.unique {cat : Catalog} {loaded loaded' loaded'' : List Collection} {c next next' : Collection}
    {segment : String} (h : Related cat loaded c segment next loaded') (h' : Related cat loaded c segment next' loaded'') :
    next = next' ∧ loaded' = loaded'' := by
  cases h with
  | relation field options target =>
    cases h' with
    | relation field' options' target' =>
      cases field.symm.trans field'
      cases options.symm.trans options'
      cases target.symm.trans target'
      exact ⟨rfl, rfl⟩
    | referrer free => cases field.symm.trans free
  | referrer free parsed other =>
    cases h' with
    | relation field => cases free.symm.trans field
    | referrer _ parsed' other' =>
      cases parsed.symm.trans parsed'
      cases other.symm.trans other'
      exact ⟨rfl, rfl⟩

theorem Related.not_json {cat : Catalog} {loaded loaded' : List Collection} {c next : Collection} {segment : String}
    (h : Related cat loaded c segment next loaded') : (c.field? segment).filter Field.isJson = none := by
  cases h with
  | @relation f o field options target =>
    have other : f.isJson = false := by
      unfold Field.relation? at options
      split at options
      · rename_i kind
        simp [Field.isJson, kind]
      · cases options
    simp [field, other]
  | referrer free => simp [free]

theorem LeadsBy.related {cat : Catalog} {loaded loaded' : List Collection} {c next : Collection} {segment : String} {h : Hop}
    (link : LeadsBy cat loaded c segment h next loaded') :
    Related cat loaded c segment next loaded' ∧ ∀ row, h.target row = row ++ "_" ++ identifier segment := by
  cases link with
  | relation field options named target =>
    refine ⟨.relation field options target, fun row => ?_⟩
    have name := Collection.name_of_field? field
    split <;> rw [Hop.target, name]
  | referrer free parsed other field options named target =>
    exact ⟨.referrer free parsed other field options target, fun _ => rfl⟩

namespace Walk

variable {rules : WalkRules} {depth : Nat} {c c' : Collection} {loaded : List Collection} {segments : List String}
  {row row' : String} {a : Arrival}

/-- A walk that passes a segment without lenience makes a hop there, unless it ends in a JSON field. -/
theorem hop_of_ofSegments {segment : String} {rest : List String} (strict : rules.lenient = false) (more : rest ≠ [])
    (plain : (c.field? segment).filter Field.isJson = none)
    (reached : (ofSegments rules depth c loaded (segment :: rest)).outcome = .ok a) :
    ∃ h next loaded', Step.ofSegment rules.catalog loaded c segment = (.hop h next, loaded') ∧
      ofSegments rules depth c loaded (segment :: rest) = after h (ofSegments rules (depth + 1) next loaded' rest) := by
  obtain ⟨first, others, rfl⟩ := List.exists_cons_of_ne_nil more
  rw [ofSegments, plain] at reached ⊢
  dsimp only at reached ⊢
  split at reached
  · cases reached
  · rename_i within
    rw [if_neg within]
    split at reached
    · rename_i h next loaded' step
      exact ⟨h, next, loaded', step, rfl⟩
    · rw [missing, if_neg (by simp [strict])] at reached
      cases reached
    · cases reached

theorem column_of_leads (strict : rules.lenient = false) (hides : rules.showHidden = false)
    (leads : Leads rules.catalog loaded c row segments c' row') (auth : c'.isAuth)
    (reached : (ofSegments rules depth c loaded (segments ++ ["email"])).outcome = .ok a) :
    a = .column "email" true ∧
      Route.hopAlias row (ofSegments rules depth c loaded (segments ++ ["email"])).hops = row' := by
  generalize known : rules.catalog = cat at leads
  induction leads generalizing depth with
  | here loaded c row =>
    have there : c.hasSystemField "email" = true := by rw [Collection.hasSystemField_email, auth]
    have own : identifier "email" = "email" := by decide
    simp only [List.nil_append, ofSegments, ofLast, there, ↓reduceIte, own, hides] at reached ⊢
    cases reached
    exact ⟨rfl, rfl⟩
  | @step loaded loaded' c next c' row row' segment rest link tail ih =>
    -- A walk that arrives has made the hop that the link says, for a segment leads to one collection at most.
    subst known
    rw [List.cons_append] at reached ⊢
    obtain ⟨h, next', loaded'', step, shape⟩ := hop_of_ofSegments strict (by simp) link.not_json reached
    obtain ⟨related, target⟩ := (Step.ofSegment_eq_hop_iff.mp step).related
    obtain ⟨rfl, rfl⟩ := link.unique related
    rw [shape] at reached ⊢
    obtain ⟨arrival, aliasAt⟩ := ih auth reached
    refine ⟨arrival, ?_⟩
    rw [after, Route.hopAlias, List.foldl_cons, target]
    exact aliasAt

/-- Only the e-mail address of a collection with authentication is guarded. -/
theorem leads_of_guarded {name : String} (row : String)
    (reached : (ofSegments rules depth c loaded segments).outcome = .ok (.column name true)) :
    rules.showHidden = false ∧ ∃ before c', segments = before ++ ["email"] ∧ c'.isAuth ∧
      Leads rules.catalog loaded c row before c' (Route.hopAlias row (ofSegments rules depth c loaded segments).hops) := by
  fun_induction ofSegments rules depth c loaded segments generalizing row with
  | case1 => cases reached
  | case2 depth c loaded last =>
    unfold ofLast at reached ⊢
    split at reached
    · rename_i there
      simp only [Except.ok.injEq, Arrival.column.injEq, Bool.and_eq_true, decide_eq_true_eq, Bool.not_eq_true'] at reached
      obtain ⟨-, rfl, hides⟩ := reached
      refine ⟨hides, [], c, rfl, by rwa [Collection.hasSystemField_email] at there, ?_⟩
      rw [if_pos there]
      exact .here ..
    · split at reached
      · cases reached
      · split at reached
        · unfold missing at reached
          split at reached <;> cases reached
        · unfold ofField at reached
          dsimp only at reached
          split at reached
          · cases reached
          · cases reached
          · split at reached <;> cases reached
  | case3 => cases reached
  | case4 => cases reached
  | case5 depth c loaded segment next rest _ _ h found loaded' step ih =>
    obtain ⟨related, target⟩ := (Step.ofSegment_eq_hop_iff.mp step).related
    obtain ⟨hides, before, c', shape, auth, leads⟩ := ih (h.target row) reached
    refine ⟨hides, segment :: before, c', by rw [shape, List.cons_append], auth, ?_⟩
    exact .step related (target row ▸ leads)
  | case6 =>
    unfold missing at reached
    split at reached <;> cases reached
  | case7 => cases reached

end Walk

namespace Text

theorem split_of_prefix {sep : Char} {s word : String} (rest : List Char) (h : s.toList = word.toList ++ sep :: rest)
    (whole : sep ∉ word.toList) : split sep s = word :: (rest.splitOn sep).map String.ofList := by
  have cut : s.toList.splitOn sep = word.toList :: rest.splitOn sep := by
    rw [h]
    refine List.splitOnP_append_cons_of_forall_mem ?_ sep (by simp) rest
    intro c member
    have other : c ≠ sep := fun same => whole (same ▸ member)
    simpa using other
  rw [split, cut, List.map_cons, String.ofList_toList]

theorem head?_of_split {sep c : Char} {s first : String} {rest : List String} (h : split sep s = first :: rest)
    (starts : first.toList.head? = some c) : s.toList.head? = some c := by
  rw [split] at h
  obtain ⟨cs, parts, shape, rfl, -⟩ := List.map_eq_cons_iff.mp h
  have joined : [sep].intercalate (s.toList.splitOn sep) = s.toList := List.intercalate_splitOn sep
  rw [shape] at joined
  rw [String.toList_ofList] at starts
  obtain ⟨tail, rfl⟩ := List.head?_eq_some_iff.mp starts
  rw [← joined]
  cases parts <;> rfl

end Text

namespace RecordPath

theorem prefix_of_follows {start : String} {test : List Char → Bool} {cs : List Char} (h : follows start test cs) :
    start.toList <+: cs := by
  rw [← List.isPrefixOf_iff_prefix, ← List.isSome_isPrefixOf?_eq_isPrefixOf]
  rcases found : start.toList.isPrefixOf? cs with _ | rest
  · simp [follows, found] at h
  · rfl

/-- A path that starts with an at sign leads into the request or to a collection. -/
theorem split_of_isAllowed {path : String} (allowed : isAllowed path) (marked : path.toList.head? = some '@') :
    ∃ rest, Text.split '.' path = "@request" :: rest ∨ Text.split '.' path = "@collection" :: rest := by
  have inRequest {start : String} {more : List Char} (shape : start.toList = "@request".toList ++ '.' :: more)
      (starts : start.toList <+: path.toList) : ∃ rest, Text.split '.' path = "@request" :: rest := by
    obtain ⟨rest, whole⟩ := starts
    rw [shape, List.append_assoc, List.cons_append] at whole
    exact ⟨_, Text.split_of_prefix _ whole.symm (by decide)⟩
  simp only [isAllowed, Bool.or_eq_true, decide_eq_true_eq] at allowed
  rcases allowed with ((((((plain | rfl) | rfl) | auth) | data) | query) | headers) | collection
  · obtain ⟨rest, shape⟩ := List.head?_eq_some_iff.mp marked
    simp [isPlain, shape] at plain
    exact absurd plain.1 (by decide)
  · exact ⟨["context"], .inl (by decide)⟩
  · exact ⟨["method"], .inl (by decide)⟩
  · obtain ⟨rest, h⟩ := inRequest (by rfl) (prefix_of_follows auth)
    exact ⟨rest, .inl h⟩
  · obtain ⟨rest, h⟩ := inRequest (by rfl) (prefix_of_follows data)
    exact ⟨rest, .inl h⟩
  · obtain ⟨rest, h⟩ := inRequest (by rfl) (prefix_of_follows query)
    exact ⟨rest, .inl h⟩
  · obtain ⟨rest, h⟩ := inRequest (by rfl) (prefix_of_follows headers)
    exact ⟨rest, .inl h⟩
  · obtain ⟨rest, whole⟩ := prefix_of_follows collection
    exact ⟨_, .inr (Text.split_of_prefix rest whole.symm (by decide))⟩

end RecordPath

/-- The operand reads the e-mail address under an alias and is guarded there; without an alias it has no guard. -/
def Operand.GuardedBy (o : Operand) : Option String → Prop
  | some row => o.text = row ++ ".email" ∧ o.guard = some (Arrival.emailGuard row)
  | none => o.guard = none

theorem Route.guard_operand (d : Dialect) (table : String) (r : Route) (a : Arrival) :
    (r.operand d table a).guard = a.guard (r.aliasOn .primary) := by
  cases a <;> rfl

theorem Route.operand_email (d : Dialect) (table : String) (r : Route) :
    (r.operand d table (.column "email" true)).GuardedBy (some (r.aliasOn .primary)) := by
  refine ⟨?_, rfl⟩
  show r.aliasOn .primary ++ "." ++ "email" = _
  rw [String.append_assoc]
  rfl

theorem Arrival.guard_eq_none {a : Arrival} (free : ∀ name, a ≠ .column name true) (row : String) :
    a.guard row = none := by
  unfold guard
  split
  · rename_i name
    exact absurd rfl (free name)
  · rfl

namespace RecordScope

/-- A path, without an at sign at its front, to the e-mail address of a record of a collection with authentication, which
stands under the alias `row`. -/
def ReadsEmail (s : RecordScope) (path row : String) : Prop :=
  path.toList.head? ≠ some '@' ∧ ∃ segments c, Text.split '.' path = segments ++ ["email"] ∧ c.isAuth ∧
    Leads s.catalog s.loaded s.base s.table segments c row

def Visit.Unguarded (v : Visit) : Prop := ∀ o, v.outcome = .ok o → o.guard = none

variable {s : RecordScope}

theorem unguarded_error (loaded : List Collection) (cause : PathCause) : (s.stay loaded (.error cause)).Unguarded :=
  fun _ reached => nomatch reached

theorem unguarded_bare {o : Operand} (bare : o.guard = none) (route : Option Route) (loaded : List Collection)
    (counter : Nat) : ({ outcome := .ok o, route, loaded, counter } : Visit).Unguarded := by
  intro o' reached
  cases reached
  exact bare

theorem exists_arrival {loaded : List Collection} {lenient showHidden : Bool} {root : Root} {c : Collection}
    {segments : List String} {o : Operand}
    (reached : (s.follow loaded lenient showHidden root c segments).outcome = .ok o) :
    let walk := Walk.ofSegments (s.rules lenient showHidden) 0 c loaded segments
    ∃ a, walk.outcome = .ok a ∧ o = (Route.mk root walk.hops).operand s.settings.dialect s.table a := by
  intro walk
  rcases ends : walk.outcome with cause | a
  · simp [follow, walk, ends, Except.map] at reached
  · simp only [follow, walk, ends, Except.map, Except.ok.injEq] at reached
    exact ⟨a, rfl, reached.symm⟩

theorem unguarded_follow {showHidden : Bool} (shown : s.settings.allowHiddenFields = true ∨ showHidden = true)
    (loaded : List Collection) (lenient : Bool) (root : Root) (c : Collection) (segments : List String) :
    (s.follow loaded lenient showHidden root c segments).Unguarded := by
  intro o reached
  obtain ⟨a, ends, rfl⟩ := exists_arrival reached
  rw [Route.guard_operand]
  apply Arrival.guard_eq_none
  rintro name rfl
  have hides := (Walk.leads_of_guarded s.table ends).1
  rcases shown with shown | shown <;> simp [rules, shown] at hides

theorem StaticCourse.unguarded {members : List String} {v : Visit} (course : s.StaticCourse members v) :
    v.Unguarded := by
  cases course with
  | empty | misspelled => exact unguarded_error _ _
  | presence | null | value => exact unguarded_bare rfl _ _ _

/-- Only a walk from the base collection hides addresses. -/
theorem Course.unguarded {path : List String} {v : Visit} (course : s.Course path v)
    (shown : s.settings.allowHiddenFields = true ∨ ∃ rest, path = "@request" :: rest ∨ path = "@collection" :: rest) :
    v.Unguarded := by
  cases course with
  | walked enters =>
    apply unguarded_follow
    cases enters with
    | base collection request =>
      refine shown.imp_right ?_
      rintro ⟨rest, same | same⟩
      · exact absurd same (request rest)
      · exact absurd same (collection rest)
    | collection | auth | submitted => exact .inr rfl
  | static given reads course => exact course.unguarded
  | items | count | unrequested | unauthenticated | unsubmitted => exact unguarded_bare rfl _ _ _
  | short | uncollected | misspelled | targetless | untargeted => exact unguarded_error _ _

theorem follow_email (hidden : s.settings.allowHiddenFields = false) {path : String} {o : Operand}
    (plain : path.toList.head? ≠ some '@')
    (reached : (s.follow s.loaded false false (.base s.table) s.base (Text.split '.' path)).outcome = .ok o) :
    ∃ found, (∀ row, s.ReadsEmail path row ↔ found = some row) ∧ o.GuardedBy found := by
  obtain ⟨a, ends, rfl⟩ := exists_arrival reached
  let last := Route.hopAlias s.table (Walk.ofSegments (s.rules false false) 0 s.base s.loaded (Text.split '.' path)).hops
  have hides : (s.rules false false).showHidden = false := by simp [rules, hidden]
  -- A path that reads an address arrives at the guarded column, under the last alias of the walk.
  have arrives (row : String) (reads : s.ReadsEmail path row) : a = .column "email" true ∧ last = row := by
    obtain ⟨-, segments, c, shape, auth, leads⟩ := reads
    simp only [last, shape] at ends ⊢
    exact Walk.column_of_leads rfl hides leads auth ends
  by_cases guarded : ∃ name, a = .column name true
  · obtain ⟨name, rfl⟩ := guarded
    obtain ⟨-, segments, c, shape, auth, leads⟩ := Walk.leads_of_guarded s.table ends
    have reads : s.ReadsEmail path last := ⟨plain, segments, c, shape, auth, leads⟩
    refine ⟨some last, ?_, ?_⟩
    · intro row
      exact ⟨fun reads' => congrArg some (arrives row reads').2, fun same => Option.some.inj same ▸ reads⟩
    · rw [(arrives last reads).1]
      exact Route.operand_email _ _ _
  · refine ⟨none, ?_, ?_⟩
    · intro row
      exact ⟨fun reads => absurd ⟨_, (arrives row reads).1⟩ guarded, nofun⟩
    · rw [Operand.GuardedBy, Route.guard_operand]
      exact Arrival.guard_eq_none (not_exists.mp guarded) _

theorem visit_email (hidden : s.settings.allowHiddenFields = false) {path : String} {o : Operand}
    (reached : (s.visit path).outcome = .ok o) :
    ∃ found, (∀ row, s.ReadsEmail path row ↔ found = some row) ∧ o.GuardedBy found := by
  rcases s.course_visit path with refused | ⟨allowed, course⟩
  · rw [refused] at reached
    cases reached
  · by_cases marked : path.toList.head? = some '@'
    · have elsewhere := RecordPath.split_of_isAllowed allowed marked
      refine ⟨none, ?_, course.unguarded (.inr elsewhere) o reached⟩
      exact fun row => ⟨fun reads => absurd marked reads.1, nofun⟩
    · have unmarked {first : String} (sign : first.toList.head? = some '@') (rest : List String) :
          Text.split '.' path ≠ first :: rest := fun shape => marked (Text.head?_of_split shape sign)
      have base := (Enters.base (s := s) (unmarked (by decide)) (unmarked (by decide))).eq
      rw [visit, if_pos allowed, base] at reached
      exact follow_email hidden marked reached

end RecordScope
end RelationFilter
