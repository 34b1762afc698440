import RelationFilter.Proofs.Path.Depth
import RelationFilter.Proofs.Path.Fault

namespace RelationFilter.RecordScope

def arrive (s : RecordScope) (root : Root) (w : Walk) : Visit :=
  { outcome := w.outcome.map ((Route.mk root w.hops).operand s.settings.dialect s.table)
    route := some ⟨root, w.hops⟩
    loaded := w.loaded
    counter := s.counter }

variable {s : RecordScope} {path : String} {loaded : List Collection} {lenient showHidden : Bool} {root : Root}
  {c c' : Collection} {segments before rest : List String} {hops : List Hop}

theorem enters_of_plain (plain : RecordPath.isPlain path.toList) (shape : Text.split '.' path = segments) :
    s.Enters (Text.split '.' path) s.loaded false false (.base s.table) s.base segments := by
  subst shape
  exact .base (RecordPath.unmarked_of_isPlain plain (by decide)) (RecordPath.unmarked_of_isPlain plain (by decide))

theorem visit_of_enters (allowed : RecordPath.isAllowed path)
    (enters : s.Enters (Text.split '.' path) loaded lenient showHidden root c segments) :
    s.visit path = s.arrive root (Walk.ofSegments (s.rules lenient showHidden) 0 c loaded segments) :=
  visit_of_course allowed (.walked enters)

theorem visit_of_leadsAlong (allowed : RecordPath.isAllowed path)
    (enters : s.Enters (Text.split '.' path) loaded lenient showHidden root c (before ++ rest))
    (along : LeadsAlong s.catalog loaded c before hops c') (more : rest ≠ [])
    (within : before.length ≤ s.settings.maxNestedRelations) :
    s.visit path =
      s.arrive root (.afterAll hops (Walk.ofSegments (s.rules lenient showHidden) before.length c'
        (loadedAlong s.catalog loaded c before) rest)) := by
  have onRules : LeadsAlong (s.rules lenient showHidden).catalog loaded c before hops c' := along
  have limit : 0 + before.length ≤ (s.rules lenient showHidden).maxNested := by
    rw [Nat.zero_add]
    exact within
  rw [visit_of_enters allowed enters, Walk.ofSegments_append onRules more limit, Nat.zero_add]
  rfl

inductive Comes (s : RecordScope) (path : List String) : Visit → Prop where
  | stopped {v : Visit} (unmoved : ∀ r, v.route = some r → r.hops = []) (known : ∀ c ∈ v.loaded, s.Knows c) : Comes s path v
  | walked {loaded : List Collection} {lenient showHidden : Bool} {root : Root} {c : Collection} {segments : List String}
    (enters : s.Enters path loaded lenient showHidden root c segments) :
    Comes s path (s.arrive root (Walk.ofSegments (s.rules lenient showHidden) 0 c loaded segments))

theorem comes_stay {path : List String} (known : ∀ c ∈ loaded, s.Knows c) (outcome : Except PathCause Operand) :
    s.Comes path (s.stay loaded outcome) := .stopped nofun known

theorem StaticCourse.comes {members : List String} {v : Visit} (course : s.StaticCourse members v)
    (path : List String) : s.Comes path v := by
  have unread : ∀ c ∈ s.loaded, s.Knows c := fun _ => .loaded
  cases course with
  | value => exact .stopped nofun unread
  | empty | misspelled | presence | null => exact comes_stay unread _

theorem Course.comes {path : List String} {v : Visit} (course : s.Course path v) : s.Comes path v := by
  have unread : ∀ c ∈ s.loaded, s.Knows c := fun _ => .loaded
  cases course with
  | walked enters => exact .walked enters
  | static given reads course => exact course.comes _
  | items =>
    refine .stopped (fun r route => ?_) unread
    cases route
    rfl
  | uncollected missing => exact comes_stay (knows_of_loadCollection unread missing).2 _
  | untargeted given split field options named missing => exact comes_stay (knows_of_loadCollection unread missing).2 _
  | unsubmitted given split field options named found => exact comes_stay (knows_of_loadCollection unread found).2 _
  | short | unrequested | unauthenticated | misspelled | targetless | count => exact comes_stay unread _

theorem comes_visit (path : String) : s.Comes (Text.split '.' path) (s.visit path) := by
  rcases s.course_visit path with refused | ⟨-, course⟩
  · rw [refused]
    exact comes_stay (fun _ => .loaded) _
  · exact course.comes

theorem knows_of_ofSegment {segment : String} {step : Step} {loaded' : List Collection} (cached : ∀ c ∈ loaded, s.Knows c)
    (came : Step.ofSegment s.catalog loaded c segment = (step, loaded')) : ∀ c ∈ loaded', s.Knows c := by
  obtain rfl : (Step.ofSegment s.catalog loaded c segment).2 = loaded' := congrArg Prod.snd came
  clear came
  unfold Step.ofSegment
  split
  · unfold Step.ofRelation
    split
    · exact cached
    · split
      · exact cached
      · split
        · rename_i found
          exact (knows_of_loadCollection cached found).2
        · rename_i found
          exact (knows_of_loadCollection cached found).2
  · unfold Step.ofBackReference
    split
    · exact cached
    · split
      · rename_i found
        exact (knows_of_loadCollection cached found).2
      · rename_i found
        split
        · exact (knows_of_loadCollection cached found).2
        · exact (knows_of_loadCollection cached found).2

theorem loaded_ofLast (rules : WalkRules) (c : Collection) (loaded : List Collection) (last : String) :
    (Walk.ofLast rules c loaded last).loaded = loaded := by
  unfold Walk.ofLast
  split
  · rfl
  · split
    · rfl
    · split <;> rfl

theorem knows_ofSegments {depth : Nat} (cached : ∀ c ∈ loaded, s.Knows c) :
    ∀ c' ∈ (Walk.ofSegments (s.rules lenient showHidden) depth c loaded segments).loaded, s.Knows c' := by
  fun_induction Walk.ofSegments (s.rules lenient showHidden) depth c loaded segments with
  | case1 => exact cached
  | case2 =>
    rw [loaded_ofLast]
    exact cached
  | case3 => exact cached
  | case4 => exact cached
  | case5 depth c loaded segment next rest _ _ h reached loaded' step ih => exact ih (knows_of_ofSegment cached step)
  | case6 depth c loaded segment next rest _ _ reason loaded' step => exact knows_of_ofSegment cached step
  | case7 depth c loaded segment next rest _ _ reason loaded' step => exact knows_of_ofSegment cached step

theorem elements_of_mem_ofLast {rules : WalkRules} {last : String} {h : Hop}
    (member : h ∈ (Walk.ofLast rules c loaded last).hops) : ∃ field multiple, h = .elements field multiple := by
  unfold Walk.ofLast at member
  split at member
  · cases member
  · split at member
    · cases member
    · split at member
      · cases member
      · unfold Walk.ofField at member
        dsimp only at member
        split at member
        · cases member
        · exact ⟨_, _, List.mem_singleton.mp member⟩
        · cases member

theorem Comes.knows {path : List String} {v : Visit} (comes : s.Comes path v) : ∀ c ∈ v.loaded, s.Knows c := by
  cases comes with
  | stopped _ known => exact known
  | walked enters => exact knows_ofSegments enters.knows.2

/-- Each hop of a walk is to the elements of a field, or one of the segments leads on by it. -/
theorem exists_leadsBy_of_mem {depth : Nat} {h : Hop} (known : s.Knows c) (cached : ∀ c ∈ loaded, s.Knows c)
    (member : h ∈ (Walk.ofSegments (s.rules lenient showHidden) depth c loaded segments).hops) :
    (∃ field multiple, h = .elements field multiple) ∨ ∃ segment ∈ segments, ∃ loaded c next loaded',
      s.Knows c ∧ s.Knows next ∧ LeadsBy s.catalog loaded c segment h next loaded' := by
  fun_induction Walk.ofSegments (s.rules lenient showHidden) depth c loaded segments with
  | case1 => cases member
  | case2 => exact .inl (elements_of_mem_ofLast member)
  | case3 => cases member
  | case4 => cases member
  | case5 depth c loaded segment next rest _ _ first reached loaded' step ih =>
    have link := Step.ofSegment_eq_hop_iff.mp step
    obtain ⟨known', cached'⟩ := knows_of_leadsBy cached link
    rcases List.mem_cons.mp member with rfl | later
    · exact .inr ⟨segment, List.mem_cons_self, loaded, c, reached, loaded', known, known', link⟩
    · rcases ih known' cached' later with elements | ⟨segment', there, leads⟩
      · exact .inl elements
      · exact .inr ⟨segment', List.mem_cons_of_mem _ there, leads⟩
  | case6 => cases member
  | case7 => cases member

end RelationFilter.RecordScope
