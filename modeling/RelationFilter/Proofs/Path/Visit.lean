import RelationFilter.Proofs.Path.Course
import RelationFilter.Proofs.Sql.Quoting

namespace RelationFilter

def IsIdentifier (name : String) : Prop := ∀ c ∈ name.toList, isIdentifierChar c = true

instance (name : String) : Decidable (IsIdentifier name) :=
  decidable_of_iff (name.toList.all isIdentifierChar = true) List.all_eq_true

theorem isIdentifier_identifier (name : String) : IsIdentifier (identifier name) := by
  intro c member
  rw [identifier, String.toList_ofList] at member
  exact (List.mem_filter.mp member).2

theorem IsIdentifier.append {a b : String} (ha : IsIdentifier a) (hb : IsIdentifier b) : IsIdentifier (a ++ b) := by
  intro c member
  rw [String.toList_append] at member
  rcases List.mem_append.mp member with member | member
  · exact ha c member
  · exact hb c member

theorem IsIdentifier.not_mem {name : String} (h : IsIdentifier name) {c : Char} (other : isIdentifierChar c = false) :
    c ∉ name.toList := by
  intro member
  rw [h c member] at other
  cases other

theorem IsIdentifier.plain {name : String} (h : IsIdentifier name) : Plain name := h.not_mem (by decide)

def Root.Clean : Root → Prop
  | .base table => IsIdentifier table
  | .collection table aliasName => IsIdentifier table ∧ IsIdentifier aliasName
  | .auth table _ => IsIdentifier table
  | .submitted _ _ ids _ => ids ≠ []
  | .submittedItems field placeholder _ _ => IsIdentifier field ∧ ∃ n, placeholder = numbered "dataEach" n

def Hop.Clean : Hop → Prop
  | .record field table => IsIdentifier field ∧ IsIdentifier table
  | .records field table => IsIdentifier field ∧ IsIdentifier table
  | .referrers segment field table _ => IsIdentifier segment ∧ segment ≠ "id" ∧ IsIdentifier field ∧ IsIdentifier table
  | .elements field _ => IsIdentifier field

structure Route.Clean (r : Route) : Prop where
  root : r.root.Clean
  hops : ∀ h ∈ r.hops, h.Clean

def Arrival.Clean : Arrival → Prop
  | .null => True
  | .column name _ => IsIdentifier name
  | .json field path => IsIdentifier field ∧ Plain path
  | .count field => IsIdentifier field
  | .element => True

theorem Root.isIdentifier_aliasOn {r : Root} (clean : r.Clean) (side : Side) : IsIdentifier (r.aliasOn side) := by
  cases r with
  | base table =>
    cases side with
    | primary => exact clean
    | copy => exact IsIdentifier.append (by decide) clean
  | collection table aliasName =>
    cases side with
    | primary => exact clean.2
    | copy => exact IsIdentifier.append (by decide) clean.2
  | auth table id => cases side <;> exact IsIdentifier.append (by decide) clean
  | submitted source field ids multiple => cases side <;> exact isIdentifier_identifier _
  | submittedItems field placeholder items multiple =>
    cases side <;> exact (IsIdentifier.append (by decide) clean.1).append (by decide)

theorem isIdentifier_glued {row field : String} (hr : IsIdentifier row) (hf : IsIdentifier field) :
    IsIdentifier (row ++ "_" ++ field) := (hr.append (by decide)).append hf

theorem isIdentifier_column {row field : String} (hr : IsIdentifier row) (hf : IsIdentifier field) :
    IsIdentifier (row ++ "." ++ field) := (hr.append (by decide)).append hf

theorem isIdentifier_elementAlias {row field : String} (hr : IsIdentifier row) (hf : IsIdentifier field) :
    IsIdentifier (Hop.elementAlias row field) := (isIdentifier_glued hr hf).append (by decide)

theorem Hop.isIdentifier_target {h : Hop} {row : String} (clean : h.Clean) (hr : IsIdentifier row) :
    IsIdentifier (h.target row) := by
  cases h with
  | record field table => exact isIdentifier_glued hr clean.1
  | records field table => exact isIdentifier_glued hr clean.1
  | referrers segment field table multiple => exact isIdentifier_glued hr clean.1
  | elements field multiple => exact isIdentifier_elementAlias hr clean

theorem isIdentifier_hopAlias {hops : List Hop} {row : String} (clean : ∀ h ∈ hops, h.Clean) (hr : IsIdentifier row) :
    IsIdentifier (Route.hopAlias row hops) := by
  induction hops generalizing row with
  | nil => exact hr
  | cons h rest ih =>
    exact ih (fun h member => clean h (List.mem_cons_of_mem _ member))
      (Hop.isIdentifier_target (clean h List.mem_cons_self) hr)

theorem identifier_of_word {name : String} (word : name.toList.all Text.isWord) : identifier name = name := by
  have kept : name.toList.filter isIdentifierChar = name.toList := by
    rw [List.filter_eq_self]
    intro c member
    simp [isIdentifierChar, List.all_eq_true.mp word c member]
  rw [identifier, kept, String.ofList_toList]

theorem BackReference.ne_id {segment : String} (parsed : (parse? segment).isSome) : identifier segment ≠ "id" := by
  intro same
  have word : segment.toList.all Text.isWord := by
    rcases all : segment.toList.all Text.isWord with _ | _
    · simp [parse?, all] at parsed
    · rfl
  rw [identifier_of_word word] at same
  rw [same] at parsed
  revert parsed
  decide

theorem LeadsBy.clean {cat : Catalog} {loaded loaded' : List Collection} {c next : Collection} {segment : String} {h : Hop}
    (link : LeadsBy cat loaded c segment h next loaded') : h.Clean := by
  cases link with
  | relation => split <;> exact ⟨isIdentifier_identifier _, isIdentifier_identifier _⟩
  | referrer free parsed =>
    exact ⟨isIdentifier_identifier _, BackReference.ne_id (Option.isSome_of_eq_some parsed), isIdentifier_identifier _,
      isIdentifier_identifier _⟩

namespace JsonPath

theorem digit_or_sign_of_int64? {cs : List Char} (h : (Decimal.int64? cs).isSome) {c : Char} (member : c ∈ cs) :
    c.isDigit = true ∨ c = '-' ∨ c = '+' := by
  have digits : ∀ rest, Decimal.allDigits rest → c ∈ rest → c.isDigit = true := by
    intro rest all member
    simp only [Decimal.allDigits, Bool.and_eq_true, List.all_eq_true] at all
    exact all.1 c member
  have signed : Decimal.allDigits (Decimal.takeSign cs).2 := by
    rcases all : Decimal.allDigits (Decimal.takeSign cs).2 with _ | _
    · simp [Decimal.int64?, all] at h
    · rfl
  unfold Decimal.takeSign at signed
  split at signed
  · rcases List.mem_cons.mp member with minus | member
    · exact .inr (.inl minus)
    · exact .inl (digits _ signed member)
  · rcases List.mem_cons.mp member with plus | member
    · exact .inr (.inr plus)
    · exact .inl (digits _ signed member)
  · exact .inl (digits _ signed member)

theorem colon_not_mem_step (segment : String) : ':' ∉ step segment := by
  unfold step
  split
  · rename_i integer
    have inside : ':' ∉ segment.toList := fun member => absurd (digit_or_sign_of_int64? integer member) (by decide)
    simpa using inside
  · intro member
    rcases List.mem_cons.mp member with same | member
    · exact absurd same (by decide)
    · exact (isIdentifier_identifier segment).plain member

theorem plain_ofSegments (segments : List String) : Plain (ofSegments segments) := by
  have whole : ':' ∉ segments.flatMap step := by
    intro member
    obtain ⟨segment, -, inStep⟩ := List.mem_flatMap.mp member
    exact colon_not_mem_step segment inStep
  rw [Plain, ofSegments, String.toList_ofList]
  unfold dropDot
  split
  · rename_i rest shape
    rw [shape] at whole
    exact fun member => whole (List.mem_cons_of_mem _ member)
  · exact whole

end JsonPath

namespace Walk

structure Clean (w : Walk) : Prop where
  hops : ∀ h ∈ w.hops, h.Clean
  arrival : ∀ a, w.outcome = .ok a → a.Clean

theorem clean_of_error (loaded : List Collection) (cause : PathCause) : Clean ⟨[], loaded, .error cause⟩ :=
  ⟨by simp, by simp⟩

theorem clean_of_missing (rules : WalkRules) (loaded : List Collection) (cause : PathCause) :
    Clean ⟨[], loaded, missing rules cause⟩ := by
  refine ⟨by simp, ?_⟩
  intro a reached
  unfold missing at reached
  split at reached
  · cases reached
    trivial
  · cases reached

theorem ofField_clean (f : Field) (modifier : Option Modifier) :
    (∀ h ∈ (ofField f modifier).1, h.Clean) ∧ (ofField f modifier).2.Clean := by
  unfold ofField
  split
  · exact ⟨by simp, isIdentifier_identifier _⟩
  · refine ⟨?_, trivial⟩
    intro h member
    rw [List.mem_singleton.mp member]
    exact isIdentifier_identifier _
  · refine ⟨by simp, ?_⟩
    split
    · exact ⟨isIdentifier_identifier _, by decide⟩
    · exact isIdentifier_identifier _

theorem ofLast_clean (rules : WalkRules) (c : Collection) (loaded : List Collection) (segment : String) :
    (ofLast rules c loaded segment).Clean := by
  unfold ofLast
  split
  · refine ⟨by simp, ?_⟩
    intro a reached
    cases reached
    exact isIdentifier_identifier _
  · split
    · exact clean_of_error _ _
    · split
      · exact clean_of_missing _ _ _
      · rename_i f _
        refine ⟨(ofField_clean f _).1, ?_⟩
        intro a reached
        cases reached
        exact (ofField_clean f _).2

theorem after_clean {w : Walk} {h : Hop} (hop : h.Clean) (rest : w.Clean) : (after h w).Clean := by
  refine ⟨?_, rest.arrival⟩
  intro h' member
  rcases List.mem_cons.mp member with rfl | member
  · exact hop
  · exact rest.hops h' member

theorem ofSegments_clean (rules : WalkRules) (depth : Nat) (c : Collection) (loaded : List Collection)
    (segments : List String) : (ofSegments rules depth c loaded segments).Clean := by
  fun_induction ofSegments rules depth c loaded segments with
  | case1 => exact clean_of_error _ _
  | case2 => exact ofLast_clean _ _ _ _
  | case3 =>
    refine ⟨by simp, ?_⟩
    intro a reached
    cases reached
    exact ⟨isIdentifier_identifier _, JsonPath.plain_ofSegments _⟩
  | case4 => exact clean_of_error _ _
  | case5 depth c loaded segment next rest _ _ h reached loaded' step ih =>
    exact after_clean ((Step.ofSegment_eq_hop_iff.mp step).clean) ih
  | case6 => exact clean_of_missing _ _ _
  | case7 => exact clean_of_error _ _

end Walk

theorem plain_toString (n : Nat) : Plain (toString n) := by
  intro member
  rw [Nat.toString_eq_repr, Nat.toList_repr] at member
  exact absurd (Nat.isDigit_of_mem_toDigits (by decide) (by decide) member) (by decide)

namespace RecordScope

inductive Visits (s : RecordScope) : Visit → Prop where
  | stayed (loaded : List Collection) (outcome : Except PathCause Operand)
      (plain : ∀ o, outcome = .ok o → ∃ text, o = { text := text } ∧ Plain text) :
      Visits s (s.stay loaded outcome)
  | bound (value : Json) :
      Visits s
        { outcome := .ok (.bound (numbered "t" s.counter) value), loaded := s.loaded, counter := s.counter + 1 }
  | walked (r : Route) (arrival : Except PathCause Arrival) (loaded : List Collection) (clean : r.Clean)
      (end_clean : ∀ a, arrival = .ok a → a.Clean) (unbound : ∀ side, r.root.bindings side = Bindings.empty)
      (based : ∀ table, r.root = .base table → table = s.table) :
      Visits s
        { outcome := arrival.map (r.operand s.settings.dialect s.table)
          route := some r
          loaded := loaded
          counter := s.counter }
  | items (field items : String) (multiple : Bool) (clean : IsIdentifier field) :
      Visits s
        { outcome := .ok ((Route.mk (.submittedItems field (numbered "dataEach" s.counter) items multiple) []).operand
            s.settings.dialect s.table .element)
          route := some ⟨.submittedItems field (numbered "dataEach" s.counter) items multiple, []⟩
          loaded := s.loaded
          counter := s.counter + 1 }

variable {s : RecordScope}

theorem Visits.error (loaded : List Collection) (cause : PathCause) : s.Visits (s.stay loaded (.error cause)) :=
  .stayed loaded _ fun _ h => nomatch h

theorem Visits.ok (loaded : List Collection) (text : String) (plain : Plain text) :
    s.Visits (s.stay loaded (.ok { text := text })) :=
  .stayed loaded _ fun _ h => ⟨text, (Except.ok.inj h).symm, plain⟩

theorem Visits.null (loaded : List Collection) : s.Visits (s.stay loaded (.ok .null)) := .ok loaded "NULL" (by decide)

theorem Enters.unbound {path segments : List String} {loaded : List Collection} {lenient showHidden : Bool} {root : Root}
    {c : Collection} (enters : s.Enters path loaded lenient showHidden root c segments) (side : Side) :
    root.bindings side = Bindings.empty := by
  cases enters <;> rfl

theorem Enters.visits {path segments : List String} {loaded : List Collection} {lenient showHidden : Bool} {root : Root}
    {c : Collection} (enters : s.Enters path loaded lenient showHidden root c segments) :
    s.Visits (s.follow loaded lenient showHidden root c segments) := by
  have walk := Walk.ofSegments_clean (s.rules lenient showHidden) 0 c loaded segments
  have clean : root.Clean := by
    cases enters with
    | base => exact isIdentifier_identifier _
    | collection => exact ⟨isIdentifier_identifier _, isIdentifier_identifier _⟩
    | auth => exact isIdentifier_identifier _
    | submitted given split field options named found ids => exact ids
  have based : ∀ table, root = .base table → table = s.table := by
    rintro table rfl
    cases enters
    rfl
  exact .walked ⟨root, _⟩ _ _ ⟨clean, walk.hops⟩ walk.arrival enters.unbound based

theorem StaticCourse.visits {members : List String} {v : Visit} (course : s.StaticCourse members v) : s.Visits v := by
  cases course with
  | empty => exact .error _ _
  | misspelled => exact .error _ _
  | presence => exact .ok _ _ (by split <;> decide)
  | null => exact .null _
  | value => exact .bound _

theorem Course.visits {path : List String} {v : Visit} (course : s.Course path v) : s.Visits v := by
  cases course with
  | walked enters => exact enters.visits
  | static given reads course => exact course.visits
  | items => exact .items _ _ _ (isIdentifier_identifier _)
  | count => exact .ok _ _ (plain_toString _)
  | unrequested | unauthenticated | unsubmitted => exact .null _
  | short | uncollected | misspelled | targetless | untargeted => exact .error _ _

theorem resolve_of_error {path : String} {cause : PathCause} (h : (s.visit path).outcome = .error cause) :
    resolve path s = (.error ⟨path, cause⟩, s.after (s.visit path)) := by
  rw [resolve, h]
  rfl

theorem resolve_of_ok {path : String} {o : Operand} (h : (s.visit path).outcome = .ok o) :
    resolve path s = (.ok o, s.after (s.visit path)) := by
  rw [resolve, h]
  rfl

theorem outcome_of_resolve {path : String} {o : Operand} (h : (resolve path s).1 = .ok o) :
    (s.visit path).outcome = .ok o := by
  rcases outcome : (s.visit path).outcome with cause | o'
  · simp [resolve_of_error outcome] at h
  · simpa [resolve_of_ok outcome] using h

theorem visits (path : String) : s.Visits (s.visit path) := by
  rcases s.course_visit path with refused | ⟨-, course⟩
  · rw [refused]
    exact .error _ _
  · exact course.visits

theorem Visits.route {v : Visit} (seen : s.Visits v) {r : Route} (h : v.route = some r) :
    r.Clean ∧ ∀ table, r.root = .base table → table = s.table := by
  cases seen with
  | stayed => cases h
  | bound => cases h
  | walked r' arrival loaded clean end_clean unbound based =>
    cases h
    exact ⟨clean, based⟩
  | items field items multiple clean =>
    cases h
    exact ⟨⟨⟨clean, _, rfl⟩, by simp⟩, nofun⟩

end RecordScope
end RelationFilter
