import RelationFilter.Proofs.Filter.Guard
import RelationFilter.Proofs.Filter.Sorting

namespace RelationFilter

namespace RecordScope

variable {s : RecordScope} {path : String} {o : Operand}

theorem unguarded_of_shown (shown : s.settings.allowHiddenFields = true) (path : String) : (s.visit path).Unguarded := by
  rcases s.course_visit path with refused | ⟨-, course⟩
  · rw [refused]
    exact unguarded_error _ _
  · exact course.unguarded (.inl shown)

theorem unbound_of_guarded (reached : (s.visit path).outcome = .ok o) (guarded : o.guard.isSome) :
    o.bindings = .empty := by
  have seen := s.visits path
  generalize s.visit path = v at reached seen
  cases seen with
  | stayed loaded outcome plain =>
    obtain ⟨text, rfl, -⟩ := plain o reached
    rfl
  | bound value =>
    cases reached
    cases guarded
  | walked r arrival loaded clean end_clean own based =>
    rcases arrival with cause | a
    · cases reached
    · cases reached
      exact Route.bindings_operand_of_unbound _ _ (own .primary) a
  | items field items multiple clean =>
    cases reached
    cases guarded

theorem isSome_guard_iff (reached : (s.visit path).outcome = .ok o) :
    o.guard.isSome ↔ s.settings.allowHiddenFields = false ∧ ∃ row, s.ReadsEmail path row := by
  rcases shown : s.settings.allowHiddenFields with _ | _
  · obtain ⟨found, reads, guarded⟩ := visit_email shown reached
    simp only [reads, true_and]
    cases found with
    | none =>
      have free : o.guard = none := guarded
      simp [free]
    | some row => simp [guarded.2]
  · have free := unguarded_of_shown shown path o reached
    simp [free]

end RecordScope

namespace SortField

def SortsByGuarded {σ : Type} [Resolver σ] (f : SortField) (s : σ) : Prop :=
  f.name ≠ "@random" ∧
    ∃ o term, (Resolver.resolve f.name s).1 = .ok o ∧ (f.term s).1 = .ok term ∧ o.guard.isSome

theorem sortsByGuarded_iff_sortable {σ : Type} [Resolver σ] (f : SortField) (s : σ) :
    f.SortsByGuarded s ↔
      f.name ≠ "@random" ∧ ∃ o, (Resolver.resolve f.name s).1 = .ok o ∧ isSortable o = true ∧ o.guard.isSome := by
  refine and_congr_right fun named => ?_
  constructor
  · rintro ⟨o, text, resolved, accepted, guarded⟩
    refine ⟨o, resolved, ?_, guarded⟩
    by_contra refused
    rw [term_of_ok named resolved, if_neg refused] at accepted
    cases accepted
  · rintro ⟨o, resolved, sortable, guarded⟩
    exact ⟨o, _, resolved, by rw [term_of_ok named resolved, if_pos sortable], guarded⟩

variable {s : RecordScope} {f : SortField} {o : Operand}

theorem term_of_readsEmail (hidden : s.settings.allowHiddenFields = false)
    (resolved : (RecordScope.resolve f.name s).1 = .ok o) {row : String} (reads : s.ReadsEmail f.name row) :
    o.GuardedBy (some row) ∧ (f.term s).1 = .ok (row ++ ".email " ++ f.direction.keyword) ∧
      Sql.orderColumn s.settings.dialect (row ++ ".email " ++ f.direction.keyword) =
        s.settings.dialect.quoteColumn (row ++ ".email") ++ " " ++ f.direction.keyword := by
  have reached := RecordScope.outcome_of_resolve resolved
  obtain ⟨found, same, guarded⟩ := RecordScope.visit_email hidden reached
  rw [(same row).mp reads] at guarded
  have unbound := RecordScope.unbound_of_guarded reached (by rw [guarded.2]; rfl)
  have value : o.text ≠ "NULL" := by
    intro null
    have dot : '.' ∈ "NULL".toList := by
      rw [← null, guarded.1]
      simp
    exact absurd dot (by decide)
  obtain ⟨sortable, source, -⟩ := accepted_of_visit reached unbound value
  have text : row ++ ".email " ++ f.direction.keyword = o.text ++ " " ++ f.direction.keyword := by
    rw [guarded.1, ← String.toList_inj]
    simp
  refine ⟨guarded, ?_, ?_⟩
  · rw [term_of_ok (t := s) (ne_random_of_resolve resolved) resolved, if_pos sortable, text]
  · rw [text, Sql.orderColumn_spaced _ source, guarded.1]

/-- For all resolvers, a guard makes no difference to what is a term of the order. In the scope of a collection, a guarded
operand is one just where hidden fields are not shown and a path that is resolved reads the address of a record. The term is
the bare column then, and the statement is not filtered by whether the record shows it. -/
theorem sortsByGuarded_iff (f : SortField) :
    (∀ {σ : Type} [Resolver σ] (s : σ), f.SortsByGuarded s ↔
      f.name ≠ "@random" ∧ ∃ o, (Resolver.resolve f.name s).1 = .ok o ∧ isSortable o = true ∧ o.guard.isSome) ∧
    ∀ s : RecordScope,
      (f.SortsByGuarded s ↔ s.settings.allowHiddenFields = false ∧
        ∃ row o, s.ReadsEmail f.name row ∧ (RecordScope.resolve f.name s).1 = .ok o) ∧
      ∀ row o, s.settings.allowHiddenFields = false → s.ReadsEmail f.name row →
        (RecordScope.resolve f.name s).1 = .ok o →
        o.GuardedBy (some row) ∧
          (∀ q : Select, (Search.applySort [f] q s).1 =
            .ok { q with order := q.order ++ [row ++ ".email " ++ f.direction.keyword] }) ∧
          Sql.orderColumn s.settings.dialect (row ++ ".email " ++ f.direction.keyword) =
            s.settings.dialect.quoteColumn (row ++ ".email") ++ " " ++ f.direction.keyword := by
  refine ⟨sortsByGuarded_iff_sortable f, fun s => ⟨?_, ?_⟩⟩
  · constructor
    · rintro ⟨-, o, text, resolved, -, guarded⟩
      have reached := RecordScope.outcome_of_resolve resolved
      obtain ⟨hidden, row, reads⟩ := (RecordScope.isSome_guard_iff reached).mp guarded
      exact ⟨hidden, row, o, reads, resolved⟩
    · rintro ⟨hidden, row, o, reads, resolved⟩
      obtain ⟨guarded, term, -⟩ := term_of_readsEmail hidden resolved reads
      exact ⟨ne_random_of_resolve resolved, o, _, resolved, term, by rw [guarded.2]; rfl⟩
  · intro row o hidden reads resolved
    obtain ⟨guarded, term, column⟩ := term_of_readsEmail hidden resolved reads
    refine ⟨guarded, fun q => ?_, column⟩
    rcases outcome : f.term s with ⟨e | text, t⟩
    · simp [outcome] at term
    · obtain rfl : text = _ := by simpa [outcome] using term
      simp [Search.applySort, outcome]

theorem sortsByGuarded_iff_clubMembers :
    Filter.clubScope.settings.allowHiddenFields = false ∧ Filter.clubScope.ReadsEmail "members.email" "clubs_members" ∧
      (Search.applySort [⟨"members.email", .ascending⟩] { dialect := .mysql, tables := ["clubs"] } Filter.clubScope).1 =
        .ok { dialect := .mysql, tables := ["clubs"], order := ["clubs_members.email ASC"] } ∧
      Sql.orderColumn .mysql "clubs_members.email ASC" = "`clubs_members`.`email` ASC" := by
  have reads : Filter.clubScope.ReadsEmail "members.email" "clubs_members" :=
    ⟨by decide, ["members"], Filter.members, by decide, rfl, .step (.relation rfl rfl rfl) (.here ..)⟩
  obtain ⟨o, resolved⟩ : ∃ o, (RecordScope.resolve "members.email" Filter.clubScope).1 = .ok o := ⟨_, rfl⟩
  obtain ⟨-, sorted, column⟩ :=
    ((sortsByGuarded_iff ⟨"members.email", .ascending⟩).2 Filter.clubScope).2 "clubs_members" o rfl reads resolved
  exact ⟨rfl, reads, sorted { dialect := .mysql, tables := ["clubs"] }, column⟩

theorem sortsByGuarded_members :
    Filter.clubScope.settings.allowHiddenFields = false ∧
      SortsByGuarded ⟨"members.email", .ascending⟩ Filter.clubScope ∧
      (term ⟨"members.email", .ascending⟩ Filter.clubScope).1 = .ok "clubs_members.email ASC" :=
  ⟨rfl, ⟨by decide, _, _, rfl, rfl, rfl⟩, rfl⟩

end SortField

end RelationFilter
