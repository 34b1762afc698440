import RelationFilter.Proofs.Path.Entry
import RelationFilter.Proofs.Path.Multiplicity

namespace RelationFilter

namespace Collection

def HasUniqueIndexOn (c : Collection) (column : String) (condition : String → Prop) : Prop :=
  ∃ sql ∈ c.indexes, (Index.parse sql).isValid ∧ (Index.parse sql).unique ∧
    (∃ only, (Index.parse sql).columns = [only] ∧ Text.sameIgnoringCase only.name column) ∧
    condition (Index.parse sql).condition

def HasWholeUniqueIndex (c : Collection) (column : String) : Prop := c.HasUniqueIndexOn column (· = "")

def HasPartialUniqueIndex (c : Collection) (column : String) : Prop := c.HasUniqueIndexOn column (· ≠ "")

theorem hasUniqueIndex_iff {c : Collection} {column : String} :
    c.HasUniqueIndex column ↔ c.HasWholeUniqueIndex column ∨ c.HasPartialUniqueIndex column := by
  constructor
  · rintro ⟨sql, member, valid, unique, only⟩
    rcases em ((Index.parse sql).condition = "") with whole | partly
    · exact .inl ⟨sql, member, valid, unique, only, whole⟩
    · exact .inr ⟨sql, member, valid, unique, only, partly⟩
  · rintro (⟨sql, member, valid, unique, only, -⟩ | ⟨sql, member, valid, unique, only, -⟩)
    · exact ⟨sql, member, valid, unique, only⟩
    · exact ⟨sql, member, valid, unique, only⟩

end Collection

/-- The join of a hop back compares the id of the current record with one column of the other one. -/
def Hop.JoinsPlainly (h : Hop) (segment field table : String) : Prop :=
  ∀ d row, h.joins d row =
    [⟨table, row ++ "_" ++ segment, .text (row ++ "_" ++ segment ++ "." ++ field ++ " = " ++ row ++ ".id")⟩]

theorem Hop.joinsPlainly_iff {segment field table : String} {multiple : Bool} :
    (Hop.referrers segment field table multiple).JoinsPlainly segment field table ↔ multiple = false := by
  cases multiple with
  | false => exact iff_of_true (fun _ _ => rfl) rfl
  | true =>
    refine iff_of_false (fun plain => ?_) (by decide)
    -- On a row without a name the condition of several records begins with a dot, the other one does not.
    have same : (Hop.referrers segment field table true).joins .mysql "" = _ := plain .mysql ""
    simp only [Hop.joins, Hop.referrerCondition, Hop.target, Condition.text, ↓reduceIte, List.cons.injEq, JoinOf.mk.injEq,
      Condition.raw.injEq] at same
    have heads := congrArg (fun text : String => text.toList.head?) same.1.2.2.1
    simp at heads

namespace RecordScope

variable {s : RecordScope} {path segment field table : String} {multiple : Bool} {r : Route}

structure RefersBack (s : RecordScope) (name : String) (c other : Collection) (f : Field) (o : RelationOptions) : Prop where
  known : s.Knows c
  there : s.Knows other
  named : ∃ back, BackReference.parse? name = some back ∧ other.isCalled back.collection ∧ other.field? back.field = some f
  options : f.relation? = some o
  target : o.collectionId = c.id

/-- A hop back leads to one record at most, by a plain join and without a chain, just if the field that refers back holds one
id at most and there is a unique index on it, of all rows or of some. -/
theorem single_iff_of_referrers (walked : (s.visit path).route = some r)
    (member : Hop.referrers segment field table multiple ∈ r.hops) :
    ∃ name ∈ Text.split '.' path, ∃ c other f o, s.RefersBack name c other f o ∧
      segment = identifier name ∧ field = identifier f.name ∧ table = identifier other.name ∧
      (multiple = false ↔
        ¬ o.HoldsSeveral ∧ (other.HasWholeUniqueIndex f.name ∨ other.HasPartialUniqueIndex f.name)) ∧
      (multiple = false ↔ (Hop.referrers segment field table multiple).JoinsPlainly segment field table) ∧
      (multiple = true → ∀ d t a, a ≠ .null → (r.operand d t a).chain.isSome) := by
  have comes := comes_visit (s := s) path
  generalize s.visit path = v at walked comes
  cases comes with
  | stopped unmoved =>
    rw [unmoved r walked] at member
    cases member
  | walked enters =>
    cases walked
    obtain ⟨known, cached⟩ := enters.knows
    rcases exists_leadsBy_of_mem known cached member with ⟨_, _, elements⟩ | ⟨name, named, leads⟩
    · cases elements
    · obtain ⟨loaded, c, next, loaded', known, there, link⟩ := leads
      refine ⟨name, enters.suffix.subset named, ?_⟩
      generalize made : Hop.referrers segment field table multiple = h at link
      cases link with
      | relation => split at made <;> cases made
      | @referrer _ _ back f o free parsed other field options named target =>
        cases made
        refine ⟨c, next, f, o, ⟨known, there, ⟨back, parsed, Catalog.isCalled_of_loadCollection other, field⟩, options, target⟩,
          rfl, rfl, rfl, ?_, Hop.joinsPlainly_iff.symm, ?_⟩
        · rw [Bool.or_eq_false_iff, Bool.not_eq_false', Collection.isUniqueColumn_iff, Collection.hasUniqueIndex_iff,
            Bool.eq_false_iff, ne_eq, RelationOptions.isMultiple_iff]
        · intro several d t a value
          rw [Route.isSome_chain_operand value, Route.isMultiple, Bool.or_eq_true]
          exact .inr (List.any_eq_true.mpr ⟨_, member, several⟩)

/-- Each post has one comment at most. -/
theorem single_iff_of_referrers_comments :
    let s := Blog.commentScope "CREATE UNIQUE INDEX idx ON comments (post)"
    let h : Hop := .referrers "comments_via_post" "post" "comments" false
    (s.visit "comments_via_post.id").route = some ⟨.base "posts", [h]⟩ ∧
      ∃ name ∈ ["comments_via_post", "id"], ∃ c other f o, s.RefersBack name c other f o ∧ ¬ o.HoldsSeveral ∧
        (other.HasWholeUniqueIndex f.name ∨ other.HasPartialUniqueIndex f.name) ∧
        h.JoinsPlainly "comments_via_post" "post" "comments" := by
  intro s h
  have walked : (s.visit "comments_via_post.id").route = some ⟨.base "posts", [h]⟩ := by decide +kernel
  have split : Text.split '.' "comments_via_post.id" = ["comments_via_post", "id"] := by decide
  obtain ⟨name, named, c, other, f, o, refers, -, -, -, single, plain, -⟩ :=
    single_iff_of_referrers walked List.mem_cons_self
  obtain ⟨one, index⟩ := single.mp rfl
  exact ⟨walked, name, split ▸ named, c, other, f, o, refers, one, index, plain.mp rfl⟩

/-- A post that has one comment at most that is not deleted, and any number of comments. -/
theorem single_of_partialUniqueIndex :
    let index := "CREATE UNIQUE INDEX idx ON comments (post) WHERE deleted = 0"
    let s := Blog.commentScope index
    (s.visit "comments_via_post.id").route =
        some ⟨.base "posts", [.referrers "comments_via_post" "post" "comments" false]⟩ ∧
      (∃ o, (resolve "comments_via_post.id" s).1 = .ok o ∧ o.chain = none) ∧
      ¬ (Blog.comments index).HasWholeUniqueIndex "post" := by
  refine ⟨by decide +kernel, ⟨_, rfl, by decide +kernel⟩, ?_⟩
  rintro ⟨sql, member, -, -, -, whole⟩
  rw [List.mem_singleton.mp member] at whole
  revert whole
  decide +kernel

end RecordScope
end RelationFilter
