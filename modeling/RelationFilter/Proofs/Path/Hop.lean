import RelationFilter.Path.Walk

namespace RelationFilter

inductive LeadsBy (cat : Catalog) (loaded : List Collection) (c : Collection) (segment : String) :
    Hop → Collection → List Collection → Prop where
  | relation {next : Collection} {loaded' : List Collection} {f : Field} {o : RelationOptions}
    (field : c.field? segment = some f) (options : f.relation? = some o) (named : o.collectionId ≠ "")
    (target : loadCollection cat loaded o.collectionId = (some next, loaded')) :
    LeadsBy cat loaded c segment
      (if o.isMultiple then .records (identifier f.name) (identifier next.name)
        else .record (identifier f.name) (identifier next.name)) next loaded'
  | referrer {next : Collection} {loaded' : List Collection} {back : BackReference} {f : Field} {o : RelationOptions}
    (free : c.field? segment = none) (parsed : BackReference.parse? segment = some back)
    (other : loadCollection cat loaded back.collection = (some next, loaded'))
    (field : next.field? back.field = some f) (options : f.relation? = some o) (named : o.collectionId ≠ "")
    (target : o.collectionId = c.id) :
    LeadsBy cat loaded c segment
      (.referrers (identifier segment) (identifier f.name) (identifier next.name)
        (o.isMultiple || !next.isUniqueColumn f.name)) next loaded'

namespace Step

variable {cat : Catalog} {loaded loaded' : List Collection} {c next : Collection} {segment : String} {h : Hop}

theorem target?_eq_ok_iff {f : Field} {o : RelationOptions} {id : String} :
    target? f o = .ok id ↔ o.collectionId ≠ "" ∧ o.collectionId = id := by
  unfold target?
  split
  · rename_i unnamed
    simp [unnamed]
  · rename_i named
    simp [named]

theorem target?_eq_error_iff {f : Field} {o : RelationOptions} {cause : PathCause} :
    target? f o = .error cause ↔ o.collectionId = "" ∧ cause = .missingTarget f.name := by
  unfold target?
  split
  · rename_i unnamed
    simp [unnamed, eq_comm]
  · rename_i named
    simp [named]

theorem ofRelation_eq_hop_iff {f : Field} :
    ofRelation cat loaded f segment = (.hop h next, loaded') ↔
      ∃ o, f.relation? = some o ∧ o.collectionId ≠ "" ∧ loadCollection cat loaded o.collectionId = (some next, loaded') ∧
        h = if o.isMultiple then .records (identifier f.name) (identifier next.name)
          else .record (identifier f.name) (identifier next.name) := by
  constructor
  · intro step
    unfold ofRelation at step
    split at step
    · simp at step
    · rename_i o options
      split at step
      · simp at step
      · rename_i id target
        obtain ⟨named, rfl⟩ := target?_eq_ok_iff.mp target
        split at step
        · simp at step
        · rename_i reached loaded'' found
          cases step
          exact ⟨o, options, named, found, rfl⟩
  · rintro ⟨o, options, named, found, rfl⟩
    simp only [ofRelation, options, target?_eq_ok_iff.mpr ⟨named, rfl⟩, found]

theorem ofReferrer_eq_hop_iff {other : Collection} {f : Field} :
    ofReferrer c other f segment = .hop h next ↔
      ∃ o, f.relation? = some o ∧ o.collectionId ≠ "" ∧ o.collectionId = c.id ∧ next = other ∧
        h = .referrers (identifier segment) (identifier f.name) (identifier other.name)
          (o.isMultiple || !other.isUniqueColumn f.name) := by
  constructor
  · intro step
    unfold ofReferrer at step
    split at step
    · simp at step
    · rename_i o options
      split at step
      · simp at step
      · rename_i id target
        obtain ⟨named, rfl⟩ := target?_eq_ok_iff.mp target
        split at step
        · simp at step
        · rename_i own
          cases step
          exact ⟨o, options, named, Decidable.not_not.mp own, rfl, rfl⟩
  · rintro ⟨o, options, named, own, rfl, rfl⟩
    simp only [ofReferrer, options, target?_eq_ok_iff.mpr ⟨named, rfl⟩]
    rw [if_neg (Decidable.not_not.mpr own)]

theorem ofSegment_eq_hop_iff :
    ofSegment cat loaded c segment = (.hop h next, loaded') ↔ LeadsBy cat loaded c segment h next loaded' := by
  constructor
  · intro step
    unfold ofSegment at step
    split at step
    · rename_i f field
      obtain ⟨o, options, named, target, rfl⟩ := ofRelation_eq_hop_iff.mp step
      exact .relation field options named target
    · rename_i free
      unfold ofBackReference at step
      split at step
      · simp at step
      · rename_i back parsed
        split at step
        · simp at step
        · rename_i reached loaded'' other
          split at step
          · simp at step
          · rename_i f field
            simp only [Prod.mk.injEq] at step
            obtain ⟨step, rfl⟩ := step
            obtain ⟨o, options, named, own, rfl, rfl⟩ := ofReferrer_eq_hop_iff.mp step
            exact .referrer free parsed other field options named own
  · rintro (⟨field, options, named, target⟩ | ⟨free, parsed, other, field, options, named, own⟩)
    · simp only [ofSegment, field]
      exact ofRelation_eq_hop_iff.mpr ⟨_, options, named, target, rfl⟩
    · simp only [ofSegment, free, ofBackReference, parsed, other, field]
      rw [ofReferrer_eq_hop_iff.mpr ⟨_, options, named, own, rfl, rfl⟩]

end Step

end RelationFilter
