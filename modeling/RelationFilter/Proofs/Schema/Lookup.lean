import Mathlib.Data.List.Pairwise
import RelationFilter.Path.Walk

namespace RelationFilter

theorem Text.sameIgnoringCase_iff {s t : String} :
    sameIgnoringCase s t = true ↔ s.toList.map Char.toLower = t.toList.map Char.toLower := by
  simp [sameIgnoringCase]

namespace Catalog

def Apart (c c' : Collection) : Prop := c.id ≠ c'.id ∧ Text.sameIgnoringCase c.name c'.name = false

theorem Apart.symm {c c' : Collection} (h : Apart c c') : Apart c' c := by
  refine ⟨h.1.symm, ?_⟩
  have other := h.2
  rw [Bool.eq_false_iff, ne_eq, Text.sameIgnoringCase_iff] at other ⊢
  exact fun same => other same.symm

instance : Std.Symm Apart := ⟨fun _ _ => Apart.symm⟩

def Keyed (cat : Catalog) : Prop := cat.collections.Pairwise Apart

/-- The catalogs that saving and deleting make of the empty one. -/
inductive Built : Catalog → Prop
  | empty : Built empty
  | save {cat : Catalog} (c : Collection) (built : Built cat) : Built (cat.save c)
  | delete {cat : Catalog} (nameOrId : String) (built : Built cat) : Built (cat.delete nameOrId)

theorem mem_put {new c : Collection} {cs : List Collection} (h : c ∈ put new cs) : c = new ∨ c ∈ cs := by
  induction cs with
  | nil => simpa [put] using h
  | cons first rest ih =>
    unfold put at h
    split at h
    · rcases List.mem_cons.mp h with rfl | later
      · exact .inl rfl
      · exact .inr (List.mem_cons_of_mem _ later)
    · rcases List.mem_cons.mp h with rfl | later
      · exact .inr List.mem_cons_self
      · exact (ih later).imp_right (List.mem_cons_of_mem _)

theorem put_apart {new : Collection} {cs : List Collection} (apart : cs.Pairwise Apart)
    (fresh : ∀ c ∈ cs, c.id ≠ new.id → Apart c new) : (put new cs).Pairwise Apart := by
  induction cs with
  | nil => exact List.pairwise_singleton _ _
  | cons c rest ih =>
    obtain ⟨first, later⟩ := List.pairwise_cons.mp apart
    unfold put
    split
    · rename_i same
      refine List.pairwise_cons.mpr ⟨fun c' member => ?_, later⟩
      have other : c'.id ≠ new.id := fun same' => (first c' member).1 (same.trans same'.symm)
      exact (fresh c' (List.mem_cons_of_mem _ member) other).symm
    · rename_i other
      refine List.pairwise_cons.mpr ⟨fun c' member => ?_, ih later fun c' h => fresh c' (List.mem_cons_of_mem _ h)⟩
      rcases mem_put member with rfl | there
      · exact fresh c List.mem_cons_self other
      · exact first c' there

/-- At most one collection has the name of the new one, so none has it after the first one gave way. -/
theorem not_stale_of_mem {new : Collection} {cs : List Collection} (apart : cs.Pairwise Apart) {c : Collection}
    (h : c ∈ cs.eraseP (isStale new)) : isStale new c = false := by
  induction cs with
  | nil => cases h
  | cons first rest ih =>
    obtain ⟨others, later⟩ := List.pairwise_cons.mp apart
    by_cases stale : isStale new first = true
    · rw [List.eraseP_cons_of_pos stale] at h
      rw [Bool.eq_false_iff]
      intro stale'
      have names := (others c h).2
      simp only [isStale, Bool.and_eq_true, Text.sameIgnoringCase_iff] at stale stale'
      rw [Bool.eq_false_iff, ne_eq, Text.sameIgnoringCase_iff] at names
      exact names (stale.2.trans stale'.2.symm)
    · rw [List.eraseP_cons_of_neg stale] at h
      rcases List.mem_cons.mp h with rfl | member
      · simpa using stale
      · exact ih later member

theorem Keyed.save {cat : Catalog} (keyed : cat.Keyed) (c : Collection) : (cat.save c).Keyed := by
  refine put_apart (keyed.sublist List.eraseP_sublist) ?_
  intro c' member other
  have kept := not_stale_of_mem keyed member
  exact ⟨other, by simpa [isStale, other] using kept⟩

theorem Keyed.delete {cat : Catalog} (keyed : cat.Keyed) (nameOrId : String) : (cat.delete nameOrId).Keyed := by
  unfold Catalog.delete
  split
  · exact keyed.sublist List.eraseP_sublist
  · exact keyed

theorem Built.keyed {cat : Catalog} (built : cat.Built) : cat.Keyed := by
  induction built with
  | empty => exact .nil
  | save c _ ih => exact ih.save c
  | delete nameOrId _ ih => exact ih.delete nameOrId

/-- No collection has the id of another one for its name. -/
def Unambiguous (cat : Catalog) : Prop :=
  ∀ c ∈ cat.collections, ∀ c' ∈ cat.collections, c ≠ c' → Text.sameIgnoringCase c.name c'.id = false

instance (cat : Catalog) : Decidable cat.Unambiguous :=
  inferInstanceAs (Decidable (∀ c ∈ cat.collections, ∀ c' ∈ cat.collections, c ≠ c' → _ = false))

theorem Keyed.eq {cat : Catalog} (keyed : cat.Keyed) {c c' : Collection} (member : c ∈ cat.collections)
    (member' : c' ∈ cat.collections) (same : c.id = c'.id ∨ Text.sameIgnoringCase c.name c'.name = true) : c = c' := by
  by_contra other
  have apart : Apart c c' := keyed.forall member member' other
  rcases same with ids | names
  · exact apart.1 ids
  · rw [apart.2] at names
    cases names

theorem get?_eq_of_isCalled {cat : Catalog} (keyed : cat.Keyed) (unambiguous : cat.Unambiguous) {c : Collection}
    (member : c ∈ cat.collections) {nameOrId : String} (called : c.isCalled nameOrId = true) :
    cat.get? nameOrId = some c := by
  simp only [Collection.isCalled, Bool.or_eq_true, decide_eq_true_eq] at called
  unfold get?
  cases byId : cat.collections.find? fun c => c.id = nameOrId with
  | some c' =>
    have id : c'.id = nameOrId := by simpa using List.find?_some byId
    have member' := List.mem_of_find?_eq_some byId
    have same : c = c' := by
      rcases called with own | named
      · exact keyed.eq member member' (.inl (own.trans id.symm))
      · by_contra other
        have apart := unambiguous c member c' member' other
        rw [id, named] at apart
        cases apart
    rw [same]
    rfl
  | none =>
    have other : c.id ≠ nameOrId := by simpa using List.find?_eq_none.mp byId c member
    have named := called.resolve_left other
    cases byName : cat.collections.find? fun c => Text.sameIgnoringCase c.name nameOrId with
    | none => simpa [named] using List.find?_eq_none.mp byName c member
    | some c' =>
      have named' := List.find?_some byName
      rw [Text.sameIgnoringCase_iff] at named named'
      have same : c = c' :=
        keyed.eq member (List.mem_of_find?_eq_some byName) (.inr (Text.sameIgnoringCase_iff.mpr (named.trans named'.symm)))
      rw [same]
      rfl

theorem Keyed.get?_id {cat : Catalog} (keyed : cat.Keyed) {c : Collection} (member : c ∈ cat.collections) :
    cat.get? c.id = some c := by
  unfold get?
  cases byId : cat.collections.find? fun c' => c'.id = c.id with
  | none => simpa using List.find?_eq_none.mp byId c member
  | some c' =>
    have same : c'.id = c.id := by simpa using List.find?_some byId
    rw [keyed.eq (List.mem_of_find?_eq_some byId) member (.inl same)]
    rfl

theorem mem_of_get? {cat : Catalog} {nameOrId : String} {c : Collection} (h : cat.get? nameOrId = some c) :
    c ∈ cat.collections := by
  rcases Option.or_eq_some_iff.mp h with byId | ⟨-, byName⟩
  · exact List.mem_of_find?_eq_some byId
  · exact List.mem_of_find?_eq_some byName

/-- Where only collections of the catalog were loaded, a collection is the one that the catalog itself gives. -/
theorem loadCollection_eq {cat : Catalog} (keyed : cat.Keyed) (unambiguous : cat.Unambiguous) (nameOrId : String)
    {loaded : List Collection} (own : loaded ⊆ cat.collections) :
    ∃ loaded', loaded' ⊆ cat.collections ∧ loadCollection cat loaded nameOrId = (cat.get? nameOrId, loaded') := by
  unfold loadCollection
  split
  · rename_i c found
    have called : c.isCalled nameOrId = true := by simpa using List.find?_some found
    rw [get?_eq_of_isCalled keyed unambiguous (own (List.mem_of_find?_eq_some found)) called]
    exact ⟨loaded, own, rfl⟩
  · cases there : cat.get? nameOrId with
    | some c => exact ⟨loaded ++ [c], List.append_subset.mpr ⟨own, by simp [mem_of_get? there]⟩, rfl⟩
    | none => exact ⟨loaded, own, rfl⟩

theorem isCalled_of_loadCollection {cat : Catalog} {loaded loaded' : List Collection} {nameOrId : String} {c : Collection}
    (load : loadCollection cat loaded nameOrId = (some c, loaded')) : c.isCalled nameOrId = true := by
  unfold loadCollection at load
  split at load
  · rename_i found
    cases load
    simpa using List.find?_some found
  · split at load
    · rename_i found
      cases load
      rw [Collection.isCalled, Bool.or_eq_true]
      rcases Option.or_eq_some_iff.mp found with byId | ⟨-, byName⟩
      · exact .inl (by simpa using List.find?_some byId)
      · exact .inr (by simpa using List.find?_some byName)
    · cases load

theorem mem_of_loadCollection {cat : Catalog} {loaded loaded' : List Collection} (own : loaded ⊆ cat.collections)
    {nameOrId : String} {c : Collection} (load : loadCollection cat loaded nameOrId = (some c, loaded')) :
    c ∈ cat.collections := by
  unfold loadCollection at load
  split at load
  · rename_i found
    cases load
    exact own (List.mem_of_find?_eq_some found)
  · split at load
    · rename_i found
      cases load
      exact mem_of_get? found
    · cases load

theorem rememberCollection_subset {cat : Catalog} {loaded : List Collection} (own : loaded ⊆ cat.collections)
    {c : Collection} (member : c ∈ cat.collections) : rememberCollection loaded c ⊆ cat.collections := by
  unfold rememberCollection
  split
  · exact own
  · exact List.append_subset.mpr ⟨own, by simp [member]⟩

end Catalog
end RelationFilter
