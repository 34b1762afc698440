import Mathlib.Data.List.Induction
import Mathlib.Data.List.Nodup
import RelationFilter.Proofs.Path.Visit

namespace RelationFilter

def SameTable (d : Dialect) (t u : String) : Prop :=
  t = u ∨ ∃ m n, t = d.boundElements (numbered "dataEach" m) ∧ u = d.boundElements (numbered "dataEach" n)

structure SameJoin (d : Dialect) (j k : Join) : Prop where
  table : SameTable d j.table k.table
  on : (j.on.toStatement d).sql = (k.on.toStatement d).sql

theorem SameTable.symm {d : Dialect} {t u : String} (h : SameTable d t u) : SameTable d u t := by
  rcases h with rfl | ⟨m, n, ht, hu⟩
  · exact .inl rfl
  · exact .inr ⟨n, m, hu, ht⟩

theorem SameTable.trans {d : Dialect} {t u v : String} (h : SameTable d t u) (h' : SameTable d u v) :
    SameTable d t v := by
  rcases h with rfl | ⟨m, n, ht, hu⟩
  · exact h'
  · rcases h' with rfl | ⟨m', n', -, hv⟩
    · exact .inr ⟨m, n, ht, hu⟩
    · exact .inr ⟨m, n', ht, hv⟩

theorem SameJoin.refl (d : Dialect) (j : Join) : SameJoin d j j := ⟨.inl rfl, rfl⟩

theorem SameJoin.symm {d : Dialect} {j k : Join} (h : SameJoin d j k) : SameJoin d k j := ⟨h.table.symm, h.on.symm⟩

theorem SameJoin.trans {d : Dialect} {i j k : Join} (h : SameJoin d i j) (h' : SameJoin d j k) : SameJoin d i k :=
  ⟨h.table.trans h'.table, h.on.trans h'.on⟩

namespace RecordScope

theorem mem_putJoin {new j : Join} {joins : List Join} (distinct : (joins.map JoinOf.aliasName).Nodup) :
    j ∈ putJoin new joins ↔ j = new ∨ j ∈ joins ∧ j.aliasName ≠ new.aliasName := by
  induction joins with
  | nil => simp [putJoin]
  | cons k rest ih =>
    simp only [List.map_cons, List.nodup_cons, List.mem_map, not_exists, not_and] at distinct
    by_cases same : k.aliasName = new.aliasName
    · have others : ∀ i ∈ rest, i.aliasName ≠ new.aliasName := fun i member => same ▸ distinct.1 i member
      simp only [putJoin, same, if_true, List.mem_cons]
      constructor
      · rintro (rfl | member)
        · exact .inl rfl
        · exact .inr ⟨.inr member, others j member⟩
      · rintro (rfl | ⟨rfl | member, other⟩)
        · exact .inl rfl
        · exact absurd same other
        · exact .inr member
    · simp only [putJoin, same, if_false, List.mem_cons, ih distinct.2]
      constructor
      · rintro (rfl | rfl | ⟨member, other⟩)
        · exact .inr ⟨.inl rfl, same⟩
        · exact .inl rfl
        · exact .inr ⟨.inr member, other⟩
      · rintro (rfl | ⟨rfl | member, other⟩)
        · exact .inr (.inl rfl)
        · exact .inl rfl
        · exact .inr (.inr ⟨member, other⟩)

theorem aliases_putJoin (new : Join) (joins : List Join) :
    (putJoin new joins).map JoinOf.aliasName =
      if new.aliasName ∈ joins.map JoinOf.aliasName then joins.map JoinOf.aliasName
      else joins.map JoinOf.aliasName ++ [new.aliasName] := by
  induction joins with
  | nil => simp [putJoin]
  | cons k rest ih =>
    by_cases same : k.aliasName = new.aliasName
    · simp [putJoin, same]
    · have other : ¬ new.aliasName = k.aliasName := fun h => same h.symm
      simp only [putJoin, same, if_false, List.map_cons, ih, List.mem_cons, other, false_or]
      split <;> simp

theorem mem_aliases_putJoin {name : String} {new : Join} {joins : List Join} :
    name ∈ (putJoin new joins).map JoinOf.aliasName ↔ name = new.aliasName ∨ name ∈ joins.map JoinOf.aliasName := by
  rw [aliases_putJoin]
  split
  · rename_i taken
    refine ⟨.inr, ?_⟩
    rintro (rfl | before)
    · exact taken
    · exact before
  · rw [List.mem_append, List.mem_singleton, or_comm]

theorem mem_aliases_putJoins {name : String} {new joins : List Join} :
    name ∈ (putJoins new joins).map JoinOf.aliasName ↔
      name ∈ new.map JoinOf.aliasName ∨ name ∈ joins.map JoinOf.aliasName := by
  induction new generalizing joins with
  | nil => simp [putJoins]
  | cons j rest ih =>
    have later : name ∈ (putJoins rest (putJoin j joins)).map JoinOf.aliasName ↔ _ := ih
    rw [mem_aliases_putJoin] at later
    rw [putJoins, List.foldl_cons, ← putJoins, later, List.map_cons, List.mem_cons]
    tauto

theorem nodup_putJoin {new : Join} {joins : List Join} (distinct : (joins.map JoinOf.aliasName).Nodup) :
    ((putJoin new joins).map JoinOf.aliasName).Nodup := by
  rw [aliases_putJoin]
  split
  · exact distinct
  · rename_i absent
    refine List.nodup_append.mpr ⟨distinct, by simp, ?_⟩
    intro a here b only same
    rw [same, List.mem_singleton.mp only] at here
    exact absent here

theorem putJoins_concat (joins : List Join) (new : Join) (first : List Join) :
    putJoins (joins ++ [new]) first = putJoin new (putJoins joins first) := by
  rw [putJoins, List.foldl_append]
  rfl

theorem nodup_putJoins (joins : List Join) : ((putJoins joins []).map JoinOf.aliasName).Nodup := by
  induction joins using List.reverseRecOn with
  | nil => simp [putJoins]
  | append_singleton joins new ih =>
    rw [putJoins_concat]
    exact nodup_putJoin ih

theorem mem_or_mem_of_putJoin {new j : Join} {joins : List Join} (h : j ∈ putJoin new joins) : j = new ∨ j ∈ joins := by
  induction joins with
  | nil => exact .inl (List.mem_singleton.mp h)
  | cons k rest ih =>
    unfold putJoin at h
    split at h
    · rcases List.mem_cons.mp h with rfl | later
      · exact .inl rfl
      · exact .inr (List.mem_cons_of_mem _ later)
    · rcases List.mem_cons.mp h with rfl | later
      · exact .inr List.mem_cons_self
      · exact (ih later).imp_right (List.mem_cons_of_mem _)

theorem mem_or_mem_of_putJoins {j : Join} {new joins : List Join} (h : j ∈ putJoins new joins) :
    j ∈ new ∨ j ∈ joins := by
  induction new generalizing joins with
  | nil => exact .inr h
  | cons k rest ih =>
    rcases ih h with later | here
    · exact .inl (List.mem_cons_of_mem _ later)
    · rcases mem_or_mem_of_putJoin here with rfl | before
      · exact .inl List.mem_cons_self
      · exact .inr before

theorem mem_of_mem_putJoins {j : Join} {joins : List Join} (h : j ∈ putJoins joins []) : j ∈ joins :=
  (mem_or_mem_of_putJoins h).resolve_right List.not_mem_nil

theorem exists_mem_putJoins {j : Join} {joins : List Join} (h : j ∈ joins) :
    ∃ k ∈ putJoins joins [], k.aliasName = j.aliasName := by
  induction joins using List.reverseRecOn with
  | nil => simp at h
  | append_singleton joins new ih =>
    simp only [putJoins_concat, mem_putJoin (nodup_putJoins joins)]
    by_cases same : j.aliasName = new.aliasName
    · exact ⟨new, .inl rfl, same.symm⟩
    · have earlier : j ∈ joins := by
        rcases List.mem_append.mp h with member | member
        · exact member
        · exact absurd (by rw [List.mem_singleton.mp member]) same
      obtain ⟨k, member, named⟩ := ih earlier
      exact ⟨k, .inr ⟨member, fun other => same (named ▸ other)⟩, named⟩

/-- Whenever a registration finds its alias taken, it stores the join that it replaces. -/
def Idempotent (d : Dialect) (joins : List Join) : Prop :=
  ∀ before new after, joins = before ++ new :: after → ∀ old ∈ putJoins before [], old.aliasName = new.aliasName →
    SameJoin d old new

/-- Every join that was registered is there in the end. -/
def Kept (d : Dialect) (joins : List Join) : Prop :=
  ∀ j ∈ joins, ∃ k ∈ putJoins joins [], k.aliasName = j.aliasName ∧ SameJoin d j k

def Agree (d : Dialect) (joins : List Join) : Prop :=
  ∀ j ∈ joins, ∀ k ∈ joins, j.aliasName = k.aliasName → SameJoin d j k

theorem Idempotent.of_concat {d : Dialect} {joins : List Join} {new : Join} (h : Idempotent d (joins ++ [new])) :
    Idempotent d joins := by
  intro before new' after shape
  exact h before new' (after ++ [new]) (by simp [shape])

theorem Idempotent.same_last {d : Dialect} {joins : List Join} (h : Idempotent d joins) {j k : Join} (hj : j ∈ joins)
    (hk : k ∈ putJoins joins []) (named : j.aliasName = k.aliasName) : SameJoin d j k := by
  induction joins using List.reverseRecOn generalizing j k with
  | nil => simp at hj
  | append_singleton joins new ih =>
    rw [putJoins_concat, mem_putJoin (nodup_putJoins joins)] at hk
    rcases List.mem_append.mp hj with earlier | last
    · rcases hk with rfl | ⟨stays, -⟩
      · obtain ⟨old, member, same⟩ := exists_mem_putJoins earlier
        exact (ih h.of_concat earlier member same.symm).trans (h joins k [] rfl old member (same.trans named))
      · exact ih h.of_concat earlier stays named
    · rw [List.mem_singleton.mp last] at named ⊢
      rcases hk with rfl | ⟨-, other⟩
      · exact .refl d k
      · exact absurd named.symm other

theorem idempotent_iff_agree {d : Dialect} {joins : List Join} : Idempotent d joins ↔ Agree d joins := by
  constructor
  · intro h j hj k hk named
    obtain ⟨last, member, same⟩ := exists_mem_putJoins hk
    exact (h.same_last hj member (named.trans same.symm)).trans (h.same_last hk member same.symm).symm
  · rintro h before new after rfl old member named
    exact h old (List.mem_append_left _ (mem_of_mem_putJoins member)) new (by simp) named

theorem kept_iff_agree {d : Dialect} {joins : List Join} : Kept d joins ↔ Agree d joins := by
  constructor
  · intro h j hj k hk named
    obtain ⟨j', hj', aliasJ, sameJ⟩ := h j hj
    obtain ⟨k', hk', aliasK, sameK⟩ := h k hk
    have one : j' = k' :=
      List.inj_on_of_nodup_map (nodup_putJoins joins) hj' hk' (by rw [aliasJ, aliasK, named])
    subst one
    exact sameJ.trans sameK.symm
  · intro h j hj
    obtain ⟨k, member, named⟩ := exists_mem_putJoins hj
    exact ⟨k, member, named, h j hj k (mem_of_mem_putJoins member) named.symm⟩

def visitEach : List String → RecordScope → List Visit
  | [], _ => []
  | path :: rest, s => s.visit path :: visitEach rest (resolve path s).2

def resolveEach (paths : List String) (s : RecordScope) : RecordScope :=
  paths.foldl (fun s path => (resolve path s).2) s

def registered (paths : List String) (s : RecordScope) : List Join :=
  (visitEach paths s).flatMap (Visit.joins s.settings.dialect)

theorem joins_resolveEach (paths : List String) (s : RecordScope) :
    (resolveEach paths s).joins = putJoins (registered paths s) s.joins := by
  induction paths generalizing s with
  | nil => rfl
  | cons path rest ih =>
    rw [resolveEach, List.foldl_cons, registered, visitEach, List.flatMap_cons, putJoins, List.foldl_append]
    exact ih (resolve path s).2

theorem exists_of_mem_visitEach {paths : List String} {s : RecordScope} {v : Visit} (h : v ∈ visitEach paths s) :
    ∃ (t : RecordScope) (path : String), v = t.visit path ∧ t.base = s.base ∧ t.settings = s.settings := by
  induction paths generalizing s with
  | nil => simp [visitEach] at h
  | cons path rest ih =>
    rcases List.mem_cons.mp h with rfl | later
    · exact ⟨s, path, rfl, rfl, rfl⟩
    · obtain ⟨t, path', same, base, settings⟩ := ih later
      exact ⟨t, path', same, base, settings⟩

theorem visits_of_mem_visitEach {paths : List String} {s : RecordScope} {v : Visit} (h : v ∈ visitEach paths s) :
    ∃ t : RecordScope, t.base = s.base ∧ t.settings = s.settings ∧ t.Visits v := by
  obtain ⟨t, path, rfl, base, settings⟩ := exists_of_mem_visitEach h
  exact ⟨t, base, settings, visits path⟩

end RecordScope
end RelationFilter
