import RelationFilter.Proofs.Path.History

namespace RelationFilter

open Catalog

theorem Catalog.Unambiguous.load_eq {cat : Catalog} (unambiguous : cat.Unambiguous) (keyed : cat.Keyed)
    {loaded : List Collection} (own : loaded ⊆ cat.collections) (nameOrId : String) :
    (loadCollection cat loaded nameOrId).1 = cat.get? nameOrId := by
  obtain ⟨loaded', -, load⟩ := loadCollection_eq keyed unambiguous nameOrId own
  rw [load]

/-- A relation field leads to the collection whose id it holds, under the alias of the hop. -/
theorem Step.ofRelation_of_stored {cat : Catalog} (unambiguous : cat.Unambiguous) (keyed : cat.Keyed)
    {loaded : List Collection} (own : loaded ⊆ cat.collections) {f : Field} {o : RelationOptions} {c : Collection}
    (options : f.relation? = some o) (member : c ∈ cat.collections) (id : c.id = o.collectionId) (named : c.id ≠ "")
    (segment : String) : ∃ h, (ofRelation cat loaded f segment).1 = .hop h c ∧
      ∀ d row, ∃ j ∈ h.joins d row, j.table = identifier c.name ∧ j.aliasName = h.target row := by
  have target : target? f o = .ok c.id := by rw [target?, ← id, if_neg named]
  obtain ⟨loaded', -, load⟩ := loadCollection_eq keyed unambiguous c.id own
  rw [keyed.get?_id member] at load
  simp only [ofRelation, options, target, load]
  cases o.isMultiple with
  | true => exact ⟨_, rfl, fun d row => ⟨_, List.mem_cons_of_mem _ List.mem_cons_self, rfl, rfl⟩⟩
  | false => exact ⟨_, rfl, fun d row => ⟨_, List.mem_cons_self, rfl, rfl⟩⟩

namespace RecordScope

/-- The scopes that a compilation over a catalog goes through. The base collection, that of the authenticated record and
those remembered on the way are the catalog's own. -/
inductive Reached (cat : Catalog) : RecordScope → Prop where
  | new {base : Collection} {request : Option Request} (settings : Settings) (own : base ∈ cat.collections)
    (auth : ∀ r a, request = some r → r.auth = some a → a.collection ∈ cat.collections) :
    Reached cat (new cat base request settings)
  | resolve {s : RecordScope} (path : String) (before : Reached cat s) : Reached cat (resolve path s).2
  | resolveStatic {s : RecordScope} (segments : List String) (before : Reached cat s) :
    Reached cat (resolveStatic s segments).2
  | load {s : RecordScope} (nameOrId : String) (before : Reached cat s) : Reached cat (s.load nameOrId).2
  | remember {s : RecordScope} {c : Collection} (own : c ∈ cat.collections) (before : Reached cat s) :
    Reached cat (s.remember c)
  | registerJoin {s : RecordScope} (j : Join) (before : Reached cat s) : Reached cat (s.registerJoin j)
  | placeholder {s : RecordScope} (start : String) (before : Reached cat s) : Reached cat (s.placeholder start).2

theorem Settles.loaded_subset {s : RecordScope} {visit : RecordScope → Visit} (h : s.Settles visit)
    (own : s.loaded ⊆ s.catalog.collections) : (visit s).loaded ⊆ s.catalog.collections := by
  obtain ⟨e, ends⟩ := h
  obtain ⟨loaded, own', ended⟩ := ends s.loaded s.joins s.counter own
  have loads : (visit s).loaded = loaded := (congrArg Visit.loaded ended).trans (by cases e <;> rfl)
  rwa [loads]

structure Faithful (cat : Catalog) (s : RecordScope) : Prop where
  catalog : s.catalog = cat
  loaded : s.loaded ⊆ cat.collections
  auth : ∀ r a, s.request = some r → r.auth = some a → a.collection ∈ cat.collections

variable {cat : Catalog} {s : RecordScope}

theorem Faithful.after (h : s.Faithful cat) {v : Visit} (own : v.loaded ⊆ cat.collections) : (s.after v).Faithful cat :=
  ⟨h.catalog, own, h.auth⟩

theorem Reached.faithful (keyed : cat.Keyed) (unambiguous : cat.Unambiguous) (reached : Reached cat s) :
    s.Faithful cat := by
  induction reached with
  | new settings own auth => exact ⟨rfl, List.cons_subset.mpr ⟨own, List.nil_subset _⟩, auth⟩
  | resolve path _ ih =>
    obtain ⟨rfl, own, auth⟩ := ih
    exact Faithful.after ⟨rfl, own, auth⟩ ((settles_visit ⟨keyed, unambiguous, auth⟩ path).loaded_subset own)
  | resolveStatic segments _ ih =>
    obtain ⟨rfl, own, auth⟩ := ih
    exact Faithful.after ⟨rfl, own, auth⟩ ((settles_static segments).loaded_subset own)
  | load nameOrId _ ih =>
    obtain ⟨rfl, own, auth⟩ := ih
    obtain ⟨loaded, own', load⟩ := loadCollection_eq keyed unambiguous nameOrId own
    refine ⟨rfl, ?_, auth⟩
    simpa only [RecordScope.load, load] using own'
  | remember own _ ih =>
    obtain ⟨rfl, loaded, auth⟩ := ih
    exact ⟨rfl, rememberCollection_subset loaded own, auth⟩
  | registerJoin j _ ih => exact ⟨ih.catalog, ih.loaded, ih.auth⟩
  | placeholder start _ ih => exact ⟨ih.catalog, ih.loaded, ih.auth⟩

/-- In a new scope the name of its base collection comes before every id. -/
theorem unambiguous_of_load (keyed : cat.Keyed)
    (same : ∀ s, Reached cat s → ∀ nameOrId, (s.load nameOrId).1 = cat.get? nameOrId) : cat.Unambiguous := by
  intro c member c' member' other
  by_contra named
  have called : c.isCalled c'.id = true := by simp_all [Collection.isCalled]
  have start : Reached cat (new cat c none {}) := .new {} member (by simp)
  have answer : ((new cat c none {}).load c'.id).1 = some c := by simp [RecordScope.load, loadCollection, new, called]
  rw [same _ start, keyed.get?_id member', Option.some.injEq] at answer
  exact other answer.symm

/-- Over a catalog that is built by saving and deleting, every scope of every compilation answers to all names and ids as the
catalog does exactly if no collection has the id of another one for its name. Then, whatever was loaded before, a relation
field that holds the id of a collection leads to it. -/
theorem load_eq_get?_iff_unambiguous {cat : Catalog} (built : cat.Built) :
    ((∀ s, Reached cat s → ∀ nameOrId, (s.load nameOrId).1 = cat.get? nameOrId) ↔ cat.Unambiguous) ∧
    (cat.Unambiguous →
      (∀ s, Reached cat s → s.loaded ⊆ cat.collections ∧ ∀ path, (s.visit path).loaded ⊆ cat.collections) ∧
      ∀ loaded, loaded ⊆ cat.collections → ∀ (f : Field) (o : RelationOptions) (c : Collection) (segment : String),
        f.relation? = some o → c ∈ cat.collections → c.id = o.collectionId → c.id ≠ "" →
        ∃ h, (Step.ofRelation cat loaded f segment).1 = .hop h c ∧
          ∀ d row, ∃ j ∈ h.joins d row, j.table = identifier c.name ∧ j.aliasName = h.target row) := by
  have keyed := built.keyed
  refine ⟨⟨unambiguous_of_load keyed, fun unambiguous s reached nameOrId => ?_⟩, fun unambiguous => ⟨?_, ?_⟩⟩
  · obtain ⟨rfl, own, -⟩ := reached.faithful keyed unambiguous
    exact unambiguous.load_eq keyed own nameOrId
  · intro s reached
    obtain ⟨rfl, own, auth⟩ := reached.faithful keyed unambiguous
    exact ⟨own, fun path => (settles_visit ⟨keyed, unambiguous, auth⟩ path).loaded_subset own⟩
  · intro loaded own f o c segment options member id named
    exact Step.ofRelation_of_stored unambiguous keyed own options member id named segment

theorem load_eq_get?_blog :
    Blog.scope.catalog.Built ∧ Reached Blog.scope.catalog (resolve "tags.name" Blog.scope).2 ∧
      ((resolve "tags.name" Blog.scope).2.load "POSTS").1 = some Blog.posts := by
  have built : Blog.scope.catalog.Built := (Catalog.Built.empty.save Blog.posts).save Blog.tags
  have unambiguous : Blog.scope.catalog.Unambiguous := by decide +kernel
  have start : Reached Blog.scope.catalog Blog.scope := .new {} List.mem_cons_self (by rintro r a ⟨⟩ ⟨⟩)
  have reached : Reached Blog.scope.catalog (resolve "tags.name" Blog.scope).2 := .resolve "tags.name" start
  have found : Blog.scope.catalog.get? "POSTS" = some Blog.posts := by decide +kernel
  exact ⟨built, reached, ((load_eq_get?_iff_unambiguous built).1.mpr unambiguous _ reached "POSTS").trans found⟩

def users : Collection :=
  { id := "u"
    name := "users"
    fields := [{ name := "boss", kind := .relation { collectionId := "users", maxSelect := some 1 } }] }

def members : Collection := { id := "users", name := "members" }

def crossed : Catalog := ⟨[users, members]⟩

/-- The boss of a user is a member, and is looked for among the users. -/
theorem load_ne_get?_users :
    let s := new crossed users none {}
    crossed.Built ∧ Reached crossed s ∧ crossed.get? "users" = some members ∧ (s.load "users").1 = some users ∧
      users ≠ members ∧ ((s.visit "boss.id").joins .mysql).map JoinOf.table = ["users"] := by
  have built : crossed.Built := (Catalog.Built.empty.save users).save members
  exact ⟨built, .new {} List.mem_cons_self (by simp), by decide +kernel, by decide +kernel, by decide +kernel,
    by decide +kernel⟩

end RecordScope
end RelationFilter
