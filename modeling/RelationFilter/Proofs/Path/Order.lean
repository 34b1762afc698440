import RelationFilter.Proofs.Blog
import RelationFilter.Proofs.Path.Email
import RelationFilter.Proofs.Path.Reference

namespace RelationFilter

open Sql

theorem Undotted.of_subset {name other : String} (h : Undotted other) (within : name.toList ⊆ other.toList) :
    Undotted name :=
  fun member => h (within member)

theorem Undotted.identifier {name : String} (h : Undotted name) : Undotted (identifier name) := by
  apply h.of_subset
  rw [RelationFilter.identifier, String.toList_ofList]
  exact List.filter_subset_self _

def Hop.Simple : Hop → Prop
  | .record field _ | .records field _ | .elements field _ | .referrers _ field _ _ => Undotted field

theorem BackReference.subset_of_splitVia? {after cs : List Char} {parts : List Char × List Char}
    (cut : splitVia? after cs = some parts) : parts.2 ⊆ cs ++ after := by
  induction cs generalizing after with
  | nil => cases cut
  | cons c back ih =>
    unfold splitVia? at cut
    split at cut
    · cases cut
      exact List.subset_append_right _ _
    · intro member inPart
      have there := ih cut inPart
      simp only [List.mem_append, List.mem_cons] at there ⊢
      tauto

theorem BackReference.field_subset {segment : String} {back : BackReference} (parsed : parse? segment = some back) :
    back.field.toList ⊆ segment.toList := by
  unfold parse? at parsed
  split at parsed
  · obtain ⟨parts, cut, rfl⟩ := Option.map_eq_some_iff.mp parsed
    have within := subset_of_splitVia? cut
    rw [List.append_nil] at within
    rw [String.toList_ofList]
    exact fun c member => List.mem_reverse.mp (within member)
  · cases parsed

theorem name_subset_of_splitModifier {segment name : String} {modifier : Option Modifier}
    (split : splitModifier segment = .ok (name, modifier)) : name.toList ⊆ segment.toList := by
  unfold splitModifier at split
  split at split
  · rename_i first last shape
    split at split
    · cases split
      have whole : [':'].intercalate (segment.toList.splitOn ':') = segment.toList := List.intercalate_splitOn ':'
      rw [← whole, String.toList_ofList]
      exact (Text.infix_intercalate (by rw [shape]; exact List.mem_cons_self)).subset
    · cases split
  · cases split
    exact List.Subset.refl _

theorem LeadsBy.simple {cat : Catalog} {loaded loaded' : List Collection} {c next : Collection} {segment : String}
    {h : Hop} (link : LeadsBy cat loaded c segment h next loaded') (whole : Undotted segment) : h.Simple := by
  cases link with
  | relation field options named target =>
    rw [Collection.name_of_field? field]
    split <;> exact whole.identifier
  | referrer free parsed other field options named target =>
    rw [Collection.name_of_field? field]
    exact (whole.of_subset (BackReference.field_subset parsed)).identifier

namespace Walk

theorem simple_ofField {f : Field} (whole : Undotted f.name) (modifier : Option Modifier) :
    ∀ h ∈ (ofField f modifier).1, h.Simple := by
  unfold ofField
  split
  · exact List.forall_mem_nil _
  · intro h member
    rw [List.mem_singleton.mp member]
    exact whole.identifier
  · exact List.forall_mem_nil _

theorem simple_ofLast (rules : WalkRules) (c : Collection) (loaded : List Collection) {segment : String}
    (whole : Undotted segment) : ∀ h ∈ (ofLast rules c loaded segment).hops, h.Simple := by
  unfold ofLast
  split
  · exact List.forall_mem_nil _
  · split
    · exact List.forall_mem_nil _
    · rename_i name modifier split
      split
      · exact List.forall_mem_nil _
      · rename_i f field
        apply simple_ofField
        rw [Collection.name_of_field? field]
        exact whole.of_subset (name_subset_of_splitModifier split)

theorem simple_ofSegments (rules : WalkRules) (depth : Nat) (c : Collection) (loaded : List Collection)
    {segments : List String} (whole : ∀ segment ∈ segments, Undotted segment) :
    ∀ h ∈ (ofSegments rules depth c loaded segments).hops, h.Simple := by
  fun_induction ofSegments rules depth c loaded segments with
  | case1 | case3 | case4 | case6 | case7 => exact List.forall_mem_nil _
  | case2 => exact simple_ofLast _ _ _ (whole _ List.mem_cons_self)
  | case5 depth c loaded segment next rest _ _ hop reached loaded' step ih =>
    intro h member
    rcases List.mem_cons.mp member with rfl | later
    · exact (Step.ofSegment_eq_hop_iff.mp step).simple (whole _ List.mem_cons_self)
    · exact ih (fun segment member => whole segment (List.mem_cons_of_mem _ member)) h later

end Walk

namespace RecordScope

def Visit.Simple (v : Visit) : Prop := ∀ r, v.route = some r → ∀ h ∈ r.hops, h.Simple

theorem Visit.Simple.of_none {v : Visit} (h : v.route = none) : v.Simple := fun r route => by
  rw [h] at route
  cases route

variable {s : RecordScope}

theorem StaticCourse.simple {members : List String} {v : Visit} (course : s.StaticCourse members v) : v.Simple := by
  cases course <;> exact .of_none rfl

theorem Course.simple {path : List String} {v : Visit} (course : s.Course path v)
    (whole : ∀ segment ∈ path, Undotted segment) : v.Simple := by
  cases course with
  | walked enters =>
    rintro r ⟨⟩
    exact Walk.simple_ofSegments _ _ _ _ fun segment member => whole segment (enters.suffix.subset member)
  | static given reads course => exact course.simple
  | items =>
    rintro r ⟨⟩
    exact List.forall_mem_nil _
  | _ => exact .of_none rfl

theorem simple_visit (path : String) : (s.visit path).Simple := by
  rcases s.course_visit path with refused | ⟨-, course⟩
  · rw [refused]
    exact .of_none rfl
  · apply course.simple
    intro segment member
    obtain ⟨part, inPath, rfl⟩ := List.mem_map.mp member
    rw [Undotted, String.toList_ofList]
    exact Text.not_mem_of_mem_splitOn inPath

end RecordScope

section

variable {d : Dialect} {names names' : List String}

theorem JoinOf.Scoped.mono {j : Join} (h : j.Scoped d names) (more : names ⊆ names') : j.Scoped d names' :=
  ⟨fun call => List.Subset.trans (h.table call) more, h.on.mono more⟩

theorem JoinOf.Scoped.named {table a : String} {on : Condition} (ht : IsIdentifier table)
    (refers : RefersTo d names (on.toStatement d).sql) : JoinOf.Scoped d names ⟨table, a, on⟩ :=
  ⟨fun call => absurd call (ht.not_mem (by decide)), refers⟩

theorem JoinOf.Scoped.of_sameJoin {j k : Join} (h : j.Scoped d names) (same : SameJoin d j k) : k.Scoped d names := by
  refine ⟨fun call => ?_, same.on ▸ h.on⟩
  rcases same.table with equal | ⟨-, n, -, items⟩
  · exact equal ▸ h.table (equal ▸ call)
  · rw [items, qualifiers_boundElements (undotted_numbered n)]
    exact List.nil_subset _

/-- Each join refers to its own row, to these tables, and to the rows of joins before it. -/
def InOrder (d : Dialect) : (names : List String) → List Join → Prop
  | _, [] => True
  | names, j :: rest => j.Scoped d (j.aliasName :: names) ∧ InOrder d (j.aliasName :: names) rest

theorem InOrder.mono {joins : List Join} (h : InOrder d names joins) (more : names ⊆ names') : InOrder d names' joins := by
  induction joins generalizing names names' with
  | nil => trivial
  | cons j rest ih =>
    have further : j.aliasName :: names ⊆ j.aliasName :: names' := List.cons_subset_cons _ more
    exact ⟨h.1.mono further, ih h.2 further⟩

theorem inOrder_append {first later : List Join} :
    InOrder d names (first ++ later) ↔
      InOrder d names first ∧ InOrder d (first.map JoinOf.aliasName ++ names) later := by
  induction first generalizing names with
  | nil => simp [InOrder]
  | cons j rest ih =>
    have same : InOrder d (rest.map JoinOf.aliasName ++ j.aliasName :: names) later ↔
        InOrder d (j.aliasName :: (rest.map JoinOf.aliasName ++ names)) later :=
      ⟨fun h => h.mono List.perm_middle.subset, fun h => h.mono List.perm_middle.symm.subset⟩
    simp only [List.cons_append, InOrder, ih, List.map_cons, same, and_assoc]

theorem InOrder.flatMap {α : Type} {xs : List α} {joins : α → List Join} (each : ∀ x ∈ xs, InOrder d names (joins x)) :
    InOrder d names (xs.flatMap joins) := by
  induction xs with
  | nil => trivial
  | cons x rest ih =>
    have later := ih fun x member => each x (List.mem_cons_of_mem _ member)
    exact inOrder_append.mpr ⟨each x List.mem_cons_self, later.mono (List.subset_append_right _ _)⟩

theorem refersTo_always : RefersTo d names (always.toStatement d).sql := by
  have text : (always.toStatement d).sql = "1=1" := rfl
  rw [text]
  exact .flat (by rw [qualifiers_of_undotted (by decide)]; exact List.nil_subset _)

theorem Root.inOrder {r : Root} (clean : r.Clean) : InOrder d names (r.joins d .primary) := by
  have row := Root.isIdentifier_aliasOn clean .primary
  have own : qualifiers d (r.aliasOn .primary ++ ".id") ⊆ r.aliasOn .primary :: names := by simp [qualifiers_id row]
  cases r with
  | base table => trivial
  | collection table aliasName => exact ⟨.named clean.1 refersTo_always, trivial⟩
  | auth table id =>
    refine ⟨.named clean (.flat ?_), trivial⟩
    rw [qualifiers_columnIs]
    exact own
  | submitted source field ids multiple =>
    exact ⟨.named (isIdentifier_identifier _) (.flat (List.Subset.trans (qualifiers_valueIn _ ids) own)), trivial⟩
  | submittedItems field placeholder items multiple =>
    obtain ⟨-, n, rfl⟩ := clean
    refine ⟨⟨fun _ => ?_, refersTo_always⟩, trivial⟩
    rw [placeholder, qualifiers_boundElements (undotted_numbered n)]
    exact List.nil_subset _

theorem Hop.inOrder {h : Hop} {row : String} (clean : h.Clean) (whole : h.Simple) (hr : IsIdentifier row)
    (there : row ∈ names) : InOrder d names (h.joins d row) := by
  cases h with
  | record field table =>
    have new : IsIdentifier (row ++ "_" ++ field) := isIdentifier_glued hr clean.1
    refine ⟨.named clean.2 (.flat ?_), trivial⟩
    show qualifiers d (row ++ "_" ++ field ++ ".id = " ++ row ++ "." ++ field) ⊆ _
    rw [qualifiers_tie new hr clean.1 whole]
    simp [target, there]
  | records field table =>
    have new : IsIdentifier (row ++ "_" ++ field) := isIdentifier_glued hr clean.1
    have je : IsIdentifier (elementAlias row field) := isIdentifier_elementAlias hr clean.1
    refine ⟨⟨fun _ => ?_, refersTo_always⟩, .named clean.2 (.flat ?_), trivial⟩
    · rw [qualifiers_columnElements, qualifiers_column hr clean.1 whole]
      simp [there]
    · have text : row ++ "_" ++ field ++ ".id = " ++ elementAlias row field ++ ".value" =
          row ++ "_" ++ field ++ ".id = " ++ elementAlias row field ++ "." ++ "value" := by
        simp only [String.append_assoc]
        rfl
      show qualifiers d (row ++ "_" ++ field ++ ".id = " ++ elementAlias row field ++ ".value") ⊆ _
      rw [text, qualifiers_tie new je (by decide) (by decide)]
      simp [target]
  | referrers segment field table multiple =>
    refine ⟨.named clean.2.2.2 ?_, trivial⟩
    refine (refersTo_referrerCondition hr clean.1 rfl clean.2.2.1 whole).mono ?_
    simp [target, there]
  | elements field multiple =>
    refine ⟨⟨fun _ => ?_, refersTo_always⟩, trivial⟩
    rw [qualifiers_columnElements, qualifiers_column hr clean whole]
    simp [there]

theorem Hop.target_mem_joins (d : Dialect) (row : String) (h : Hop) :
    h.target row ∈ (h.joins d row).map JoinOf.aliasName := by
  cases h <;> simp [joins]

theorem inOrder_hopJoins {hops : List Hop} {row : String} (clean : ∀ h ∈ hops, h.Clean)
    (whole : ∀ h ∈ hops, h.Simple) (hr : IsIdentifier row) (there : row ∈ names) :
    InOrder d names (Route.hopJoins d row hops) := by
  induction hops generalizing row names with
  | nil => trivial
  | cons h rest ih =>
    have first := clean h List.mem_cons_self
    refine inOrder_append.mpr ⟨Hop.inOrder first (whole h List.mem_cons_self) hr there, ?_⟩
    refine ih (fun h member => clean h (List.mem_cons_of_mem _ member))
      (fun h member => whole h (List.mem_cons_of_mem _ member)) (Hop.isIdentifier_target first hr) ?_
    exact List.mem_append_left _ (Hop.target_mem_joins d row h)

theorem Root.aliasOn_mem_joins {r : Root} {table : String} (d : Dialect) (based : ∀ t, r = .base t → t = table) :
    r.aliasOn .primary ∈ (r.joins d .primary).map JoinOf.aliasName ++ [table] := by
  cases r with
  | base t => exact List.mem_singleton.mpr (based t rfl)
  | _ => simp [joins]

theorem Route.hopAlias_mem_joins (d : Dialect) (row : String) (hops : List Hop) :
    hopAlias row hops = row ∨ hopAlias row hops ∈ (hopJoins d row hops).map JoinOf.aliasName := by
  induction hops generalizing row with
  | nil => exact .inl rfl
  | cons h rest ih =>
    right
    rw [hopJoins, List.map_append, List.mem_append]
    rcases ih (h.target row) with first | later
    · left
      show hopAlias (h.target row) rest ∈ _
      rw [first]
      exact Hop.target_mem_joins d row h
    · exact .inr later

theorem Route.aliasOn_mem_joins {r : Route} {table : String} (d : Dialect) (based : ∀ t, r.root = .base t → t = table) :
    r.aliasOn .primary = table ∨ r.aliasOn .primary ∈ (r.joins d .primary).map JoinOf.aliasName := by
  have root := Root.aliasOn_mem_joins d based
  rw [List.mem_append, List.mem_singleton] at root
  rw [joins, List.map_append, List.mem_append]
  rcases hopAlias_mem_joins d (r.root.aliasOn .primary) r.hops with start | later
  · have same : r.aliasOn .primary = r.root.aliasOn .primary := start
    rw [same]
    exact root.elim (fun joined => .inr (.inl joined)) .inl
  · exact .inr (.inr later)

theorem Route.inOrder {r : Route} {table : String} (clean : r.Clean) (whole : ∀ h ∈ r.hops, h.Simple)
    (based : ∀ t, r.root = .base t → t = table) : InOrder d [table] (r.joins d .primary) := by
  have start := Root.isIdentifier_aliasOn clean.root .primary
  exact inOrder_append.mpr ⟨Root.inOrder clean.root,
    inOrder_hopJoins clean.hops whole start (Root.aliasOn_mem_joins d based)⟩

end

namespace RecordScope

theorem inOrder_registered (paths : List String) (s : RecordScope) :
    InOrder s.settings.dialect [s.table] (registered paths s) := by
  apply InOrder.flatMap
  intro v member
  obtain ⟨t, path, rfl, base, -⟩ := exists_of_mem_visitEach member
  unfold Visit.joins
  cases walked : (t.visit path).route with
  | none => trivial
  | some r =>
    obtain ⟨clean, based⟩ := (visits path).route walked
    have table : t.table = s.table := by rw [RecordScope.table, base, RecordScope.table]
    exact Route.inOrder clean (simple_visit path r walked) (table ▸ based)

variable {d : Dialect} {names : List String}

/-- A join that is put in the place of the same one, or last, finds the rows before it. -/
theorem inOrder_putJoin {new : Join} {joins : List Join} (ordered : InOrder d names joins)
    (last : new.Scoped d (new.aliasName :: (joins.map JoinOf.aliasName ++ names)))
    (same : ∀ old ∈ joins, old.aliasName = new.aliasName → SameJoin d old new) : InOrder d names (putJoin new joins) := by
  induction joins generalizing names with
  | nil => exact ⟨last, trivial⟩
  | cons k rest ih =>
    obtain ⟨first, later⟩ := ordered
    unfold putJoin
    split
    · rename_i named
      rw [named] at first later
      exact ⟨first.of_sameJoin (same k List.mem_cons_self named), later⟩
    · refine ⟨first, ih later (last.mono ?_) fun old member => same old (List.mem_cons_of_mem _ member)⟩
      exact List.cons_subset_cons _ List.perm_middle.symm.subset

theorem inOrder_putJoins {joins : List Join} (ordered : InOrder d names joins) (idempotent : Idempotent d joins) :
    InOrder d names (putJoins joins []) := by
  induction joins using List.reverseRecOn with
  | nil => trivial
  | append_singleton joins new ih =>
    obtain ⟨before, last, -⟩ := inOrder_append.mp ordered
    rw [putJoins_concat]
    refine inOrder_putJoin (ih before idempotent.of_concat) (last.mono ?_) fun old member named => ?_
    · -- no alias is lost where a join takes the place of another
      apply List.cons_subset_cons
      intro a member
      rcases List.mem_append.mp member with given | base
      · obtain ⟨j, inJoins, rfl⟩ := List.mem_map.mp given
        obtain ⟨k, kept, named⟩ := exists_mem_putJoins inJoins
        exact List.mem_append_left _ (named ▸ List.mem_map_of_mem kept)
      · exact List.mem_append_right _ base
    · exact idempotent joins new [] rfl old member named

/-- Every join stays at its position, or the same one takes its place there. -/
def KeepsPositions (d : Dialect) (joins joins' : List Join) : Prop :=
  ∀ (i : Nat) (j : Join), joins[i]? = some j → ∃ k, joins'[i]? = some k ∧ k.aliasName = j.aliasName ∧ SameJoin d j k

theorem KeepsPositions.refl (d : Dialect) (joins : List Join) : KeepsPositions d joins joins :=
  fun _ j there => ⟨j, there, rfl, .refl d j⟩

theorem KeepsPositions.trans {joins joins' joins'' : List Join} (h : KeepsPositions d joins joins')
    (h' : KeepsPositions d joins' joins'') : KeepsPositions d joins joins'' := by
  intro i j there
  obtain ⟨k, there', named, same⟩ := h i j there
  obtain ⟨l, there'', named', same'⟩ := h' i k there'
  exact ⟨l, there'', named'.trans named, same.trans same'⟩

theorem keepsPositions_putJoin {new : Join} {joins : List Join}
    (same : ∀ old ∈ joins, old.aliasName = new.aliasName → SameJoin d old new) :
    KeepsPositions d joins (putJoin new joins) := by
  induction joins with
  | nil => exact fun _ _ there => by simp at there
  | cons k rest ih =>
    intro i j there
    unfold putJoin
    split
    · rename_i named
      cases i with
      | zero =>
        cases there
        exact ⟨new, rfl, named.symm, same k List.mem_cons_self named⟩
      | succ i => exact ⟨j, there, rfl, .refl d j⟩
    · cases i with
      | zero =>
        cases there
        exact ⟨k, rfl, rfl, .refl d k⟩
      | succ i => exact ih (fun old member => same old (List.mem_cons_of_mem _ member)) i j there

theorem keepsPositions_putJoins {new joins : List Join}
    (same : ∀ before j after, new = before ++ j :: after → ∀ old ∈ putJoins before joins, old.aliasName = j.aliasName →
      SameJoin d old j) : KeepsPositions d joins (putJoins new joins) := by
  induction new using List.reverseRecOn with
  | nil => exact .refl d joins
  | append_singleton first last ih =>
    have before := ih fun before j after shape => same before j (after ++ [last]) (by simp [shape])
    rw [putJoins, List.foldl_append]
    exact before.trans (keepsPositions_putJoin (same first last [] rfl))

theorem settings_resolveEach (paths : List String) (s : RecordScope) : (resolveEach paths s).settings = s.settings := by
  induction paths generalizing s with
  | nil => rfl
  | cons path rest ih => exact ih (resolve path s).2

theorem registered_cons (path : String) (rest : List String) (s : RecordScope) :
    registered (path :: rest) s = (s.visit path).joins s.settings.dialect ++ registered rest (resolve path s).2 := rfl

theorem registered_append (first later : List String) (s : RecordScope) :
    registered (first ++ later) s = registered first s ++ registered later (resolveEach first s) := by
  induction first generalizing s with
  | nil => rfl
  | cons path rest ih =>
    rw [List.cons_append, registered_cons, registered_cons, ih, List.append_assoc]
    rfl

/-- A path leaves the joins where they are, also if it fails. -/
theorem keepsPositions_resolve {s : RecordScope} (fresh : s.joins = []) {before after : List String} {path : String}
    (idempotent : Idempotent s.settings.dialect (registered (before ++ path :: after) s)) :
    KeepsPositions s.settings.dialect (resolveEach before s).joins (resolve path (resolveEach before s)).2.joins := by
  have joins : (resolveEach before s).joins = putJoins (registered before s) [] := by rw [joins_resolveEach, fresh]
  show KeepsPositions _ _ (putJoins (((resolveEach before s).visit path).joins (resolveEach before s).settings.dialect) _)
  rw [settings_resolveEach]
  apply keepsPositions_putJoins
  intro first j rest shape old member named
  rw [registered_append, registered_cons, settings_resolveEach, shape, List.append_assoc, List.cons_append,
    ← List.append_assoc] at idempotent
  refine idempotent _ j _ rfl old ?_ named
  rw [joins] at member
  rwa [putJoins, List.foldl_append]

/-- Over a run of paths from a new scope in which joins are replaced only by the same joins, no two joins have one alias,
every path leaves the joins before it at their positions, and every join refers to its own row, to the base table and to
the rows of joins before it. -/
theorem resolveEach_inOrder (catalog : Catalog) (base : Collection) (request : Option Request) (settings : Settings)
    (paths : List String)
    (idempotent : Idempotent settings.dialect (registered paths (new catalog base request settings))) :
    let s := new catalog base request settings
    ((resolveEach paths s).joins.map JoinOf.aliasName).Nodup ∧
      (∀ before path after, paths = before ++ path :: after →
        KeepsPositions settings.dialect (resolveEach before s).joins (resolve path (resolveEach before s)).2.joins) ∧
      ∀ before j after, (resolveEach paths s).joins = before ++ j :: after →
        j.Scoped settings.dialect (j.aliasName :: s.table :: before.map JoinOf.aliasName) := by
  intro s
  have joins : (resolveEach paths s).joins = putJoins (registered paths s) [] := joins_resolveEach paths s
  refine ⟨?_, ?_, ?_⟩
  · rw [joins]
    exact nodup_putJoins _
  · rintro before path after rfl
    exact keepsPositions_resolve rfl idempotent
  · intro before j after shape
    have ordered := inOrder_putJoins (inOrder_registered paths s) idempotent
    rw [← joins, shape] at ordered
    refine (inOrder_append.mp ordered).2.1.mono (List.cons_subset_cons _ ?_)
    exact (List.perm_append_singleton _ _).subset

/-- Of three paths along the tags of a post the second one fails. -/
theorem resolveEach_inOrder_tags :
    let elements : Join := ⟨Dialect.columnElements .mysql "posts.tags", "posts_tags_je", always⟩
    let tags : Join := ⟨"tags", "posts_tags", .text "posts_tags.id = posts_tags_je.value"⟩
    let back : Join :=
      ⟨"posts", "posts_tags_posts_via_tags", .text (Hop.referrerCondition .mysql "posts_tags" "posts_via_tags" "tags" true)⟩
    let paths := ["tags.name", "tags.missing", "tags.posts_via_tags.title"]
    Idempotent .mysql (registered paths Blog.scope) ∧ (resolveEach paths Blog.scope).joins = [elements, tags, back] ∧
      back.Scoped .mysql ["posts_tags_posts_via_tags", "posts", "posts_tags_je", "posts_tags"] := by
  intro elements tags back paths
  have listed : registered paths Blog.scope = [elements, tags, elements, tags, elements, tags, back] := by rfl
  have agree : Agree .mysql (registered paths Blog.scope) := by
    have among : ∀ j ∈ registered paths Blog.scope, j = elements ∨ j = tags ∨ j = back := by
      rw [listed]
      intro j member
      simp only [List.mem_cons, List.not_mem_nil, or_false] at member
      tauto
    intro j hj k hk named
    rcases among j hj with rfl | rfl | rfl <;> rcases among k hk with rfl | rfl | rfl
    all_goals first | exact .refl _ _ | exact absurd named (by decide)
  have idempotent := idempotent_iff_agree.mpr agree
  have joins : (resolveEach paths Blog.scope).joins = [elements, tags] ++ back :: [] := by rfl
  have ordered := resolveEach_inOrder ⟨[Blog.posts, Blog.tags]⟩ Blog.posts Blog.scope.request {} paths idempotent
  exact ⟨idempotent, joins, ordered.2.2 [elements, tags] back [] joins⟩

end RecordScope
end RelationFilter
