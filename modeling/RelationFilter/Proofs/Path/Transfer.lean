import RelationFilter.Proofs.Blog
import RelationFilter.Proofs.Path.Entry
import RelationFilter.Proofs.Path.Injection
import RelationFilter.Proofs.Path.Link
import RelationFilter.Proofs.Path.Registry
import RelationFilter.Proofs.Sql.AliasText
import RelationFilter.Proofs.Sql.JoinList

namespace RelationFilter

open Sql

/-- Its name can stand as an alias, and the names of its fields are words. -/
structure Collection.Joinable (c : Collection) : Prop where
  name : IsAlias c.name
  fields : ∀ f ∈ c.fields, IsWord f.name

instance (c : Collection) : Decidable c.Joinable :=
  decidable_of_iff (IsAlias c.name ∧ ∀ f ∈ c.fields, IsWord f.name) ⟨fun h => ⟨h.1, h.2⟩, fun h => ⟨h.name, h.fields⟩⟩

structure JoinOf.Separable (j : Join) : Prop where
  table : IsSource j.table
  aliasName : IsAlias j.aliasName

def Root.Joinable : Root → Prop
  | .base table => IsAliasText table
  | .collection table aliasName => IsAlias table ∧ IsAlias aliasName
  | .auth table _ => IsAlias table
  | .submitted source field _ _ => IsAlias source ∧ IsAliasText field
  | .submittedItems field _ _ _ => IsAliasText field

def Hop.Joinable : Hop → Prop
  | .record field table => IsAliasText field ∧ IsAlias table
  | .records field table => IsAliasText field ∧ IsAlias table
  | .referrers segment _ table _ => IsAliasText segment ∧ IsAlias table
  | .elements field _ => IsAliasText field

theorem Sql.IsAliasText.identifier_eq {name : String} (h : IsAliasText name) : identifier name = name := by
  have kept : name.toList.filter isIdentifierChar = name.toList := by
    rw [List.filter_eq_self]
    intro c member
    have own := h c member
    simp only [isAliasChar, Bool.or_eq_true, decide_eq_true_eq] at own
    simp only [isIdentifierChar, Bool.or_eq_true, decide_eq_true_eq]
    tauto
  rw [identifier, kept, String.ofList_toList]

theorem Sql.IsAlias.identifier {name : String} (h : IsAlias name) : IsAlias (identifier name) := by
  rw [h.chars.identifier_eq]
  exact h

/-- Something that is not empty, then alias characters. -/
theorem isAlias_append {a b : String} (filled : a ≠ "") (ha : IsAliasText a) (hb : IsAliasText b) : IsAlias (a ++ b) := by
  refine ⟨?_, ha.append hb⟩
  intro empty
  exact filled (String.append_eq_empty_iff.mp empty).1

theorem isAlias_glued {row field : String} (hr : IsAliasText row) (hf : IsAliasText field) :
    IsAlias (row ++ "_" ++ field) := by
  refine isAlias_append ?_ (hr.append (by decide)) hf
  intro empty
  exact absurd (String.append_eq_empty_iff.mp empty).2 (by decide)

theorem isAlias_elementAlias {row field : String} (hr : IsAliasText row) (hf : IsAliasText field) :
    IsAlias (Hop.elementAlias row field) :=
  isAlias_append (isAlias_glued hr hf).filled (isAlias_glued hr hf).chars (by decide)

theorem Root.isAlias_aliasOn {r : Root} (joinable : r.Joinable) (joined : ∀ table, r ≠ .base table) :
    IsAlias (r.aliasOn .primary) := by
  cases r with
  | base table => exact absurd rfl (joined table)
  | collection table aliasName => exact joinable.2
  | auth table id => exact isAlias_append (by decide) (by decide) joinable.chars
  | submitted source field ids multiple =>
    have start : IsAliasText ("__data_" ++ source) := IsAliasText.append (by decide) joinable.1.chars
    exact (isAlias_glued start joinable.2).identifier
  | submittedItems field placeholder items multiple =>
    have start : IsAlias ("__dataEach_" ++ field) := isAlias_append (by decide) (by decide) joinable
    exact isAlias_append start.filled start.chars (by decide)

theorem Root.aliasText_aliasOn {r : Root} (joinable : r.Joinable) : IsAliasText (r.aliasOn .primary) := by
  cases r with
  | base table => exact joinable
  | _ => exact (isAlias_aliasOn joinable nofun).chars

theorem Root.separable_joins {r : Root} (joinable : r.Joinable) (d : Dialect) :
    ∀ j ∈ r.joins d .primary, j.Separable := by
  intro j member
  cases r with
  | base table => cases member
  | collection table aliasName =>
    rw [List.mem_singleton.mp member]
    exact ⟨joinable.1.source, isAlias_aliasOn joinable nofun⟩
  | auth table id =>
    rw [List.mem_singleton.mp member]
    exact ⟨joinable.source, isAlias_aliasOn joinable nofun⟩
  | submitted source field ids multiple =>
    rw [List.mem_singleton.mp member]
    exact ⟨joinable.1.identifier.source, isAlias_aliasOn joinable nofun⟩
  | submittedItems field name items multiple =>
    rw [List.mem_singleton.mp member]
    exact ⟨isSource_boundElements d _, isAlias_aliasOn joinable nofun⟩

theorem Hop.isAlias_target {h : Hop} {row : String} (joinable : h.Joinable) (hr : IsAliasText row) :
    IsAlias (h.target row) := by
  cases h with
  | record field table => exact isAlias_glued hr joinable.1
  | records field table => exact isAlias_glued hr joinable.1
  | referrers segment field table multiple => exact isAlias_glued hr joinable.1
  | elements field multiple => exact isAlias_elementAlias hr joinable

theorem Hop.separable_joins {h : Hop} {row : String} (joinable : h.Joinable) (hr : IsAliasText row) (d : Dialect) :
    ∀ j ∈ h.joins d row, j.Separable := by
  have new := isAlias_target joinable hr
  intro j member
  cases h with
  | record field table =>
    rw [List.mem_singleton.mp member]
    exact ⟨joinable.2.source, new⟩
  | records field table =>
    simp only [joins, List.mem_cons, List.not_mem_nil, or_false] at member
    rcases member with rfl | rfl
    · exact ⟨isSource_columnElements d _, isAlias_elementAlias hr joinable.1⟩
    · exact ⟨joinable.2.source, new⟩
  | referrers segment field table multiple =>
    rw [List.mem_singleton.mp member]
    exact ⟨joinable.2.source, new⟩
  | elements field multiple =>
    rw [List.mem_singleton.mp member]
    exact ⟨isSource_columnElements d _, new⟩

theorem Route.separable_hopJoins {hops : List Hop} {row : String} (joinable : ∀ h ∈ hops, h.Joinable)
    (hr : IsAliasText row) (d : Dialect) : ∀ j ∈ hopJoins d row hops, j.Separable := by
  induction hops generalizing row with
  | nil => exact List.forall_mem_nil _
  | cons h rest ih =>
    have here := joinable h List.mem_cons_self
    intro j member
    rcases List.mem_append.mp member with first | later
    · exact Hop.separable_joins here hr d j first
    · exact ih (fun h member => joinable h (List.mem_cons_of_mem _ member)) (Hop.isAlias_target here hr).chars j later

theorem Route.separable_joins {r : Route} (root : r.root.Joinable) (hops : ∀ h ∈ r.hops, h.Joinable) (d : Dialect) :
    ∀ j ∈ r.joins d .primary, j.Separable := by
  intro j member
  rcases List.mem_append.mp member with first | later
  · exact Root.separable_joins root d j first
  · exact separable_hopJoins hops (Root.aliasText_aliasOn root) d j later

theorem Collection.Joinable.field {c : Collection} (h : c.Joinable) {name : String} {f : Field}
    (found : c.field? name = some f) : IsAliasText (identifier f.name) :=
  (h.fields f (List.mem_of_find?_eq_some found)).identifier.aliasText

theorem LeadsBy.joinable {cat : Catalog} {loaded loaded' : List Collection} {c next : Collection} {segment : String}
    {h : Hop} (link : LeadsBy cat loaded c segment h next loaded') (named : c.Joinable) (reached : next.Joinable) :
    h.Joinable := by
  cases link with
  | relation field =>
    split
    · exact ⟨named.field field, reached.name.identifier⟩
    · exact ⟨named.field field, reached.name.identifier⟩
  | referrer free parsed =>
    exact ⟨(Step.isWord_of_parse? parsed).identifier.aliasText, reached.name.identifier⟩

theorem Walk.joinable_ofLast {rules : WalkRules} {c : Collection} (named : c.Joinable) (loaded : List Collection)
    (last : String) : ∀ h ∈ (ofLast rules c loaded last).hops, h.Joinable := by
  unfold ofLast
  split
  · exact List.forall_mem_nil _
  · split
    · exact List.forall_mem_nil _
    · split
      · exact List.forall_mem_nil _
      · rename_i f field
        unfold ofField
        dsimp only
        split
        · exact List.forall_mem_nil _
        · exact List.forall_mem_singleton.mpr (named.field field)
        · exact List.forall_mem_nil _

namespace RecordScope

variable {s : RecordScope} {path : String} {c : Collection} {loaded : List Collection} {lenient showHidden : Bool}

theorem joinable_ofSegments {depth : Nat} {segments : List String} (named : ∀ c, s.Knows c → c.Joinable)
    (known : s.Knows c) (cached : ∀ c ∈ loaded, s.Knows c) :
    ∀ h ∈ (Walk.ofSegments (s.rules lenient showHidden) depth c loaded segments).hops, h.Joinable := by
  fun_induction Walk.ofSegments (s.rules lenient showHidden) depth c loaded segments with
  | case1 => exact List.forall_mem_nil _
  | case2 => exact Walk.joinable_ofLast (named _ known) _ _
  | case3 => exact List.forall_mem_nil _
  | case4 => exact List.forall_mem_nil _
  | case5 depth c loaded segment next rest _ _ first reached loaded' step ih =>
    have link := Step.ofSegment_eq_hop_iff.mp step
    obtain ⟨known', cached'⟩ := knows_of_leadsBy cached link
    intro h member
    rcases List.mem_cons.mp member with rfl | later
    · exact link.joinable (named c known) (named reached known')
    · exact ih known' cached' h later
  | case6 => exact List.forall_mem_nil _
  | case7 => exact List.forall_mem_nil _

inductive Routes (s : RecordScope) (path : List String) : Route → Prop where
  | items {name placeholder items : String} {multiple : Bool} {f : Field} (field : s.base.field? name = some f) :
    Routes s path ⟨.submittedItems (identifier f.name) placeholder items multiple, []⟩
  | walked {loaded : List Collection} {lenient showHidden : Bool} {root : Root} {c : Collection} {segments : List String}
    (enters : s.Enters path loaded lenient showHidden root c segments) :
    Routes s path ⟨root, (Walk.ofSegments (s.rules lenient showHidden) 0 c loaded segments).hops⟩

theorem StaticCourse.route {members : List String} {v : Visit} (course : s.StaticCourse members v) : v.route = none := by
  cases course <;> rfl

theorem Course.routes {path : List String} {v : Visit} (course : s.Course path v) {r : Route}
    (walked : v.route = some r) : s.Routes path r := by
  cases course with
  | walked enters =>
    cases walked
    exact .walked enters
  | static given reads course =>
    rw [course.route] at walked
    cases walked
  | items given split field several =>
    cases walked
    exact .items field
  | _ => cases walked

theorem routes_of_visit {r : Route} (walked : (s.visit path).route = some r) :
    RecordPath.isAllowed path ∧ s.Routes (Text.split '.' path) r := by
  rcases s.course_visit path with refused | ⟨allowed, course⟩
  · rw [refused] at walked
    cases walked
  · exact ⟨allowed, course.routes walked⟩

theorem isAlias_collectionAlias {name aliasName : String} (named : IsAlias name) (given : IsSegment aliasName) :
    IsAlias (collectionAlias name aliasName) := by
  unfold collectionAlias
  split
  · have whole : IsAlias ("__collection_" ++ name) := isAlias_append (by decide) (by decide) named.chars
    exact whole.identifier
  · rw [identifier_append]
    exact isAlias_append (by decide) (by decide) given.identifier.aliasText

theorem Enters.joinable {path segments : List String} {root : Root} (named : ∀ c, s.Knows c → c.Joinable)
    (parts : ∀ segment ∈ path.tail, IsSegment segment)
    (enters : s.Enters path loaded lenient showHidden root c segments) : root.Joinable := by
  have reached := (named c enters.knows.1).name
  cases enters with
  | base =>
    exact reached.identifier.chars
  | @collection segment next rest _ _ found =>
    exact ⟨reached.identifier, isAlias_collectionAlias reached (isSegment_splitCollection (parts segment (by simp)))⟩
  | auth => exact reached.identifier
  | submitted given split field =>
    exact ⟨reached, ((named s.base (.base rfl)).fields _ (List.mem_of_find?_eq_some field)).aliasText⟩

theorem separable_of_visit (named : ∀ c, s.Knows c → c.Joinable) (path : String) :
    ∀ j ∈ (s.visit path).joins s.settings.dialect, j.Separable := by
  intro j member
  cases walked : (s.visit path).route with
  | none =>
    rw [Visit.joins, walked] at member
    cases member
  | some r =>
    rw [Visit.joins, walked] at member
    obtain ⟨allowed, routes⟩ := routes_of_visit walked
    cases routes with
    | @items _ placeholder items multiple f field =>
      have root : (Root.submittedItems (identifier f.name) placeholder items multiple).Joinable :=
        (named s.base (.base rfl)).field field
      exact Route.separable_joins root (List.forall_mem_nil _) _ j member
    | walked enters =>
      obtain ⟨known, cached⟩ := enters.knows
      have root := enters.joinable named (RecordPath.segments_of_isAllowed allowed)
      exact Route.separable_joins root (joinable_ofSegments named known cached) _ j member

theorem knows_of_resolve (known : (resolve path s).2.Knows c) : s.Knows c := by
  cases known with
  | loaded member => exact (comes_visit path).knows c member
  | stored member => exact .stored member
  | base same => exact .base same
  | auth given authenticated same => exact .auth given authenticated same

theorem separable_registered (named : ∀ c, s.Knows c → c.Joinable) (paths : List String) :
    ∀ j ∈ registered paths s, j.Separable := by
  induction paths generalizing s with
  | nil => exact List.forall_mem_nil _
  | cons path rest ih =>
    intro j member
    rw [registered, visitEach, List.flatMap_cons] at member
    rcases List.mem_append.mp member with first | later
    · exact separable_of_visit named path j first
    · exact ih (fun c known => named c (knows_of_resolve known)) j later

def asLeftJoin (j : Join) : TableJoin := ⟨.left, j.table, some j.aliasName, some j.on⟩

theorem addJoin_of_separable {j : Join} (h : j.Separable) (q : Select) :
    addJoin q j = { q with joins := Select.putJoin (asLeftJoin j) q.joins } := by
  simp only [addJoin, Select.join, splitAlias_spaced h.table h.aliasName, h.table.trim, asLeftJoin]

theorem foldl_addJoin {joins : List Join} (h : ∀ j ∈ joins, j.Separable) (q : Select) :
    joins.foldl addJoin q =
      { q with joins := (joins.map asLeftJoin).foldl (fun joins new => Select.putJoin new joins) q.joins } := by
  induction joins generalizing q with
  | nil => rfl
  | cons j rest ih =>
    obtain ⟨first, others⟩ := List.forall_mem_cons.mp h
    rw [List.foldl_cons, ih others, addJoin_of_separable first]
    rfl

theorem update_of_separable (separable : ∀ j ∈ s.joins, j.Separable) (q : Select) :
    s.update q =
      { q with
        distinct := q.distinct || !s.joins.isEmpty
        joins := (s.joins.map asLeftJoin).foldl (fun joins new => Select.putJoin new joins) q.joins } := by
  unfold update
  cases joined : s.joins with
  | nil => simp
  | cons j rest =>
    rw [joined] at separable
    simp [foldl_addJoin separable]

theorem update_transfers {catalog : Catalog} {base : Collection} {request : Option Request} {settings : Settings}
    (named : ∀ c, (new catalog base request settings).Knows c → c.Joinable) (paths : List String) {q : Select}
    (unjoined : q.joins = []) :
    let s := resolveEach paths (new catalog base request settings)
    s.update q = { q with distinct := q.distinct || !s.joins.isEmpty, joins := s.joins.map asLeftJoin } ∧
      s.update (s.update q) = s.update q := by
  intro s
  have stored : s.joins = putJoins (registered paths (new catalog base request settings)) [] :=
    joins_resolveEach paths (new catalog base request settings)
  have separable : ∀ j ∈ s.joins, j.Separable := by
    intro j member
    rw [stored] at member
    exact separable_registered named paths j (mem_of_mem_putJoins member)
  have nodup : ((s.joins.map asLeftJoin).map TableJoin.reference).Nodup := by
    have references : (s.joins.map asLeftJoin).map TableJoin.reference = s.joins.map JoinOf.aliasName := by
      rw [List.map_map]
      rfl
    rw [references, stored]
    exact nodup_putJoins _
  have once : s.update q =
      { q with distinct := q.distinct || !s.joins.isEmpty, joins := s.joins.map asLeftJoin } := by
    rw [update_of_separable separable, unjoined, Select.foldl_putJoin_of_nodup nodup]
  refine ⟨once, ?_⟩
  rw [once, update_of_separable separable]
  simp only [Select.foldl_putJoin_of_subset nodup (List.Subset.refl _), Bool.or_assoc, Bool.or_self]

theorem joinable_new {catalog : Catalog} {base : Collection} {request : Option Request} {settings : Settings}
    (stored : ∀ c ∈ catalog.collections, c.Joinable) (own : base.Joinable)
    (auth : ∀ r, request = some r → ∀ a, r.auth = some a → a.collection.Joinable) :
    ∀ c, (new catalog base request settings).Knows c → c.Joinable := by
  intro c known
  cases known with
  | loaded member => exact List.mem_singleton.mp member ▸ own
  | stored member => exact stored c member
  | base same => exact same ▸ own
  | auth given authenticated same => exact same ▸ auth _ given _ authenticated

theorem update_transfers_dotted :
    let labels : Collection := { Blog.tags with name := "old-tags.v2" }
    let s := resolveEach ["tags.name", "@collection.old.id", "tags:each"] (new ⟨[Blog.posts, labels]⟩ Blog.posts none {})
    let q : Select := { dialect := .mysql, tables := ["posts"] }
    s.joins.map (fun j => (j.table, j.aliasName)) =
        [(Dialect.mysql.columnElements "posts.tags", "posts_tags_je"), ("old-tags.v2", "posts_tags")] ∧
      s.update q = { q with distinct := q.distinct || !s.joins.isEmpty, joins := s.joins.map asLeftJoin } ∧
      s.update (s.update q) = s.update q := by
  refine ⟨by decide +kernel, ?_⟩
  exact update_transfers (joinable_new (by decide) (by decide) fun _ given => by cases given) _ rfl

end RecordScope

end RelationFilter
