import RelationFilter.Proofs.Path.Registry

namespace RelationFilter

/-- What a join gives an alias to; `row` is the alias of the row that the step starts from. -/
inductive Link where
  | collection (table : String)
  | auth (table : String)
  | submitted (table field : String) (count : Nat)
  | items (field : String)
  | record (row field table : String)
  | records (row field table : String)
  | referrers (row segment field table : String) (multiple : Bool)
  | elements (row field : String)
deriving DecidableEq, Repr

def Root.links (r : Root) : List (String × Link) :=
  match r with
  | .base _ => []
  | .collection table _ => [(r.aliasOn .primary, .collection table)]
  | .auth table _ => [(r.aliasOn .primary, .auth table)]
  | .submitted source field ids _ =>
    [(r.aliasOn .primary, .submitted (identifier source) (identifier field) ids.length)]
  | .submittedItems field _ _ _ => [(r.aliasOn .primary, .items field)]

def Hop.links (row : String) (h : Hop) : List (String × Link) :=
  let new := h.target row
  match h with
  | .record field table => [(new, .record row field table)]
  | .records field table => [(Hop.elementAlias row field, .elements row field), (new, .records row field table)]
  | .referrers segment field table multiple => [(new, .referrers row segment field table multiple)]
  | .elements field _ => [(new, .elements row field)]

def hopLinks : (row : String) → List Hop → List (String × Link)
  | _, [] => []
  | row, h :: rest => h.links row ++ hopLinks (h.target row) rest

def Route.links (r : Route) : List (String × Link) := r.root.links ++ hopLinks (r.root.aliasOn .primary) r.hops

/-- The joins that give an alias to a link. They may differ in the values that they bind and in the number of a
placeholder. -/
inductive Link.Describes (d : Dialect) (a : String) : Link → Join → Prop where
  | collection {table : String} (ht : IsIdentifier table) : Describes d a (.collection table) ⟨table, a, always⟩
  | auth {table id : String} (ht : IsIdentifier table) :
    Describes d a (.auth table) ⟨table, a, .columnIs (a ++ ".id") (.string id)⟩
  | submitted {table field : String} {ids : List String} (ht : IsIdentifier table) (given : ids ≠ [])
      (named : a = "__data_" ++ table ++ "_" ++ field) :
    Describes d a (.submitted table field ids.length) ⟨table, a, .valueIn (a ++ ".id") (ids.map .string)⟩
  | items {field : String} {n : Nat} (named : a = "__dataEach_" ++ field ++ "_je") :
    Describes d a (.items field) ⟨d.boundElements (numbered "dataEach" n), a, always⟩
  | record {row field table : String} (ht : IsIdentifier table) (hr : IsIdentifier row) (hf : IsIdentifier field)
      (named : a = row ++ "_" ++ field) :
    Describes d a (.record row field table) ⟨table, a, .text (a ++ ".id = " ++ row ++ "." ++ field)⟩
  | records {row field table : String} (ht : IsIdentifier table) (hr : IsIdentifier row) (hf : IsIdentifier field)
      (named : a = row ++ "_" ++ field) :
    Describes d a (.records row field table) ⟨table, a, .text (a ++ ".id = " ++ Hop.elementAlias row field ++ ".value")⟩
  | referrers {row segment field table : String} {multiple : Bool} (ht : IsIdentifier table) (hr : IsIdentifier row)
      (hs : IsIdentifier segment) (other : segment ≠ "id") (hf : IsIdentifier field) (named : a = row ++ "_" ++ segment) :
    Describes d a (.referrers row segment field table multiple)
      ⟨table, a, .text (Hop.referrerCondition d row segment field multiple)⟩
  | elements {row field : String} (hr : IsIdentifier row) (hf : IsIdentifier field)
      (named : a = Hop.elementAlias row field) :
    Describes d a (.elements row field) ⟨d.columnElements (row ++ "." ++ field), a, always⟩

theorem Link.Describes.aliasName {d : Dialect} {a : String} {l : Link} {j : Join} (h : l.Describes d a j) :
    j.aliasName = a := by cases h <;> rfl

theorem identifier_append (a b : String) : identifier (a ++ b) = identifier a ++ identifier b := by
  rw [← String.toList_inj]
  simp [identifier]

theorem Root.describes_links {r : Root} (clean : r.Clean) (d : Dialect) :
    List.Forall₂ (fun p j => p.2.Describes d p.1 j) r.links (r.joins d .primary) := by
  cases r with
  | base table => exact .nil
  | collection table aliasName => exact .cons (.collection clean.1) .nil
  | auth table id => exact .cons (.auth clean) .nil
  | submitted source field ids multiple =>
    refine .cons (.submitted (isIdentifier_identifier source) clean ?_) .nil
    show identifier ("__data_" ++ source ++ "_" ++ field) = _
    rw [identifier_append, identifier_append, identifier_append]
    rfl
  | submittedItems field placeholder items multiple =>
    obtain ⟨-, n, rfl⟩ := clean
    exact .cons (.items rfl) .nil

theorem Hop.describes_links {h : Hop} (clean : h.Clean) (d : Dialect) {row : String} (hr : IsIdentifier row) :
    List.Forall₂ (fun p j => p.2.Describes d p.1 j) (h.links row) (h.joins d row) := by
  cases h with
  | record field table => exact .cons (.record clean.2 hr clean.1 rfl) .nil
  | records field table => exact .cons (.elements hr clean.1 rfl) (.cons (.records clean.2 hr clean.1 rfl) .nil)
  | referrers segment field table multiple =>
    exact .cons (.referrers clean.2.2.2 hr clean.1 clean.2.1 clean.2.2.1 rfl) .nil
  | elements field multiple => exact .cons (.elements hr clean rfl) .nil

theorem describes_hopLinks {hops : List Hop} (clean : ∀ h ∈ hops, h.Clean) (d : Dialect) {row : String}
    (hr : IsIdentifier row) :
    List.Forall₂ (fun p j => p.2.Describes d p.1 j) (hopLinks row hops) (Route.hopJoins d row hops) := by
  induction hops generalizing row with
  | nil => exact .nil
  | cons h rest ih =>
    have first := clean h List.mem_cons_self
    exact List.rel_append (Hop.describes_links first d hr)
      (ih (fun h member => clean h (List.mem_cons_of_mem _ member)) (Hop.isIdentifier_target first hr))

theorem Route.describes_links {r : Route} (clean : r.Clean) (d : Dialect) :
    List.Forall₂ (fun p j => p.2.Describes d p.1 j) r.links (r.joins d .primary) :=
  List.rel_append (Root.describes_links clean.root d)
    (describes_hopLinks clean.hops d (Root.isIdentifier_aliasOn clean.root .primary))

def Link.row? : Link → Option String
  | .collection _ | .auth _ | .submitted _ _ _ | .items _ => none
  | .record row _ _ | .records row _ _ | .referrers row _ _ _ _ | .elements row _ => some row

inductive Reaches (table : String) (links : List (String × Link)) : String → List Link → Prop where
  | base : Reaches table links table []
  | root {a : String} {l : Link} (there : (a, l) ∈ links) (first : l.row? = none) : Reaches table links a [l]
  | step {a row : String} {l : Link} {chain : List Link} (before : Reaches table links row chain)
      (there : (a, l) ∈ links) (next : l.row? = some row) : Reaches table links a (chain ++ [l])

/-- Links as they come along routes: aliases are identifiers, the records of a field with several ids come with the table
of its elements, and every link is at the end of a chain. -/
structure WellLinked (table : String) (links : List (String × Link)) : Prop where
  clean : ∀ p ∈ links, IsIdentifier p.1
  elements : ∀ a row field table, (a, Link.records row field table) ∈ links →
    (Hop.elementAlias row field, Link.elements row field) ∈ links
  reached : ∀ p ∈ links, ∃ chain, Reaches table links p.1 (chain ++ [p.2])

theorem Reaches.mono {table a : String} {links links' : List (String × Link)} {chain : List Link}
    (h : Reaches table links a chain) (more : ∀ p ∈ links, p ∈ links') : Reaches table links' a chain := by
  induction h with
  | base => exact .base
  | root there first => exact .root (more _ there) first
  | step _ there next ih => exact .step ih (more _ there) next

theorem WellLinked.flatMap {α : Type} {table : String} {xs : List α} {links : α → List (String × Link)}
    (each : ∀ x ∈ xs, WellLinked table (links x)) : WellLinked table (xs.flatMap links) := by
  refine ⟨?_, ?_, ?_⟩
  · intro p member
    obtain ⟨x, hx, hp⟩ := List.mem_flatMap.mp member
    exact (each x hx).clean p hp
  · intro a row field table member
    obtain ⟨x, hx, hp⟩ := List.mem_flatMap.mp member
    exact List.mem_flatMap.mpr ⟨x, hx, (each x hx).elements a row field table hp⟩
  · intro p member
    obtain ⟨x, hx, hp⟩ := List.mem_flatMap.mp member
    obtain ⟨chain, reached⟩ := (each x hx).reached p hp
    exact ⟨chain, reached.mono fun q hq => List.mem_flatMap.mpr ⟨x, hx, hq⟩⟩

theorem Hop.row?_of_mem_links {row : String} {h : Hop} {p : String × Link} (member : p ∈ h.links row) :
    p.2.row? = some row := by
  cases h <;> simp only [links, List.mem_cons, List.not_mem_nil, or_false] at member
  case records =>
    rcases member with rfl | rfl <;> rfl
  all_goals
    subst member
    rfl

theorem Hop.exists_target_mem_links (row : String) (h : Hop) : ∃ l, (h.target row, l) ∈ h.links row := by
  cases h <;> simp [links]

theorem Hop.isIdentifier_of_mem_links {row : String} {h : Hop} (clean : h.Clean) (hr : IsIdentifier row)
    {p : String × Link} (member : p ∈ h.links row) : IsIdentifier p.1 := by
  have target := Hop.isIdentifier_target clean hr
  cases h <;> simp only [links, List.mem_cons, List.not_mem_nil, or_false] at member
  case records =>
    rcases member with rfl | rfl
    · exact isIdentifier_elementAlias hr clean.1
    · exact target
  all_goals
    subst member
    exact target

theorem Hop.elements_mem_links {row a row' field table : String} {h : Hop}
    (member : (a, Link.records row' field table) ∈ h.links row) :
    (Hop.elementAlias row' field, Link.elements row' field) ∈ h.links row := by
  cases h <;> simp [links] at member ⊢
  obtain ⟨-, rfl, rfl, -⟩ := member
  simp

theorem wellLinked_hopLinks (table : String) {hops : List Hop} (clean : ∀ h ∈ hops, h.Clean) {row : String}
    (hr : IsIdentifier row) :
    (∀ p ∈ hopLinks row hops, IsIdentifier p.1) ∧
    (∀ a row' field table, (a, Link.records row' field table) ∈ hopLinks row hops →
      (Hop.elementAlias row' field, Link.elements row' field) ∈ hopLinks row hops) ∧
    ∀ links chain, Reaches table links row chain → (∀ p ∈ hopLinks row hops, p ∈ links) →
      ∀ p ∈ hopLinks row hops, ∃ chain, Reaches table links p.1 (chain ++ [p.2]) := by
  induction hops generalizing row with
  | nil => exact ⟨nofun, nofun, nofun⟩
  | cons h rest ih =>
    have first := clean h List.mem_cons_self
    obtain ⟨names, elements, reached⟩ :=
      ih (fun h member => clean h (List.mem_cons_of_mem _ member)) (Hop.isIdentifier_target first hr)
    simp only [hopLinks, List.mem_append]
    refine ⟨?_, ?_, ?_⟩
    · rintro p (here | later)
      · exact Hop.isIdentifier_of_mem_links first hr here
      · exact names p later
    · rintro a row' field table (here | later)
      · exact .inl (Hop.elements_mem_links here)
      · exact .inr (elements a row' field table later)
    · intro links chain start among
      have step : ∀ p ∈ h.links row, Reaches table links p.1 (chain ++ [p.2]) := fun p member =>
        .step start (among p (.inl member)) (Hop.row?_of_mem_links member)
      rintro p (here | later)
      · exact ⟨chain, step p here⟩
      · obtain ⟨l, target⟩ := Hop.exists_target_mem_links row h
        exact reached links _ (step _ target) (fun p member => among p (.inr member)) p later

theorem Route.wellLinked {r : Route} {table : String} (clean : r.Clean)
    (based : ∀ t, r.root = .base t → t = table) : WellLinked table r.links := by
  obtain ⟨names, elements, reached⟩ :=
    wellLinked_hopLinks table clean.hops (Root.isIdentifier_aliasOn clean.root .primary)
  have own : ∀ p ∈ r.root.links, p.1 = r.root.aliasOn .primary ∧ p.2.row? = none ∧
      ∀ row field table, p.2 ≠ .records row field table := by
    intro p member
    cases root : r.root <;> simp only [root, Root.links, List.mem_cons, List.not_mem_nil, or_false] at member
    all_goals
      subst member
      exact ⟨rfl, rfl, nofun⟩
  have start : ∃ chain, Reaches table r.links (r.root.aliasOn .primary) chain := by
    have first : r.root.links = [] → ∃ t, r.root = .base t := by
      cases r.root <;> simp [Root.links]
    cases shape : r.root.links with
    | nil =>
      obtain ⟨t, root⟩ := first shape
      rw [root, ← based t root]
      exact ⟨[], .base⟩
    | cons p rest =>
      have member : p ∈ r.root.links := by rw [shape]; exact List.mem_cons_self
      obtain ⟨named, none, -⟩ := own p member
      exact ⟨[p.2], named ▸ .root (List.mem_append_left _ member) none⟩
  refine ⟨?_, ?_, ?_⟩
  · intro p member
    rcases List.mem_append.mp member with root | hop
    · rw [(own p root).1]
      exact Root.isIdentifier_aliasOn clean.root .primary
    · exact names p hop
  · intro a row field table member
    rcases List.mem_append.mp member with root | hop
    · exact absurd rfl ((own _ root).2.2 row field table)
    · exact List.mem_append_right _ (elements a row field table hop)
  · intro p member
    rcases List.mem_append.mp member with root | hop
    · exact ⟨[], .root (List.mem_append_left _ root) (own p root).2.1⟩
    · obtain ⟨chain, begins⟩ := start
      exact reached _ chain begins (fun p member => List.mem_append_right _ member) p hop

namespace RecordScope

def Visit.links (v : Visit) : List (String × Link) := v.route.elim [] Route.links

def linked (paths : List String) (s : RecordScope) : List (String × Link) := (visitEach paths s).flatMap Visit.links

theorem describes_linked (paths : List String) (s : RecordScope) :
    List.Forall₂ (fun p j => p.2.Describes s.settings.dialect p.1 j) (linked paths s) (registered paths s) := by
  have each : ∀ vs : List Visit, (∀ v ∈ vs, ∀ r, v.route = some r → r.Clean) →
      List.Forall₂ (fun p j => p.2.Describes s.settings.dialect p.1 j) (vs.flatMap Visit.links)
        (vs.flatMap (Visit.joins s.settings.dialect)) := by
    intro vs clean
    induction vs with
    | nil => exact .nil
    | cons v rest ih =>
      refine List.rel_append ?_ (ih fun v member => clean v (List.mem_cons_of_mem _ member))
      cases route : v.route with
      | none => simp [Visit.links, Visit.joins, route]
      | some r =>
        simp only [Visit.links, Visit.joins, route, Option.elim_some]
        exact Route.describes_links (clean v List.mem_cons_self r route) _
  apply each
  intro v member r route
  obtain ⟨t, -, -, seen⟩ := visits_of_mem_visitEach member
  exact (seen.route route).1

theorem wellLinked_linked (paths : List String) (s : RecordScope) : WellLinked s.table (linked paths s) := by
  apply WellLinked.flatMap
  intro v member
  obtain ⟨t, base, -, seen⟩ := visits_of_mem_visitEach member
  cases route : v.route with
  | none =>
    simp only [Visit.links, route, Option.elim_none]
    exact ⟨nofun, nofun, nofun⟩
  | some r =>
    simp only [Visit.links, route, Option.elim_some]
    obtain ⟨clean, based⟩ := seen.route route
    apply Route.wellLinked clean
    intro table root
    rw [based table root, RecordScope.table, RecordScope.table, base]

end RecordScope
end RelationFilter
