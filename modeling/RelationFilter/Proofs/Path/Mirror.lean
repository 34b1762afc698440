import RelationFilter.Proofs.Blog
import RelationFilter.Proofs.Path.Visit

namespace RelationFilter

inductive AliasPiece where
  | fixed (text : String)
  | below (suffix : String)
  | elements (suffix field : String)

def AliasPiece.at (d : Dialect) (root : String) : AliasPiece → String
  | fixed text => text
  | below suffix => root ++ suffix
  | elements suffix field => d.columnElements (root ++ suffix ++ "." ++ field)

inductive TableShape where
  | named (table : String)
  | elements (suffix field : String)
  | items (placeholder : String)

def TableShape.at (d : Dialect) (side : Side) (root : String) : TableShape → String
  | named table => table
  | elements suffix field => d.columnElements (root ++ suffix ++ "." ++ field)
  | items placeholder => d.boundElements (Root.placeholder side placeholder)

inductive OnShape where
  | text (pieces : List AliasPiece)
  | id (value : Json)
  | ids (values : List Json)

def OnShape.at (d : Dialect) (root : String) : OnShape → Condition
  | text pieces => .text (String.join (pieces.map (AliasPiece.at d root)))
  | id value => .columnIs (root ++ ".id") value
  | ids values => .valueIn (root ++ ".id") values

/-- A join up to the root alias of its chain. -/
structure JoinShape where
  table : TableShape
  suffix : String
  on : OnShape

def JoinShape.at (d : Dialect) (side : Side) (root : String) (j : JoinShape) : Join :=
  ⟨j.table.at d side root, root ++ j.suffix, j.on.at d root⟩

def OnShape.always : OnShape := .text [.fixed "1=1"]

def Root.shapes : Root → List JoinShape
  | .base _ => []
  | .collection table _ => [⟨.named table, "", .always⟩]
  | .auth table id => [⟨.named table, "", .id (.string id)⟩]
  | .submitted source _ ids _ => [⟨.named (identifier source), "", .ids (ids.map .string)⟩]
  | .submittedItems _ placeholder _ _ => [⟨.items placeholder, "", .always⟩]

def Hop.shapes (row : String) (h : Hop) : List JoinShape :=
  let new := h.target row
  match h with
  | .record field table =>
    [⟨.named table, new, .text [.below new, .fixed ".id = ", .below row, .fixed ("." ++ field)]⟩]
  | .records field table =>
    let je := Hop.elementAlias row field
    [⟨.elements row field, je, .always⟩,
      ⟨.named table, new, .text [.below new, .fixed ".id = ", .below je, .fixed ".value"]⟩]
  | .referrers segment field table true =>
    let je := Hop.elementAlias row segment
    [⟨.named table, new,
      .text [.below row, .fixed ".id IN (SELECT ", .below je, .fixed ".value FROM ", .elements new field, .fixed " ",
        .below je, .fixed ")"]⟩]
  | .referrers _ field table false =>
    [⟨.named table, new, .text [.below new, .fixed ("." ++ field ++ " = "), .below row, .fixed ".id"]⟩]
  | .elements field _ => [⟨.elements row field, new, .always⟩]

def hopShapes : (row : String) → List Hop → List JoinShape
  | _, [] => []
  | row, h :: rest => h.shapes row ++ hopShapes (h.target row) rest

def Route.shapes (r : Route) : List JoinShape := r.root.shapes ++ hopShapes "" r.hops

theorem Hop.target_append (root row : String) (h : Hop) : h.target (root ++ row) = root ++ h.target row := by
  cases h <;> simp [target, elementAlias, String.append_assoc]

theorem Hop.elementAlias_append (root row field : String) :
    elementAlias (root ++ row) field = root ++ elementAlias row field := by
  simp [elementAlias, String.append_assoc]

theorem Hop.joins_eq (d : Dialect) (side : Side) (root row : String) (h : Hop) :
    h.joins d (root ++ row) = (h.shapes row).map (JoinShape.at d side root) := by
  cases h with
  | record field table =>
    simp [joins, shapes, JoinShape.at, TableShape.at, OnShape.at, AliasPiece.at, target_append, String.append_assoc]
  | records field table =>
    simp [joins, shapes, JoinShape.at, TableShape.at, OnShape.at, AliasPiece.at, target_append, elementAlias_append,
      OnShape.always, always, String.append_assoc]
  | referrers segment field table multiple =>
    cases multiple <;>
      simp [joins, shapes, JoinShape.at, TableShape.at, OnShape.at, AliasPiece.at, elementAlias_append,
        referrerCondition, target, String.append_assoc]
  | elements field multiple =>
    simp [joins, shapes, JoinShape.at, TableShape.at, OnShape.at, AliasPiece.at, target_append, OnShape.always, always]

theorem hopJoins_eq (d : Dialect) (side : Side) (root row : String) (hops : List Hop) :
    Route.hopJoins d (root ++ row) hops = (hopShapes row hops).map (JoinShape.at d side root) := by
  induction hops generalizing row with
  | nil => rfl
  | cons h rest ih => rw [Route.hopJoins, hopShapes, List.map_append, ← ih, ← Hop.target_append, ← Hop.joins_eq]

theorem Root.joins_eq (d : Dialect) (side : Side) (r : Root) :
    r.joins d side = r.shapes.map (JoinShape.at d side (r.aliasOn side)) := by
  cases r <;> simp [joins, shapes, JoinShape.at, TableShape.at, OnShape.at, AliasPiece.at, OnShape.always, always]

theorem Route.joins_eq (d : Dialect) (side : Side) (r : Route) :
    r.joins d side = r.shapes.map (JoinShape.at d side (r.root.aliasOn side)) := by
  have hops := hopJoins_eq d side (r.root.aliasOn side) "" r.hops
  rw [String.append_empty] at hops
  rw [joins, shapes, List.map_append, Root.joins_eq, hops]

theorem Route.aliasOn_eq (side : Side) (r : Route) : r.aliasOn side = r.root.aliasOn side ++ hopAlias "" r.hops := by
  have below : ∀ (hops : List Hop) (root row : String), hopAlias (root ++ row) hops = root ++ hopAlias row hops := by
    intro hops
    induction hops with
    | nil => exact fun _ _ => rfl
    | cons h rest ih =>
      intro root row
      rw [hopAlias, List.foldl_cons, Hop.target_append]
      exact ih root (h.target row)
  rw [aliasOn, ← below, String.append_empty]

theorem Root.bindings_copy (r : Root) :
    (r.bindings .copy).entries = (r.bindings .primary).entries.map fun e => ("mm" ++ e.1, e.2) := by
  cases r <;> rfl

namespace RecordScope

theorem Visits.chain {s : RecordScope} {v : Visit} (seen : s.Visits v) {o : Operand} {m : Chain}
    (reached : v.outcome = .ok o) (multi : o.chain = some m) :
    ∃ (r : Route) (a : Arrival), v.route = some r ∧ o.text = a.text s.settings.dialect (r.aliasOn .primary) ∧
      o.bindings = r.root.bindings .primary ∧ m = r.chain s.settings.dialect s.table a := by
  have ofRoute : ∀ (r : Route) (a : Arrival), r.operand s.settings.dialect s.table a = o →
      o.text = a.text s.settings.dialect (r.aliasOn .primary) ∧ o.bindings = r.root.bindings .primary ∧
        m = r.chain s.settings.dialect s.table a := by
    rintro r a rfl
    cases a <;> simp_all [Route.operand, Operand.null]
  cases seen with
  | stayed loaded outcome plain =>
    obtain ⟨text, rfl, -⟩ := plain o reached
    cases multi
  | bound value =>
    cases reached
    cases multi
  | walked r arrival loaded clean end_clean unbound based =>
    cases arrival with
    | error cause => cases reached
    | ok a => exact ⟨r, a, rfl, ofRoute r a (Except.ok.inj reached)⟩
  | items field items multiple clean => exact ⟨_, .element, rfl, ofRoute _ _ (Except.ok.inj reached)⟩

end RecordScope
end RelationFilter
