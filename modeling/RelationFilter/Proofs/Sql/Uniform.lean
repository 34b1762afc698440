import RelationFilter.Proofs.Sql.Template

namespace RelationFilter

open Sql

namespace Bindings

/-- Names of the form of a slot are not used, and no name has two values. -/
structure Proper (own : List (String × Json)) : Prop where
  named : ∀ e ∈ own, ∀ n, e.1 ≠ slot n
  single : ∀ e ∈ own, ∀ e' ∈ own, e.1 = e'.1 → e.2 = e'.2

def Agrees (own : List (String × Json)) (b : Bindings) : Prop := ∀ e ∈ own, ∀ x ∈ b.entries, x.1 = e.1 → x.2 = e.2

structure Grows (own slots : List (String × Json)) (b more : Bindings) : Prop where
  kept : b.entries <+: more.entries
  fresh : ∀ s ∈ slots, (∃ n, s.1 = slot n) ∧ s.1 ∉ b.names
  distinct : (slots.map Prod.fst).Nodup
  bound : ∀ e ∈ own ++ slots, more.get? e.1 = some e.2
  added : ∀ e ∈ more.entries, e ∈ b.entries ∨ e ∈ own ++ slots

theorem Proper.mono {own all : List (String × Json)} (proper : Proper all) (part : own ⊆ all) : Proper own where
  named := fun e member => proper.named e (part member)
  single := fun e member e' member' => proper.single e (part member) e' (part member')

variable {own more slots others : List (String × Json)} {b c e : Bindings}

theorem Grows.refl (b : Bindings) : Grows [] [] b b where
  kept := List.prefix_refl _
  fresh := by simp
  distinct := .nil
  bound := by simp
  added := fun _ member => .inl member

theorem mem_names_of_get? {name : String} {v : Json} (found : b.get? name = some v) : name ∈ b.names :=
  List.mem_map_of_mem (mem_of_get? found)

theorem nodup_keys_append (distinct : (slots.map Prod.fst).Nodup) (distinct' : (others.map Prod.fst).Nodup)
    (apart : ∀ s ∈ slots, ∀ s' ∈ others, s.1 ≠ s'.1) : ((slots ++ others).map Prod.fst).Nodup := by
  rw [List.map_append, List.nodup_append]
  refine ⟨distinct, distinct', ?_⟩
  intro name first other second
  obtain ⟨s, inFirst, rfl⟩ := List.mem_map.mp first
  obtain ⟨s', inSecond, rfl⟩ := List.mem_map.mp second
  exact apart s inFirst s' inSecond

theorem Grows.trans (h : Grows own slots b c) (h' : Grows more others c e) :
    Grows (own ++ more) (slots ++ others) b e where
  kept := h.kept.trans h'.kept
  fresh := by
    intro s member
    rcases List.mem_append.mp member with first | second
    · exact h.fresh s first
    · obtain ⟨numbered, free⟩ := h'.fresh s second
      exact ⟨numbered, fun taken => free ((h.kept.map Prod.fst).subset taken)⟩
  distinct := by
    apply nodup_keys_append h.distinct h'.distinct
    intro s inFirst s' inSecond same
    apply (h'.fresh s' inSecond).2
    rw [← same]
    exact mem_names_of_get? (h.bound s (List.mem_append_right _ inFirst))
  bound := by
    intro x member
    have parts : x ∈ own ++ slots ∨ x ∈ more ++ others := by
      simp only [List.mem_append] at member ⊢
      tauto
    rcases parts with first | second
    · exact get?_of_prefix h'.kept (h.bound x first)
    · exact h'.bound x second
  added := by
    intro x member
    simp only [List.mem_append]
    rcases h'.added x member with earlier | second
    · rcases h.added x earlier with before | first
      · exact .inl before
      · rw [List.mem_append] at first
        tauto
    · rw [List.mem_append] at second
      tauto

/-- A fresh slot comes last. -/
theorem grows_bind (b : Bindings) (v : Json) : Grows [] [(b.freeSlot, v)] b (b.insert b.freeSlot v) where
  kept := by
    rw [entries_insert v b.freeSlot_not_mem]
    exact List.prefix_append _ _
  fresh := by
    intro s member
    rw [List.mem_singleton.mp member]
    exact ⟨⟨_, rfl⟩, b.freeSlot_not_mem⟩
  distinct := List.nodup_singleton _
  bound := by
    intro s member
    rw [List.mem_singleton.mp member]
    exact get?_insert b _ v
  added := by
    intro x member
    rw [entries_insert v b.freeSlot_not_mem] at member
    exact List.mem_append.mp member

theorem insert_bound {name : String} {v : Json} (found : b.get? name = some v) : b.insert name v = b := by
  obtain ⟨entries⟩ := b
  show Bindings.mk (put name v entries) = _
  congr
  unfold get? at found
  induction entries with
  | nil => cases found
  | cons x rest ih =>
    by_cases same : x.1 = name
    · simp only [same, List.find?_cons_of_pos, decide_true, Option.map_some, Option.some.injEq] at found
      rw [put, if_pos same, ← same, ← found]
    · rw [List.find?_cons_of_neg (by simpa using same)] at found
      rw [put, if_neg same, ih found]

theorem grows_insert {x : String × Json} (agrees : Agrees [x] b) : Grows [x] [] b (b.insert x.1 x.2) := by
  have bound : ∀ y ∈ [x] ++ [], (b.insert x.1 x.2).get? y.1 = some y.2 := by
    intro y member
    rw [List.mem_singleton.mp member]
    exact get?_insert b _ _
  cases there : b.get? x.1 with
  | none =>
    have entries := entries_insert x.2 (get?_eq_none there)
    refine ⟨?_, by simp, .nil, bound, ?_⟩
    · rw [entries]
      exact List.prefix_append _ _
    · intro y member
      rw [entries] at member
      exact List.mem_append.mp member
  | some v =>
    have same : v = x.2 := agrees x List.mem_cons_self _ (mem_of_get? there) rfl
    have nothing := insert_bound (same ▸ there)
    refine ⟨?_, by simp, .nil, bound, ?_⟩
    · have kept : (b.insert x.1 x.2).entries = b.entries := congrArg Bindings.entries nothing
      exact kept ▸ List.prefix_refl _
    · intro y member
      rw [nothing] at member
      exact .inl member

/-- Fresh slots and entries of a proper `own` do not get in the way of its other entries. -/
theorem Agrees.grows {all : List (String × Json)} (agrees : Agrees all b) (proper : Proper all) (part : own ⊆ all)
    (h : Grows own slots b c) : Agrees all c := by
  intro x inAll y there same
  rcases h.added y there with before | new
  · exact agrees x inAll y before same
  · rcases List.mem_append.mp new with inOwn | inSlots
    · exact proper.single y (part inOwn) x inAll same
    · obtain ⟨n, numbered⟩ := (h.fresh y inSlots).1
      exact absurd (same.symm.trans numbered) (proper.named x inAll n)

theorem Agrees.mono {all : List (String × Json)} (agrees : Agrees all b) (part : own ⊆ all) : Agrees own b :=
  fun x member => agrees x (part member)

theorem grows_merge {own : Bindings} (proper : Proper own.entries) (agrees : Agrees own.entries b) :
    Grows own.entries [] b (b.merge own) := by
  obtain ⟨entries⟩ := own
  induction entries generalizing b with
  | nil => exact .refl b
  | cons x rest ih =>
    have first : Grows [x] [] b (b.insert x.1 x.2) := grows_insert (agrees.mono (by simp))
    have after : Agrees (x :: rest) (b.insert x.1 x.2) := agrees.grows proper (by simp) first
    have rest_part : rest ⊆ x :: rest := List.subset_cons_self _ _
    exact first.trans (ih (proper.mono rest_part) (after.mono rest_part))

/-- Holds of no step, of a value that is bound, of a merge, and of one step after the other. What does so holds of every
rendering (`Condition.render_realizes`). -/
structure Stepwise (R : (own slots : List (String × Json)) → (b more : Bindings) → Prop) : Prop where
  refl (b : Bindings) : R [] [] b b
  bind (b : Bindings) (v : Json) : R [] [(b.freeSlot, v)] b (b.insert b.freeSlot v)
  merge (b own : Bindings) : R own.entries [] b (b.merge own)
  trans {own slots more others : List (String × Json)} {b c e : Bindings} (first : R own slots b c)
    (second : R more others c e) : R (own ++ more) (slots ++ others) b e

theorem stepwise_grows {all : List (String × Json)} (proper : Proper all) :
    Stepwise fun own slots b more => own ⊆ all → Agrees all b → Grows own slots b more ∧ Agrees all more where
  refl b _ agrees := ⟨.refl b, agrees⟩
  bind b v _ agrees := ⟨grows_bind b v, agrees.grows proper (List.nil_subset _) (grows_bind b v)⟩
  merge b own part agrees := by
    have merged := grows_merge (proper.mono part) (agrees.mono part)
    exact ⟨merged, agrees.grows proper part merged⟩
  trans first second part agrees := by
    obtain ⟨here, later⟩ := List.append_subset.mp part
    obtain ⟨grows, agrees'⟩ := first here agrees
    obtain ⟨grows', agrees''⟩ := second later agrees'
    exact ⟨grows.trans grows', agrees''⟩

end Bindings

open Bindings

mutual

/-- The values that the condition brings under names of its own. -/
def Condition.own : Condition → List (String × Json)
  | .raw _ own => own.entries
  | .all parts => ownAll parts
  | .any parts => ownAll parts
  | .columns pairs => ownColumns pairs
  | .oneOf _ values _ => ownEntries values
  | .existence inner _ => inner.own
  | .negation inner => inner.own
  | .enclosed inner => inner.own
  | .chainValues chain => if chain.isComplete then ownChain chain else []
  | .chainRow chain conditions => if chain.isRooted then ownChain chain ++ ownAll conditions else []

def ownAll : List Condition → List (String × Json)
  | [] => []
  | c :: rest => c.own ++ ownAll rest

def ownColumns : List (String × EntryOf Condition) → List (String × Json)
  | [] => []
  | (_, .value _) :: rest => ownColumns rest
  | (_, .condition c) :: rest => c.own ++ ownColumns rest

def ownEntries : List (EntryOf Condition) → List (String × Json)
  | [] => []
  | .value _ :: rest => ownEntries rest
  | .condition c :: rest => c.own ++ ownEntries rest

def ownChain : ChainOf Condition → List (String × Json)
  | ⟨_, _, _, _, joins, own⟩ => own.entries ++ ownJoins joins

def ownJoins : List (JoinOf Condition) → List (String × Json)
  | [] => []
  | ⟨_, _, on⟩ :: rest => on.own ++ ownJoins rest

end

mutual

def Condition.template (d : Dialect) : Condition → Template
  | .raw sql _ => [.text sql]
  | .all parts => Template.combine "AND" (templateAll d parts)
  | .any parts => Template.combine "OR" (templateAll d parts)
  | .columns pairs => List.intercalate [.text " AND "] (templateColumns d pairs)
  | .oneOf column values negated => Template.membership d column (templateEntries d values) negated
  | .existence inner negated => (inner.template d).existence negated
  | .negation inner => (inner.template d).negation
  | .enclosed inner => (inner.template d).enclose
  | .chainValues chain =>
    if chain.isComplete then
      .text ("SELECT " ++ d.quoteColumn chain.value ++ " AS " ++ d.quoteColumnPart "multiMatchValue" ++ " ") ::
        templateChain d chain
    else [.text "0=1"]
  | .chainRow chain conditions =>
    if chain.isRooted then
      .text "EXISTS (SELECT 1 " :: (templateChain d chain ++ Template.rowConditions (templateAll d conditions)) ++
        [.text ")"]
    else [.text "0=1"]

def templateAll (d : Dialect) : List Condition → List Template
  | [] => []
  | c :: rest => c.template d :: templateAll d rest

def templateColumns (d : Dialect) : List (String × EntryOf Condition) → List Template
  | [] => []
  | (column, .value v) :: rest => Template.columnValue d column v :: templateColumns d rest
  | (_, .condition c) :: rest =>
    if (c.template d).isEmpty then templateColumns d rest
    else (.text "(" :: c.template d ++ [.text ")"]) :: templateColumns d rest

def templateEntries (d : Dialect) : List (EntryOf Condition) → List Template
  | [] => []
  | .value v :: rest => Template.listValue v :: templateEntries d rest
  | .condition c :: rest => c.template d :: templateEntries d rest

def templateChain (d : Dialect) : ChainOf Condition → Template
  | ⟨baseAlias, fromTable, fromAlias, value, joins, own⟩ =>
    Template.chainSource d (ChainOf.mk baseAlias fromTable fromAlias value joins own) (templateJoins d joins)

def templateJoins (d : Dialect) : List (JoinOf Condition) → List Template
  | [] => []
  | ⟨table, aliasName, on⟩ :: rest => Template.leftJoin d table aliasName (on.template d) :: templateJoins d rest

end

/-- What rendering from `b` gives for a template: its text with a slot for each value, and bindings that `R` has after
`b`. -/
def Realizes (R : List (String × Json) → List (String × Json) → Bindings → Bindings → Prop) (t : Template)
    (own : List (String × Json)) (b : Bindings) (r : String × Bindings) : Prop :=
  ∃ slots, Fills t slots r.1 ∧ R own slots b r.2

def RealizesAll (R : List (String × Json) → List (String × Json) → Bindings → Bindings → Prop) (ts : List Template)
    (own : List (String × Json)) (b : Bindings) (r : List String × Bindings) : Prop :=
  ∃ slots, FillsAll ts slots r.1 ∧ R own slots b r.2

section

variable {R : List (String × Json) → List (String × Json) → Bindings → Bindings → Prop} (steps : Stepwise R)

include steps

theorem RealizesAll.nil (b : Bindings) : RealizesAll R [] [] b ([], b) := ⟨[], .nil, steps.refl b⟩

theorem RealizesAll.cons {t : Template} {ts : List Template} {own more : List (String × Json)} {b : Bindings}
    {first : String × Bindings} {others : List String × Bindings} (h : Realizes R t own b first)
    (h' : RealizesAll R ts more first.2 others) :
    RealizesAll R (t :: ts) (own ++ more) b (first.1 :: others.1, others.2) := by
  obtain ⟨slots, text, grows⟩ := h
  obtain ⟨later, texts, more⟩ := h'
  exact ⟨slots ++ later, .cons text texts, steps.trans grows more⟩

theorem realizes_text (s : String) (b : Bindings) : Realizes R [.text s] [] b (s, b) := ⟨[], .ofText s, steps.refl b⟩

namespace Sql

theorem realizes_listValue (v : Json) (b : Bindings) : Realizes R (Template.listValue v) [] b (listValue v b) := by
  unfold Template.listValue listValue
  split
  · exact realizes_text steps "NULL" b
  · exact ⟨_, .slot b.freeSlot v, steps.bind b v⟩

theorem realizes_listValues (vs : List Json) (b : Bindings) :
    RealizesAll R (vs.map Template.listValue) [] b (listValues vs b) := by
  induction vs generalizing b with
  | nil => exact .nil steps b
  | cons v rest ih => exact .cons steps (realizes_listValue steps v b) (ih _)

theorem realizes_columnValue (d : Dialect) (column : String) (v : Json) (b : Bindings) :
    Realizes R (Template.columnValue d column v) [] b (columnValue d column v b) := by
  unfold columnValue
  split
  · exact realizes_text steps _ b
  · rename_i items
    obtain ⟨slots, values, grows⟩ := realizes_listValues steps items b
    exact ⟨slots, fills_membership d column values false, grows⟩
  · rename_i other notNull notArray
    have shape : Template.columnValue d column v = [.text (d.quoteColumn column ++ " = "), .value v] := by
      unfold Template.columnValue
      split
      · exact absurd rfl notNull
      · rename_i items
        exact absurd rfl (notArray items)
      · rfl
    rw [shape]
    refine ⟨_, ?_, steps.bind b v⟩
    have parts : " = :" = " = " ++ ":" := rfl
    rw [parts]
    simpa only [String.append_assoc] using Fills.text (d.quoteColumn column ++ " = ") (.slot b.freeSlot v)

end Sql

end

namespace Condition

open Sql

section

variable {R : List (String × Json) → List (String × Json) → Bindings → Bindings → Prop} (d : Dialect)
  (steps : Stepwise R)

include steps

mutual

theorem render_realizes (c : Condition) (b : Bindings) : Realizes R (c.template d) c.own b (c.render d b) := by
  match c with
  | .raw sql own => exact ⟨[], .ofText sql, steps.merge b own⟩
  | .all parts =>
    obtain ⟨slots, texts, grows⟩ := renderAll_realizes parts b
    exact ⟨slots, fills_combine "AND" texts, grows⟩
  | .any parts =>
    obtain ⟨slots, texts, grows⟩ := renderAll_realizes parts b
    exact ⟨slots, fills_combine "OR" texts, grows⟩
  | .columns pairs =>
    obtain ⟨slots, texts, grows⟩ := renderColumns_realizes pairs b
    exact ⟨slots, texts.intercalate " AND ", grows⟩
  | .oneOf column values negated =>
    obtain ⟨slots, texts, grows⟩ := renderEntries_realizes values b
    exact ⟨slots, fills_membership d column texts negated, grows⟩
  | .existence inner negated =>
    obtain ⟨slots, text, grows⟩ := render_realizes inner b
    exact ⟨slots, fills_existence text negated, grows⟩
  | .negation inner =>
    obtain ⟨slots, text, grows⟩ := render_realizes inner b
    exact ⟨slots, fills_negation text, grows⟩
  | .enclosed inner =>
    obtain ⟨slots, text, grows⟩ := render_realizes inner b
    exact ⟨slots, fills_enclose text, grows⟩
  | .chainValues chain =>
    simp only [template, own, render]
    split
    · obtain ⟨slots, text, grows⟩ := renderChain_realizes chain b
      exact ⟨slots, .text _ text, grows⟩
    · exact realizes_text steps "0=1" b
  | .chainRow chain conditions =>
    simp only [template, own, render]
    split
    · obtain ⟨slots, source, grows⟩ := renderChain_realizes chain b
      obtain ⟨later, texts, more⟩ := renderAll_realizes conditions (renderChain d chain b).2
      refine ⟨slots ++ later, ?_, steps.trans grows more⟩
      have row := source.append (fills_rowConditions texts)
      simpa only [String.append_assoc] using row.between "EXISTS (SELECT 1 " ")"
    · exact realizes_text steps "0=1" b

theorem renderAll_realizes (cs : List Condition) (b : Bindings) :
    RealizesAll R (templateAll d cs) (ownAll cs) b (renderAll d cs b) := by
  match cs with
  | [] => exact .nil steps b
  | c :: rest => exact .cons steps (render_realizes c b) (renderAll_realizes rest _)

theorem renderColumns_realizes (pairs : List (String × EntryOf Condition)) (b : Bindings) :
    RealizesAll R (templateColumns d pairs) (ownColumns pairs) b (renderColumns d pairs b) := by
  match pairs with
  | [] => exact .nil steps b
  | (column, .value v) :: rest =>
    exact .cons steps (realizes_columnValue steps d column v b) (renderColumns_realizes rest _)
  | (_, .condition c) :: rest =>
    obtain ⟨slots, text, grows⟩ := render_realizes c b
    have others := renderColumns_realizes rest (c.render d b).2
    simp only [templateColumns, ownColumns, renderColumns]
    by_cases empty : (c.template d).isEmpty = true
    · rw [if_pos empty, if_pos (text.eq_empty_iff.mpr empty)]
      obtain ⟨more, texts, grows'⟩ := others
      have nothing := text.slots_eq_nil empty
      subst nothing
      exact ⟨more, texts, steps.trans grows grows'⟩
    · rw [if_neg empty, if_neg fun same => empty (text.eq_empty_iff.mp same)]
      have first : Realizes R (.text "(" :: c.template d ++ [.text ")"]) c.own b
          ("(" ++ (c.render d b).1 ++ ")", (c.render d b).2) := ⟨slots, text.between "(" ")", grows⟩
      exact .cons steps first others

theorem renderEntries_realizes (values : List (EntryOf Condition)) (b : Bindings) :
    RealizesAll R (templateEntries d values) (ownEntries values) b (renderEntries d values b) := by
  match values with
  | [] => exact .nil steps b
  | .value v :: rest => exact .cons steps (realizes_listValue steps v b) (renderEntries_realizes rest _)
  | .condition c :: rest => exact .cons steps (render_realizes c b) (renderEntries_realizes rest _)

theorem renderChain_realizes (m : ChainOf Condition) (b : Bindings) :
    Realizes R (templateChain d m) (ownChain m) b (renderChain d m b) := by
  match m with
  | ⟨baseAlias, fromTable, fromAlias, value, joins, own⟩ =>
    obtain ⟨slots, texts, grows⟩ := renderJoins_realizes joins (b.merge own)
    exact ⟨slots, fills_chainSource d _ texts, steps.trans (steps.merge b own) grows⟩

theorem renderJoins_realizes (joins : List (JoinOf Condition)) (b : Bindings) :
    RealizesAll R (templateJoins d joins) (ownJoins joins) b (renderJoins d joins b) := by
  match joins with
  | [] => exact .nil steps b
  | ⟨table, aliasName, on⟩ :: rest =>
    obtain ⟨slots, text, grows⟩ := render_realizes on b
    have first : Realizes R (Template.leftJoin d table aliasName (on.template d)) on.own b
        (leftJoin d table aliasName (on.render d b).1, (on.render d b).2) :=
      ⟨slots, fills_leftJoin d table aliasName text, grows⟩
    exact .cons steps first (renderJoins_realizes rest _)

end

end

/-- From all bindings that have no name of the condition, rendering fills one and the same template. Each of its values
gets a fresh slot, slots are distinct, and what was bound keeps its place and value. -/
theorem render_uniform (d : Dialect) (c : Condition) (proper : Proper c.own) :
    ∃ t : Template, ∀ b : Bindings, (∀ e ∈ c.own, e.1 ∉ b.names) →
      ∃ slots, Fills t slots (c.render d b).1 ∧ Grows c.own slots b (c.render d b).2 := by
  refine ⟨c.template d, ?_⟩
  intro b absent
  have agrees : Agrees c.own b := by
    intro e member x there same
    exact absurd (List.mem_map_of_mem there) (same ▸ absent e member)
  obtain ⟨slots, text, grows⟩ := render_realizes d (stepwise_grows proper) c b
  exact ⟨slots, text, (grows (List.Subset.refl _) agrees).1⟩

def mixed : Condition :=
  let link : Join := ⟨"tags", "u", .raw "u.id = :f0" ⟨[("f0", .int 7)]⟩⟩
  let row : Condition := .chainRow ⟨"posts", "posts", "m", "u.id", [link], Bindings.empty⟩
    [.raw "a > :t0" ⟨[("t0", .int 5)]⟩, .columnIs "n" (.int 3)]
  .all [.raw "a > :t0" ⟨[("t0", .int 5)]⟩, .valueIn "b" [.int 1, .null, .int 2], .negation row, .all []]

theorem render_uniform_mixed :
    Proper mixed.own ∧
      (mixed.render .sqlite ⟨[("x", .int 0), ("p2", .int 9)]⟩).1 =
        "(a > :t0) AND (\"b\" IN (:p3, NULL, :p4)) AND (NOT (EXISTS (SELECT 1 FROM \"posts\" AS \"m\" " ++
          "LEFT JOIN \"tags\" AS \"u\" ON u.id = :f0 WHERE \"m\".\"id\" = \"posts\".\"id\" " ++
          "AND (a > :t0) AND (\"n\" = :p6))))" ∧
      ∃ t : Template, ∀ b : Bindings, (∀ e ∈ mixed.own, e.1 ∉ b.names) →
        ∃ slots, Fills t slots (mixed.render .sqlite b).1 ∧ Grows mixed.own slots b (mixed.render .sqlite b).2 := by
  have own : mixed.own = [("t0", .int 5), ("f0", .int 7), ("t0", .int 5)] := rfl
  have proper : Proper mixed.own := by
    rw [own]
    refine ⟨?_, by simp⟩
    intro e member n same
    have letter : e.1.toList.head? = some 'p' := by
      rw [same, slot, String.toList_append]
      rfl
    have other : ∀ e ∈ [("t0", Json.int 5), ("f0", .int 7), ("t0", .int 5)], e.1.toList.head? ≠ some 'p' := by decide
    exact other e member letter
  exact ⟨proper, by decide +kernel, render_uniform .sqlite mixed proper⟩

end Condition

end RelationFilter
