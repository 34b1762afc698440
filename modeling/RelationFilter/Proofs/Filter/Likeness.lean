import RelationFilter.Proofs.Blog
import RelationFilter.Proofs.Filter.Guard
import RelationFilter.Proofs.Filter.Pattern
import RelationFilter.Proofs.Path.Reads

namespace RelationFilter

def Operand.IsOwn (o : Operand) : Prop := ∀ e ∈ o.bindings.entries, o.text = ":" ++ e.1

theorem Operand.IsOwn.bound (name : String) (v : Json) : (Operand.bound name v).IsOwn := by
  intro e member
  rw [List.mem_singleton.mp member]
  rfl

theorem Operand.IsOwn.of_unbound {o : Operand} (unbound : o.bindings = Bindings.empty) : o.IsOwn := by
  intro e member
  rw [unbound] at member
  cases member

structure Operand.ListsItems (o : Operand) (items : String) : Prop where
  values : ∃ name, o.bindings = Bindings.single name (.string items)
  not_own : ∀ name, o.text ≠ ":" ++ name

theorem Operand.ListsItems.element (d : Dialect) (table field items : String) (multiple : Bool) (n : Nat) :
    ((itemsRoute field items multiple n).operand d table .element).ListsItems items := by
  refine ⟨⟨_, rfl⟩, ?_⟩
  intro name same
  have first := congrArg (fun text => text.toList.head?) same
  simp [Route.operand, Arrival.text, Route.aliasOn, Route.hopAlias, itemsRoute, Root.aliasOn] at first

def ChainOf.KeepsValues (d : Dialect) (m : Chain) : Prop :=
  ∀ b, ∀ e ∈ m.bindings.entries, (Condition.renderChain d m b).2.get? e.1 = some e.2

theorem ChainOf.KeepsValues.of_unbound (d : Dialect) {m : Chain} (unbound : m.bindings = Bindings.empty) :
    m.KeepsValues d := by
  intro b e member
  rw [unbound] at member
  cases member

theorem ChainOf.KeepsValues.items (d own : Dialect) (table field items : String) (multiple : Bool) (n : Nat) :
    ((itemsRoute field items multiple n).chain own table .element).KeepsValues d := by
  intro b e member
  rw [List.mem_singleton.mp member]
  -- The one join of the chain binds nothing.
  exact Bindings.get?_insert b _ _

namespace RecordScope

variable {s : RecordScope} {path : List String} {o : Operand}

theorem Reads.own_or_items (reads : s.Reads path o) : o.IsOwn ∨ ∃ f items, s.AsksEach path f items := by
  cases reads with
  | literal text path known => exact .inl (.of_unbound rfl)
  | value path v => exact .inl (.bound _ v)
  | items asks several => exact .inr ⟨_, _, asks⟩
  | walked enters arrived =>
    exact .inl (.of_unbound (Route.bindings_operand_of_unbound _ _ (enters.unbound .primary) _))

theorem Reads.chain_keepsValues (reads : s.Reads path o) {m : Chain} (chained : o.chain = some m) (d : Dialect) :
    m.KeepsValues d := by
  cases reads with
  | literal text path known => cases chained
  | value path v => cases chained
  | items asks several =>
    rw [Route.chain_operand chained]
    exact ChainOf.KeepsValues.items d _ _ _ _ _ _
  | walked enters arrived =>
    rw [Route.chain_operand chained]
    exact .of_unbound d (enters.unbound .copy)

theorem isAllowed_of_visit {path : String} (reached : (s.visit path).outcome = .ok o) : RecordPath.isAllowed path := by
  rcases s.course_visit path with refused | ⟨allowed, -⟩
  · rw [refused] at reached
    cases reached
  · exact allowed

theorem visit_of_asksEach {path : String} {f : Field} {items : List String} (allowed : RecordPath.isAllowed path)
    (asks : s.AsksEach (Text.split '.' path) f items) :
    ∃ o, (s.visit path).outcome = .ok o ∧ o.ListsItems (Json.ofStrings items).text := by
  rw [visit, if_pos allowed]
  revert asks
  generalize Text.split '.' path = segments
  rintro @⟨r, head, name, f, given, asked, field, arrayable⟩
  obtain ⟨multiple, several⟩ := Option.isSome_iff_exists.mp arrayable
  rw [(Course.items given asked field several).eq]
  exact ⟨_, rfl, .element s.settings.dialect s.table (identifier f.name) _ multiple s.counter⟩

/-- A visit binds at most one value, under the next number. -/
theorem Visits.names_operand {v : Visit} (seen : s.Visits v) (reached : v.outcome = .ok o) :
    o.bindings.names = [] ∨
      (∃ start ∈ ["f", "t", "dataEach"], o.bindings.names = [numbered start s.counter]) ∧ s.counter < v.counter := by
  cases seen with
  | stayed loaded outcome plain =>
    obtain ⟨text, rfl, -⟩ := plain o reached
    exact .inl rfl
  | bound value =>
    cases reached
    exact .inr ⟨⟨"t", by decide, rfl⟩, Nat.lt_succ_self _⟩
  | walked r arrival loaded clean end_clean unbound based =>
    cases arrival with
    | error cause => cases reached
    | ok a =>
      cases reached
      rw [Route.bindings_operand_of_unbound _ _ (unbound .primary)]
      exact .inl rfl
  | items field items multiple clean =>
    cases reached
    exact .inr ⟨⟨"dataEach", by decide, rfl⟩, Nat.lt_succ_self _⟩

end RecordScope

theorem numbered_number_inj {start start' : String} {m n : Nat} (known : start ∈ ["f", "t", "dataEach"])
    (known' : start' ∈ ["f", "t", "dataEach"]) (h : numbered start m = numbered start' n) : m = n := by
  have first := congrArg (fun name => name.toList.head?) h
  have same : start = start' := by
    simp only [List.mem_cons, List.not_mem_nil, or_false] at known known'
    rcases known with rfl | rfl | rfl <;> rcases known' with rfl | rfl | rfl <;> simp [numbered] at first ⊢
  rw [same] at h
  exact append_toString_inj h

def Term.AsksItems (s : RecordScope) (t : Term) (items : List String) : Prop :=
  ∃ path f, t = .identifier path ∧ RecordPath.isAllowed path ∧ s.AsksEach (Text.split '.' path) f items

theorem Term.asksItems_congr {s s' : RecordScope} {t : Term} {items : List String} (request : s'.request = s.request)
    (base : s'.base = s.base) : t.AsksItems s' items ↔ t.AsksItems s items := by
  have same (path : List String) (f : Field) : s'.AsksEach path f items ↔ s.AsksEach path f items := by
    constructor
    · rintro ⟨given, asked, field, arrayable⟩
      exact ⟨request ▸ given, asked, base ▸ field, arrayable⟩
    · rintro ⟨given, asked, field, arrayable⟩
      exact ⟨request ▸ given, asked, base ▸ field, arrayable⟩
  simp only [AsksItems, same]

theorem Instant.split_of_named? {now : Instant} {name : String} {v : Json} (h : now.named? name = some v) :
    Text.split '.' name = [name] := by
  unfold named? at h
  split at h
  all_goals first | rfl | cases h

namespace Term.Resolves

variable {now : Instant} {t : Term} {s s' : RecordScope} {o : Operand}

theorem request (h : t.Resolves now s o s') : s'.request = s.request := by
  cases h <;> rfl

theorem base (h : t.Resolves now s o s') : s'.base = s.base := by
  cases h <;> rfl

/-- A term binds at most one value, under the next number. -/
theorem names (h : t.Resolves now s o s') :
    o.bindings.names = [] ∨
      (∃ start ∈ ["f", "t", "dataEach"], o.bindings.names = [numbered start s.counter]) ∧ s.counter < s'.counter := by
  cases h with
  | value own => exact .inr ⟨⟨"f", by decide, rfl⟩, Nat.lt_succ_self _⟩
  | path shape none reached => exact (RecordScope.visits _).names_operand reached
  | word shape none failed plain => exact .inl rfl

theorem nodup_names (h : t.Resolves now s o s') : o.bindings.names.Nodup := by
  rcases h.names with none | ⟨⟨start, -, one⟩, -⟩
  · rw [none]
    exact List.nodup_nil
  · rw [one]
    exact List.nodup_singleton _

theorem disjoint_names {t' : Term} {u : RecordScope} {o' : Operand} (first : t.Resolves now s o s')
    (second : t'.Resolves now s' o' u) : o.bindings.names.Disjoint o'.bindings.names := by
  intro name inFirst inSecond
  rcases first.names with none | ⟨⟨start, known, one⟩, next⟩
  · rw [none] at inFirst
    cases inFirst
  · rcases second.names with none | ⟨⟨start', known', one'⟩, -⟩
    · rw [none] at inSecond
      cases inSecond
    · rw [one, List.mem_singleton] at inFirst
      rw [one', List.mem_singleton] at inSecond
      have same := numbered_number_inj known known' (inFirst.symm.trans inSecond)
      omega

theorem listsItems {items : List String} (h : t.Resolves now s o s') (asks : t.AsksItems s items) :
    o.ListsItems (Json.ofStrings items).text := by
  obtain ⟨path, f, rfl, allowed, each⟩ := asks
  obtain ⟨element, reached, lists⟩ := RecordScope.visit_of_asksEach allowed each
  cases h with
  | value own =>
    rw [Instant.split_of_named? own] at each
    nomatch each
  | path shape none outcome =>
    cases shape
    rw [reached] at outcome
    exact Except.ok.inj outcome ▸ lists
  | word shape none failed plain =>
    cases shape
    rw [reached] at failed
    cases failed

theorem isOwn (h : t.Resolves now s o s') (asks : ∀ items, ¬ t.AsksItems s items) : o.IsOwn := by
  cases h with
  | value own => exact .bound _ _
  | @path path o shape none reached =>
    rcases (RecordScope.reads_of_visit reached).own_or_items with own | ⟨f, items, each⟩
    · exact own
    · exact absurd ⟨path, f, shape, RecordScope.isAllowed_of_visit reached, each⟩ (asks items)
  | word shape none failed plain => exact .of_unbound rfl

theorem chain_keepsValues (h : t.Resolves now s o s') {m : Chain} (chained : o.chain = some m) (d : Dialect) :
    m.KeepsValues d := by
  cases h with
  | value own => cases chained
  | path shape none reached => exact (RecordScope.reads_of_visit reached).chain_keepsValues chained d
  | word shape none failed plain => cases chained

end Term.Resolves

def Operand.GuardsOnly (o : Operand) : Prop := ∀ g, o.guard = some g → ∃ row, g = Arrival.emailGuard row

theorem Route.guardsOnly_operand (d : Dialect) (table : String) (r : Route) (a : Arrival) :
    (r.operand d table a).GuardsOnly := by
  intro g guarded
  rw [Route.guard_operand] at guarded
  unfold Arrival.guard at guarded
  split at guarded
  · exact ⟨_, (Option.some.inj guarded).symm⟩
  · cases guarded

theorem RecordScope.Reads.guardsOnly {s : RecordScope} {path : List String} {o : Operand} (reads : s.Reads path o) :
    o.GuardsOnly := by
  cases reads with
  | literal text path known => exact nofun
  | value path v => exact nofun
  | items asks several => exact Route.guardsOnly_operand _ _ _ _
  | walked enters arrived => exact Route.guardsOnly_operand _ _ _ _

theorem Term.Resolves.guardsOnly {now : Instant} {t : Term} {s s' : RecordScope} {o : Operand}
    (h : t.Resolves now s o s') : o.GuardsOnly := by
  cases h with
  | value own => exact nofun
  | path shape none reached => exact (RecordScope.reads_of_visit reached).guardsOnly
  | word shape none failed plain => exact nofun

theorem Operand.GuardsOnly.bindings_render {o : Operand} (h : o.GuardsOnly) (d : Dialect) (c : Condition) (b : Bindings) :
    ((o.applyGuard c).render d b).2 = (c.render d b).2 := by
  unfold applyGuard
  split
  · rename_i g guarded
    obtain ⟨row, rfl⟩ := h g guarded
    rfl
  · rfl

/-- How a comparison is stated in a condition: as it is, or with the value of its chain in place of the side that has one. -/
inductive Leaf.IsStated (l : Leaf) (d : Dialect) : Condition → Prop where
  | plain : IsStated l d (l.plain d)
  | onChain {m : Chain} (chained : l.chain? = some m) : IsStated l d (l.onChain d m)

/-- Each value of the operands is bound as it is, but for the one that is the right side of the comparison. -/
def Leaf.KeepsValues (l : Leaf) (bound : Bindings) : Prop :=
  ∀ e ∈ l.left.bindings.entries ++ l.right.bindings.entries, l.right.text ≠ ":" ++ e.1 → bound.get? e.1 = some e.2

namespace Filter

variable {now : Instant} {s t : RecordScope} {left right : Term} {op : Comparator} {l : Leaf}

theorem bindings_render_of_isStated (resolved : resolveLeaf now left op right s = (.ok l, t)) {d : Dialect} {c : Condition}
    (stated : l.IsStated d c) (b : Bindings) :
    (c.render d b).2 = b.merge (l.left.bindings.merge (Comparison.rightBindings op.test l.right)) := by
  obtain ⟨rfl, u, first, second⟩ := resolveLeaf_cases resolved
  have bindings {x y : Operand} (hx : x.bindings = l.left.bindings) (hy : y.bindings = l.right.bindings) :
      ((Comparison.condition d l.op.test x y).render d b).2 =
        b.merge (l.left.bindings.merge (Comparison.rightBindings l.op.test l.right)) := by
    obtain ⟨sql, shape, -⟩ := Comparison.condition_eq d l.op.test x y
    rw [shape, Condition.render, hx, Comparison.rightBindings, hy]
    rfl
  cases stated with
  | plain =>
    have guardLeft := (resolveTerm_resolves first).guardsOnly
    have guardRight := (resolveTerm_resolves second).guardsOnly
    rw [Leaf.plain, guardRight.bindings_render, guardLeft.bindings_render]
    exact bindings rfl rfl
  | onChain chained =>
    unfold Leaf.onChain
    split
    · exact bindings rfl rfl
    · exact bindings rfl rfl

/-- Both operands' values are bound, those of the right one as the test takes them. -/
theorem get?_of_isStated (resolved : resolveLeaf now left op right s = (.ok l, t)) {d : Dialect} {c : Condition}
    (stated : l.IsStated d c) (b : Bindings) :
    (∀ e ∈ l.left.bindings.entries, (c.render d b).2.get? e.1 = some e.2) ∧
      ∀ e ∈ l.right.bindings.entries, (c.render d b).2.get? e.1 = some (op.test.bound e.2) := by
  obtain ⟨-, u, first, second⟩ := resolveLeaf_cases resolved
  have distinctLeft := (resolveTerm_resolves first).nodup_names
  have distinctRight : (Comparison.rightBindings op.test l.right).names.Nodup := by
    rw [Comparison.names_rightBindings]
    exact (resolveTerm_resolves second).nodup_names
  have apart := (resolveTerm_resolves first).disjoint_names (resolveTerm_resolves second)
  rw [bindings_render_of_isStated resolved stated]
  have found {name : String} {v : Json}
      (own : ((Comparison.rightBindings op.test l.right).get? name).or (l.left.bindings.get? name) = some v) :
      (b.merge (l.left.bindings.merge (Comparison.rightBindings op.test l.right))).get? name = some v := by
    rw [Bindings.get?_merge (Bindings.nodup_names_merge distinctLeft _), Bindings.get?_merge distinctRight, own]
    rfl
  constructor
  · intro e member
    apply found
    have other : (Comparison.rightBindings op.test l.right).get? e.1 = none := by
      refine Option.eq_none_iff_forall_ne_some.mpr fun v inRight => ?_
      have named := List.mem_map_of_mem (f := Prod.fst) (Bindings.mem_of_get? inRight)
      exact apart (List.mem_map_of_mem member) (Comparison.names_rightBindings op.test l.right ▸ named)
    rw [other, Option.none_or]
    exact Bindings.get?_of_mem distinctLeft member
  · intro e member
    apply found
    have inRight : (e.1, op.test.bound e.2) ∈ (Comparison.rightBindings op.test l.right).entries :=
      List.mem_map_of_mem member
    rw [Bindings.get?_of_mem distinctRight inRight]
    rfl

/-- What a test of likeness binds. The values of the left side and those of a chain are bound as they are, those of the right
side as patterns. A value that is no side of the comparison is kept just where the right side does not ask for submitted
items, or where their JSON text has a wildcard and is a pattern already. -/
theorem likeness_keeps_iff (resolved : resolveLeaf now left op right s = (.ok l, t))
    (test : op.test = .like ∨ op.test = .notLike) {d : Dialect} {c : Condition} (stated : l.IsStated d c) (b : Bindings) :
    let bound := (c.render d b).2
    (∀ e ∈ l.left.bindings.entries, bound.get? e.1 = some e.2) ∧
      (∀ e ∈ l.right.bindings.entries, bound.get? e.1 = some (LikePattern.ofValue e.2)) ∧
      (∀ m, l.chain? = some m → m.KeepsValues d) ∧
      (l.KeepsValues bound ↔
        ∀ items, right.AsksItems s items → LikePattern.HasWildcard (Json.ofStrings items).text.toList) := by
  intro bound
  have pattern : op.test.bound = LikePattern.ofValue := by rcases test with like | like <;> rw [like] <;> rfl
  obtain ⟨keptLeft, keptRight⟩ := get?_of_isStated resolved stated b
  rw [pattern] at keptRight
  obtain ⟨-, u, first, second⟩ := resolveLeaf_cases resolved
  have resolvesLeft := resolveTerm_resolves first
  have resolvesRight := resolveTerm_resolves second
  -- The right side is resolved in the scope that the left one leaves, which has the same request and base.
  have same (items : List String) : right.AsksItems u items ↔ right.AsksItems s items :=
    Term.asksItems_congr resolvesLeft.request resolvesLeft.base
  refine ⟨keptLeft, keptRight, ?_, ?_, ?_⟩
  · intro m chained
    rcases (Leaf.chain?_eq_some_iff.mp chained).side with ⟨ofLeft, -⟩ | ⟨-, ofRight⟩
    · exact resolvesLeft.chain_keepsValues ofLeft d
    · exact resolvesRight.chain_keepsValues ofRight d
  · intro keeps items asks
    obtain ⟨⟨name, values⟩, notOwn⟩ := resolvesRight.listsItems ((same items).mpr asks)
    have member : (name, .string (Json.ofStrings items).text) ∈ l.right.bindings.entries := by
      rw [values]
      exact List.mem_singleton_self _
    have asIs := keeps _ (List.mem_append_right _ member) (notOwn name)
    have asPattern := keptRight _ member
    rw [asIs, Option.some.injEq] at asPattern
    exact LikePattern.ofValue_string_eq_iff.mp asPattern.symm
  · intro wild e member other
    rcases List.mem_append.mp member with inLeft | inRight
    · exact keptLeft e inLeft
    · have asPattern := keptRight e inRight
      by_cases asks : ∃ items, right.AsksItems u items
      · obtain ⟨items, asks⟩ := asks
        obtain ⟨⟨name, values⟩, -⟩ := resolvesRight.listsItems asks
        rw [values] at inRight
        rw [List.mem_singleton.mp inRight] at asPattern ⊢
        rw [LikePattern.ofValue_string_eq_iff.mpr (wild items ((same items).mp asks))] at asPattern
        exact asPattern
      · exact absurd (resolvesRight.isOwn (not_exists.mp asks) e inRight) other

/-- Items on the left side, whose array is bound as it is for their table and for that of their chain. -/
theorem likeness_keeps_iff_leftItems :
    ∃ l t, resolveLeaf ⟨0, 0⟩ (.identifier "@request.data.tags:each") ⟨.like, false⟩ (.text "x") Blog.scope = (.ok l, t) ∧
      (∃ m, l.chain? = some m ∧ m.KeepsValues .mysql) ∧
      let bound := ((l.plain .mysql).render .mysql Bindings.empty).2
      bound.get? "dataEach0" = some (.string "[\"x\",\"y\"]") ∧ bound.get? "f1" = some (.string "%x%") ∧
        l.KeepsValues bound := by
  obtain ⟨l, t, resolved, inLeft, inRight, chained⟩ : ∃ l t,
      resolveLeaf ⟨0, 0⟩ (.identifier "@request.data.tags:each") ⟨.like, false⟩ (.text "x") Blog.scope = (.ok l, t) ∧
        l.left.bindings.entries = [("dataEach0", .string "[\"x\",\"y\"]")] ∧
        l.right.bindings.entries = [("f1", .string "x")] ∧ l.chain?.isSome := ⟨_, _, rfl, rfl, rfl, rfl⟩
  obtain ⟨keptLeft, patterns, chains, keeps⟩ := likeness_keeps_iff resolved (.inl rfl) (.plain (d := .mysql)) Bindings.empty
  obtain ⟨m, chain⟩ := Option.isSome_iff_exists.mp chained
  rw [inLeft] at keptLeft
  rw [inRight] at patterns
  refine ⟨l, t, resolved, ⟨m, chain, chains m chain⟩, keptLeft _ List.mem_cons_self, patterns _ List.mem_cons_self, ?_⟩
  refine keeps.mpr ?_
  rintro items ⟨path, f, shape, -⟩
  cases shape

/-- Items on the right side: the array of their table is bound as a pattern, which is no JSON text. -/
theorem likeness_not_keeps_items :
    ∃ l t, resolveLeaf ⟨0, 0⟩ (.identifier "title") ⟨.like, false⟩ (.identifier "@request.data.tags:each") Blog.scope =
        (.ok l, t) ∧
      l.right.text = "__dataEach_tags_je.value" ∧
      l.right.bindings.entries = [("dataEach0", .string "[\"x\",\"y\"]")] ∧
      let bound := ((l.plain .mysql).render .mysql Bindings.empty).2
      bound.get? "dataEach0" = some (.string "%[\"x\",\"y\"]%") ∧ Json.parse? "%[\"x\",\"y\"]%" = none ∧
        ¬ l.KeepsValues bound := by
  have unreadable : Json.parse? "%[\"x\",\"y\"]%" = none := by rfl
  refine ⟨_, _, rfl, rfl, rfl, rfl, unreadable, ?_⟩
  intro keeps
  have asIs : some (Json.string "%[\"x\",\"y\"]%") = some (.string "[\"x\",\"y\"]") :=
    keeps ("dataEach0", _) List.mem_cons_self (by decide +kernel)
  exact absurd (Json.string.inj (Option.some.inj asIs)) (by decide)

end Filter

end RelationFilter
