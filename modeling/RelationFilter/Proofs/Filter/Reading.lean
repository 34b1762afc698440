import RelationFilter.Filter.Compile
import RelationFilter.Proofs.Blog
import RelationFilter.Proofs.Filter.Formula

namespace RelationFilter

mutual

def FilterNode.comparisons : FilterNode → List (Term × Comparator × Term)
  | .comparison left op right => [(left, op, right)]
  | .group nodes => Filter.comparisons nodes

def Filter.comparisons : List (Conjunction × FilterNode) → List (Term × Comparator × Term)
  | [] => []
  | (_, node) :: rest => node.comparisons ++ Filter.comparisons rest

end

mutual

def FilterNode.value (truth : Nat → Bool) : (n : Nat) → FilterNode → Bool
  | n, .comparison _ _ _ => truth n
  | n, .group nodes => Run.joined (Filter.values truth n nodes)

def Filter.values (truth : Nat → Bool) : (n : Nat) → List (Conjunction × FilterNode) → List (Conjunction × Bool)
  | _, [] => []
  | n, (word, node) :: rest =>
    (word, node.value truth n) :: Filter.values truth (n + node.comparisons.length) rest

end

namespace Filter

/-- The truth value of a filter: AND binds tighter than OR, and a group counts as one value. -/
def value (truth : Nat → Bool) (filter : Filter) : Bool := Run.joined (values truth 0 filter)

variable {σ : Type} [Resolver σ]

def resolveAll (now : Instant) : List (Term × Comparator × Term) → σ → Except FilterError (List Leaf) × σ
  | [], s => (.ok [], s)
  | (left, op, right) :: rest, s =>
    match resolveLeaf now left op right s with
    | (.error e, s) => (.error e, s)
    | (.ok l, s) =>
      let r := resolveAll now rest s
      (r.1.map (l :: ·), r.2)

theorem resolveAll_append {now : Instant} {cs cs' : List (Term × Comparator × Term)} {ls ls' : List Leaf} {s t u : σ}
    (first : resolveAll now cs s = (.ok ls, t)) (second : resolveAll now cs' t = (.ok ls', u)) :
    resolveAll now (cs ++ cs') s = (.ok (ls ++ ls'), u) := by
  induction cs generalizing s ls with
  | nil =>
    cases first
    exact second
  | cons c cs ih =>
    obtain ⟨left, op, right⟩ := c
    simp only [resolveAll, List.cons_append] at first ⊢
    rcases resolved : resolveLeaf now left op right s with ⟨e | l, s'⟩
    · simp [resolved] at first
    · simp only [resolved] at first ⊢
      rcases tail : resolveAll now cs s' with ⟨e | ls'', t'⟩
      · simp [tail, Except.map] at first
      · simp only [tail, Except.map, Prod.mk.injEq, Except.ok.injEq] at first
        obtain ⟨rfl, rfl⟩ := first
        simp [ih tail, Except.map]

theorem length_of_resolveAll {now : Instant} {cs : List (Term × Comparator × Term)} {ls : List Leaf} {s t : σ}
    (h : resolveAll now cs s = (.ok ls, t)) : ls.length = cs.length := by
  induction cs generalizing s ls t with
  | nil =>
    cases h
    rfl
  | cons c cs ih =>
    obtain ⟨left, op, right⟩ := c
    simp only [resolveAll] at h
    rcases resolved : resolveLeaf now left op right s with ⟨e | l, s'⟩
    · simp [resolved] at h
    · simp only [resolved] at h
      rcases tail : resolveAll now cs s' with ⟨e | ls', t'⟩
      · simp [tail, Except.map] at h
      · simp only [tail, Except.map, Prod.mk.injEq, Except.ok.injEq] at h
        rw [← h.1, List.length_cons, ih tail, List.length_cons]

def StandsAt (all : List Leaf) (n : Nat) (part : List Leaf) : Prop := ∀ i, i < part.length → all[n + i]? = part[i]?

theorem StandsAt.left {all ls ls' : List Leaf} {n : Nat} (h : StandsAt all n (ls ++ ls')) : StandsAt all n ls := by
  intro i bound
  rw [h i (by simp; omega), List.getElem?_append_left bound]

theorem StandsAt.right {all ls ls' : List Leaf} {n : Nat} (h : StandsAt all n (ls ++ ls')) :
    StandsAt all (n + ls.length) ls' := by
  intro i bound
  rw [Nat.add_assoc, h (ls.length + i) (by simp; omega), List.getElem?_append_right (by omega)]
  congr 1
  omega

theorem compileNode_comparison_eq_ok {now : Instant} {left right : Term} {op : Comparator} {s t : σ} {item : RunItem}
    (h : compileNode now (.comparison left op right) s = (.ok item, t)) :
    ∃ l, resolveLeaf now left op right s = (.ok l, t) ∧ item = .leaf l := by
  rcases resolved : resolveLeaf now left op right s with ⟨e | l, t'⟩
  · simp [compileNode, resolved, Except.map] at h
  · simp only [compileNode, resolved, Except.map, Prod.mk.injEq, Except.ok.injEq] at h
    obtain ⟨rfl, rfl⟩ := h
    exact ⟨l, rfl, rfl⟩

theorem compileNode_group_eq_ok {now : Instant} {nodes : List (Conjunction × FilterNode)} {s t : σ} {item : RunItem}
    (h : compileNode now (.group nodes) s = (.ok item, t)) :
    ∃ items, compileNodes now nodes s = (.ok items, t) ∧ item = .nested (Run.conditionOf (Resolver.dialect t) items) := by
  cases nodes with
  | nil => simp [compileNode] at h
  | cons node rest =>
    rcases compiled : compileNodes now (node :: rest) s with ⟨e | items, t'⟩
    · simp [compileNode, compiled, Except.map] at h
    · simp only [compileNode, compiled, Except.map, Prod.mk.injEq, Except.ok.injEq] at h
      obtain ⟨rfl, rfl⟩ := h
      exact ⟨items, rfl, rfl⟩

theorem compileNodes_cons_eq_ok {now : Instant} {word : Conjunction} {node : FilterNode}
    {rest : List (Conjunction × FilterNode)} {s u : σ} {items : List (Conjunction × RunItem)}
    (h : compileNodes now ((word, node) :: rest) s = (.ok items, u)) :
    ∃ item more t, compileNode now node s = (.ok item, t) ∧ compileNodes now rest t = (.ok more, u) ∧
      items = (word, item) :: more := by
  rcases first : compileNode now node s with ⟨e | item, t⟩
  · simp [compileNodes, first] at h
  · rcases others : compileNodes now rest t with ⟨e | more, u'⟩
    · simp [compileNodes, first, others, Except.map] at h
    · simp only [compileNodes, first, others, Except.map, Prod.mk.injEq, Except.ok.injEq] at h
      obtain ⟨rfl, rfl⟩ := h
      exact ⟨item, more, t, rfl, others, rfl⟩

theorem compile_eq_ok {now : Instant} {filter : Filter} {s : σ} {c : Condition} (h : (compile now filter s).1 = .ok c) :
    ∃ items, compileNodes now filter s = (.ok items, (compile now filter s).2) ∧
      c = Run.conditionOf (Resolver.dialect (compile now filter s).2) items := by
  cases filter with
  | nil => simp [compile] at h
  | cons node rest =>
    rcases compiled : compileNodes now (node :: rest) s with ⟨e | items, t⟩
    · simp [compile, compiled, Except.map] at h
    · simp only [compile, compiled, Except.map, List.isEmpty_cons, Bool.false_eq_true, ↓reduceIte, Except.ok.injEq] at h ⊢
      exact ⟨items, rfl, h.symm⟩

mutual

theorem compileNode_reading (now : Instant) (node : FilterNode) (s t : σ) (item : RunItem)
    (h : compileNode now node s = (.ok item, t)) :
    ∃ ls, resolveAll now node.comparisons s = (.ok ls, t) ∧
      ∀ all n, StandsAt all n ls → ∃ f, item.Reads all f ∧ f.numbers.Perm (List.range' n ls.length) ∧
        ∀ truth, f.eval truth = node.value truth n := by
  match node with
  | .comparison left op right =>
    obtain ⟨l, resolved, rfl⟩ := compileNode_comparison_eq_ok h
    refine ⟨[l], by simp [FilterNode.comparisons, resolveAll, resolved, Except.map], ?_⟩
    intro all n place
    refine ⟨.comparison n, ⟨n, rfl, by simpa using place 0 (by simp)⟩, by simp [Formula.numbers], ?_⟩
    simp [Formula.eval, FilterNode.value]
  | .group nodes =>
    obtain ⟨items, compiled, rfl⟩ := compileNode_group_eq_ok h
    obtain ⟨ls, resolved, read⟩ := compileNodes_reading now nodes s t items compiled
    refine ⟨ls, by rw [FilterNode.comparisons, resolved], ?_⟩
    intro all n place
    obtain ⟨parts, rfl, reads, numbers, values⟩ := read all n place
    obtain ⟨f, reading, same, value⟩ := Run.conditionOf_reading (Resolver.dialect t) parts reads
    refine ⟨f, reading, same.trans numbers, ?_⟩
    intro truth
    rw [value, values, FilterNode.value]

theorem compileNodes_reading (now : Instant) (nodes : List (Conjunction × FilterNode)) (s t : σ)
    (items : List (Conjunction × RunItem)) (h : compileNodes now nodes s = (.ok items, t)) :
    ∃ ls, resolveAll now (comparisons nodes) s = (.ok ls, t) ∧
      ∀ all n, StandsAt all n ls → ∃ parts : List (Conjunction × RunItem × Formula),
        items = parts.map (Prod.map id Prod.fst) ∧ (∀ p ∈ parts, p.2.1.Reads all p.2.2) ∧
        (parts.flatMap fun p => p.2.2.numbers).Perm (List.range' n ls.length) ∧
        ∀ truth, parts.map (Prod.map id fun p => p.2.eval truth) = values truth n nodes := by
  match nodes with
  | [] =>
    rw [compileNodes] at h
    cases h
    exact ⟨[], rfl, fun all n _ => ⟨[], rfl, by simp, by simp, fun truth => by simp [values]⟩⟩
  | (word, node) :: rest =>
    obtain ⟨item, more, u, first, others, rfl⟩ := compileNodes_cons_eq_ok h
    obtain ⟨ls, resolved, read⟩ := compileNode_reading now node s u item first
    obtain ⟨ls', resolved', read'⟩ := compileNodes_reading now rest u t more others
    refine ⟨ls ++ ls', by rw [comparisons, resolveAll_append resolved resolved'], ?_⟩
    intro all n place
    obtain ⟨f, reading, numbers, value⟩ := read all n place.left
    obtain ⟨parts, rfl, reads, allNumbers, allValues⟩ := read' all (n + ls.length) place.right
    refine ⟨(word, item, f) :: parts, by simp, ?_, ?_, ?_⟩
    · intro p member
      rcases List.mem_cons.mp member with rfl | member
      · exact reading
      · exact reads p member
    · rw [List.flatMap_cons, List.length_append, List.range'_append.symm, Nat.one_mul]
      exact numbers.append allNumbers
    · intro truth
      simp [values, value, ← allValues, ← length_of_resolveAll resolved]

end

def taggedPosts : Filter :=
  [(.and, .comparison (.identifier "tags.name") ⟨.equal, false⟩ (.text "a")),
    (.and, .comparison (.identifier "title") ⟨.like, false⟩ (.text "b")),
    (.and, .comparison (.identifier "tags.name") ⟨.notEqual, false⟩ (.text "c")),
    (.or, .group [(.and, .comparison (.identifier "title") ⟨.equal, false⟩ (.text "d"))])]

end Filter
end RelationFilter
