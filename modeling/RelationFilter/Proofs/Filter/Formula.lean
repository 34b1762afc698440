import Mathlib.Data.List.Forall2
import RelationFilter.Proofs.Filter.Slots

namespace RelationFilter

inductive Formula where
  | comparison (n : Nat)
  | all (parts : List Formula)
  | any (parts : List Formula)

namespace Formula

mutual

def eval (truth : Nat → Bool) : Formula → Bool
  | comparison n => truth n
  | all parts => evalAll truth parts
  | any parts => evalAny truth parts

def evalAll (truth : Nat → Bool) : List Formula → Bool
  | [] => true
  | f :: rest => f.eval truth && evalAll truth rest

def evalAny (truth : Nat → Bool) : List Formula → Bool
  | [] => false
  | f :: rest => f.eval truth || evalAny truth rest

end

mutual

def numbers : Formula → List Nat
  | comparison n => [n]
  | all parts => numbersOf parts
  | any parts => numbersOf parts

def numbersOf : List Formula → List Nat
  | [] => []
  | f :: rest => f.numbers ++ numbersOf rest

end

@[simp] theorem eval_all (truth : Nat → Bool) (parts : List Formula) :
    (all parts).eval truth = parts.all (eval truth) := by
  rw [eval]
  induction parts with
  | nil => rfl
  | cons f rest ih => rw [evalAll, ih, List.all_cons]

@[simp] theorem eval_any (truth : Nat → Bool) (parts : List Formula) :
    (any parts).eval truth = parts.any (eval truth) := by
  rw [eval]
  induction parts with
  | nil => rfl
  | cons f rest ih => rw [evalAny, ih, List.any_cons]

theorem numbersOf_eq (parts : List Formula) : numbersOf parts = parts.flatMap numbers := by
  induction parts with
  | nil => rfl
  | cons f rest ih => rw [numbersOf, ih, List.flatMap_cons]

@[simp] theorem numbers_all (parts : List Formula) : (all parts).numbers = parts.flatMap numbers := by
  rw [numbers, numbersOf_eq]

@[simp] theorem numbers_any (parts : List Formula) : (any parts).numbers = parts.flatMap numbers := by
  rw [numbers, numbersOf_eq]

end Formula

/-- What a condition says about numbered comparisons. A comparison may stand as it is, under its guards, or among the
conditions on a row of the chain of one of them, where its value is the one on that chain. -/
inductive Condition.Reads (leaves : List Leaf) : Condition → Formula → Prop where
  | plain {d : Dialect} {l : Leaf} {n : Nat} (place : leaves[n]? = some l) : Reads leaves (l.plain d) (.comparison n)
  | all {cs : List Condition} {fs : List Formula} (parts : List.Forall₂ (Reads leaves) cs fs) :
    Reads leaves (.all cs) (.all fs)
  | any {cs : List Condition} {fs : List Formula} (parts : List.Forall₂ (Reads leaves) cs fs) :
    Reads leaves (.any cs) (.any fs)
  | row {d : Dialect} {m : Chain} {members : List (Nat × Leaf)}
      (places : ∀ p ∈ members, leaves[p.1]? = some p.2 ∧ ∃ own, p.2.chain? = some own)
      (head : ∃ p ∈ members, p.2.chain? = some m) :
    Reads leaves (.chainRow m (members.map fun p => p.2.onChain d (p.2.chain?.getD m)))
      (.all (members.map fun p => .comparison p.1))

def RunItem.Reads (leaves : List Leaf) : RunItem → Formula → Prop
  | .leaf l, f => ∃ n, f = .comparison n ∧ leaves[n]? = some l
  | .nested c, f => c.Reads leaves f

theorem RunItem.Reads.plain {leaves : List Leaf} {i : RunItem} {f : Formula} (d : Dialect) (h : i.Reads leaves f) :
    (i.plain d).Reads leaves f := by
  cases i with
  | leaf l =>
    obtain ⟨n, rfl, place⟩ := h
    exact .plain place
  | nested c => exact h

namespace Run

def Slot.formula : Slot (RunItem × Formula) → Formula
  | .alone p => p.2
  | .together _ items => .all (items.map Prod.snd)

theorem Slot.numbers_formula (slot : Slot (RunItem × Formula)) :
    slot.formula.numbers = slot.items.flatMap fun p => p.2.numbers := by
  cases slot <;> simp [formula, items, List.flatMap_map]

theorem Slot.eval_formula (truth : Nat → Bool) (slot : Slot (RunItem × Formula)) :
    slot.formula.eval truth = slot.items.all fun p => p.2.eval truth := by
  cases slot <;> simp [formula, items, Function.comp_def]

theorem exists_members {leaves : List Leaf} (items : List (RunItem × Formula))
    (reads : ∀ p ∈ items, p.1.Reads leaves p.2) (signed : ∀ p ∈ items, ∃ d signature, p.1.signature? d = some signature) :
    ∃ members : List (Nat × Leaf), items = members.map (fun p => (.leaf p.2, .comparison p.1)) ∧
      ∀ p ∈ members, leaves[p.1]? = some p.2 ∧ ∃ own, p.2.chain? = some own := by
  apply exists_map_eq
  intro p member
  obtain ⟨i, f⟩ := p
  obtain ⟨d, signature, hasChain⟩ := signed _ member
  have read := reads _ member
  cases i with
  | nested c => simp [RunItem.signature?] at hasChain
  | leaf l =>
    obtain ⟨n, same, place⟩ := read
    obtain ⟨own, chain, -⟩ := Option.map_eq_some_iff.mp hasChain
    exact ⟨(n, l), Prod.ext rfl same, place, own, chain⟩

theorem rowOf_reads {leaves : List Leaf} (d : Dialect) (members : List (Nat × Leaf)) (nonempty : members ≠ [])
    (places : ∀ p ∈ members, leaves[p.1]? = some p.2 ∧ ∃ own, p.2.chain? = some own) :
    (Slot.rowOf d (members.map fun p => .leaf p.2)).Reads leaves (.all (members.map fun p => .comparison p.1)) := by
  obtain ⟨first, rest, rfl⟩ := List.exists_cons_of_ne_nil nonempty
  obtain ⟨-, m, chain⟩ := places first List.mem_cons_self
  have row := rowOf_leaves d first.2 (rest.map Prod.snd) chain (by
    intro l member
    obtain ⟨p, inRest, rfl⟩ := List.mem_map.mp member
    exact (places p (List.mem_cons_of_mem _ inRest)).2)
  rw [← List.map_cons (f := Prod.snd), List.map_map, List.map_map] at row
  exact row ▸ .row places ⟨first, List.mem_cons_self, chain⟩

theorem Slot.condition_reads {leaves : List Leaf} (d : Dialect) {slot : Slot (RunItem × Formula)}
    (reads : ∀ p ∈ slot.items, p.1.Reads leaves p.2)
    (row : ∀ signature items, slot = .together signature items →
      items ≠ [] ∧ ∀ p ∈ items, ∃ d signature, p.1.signature? d = some signature) :
    (slot.condition d Prod.fst).Reads leaves slot.formula := by
  cases slot with
  | alone p => exact (reads p (by simp [Slot.items])).plain d
  | together signature items =>
    obtain ⟨nonempty, signed⟩ := row signature items rfl
    obtain ⟨members, rfl, places⟩ := exists_members items reads signed
    have shape := rowOf_reads d members (by simpa using nonempty) places
    simpa [Slot.condition, Slot.formula, Function.comp_def] using shape

theorem allOf_reads {leaves : List Leaf} {cs : List Condition} {fs : List Formula}
    (h : List.Forall₂ (Condition.Reads leaves) cs fs) :
    ∃ f, (allOf cs).Reads leaves f ∧ f.numbers = fs.flatMap Formula.numbers ∧
      ∀ truth, f.eval truth = fs.all (Formula.eval truth) := by
  match h with
  | .nil => exact ⟨.all [], .all .nil, by simp, by simp⟩
  | .cons head .nil => exact ⟨_, head, by simp, by simp⟩
  | .cons head (.cons next rest) => exact ⟨_, .all (.cons head (.cons next rest)), by simp, by simp⟩

theorem anyOf_reads {leaves : List Leaf} {cs : List Condition} {fs : List Formula}
    (h : List.Forall₂ (Condition.Reads leaves) cs fs) :
    ∃ f, (anyOf cs).Reads leaves f ∧ f.numbers = fs.flatMap Formula.numbers ∧
      ∀ truth, f.eval truth = fs.any (Formula.eval truth) := by
  match h with
  | .nil => exact ⟨.any [], .any .nil, by simp, by simp⟩
  | .cons head .nil => exact ⟨_, head, by simp, by simp⟩
  | .cons head (.cons next rest) => exact ⟨_, .any (.cons head (.cons next rest)), by simp, by simp⟩

theorem condition_reads {leaves : List Leaf} (d : Dialect) (items : List (RunItem × Formula))
    (reads : ∀ p ∈ items, p.1.Reads leaves p.2) :
    ∃ f, (condition d (items.map Prod.fst)).Reads leaves f ∧
      f.numbers.Perm (items.flatMap fun p => p.2.numbers) ∧
      ∀ truth, f.eval truth = items.all fun p => p.2.eval truth := by
  have perm := places_perm d Prod.fst items
  have slotReads : ∀ slot ∈ places d Prod.fst items, (slot.condition d Prod.fst).Reads leaves slot.formula := by
    intro slot member
    apply Slot.condition_reads d
    · intro p inSlot
      exact reads p (perm.subset (List.mem_flatMap.mpr ⟨slot, member, inSlot⟩))
    · rintro signature items' rfl
      obtain ⟨nonempty, signed⟩ := of_together_mem_places d Prod.fst items member
      exact ⟨nonempty, fun p inSlot => ⟨d, signature, signed p inSlot⟩⟩
  have all : List.Forall₂ (Condition.Reads leaves) ((places d Prod.fst items).map (Slot.condition d Prod.fst))
      ((places d Prod.fst items).map Slot.formula) := by
    rw [List.forall₂_map_left_iff, List.forall₂_map_right_iff]
    exact List.forall₂_same.mpr slotReads
  obtain ⟨f, read, numbers, value⟩ := allOf_reads all
  refine ⟨f, condition_places d Prod.fst items ▸ read, ?_, ?_⟩
  · rw [numbers, List.flatMap_map]
    simp only [Slot.numbers_formula, ← List.flatMap_assoc]
    exact perm.flatMap_right _
  · intro truth
    rw [value, List.all_map]
    calc (places d Prod.fst items).all (Formula.eval truth ∘ Slot.formula)
        = ((places d Prod.fst items).flatMap Slot.items).all (fun p => p.2.eval truth) := by
          simp [List.all_flatMap, Function.comp_def, Slot.eval_formula]
      _ = items.all (fun p => p.2.eval truth) := perm.all_eq

def joinedAfter (current : Bool) : List (Conjunction × Bool) → Bool
  | [] => current
  | (.and, value) :: rest => joinedAfter (current && value) rest
  | (.or, value) :: rest => current || joinedAfter value rest

/-- Values joined by AND and OR, where AND binds tighter. The word before the first value means nothing. -/
def joined : List (Conjunction × Bool) → Bool
  | [] => false
  | (_, value) :: rest => joinedAfter value rest

theorem ofItems_map {α β : Type} (f : α → β) (items : List (Conjunction × α)) :
    ofItems (items.map (Prod.map id f)) = (ofItems items).map (List.map f) := by
  fun_induction ofItems items with
  | case1 => rfl
  | case2 => rfl
  | case3 _ a b rest ih => simpa [ofItems] using ih
  | case4 _ a b rest none ih =>
    simp only [List.map_cons, Prod.map_apply, id_eq, none, List.map_nil] at ih
    simp [ofItems, ih]
  | case5 _ a b rest run runs some ih =>
    simp only [List.map_cons, Prod.map_apply, id_eq, some] at ih
    simp [ofItems, ih]

theorem ofItems_flatten {α : Type} (items : List (Conjunction × α)) :
    (ofItems items).flatten = items.map Prod.snd := by
  fun_induction ofItems items <;> simp_all

theorem ofItems_cons {α : Type} (rest : List (Conjunction × α)) :
    ∃ tail runs, ∀ word a, ofItems ((word, a) :: rest) = (a :: tail) :: runs := by
  induction rest with
  | nil => exact ⟨[], [], fun _ _ => rfl⟩
  | cons p rest ih =>
    obtain ⟨word, b⟩ := p
    obtain ⟨tail, runs, shape⟩ := ih
    cases word with
    | or => exact ⟨[], ofItems ((.or, b) :: rest), fun _ _ => rfl⟩
    | and => exact ⟨b :: tail, runs, fun _ _ => by simp [ofItems, shape]⟩

theorem joinedAfter_eq (rest : List (Conjunction × Bool)) (word : Conjunction) (value : Bool) :
    joinedAfter value rest = (ofItems ((word, value) :: rest)).any fun run => run.all id := by
  induction rest generalizing word value with
  | nil => simp [joinedAfter, ofItems]
  | cons p rest ih =>
    obtain ⟨next, b⟩ := p
    cases next with
    | or => simp [joinedAfter, ofItems, ih .or b]
    | and =>
      obtain ⟨tail, runs, shape⟩ := ofItems_cons rest
      simp [joinedAfter, ofItems, ih .and (value && b), shape, Bool.and_assoc]

theorem joined_eq (values : List (Conjunction × Bool)) :
    joined values = (ofItems values).any fun run => run.all id := by
  cases values with
  | nil => rfl
  | cons p rest => exact joinedAfter_eq rest p.1 p.2

theorem runs_reading {leaves : List Leaf} (d : Dialect) (runs : List (List (RunItem × Formula)))
    (reads : ∀ run ∈ runs, ∀ p ∈ run, p.1.Reads leaves p.2) :
    ∃ fs, List.Forall₂ (Condition.Reads leaves) (runs.map fun run => condition d (run.map Prod.fst)) fs ∧
      (fs.flatMap Formula.numbers).Perm (runs.flatten.flatMap fun p => p.2.numbers) ∧
      ∀ truth, fs.any (Formula.eval truth) = runs.any fun run => run.all fun p => p.2.eval truth := by
  induction runs with
  | nil => exact ⟨[], .nil, by simp, by simp⟩
  | cons run runs ih =>
    obtain ⟨f, read, numbers, value⟩ := condition_reads d run (reads run List.mem_cons_self)
    obtain ⟨fs, each, allNumbers, values⟩ := ih fun run h => reads run (List.mem_cons_of_mem _ h)
    refine ⟨f :: fs, .cons read each, ?_, ?_⟩
    · simpa using numbers.append allNumbers
    · intro truth
      simp [value, values]

/-- The condition of items has the value of the items under the usual precedence. -/
theorem conditionOf_reading {leaves : List Leaf} (d : Dialect) (items : List (Conjunction × RunItem × Formula))
    (reads : ∀ p ∈ items, p.2.1.Reads leaves p.2.2) :
    ∃ f, (conditionOf d (items.map (Prod.map id Prod.fst))).Reads leaves f ∧
      f.numbers.Perm (items.flatMap fun p => p.2.2.numbers) ∧
      ∀ truth, f.eval truth = joined (items.map (Prod.map id fun p => p.2.eval truth)) := by
  have runReads : ∀ run ∈ ofItems items, ∀ p ∈ run, p.1.Reads leaves p.2 := by
    intro run member p inRun
    have inItems : p ∈ (ofItems items).flatten := List.mem_flatten.mpr ⟨run, member, inRun⟩
    rw [ofItems_flatten] at inItems
    obtain ⟨q, there, rfl⟩ := List.mem_map.mp inItems
    exact reads q there
  obtain ⟨fs, each, numbers, values⟩ := runs_reading d (ofItems items) runReads
  obtain ⟨f, read, same, value⟩ := anyOf_reads each
  refine ⟨f, ?_, ?_, ?_⟩
  · simpa [conditionOf, ofItems_map, Function.comp_def] using read
  · rw [same]
    simpa [ofItems_flatten, List.flatMap_map] using numbers
  · intro truth
    rw [value, values, joined_eq, ofItems_map]
    simp [List.any_map, Function.comp_def]

end Run
end RelationFilter
