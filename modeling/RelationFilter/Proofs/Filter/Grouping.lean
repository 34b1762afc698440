import RelationFilter.Proofs.Filter.Bound

namespace RelationFilter

namespace Leaf

/-- The comparison with the value of the chain in place of the side with several values. It binds what both sides bind. -/
structure Restated (d : Dialect) (l : Leaf) (m : Chain) (c : Condition) : Prop where
  comparison :
    l.left.chain = some m ∧ c = Comparison.condition d l.op.test { l.left with text := m.value } l.right ∨
      l.right.chain = some m ∧ c = Comparison.condition d l.op.test l.left { l.right with text := m.value }
  bindings : ∃ sql, c = .raw sql (l.left.bindings.merge (Comparison.rightBindings l.op.test l.right))

theorem Groups.restated {l : Leaf} {m : Chain} (h : l.Groups m) (d : Dialect) : l.Restated d m (l.onChain d m) := by
  rcases h.side with ⟨left, right⟩ | ⟨left, right⟩
  · obtain ⟨sql, shape, -⟩ := Comparison.condition_eq d l.op.test { l.left with text := m.value } l.right
    have stated : l.onChain d m = Comparison.condition d l.op.test { l.left with text := m.value } l.right := by
      simp only [onChain, left]
    exact ⟨.inl ⟨left, stated⟩, sql, stated.trans shape⟩
  · obtain ⟨sql, shape, -⟩ := Comparison.condition_eq d l.op.test l.left { l.right with text := m.value }
    have stated : l.onChain d m = Comparison.condition d l.op.test l.left { l.right with text := m.value } := by
      simp only [onChain, left]
    exact ⟨.inr ⟨right, stated⟩, sql, stated.trans shape⟩

end Leaf

namespace RunItem

def Share (d : Dialect) (i j : RunItem) : Prop :=
  ∃ l m l' m', i = .leaf l ∧ j = .leaf l' ∧ l.Groups m ∧ l'.Groups m' ∧ m.signature d = m'.signature d

theorem signature?_eq_some_iff {d : Dialect} {i : RunItem} {signature : String} :
    i.signature? d = some signature ↔ ∃ l m, i = .leaf l ∧ l.Groups m ∧ m.signature d = signature := by
  cases i with
  | nested c => simp [signature?]
  | leaf l => simp [signature?, Leaf.chain?_eq_some_iff]

theorem share_iff {d : Dialect} {i j : RunItem} :
    Share d i j ↔ ∃ signature, i.signature? d = some signature ∧ j.signature? d = some signature := by
  simp only [signature?_eq_some_iff]
  constructor
  · rintro ⟨l, m, l', m', rfl, rfl, first, second, same⟩
    exact ⟨_, ⟨l, m, rfl, first, same⟩, l', m', rfl, second, rfl⟩
  · rintro ⟨_, ⟨l, m, rfl, first, rfl⟩, l', m', rfl, second, same⟩
    exact ⟨l, m, l', m', rfl, rfl, first, second, same.symm⟩

end RunItem

namespace Run

/-- The places of the numbered items of a run. Members of a row, and the places by their first items, keep the order of the
run. -/
structure Grouping (d : Dialect) (items : List RunItem) (places : List (Slot (RunItem × Nat))) : Prop where
  once : (places.flatMap Slot.items).Perm items.zipIdx
  shared : ∀ p ∈ items.zipIdx, ∀ q ∈ items.zipIdx, p.2 ≠ q.2 →
    ((∃ signature members, .together signature members ∈ places ∧ p ∈ members ∧ q ∈ members) ↔ p.1.Share d q.1)
  several : ∀ signature members, .together signature members ∈ places → 1 < members.length
  members_ordered : ∀ slot ∈ places, slot.items.Pairwise fun p q => p.2 < q.2
  places_ordered : (places.filterMap fun slot => slot.items.head?).Pairwise fun p q => p.2 < q.2

/-- What a place says. An item alone stands as it is. Items together stand on one row of the chain of the first of them,
each restated on its own chain. -/
inductive Slot.States (d : Dialect) : Slot (RunItem × Nat) → Condition → Prop where
  | alone (p : RunItem × Nat) : States d (.alone p) (p.1.plain d)
  | together {signature : String} {members : List (RunItem × Nat)} {m : Chain} {cs : List Condition}
      (first : ∃ p l, members.head? = some p ∧ p.1 = .leaf l ∧ l.Groups m)
      (each : List.Forall₂ (fun p c => ∃ l own, p.1 = .leaf l ∧ l.Groups own ∧ l.Restated d own c) members cs) :
      States d (.together signature members) (.chainRow m cs)

theorem pairwise_zipIdx {α : Type} (items : List α) (k : Nat) : (items.zipIdx k).Pairwise fun p q => p.2 < q.2 := by
  rw [← List.pairwise_map (f := Prod.snd) (R := (· < ·)), List.zipIdx_map_snd]
  exact List.pairwise_lt_range' ..

def signedRun (d : Dialect) (items : List RunItem) : List (Option String × RunItem × Nat) :=
  items.zipIdx.map fun p => (p.1.signature? d, p)

theorem map_snd_signedRun (d : Dialect) (items : List RunItem) : (signedRun d items).map Prod.snd = items.zipIdx :=
  map_snd_signed d Prod.fst items.zipIdx

theorem sign_eq (d : Dialect) (items : List RunItem) :
    sign d items = (signedRun d items).map (Prod.map id Prod.fst) := by
  calc sign d items = sign d (items.zipIdx.map Prod.fst) := by rw [List.zipIdx_map_fst]
    _ = (signedRun d items).map (Prod.map id Prod.fst) := sign_map d Prod.fst items.zipIdx

theorem members_signedRun (d : Dialect) (items : List RunItem) (signature : String) :
    members (signedRun d items) signature = items.zipIdx.filter fun p => p.1.signature? d = some signature := by
  simp [members, signedRun, List.filter_map, Function.comp_def]

theorem mem_members {d : Dialect} {items : List RunItem} {signature : String} {p : RunItem × Nat} :
    p ∈ members (signedRun d items) signature ↔ p ∈ items.zipIdx ∧ p.1.signature? d = some signature :=
  mem_members_signed d Prod.fst items.zipIdx

theorem grouping_slots (d : Dialect) (items : List RunItem) :
    Grouping d items (slots (signedRun d items) [] (signedRun d items)) := by
  have once : ((slots (signedRun d items) [] (signedRun d items)).flatMap Slot.items).Perm items.zipIdx :=
    map_snd_signedRun d items ▸ slots_perm (signedRun d items)
  refine ⟨once, ?_, ?_, ?_, ?_⟩
  · intro p inRun q inRun' other
    rw [RunItem.share_iff]
    constructor
    · rintro ⟨signature, ms, place, hp, hq⟩
      obtain ⟨rfl, -⟩ := (slotted _).members_eq place
      exact ⟨signature, (mem_members.mp hp).2, (mem_members.mp hq).2⟩
    · rintro ⟨signature, hp, hq⟩
      have first : p ∈ members (signedRun d items) signature := mem_members.mpr ⟨inRun, hp⟩
      have second : q ∈ members (signedRun d items) signature := mem_members.mpr ⟨inRun', hq⟩
      have many : 1 < (members (signedRun d items) signature).length := by
        by_contra few
        obtain ⟨only, single⟩ := List.length_eq_one_iff.mp
          (Nat.le_antisymm (Nat.le_of_not_lt few) (List.length_pos_of_mem first))
        rw [single, List.mem_singleton] at first second
        exact other (by rw [first, second])
      have there : ∃ x ∈ signedRun d items, x.1 = some signature :=
        ⟨_, List.mem_map_of_mem inRun, hp⟩
      exact ⟨signature, _, (slotted _).together_mem many (by simp) there, first, second⟩
  · intro signature ms place
    exact ((slotted _).members_eq place).2
  · intro slot place
    cases slot with
    | alone p => exact List.pairwise_singleton _ _
    | together signature ms =>
      obtain ⟨rfl, -⟩ := (slotted _).members_eq place
      rw [Slot.items, members_signedRun]
      exact (pairwise_zipIdx items 0).filter _
  · have heads := (slotted (signedRun d items)).heads_sublist
    rw [map_snd_signedRun] at heads
    exact (pairwise_zipIdx items 0).sublist heads

theorem exists_leaves {members : List (RunItem × Nat)} (signed : ∀ p ∈ members, ∃ l m, p.1 = .leaf l ∧ l.Groups m) :
    ∃ ls, members.map Prod.fst = ls.map .leaf ∧ (∀ l ∈ ls, ∃ m, l.chain? = some m) ∧
      List.Forall₂ (fun p l => p.1 = .leaf l ∧ ∃ m, l.Groups m) members ls := by
  have each : ∀ p ∈ members, ∃ q : Leaf × Nat, p = (.leaf q.1, q.2) ∧ ∃ m, q.1.Groups m := by
    intro p member
    obtain ⟨l, m, leaf, groups⟩ := signed p member
    exact ⟨(l, p.2), Prod.ext leaf rfl, m, groups⟩
  obtain ⟨pairs, rfl, groups⟩ := exists_map_eq each
  refine ⟨pairs.map Prod.fst, by simp [Function.comp_def], ?_, ?_⟩
  · intro l member
    obtain ⟨q, inPairs, rfl⟩ := List.mem_map.mp member
    obtain ⟨m, own⟩ := groups q inPairs
    exact ⟨m, Leaf.chain?_eq_some_iff.mpr own⟩
  · rw [List.forall₂_map_left_iff, List.forall₂_map_right_iff]
    exact List.forall₂_same.mpr fun q inPairs => ⟨rfl, groups q inPairs⟩

theorem states_of_mem_slots {d : Dialect} {items : List RunItem} {slot : Slot (RunItem × Nat)}
    (place : slot ∈ slots (signedRun d items) [] (signedRun d items)) : slot.States d (slot.condition d Prod.fst) := by
  cases slot with
  | alone p => exact .alone p
  | together signature ms =>
    obtain ⟨rfl, many⟩ := (slotted _).members_eq place
    have signed : ∀ p ∈ members (signedRun d items) signature, ∃ l m, p.1 = .leaf l ∧ l.Groups m := by
      intro p member
      obtain ⟨l, m, leaf, groups, -⟩ := RunItem.signature?_eq_some_iff.mp (mem_members.mp member).2
      exact ⟨l, m, leaf, groups⟩
    generalize members (signedRun d items) signature = ms at signed many
    obtain ⟨ls, leaves, chains, each⟩ := exists_leaves signed
    cases each with
    | nil => simp at many
    | @cons p l rest ls head tail =>
      obtain ⟨leaf, m, groups⟩ := head
      have row := rowOf_leaves d l ls (Leaf.chain?_eq_some_iff.mpr groups)
        fun l' later => chains l' (List.mem_cons_of_mem _ later)
      have restated : ∀ (p : RunItem × Nat) (l : Leaf), (p.1 = .leaf l ∧ ∃ own, l.Groups own) →
          ∃ l' own, p.1 = .leaf l' ∧ l'.Groups own ∧ l'.Restated d own (l.onChain d (l.chain?.getD m)) := by
        rintro p l ⟨leaf, own, groups⟩
        rw [Leaf.chain?_eq_some_iff.mpr groups]
        exact ⟨l, own, leaf, groups, groups.restated d⟩
      rw [Slot.condition, leaves, row]
      refine .together ⟨p, l, rfl, leaf, groups⟩ ?_
      rw [List.forall₂_map_right_iff]
      exact (List.Forall₂.cons ⟨leaf, m, groups⟩ tail).imp restated

theorem condition_grouping (d : Dialect) (items : List RunItem) :
    ∃ places conditions, Grouping d items places ∧ List.Forall₂ (Slot.States d) places conditions ∧
      condition d items = allOf conditions := by
  refine ⟨_, (slots (signedRun d items) [] (signedRun d items)).map (Slot.condition d Prod.fst), grouping_slots d items, ?_, ?_⟩
  · rw [List.forall₂_map_right_iff]
    exact List.forall₂_same.mpr fun slot place => states_of_mem_slots place
  · rw [condition, sign_eq, parts_slots]

end Run
end RelationFilter
