import Mathlib.Data.List.Basic
import RelationFilter.Filter.Run

namespace RelationFilter.Leaf

structure Groups (l : Leaf) (m : Chain) : Prop where
  op : l.op.any = false
  left_guard : l.left.guard = none
  right_guard : l.right.guard = none
  complete : m.isComplete
  side : l.left.chain = some m ∧ l.right.chain = none ∨ l.left.chain = none ∧ l.right.chain = some m

theorem chain?_eq_some_iff {l : Leaf} {m : Chain} : l.chain? = some m ↔ l.Groups m := by
  constructor
  · intro h
    unfold chain? at h
    split at h
    · cases h
    · rename_i free
      simp only [Bool.or_eq_true, not_or, Bool.not_eq_true, Option.isSome_eq_false_iff, Option.isNone_iff_eq_none] at free
      obtain ⟨⟨op, left_guard⟩, right_guard⟩ := free
      split at h
      · rename_i left right
        split at h
        · rename_i complete
          cases h
          exact ⟨op, left_guard, right_guard, complete, .inl ⟨left, right⟩⟩
        · cases h
      · rename_i left right
        split at h
        · rename_i complete
          cases h
          exact ⟨op, left_guard, right_guard, complete, .inr ⟨left, right⟩⟩
        · cases h
      · cases h
  · rintro ⟨op, left_guard, right_guard, complete, ⟨left, right⟩ | ⟨left, right⟩⟩ <;>
      simp [chain?, op, left_guard, right_guard, complete, left, right]

end RelationFilter.Leaf

namespace RelationFilter.Run

variable {α : Type}

inductive Slot (α : Type) where
  | alone (a : α)
  | together (signature : String) (items : List α)

namespace Slot

def items : Slot α → List α
  | alone a => [a]
  | together _ items => items

def rowOf (d : Dialect) (items : List RunItem) : Condition :=
  match items.filterMap (RunItem.onChain? d) with
  | [] => .all []
  | (m, c) :: rest => .chainRow m (c :: rest.map Prod.snd)

def condition (d : Dialect) (item : α → RunItem) : Slot α → Condition
  | alone a => (item a).plain d
  | together _ items => rowOf d (items.map item)

end Slot

def members (run : List (Option String × α)) (signature : String) : List α :=
  (run.filter fun p => p.1 = some signature).map Prod.snd

def slots (run : List (Option String × α)) : (seen : List String) → List (Option String × α) → List (Slot α)
  | _, [] => []
  | seen, (none, a) :: rest => .alone a :: slots run seen rest
  | seen, (some signature, a) :: rest =>
    if (members run signature).length ≤ 1 then .alone a :: slots run seen rest
    else if seen.contains signature then slots run seen rest
    else .together signature (members run signature) :: slots run (signature :: seen) rest

theorem members_map (item : α → RunItem) (run : List (Option String × α)) (signature : String) :
    withSignature (run.map (Prod.map id item)) signature = (members run signature).map item := by
  simp [withSignature, members, List.filter_map, Function.comp_def]

theorem parts_slots (d : Dialect) (item : α → RunItem) (run rest : List (Option String × α)) (seen : List String) :
    parts d (run.map (Prod.map id item)) seen (rest.map (Prod.map id item)) =
      (slots run seen rest).map (Slot.condition d item) := by
  induction rest generalizing seen with
  | nil => simp [parts, slots]
  | cons p rest ih =>
    obtain ⟨signature, a⟩ := p
    cases signature with
    | none => simp [parts, slots, Slot.condition, ih]
    | some signature =>
      have shared : isShared (run.map (Prod.map id item)) signature =
          decide (1 < (members run signature).length) := by
        simp [isShared, members_map]
      have whole : row d (run.map (Prod.map id item)) signature =
          Slot.condition d item (.together signature (members run signature)) := by
        rw [row, members_map]
        rfl
      simp only [List.map_cons, Prod.map_apply, id_eq, parts, slots, shared]
      by_cases few : (members run signature).length ≤ 1
      · simp [few, Slot.condition, ih]
      · by_cases there : seen.contains signature = true
        · simp only [few, there, ih, ↓reduceIte]
          simp [Nat.lt_of_not_le few]
        · simp only [few, there, ih, whole, ↓reduceIte]
          simp [Nat.lt_of_not_le few]

def waits (run : List (Option String × α)) (seen : List String) (p : Option String × α) : Bool :=
  match p.1 with
  | none => true
  | some signature => decide ((members run signature).length ≤ 1) || !seen.contains signature

/-- All items with a signature that is new come before the others that wait. -/
theorem waiting_perm (run rest : List (Option String × α)) (seen : List String) (signature : String)
    (many : ¬ (members run signature).length ≤ 1) (new : seen.contains signature = false) :
    (members rest signature ++ (rest.filter (waits run (signature :: seen))).map Prod.snd).Perm
      ((rest.filter (waits run seen)).map Prod.snd) := by
  have hers : members rest signature =
      ((rest.filter (waits run seen)).filter fun p => p.1 = some signature).map Prod.snd := by
    rw [members, List.filter_filter]
    congr 1
    apply List.filter_congr
    intro p _
    by_cases own : p.1 = some signature
    · have waiting : waits run seen p = true := by simp only [waits, own, new]; simp
      simp [own, waiting]
    · simp [own]
  have others : rest.filter (waits run (signature :: seen)) =
      (rest.filter (waits run seen)).filter fun p => !decide (p.1 = some signature) := by
    rw [List.filter_filter]
    apply List.filter_congr
    intro p _
    obtain ⟨own, a⟩ := p
    cases own with
    | none => simp [waits]
    | some own =>
      by_cases same : own = signature
      · subst same
        simp [waits, many]
      · simp [waits, same]
  rw [hers, others, ← List.map_append]
  exact (List.filter_append_perm _ _).map Prod.snd

def Fresh (run : List (Option String × α)) (seen : List String) (part : List (Option String × α)) : Prop :=
  ∀ signature, 1 < (members run signature).length → signature ∉ seen → members part signature = []

theorem Fresh.concat {run before : List (Option String × α)} {seen seen' : List String} {p : Option String × α}
    (fresh : Fresh run seen before) (more : seen ⊆ seen')
    (placed : ∀ signature, p.1 = some signature → 1 < (members run signature).length → signature ∈ seen') :
    Fresh run seen' (before ++ [p]) := by
  intro signature many new
  have other : p.1 ≠ some signature := fun own => new (placed signature own many)
  simpa [members, other] using fresh signature many fun early => new (more early)

theorem Fresh.members_eq {run before rest : List (Option String × α)} {seen : List String} {own : String} {a : α}
    (fresh : Fresh run seen before) (whole : run = before ++ (some own, a) :: rest)
    (many : 1 < (members run own).length) (new : own ∉ seen) : members run own = a :: members rest own := by
  have none := fresh own many new
  simp only [members, List.map_eq_nil_iff] at none
  rw [whole]
  simp [members, none]

/-- The slots of the rest of a run: the first of several items with a signature opens the slot of them all. -/
inductive Slotted (run : List (Option String × α)) :
    (seen : List String) → List (Option String × α) → List (Slot α) → Prop where
  | nil (seen : List String) : Slotted run seen [] []
  | unsigned {seen : List String} {rest : List (Option String × α)} {filled : List (Slot α)} (a : α)
    (later : Slotted run seen rest filled) : Slotted run seen ((none, a) :: rest) (.alone a :: filled)
  | single {seen : List String} {rest : List (Option String × α)} {filled : List (Slot α)} {own : String} (a : α)
    (few : (members run own).length ≤ 1) (later : Slotted run seen rest filled) :
    Slotted run seen ((some own, a) :: rest) (.alone a :: filled)
  | placed {seen : List String} {rest : List (Option String × α)} {filled : List (Slot α)} {own : String} (a : α)
    (many : 1 < (members run own).length) (there : own ∈ seen) (later : Slotted run seen rest filled) :
    Slotted run seen ((some own, a) :: rest) filled
  | opens {seen : List String} {rest : List (Option String × α)} {filled : List (Slot α)} {own : String} (a : α)
    (many : 1 < (members run own).length) (new : own ∉ seen) (all : members run own = a :: members rest own)
    (later : Slotted run (own :: seen) rest filled) :
    Slotted run seen ((some own, a) :: rest) (.together own (members run own) :: filled)

theorem slotted_rest (run before rest : List (Option String × α)) (seen : List String)
    (whole : run = before ++ rest) (fresh : Fresh run seen before) : Slotted run seen rest (slots run seen rest) := by
  induction rest generalizing before seen with
  | nil => exact .nil seen
  | cons p rest ih =>
    obtain ⟨own, a⟩ := p
    have step : run = (before ++ [(own, a)]) ++ rest := by simp [whole]
    cases own with
    | none =>
      rw [slots]
      exact .unsigned a (ih _ seen step (fresh.concat (List.Subset.refl _) nofun))
    | some own =>
      rw [slots]
      by_cases few : (members run own).length ≤ 1
      · rw [if_pos few]
        exact .single a few (ih _ seen step (fresh.concat (List.Subset.refl _) (by rintro _ ⟨⟩ many; omega)))
      · have many := Nat.lt_of_not_le few
        rw [if_neg few]
        by_cases there : own ∈ seen
        · rw [if_pos (List.contains_iff_mem.mpr there)]
          exact .placed a many there (ih _ seen step (fresh.concat (List.Subset.refl _) (by rintro _ ⟨⟩ _; exact there)))
        · rw [if_neg (mt List.contains_iff_mem.mp there)]
          refine .opens a many there (fresh.members_eq whole many there) (ih _ _ step ?_)
          exact fresh.concat (List.subset_cons_self _ _) (by rintro _ ⟨⟩ _; exact List.mem_cons_self)

theorem slotted (run : List (Option String × α)) : Slotted run [] run (slots run [] run) :=
  slotted_rest run [] run [] rfl fun _ _ _ => rfl

section

variable {run rest : List (Option String × α)} {seen : List String} {filled : List (Slot α)}

theorem Slotted.members_eq (h : Slotted run seen rest filled) {signature : String} {items : List α}
    (place : .together signature items ∈ filled) : items = members run signature ∧ 1 < items.length := by
  induction h with
  | nil => cases place
  | unsigned a later ih | single a few later ih => exact ih (by simpa using place)
  | placed a many there later ih => exact ih place
  | opens a many new all later ih =>
    rcases List.mem_cons.mp place with head | tail
    · cases head
      exact ⟨rfl, many⟩
    · exact ih tail

theorem Slotted.together_mem (h : Slotted run seen rest filled) {signature : String}
    (many : 1 < (members run signature).length) (new : signature ∉ seen) (there : ∃ p ∈ rest, p.1 = some signature) :
    .together signature (members run signature) ∈ filled := by
  induction h with
  | nil => simp at there
  | unsigned a later ih => exact List.mem_cons_of_mem _ (ih new (by simpa using there))
  | @single seen rest filled own a few later ih =>
    have other : own ≠ signature := by
      rintro rfl
      omega
    exact List.mem_cons_of_mem _ (ih new (by simpa [other] using there))
  | @placed seen rest filled own a more seenBefore later ih =>
    have other : own ≠ signature := by
      rintro rfl
      exact new seenBefore
    exact ih new (by simpa [other] using there)
  | @opens seen rest filled own a more first all later ih =>
    by_cases same : own = signature
    · subst same
      exact List.mem_cons_self
    · have later : ∃ p ∈ rest, p.1 = some signature := by simpa [same] using there
      exact List.mem_cons_of_mem _ (ih (by simp [new, Ne.symm same]) later)

/-- The slots hold what waits in the rest. -/
theorem Slotted.items_perm (h : Slotted run seen rest filled) :
    (filled.flatMap Slot.items).Perm ((rest.filter (waits run seen)).map Prod.snd) := by
  induction h with
  | nil => exact .nil
  | @unsigned seen rest filled a later ih =>
    have waiting : waits run seen (none, a) = true := rfl
    rw [List.filter_cons_of_pos waiting]
    exact ih.cons a
  | @single seen rest filled own a few later ih =>
    have waiting : waits run seen (some own, a) = true := by simp [waits, few]
    rw [List.filter_cons_of_pos waiting]
    exact ih.cons a
  | @placed seen rest filled own a many there later ih =>
    have placed : ¬ waits run seen (some own, a) = true := by simp [waits, Nat.not_le_of_lt many, there]
    rwa [List.filter_cons_of_neg placed]
  | @opens seen rest filled own a many new all later ih =>
    have waiting : waits run seen (some own, a) = true := by simp [waits, new]
    have absent : seen.contains own = false := by simpa using new
    have placed := ((ih.append_left _).trans (waiting_perm run rest seen own (Nat.not_le_of_lt many) absent)).cons a
    rw [List.flatMap_cons, Slot.items, all, List.filter_cons_of_pos waiting]
    exact placed

/-- The first items of the slots stand in the order of the run. -/
theorem Slotted.heads_sublist (h : Slotted run seen rest filled) :
    (filled.filterMap fun slot => slot.items.head?).Sublist (rest.map Prod.snd) := by
  induction h with
  | nil => exact .slnil
  | unsigned a later ih | single a few later ih => exact ih.cons_cons a
  | placed a many there later ih => exact ih.cons a
  | opens a many new all later ih =>
    rw [List.filterMap_cons_some (by rw [Slot.items, all, List.head?_cons])]
    exact ih.cons_cons a

end

theorem slots_perm (run : List (Option String × α)) :
    ((slots run [] run).flatMap Slot.items).Perm (run.map Prod.snd) := by
  have all : run.filter (waits run []) = run := by
    apply List.filter_eq_self.mpr
    rintro ⟨own, a⟩ _
    cases own <;> simp [waits]
  simpa [all] using (slotted run).items_perm

theorem exists_map_eq {β : Type} {g : β → α} {Q : β → Prop} {as : List α} (each : ∀ a ∈ as, ∃ b, a = g b ∧ Q b) :
    ∃ bs : List β, as = bs.map g ∧ ∀ b ∈ bs, Q b := by
  induction as with
  | nil => exact ⟨[], rfl, by simp⟩
  | cons a as ih =>
    obtain ⟨b, rfl, first⟩ := each a List.mem_cons_self
    obtain ⟨bs, rfl, others⟩ := ih fun a later => each a (List.mem_cons_of_mem _ later)
    exact ⟨b :: bs, rfl, List.forall_mem_cons.mpr ⟨first, others⟩⟩

variable (d : Dialect) (item : α → RunItem) (run : List α)

def signed : List (Option String × α) := run.map fun a => ((item a).signature? d, a)

theorem map_snd_signed : (signed d item run).map Prod.snd = run := by simp [signed, Function.comp_def]

theorem sign_map : sign d (run.map item) = (signed d item run).map (Prod.map id item) := by
  simp [sign, signed, Function.comp_def]

theorem mem_members_signed {signature : String} {a : α} :
    a ∈ members (signed d item run) signature ↔ a ∈ run ∧ (item a).signature? d = some signature := by
  simp [members, signed]

def places : List (Slot α) := slots (signed d item run) [] (signed d item run)

theorem places_perm : ((places d item run).flatMap Slot.items).Perm run := by
  have perm := slots_perm (signed d item run)
  rwa [map_snd_signed] at perm

theorem condition_places : condition d (run.map item) = allOf ((places d item run).map (Slot.condition d item)) := by
  rw [condition, sign_map, parts_slots, places]

theorem of_together_mem_places {signature : String} {items : List α}
    (place : .together signature items ∈ places d item run) :
    items ≠ [] ∧ ∀ a ∈ items, (item a).signature? d = some signature := by
  obtain ⟨rfl, many⟩ := (slotted _).members_eq place
  refine ⟨List.ne_nil_of_length_pos (by omega), ?_⟩
  intro a member
  exact ((mem_members_signed d item run).mp member).2

theorem rowOf_leaves (l : Leaf) (ls : List Leaf) {m : Chain} (first : l.chain? = some m)
    (chains : ∀ l' ∈ ls, ∃ own, l'.chain? = some own) :
    Slot.rowOf d ((l :: ls).map .leaf) = .chainRow m ((l :: ls).map fun l' => l'.onChain d (l'.chain?.getD m)) := by
  have onChains : (ls.map RunItem.leaf).filterMap (RunItem.onChain? d) =
      ls.map fun l' => (l'.chain?.getD m, l'.onChain d (l'.chain?.getD m)) := by
    rw [List.filterMap_map]
    induction ls with
    | nil => rfl
    | cons l' ls ih =>
      obtain ⟨own, has⟩ := chains l' List.mem_cons_self
      simp [RunItem.onChain?, has, ih fun l' h => chains l' (List.mem_cons_of_mem _ h)]
  have head : RunItem.onChain? d (.leaf l) = some (m, l.onChain d m) := by simp [RunItem.onChain?, first]
  rw [Slot.rowOf, List.map_cons, List.filterMap_cons_some head, onChains]
  simp [first]

end RelationFilter.Run
