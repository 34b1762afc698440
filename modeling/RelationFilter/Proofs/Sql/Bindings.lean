import Mathlib.Data.List.Nodup
import Mathlib.Data.List.Perm.Subperm
import RelationFilter.Sql.Bindings

namespace RelationFilter

theorem toString_inj {m n : Nat} (h : toString m = toString n) : m = n := by
  have digits : Nat.toDigits 10 m = Nat.toDigits 10 n := by
    rw [← Nat.toList_repr, ← Nat.toList_repr]
    exact congrArg String.toList h
  calc m = Nat.ofDigitChars 10 (Nat.toDigits 10 m) 0 := Nat.ofDigitChars_ten_toDigits.symm
    _ = n := by rw [digits, Nat.ofDigitChars_ten_toDigits]

theorem append_toString_inj {start : String} {m n : Nat} (h : start ++ toString m = start ++ toString n) : m = n := by
  have lists := congrArg String.toList h
  simp only [String.toList_append, List.append_cancel_left_eq, String.toList_inj] at lists
  exact toString_inj lists

namespace Bindings

theorem slot_inj {m n : Nat} (h : slot m = slot n) : m = n := append_toString_inj h

theorem size_eq_zero_iff {b : Bindings} : b.size = 0 ↔ b = .empty := by
  obtain ⟨entries⟩ := b
  simp [size, empty]

theorem contains_iff {b : Bindings} {name : String} : b.contains name = true ↔ name ∈ b.names := by
  simp [contains, names]

theorem names_insert (b : Bindings) (name : String) (v : Json) :
    (b.insert name v).names = if name ∈ b.names then b.names else b.names ++ [name] := by
  unfold insert names
  induction b.entries with
  | nil => rfl
  | cons e rest ih =>
    simp only [put]
    split
    · rename_i same
      simp [same]
    · rename_i other
      simp only [List.map_cons, ih, List.mem_cons, Ne.symm other, false_or]
      split <;> simp

theorem mem_names_insert {b : Bindings} {name other : String} {v : Json} :
    other ∈ (b.insert name v).names ↔ other = name ∨ other ∈ b.names := by
  rw [names_insert]
  split
  · constructor
    · exact .inr
    · rintro (rfl | member)
      · assumption
      · exact member
  · simp [or_comm]

theorem freeSlot_of_slots {b : Bindings} {k : Nat} (h : b.names = (List.range k).map slot) : b.freeSlot = slot k := by
  have size : b.size = k := by simpa [names, size] using congrArg List.length h
  have free : b.contains (slot k) = false := by
    rw [Bool.eq_false_iff, ne_eq, contains_iff, h, List.mem_map]
    rintro ⟨i, member, same⟩
    rw [slot_inj same] at member
    simp at member
  rw [freeSlot, size]
  cases k with
  | zero => rfl
  | succ k => rw [freeIndex, if_neg (by simp [free])]

theorem slots_of_freeIndex {b : Bindings} {tries n : Nat} (taken : slot (b.freeIndex tries n) ∈ b.names) :
    ∀ i ≤ tries, slot (n + i) ∈ b.names := by
  induction tries generalizing n with
  | zero =>
    intro i below
    rw [Nat.le_zero.mp below]
    exact taken
  | succ tries ih =>
    simp only [freeIndex] at taken
    split at taken
    · rename_i first
      intro i below
      cases i with
      | zero => exact contains_iff.mp first
      | succ i =>
        rw [Nat.add_comm i 1, ← Nat.add_assoc]
        exact ih taken i (by omega)
    · rename_i free
      exact absurd (contains_iff.mpr taken) free

/-- One of the slots from the size on is free, for they are one more than the names. -/
theorem freeSlot_not_mem (b : Bindings) : b.freeSlot ∉ b.names := by
  intro taken
  have slots := slots_of_freeIndex taken
  have within : (List.range (b.size + 1)).map (fun i => slot (b.size + i)) ⊆ b.names := by
    intro name member
    obtain ⟨i, inRange, rfl⟩ := List.mem_map.mp member
    apply slots
    have := List.mem_range.mp inRange
    omega
  have distinct : ((List.range (b.size + 1)).map fun i => slot (b.size + i)).Nodup := by
    apply List.nodup_range.map
    intro i j same
    have := slot_inj same
    omega
  have count := (distinct.subperm within).length_le
  simp only [List.length_map, List.length_range, names, size] at count
  omega

theorem entries_insert {b : Bindings} {name : String} (v : Json) (fresh : name ∉ b.names) :
    (b.insert name v).entries = b.entries ++ [(name, v)] := by
  obtain ⟨entries⟩ := b
  unfold names at fresh
  show put name v entries = _
  induction entries with
  | nil => rfl
  | cons e rest ih =>
    simp only [List.map_cons, List.mem_cons, not_or] at fresh
    simp only [put, if_neg (Ne.symm fresh.1), List.cons_append, ih fresh.2]

theorem get?_insert (b : Bindings) (name : String) (v : Json) : (b.insert name v).get? name = some v := by
  unfold insert get?
  induction b.entries with
  | nil => simp [put]
  | cons e rest ih =>
    by_cases same : e.1 = name
    · simp [put, same]
    · simpa [put, same] using ih

theorem get?_insert_of_ne (b : Bindings) {name other : String} (v : Json) (ne : other ≠ name) :
    (b.insert name v).get? other = b.get? other := by
  unfold insert get?
  induction b.entries with
  | nil => simp [put, Ne.symm ne]
  | cons e rest ih =>
    by_cases same : e.1 = name
    · simp [put, same, Ne.symm ne]
    · by_cases here : e.1 = other
      · simp [put, here, ne]
      · simpa [put, same, here] using ih

theorem nodup_names_insert {b : Bindings} (distinct : b.names.Nodup) (name : String) (v : Json) :
    (b.insert name v).names.Nodup := by
  rw [names_insert]
  split
  · exact distinct
  · rename_i fresh
    exact List.nodup_append.mpr ⟨distinct, List.nodup_singleton name, by
      rintro other member _ single rfl
      exact fresh (List.mem_singleton.mp single ▸ member)⟩

theorem nodup_names_merge {b : Bindings} (distinct : b.names.Nodup) (own : Bindings) : (b.merge own).names.Nodup := by
  obtain ⟨entries⟩ := own
  induction entries generalizing b with
  | nil => exact distinct
  | cons e rest ih => exact ih (nodup_names_insert distinct e.1 e.2)

theorem get?_merge {own : Bindings} (distinct : own.names.Nodup) (b : Bindings) (name : String) :
    (b.merge own).get? name = (own.get? name).or (b.get? name) := by
  obtain ⟨entries⟩ := own
  induction entries generalizing b with
  | nil => rfl
  | cons e rest ih =>
    obtain ⟨fresh, later⟩ := List.nodup_cons.mp distinct
    have step : b.merge ⟨e :: rest⟩ = (b.insert e.1 e.2).merge ⟨rest⟩ := rfl
    rw [step, ih _ later]
    by_cases same : e.1 = name
    · subst same
      have absent : Bindings.get? ⟨rest⟩ e.1 = none := by
        simp only [get?, Option.map_eq_none_iff, List.find?_eq_none, decide_eq_true_eq]
        exact fun entry member named => fresh (List.mem_map.mpr ⟨entry, member, named⟩)
      rw [absent, Option.none_or, get?_insert]
      simp [get?]
    · rw [get?_insert_of_ne b e.2 (Ne.symm same)]
      simp [get?, same]

def Agree (b other : Bindings) : Prop := ∀ name v w, b.get? name = some v → other.get? name = some w → v = w

theorem get?_merge_left {b other : Bindings} (distinct : other.names.Nodup) (agree : Agree b other) {name : String}
    {v : Json} (found : b.get? name = some v) : (b.merge other).get? name = some v := by
  rw [get?_merge distinct, found]
  cases again : other.get? name with
  | none => rfl
  | some w => rw [Option.some_or, agree name v w found again]

theorem get?_of_prefix {b more : Bindings} (kept : b.entries <+: more.entries) {name : String} {v : Json}
    (found : b.get? name = some v) : more.get? name = some v := by
  obtain ⟨entry, first, value⟩ := Option.map_eq_some_iff.mp found
  obtain ⟨later, whole⟩ := kept
  rw [get?, ← whole, List.find?_append, first, Option.some_or, Option.map_some, value]

theorem mem_of_get? {b : Bindings} {name : String} {v : Json} (found : b.get? name = some v) : (name, v) ∈ b.entries := by
  obtain ⟨entry, first, rfl⟩ := Option.map_eq_some_iff.mp found
  have named : entry.1 = name := by simpa using List.find?_some first
  rw [← named]
  exact List.mem_of_find?_eq_some first

theorem get?_of_mem {b : Bindings} (distinct : b.names.Nodup) {e : String × Json} (member : e ∈ b.entries) :
    b.get? e.1 = some e.2 := by
  cases found : b.get? e.1 with
  | none =>
    have missing := List.find?_eq_none.mp (Option.map_eq_none_iff.mp found)
    exact absurd (decide_eq_true rfl) (missing e member)
  | some v =>
    rw [Option.some.injEq]
    exact congrArg Prod.snd (List.inj_on_of_nodup_map distinct (mem_of_get? found) member rfl)

theorem get?_eq_none {b : Bindings} {name : String} (missing : b.get? name = none) : name ∉ b.names := by
  intro member
  obtain ⟨entry, there, named⟩ := List.mem_map.mp member
  have other := List.find?_eq_none.mp (Option.map_eq_none_iff.mp missing) entry there
  simp [named] at other

end Bindings
end RelationFilter
