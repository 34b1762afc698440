import RelationFilter.Proofs.Sql.Uniform

namespace RelationFilter

open Sql

namespace Bindings

def last? (entries : List (String × Json)) (name : String) : Option Json := entries.reverse.lookup name

theorem last?_append (first second : List (String × Json)) (name : String) :
    last? (first ++ second) name = (last? second name).or (last? first name) := by
  rw [last?, List.reverse_append, List.lookup_append]
  rfl

theorem lookup_single (name : String) (e : String × Json) : [e].lookup name = if name = e.1 then some e.2 else none := by
  obtain ⟨key, v⟩ := e
  by_cases same : name = key
  · simp [same]
  · have test : (name == key) = false := beq_eq_false_iff_ne.mpr same
    simp only [List.lookup_cons, test, List.lookup_nil, if_neg same]

theorem exists_of_lookup {entries : List (String × Json)} {name : String} {v : Json}
    (found : entries.lookup name = some v) : (name, v) ∈ entries := by
  obtain ⟨before, after, shape, -⟩ := List.lookup_eq_some_iff.mp found
  rw [shape]
  exact List.mem_append_right _ List.mem_cons_self

theorem get?_merge_last (b own : Bindings) (name : String) :
    (b.merge own).get? name = (last? own.entries name).or (b.get? name) := by
  obtain ⟨entries⟩ := own
  induction entries generalizing b with
  | nil => rfl
  | cons e rest ih =>
    have step : b.merge ⟨e :: rest⟩ = (b.insert e.1 e.2).merge ⟨rest⟩ := rfl
    have parts : e :: rest = [e] ++ rest := rfl
    rw [step, ih, parts, last?_append, Option.or_assoc]
    congr 1
    rw [last?, List.reverse_singleton, lookup_single]
    by_cases same : name = e.1
    · rw [if_pos same, same, get?_insert, Option.some_or]
    · rw [if_neg same, get?_insert_of_ne b e.2 same, Option.none_or]

theorem get?_eq_none_iff {b : Bindings} {name : String} : b.get? name = none ↔ name ∉ b.names := by
  constructor
  · exact get?_eq_none
  · intro absent
    cases found : b.get? name with
    | none => rfl
    | some v => exact absurd (mem_names_of_get? found) absent

/-- From `b` to `more`: the slots were free, and each name has the last value that `own` gives it, else the value of its
slot, else what it had. -/
structure Overwrites (own slots : List (String × Json)) (b more : Bindings) : Prop where
  fresh : ∀ s ∈ slots, s.1 ∉ b.names
  distinct : (slots.map Prod.fst).Nodup
  get? : ∀ name, more.get? name = (last? own name).or ((slots.lookup name).or (b.get? name))

variable {own slots more others : List (String × Json)} {b c e : Bindings}

/-- A name that is free after a step was given no value by it. -/
theorem Overwrites.free (h : Overwrites own slots b c) {name : String} (free : name ∉ c.names) :
    last? own name = none ∧ slots.lookup name = none ∧ name ∉ b.names := by
  have none := h.get? name
  rw [get?_eq_none_iff.mpr free] at none
  simpa [Option.or_eq_none_iff, get?_eq_none_iff] using none.symm

theorem Overwrites.trans (h : Overwrites own slots b c) (h' : Overwrites more others c e) :
    Overwrites (own ++ more) (slots ++ others) b e where
  fresh := by
    intro s member
    rcases List.mem_append.mp member with first | second
    · exact h.fresh s first
    · exact (h.free (h'.fresh s second)).2.2
  distinct := by
    apply nodup_keys_append h.distinct h'.distinct
    intro s inFirst s' inSecond same
    have free := (h.free (h'.fresh s' inSecond)).2.1
    rw [← same, List.lookup_eq_none_iff] at free
    simpa using free s inFirst
  get? := by
    intro name
    rw [h'.get?, h.get?, last?_append, List.lookup_append, Option.or_assoc]
    congr 1
    cases found : others.lookup name with
    | none => simp
    | some v =>
      obtain ⟨unnamed, unslotted, unbound⟩ := h.free (h'.fresh _ (exists_of_lookup found))
      simp only at unnamed unslotted
      simp [unnamed, unslotted]

theorem stepwise_overwrites : Stepwise Overwrites where
  refl b := ⟨by simp, .nil, fun name => by simp [last?]⟩
  bind b v := by
    refine ⟨?_, List.nodup_singleton _, ?_⟩
    · intro s member
      rw [List.mem_singleton.mp member]
      exact b.freeSlot_not_mem
    · intro name
      rw [last?, List.reverse_nil, List.lookup_nil, Option.none_or, lookup_single]
      by_cases same : name = b.freeSlot
      · rw [if_pos same, same, get?_insert, Option.some_or]
      · rw [if_neg same, get?_insert_of_ne b v same, Option.none_or]
  merge b own := ⟨by simp, .nil, fun name => by simp [get?_merge_last]⟩
  trans := .trans

theorem stepwise_nodup : Stepwise fun _ _ b more => b.names.Nodup → more.names.Nodup where
  refl _ distinct := distinct
  bind _ _ distinct := nodup_names_insert distinct _ _
  merge _ own distinct := nodup_names_merge distinct own
  trans first second distinct := second (first distinct)

end Bindings

namespace Condition

theorem render_overwrites (d : Dialect) (c : Condition) (b : Bindings) :
    ∃ slots, Fills (c.template d) slots (c.render d b).1 ∧ Bindings.Overwrites c.own slots b (c.render d b).2 :=
  render_realizes d Bindings.stepwise_overwrites c b

end Condition

end RelationFilter
