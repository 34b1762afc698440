import Mathlib.Data.List.Induction
import Mathlib.Data.List.Nodup
import RelationFilter.Proofs.Blog
import RelationFilter.Proofs.Json.Reread
import RelationFilter.Proofs.Path.Course

namespace RelationFilter

open Json

namespace Submitted

/-- The different items that are not empty, in the order in which they occur first. -/
structure ListsOnce (items found : List String) : Prop where
  nodup : found.Nodup
  mem_iff : ∀ item, item ∈ found ↔ item ∈ items ∧ item ≠ ""
  order : found.Pairwise fun item later => items.idxOf item < items.idxOf later

theorem addItem_of_known {found : List String} {item : String} (known : item = "" ∨ item ∈ found) :
    addItem found item = found := by
  rw [addItem, if_pos]
  simpa using known

theorem addItem_of_new {found : List String} {item : String} (shown : item ≠ "") (new : item ∉ found) :
    addItem found item = found ++ [item] := by
  rw [addItem, if_neg]
  simp [shown, new]

theorem ListsOnce.order_concat {items found : List String} (lists : ListsOnce items found) (item : String) :
    found.Pairwise fun a b => (items ++ [item]).idxOf a < (items ++ [item]).idxOf b := by
  refine lists.order.imp_of_mem fun {a b} first second before => ?_
  rw [List.idxOf_append_of_mem ((lists.mem_iff a).mp first).1, List.idxOf_append_of_mem ((lists.mem_iff b).mp second).1]
  exact before

theorem ListsOnce.concat {items found : List String} (lists : ListsOnce items found) (item : String) :
    ListsOnce (items ++ [item]) (addItem found item) := by
  by_cases known : item = "" ∨ item ∈ found
  · rw [addItem_of_known known]
    refine ⟨lists.nodup, fun other => ?_, lists.order_concat item⟩
    rw [lists.mem_iff, List.mem_append, List.mem_singleton]
    constructor
    · exact fun listed => ⟨.inl listed.1, listed.2⟩
    · rintro ⟨there | rfl, shown⟩
      · exact ⟨there, shown⟩
      · exact (lists.mem_iff other).mp (known.resolve_left shown)
  · obtain ⟨shown, new⟩ := not_or.mp known
    have unseen : item ∉ items := fun there => new ((lists.mem_iff item).mpr ⟨there, shown⟩)
    rw [addItem_of_new shown new]
    -- A new item stands behind all others in the list, as it does among the items.
    refine ⟨?_, fun other => ?_, ?_⟩
    · rw [List.nodup_append]
      refine ⟨lists.nodup, List.nodup_singleton item, ?_⟩
      rintro a member b single rfl
      exact new (List.mem_singleton.mp single ▸ member)
    · rw [List.mem_append, List.mem_singleton, lists.mem_iff, List.mem_append, List.mem_singleton]
      constructor
      · rintro (⟨there, other_shown⟩ | rfl)
        · exact ⟨.inl there, other_shown⟩
        · exact ⟨.inr rfl, shown⟩
      · rintro ⟨there | rfl, other_shown⟩
        · exact .inl ⟨there, other_shown⟩
        · exact .inr rfl
    · refine List.pairwise_append.mpr ⟨lists.order_concat item, List.pairwise_singleton _ _, ?_⟩
      rintro a member b single
      rw [List.mem_singleton.mp single, List.idxOf_append_of_mem ((lists.mem_iff a).mp member).1,
        List.idxOf_append_of_notMem unseen]
      have before := List.idxOf_lt_length_of_mem ((lists.mem_iff a).mp member).1
      omega

theorem listsOnce_foldl (items : List String) : ListsOnce items (items.foldl addItem []) := by
  induction items using List.reverseRecOn with
  | nil => exact ⟨.nil, by simp, .nil⟩
  | append_singleton before item ih =>
    rw [List.foldl_append]
    exact ih.concat item

theorem foldl_addItem_of_nodup {found items : List String} (nodup : (found ++ items).Nodup) (shown : "" ∉ items) :
    items.foldl addItem found = found ++ items := by
  induction items generalizing found with
  | nil => simp
  | cons item rest ih =>
    obtain ⟨item_shown, rest_shown⟩ := not_or.mp (mt List.mem_cons.mpr shown)
    have new : item ∉ found := by
      intro member
      exact (List.nodup_append.mp nodup).2.2 item member item List.mem_cons_self rfl
    have later : (found ++ [item] ++ rest).Nodup := by simpa using nodup
    rw [List.foldl_cons, addItem_of_new (Ne.symm item_shown) new, ih later rest_shown, List.append_assoc]
    rfl

/-- Items that are listed once are listed as they are. -/
theorem ListsOnce.foldl_eq {items found : List String} (lists : ListsOnce items found) : found.foldl addItem [] = found :=
  foldl_addItem_of_nodup lists.nodup fun empty => ((lists.mem_iff "").mp empty).2 rfl

theorem items_strings (found : List String) : (found.map string).filterMap itemText? = found := by
  rw [List.filterMap_map]
  exact List.filterMap_some

theorem items_text (found : List String) : items (some (.string (ofStrings found).text)) = found := by
  have bracket : '[' ∈ (ofStrings found).text.toList := by simp [ofStrings, text, chars]
  have read : parse? (ofStrings found).text = some (.array (found.map string)) := parse?_ofStrings found
  simp only [items, List.contains_eq_mem, bracket, decide_true, if_true, read]
  exact items_strings found

end Submitted

namespace RecordScope

/-- The path asks with a modifier for what the request submits for a field of the kinds that may hold several values. -/
structure AsksSubmitted (s : RecordScope) (path : String) (m : Modifier) (f : Field) (r : Request) : Prop where
  allowed : RecordPath.isAllowed path
  given : s.request = some r
  segments : ∃ head name, Text.split '.' path = ["@request", "data", head] ∧ splitModifier head = .ok (name, some m) ∧
    s.base.field? name = some f
  arrayable : f.isArrayable

variable {s : RecordScope} {path : String} {f : Field} {r : Request}

theorem resolve_eq_of_outcome {o : Operand} (reached : (s.visit path).outcome = .ok o) : (resolve path s).1 = .ok o := by
  rw [resolve, reached]
  rfl

theorem resolve_each (asks : s.AsksSubmitted path .each f r) :
    ∃ o name, (resolve path s).1 = .ok o ∧
      o.bindings = .single name (.string (Json.ofStrings (Submitted.uniqueItems (r.data.get? f.name))).text) := by
  obtain ⟨head, name, shape, modifier, field⟩ := asks.segments
  obtain ⟨multiple, several⟩ := Option.isSome_iff_exists.mp asks.arrayable
  have reached : s.visit path = s.visitSubmittedItems r f multiple :=
    visit_of_course asks.allowed (shape ▸ .items asks.given modifier field several)
  exact ⟨_, _, resolve_eq_of_outcome (congrArg Visit.outcome reached), rfl⟩

theorem resolve_length (asks : s.AsksSubmitted path .length f r) :
    (resolve path s).1 = .ok { text := toString (Submitted.uniqueItems (r.data.get? f.name)).length } := by
  obtain ⟨head, name, shape, modifier, field⟩ := asks.segments
  obtain ⟨multiple, several⟩ := Option.isSome_iff_exists.mp asks.arrayable
  have reached : s.visit path = s.stay s.loaded (.ok { text := toString (submittedItems r f).length }) :=
    visit_of_course asks.allowed (shape ▸ .count asks.given modifier field several)
  exact resolve_eq_of_outcome (congrArg Visit.outcome reached)

end RecordScope

namespace Submitted

/-- The items of a value are listed once, in the order in which they occur first. Their array and its JSON text have the same
list, whatever characters are in them. That text is what a path with `:each` binds, and a path with `:length` counts the same
list. -/
theorem uniqueItems_canonical (v : Option Json) :
    let found := uniqueItems v
    ListsOnce (items v) found ∧ uniqueItems (some (ofStrings found)) = found ∧
    uniqueItems (some (.string (ofStrings found).text)) = found ∧
    ∀ (s : RecordScope) (path : String) (f : Field) (r : Request), r.data.get? f.name = v →
      (s.AsksSubmitted path .each f r → ∃ o name, (RecordScope.resolve path s).1 = .ok o ∧
        o.bindings = .single name (.string (ofStrings found).text)) ∧
      (s.AsksSubmitted path .length f r → (RecordScope.resolve path s).1 = .ok { text := toString found.length }) := by
  intro found
  have lists : ListsOnce (items v) found := listsOnce_foldl (items v)
  refine ⟨lists, ?_, ?_, ?_⟩
  · show ((found.map string).filterMap itemText?).foldl addItem [] = found
    rw [items_strings, lists.foldl_eq]
  · show (items _).foldl addItem [] = found
    rw [items_text, lists.foldl_eq]
  · rintro s path f r rfl
    exact ⟨RecordScope.resolve_each, RecordScope.resolve_length⟩

theorem uniqueItems_canonical_tags :
    (∃ o name, (RecordScope.resolve "@request.data.tags:each" Blog.scope).1 = .ok o ∧
      o.bindings = .single name (.string (ofStrings ["x", "y"]).text)) ∧
    (RecordScope.resolve "@request.data.tags:length" Blog.scope).1 = .ok { text := "2" } ∧
    uniqueItems (some (.string (ofStrings ["\"\\", "[\x01", "é"]).text)) = ["\"\\", "[\x01", "é"] := by
  let f : Field := { name := "tags", kind := .relation { collectionId := "t" } }
  let r : Request := { data := [("tags", .array [.string "x", .string "y"])] }
  have each : Blog.scope.AsksSubmitted "@request.data.tags:each" .each f r :=
    ⟨by decide, rfl, ⟨_, "tags", rfl, rfl, rfl⟩, rfl⟩
  have length : Blog.scope.AsksSubmitted "@request.data.tags:length" .length f r :=
    ⟨by decide, rfl, ⟨_, "tags", rfl, rfl, rfl⟩, rfl⟩
  have asked := (uniqueItems_canonical (some (.array [.string "x", .string "y"]))).2.2.2 Blog.scope
  have again := (uniqueItems_canonical (some (.array [.string "\"\\", .string "[\x01", .null, .string "é"]))).2.2.1
  exact ⟨(asked _ f r rfl).1 each, (asked _ f r rfl).2 length, again⟩

end Submitted
end RelationFilter
