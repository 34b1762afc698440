import Mathlib.Data.List.Forall2
import Mathlib.Data.List.Induction
import RelationFilter.Proofs.Schema.Lookup
import RelationFilter.Schema.Reader

namespace RelationFilter.Catalog

inductive Change where
  | save (c : Collection)
  | delete (nameOrId : String)
  | load (v : Json)

/-- The catalog after a change; what cannot be loaded leaves it as it is. -/
def change (cat : Catalog) : Change → Catalog
  | .save c => cat.save c
  | .delete nameOrId => cat.delete nameOrId
  | .load v =>
    match cat.load v with
    | .ok loaded => loaded.1
    | .error _ => cat

def history (changes : List Change) : Catalog := changes.foldl change empty

abbrev Entries := List (String × Collection)

namespace Entries

def put (key : String) (c : Collection) : Entries → Entries
  | [] => [(key, c)]
  | e :: rest => if e.1 = key then (key, c) :: rest else e :: put key c rest

def remove (key : String) (es : Entries) : Entries := es.eraseP fun e => e.1 = key

def stale? (c : Collection) (es : Entries) : Option (String × Collection) :=
  es.find? fun e => e.1 ≠ c.id && Text.sameIgnoringCase e.2.name c.name

def save (es : Entries) (c : Collection) : Entries :=
  match stale? c es with
  | some stale => put c.id c (remove stale.1 es)
  | none => put c.id c es

def get? (es : Entries) (nameOrId : String) : Option Collection :=
  ((es.find? fun e => e.1 = nameOrId).or
    (es.find? fun e => Text.sameIgnoringCase e.2.name nameOrId)).map Prod.snd

def delete (es : Entries) (nameOrId : String) : Entries :=
  match get? es nameOrId with
  | some c => remove c.id es
  | none => es

def change (es : Entries) : Change → Entries
  | .save c => save es c
  | .delete nameOrId => delete es nameOrId
  | .load v =>
    match definitions v with
    | .ok cs => cs.foldl save es
    | .error _ => es

end Entries

def entries (cat : Catalog) : Entries := cat.collections.map fun c => (c.id, c)

/-- The value defines the collections: as an array of definitions, or as one definition. -/
def Defines (v : Json) (cs : List Collection) : Prop :=
  match v with
  | .array items => List.Forall₂ (fun item c => Collection.read item = .ok c) items cs
  | .object members => ∃ c, Collection.read (.object members) = .ok c ∧ cs = [c]
  | _ => False

theorem mapM_eq_ok_iff {α β ε : Type} (read : α → Except ε β) (items : List α) (found : List β) :
    items.mapM read = .ok found ↔ List.Forall₂ (fun item b => read item = .ok b) items found := by
  induction items generalizing found with
  | nil => cases found <;> simp [Pure.pure, Except.pure]
  | cons item rest ih =>
    rw [List.mapM_cons]
    cases first : read item with
    | error e => cases found <;> simp [Bind.bind, Except.bind, first]
    | ok b =>
      cases others : rest.mapM read with
      | error e => cases found <;> simp [Bind.bind, Except.bind, ← ih, others, first]
      | ok bs => cases found <;> simp [Bind.bind, Except.bind, Pure.pure, Except.pure, ← ih, others, first]

theorem definitions_eq_ok {v : Json} {cs : List Collection} : definitions v = .ok cs ↔ Defines v cs := by
  unfold definitions Defines
  cases v with
  | array items =>
    dsimp only
    rw [← mapM_eq_ok_iff]
    cases items.mapM Collection.read <;> simp [Except.mapError]
  | object members =>
    dsimp only
    cases Collection.read (.object members) <;> simp [Except.mapError, Except.map, eq_comm]
  | _ => simp

theorem entries_put (new : Collection) (cs : List Collection) :
    Entries.put new.id new (entries ⟨cs⟩) = entries ⟨put new cs⟩ := by
  induction cs with
  | nil => rfl
  | cons c rest ih =>
    by_cases same : c.id = new.id
    · simp [entries, Entries.put, put, same]
    · simpa [entries, Entries.put, put, same] using ih

theorem remove_entries (key : String) (cs : List Collection) :
    Entries.remove key (entries ⟨cs⟩) = entries ⟨cs.eraseP fun c => c.id = key⟩ := by
  simp [Entries.remove, entries, List.eraseP_map, Function.comp_def]

theorem stale?_entries (new : Collection) (cs : List Collection) :
    Entries.stale? new (entries ⟨cs⟩) = (cs.find? (isStale new)).map fun c => (c.id, c) := by
  have same : (fun c : Collection => c.id ≠ new.id && Text.sameIgnoringCase c.name new.name) = isStale new := by
    funext c
    rfl
  rw [Entries.stale?, entries, List.find?_map, ← same]
  rfl

/-- The first collection that gives way is the one with its id. -/
theorem eraseP_id_of_find? {cs : List Collection} (apart : cs.Pairwise Apart) {p : Collection → Bool} {c : Collection}
    (found : cs.find? p = some c) : (cs.eraseP fun c' => c'.id = c.id) = cs.eraseP p := by
  induction cs with
  | nil => cases found
  | cons first rest ih =>
    obtain ⟨others, later⟩ := List.pairwise_cons.mp apart
    by_cases here : p first = true
    · rw [List.find?_cons_of_pos here] at found
      cases found
      rw [List.eraseP_cons_of_pos here, List.eraseP_cons_of_pos (by simp)]
    · rw [List.find?_cons_of_neg here] at found
      have other : first.id ≠ c.id := (others c (List.mem_of_find?_eq_some found)).1
      rw [List.eraseP_cons_of_neg here, List.eraseP_cons_of_neg (by simpa using other), ih later found]

theorem entries_save {cat : Catalog} (keyed : cat.Keyed) (c : Collection) :
    cat.entries.save c = (cat.save c).entries := by
  rw [Entries.save, stale?_entries, save]
  cases stale : cat.collections.find? (isStale c) with
  | none =>
    have none_stale : ∀ c' ∈ cat.collections, ¬ isStale c c' = true := List.find?_eq_none.mp stale
    rw [List.eraseP_of_forall_not none_stale]
    exact entries_put c cat.collections
  | some found =>
    rw [← eraseP_id_of_find? keyed stale, ← entries_put, ← remove_entries]
    rfl

theorem get?_entries (cat : Catalog) (nameOrId : String) : cat.entries.get? nameOrId = cat.get? nameOrId := by
  simp [Entries.get?, entries, get?, List.find?_map, Option.map_or, Option.map_map, Function.comp_def]

theorem entries_delete (cat : Catalog) (nameOrId : String) :
    cat.entries.delete nameOrId = (cat.delete nameOrId).entries := by
  rw [Entries.delete, get?_entries, delete]
  cases cat.get? nameOrId with
  | none => rfl
  | some c => exact remove_entries c.id cat.collections

theorem Keyed.saveAll {cat : Catalog} (keyed : cat.Keyed) (cs : List Collection) : (cat.saveAll cs).Keyed := by
  induction cs generalizing cat with
  | nil => exact keyed
  | cons c rest ih => exact ih (keyed.save c)

theorem entries_saveAll {cat : Catalog} (keyed : cat.Keyed) (cs : List Collection) :
    cs.foldl Entries.save cat.entries = (cat.saveAll cs).entries := by
  induction cs generalizing cat with
  | nil => rfl
  | cons c rest ih =>
    rw [List.foldl_cons, entries_save keyed, ih (keyed.save c)]
    rfl

theorem Keyed.change {cat : Catalog} (keyed : cat.Keyed) (a : Change) : (cat.change a).Keyed := by
  cases a with
  | save c => exact keyed.save c
  | delete nameOrId => exact keyed.delete nameOrId
  | load v =>
    simp only [Catalog.change, load]
    cases definitions v with
    | error e => exact keyed
    | ok cs => exact keyed.saveAll cs

theorem entries_change {cat : Catalog} (keyed : cat.Keyed) (a : Change) :
    cat.entries.change a = (cat.change a).entries := by
  cases a with
  | save c => exact entries_save keyed c
  | delete nameOrId => exact entries_delete cat nameOrId
  | load v =>
    simp only [Catalog.change, load, Entries.change]
    cases definitions v with
    | error e => rfl
    | ok cs => exact entries_saveAll keyed cs

theorem entries_history (changes : List Change) :
    (history changes).Keyed ∧ changes.foldl Entries.change [] = (history changes).entries := by
  induction changes using List.reverseRecOn with
  | nil => exact ⟨.nil, rfl⟩
  | append_singleton before a ih =>
    obtain ⟨keyed, same⟩ := ih
    have step : history (before ++ [a]) = (history before).change a := by simp [history]
    rw [step, List.foldl_append, same]
    exact ⟨keyed.change a, entries_change keyed a⟩

def isApart (new c : Collection) : Bool := c.id ≠ new.id && !Text.sameIgnoringCase c.name new.name

theorem filter_put (new : Collection) (cs : List Collection) :
    (put new cs).filter (isApart new) = cs.filter (isApart new) := by
  have own : isApart new new = false := by simp [isApart]
  induction cs with
  | nil => simp [put, own]
  | cons c rest ih =>
    unfold put
    split
    · rename_i same
      have replaced : isApart new c = false := by simp [isApart, same]
      rw [List.filter_cons_of_neg (by simp [own]), List.filter_cons_of_neg (by simp [replaced])]
    · rw [List.filter_cons, List.filter_cons, ih]

theorem filter_save (cat : Catalog) (c : Collection) :
    (cat.save c).collections.filter (isApart c) = cat.collections.filter (isApart c) := by
  rw [save, filter_put]
  induction cat.collections with
  | nil => rfl
  | cons c' rest ih =>
    by_cases stale : isStale c c' = true
    · have gone : isApart c c' = false := by
        simp only [isStale, Bool.and_eq_true] at stale
        simp [isApart, stale.2]
      rw [List.eraseP_cons_of_pos stale, List.filter_cons_of_neg (by simp [gone])]
    · rw [List.eraseP_cons_of_neg stale, List.filter_cons, List.filter_cons, ih]

theorem get?_save (cat : Catalog) (c : Collection) : (cat.save c).get? c.id = some c := by
  have first (cs : List Collection) : (put c cs).find? (fun c' => c'.id = c.id) = some c := by
    induction cs with
    | nil => simp [put]
    | cons c' rest ih =>
      unfold put
      split
      · simp
      · rename_i other
        rw [List.find?_cons_of_neg (by simpa using other), ih]
  simp [get?, save, first]

/-- After any changes each collection is held under its own id, and no id and no name is there twice. A load saves all the
definitions of a value or none. Saving a collection puts it under its id and in the place of every collection of its name,
and keeps all others with their order. -/
theorem history_keyed (changes : List Change) :
    let cat := history changes
    changes.foldl Entries.change [] = cat.entries ∧ cat.Keyed ∧ (∀ c ∈ cat.collections, cat.get? c.id = some c) ∧
    (∀ v cs, Defines v cs → cat.load v = .ok (cat.saveAll cs, cs.length)) ∧
    (∀ v, (∀ cs, ¬ Defines v cs) → (∃ e, cat.load v = .error e) ∧ cat.change (.load v) = cat) ∧
    ∀ c, (cat.save c).get? c.id = some c ∧
      (cat.save c).collections.filter (isApart c) = cat.collections.filter (isApart c) ∧
      ∀ c' ∈ (cat.save c).collections, Text.sameIgnoringCase c'.name c.name = true → c' = c := by
  intro cat
  obtain ⟨keyed, same⟩ := entries_history changes
  refine ⟨same, keyed, fun c member => keyed.get?_id member, ?_, ?_, ?_⟩
  · intro v cs defines
    rw [load, definitions_eq_ok.mpr defines]
    rfl
  · intro v undefined
    cases read : definitions v with
    | ok cs => exact absurd (definitions_eq_ok.mp read) (undefined cs)
    | error e =>
      have failed : cat.load v = .error e := by rw [load, read]; rfl
      exact ⟨⟨e, failed⟩, by rw [change, failed]⟩
  · intro c
    have saved := get?_save cat c
    exact ⟨saved, filter_save cat c, fun c' member named => (keyed.save c).eq member (mem_of_get? saved) (.inr named)⟩

/-- An array with a value that defines nothing is not loaded, and a collection gives way to another one of its name. -/
theorem history_keyed_renamed :
    let posts : Collection := { id := "a", name := "posts" }
    let renamed : Collection := { id := "c", name := "Posts" }
    let loaded : Json := .array [.object [("id", .string "b"), ("name", .string "users")], .null]
    let cat := history [.save posts, .load loaded, .save { id := "u", name := "users" }]
    cat.names = ["posts", "users"] ∧ cat.change (.load loaded) = cat ∧ (cat.save renamed).names = ["users", "Posts"] ∧
      ∀ c ∈ (cat.save renamed).collections, Text.sameIgnoringCase c.name "Posts" = true → c = renamed := by
  intro posts renamed loaded cat
  obtain ⟨-, -, -, -, unreadable, saving⟩ :=
    history_keyed [.save posts, .load loaded, .save { id := "u", name := "users" }]
  have undefined : ∀ cs, ¬ Defines loaded cs := by
    intro cs defines
    cases definitions_eq_ok.mpr defines
  exact ⟨by decide +kernel, (unreadable loaded undefined).2, by decide +kernel, (saving renamed).2.2⟩

end RelationFilter.Catalog
