import RelationFilter.Proofs.Json.Printed
import RelationFilter.Proofs.Sql.Rendering
import RelationFilter.Proofs.Sql.Pieces
import RelationFilter.Sql.Render

namespace RelationFilter

namespace Bindings

def mark? (b : Bindings) (name : String) : Option String := (b.indexOf? name).map fun k => "$" ++ toString k

/-- The name that is bound at the place of `name` in other bindings. -/
def counterpart? (b other : Bindings) (name : String) : Option String := (b.indexOf? name).bind fun k => other.names[k]?

theorem getElem?_of_indexOf? {b : Bindings} {name : String} {k : Nat} (h : b.indexOf? name = some k) :
    b.names[k]? = some name := by
  obtain ⟨inside, same, -⟩ := List.findIdx?_eq_some_iff_getElem.mp h
  have named : b.entries[k].1 = name := by simpa using same
  simp [names, inside, named]

theorem isName_mark {b : Bindings} {name mark : String} (h : b.mark? name = some mark) :
    SqlPiece.IsName mark.toList := by
  obtain ⟨k, -, rfl⟩ := Option.map_eq_some_iff.mp h
  rw [String.toList_append]
  exact .mk (by decide) fun c digit => isWord_toString digit

end Bindings

namespace SqlPiece

open Bindings

theorem mark_ne_word {b : Bindings} {name mark : String} {word : List Char} (h : b.mark? name = some mark)
    (isWord : ∀ c ∈ word, Text.isWord c = true) : mark ≠ String.ofList word := by
  rintro rfl
  obtain ⟨k, -, same⟩ := Option.map_eq_some_iff.mp h
  have dollar : '$' ∈ word := by
    rw [← String.toList_ofList (l := word), ← same, String.toList_append]
    simp
  exact absurd (isWord _ dollar) (by decide)

/-- Placeholders with one mark are counterparts. -/
theorem counterpart_of_mark {b b' : Bindings} {name name' : List Char} (word : ∀ c ∈ name, Text.isWord c = true)
    (word' : ∀ c ∈ name', Text.isWord c = true)
    (same : (placeholder name).rename b.mark? = (placeholder name').rename b'.mark?) :
    (placeholder name).rename (b.counterpart? b') = placeholder name' := by
  simp only [rename, placeholder.injEq, String.toList_inj] at same ⊢
  cases place : b.indexOf? (String.ofList name) with
  | none =>
    have unmarked : b.mark? (String.ofList name) = none := by rw [mark?, place, Option.map_none]
    rw [unmarked, Option.getD_none] at same
    rw [counterpart?, place, Option.bind_none, Option.getD_none, String.toList_ofList]
    cases mark : b'.mark? (String.ofList name') with
    | none =>
      rw [mark, Option.getD_none] at same
      exact String.ofList_injective same
    | some m =>
      rw [mark, Option.getD_some] at same
      exact (mark_ne_word mark word same.symm).elim
  | some k =>
    have marked : b.mark? (String.ofList name) = some ("$" ++ toString k) := by rw [mark?, place, Option.map_some]
    rw [marked, Option.getD_some] at same
    cases place' : b'.indexOf? (String.ofList name') with
    | none =>
      have unmarked : b'.mark? (String.ofList name') = none := by rw [mark?, place', Option.map_none]
      rw [unmarked, Option.getD_none] at same
      exact (mark_ne_word marked word' same).elim
    | some k' =>
      have marked' : b'.mark? (String.ofList name') = some ("$" ++ toString k') := by rw [mark?, place', Option.map_some]
      rw [marked', Option.getD_some] at same
      have places : k = k' := append_toString_inj same
      subst places
      rw [counterpart?, place, Option.bind_some, getElem?_of_indexOf? place', Option.getD_some, String.toList_ofList]

theorem counterparts_of_marks {b b' : Bindings} {ps qs : List SqlPiece}
    (word : ∀ name, placeholder name ∈ ps → ∀ c ∈ name, Text.isWord c = true)
    (word' : ∀ name, placeholder name ∈ qs → ∀ c ∈ name, Text.isWord c = true)
    (same : ps.map (rename b.mark?) = qs.map (rename b'.mark?)) : ps.map (rename (b.counterpart? b')) = qs := by
  induction ps generalizing qs with
  | nil => simpa using same.symm
  | cons p ps ih =>
    cases qs with
    | nil => cases same
    | cons q qs =>
      obtain ⟨first, later⟩ := List.cons.inj same
      have tail := ih (fun name h => word name (List.mem_cons_of_mem _ h))
        (fun name h => word' name (List.mem_cons_of_mem _ h)) later
      rw [List.map_cons, tail]
      congr 1
      cases p with
      | char c =>
        cases q with
        | char c' => exact first
        | placeholder name' => cases first
      | placeholder name =>
        cases q with
        | char c' => cases first
        | placeholder name' =>
          exact counterpart_of_mark (word name List.mem_cons_self) (word' name' List.mem_cons_self) first

/-- Texts that are one when bound names are marked are one when bound names take the names of their counterparts. -/
theorem counterparts_of_marked {b b' : Bindings} {sql sql' : String} (literal : NoDollar sql.toList)
    (literal' : NoDollar sql'.toList) (same : renamePlaceholders b.mark? sql = renamePlaceholders b'.mark? sql') :
    renamePlaceholders (b.counterpart? b') sql = sql' := by
  have marked : Spelled ((ofText sql).map (rename b.mark?)) :=
    (ofText_spelled literal).rename fun _ _ => isName_mark
  have marked' : Spelled ((ofText sql').map (rename b'.mark?)) :=
    (ofText_spelled literal').rename fun _ _ => isName_mark
  have texts : ((ofText sql).map (rename b.mark?)).flatMap chars = ((ofText sql').map (rename b'.mark?)).flatMap chars :=
    String.ofList_injective same
  have pieces := counterparts_of_marks (fun _ => word_of_mem_ofText) (fun _ => word_of_mem_ofText)
    (marked.inj marked' texts)
  rw [renamePlaceholders, pieces, text_ofText]

end SqlPiece

namespace ChainOf

open Condition SqlPiece

/-- What a chain binds follows its source as one array. -/
theorem signature_eq (d : Dialect) (m : Chain) :
    (m.signature d).toList =
      (renamePlaceholders (renderChain d m Bindings.empty).2.mark? (renderChain d m Bindings.empty).1).toList ++
        ' ' :: (Json.array (renderChain d m Bindings.empty).2.values).chars := by
  have values : (Json.array (renderChain d m Bindings.empty).2.values).chars =
      ("[" ++ String.intercalate "," ((renderChain d m Bindings.empty).2.values.map Json.text) ++ "]").toList := by
    rw [← Json.text_array, Json.text, String.toList_ofList]
  rw [values]
  simp only [signature, String.toList_append, List.append_assoc]
  rfl

theorem source_eq_of_signature_eq (d : Dialect) (m m' : Chain)
    (literal : NoDollar (renderChain d m Bindings.empty).1.toList)
    (literal' : NoDollar (renderChain d m' Bindings.empty).1.toList) (same : m.signature d = m'.signature d) :
    let source := renderChain d m Bindings.empty
    let source' := renderChain d m' Bindings.empty
    renamePlaceholders (source.2.counterpart? source'.2) source.1 = source'.1 ∧
      source.2.values.map Json.text = source'.2.values.map Json.text := by
  have lists := congrArg String.toList same
  rw [signature_eq, signature_eq] at lists
  obtain ⟨sources, values⟩ := Json.before_array_inj lists
  refine ⟨counterparts_of_marked literal literal' (String.toList_inj.mp sources), ?_⟩
  have texts := congrArg (List.map String.ofList) values
  rw [List.map_map, List.map_map] at texts
  exact texts

def boundRows (name : String) : Chain :=
  { baseAlias := "p"
    fromTable := "p"
    fromAlias := "m"
    value := "e.value"
    joins := [⟨Dialect.sqlite.boundElements name, "e", .text ""⟩]
    bindings := .single name (.int 1) }

theorem source_eq_of_signature_eq_boundRows :
    let source := renderChain .sqlite (boundRows "s") Bindings.empty
    let source' := renderChain .sqlite (boundRows "t") Bindings.empty
    NoDollar source.1.toList ∧ NoDollar source'.1.toList ∧
      (boundRows "s").signature .sqlite = (boundRows "t").signature .sqlite ∧
      renamePlaceholders (source.2.counterpart? source'.2) source.1 = source'.1 ∧
      source.2.values.map Json.text = source'.2.values.map Json.text := by
  have literal : NoDollar (renderChain .sqlite (boundRows "s") Bindings.empty).1.toList := by
    unfold NoDollar
    decide +kernel
  have literal' : NoDollar (renderChain .sqlite (boundRows "t") Bindings.empty).1.toList := by
    unfold NoDollar
    decide +kernel
  have same : (boundRows "s").signature .sqlite = (boundRows "t").signature .sqlite := by decide +kernel
  exact ⟨literal, literal', same, source_eq_of_signature_eq .sqlite (boundRows "s") (boundRows "t") literal literal' same⟩

end ChainOf
end RelationFilter
