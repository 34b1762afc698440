import Mathlib.Data.List.Basic
import RelationFilter.Proofs.Sql.Quoting
import RelationFilter.Sql.Placeholder

namespace RelationFilter.SqlPiece

open Text

def readChars : Option (List Char) → List Char
  | none => []
  | some back => ':' :: back.reverse

theorem chars_scan (pending : Option (List Char)) (cs : List Char) :
    (scan pending cs).flatMap chars = readChars pending ++ cs := by
  fun_induction scan pending cs <;> simp_all [chars, readChars]

theorem text_ofText (sql : String) : text (ofText sql) = sql := by
  rw [text, ofText, chars_scan, readChars, List.nil_append, String.ofList_toList]

def first : SqlPiece → Char
  | char c => c
  | placeholder _ => ':'

@[simp]
theorem first_rename (new : String → Option String) (p : SqlPiece) : (p.rename new).first = p.first := by
  cases p <;> rfl

theorem head?_chars (ps : List SqlPiece) : (ps.flatMap chars).head? = ps.head?.map first := by
  cases ps with
  | nil => rfl
  | cons p ps => cases p <;> rfl

def opensName (c : Char) : Bool := isWord c || c = '$'

inductive IsName : List Char → Prop
  | mk {c : Char} {cs : List Char} (opens : opensName c = true) (word : ∀ c ∈ cs, isWord c = true) : IsName (c :: cs)

theorem IsName.of_word {name : List Char} (nonempty : name ≠ []) (word : ∀ c ∈ name, isWord c = true) : IsName name := by
  cases name with
  | nil => exact absurd rfl nonempty
  | cons c cs =>
    refine .mk ?_ fun c' later => word c' (List.mem_cons_of_mem _ later)
    simp [opensName, word c List.mem_cons_self]

/-- Pieces that their text determines: a name ends before a character that would go on with it, and a colon that stands for
itself is not followed by what would open a name. -/
inductive Spelled : List SqlPiece → Prop
  | nil : Spelled []
  | char {c : Char} {rest : List SqlPiece} (apart : c = ':' → ∀ p ∈ rest.head?, opensName p.first = false)
      (later : Spelled rest) : Spelled (.char c :: rest)
  | placeholder {name : List Char} {rest : List SqlPiece} (named : IsName name)
      (apart : ∀ p ∈ rest.head?, isWord p.first = false) (later : Spelled rest) : Spelled (.placeholder name :: rest)

def NoDollar (cs : List Char) : Prop := ¬ [':', '$'] <:+: cs

theorem NoDollar.of_append (cs : List Char) {ds : List Char} (h : NoDollar (cs ++ ds)) : NoDollar ds :=
  fun inside => h (inside.trans (List.suffix_append cs ds).isInfix)

theorem NoDollar.head {c : Char} {cs : List Char} (h : NoDollar (':' :: c :: cs)) : c ≠ '$' := by
  rintro rfl
  exact h (List.prefix_append [':', '$'] cs).isInfix

theorem scan_spelled (pending : Option (List Char)) (cs : List Char) (literal : NoDollar (readChars pending ++ cs))
    (word : ∀ back, pending = some back → ∀ c ∈ back, isWord c = true) : Spelled (scan pending cs) := by
  have colon : ∀ cs, ∀ p ∈ (scan (some []) cs).head?, p.first = ':' := by
    intro cs p member
    have head := head?_chars (scan (some []) cs)
    rw [chars_scan, member] at head
    simpa [readChars] using head.symm
  have notWord : isWord ':' = false := by decide
  fun_induction scan pending cs with
  | case1 => exact .nil
  | case2 => exact .char (by simp) .nil
  | case3 back nonempty =>
    refine .placeholder (.of_word (by simpa using nonempty) ?_) (by simp) .nil
    intro c member
    exact word back rfl c (List.mem_reverse.mp member)
  | case4 rest ih => exact ih (by simpa [readChars] using literal) (by simp)
  | case5 c rest other ih =>
    exact .char (fun same => absurd same other) (ih (NoDollar.of_append [c] literal) (by simp))
  | case6 c rest own ih =>
    refine ih (by simpa [readChars] using literal) ?_
    rintro _ ⟨⟩ c' member
    rw [List.mem_singleton.mp member, own]
  | case7 rest own ih =>
    refine .char (fun _ p member => ?_) (ih (NoDollar.of_append [':'] literal) (by simp))
    rw [colon rest p member]
    decide
  | case8 c rest own other ih =>
    have notDollar : c ≠ '$' := literal.head
    refine .char (fun _ p member => ?_) (.char (fun same => absurd same other) ?_)
    · cases member
      simpa [opensName, first, notDollar] using own
    · exact ih (NoDollar.of_append [':', c] literal) (by simp)
  | case9 back c rest nonempty own ih =>
    refine ih (by simpa [readChars] using literal) ?_
    rintro _ ⟨⟩ c' member
    rcases List.mem_cons.mp member with rfl | earlier
    · exact own
    · exact word back rfl c' earlier
  | case10 back rest nonempty own ih =>
    refine .placeholder (.of_word (by simpa using nonempty) ?_) ?_ (ih ?_ (by simp))
    · intro c member
      exact word back rfl c (List.mem_reverse.mp member)
    · intro p member
      rw [colon rest p member]
      exact notWord
    · exact NoDollar.of_append (readChars (some back)) (by simpa [readChars] using literal)
  | case11 back c rest nonempty own other ih =>
    refine .placeholder (.of_word (by simpa using nonempty) ?_) ?_ (.char (fun same => absurd same other) (ih ?_ (by simp)))
    · intro c member
      exact word back rfl c (List.mem_reverse.mp member)
    · rintro p ⟨⟩
      simpa [first] using own
    · exact NoDollar.of_append (readChars (some back) ++ [c]) (by simpa [readChars] using literal)

theorem ofText_spelled {sql : String} (literal : NoDollar sql.toList) : Spelled (ofText sql) :=
  scan_spelled none sql.toList literal (by simp)

theorem word_of_mem_scan {pending : Option (List Char)} {cs name : List Char}
    (word : ∀ back, pending = some back → ∀ c ∈ back, isWord c = true) (member : placeholder name ∈ scan pending cs) :
    ∀ c ∈ name, isWord c = true := by
  fun_induction scan pending cs with
  | case10 back rest nonempty own ih =>
    rcases List.mem_cons.mp member with same | later
    · cases same
      simpa using word back rfl
    · exact ih (by simp) later
  | case11 back c rest nonempty own other ih =>
    rcases List.mem_cons.mp member with same | later
    · cases same
      simpa using word back rfl
    · exact ih (by simp) (by simpa using later)
  | _ => simp_all

theorem word_of_mem_ofText {sql : String} {name : List Char} (member : placeholder name ∈ ofText sql) :
    ∀ c ∈ name, isWord c = true :=
  word_of_mem_scan (by simp) member

theorem Spelled.rename {new : String → Option String} (named : ∀ name next, new name = some next → IsName next.toList)
    {ps : List SqlPiece} (h : Spelled ps) : Spelled (ps.map (rename new)) := by
  have heads : ∀ {rest : List SqlPiece} {test : Char → Bool}, (∀ p ∈ rest.head?, test p.first = false) →
      ∀ p ∈ (rest.map (SqlPiece.rename new)).head?, test p.first = false := by
    intro rest test all p member
    cases rest with
    | nil => cases member
    | cons q rest =>
      cases member
      rw [first_rename]
      exact all q rfl
  induction h with
  | nil => exact .nil
  | char apart _ ih => exact .char (fun colon => heads (apart colon)) ih
  | @placeholder name rest own apart _ ih =>
    refine .placeholder ?_ (heads apart) ih
    cases next : new (String.ofList name) with
    | none => simpa using own
    | some next' => exact named _ _ next

theorem exists_first {ps : List SqlPiece} {c : Char} {cs : List Char} (h : ps.flatMap chars = c :: cs) :
    ∃ p ∈ ps.head?, p.first = c := by
  have head := head?_chars ps
  rw [h, List.head?_cons, eq_comm, Option.map_eq_some_iff] at head
  exact head

theorem takeWhile_of_apart {rest : List SqlPiece} (apart : ∀ p ∈ rest.head?, isWord p.first = false) :
    (rest.flatMap chars).takeWhile isWord = [] := by
  cases shape : rest.flatMap chars with
  | nil => rfl
  | cons c cs =>
    obtain ⟨p, there, rfl⟩ := exists_first shape
    simp [apart p there]

theorem Spelled.char_ne_name {c : Char} {rest : List SqlPiece} {name more : List Char} (named : IsName name)
    (apart : c = ':' → ∀ p ∈ rest.head?, opensName p.first = false) :
    c :: rest.flatMap chars ≠ ':' :: (name ++ more) := by
  intro same
  cases named with
  | mk opens word =>
    rw [List.cons_append] at same
    obtain ⟨colon, tail⟩ := List.cons.inj same
    obtain ⟨p, there, rfl⟩ := exists_first tail
    rw [apart colon p there] at opens
    cases opens

theorem Spelled.inj {ps qs : List SqlPiece} (h : Spelled ps) (h' : Spelled qs)
    (same : ps.flatMap chars = qs.flatMap chars) : ps = qs := by
  induction h generalizing qs with
  | nil =>
    cases h' with
    | nil => rfl
    | char => simp [chars] at same
    | placeholder => simp [chars] at same
  | @char c rest apart _ ih =>
    cases h' with
    | nil => simp [chars] at same
    | char apart' later' =>
      simp only [List.flatMap_cons, chars, List.cons_append, List.nil_append, List.cons.injEq] at same
      obtain ⟨rfl, tail⟩ := same
      rw [ih later' tail]
    | placeholder named' apart' later' => exact (char_ne_name named' apart same).elim
  | @placeholder name rest named apart _ ih =>
    cases h' with
    | nil => simp [chars] at same
    | char apart' later' => exact (char_ne_name named apart' same.symm).elim
    | placeholder named' apart' later' =>
      cases named with
      | mk opens word =>
        cases named' with
        | mk opens' word' =>
          simp only [List.flatMap_cons, chars, List.cons_append, List.cons.injEq, true_and] at same
          obtain ⟨rfl, tail⟩ := same
          obtain ⟨rfl, rest'⟩ := append_inj_of_takeWhile word word' (takeWhile_of_apart apart) (takeWhile_of_apart apart') tail
          rw [ih later' rest']

theorem scan_plain {cs : List Char} (plain : ':' ∉ cs) (rest : List Char) :
    scan none (cs ++ rest) = cs.map char ++ scan none rest := by
  induction cs with
  | nil => rfl
  | cons c cs ih =>
    simp only [List.mem_cons, not_or] at plain
    simp [scan, Ne.symm plain.1, ih plain.2]

theorem scan_stop {back rest : List Char} (nonempty : back ≠ []) (stop : rest.takeWhile isWord = []) :
    scan (some back) rest = placeholder back.reverse :: scan none rest := by
  cases back with
  | nil => exact absurd rfl nonempty
  | cons b back =>
    cases rest with
    | nil => rfl
    | cons c rest =>
      have other : isWord c = false := by
        cases word : isWord c with
        | false => rfl
        | true => simp [word] at stop
      by_cases colon : c = ':'
      · simp [scan, colon, (by decide : isWord ':' = false)]
      · simp [scan, colon, other]

theorem scan_name {back name rest : List Char} (word : ∀ c ∈ name, isWord c = true) (nonempty : back.reverse ++ name ≠ [])
    (stop : rest.takeWhile isWord = []) :
    scan (some back) (name ++ rest) = placeholder (back.reverse ++ name) :: scan none rest := by
  induction name generalizing back with
  | nil =>
    rw [List.append_nil] at nonempty ⊢
    exact scan_stop (by simpa using nonempty) stop
  | cons c name ih =>
    have first : isWord c = true := word c List.mem_cons_self
    have read : scan (some back) (c :: name ++ rest) = scan (some (c :: back)) (name ++ rest) := by
      cases back <;> simp [scan, first]
    rw [read, ih (fun c later => word c (List.mem_cons_of_mem _ later)) (by simp)]
    simp

def GivesWords (new : String → Option String) : Prop :=
  ∀ name next, new name = some next → next.toList ≠ [] ∧ ∀ c ∈ next.toList, isWord c = true

theorem GivesWords.getD {new : String → Option String} (words : GivesWords new) (name : List Char) (nonempty : name ≠ [])
    (word : ∀ c ∈ name, isWord c = true) :
    ((new (String.ofList name)).getD (String.ofList name)).toList ≠ [] ∧
      ∀ c ∈ ((new (String.ofList name)).getD (String.ofList name)).toList, isWord c = true := by
  cases next : new (String.ofList name) with
  | none =>
    rw [Option.getD_none, String.toList_ofList]
    exact ⟨nonempty, word⟩
  | some next' => exact words _ _ next

theorem scan_renamed {new : String → Option String} (words : GivesWords new) (pending : Option (List Char)) (cs : List Char)
    (word : ∀ back, pending = some back → ∀ c ∈ back, isWord c = true) :
    scan none (((scan pending cs).map (rename new)).flatMap chars) = (scan pending cs).map (rename new) := by
  have opened : ∀ rest, ∃ more, ((scan (some []) rest).map (rename new)).flatMap chars = ':' :: more := by
    intro rest
    have head := head?_chars ((scan (some []) rest).map (rename new))
    have own := head?_chars (scan (some []) rest)
    rw [chars_scan, readChars, List.reverse_nil, List.cons_append, List.head?_cons] at own
    rw [List.head?_map, Option.map_map, show first ∘ rename new = first from funext (first_rename new), ← own] at head
    cases shape : ((scan (some []) rest).map (rename new)).flatMap chars with
    | nil => simp [shape] at head
    | cons c more =>
      simp only [shape, List.head?_cons, Option.some.injEq] at head
      exact ⟨more, by rw [head]⟩
  have named : ∀ (back rest : List Char), (∀ c ∈ back, isWord c = true) → back ≠ [] → rest.takeWhile isWord = [] →
      scan none (chars (rename new (placeholder back.reverse)) ++ rest) =
        rename new (placeholder back.reverse) :: scan none rest := by
    intro back rest own nonempty stop
    obtain ⟨nonempty', word'⟩ := words.getD back.reverse (by simpa using nonempty) (by simpa using own)
    simpa [chars, rename, scan] using @scan_name [] _ rest word' (by simpa using nonempty') stop
  fun_induction scan pending cs with
  | case1 => rfl
  | case2 => rfl
  | case3 back nonempty => simpa [scan] using named back [] (word back rfl) nonempty rfl
  | case4 rest ih => exact ih (by simp)
  | case5 c rest other ih => simpa [chars, rename, scan, other] using ih (by simp)
  | case6 c rest own ih =>
    apply ih
    intro back same c' member
    cases same
    rw [List.mem_singleton.mp member, own]
  | case7 rest own ih =>
    have later := ih (by simp)
    obtain ⟨more, shape⟩ := opened rest
    rw [shape] at later
    simpa [chars, rename, scan, shape, (by decide : isWord ':' = false)] using later
  | case8 c rest own other ih =>
    have later := ih (by simp)
    simpa [chars, rename, scan, own, other] using later
  | case9 back c rest nonempty own ih =>
    apply ih
    intro back' same c' member
    cases same
    rcases List.mem_cons.mp member with rfl | earlier
    · exact own
    · exact word back rfl c' earlier
  | case10 back rest nonempty own ih =>
    obtain ⟨more, shape⟩ := opened rest
    have later := ih (by simp)
    rw [List.map_cons, List.flatMap_cons, named back _ (word back rfl) nonempty, later]
    rw [shape]
    rfl
  | case11 back c rest nonempty own other ih =>
    have later := ih (by simp)
    rw [List.map_cons, List.map_cons, List.flatMap_cons, List.flatMap_cons, named back _ (word back rfl) nonempty]
    · simpa [chars, rename, scan, other] using later
    · simp [chars, rename, own]

theorem ofText_renamePlaceholders {new : String → Option String} (words : GivesWords new) (sql : String) :
    ofText (renamePlaceholders new sql) = (ofText sql).map (rename new) := by
  have read := scan_renamed words none sql.toList (by simp)
  rwa [renamePlaceholders, ofText, text, String.toList_ofList]

end RelationFilter.SqlPiece
