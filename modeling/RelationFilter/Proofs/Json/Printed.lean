import RelationFilter.Json.Printer
import Mathlib.Data.List.Basic

namespace RelationFilter.Json

inductive Spot where
  | outside (depth : Nat)
  | inside (depth : Nat)
  | escaped (depth : Nat)

namespace Spot

/-- The spot behind a character. A text without blanks has none outside its strings, and the text of a value ends before
a comma or a closing bracket that is in no bracket of its own. -/
def next? : Spot → Char → Option Spot
  | outside n, c =>
    if c = '"' then some (inside n)
    else if c = '[' ∨ c = '\x7b' then some (outside (n + 1))
    else if c = ']' ∨ c = '\x7d' then if n = 0 then none else some (outside (n - 1))
    else if c = ',' then if n = 0 then none else some (outside n)
    else if c = ' ' ∨ c = '\\' then none
    else some (outside n)
  | inside n, c => if c = '"' then some (outside n) else if c = '\\' then some (escaped n) else some (inside n)
  | escaped n, _ => some (inside n)

def read? (p : Spot) : List Char → Option Spot
  | [] => some p
  | c :: cs => (p.next? c).bind fun q => q.read? cs

theorem read?_append (p : Spot) (cs ds : List Char) : p.read? (cs ++ ds) = (p.read? cs).bind fun q => q.read? ds := by
  induction cs generalizing p with
  | nil => rfl
  | cons c cs ih => simp [read?, ih, Option.bind_assoc]

theorem read?_append_of {p q : Spot} {cs : List Char} (first : p.read? cs = some q) (ds : List Char) :
    p.read? (cs ++ ds) = q.read? ds := by
  rw [read?_append, first, Option.bind_some]

end Spot

open Spot

def isBare (c : Char) : Bool := ! ['"', '\\', ' ', ',', '[', ']', '\x7b', '\x7d'].contains c

theorem bare_of_all {cs : List Char} (h : cs.all isBare = true) : ∀ c ∈ cs, isBare c = true := List.all_eq_true.mp h

theorem read?_bare {cs : List Char} (bare : ∀ c ∈ cs, isBare c = true) (n : Nat) :
    (outside n).read? cs = some (outside n) := by
  induction cs with
  | nil => rfl
  | cons c cs ih =>
    have step : (outside n).next? c = some (outside n) := by
      have apart := bare c List.mem_cons_self
      simp only [isBare, Bool.not_eq_true', List.contains_eq_mem, List.mem_cons, List.not_mem_nil, or_false,
        decide_eq_false_iff_not, not_or] at apart
      simp [next?, apart]
    rw [read?, step]
    exact ih fun c later => bare c (List.mem_cons_of_mem _ later)

theorem isBare_of_isDigit {c : Char} (digit : c.isDigit = true) : isBare c = true := by
  rw [isBare, Bool.not_eq_true', List.contains_eq_mem, decide_eq_false_iff_not]
  intro special
  have all : ['"', '\\', ' ', ',', '[', ']', '\x7b', '\x7d'].all (fun c => !c.isDigit) = true := by decide
  have other : (!c.isDigit) = true := List.all_eq_true.mp all c special
  rw [digit] at other
  cases other

theorem isBare_of_mem_toDigits {n : Nat} {c : Char} (h : c ∈ Nat.toDigits 10 n) : isBare c = true :=
  isBare_of_isDigit (Nat.isDigit_of_mem_toDigits (by decide) (by decide) h)

theorem int_bare (n : Int) : ∀ c ∈ (toString n).toList, isBare c = true := by
  intro c member
  cases n with
  | ofNat m =>
    rw [Int.toString_eq_repr, Int.repr, Nat.toList_repr] at member
    exact isBare_of_mem_toDigits member
  | negSucc m =>
    rw [Int.toString_eq_repr, Int.repr, String.toList_append, Nat.toList_repr] at member
    rcases List.mem_append.mp member with sign | digit
    · exact bare_of_all (by decide) c sign
    · exact isBare_of_mem_toDigits digit

theorem int_ne_nil (n : Int) : (toString n).toList ≠ [] := by
  cases n with
  | ofNat m =>
    rw [Int.toString_eq_repr, Int.repr, Nat.toList_repr]
    exact Nat.toDigits_ne_nil
  | negSucc m => simp [Int.toString_eq_repr, Int.repr, String.toList_append]

open Decimal

theorem zeros_bare {n : Nat} {c : Char} (h : c ∈ zeros n) : isBare c = true := by
  rw [List.eq_of_mem_replicate h]
  decide

theorem dropTrailingZeros_ne_nil (digits : List Char) : dropTrailingZeros digits ≠ [] := by
  unfold dropTrailingZeros
  split
  · simp
  · assumption

theorem dropTrailingZeros_bare {digits : List Char} (bare : ∀ c ∈ digits, isBare c = true) :
    ∀ c ∈ dropTrailingZeros digits, isBare c = true := by
  unfold dropTrailingZeros
  split
  · exact bare_of_all (by decide)
  · intro c member
    exact bare c (List.mem_reverse.mp (List.dropWhile_subset _ (List.mem_reverse.mp member)))

theorem positional_bare (l : Layout) {digits : List Char} (x : Int) (bare : ∀ c ∈ digits, isBare c = true) :
    ∀ c ∈ l.positional digits x, isBare c = true := by
  have zero : isBare '0' = true := by decide
  have point : isBare '.' = true := by decide
  intro c member
  unfold Layout.positional at member
  split at member
  · simp only [List.cons_append, List.mem_cons, List.mem_append] at member
    rcases member with rfl | rfl | padding | digit
    · exact zero
    · exact point
    · exact zeros_bare padding
    · exact bare c digit
  · dsimp only at member
    split at member
    · rcases List.mem_append.mp member with front | fraction
      · rcases List.mem_append.mp front with digit | padding
        · exact bare c digit
        · exact zeros_bare padding
      · split at fraction
        · exact bare_of_all (by decide) c fraction
        · cases fraction
    · rcases List.mem_append.mp member with front | rest
      · exact bare c (List.mem_of_mem_take front)
      · rcases List.mem_cons.mp rest with rfl | digit
        · exact point
        · exact bare c (List.mem_of_mem_drop digit)

theorem positional_ne_nil (l : Layout) {digits : List Char} (x : Int) (some : digits ≠ []) :
    l.positional digits x ≠ [] := by
  unfold Layout.positional
  dsimp only
  split
  · simp
  · split <;> simp [some]

theorem scientific_bare {digits : List Char} (x : Int) (bare : ∀ c ∈ digits, isBare c = true) :
    ∀ c ∈ scientific digits x, isBare c = true := by
  intro c member
  unfold scientific at member
  rcases List.mem_append.mp member with front | exponent
  · rcases List.mem_append.mp front with first | fraction
    · exact bare c (List.mem_of_mem_take first)
    · split at fraction
      · cases fraction
      · rcases List.mem_cons.mp fraction with rfl | digit
        · decide
        · exact bare c (List.mem_of_mem_drop digit)
  · simp only [List.mem_cons] at exponent
    rcases exponent with rfl | rfl | digit
    · decide
    · split <;> decide
    · exact isBare_of_mem_toDigits digit

theorem magnitudeText_bare (l : Layout) (f : Float) : ∀ c ∈ l.magnitudeText f, isBare c = true := by
  unfold Layout.magnitudeText
  split
  · exact bare_of_all (by decide)
  · split
    · exact bare_of_all (by decide)
    · split
      · exact positional_bare l 0 (bare_of_all (by decide))
      · have digits := dropTrailingZeros_bare fun c => isBare_of_mem_toDigits (n := (Rounding.ofFloat f).shortest.digits)
        unfold Layout.write
        dsimp only
        split
        · exact positional_bare l _ digits
        · exact scientific_bare _ digits

theorem magnitudeText_ne_nil (l : Layout) (f : Float) : l.magnitudeText f ≠ [] := by
  unfold Layout.magnitudeText
  split
  · decide
  · split
    · decide
    · split
      · exact positional_ne_nil l 0 (by decide)
      · unfold Layout.write
        dsimp only
        split
        · exact positional_ne_nil l _ (dropTrailingZeros_ne_nil _)
        · simp [scientific]

theorem float_bare (l : Layout) (f : Float) : ∀ c ∈ (l.text f).toList, isBare c = true := by
  intro c member
  rw [Layout.text, String.toList_ofList] at member
  rcases List.mem_append.mp member with sign | magnitude
  · split at sign
    · exact bare_of_all (by decide) c sign
    · cases sign
  · exact magnitudeText_bare l f c magnitude

theorem read?_escape (c : Char) (n : Nat) : (inside n).read? (escape c) = some (inside n) := by
  have hex : ∀ k < 16, hexDigit k ≠ '"' ∧ hexDigit k ≠ '\\' := by decide
  unfold escape
  split
  · rfl
  split
  · rfl
  split
  · rfl
  split
  · rfl
  split
  · rfl
  split
  · rfl
  split
  · rfl
  split
  · rename_i control
    have high := hex (c.toNat / 16) (by omega)
    have low := hex (c.toNat % 16) (by omega)
    simp [read?, next?, high, low]
  · simp [read?, next?, *]

theorem read?_escapes (cs : List Char) (n : Nat) : (inside n).read? (cs.flatMap escape) = some (inside n) := by
  induction cs with
  | nil => rfl
  | cons c cs ih => rw [List.flatMap_cons, read?_append_of (read?_escape c n), ih]

theorem read?_stringText (s : String) (n : Nat) : (outside n).read? (stringText s) = some (outside n) := by
  have opened : (outside n).next? '"' = some (inside n) := rfl
  rw [stringText, List.cons_append, read?, opened, Option.bind_some, read?_append_of (read?_escapes s.toList n)]
  rfl

mutual

theorem read?_chars : ∀ (v : Json) (n : Nat), (outside n).read? v.chars = some (outside n)
  | null, n => read?_bare (bare_of_all (by decide)) n
  | bool true, n => read?_bare (bare_of_all (by decide)) n
  | bool false, n => read?_bare (bare_of_all (by decide)) n
  | int i, n => read?_bare (int_bare i) n
  | float f, n => read?_bare (float_bare numberLayout f) n
  | string s, n => read?_stringText s n
  | array items, n => read?_itemChars items n
  | object members, n => read?_memberChars members n

theorem read?_itemChars : ∀ (items : List Json) (n : Nat), (outside (n + 1)).read? (itemChars items) = some (outside n)
  | [], _ => rfl
  | item :: rest, n => by
    rw [itemChars, read?_append_of (read?_chars item (n + 1))]
    exact read?_moreItemChars rest n

theorem read?_moreItemChars :
    ∀ (items : List Json) (n : Nat), (outside (n + 1)).read? (moreItemChars items) = some (outside n)
  | [], _ => rfl
  | item :: rest, n => by
    have comma : (outside (n + 1)).next? ',' = some (outside (n + 1)) := rfl
    rw [moreItemChars, List.cons_append, read?, comma, Option.bind_some, read?_append_of (read?_chars item (n + 1))]
    exact read?_moreItemChars rest n

theorem read?_memberChars :
    ∀ (members : List (String × Json)) (n : Nat), (outside (n + 1)).read? (memberChars members) = some (outside n)
  | [], _ => rfl
  | (key, value) :: rest, n => by
    have colon : (outside (n + 1)).next? ':' = some (outside (n + 1)) := rfl
    rw [memberChars, List.append_assoc, read?_append_of (read?_stringText key (n + 1)), List.cons_append, read?, colon,
      Option.bind_some, read?_append_of (read?_chars value (n + 1))]
    exact read?_moreMemberChars rest n

theorem read?_moreMemberChars :
    ∀ (members : List (String × Json)) (n : Nat), (outside (n + 1)).read? (moreMemberChars members) = some (outside n)
  | [], _ => rfl
  | (key, value) :: rest, n => by
    have comma : (outside (n + 1)).next? ',' = some (outside (n + 1)) := rfl
    have colon : (outside (n + 1)).next? ':' = some (outside (n + 1)) := rfl
    rw [moreMemberChars, List.cons_append, List.cons_append, read?, comma, Option.bind_some, List.append_assoc,
      read?_append_of (read?_stringText key (n + 1)), List.cons_append, read?, colon, Option.bind_some,
      read?_append_of (read?_chars value (n + 1))]
    exact read?_moreMemberChars rest n

end

theorem chars_ne_nil (v : Json) : v.chars ≠ [] := by
  cases v with
  | null => simp [chars]
  | bool b => cases b <;> simp [chars]
  | int i => exact int_ne_nil i
  | float f => simpa [chars, Layout.text] using fun _ => magnitudeText_ne_nil numberLayout f
  | string s => simp [chars, stringText]
  | array items => simp [chars]
  | object members => simp [chars]

theorem itemChars_eq (vs : List Json) : itemChars vs = [','].intercalate (vs.map chars) ++ [']'] := by
  induction vs with
  | nil => rfl
  | cons v vs ih =>
    cases vs with
    | nil => simp [itemChars, moreItemChars]
    | cons w vs =>
      have next : moreItemChars (w :: vs) = ',' :: itemChars (w :: vs) := rfl
      rw [itemChars, next, ih]
      simp [List.intercalate_cons_cons]

theorem text_array (vs : List Json) : (array vs).text = "[" ++ String.intercalate "," (vs.map text) ++ "]" := by
  rw [← String.toList_inj]
  have items : (vs.map text).map String.toList = vs.map chars := by simp [text, Function.comp_def]
  simp [text, chars, itemChars_eq, String.toList_append, String.toList_intercalate, items]

theorem chars_append_inj {v w : Json} {c c' : Char} {rest rest' : List Char} (stop : (outside 0).next? c = none)
    (stop' : (outside 0).next? c' = none) (same : v.chars ++ c :: rest = w.chars ++ c' :: rest') :
    v.chars = w.chars ∧ c :: rest = c' :: rest' := by
  rcases List.append_eq_append_iff.mp same with ⟨more, second, tail⟩ | ⟨more, first, tail⟩
  · cases more with
    | nil => exact ⟨by simpa using second.symm, by simpa using tail⟩
    | cons d more =>
      have read := read?_chars w 0
      cases tail
      rw [second, read?_append_of (read?_chars v 0), read?, stop] at read
      cases read
  · cases more with
    | nil => exact ⟨by simpa using first, by simpa using tail.symm⟩
    | cons d more =>
      have read := read?_chars v 0
      cases tail
      rw [first, read?_append_of (read?_chars w 0), read?, stop'] at read
      cases read

theorem moreItemChars_cons (vs : List Json) :
    ∃ c rest, moreItemChars vs = c :: rest ∧ (outside 0).next? c = none := by
  cases vs with
  | nil => exact ⟨_, _, rfl, rfl⟩
  | cons v vs => exact ⟨_, _, rfl, rfl⟩

theorem chars_more_inj {v w : Json} {vs ws : List Json}
    (same : v.chars ++ moreItemChars vs = w.chars ++ moreItemChars ws) :
    v.chars = w.chars ∧ moreItemChars vs = moreItemChars ws := by
  obtain ⟨c, rest, shape, stop⟩ := moreItemChars_cons vs
  obtain ⟨c', rest', shape', stop'⟩ := moreItemChars_cons ws
  rw [shape, shape'] at same ⊢
  exact chars_append_inj stop stop' same

theorem moreItemChars_inj {vs ws : List Json} (same : moreItemChars vs = moreItemChars ws) :
    vs.map chars = ws.map chars := by
  induction vs generalizing ws with
  | nil =>
    cases ws with
    | nil => rfl
    | cons w ws => simp [moreItemChars] at same
  | cons v vs ih =>
    cases ws with
    | nil => simp [moreItemChars] at same
    | cons w ws =>
      have tails : v.chars ++ moreItemChars vs = w.chars ++ moreItemChars ws := by
        simpa [moreItemChars] using same
      obtain ⟨first, later⟩ := chars_more_inj tails
      rw [List.map_cons, List.map_cons, first, ih later]

/-- An item is not empty and does not begin with a bracket that closes. -/
theorem chars_append_ne (v : Json) (cs rest : List Char) : v.chars ++ cs ≠ ']' :: rest := by
  intro same
  have read := read?_chars v 0
  cases shape : v.chars with
  | nil => exact chars_ne_nil v shape
  | cons c cs' =>
    rw [shape, List.cons_append] at same
    cases same
    rw [shape] at read
    cases read

theorem itemChars_inj {vs ws : List Json} (same : itemChars vs = itemChars ws) : vs.map chars = ws.map chars := by
  cases vs with
  | nil =>
    cases ws with
    | nil => rfl
    | cons w ws => exact absurd same.symm (chars_append_ne w _ _)
  | cons v vs =>
    cases ws with
    | nil => exact absurd same (chars_append_ne v _ _)
    | cons w ws =>
      obtain ⟨first, later⟩ := chars_more_inj same
      rw [List.map_cons, List.map_cons, first, moreItemChars_inj later]

/-- Every quote moves one of two readers into a string and the other out of one, so they never both stand outside. -/
theorem not_both_outside {cs : List Char} {m n k l : Nat} (first : (outside m).read? cs = some (outside k))
    (second : (inside n).read? cs = some (outside l)) : False := by
  induction cs generalizing m n k l with
  | nil => cases second
  | cons c cs ih =>
    by_cases quote : c = '"'
    · subst quote
      exact ih second first
    · by_cases backslash : c = '\\'
      · subst backslash
        cases first
      · have stays : (inside n).next? c = some (inside n) := by simp [next?, quote, backslash]
        rw [read?, stays, Option.bind_some] at second
        rw [read?] at first
        cases moves : (outside m).next? c with
        | none => simp [moves] at first
        | some q =>
          rw [moves, Option.bind_some] at first
          simp only [next?, quote, ↓reduceIte] at moves
          split_ifs at moves <;> cases moves <;> exact ih first second

theorem array_suffix {vs ws : List Json} {before : List Char}
    (same : ' ' :: '[' :: itemChars vs = before ++ ' ' :: '[' :: itemChars ws) : before = [] := by
  cases before with
  | nil => rfl
  | cons d before =>
    simp only [List.cons_append, List.cons.injEq] at same
    obtain ⟨-, same⟩ := same
    have whole : (outside 0).read? ('[' :: itemChars vs) = some (outside 0) := read?_itemChars vs 0
    have part : (outside 1).read? (itemChars ws) = some (outside 0) := read?_itemChars ws 0
    rw [same, read?_append] at whole
    cases reached : (outside 0).read? before with
    | none => simp [reached] at whole
    | some p =>
      rw [reached, Option.bind_some] at whole
      cases p with
      | outside n => cases whole
      | inside n => exact (not_both_outside part whole).elim
      | escaped n => exact (not_both_outside part whole).elim

theorem before_array_inj {front front' : List Char} {vs ws : List Json}
    (same : front ++ ' ' :: (array vs).chars = front' ++ ' ' :: (array ws).chars) :
    front = front' ∧ vs.map chars = ws.map chars := by
  simp only [chars] at same
  rcases List.append_eq_append_iff.mp same with ⟨more, second, tail⟩ | ⟨more, first, tail⟩
  · have none := array_suffix tail
    subst none
    have items : itemChars vs = itemChars ws := by simpa using tail
    exact ⟨by simpa using second.symm, itemChars_inj items⟩
  · have none := array_suffix tail
    subst none
    have items : itemChars ws = itemChars vs := by simpa using tail
    exact ⟨by simpa using first, (itemChars_inj items).symm⟩

end RelationFilter.Json
