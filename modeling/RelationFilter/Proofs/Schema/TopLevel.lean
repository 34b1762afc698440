import RelationFilter.Schema.Index

namespace RelationFilter.Index

/-- How many parentheses are open at the end of a text, and the quote that is open there. -/
structure Nesting where
  depth : Nat
  quote : Option Char
deriving DecidableEq, Repr

namespace Nesting

def top : Nesting := ⟨0, none⟩

/-- A quote of one of the three kinds is closed by its own mark only and hides parentheses. A closing parenthesis without an
opening one is ignored. -/
def next : Nesting → Char → Nesting
  | ⟨depth, some q⟩, c => ⟨depth, if c = q then none else some q⟩
  | ⟨depth, none⟩, c =>
    if c ∈ ['\x27', '"', '\x60'] then ⟨depth, some c⟩
    else if c = '(' then ⟨depth + 1, none⟩
    else if c = ')' then ⟨depth - 1, none⟩
    else ⟨depth, none⟩

def after (n : Nesting) (cs : List Char) : Nesting := cs.foldl next n

theorem after_append (n : Nesting) (before cs : List Char) : n.after (before ++ cs) = (n.after before).after cs :=
  List.foldl_append

def parts (n : Nesting) (cs : List Char) : List (List Char) := topLevelParts ',' n.depth n.quote cs

end Nesting

/-- Parts of a text that is read from a nesting on. They are cut at commas that stand at the top, and no other comma stands
there. The text before a cut is what the parts in front of it give, and the text before a place in a part is what the parts in
front and the part up to that place give. -/
structure SplitsAtTop (n : Nesting) (cs : List Char) (parts : List (List Char)) : Prop where
  nonempty : parts ≠ []
  joined : [','].intercalate parts = cs
  cut : ∀ front back, front ≠ [] → back ≠ [] → front ++ back = parts → n.after ([','].intercalate front) = .top
  uncut : ∀ front before after back, front ++ (before ++ ',' :: after) :: back = parts →
    n.after ([','].intercalate (front ++ [before])) ≠ .top

variable {n : Nesting} {c : Char} {cs part : List Char} {parts : List (List Char)}

theorem intercalate_cons (nonempty : parts ≠ []) :
    [','].intercalate (part :: parts) = part ++ ',' :: [','].intercalate parts := by
  rw [List.intercalate_cons_of_ne_nil nonempty, List.append_assoc, List.singleton_append]

theorem intercalate_consToFirst (nonempty : parts ≠ []) :
    [','].intercalate (consToFirst c parts) = c :: [','].intercalate parts := by
  cases parts with
  | nil => contradiction
  | cons part parts => cases parts <;> simp [consToFirst, List.intercalate_cons_cons]

theorem Nesting.parts_comma (rest : List Char) : Nesting.top.parts (',' :: rest) = [] :: Nesting.top.parts rest := rfl

theorem Nesting.parts_cons (inside : ¬(c = ',' ∧ n = .top)) (rest : List Char) :
    n.parts (c :: rest) = consToFirst c ((n.next c).parts rest) := by
  obtain ⟨depth, quote⟩ := n
  cases quote with
  | some q => rfl
  | none =>
    have below : ¬(c = ',' ∧ depth = 0) := by simpa [Nesting.top] using inside
    have mark : isQuote c = true ↔ c ∈ ['\x27', '"', '\x60'] := by simp [isQuote, or_assoc]
    simp only [Nesting.parts, Nesting.next, topLevelParts, Bool.and_eq_true, decide_eq_true_eq, if_neg below, mark]
    split
    · rfl
    · split
      · rfl
      · split <;> rfl

theorem SplitsAtTop.nil (n : Nesting) : SplitsAtTop n [] [[]] where
  nonempty := List.cons_ne_nil _ _
  joined := rfl
  cut front back some_front some_back whole := by
    rcases List.append_eq_singleton_iff.mp whole with ⟨none, -⟩ | ⟨-, none⟩
    · exact absurd none some_front
    · exact absurd none some_back
  uncut front before after back whole := by
    have empty : before ++ ',' :: after ∈ [[]] := whole ▸ List.mem_append_right front List.mem_cons_self
    simp at empty

theorem SplitsAtTop.comma (h : SplitsAtTop .top cs parts) : SplitsAtTop .top (',' :: cs) ([] :: parts) where
  nonempty := List.cons_ne_nil _ _
  joined := by rw [intercalate_cons h.nonempty, h.joined, List.nil_append]
  cut front back some_front some_back whole := by
    obtain ⟨first, front, rfl⟩ := List.exists_cons_of_ne_nil some_front
    obtain ⟨rfl, rest⟩ := List.cons.inj whole
    cases front with
    | nil => rfl
    | cons second front =>
      rw [intercalate_cons (List.cons_ne_nil _ _)]
      exact h.cut _ _ (List.cons_ne_nil _ _) some_back rest
  uncut front before after back whole := by
    cases front with
    | nil => simp at whole
    | cons first front =>
      obtain ⟨rfl, rest⟩ := List.cons.inj whole
      rw [List.cons_append, intercalate_cons (by simp)]
      exact h.uncut _ _ _ _ rest

theorem SplitsAtTop.cons (inside : ¬(c = ',' ∧ n = .top)) (h : SplitsAtTop (n.next c) cs parts) :
    SplitsAtTop n (c :: cs) (consToFirst c parts) := by
  obtain ⟨part, more, rfl⟩ := List.exists_cons_of_ne_nil h.nonempty
  -- the text before a place after the first part
  have lead (later : List (List Char)) :
      n.after ([','].intercalate ((c :: part) :: later)) = (n.next c).after ([','].intercalate (part :: later)) :=
    congrArg n.after (intercalate_consToFirst (List.cons_ne_nil part later))
  refine ⟨List.cons_ne_nil _ _, ?_, ?_, ?_⟩
  · rw [intercalate_consToFirst h.nonempty, h.joined]
  · intro front back some_front some_back whole
    obtain ⟨first, front, rfl⟩ := List.exists_cons_of_ne_nil some_front
    obtain ⟨rfl, rest⟩ := List.cons.inj whole
    rw [lead]
    exact h.cut _ _ (List.cons_ne_nil _ _) some_back (congrArg (part :: ·) rest)
  · intro front before after back whole
    cases front with
    | nil =>
      obtain ⟨first, rfl⟩ := List.cons.inj whole
      cases before with
      | nil =>
        intro atTop
        exact inside ⟨(List.cons.inj first).1.symm, atTop⟩
      | cons c' before =>
        obtain ⟨rfl, rest⟩ := List.cons.inj first
        exact h.uncut [] before after back (congrArg (· :: back) rest)
    | cons first front =>
      obtain ⟨rfl, rest⟩ := List.cons.inj whole
      rw [List.cons_append, lead]
      exact h.uncut (part :: front) before after back (congrArg (part :: ·) rest)

theorem splitsAtTop_parts (n : Nesting) (cs : List Char) : SplitsAtTop n cs (n.parts cs) := by
  induction cs generalizing n with
  | nil => exact SplitsAtTop.nil n
  | cons c rest ih =>
    by_cases atTop : c = ',' ∧ n = .top
    · obtain ⟨rfl, rfl⟩ := atTop
      rw [Nesting.parts_comma]
      exact (ih .top).comma
    · rw [Nesting.parts_cons atTop]
      exact (ih (n.next c)).cons atTop

def Uncut (n : Nesting) (part : List Char) : Prop := ∀ before after, part = before ++ ',' :: after → n.after before ≠ .top

theorem Uncut.head (h : Uncut n (c :: part)) : ¬(c = ',' ∧ n = .top) := by
  rintro ⟨rfl, atTop⟩
  exact h [] part rfl atTop

theorem Uncut.tail (h : Uncut n (c :: part)) : Uncut (n.next c) part :=
  fun before after whole => h (c :: before) after (congrArg (c :: ·) whole)

theorem Uncut.parts_eq (h : Uncut n part) : n.parts part = [part] := by
  induction part generalizing n with
  | nil => rfl
  | cons c rest ih =>
    rw [Nesting.parts_cons h.head, ih h.tail]
    rfl

theorem Uncut.parts_append (h : Uncut n part) (ends : n.after part = .top) (rest : List Char) :
    n.parts (part ++ ',' :: rest) = part :: Nesting.top.parts rest := by
  induction part generalizing n with
  | nil =>
    obtain rfl : n = .top := ends
    rfl
  | cons c part ih =>
    rw [List.cons_append, Nesting.parts_cons h.head, ih h.tail ends]
    rfl

namespace SplitsAtTop

variable {more : List (List Char)}

theorem uncut_head (h : SplitsAtTop n cs (part :: more)) : Uncut n part := by
  rintro before after rfl
  have apart := h.uncut [] before after more rfl
  rwa [List.nil_append, List.intercalate_singleton] at apart

theorem after_head (h : SplitsAtTop n cs (part :: more)) (goes_on : more ≠ []) : n.after part = .top := by
  have atTop := h.cut [part] more (List.cons_ne_nil _ _) goes_on rfl
  rwa [List.intercalate_singleton] at atTop

theorem tail (h : SplitsAtTop n cs (part :: more)) (goes_on : more ≠ []) : SplitsAtTop .top ([','].intercalate more) more := by
  have lead {later : List (List Char)} (some_later : later ≠ []) :
      n.after ([','].intercalate (part :: later)) = Nesting.top.after ([','].intercalate later) := by
    rw [intercalate_cons some_later, Nesting.after_append, h.after_head goes_on]
    rfl
  refine ⟨goes_on, rfl, ?_, ?_⟩
  · intro front back some_front some_back whole
    rw [← lead some_front]
    exact h.cut (part :: front) back (List.cons_ne_nil _ _) some_back (congrArg (part :: ·) whole)
  · intro front before after back whole
    rw [← lead (by simp)]
    exact h.uncut (part :: front) before after back (congrArg (part :: ·) whole)

theorem parts_eq (h : SplitsAtTop n cs parts) : n.parts cs = parts := by
  induction parts generalizing n cs with
  | nil => exact absurd rfl h.nonempty
  | cons part more ih =>
    rw [← h.joined]
    by_cases last : more = []
    · rw [last, List.intercalate_singleton, h.uncut_head.parts_eq]
    · rw [intercalate_cons last, h.uncut_head.parts_append (h.after_head last), ih (h.tail last)]

end SplitsAtTop

/-- A list of columns is cut at the commas that stand outside all quotes and parentheses, and only there. -/
theorem topLevelParts_iff (cs : List Char) (parts : List (List Char)) :
    topLevelParts ',' 0 none cs = parts ↔ SplitsAtTop .top cs parts := by
  constructor
  · rintro rfl
    exact splitsAtTop_parts .top cs
  · intro split
    exact split.parts_eq

/-- A closing parenthesis without an opening one, and a quote with a mark of another kind inside. -/
example :
    topLevelParts ',' 0 none "a), 'b, \"c', f(d, e)".toList = ["a)".toList, " 'b, \"c'".toList, " f(d, e)".toList] := by
  decide

end RelationFilter.Index
