import RelationFilter.Proofs.Sql.Quoting
import RelationFilter.Text.Blank
import RelationFilter.Text.Word

namespace RelationFilter.Sql

structure Quotes where
  single : Bool
  double : Bool
  back : Bool
deriving DecidableEq

/-- A place in a text: the mark of the quoted text around it, and the number of open parentheses. -/
structure Place where
  mark : Option Char
  depth : Nat
deriving DecidableEq

def Place.top : Place := ⟨none, 0⟩

def isQuoteMark (c : Char) : Bool := c = '\x27' || c = '"' || c = '\x60'

def isParenthesis (c : Char) : Bool := c = '(' || c = ')'

def isBare (c : Char) : Bool := !isQuoteMark c && !isParenthesis c

theorem isBare_of_isWord {c : Char} (word : Text.isWord c = true) : isBare c = true := by
  cases bare : isBare c with
  | true => rfl
  | false =>
    simp only [isBare, isQuoteMark, isParenthesis, Bool.and_eq_false_iff, Bool.not_eq_false', Bool.or_eq_true,
      decide_eq_true_eq] at bare
    rcases bare with ((rfl | rfl) | rfl) | (rfl | rfl) <;> exact absurd word (by decide)

theorem all_isBare_of_isWord {cs : List Char} (word : cs.all Text.isWord = true) : cs.all isBare = true := by
  rw [List.all_eq_true] at word ⊢
  exact fun c member => isBare_of_isWord (word c member)

def isNamePart (c : Char) : Bool := Text.isWord c || isQuoteMark c

def Dotted (name : String) : Prop := name.toList.all (fun c => Text.isWord c || c = '.') = true

def isBreak (c : Char) : Bool := isBare c && !isNamePart c

namespace Quotes

variable (q : Quotes)

def opens (c : Char) : Bool := (c = '\x27' && q.single) || (c = '"' && q.double) || (c = '\x60' && q.back)

def next (p : Place) (c : Char) : Option Place :=
  match p.mark with
  | some mark => if c = mark then some ⟨none, p.depth⟩ else some p
  | none =>
    if q.opens c then some ⟨some c, p.depth⟩
    else if c = '(' then some ⟨none, p.depth + 1⟩
    else if c = ')' then
      match p.depth with
      | 0 => none
      | depth + 1 => some ⟨none, depth⟩
    else some p

def read : Place → List Char → Option Place
  | p, [] => some p
  | p, c :: cs => (q.next p c).bind fun p => read p cs

/-- The text with a blank for every character in parentheses or quotes, those marks included. -/
def surface : Place → List Char → List Char
  | _, [] => []
  | p, c :: cs =>
    match q.next p c with
    | none => []
    | some p' => (if p = .top ∧ p' = .top then c else ' ') :: surface p' cs

def words (cs : List Char) : List (List Char) := (q.surface .top cs).splitOnP fun c => !isNamePart c

def Balanced (text : String) : Prop := q.read .top text.toList = some .top

instance (text : String) : Decidable (q.Balanced text) := inferInstanceAs (Decidable (_ = _))

variable {q}

theorem read_append (p : Place) (cs ds : List Char) :
    q.read p (cs ++ ds) = (q.read p cs).bind fun p => q.read p ds := by
  induction cs generalizing p with
  | nil => rfl
  | cons c rest ih =>
    simp only [List.cons_append, read]
    cases q.next p c with
    | none => rfl
    | some p' => exact ih p'

theorem surface_append {p p' : Place} {cs : List Char} (inside : q.read p cs = some p') (ds : List Char) :
    q.surface p (cs ++ ds) = q.surface p cs ++ q.surface p' ds := by
  induction cs generalizing p with
  | nil =>
    cases inside
    rfl
  | cons c rest ih =>
    simp only [List.cons_append, surface, read] at inside ⊢
    cases after : q.next p c with
    | none =>
      rw [after] at inside
      cases inside
    | some middle =>
      rw [after] at inside
      simp only [ih inside, List.cons_append]

theorem opens_of_not_mark {c : Char} (other : isQuoteMark c = false) : q.opens c = false := by
  simp only [isQuoteMark, Bool.or_eq_false_iff, decide_eq_false_iff_not] at other
  simp [opens, other]

theorem next_inside (m c : Char) (n : Nat) : q.next ⟨some m, n⟩ c = some ⟨if c = m then none else some m, n⟩ := by
  by_cases closing : c = m <;> simp [next, closing]

theorem next_opening {c : Char} (opening : q.opens c = true) (n : Nat) : q.next ⟨none, n⟩ c = some ⟨some c, n⟩ :=
  if_pos opening

theorem next_left (n : Nat) : q.next ⟨none, n⟩ '(' = some ⟨none, n + 1⟩ := by simp [next, opens]

theorem next_right (n : Nat) : q.next ⟨none, n + 1⟩ ')' = some ⟨none, n⟩ := by simp [next, opens]

theorem next_right_top : q.next ⟨none, 0⟩ ')' = none := by simp [next, opens]

theorem next_plain {c : Char} (closed : q.opens c = false) (other : isParenthesis c = false) (n : Nat) :
    q.next ⟨none, n⟩ c = some ⟨none, n⟩ := by
  simp only [isParenthesis, Bool.or_eq_false_iff, decide_eq_false_iff_not] at other
  simp [next, closed, other]

theorem next_cases {c : Char} {n : Nat} {p : Place} (after : q.next ⟨none, n⟩ c = some p) :
    (q.opens c = true ∧ p = ⟨some c, n⟩) ∨ (c = '(' ∧ p = ⟨none, n + 1⟩) ∨
      (c = ')' ∧ ∃ m, n = m + 1 ∧ p = ⟨none, m⟩) ∨ (q.opens c = false ∧ isParenthesis c = false ∧ p = ⟨none, n⟩) := by
  by_cases opening : q.opens c = true
  · rw [next_opening opening] at after
    exact .inl ⟨opening, (Option.some.inj after).symm⟩
  by_cases left : c = '('
  · rw [left, next_left] at after
    exact .inr (.inl ⟨left, (Option.some.inj after).symm⟩)
  by_cases right : c = ')'
  · rw [right] at after
    cases n with
    | zero => cases next_right_top.symm.trans after
    | succ m =>
      rw [next_right] at after
      exact .inr (.inr (.inl ⟨right, m, rfl, (Option.some.inj after).symm⟩))
  · have closed : q.opens c = false := by simpa using opening
    have other : isParenthesis c = false := by simp [isParenthesis, left, right]
    rw [next_plain closed other] at after
    exact .inr (.inr (.inr ⟨closed, other, (Option.some.inj after).symm⟩))

theorem next_deeper {x : Option Char} {n : Nat} {c : Char} {p : Place} (after : q.next ⟨x, n⟩ c = some p) :
    q.next ⟨x, n + 1⟩ c = some ⟨p.mark, p.depth + 1⟩ := by
  cases x with
  | some m =>
    rw [next_inside] at after ⊢
    cases after
    rfl
  | none =>
    rcases next_cases after with ⟨opening, rfl⟩ | ⟨rfl, rfl⟩ | ⟨rfl, m, rfl, rfl⟩ | ⟨closed, other, rfl⟩
    · exact next_opening opening (n + 1)
    · exact next_left (n + 1)
    · exact next_right (m + 1)
    · exact next_plain closed other (n + 1)

/-- One more open parenthesis around a text changes nothing but the depth, and hides the text. -/
theorem read_deeper {x y : Option Char} {n m : Nat} {cs : List Char} (inside : q.read ⟨x, n⟩ cs = some ⟨y, m⟩) :
    q.read ⟨x, n + 1⟩ cs = some ⟨y, m + 1⟩ ∧ q.surface ⟨x, n + 1⟩ cs = List.replicate cs.length ' ' := by
  induction cs generalizing x n with
  | nil =>
    cases inside
    exact ⟨rfl, rfl⟩
  | cons c rest ih =>
    obtain ⟨middle, after, later⟩ := Option.bind_eq_some_iff.mp inside
    obtain ⟨reads, hidden⟩ := ih later
    have below : (⟨x, n + 1⟩ : Place) ≠ .top := by simp [Place.top]
    constructor
    · simp only [read, next_deeper after, Option.bind_some, reads]
    · simp only [surface, next_deeper after, below, false_and, if_false, hidden, List.length_cons, List.replicate_succ]

theorem Balanced.read_at {text : String} (h : q.Balanced text) (n : Nat) :
    q.read ⟨none, n⟩ text.toList = some ⟨none, n⟩ := by
  induction n with
  | zero => exact h
  | succ n ih => exact (read_deeper ih).1

theorem Balanced.append {text more : String} (h : q.Balanced text) (h' : q.Balanced more) :
    q.Balanced (text ++ more) := by
  unfold Balanced at *
  rw [String.toList_append, read_append, h, Option.bind_some, h']

theorem next_bare {c : Char} (bare : isBare c = true) {p : Place} (outside : ∀ m, p.mark = some m → isQuoteMark m) :
    q.next p c = some p := by
  simp only [isBare, Bool.and_eq_true, Bool.not_eq_true'] at bare
  obtain ⟨mark, n⟩ := p
  cases mark with
  | none => exact next_plain (opens_of_not_mark bare.1) bare.2 n
  | some m =>
    have other : c ≠ m := by
      intro same
      have isMark := outside m rfl
      rw [← same, bare.1] at isMark
      cases isMark
    rw [next_inside, if_neg other]

theorem read_bare {cs : List Char} (bare : cs.all isBare = true) {p : Place}
    (outside : ∀ m, p.mark = some m → isQuoteMark m) : q.read p cs = some p := by
  induction cs with
  | nil => rfl
  | cons c rest ih =>
    obtain ⟨here, later⟩ := Bool.and_eq_true_iff.mp bare
    rw [read, next_bare here outside, Option.bind_some, ih later]

theorem read_top {cs : List Char} (bare : cs.all isBare = true) : q.read .top cs = some .top :=
  read_bare bare (by simp [Place.top])

theorem surface_bare {cs : List Char} (bare : cs.all isBare = true) : q.surface .top cs = cs := by
  induction cs with
  | nil => rfl
  | cons c rest ih =>
    obtain ⟨here, later⟩ := Bool.and_eq_true_iff.mp bare
    have stays : q.next .top c = some .top := next_bare here (by simp [Place.top])
    simp only [surface, stays, and_self, if_true, ih later]

theorem balanced_of_bare {text : String} (bare : text.toList.all isBare = true) : q.Balanced text :=
  read_top bare

/-- Behind an opening parenthesis a balanced text is read up to the parenthesis that closes it. -/
theorem Balanced.read_parenthesized {text : String} (h : q.Balanced text) :
    q.read .top ("(" ++ text ++ ")").toList = some .top ∧
      q.surface .top ("(" ++ text ++ ")").toList = List.replicate (text.toList.length + 2) ' ' := by
  obtain ⟨reads, hidden⟩ := read_deeper h
  have shape : ("(" ++ text ++ ")").toList = '(' :: (text.toList ++ [')']) := by simp
  have left : q.next .top '(' = some ⟨none, 1⟩ := next_left 0
  have right : q.next ⟨none, 1⟩ ')' = some .top := next_right 0
  have below : (⟨none, 1⟩ : Place) ≠ .top := by decide
  rw [shape]
  constructor
  · simp only [read, left, Option.bind_some, read_append, reads, right]
  · simp only [surface, left, right, below, and_false, false_and, if_false, surface_append reads, hidden]
    rw [← List.replicate_succ', ← List.replicate_succ]

theorem Balanced.parenthesized {text : String} (h : q.Balanced text) : q.Balanced ("(" ++ text ++ ")") :=
  h.read_parenthesized.1

theorem surface_hidden {cs : List Char} (bare : cs.all isBare = true) {p : Place}
    (outside : ∀ m, p.mark = some m → isQuoteMark m) (below : p ≠ .top) :
    q.surface p cs = List.replicate cs.length ' ' := by
  induction cs with
  | nil => rfl
  | cons c rest ih =>
    obtain ⟨here, later⟩ := Bool.and_eq_true_iff.mp bare
    simp only [surface, next_bare here outside, below, false_and, if_false, ih later, List.length_cons,
      List.replicate_succ]

theorem balanced_intercalate {sep : String} (bare : sep.toList.all isBare = true) {parts : List String}
    (h : ∀ part ∈ parts, q.Balanced part) : q.Balanced (String.intercalate sep parts) := by
  induction parts with
  | nil => rfl
  | cons part rest ih =>
    have first := h part List.mem_cons_self
    cases rest with
    | nil => simpa using first
    | cons next rest =>
      rw [String.intercalate_cons_cons]
      exact (first.append (balanced_of_bare bare)).append (ih fun part member => h part (List.mem_cons_of_mem _ member))

theorem words_append {cs ds : List Char} (closed : q.read .top cs = some .top) {c : Char} (atBreak : isBreak c = true) :
    q.words (cs ++ c :: ds) = q.words cs ++ q.words ds := by
  obtain ⟨bare, other⟩ := Bool.and_eq_true_iff.mp atBreak
  have stays : q.next .top c = some .top := next_bare bare (by simp [Place.top])
  have shown : q.surface .top (c :: ds) = c :: q.surface .top ds := by simp only [surface, stays, and_self, if_true]
  rw [words, surface_append closed, shown]
  exact List.splitOnP_append_cons _ _ other

theorem words_of_blank {cs : List Char} {n : Nat} (hidden : q.surface .top cs = List.replicate n ' ')
    {w : List Char} (member : w ∈ q.words cs) : w = [] := by
  rw [words, hidden] at member
  clear hidden
  have blank : (!isNamePart ' ') = true := by decide
  induction n with
  | zero => simpa using member
  | succ n ih =>
    have split := List.splitOnP_append_cons (p := fun c => !isNamePart c) [] (List.replicate n ' ') blank
    rw [List.replicate_succ, ← List.nil_append (' ' :: _), split] at member
    rcases List.mem_append.mp member with first | later
    · simpa using first
    · exact ih later

section

variable (d : Dialect) {name : List Char} (bare : name.all isBare = true)

theorem isQuoteMark_quoteMark : isQuoteMark d.quoteMark = true := by cases d <;> decide

include bare

theorem read_quoted {m : Char} (isMark : isQuoteMark m = true) : q.read .top (m :: name ++ [m]) = some .top := by
  rw [List.cons_append, read]
  by_cases opening : q.opens m = true
  · have opened : q.next .top m = some ⟨some m, 0⟩ := next_opening opening 0
    have inside : q.read ⟨some m, 0⟩ name = some ⟨some m, 0⟩ := by
      apply read_bare bare
      intro m' same
      rw [← Option.some.inj same]
      exact isMark
    rw [opened, Option.bind_some, read_append, inside, Option.bind_some, read, next_inside, if_pos rfl]
    rfl
  · have other : isParenthesis m = false := by
      simp only [isQuoteMark, Bool.or_eq_true, decide_eq_true_eq] at isMark
      rcases isMark with (rfl | rfl) | rfl <;> rfl
    have stays : q.next .top m = some .top := next_plain (by simpa using opening) other 0
    rw [stays, Option.bind_some, read_append, read_top bare, Option.bind_some, read, stays]
    rfl

theorem read_wrap : q.read .top (d.wrap name) = some .top := read_quoted bare (isQuoteMark_quoteMark d)

/-- Either the quoted name is hidden, or it stands as one word with its marks. -/
theorem words_wrap (word : name.all Text.isWord = true) {w : List Char} (member : w ∈ q.words (d.wrap name)) :
    w = [] ∨ w = d.wrap name := by
  have isMark := isQuoteMark_quoteMark d
  by_cases opening : q.opens d.quoteMark = true
  · have opened : q.next .top d.quoteMark = some ⟨some d.quoteMark, 0⟩ := next_opening opening 0
    have outside : ∀ m, (some d.quoteMark : Option Char) = some m → isQuoteMark m = true := by
      intro m same
      rw [← Option.some.inj same]
      exact isMark
    have inside : q.read ⟨some d.quoteMark, 0⟩ name = some ⟨some d.quoteMark, 0⟩ := read_bare bare outside
    have below : (⟨some d.quoteMark, 0⟩ : Place) ≠ .top := by simp [Place.top]
    left
    apply words_of_blank (n := name.length + 2) _ member
    rw [Dialect.wrap, List.cons_append]
    simp only [surface, opened, below, and_false, if_false, surface_append inside, surface_hidden bare outside below,
      next_inside, false_and, if_true]
    rw [← List.replicate_succ', ← List.replicate_succ]
  · have other : isParenthesis d.quoteMark = false := by cases d <;> decide
    have stays : q.next .top d.quoteMark = some .top := next_plain (by simpa using opening) other 0
    have whole : q.surface .top (d.wrap name) = d.wrap name := by
      rw [Dialect.wrap, List.cons_append]
      simp only [surface, stays, and_self, if_true, surface_append (read_top bare), surface_bare bare]
    right
    rw [words, whole] at member
    rw [List.splitOnP_eq_singleton] at member
    · exact List.mem_singleton.mp member
    · intro c inside
      have part : isNamePart c = true := by
        simp only [Dialect.wrap, List.cons_append, List.mem_cons, List.mem_append, List.not_mem_nil, or_false] at inside
        rcases inside with rfl | inName | rfl
        · simp [isNamePart, isMark]
        · simp [isNamePart, List.all_eq_true.mp word c inName]
        · simp [isNamePart, isMark]
      simp [part]

/-- Quoting closes what it opens, part by part. -/
theorem quotable_read : d.Quotable (fun cs => q.read .top cs = some .top) name where
  wrapped := by
    intro part within _
    apply read_wrap d
    rw [List.all_eq_true] at bare ⊢
    exact fun c member => bare c (within member)
  asIs := by
    intro part within _
    apply read_top
    rw [List.all_eq_true] at bare ⊢
    exact fun c member => bare c (within member)
  joined := by
    intro left right first second
    have stays : q.next .top '.' = some .top := next_bare (by decide) (by simp [Place.top])
    rw [read_append, first, Option.bind_some, read, stays, Option.bind_some, second]

end

theorem balanced_quoteColumn (d : Dialect) {name : String} (bare : name.toList.all isBare = true) :
    q.Balanced (d.quoteColumn name) := by
  rw [Balanced, Dialect.quoteColumn, String.toList_ofList]
  exact (quotable_read d bare).columnChars

end Quotes

end RelationFilter.Sql
