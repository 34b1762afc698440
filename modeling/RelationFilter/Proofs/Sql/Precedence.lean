import Mathlib.Data.List.Basic
import RelationFilter.Proofs.Sql.Lexemes

namespace RelationFilter.Sql

inductive Word where
  | pipes
  | times
  | divided
  | modulo
  | plus
  | minus
  | less
  | greater
  | atMost
  | atLeast
  | equal
  | unequal
  | differs
  | like
  | is
  | isIn
  | not
  | and
  | or
  | comma
  | existing
  | select
deriving DecidableEq

namespace Word

def all : List Word :=
  [pipes, times, divided, modulo, plus, minus, less, greater, atMost, atLeast, equal, unequal, differs, like, is, isIn, not, and,
    or, comma, existing, select]

def letters : Word → List Char
  | pipes => ['|', '|']
  | times => ['*']
  | divided => ['/']
  | modulo => ['%']
  | plus => ['+']
  | minus => ['-']
  | less => ['<']
  | greater => ['>']
  | atMost => ['<', '=']
  | atLeast => ['>', '=']
  | equal => ['=']
  | unequal => ['<', '>']
  | differs => ['!', '=']
  | like => ['l', 'i', 'k', 'e']
  | is => ['i', 's']
  | isIn => ['i', 'n']
  | not => ['n', 'o', 't']
  | and => ['a', 'n', 'd']
  | or => ['o', 'r']
  | comma => [',']
  | existing => ['e', 'x', 'i', 's', 't', 's']
  | select => ['s', 'e', 'l', 'e', 'c', 't']

/-- The rank of a word between two operands, by the documented precedence of the dialect. NOT, with rank 6, stands before
its operand. -/
def rank? (d : Dialect) : Word → Option Nat
  | pipes =>
    match d with
    | .mysql => some 8
    | .sqlite => some 1
  | times | divided | modulo => some 2
  | plus | minus => some 3
  | less | greater | atMost | atLeast =>
    match d with
    | .mysql => some 5
    | .sqlite => some 4
  | equal | unequal | differs | like | is | isIn => some 5
  | and => some 7
  | or => some 8
  | comma => some 9
  | not | existing | select => none

def least : Word → Nat
  | not => 6
  | select => 10
  | _ => 0

def ofLexeme? (w : List Char) : Option Word := all.find? fun k => k.letters = w.map Char.toLower

theorem rank?_bounds {d : Dialect} {k : Word} {m : Nat} (rank : k.rank? d = some m) : 1 ≤ m ∧ m ≤ 9 ∧ m ≠ 6 := by
  cases k <;> cases d <;> simp only [rank?, Option.some.injEq, reduceCtorEq] at rank <;> omega

theorem letters_of_ofLexeme? {w : List Char} {k : Word} (spelled : ofLexeme? w = some k) :
    k.letters = w.map Char.toLower := by
  have same : decide (k.letters = w.map Char.toLower) = true :=
    List.find?_some (p := fun k : Word => k.letters = w.map Char.toLower) spelled
  exact of_decide_eq_true same

theorem ofLexeme?_of_mem {w : List Char} {c : Char} (member : c ∈ w) (other : ∀ k ∈ all, c.toLower ∉ k.letters) :
    ofLexeme? w = none := by
  rw [ofLexeme?, List.find?_eq_none]
  intro k known same
  apply other k known
  rw [of_decide_eq_true same]
  exact List.mem_map_of_mem member

theorem ofLexeme?_enclosed (inner : List Char) : ofLexeme? (enclosed inner) = none :=
  ofLexeme?_of_mem (c := '(') List.mem_cons_self (by decide)

end Word

def rank? (d : Dialect) (w : List Char) : Option Nat := (Word.ofLexeme? w).bind (Word.rank? d)

def least (w : List Char) : Nat := (Word.ofLexeme? w).elim 0 Word.least

inductive Expression where
  | operand (text : List Char)
  | group (inner : Expression)
  | query (lexemes : List (List Char))
  | existence (inner : Expression)
  | not (inner : Expression)
  | apply (op : Word) (left right : Expression)
  | among (negated : Bool) (left list : Expression)

def comparison (negated : Bool) : Word := if negated then .unequal else .equal

/-- To be in a list of one value is to be equal to it. What queries and several values hold is left as it is. -/
def Expression.member (negated : Bool) (left : Expression) : Expression → Expression
  | .query lexemes => .among negated left (.query lexemes)
  | .apply .comma first last => .among negated left (.apply .comma first last)
  | value => .apply (comparison negated) left value

def Expression.left? : Expression → Option Expression
  | .apply _ left _ => some left
  | .among _ left _ => some left
  | _ => none

theorem Expression.left?_member (negated : Bool) (left list : Expression) :
    (member negated left list).left? = some left := by
  unfold member
  split <;> rfl

def Expression.level (d : Dialect) : Expression → Nat
  | .query _ => 10
  | .not _ => 6
  | .apply op _ _ => (op.rank? d).getD 0
  | .among _ _ _ => 5
  | _ => 0

theorem Expression.level_member (d : Dialect) (negated : Bool) (left list : Expression) :
    (member negated left list).level d = 5 := by
  unfold member
  split
  · rfl
  · rfl
  · cases negated <;> rfl

structure Quotes.IsOperand (q : Quotes) (cs : List Char) : Prop where
  ne_nil : cs ≠ []
  closed : q.read .top cs = some .top
  whole : q.roles .top cs = cs.map fun c => (c, .part)
  bare : cs.head? ≠ some '('
  free : Word.ofLexeme? cs = none

instance (q : Quotes) (cs : List Char) : Decidable (q.IsOperand cs) :=
  decidable_of_iff (cs ≠ [] ∧ q.read .top cs = some .top ∧ (q.roles .top cs = cs.map fun c => (c, .part)) ∧
      cs.head? ≠ some '(' ∧ Word.ofLexeme? cs = none)
    ⟨fun ⟨ne_nil, closed, whole, bare, free⟩ => ⟨ne_nil, closed, whole, bare, free⟩,
      fun h => ⟨h.ne_nil, h.closed, h.whole, h.bare, h.free⟩⟩

def Denies (negated : Bool) (front : List (List Char)) : Prop :=
  front.map Word.ofLexeme? = if negated then [some .not] else []

/-- The lexemes have a reading whose operators have no rank above the bound. The bound 8 is that of a condition, 9 that of
a list of values, 10 that of all that parentheses may hold. -/
inductive Reads (q : Quotes) (d : Dialect) : Nat → List (List Char) → Expression → Prop
  | operand {n : Nat} {cs : List Char} (named : q.IsOperand cs) : Reads q d n [cs] (.operand cs)
  | query {w : List Char} {ts : List (List Char)} (spelled : Word.ofLexeme? w = some .select) :
    Reads q d 10 (w :: ts) (.query (w :: ts))
  | group {n : Nat} {inner : List Char} {f : Expression} (closed : q.read .top inner = some .top)
    (content : Reads q d 10 (q.lexemes inner) f) : Reads q d n [enclosed inner] (.group f)
  | existence {n : Nat} {w inner : List Char} {f : Expression} (spelled : Word.ofLexeme? w = some .existing)
    (closed : q.read .top inner = some .top) (content : Reads q d 10 (q.lexemes inner) f) :
    Reads q d n [w, enclosed inner] (.existence f)
  | not {n : Nat} {w : List Char} {ts : List (List Char)} {f : Expression} (spelled : Word.ofLexeme? w = some .not)
    (loose : 6 ≤ n) (inner : Reads q d 6 ts f) : Reads q d n (w :: ts) (.not f)
  | apply {n m : Nat} {op : Word} {w : List Char} {ls rs : List (List Char)} {l r : Expression}
    (spelled : Word.ofLexeme? w = some op) (plain : op ≠ .isIn) (rank : op.rank? d = some m) (loose : m ≤ n)
    (left : Reads q d m ls l) (right : Reads q d (m - 1) rs r) : Reads q d n (ls ++ w :: rs) (.apply op l r)
  | member {n : Nat} {negated : Bool} {w inner : List Char} {ls front : List (List Char)} {l r : Expression}
    (denies : Denies negated front) (spelled : Word.ofLexeme? w = some .isIn) (loose : 5 ≤ n)
    (left : Reads q d 5 ls l) (closed : q.read .top inner = some .top) (content : Reads q d 10 (q.lexemes inner) r) :
    Reads q d n (ls ++ front ++ w :: [enclosed inner]) (.member negated l r)

section

variable {q : Quotes} {d : Dialect} {n m : Nat} {w w' : List Char} {ts us ls rs : List (List Char)} {f g : Expression}

theorem rank?_of_isOperand (named : q.IsOperand w) : rank? d w = none := by rw [rank?, named.free, Option.bind_none]

theorem rank?_enclosed (inner : List Char) : rank? d (enclosed inner) = none := by
  rw [rank?, Word.ofLexeme?_enclosed, Option.bind_none]

theorem rank?_spelled {k : Word} (spelled : Word.ofLexeme? w = some k) : rank? d w = k.rank? d := by
  rw [rank?, spelled, Option.bind_some]

theorem rank?_bounds (rank : rank? d w = some m) : 1 ≤ m ∧ m ≤ 9 ∧ m ≠ 6 := by
  obtain ⟨k, -, rank⟩ := Option.bind_eq_some_iff.mp rank
  exact Word.rank?_bounds rank

theorem ofLexeme?_of_denies {negated : Bool} (denies : Denies negated ts) :
    ∀ t ∈ ts, Word.ofLexeme? t = some .not := by
  intro t member
  have kept : Word.ofLexeme? t ∈ ts.map Word.ofLexeme? := List.mem_map_of_mem member
  rw [denies] at kept
  cases negated with
  | false => cases kept
  | true => exact List.mem_singleton.mp kept

theorem rank?_of_denies {negated : Bool} (denies : Denies negated ts) : ∀ t ∈ ts, rank? d t = none :=
  fun t member => rank?_spelled (ofLexeme?_of_denies denies t member)

namespace Reads

theorem ne_nil (h : Reads q d n ts f) : ts ≠ [] := by cases h <;> simp

theorem rank_le (h : Reads q d n ts f) (bound : n ≤ 9) : ∀ t ∈ ts, ∀ m, rank? d t = some m → m ≤ n := by
  induction h with
  | operand named =>
    intro t member m rank
    rw [List.mem_singleton.mp member, rank?_of_isOperand named] at rank
    cases rank
  | query _ => omega
  | group _ _ _ =>
    intro t member m rank
    rw [List.mem_singleton.mp member, rank?_enclosed] at rank
    cases rank
  | existence spelled _ _ _ =>
    intro t member m rank
    simp only [List.mem_cons, List.not_mem_nil, or_false] at member
    rcases member with rfl | rfl
    · rw [rank?_spelled spelled] at rank
      cases rank
    · rw [rank?_enclosed] at rank
      cases rank
  | not spelled loose _ ih =>
    intro t member m rank
    rcases List.mem_cons.mp member with rfl | later
    · rw [rank?_spelled spelled] at rank
      cases rank
    · have := ih (by omega) t later m rank
      omega
  | @apply n k op w ls rs l r spelled _ rank' loose _ _ ihl ihr =>
    -- the sides have the bounds `k` and `k - 1`, both at most `n`
    intro t member m rank
    have bounds := Word.rank?_bounds rank'
    rcases List.mem_append.mp member with first | second
    · have := ihl bounds.2.1 t first m rank
      omega
    · rcases List.mem_cons.mp second with rfl | later
      · rw [rank?_spelled spelled, rank'] at rank
        cases rank
        exact loose
      · have := ihr (by omega) t later m rank
        omega
  | member denies spelled loose _ _ _ ihl _ =>
    intro t member m rank
    simp only [List.mem_append, List.mem_cons, List.not_mem_nil, or_false] at member
    rcases member with (first | front) | rfl | rfl
    · have := ihl (by omega) t first m rank
      omega
    · rw [rank?_of_denies denies t front] at rank
      cases rank
    · rw [rank?_spelled spelled] at rank
      exact Option.some.inj rank ▸ loose
    · rw [rank?_enclosed] at rank
      cases rank

theorem least_le (h : Reads q d n (w :: ts) f) : least w ≤ n := by
  generalize same : w :: ts = us at h
  induction h generalizing w ts with
  | operand named =>
    cases same
    simp [least, named.free]
  | query spelled =>
    cases same
    simp [least, spelled, Word.least]
  | group _ _ _ =>
    cases same
    simp [least, Word.ofLexeme?_enclosed]
  | existence spelled _ _ _ =>
    cases same
    simp [least, spelled, Word.least]
  | not spelled loose _ _ =>
    cases same
    simpa [least, spelled, Word.least] using loose
  | @apply n m op w' ls rs l r _ _ _ loose left _ ihl _ =>
    cases ls with
    | nil => exact absurd rfl left.ne_nil
    | cons x ls =>
      cases same
      exact Nat.le_trans (ihl rfl) loose
  | @member n negated w' inner ls front l r _ _ loose left _ _ ihl _ =>
    cases ls with
    | nil => exact absurd rfl left.ne_nil
    | cons x ls =>
      cases same
      exact Nat.le_trans (ihl rfl) loose

theorem mem_cases (h : Reads q d n ts f) (bound : n ≤ 9) :
    ∀ t ∈ ts, q.IsOperand t ∨ (∃ inner, t = enclosed inner) ∨ ∃ k, Word.ofLexeme? t = some k := by
  induction h with
  | operand named =>
    intro t member
    exact .inl (List.mem_singleton.mp member ▸ named)
  | query _ => omega
  | group _ _ _ =>
    intro t member
    exact .inr (.inl ⟨_, List.mem_singleton.mp member⟩)
  | existence spelled _ _ _ =>
    intro t member
    simp only [List.mem_cons, List.not_mem_nil, or_false] at member
    rcases member with rfl | same
    · exact .inr (.inr ⟨_, spelled⟩)
    · exact .inr (.inl ⟨_, same⟩)
  | not spelled loose _ ih =>
    intro t member
    rcases List.mem_cons.mp member with rfl | later
    · exact .inr (.inr ⟨_, spelled⟩)
    · exact ih (by omega) t later
  | apply spelled _ rank loose _ _ ihl ihr =>
    intro t member
    have bounds := Word.rank?_bounds rank
    rcases List.mem_append.mp member with first | second
    · exact ihl bounds.2.1 t first
    · rcases List.mem_cons.mp second with rfl | later
      · exact .inr (.inr ⟨_, spelled⟩)
      · exact ihr (by omega) t later
  | member denies spelled _ _ _ _ ihl _ =>
    intro t member
    simp only [List.mem_append, List.mem_cons, List.not_mem_nil, or_false] at member
    rcases member with (first | front) | rfl | same
    · exact ihl (by omega) t first
    · exact .inr (.inr ⟨_, ofLexeme?_of_denies denies t front⟩)
    · exact .inr (.inr ⟨_, spelled⟩)
    · exact .inr (.inl ⟨_, same⟩)

/-- A reading ends with an operand or with parentheses. -/
theorem last_cases (h : Reads q d n ts f) (bound : n ≤ 9) (last : ts.getLast? = some w) :
    q.IsOperand w ∨ ∃ inner, w = enclosed inner := by
  induction h with
  | operand named =>
    cases last
    exact .inl named
  | query _ => omega
  | group _ _ _ =>
    cases last
    exact .inr ⟨_, rfl⟩
  | existence _ _ _ _ =>
    cases last
    exact .inr ⟨_, rfl⟩
  | @not n word ts f _ _ inner ih =>
    rw [← List.singleton_append, List.getLast?_append_of_ne_nil [word] inner.ne_nil] at last
    exact ih (by omega) last
  | @apply n m op word ls rs l r _ _ rank _ _ right _ ihr =>
    have bounds := Word.rank?_bounds rank
    rw [List.getLast?_append_cons, ← List.singleton_append, List.getLast?_append_of_ne_nil [word] right.ne_nil] at last
    exact ihr (by omega) last
  | member _ _ _ _ _ _ _ _ =>
    rw [List.getLast?_append_cons] at last
    cases last
    exact .inr ⟨_, rfl⟩

theorem last_ne_not (h : Reads q d n (ts ++ [w]) f) (bound : n ≤ 9) : Word.ofLexeme? w ≠ some .not := by
  rcases h.last_cases bound List.getLast?_concat with named | ⟨inner, rfl⟩
  · simp [named.free]
  · simp [Word.ofLexeme?_enclosed]

end Reads

theorem append_cons_unique {α : Type} {x y : α} {xs ys xs' ys' : List α} (first : x ∈ ys → y ∈ xs' → False)
    (second : y ∈ xs → x ∈ ys' → False) (same : xs ++ x :: xs' = ys ++ y :: ys') : xs = ys ∧ x = y ∧ xs' = ys' := by
  rcases List.append_eq_append_iff.mp same with ⟨more, longer, rest⟩ | ⟨more, longer, rest⟩
  · cases more with
    | nil =>
      obtain ⟨rfl, rfl⟩ := List.cons.inj rest
      exact ⟨by simpa using longer.symm, rfl, rfl⟩
    | cons z more =>
      obtain ⟨rfl, rfl⟩ := List.cons.inj rest
      exact (first (by simp [longer]) (by simp)).elim
  · cases more with
    | nil =>
      obtain ⟨rfl, rfl⟩ := List.cons.inj rest
      exact ⟨by simpa using longer, rfl, rfl⟩
    | cons z more =>
      obtain ⟨rfl, rfl⟩ := List.cons.inj rest
      exact (second (by simp [longer]) (by simp)).elim

structure Splits (d : Dialect) (m : Nat) (before : List (List Char)) (w : List Char) (after : List (List Char)) : Prop where
  rank : rank? d w = some m
  loose : ∀ t ∈ before, ∀ k, rank? d t = some k → k ≤ m
  tight : ∀ t ∈ after, ∀ k, rank? d t = some k → k < m
  started : ∃ x xs, before = x :: xs ∧ least x ≤ m
  followed : after ≠ []

namespace Splits

variable {before after before' after' : List (List Char)}

theorem unique (h : Splits d n before w after) (h' : Splits d m before' w' after')
    (same : before ++ w :: after = before' ++ w' :: after') : before = before' ∧ w = w' ∧ after = after' := by
  apply append_cons_unique _ _ same
  · intro inFront behind
    have loose := h'.loose w inFront n h.rank
    have tight := h.tight w' behind m h'.rank
    omega
  · intro inFront behind
    have loose := h.loose w' inFront m h'.rank
    have tight := h'.tight w behind n h.rank
    omega

theorem ofReads (rank : rank? d w = some m) (left : Reads q d m ls f) (right : Reads q d (m - 1) rs g) :
    Splits d m ls w rs := by
  have bounds := rank?_bounds rank
  refine ⟨rank, left.rank_le bounds.2.1, ?_, ?_, right.ne_nil⟩
  · intro t member k rank'
    have := right.rank_le (by omega) t member k rank'
    omega
  · obtain ⟨x, xs, rfl⟩ := List.exists_cons_of_ne_nil left.ne_nil
    exact ⟨x, xs, rfl, left.least_le⟩

theorem ofMember {negated : Bool} (denies : Denies negated us) (spelled : Word.ofLexeme? w = some .isIn)
    (left : Reads q d 5 ls f) (inner : List Char) : Splits d 5 (ls ++ us) w [enclosed inner] := by
  refine ⟨rank?_spelled spelled, ?_, ?_, ?_, List.cons_ne_nil _ _⟩
  · intro t member k rank
    rcases List.mem_append.mp member with first | front
    · exact left.rank_le (by omega) t first k rank
    · rw [rank?_of_denies denies t front] at rank
      cases rank
  · intro t member k rank
    rw [List.mem_singleton.mp member, rank?_enclosed] at rank
    cases rank
  · obtain ⟨x, xs, rfl⟩ := List.exists_cons_of_ne_nil left.ne_nil
    exact ⟨x, xs ++ us, rfl, left.least_le⟩

end Splits

namespace Reads

theorem single_cases (h : Reads q d n [w] f) :
    (q.IsOperand w ∧ f = .operand w) ∨
      (∃ inner g, w = enclosed inner ∧ Reads q d 10 (q.lexemes inner) g ∧ f = .group g) ∨
      Word.ofLexeme? w = some .select := by
  generalize same : [w] = ts at h
  cases h with
  | operand named =>
    cases same
    exact .inl ⟨named, rfl⟩
  | query spelled =>
    cases same
    exact .inr (.inr spelled)
  | group closed content =>
    cases same
    exact .inr (.inl ⟨_, _, rfl, content, rfl⟩)
  | existence _ _ _ => cases same
  | not _ _ inner =>
    cases same
    exact absurd rfl inner.ne_nil
  | apply _ _ _ _ left right =>
    have := congrArg List.length same
    have := List.length_pos_iff.mpr left.ne_nil
    simp at *
    omega
  | member _ _ _ left _ _ =>
    have := congrArg List.length same
    have := List.length_pos_iff.mpr left.ne_nil
    simp at *
    omega

/-- A text with a last one of the loosest operators is read as what that operator makes of its two sides. -/
theorem split_cases {before after : List (List Char)} (h : Reads q d n (before ++ w :: after) f)
    (splits : Splits d m before w after) :
    (∃ op l r, Word.ofLexeme? w = some op ∧ op ≠ .isIn ∧ Reads q d m before l ∧ Reads q d (m - 1) after r ∧
        f = .apply op l r) ∨
      ∃ (negated : Bool) (ls front : List (List Char)) (inner : List Char) (l r : Expression),
        before = ls ++ front ∧ Denies negated front ∧ Word.ofLexeme? w = some .isIn ∧ after = [enclosed inner] ∧
        Reads q d 5 ls l ∧ Reads q d 10 (q.lexemes inner) r ∧ f = .member negated l r := by
  have bounds := rank?_bounds splits.rank
  obtain ⟨x, xs, rfl, least⟩ := splits.started
  have longer : 3 ≤ (x :: xs ++ w :: after).length := by
    have := List.length_pos_iff.mpr splits.followed
    simp
    omega
  generalize same : x :: xs ++ w :: after = ts at h
  rw [same] at longer
  cases h with
  | operand _ => simp at longer
  | query spelled =>
    cases same
    simp [Sql.least, spelled, Word.least] at least
    omega
  | group _ _ => simp at longer
  | existence _ _ _ => simp at longer
  | not spelled _ inner =>
    cases same
    have := inner.rank_le (by omega) w (by simp) m splits.rank
    simp [Sql.least, spelled, Word.least] at least
    omega
  | apply spelled plain rank _ left right =>
    have ranked := (rank?_spelled spelled).trans rank
    obtain ⟨before, rfl, rfl⟩ := splits.unique (.ofReads ranked left right) same
    have level := Option.some.inj (splits.rank.symm.trans ranked)
    rw [before, level]
    exact .inl ⟨_, _, _, spelled, plain, left, right, rfl⟩
  | member denies spelled _ left _ content =>
    obtain ⟨before, rfl, rfl⟩ := splits.unique (.ofMember denies spelled left _) same
    exact .inr ⟨_, _, _, _, _, _, before, denies, spelled, rfl, left, content, rfl⟩

theorem left?_of_splits {before after : List (List Char)} (h : Reads q d n ts f) (splits : Splits d m before w after)
    (same : ts = before ++ w :: after) : f.left? ≠ none := by
  subst same
  rcases h.split_cases splits with ⟨_, _, _, _, _, _, _, rfl⟩ | ⟨_, _, _, _, _, _, _, _, _, _, _, _, rfl⟩
  · exact Option.some_ne_none _
  · rw [Expression.left?_member]
    exact Option.some_ne_none _

theorem headed_cases (h : Reads q d n (w :: ts) f) {k : Word} (spelled : Word.ofLexeme? w = some k) :
    (k = .select ∧ f = .query (w :: ts)) ∨
      (k = .existing ∧ ∃ inner g, ts = [enclosed inner] ∧ Reads q d 10 (q.lexemes inner) g ∧ f = .existence g) ∨
      (k = .not ∧ ∃ g, Reads q d 6 ts g ∧ f = .not g) ∨
      ∃ m before v after, w :: ts = before ++ v :: after ∧ Splits d m before v after := by
  generalize same : w :: ts = us at h
  cases h with
  | operand named =>
    cases same
    exact absurd (named.free.symm.trans spelled) nofun
  | query other =>
    cases same
    exact .inl ⟨Option.some.inj (spelled.symm.trans other), rfl⟩
  | group _ _ =>
    cases same
    exact absurd ((Word.ofLexeme?_enclosed _).symm.trans spelled) nofun
  | existence other _ content =>
    cases same
    exact .inr (.inl ⟨Option.some.inj (spelled.symm.trans other), _, _, rfl, content, rfl⟩)
  | not other _ inner =>
    cases same
    exact .inr (.inr (.inl ⟨Option.some.inj (spelled.symm.trans other), _, inner, rfl⟩))
  | apply other _ rank _ left right =>
    exact .inr (.inr (.inr ⟨_, _, _, _, rfl, .ofReads ((rank?_spelled other).trans rank) left right⟩))
  | member denies other _ left _ _ => exact .inr (.inr (.inr ⟨_, _, _, _, rfl, .ofMember denies other left _⟩))

theorem loosen (h : Reads q d n ts f) (bound : n ≤ 9) (le : n ≤ m) : Reads q d m ts f := by
  cases h with
  | operand named => exact .operand named
  | query _ => omega
  | group closed content => exact .group closed content
  | existence spelled closed content => exact .existence spelled closed content
  | not spelled loose inner => exact .not spelled (Nat.le_trans loose le) inner
  | apply spelled plain rank loose left right => exact .apply spelled plain rank (Nat.le_trans loose le) left right
  | member denies spelled loose left closed content =>
    exact .member denies spelled (Nat.le_trans loose le) left closed content

/-- An expression is read with its level as the bound, and with no less. -/
theorem tight (h : Reads q d n ts f) : f.level d ≤ n ∧ Reads q d (f.level d) ts f := by
  cases h with
  | operand named => exact ⟨Nat.zero_le _, .operand named⟩
  | query spelled => exact ⟨Nat.le_refl _, .query spelled⟩
  | group closed content => exact ⟨Nat.zero_le _, .group closed content⟩
  | existence spelled closed content => exact ⟨Nat.zero_le _, .existence spelled closed content⟩
  | not spelled loose inner => exact ⟨loose, .not spelled (Nat.le_refl _) inner⟩
  | @apply n m op w ls rs l r spelled plain rank loose left right =>
    have level : (Expression.apply op l r).level d = m := by rw [Expression.level, rank, Option.getD_some]
    rw [level]
    exact ⟨loose, .apply spelled plain rank (Nat.le_refl _) left right⟩
  | member denies spelled loose left closed content =>
    rw [Expression.level_member]
    exact ⟨loose, .member denies spelled (Nat.le_refl _) left closed content⟩

/-- NOT is before IN in both readings or in none, for no reading ends with it. -/
theorem denies_unique {negated negated' : Bool} {vs : List (List Char)} (left : Reads q d 5 ls f) (left' : Reads q d 5 rs g)
    (denies : Denies negated us) (denies' : Denies negated' vs) (same : ls ++ us = rs ++ vs) :
    ls = rs ∧ negated = negated' := by
  have apart {xs ys : List (List Char)} {h : Expression} {w : List Char} (reads : Reads q d 5 xs h)
      (spelled : Word.ofLexeme? w = some .not) : xs ≠ ys ++ [w] := by
    intro same
    subst same
    exact reads.last_ne_not (by omega) spelled
  cases negated with
  | false =>
    cases List.map_eq_nil_iff.mp denies
    cases negated' with
    | false =>
      cases List.map_eq_nil_iff.mp denies'
      exact ⟨by simpa using same, rfl⟩
    | true =>
      obtain ⟨w, rfl, spelled⟩ := List.map_eq_singleton_iff.mp denies'
      exact absurd (by simpa using same) (apart left spelled)
  | true =>
    obtain ⟨w, rfl, spelled⟩ := List.map_eq_singleton_iff.mp denies
    cases negated' with
    | false =>
      cases List.map_eq_nil_iff.mp denies'
      exact absurd (by simpa using same.symm) (apart left' spelled)
    | true =>
      obtain ⟨w', rfl, -⟩ := List.map_eq_singleton_iff.mp denies'
      exact ⟨(List.append_inj' same rfl).1, rfl⟩

theorem enclosed_inj {inner inner' : List Char} (same : enclosed inner = enclosed inner') : inner = inner' :=
  List.append_cancel_right (List.cons.inj same).2

theorem unique (h : Reads q d n ts f) (h' : Reads q d m ts g) : f = g := by
  -- the second reading is inverted by the lexemes that the first one was made of, so its bound does not matter
  induction h generalizing m g with
  | operand named =>
    rcases h'.single_cases with ⟨-, rfl⟩ | ⟨inner, g, rfl, -, -⟩ | spelled
    · rfl
    · exact absurd rfl named.bare
    · exact absurd (named.free.symm.trans spelled) nofun
  | group _ _ ih =>
    rcases h'.single_cases with ⟨named, -⟩ | ⟨inner, g, same, content, rfl⟩ | spelled
    · exact absurd rfl named.bare
    · cases enclosed_inj same
      rw [ih content]
    · exact absurd ((Word.ofLexeme?_enclosed _).symm.trans spelled) nofun
  | query spelled =>
    rcases h'.headed_cases spelled with ⟨-, rfl⟩ | ⟨other, -⟩ | ⟨other, -⟩ | ⟨_, _, _, _, same, splits⟩
    · rfl
    · cases other
    · cases other
    · exact absurd rfl (left?_of_splits (.query (q := q) spelled) splits same)
  | existence spelled closed content ih =>
    rcases h'.headed_cases spelled with ⟨other, -⟩ | ⟨-, inner, g, same, content', rfl⟩ | ⟨other, -⟩ |
      ⟨_, _, _, _, same, splits⟩
    · cases other
    · cases enclosed_inj (List.cons.inj same).1
      rw [ih content']
    · cases other
    · exact absurd rfl (left?_of_splits (.existence (n := 0) spelled closed content) splits same)
  | not spelled loose inner ih =>
    rcases h'.headed_cases spelled with ⟨other, -⟩ | ⟨other, -⟩ | ⟨-, g, inner', rfl⟩ | ⟨_, _, _, _, same, splits⟩
    · cases other
    · cases other
    · rw [ih inner']
    · exact absurd rfl (left?_of_splits (.not spelled loose inner) splits same)
  | apply spelled plain rank _ left right ihl ihr =>
    have ranked := (rank?_spelled spelled).trans rank
    rcases h'.split_cases (.ofReads ranked left right) with ⟨op, l, r, spelled', -, left', right', rfl⟩ |
      ⟨_, _, _, _, _, _, _, _, isIn, _, _, _, _⟩
    · rw [Option.some.inj (spelled.symm.trans spelled'), ihl left', ihr right']
    · exact absurd (Option.some.inj (spelled.symm.trans isIn)) plain
  | member denies spelled _ left _ _ ihl ihr =>
    rcases h'.split_cases (.ofMember denies spelled left _) with ⟨op, l, r, spelled', plain, _, _, _⟩ |
      ⟨negated, ls, front, inner, l, r, before, denies', -, after, left', content', rfl⟩
    · exact absurd (Option.some.inj (spelled'.symm.trans spelled)) plain
    · obtain ⟨rfl, rfl⟩ := denies_unique left left' denies denies' before
      cases enclosed_inj (List.cons.inj after).1
      rw [ihl left', ihr content']

end Reads

theorem eq_of_toLower {c l : Char} (same : c.toLower = l) : c = l ∨ c.toNat + 32 = l.toNat := by
  unfold Char.toLower at same
  split at same
  · rename_i upper
    right
    have last : c.val.toNat ≤ 90 := upper.2
    have gap : ('a'.val - 'A'.val).toNat = 32 := rfl
    rw [← same]
    show c.val.toNat + 32 = (c.val + ('a'.val - 'A'.val)).toNat
    rw [UInt32.toNat_add, gap]
    omega
  · exact .inl same

/-- Words that begin a reading begin with a letter. -/
theorem roleOf_of_word {c : Char} {k : Word} (unranked : k.rank? d = none) (spelled : Word.ofLexeme? (c :: w) = some k) :
    roleOf c = .part := by
  have letters := Word.letters_of_ofLexeme? spelled
  have either {l : Char} (u : Char) (first : c.toLower = l) (upper : u.toNat + 32 = l.toNat) : c = l ∨ c = u := by
    rcases eq_of_toLower first with same | shifted
    · exact .inl same
    · exact .inr (Char.toNat_inj.mp (by omega))
  cases k with
  | not => rcases either 'N' (List.cons.inj letters).1.symm rfl with rfl | rfl <;> decide
  | existing => rcases either 'E' (List.cons.inj letters).1.symm rfl with rfl | rfl <;> decide
  | select => rcases either 'S' (List.cons.inj letters).1.symm rfl with rfl | rfl <;> decide
  | _ => cases d <;> cases unranked

theorem Reads.role_of_head {c : Char} (h : Reads q d n ((c :: w) :: ts) f) (outside : q.next .top c = some .top) :
    roleOf c = .part := by
  generalize same : (c :: w) :: ts = us at h
  induction h generalizing ts with
  | operand named =>
    cases same
    have whole := named.whole
    simp only [Quotes.roles, outside, and_self, if_true, List.map_cons] at whole
    exact (Prod.mk.inj (List.cons.inj whole).1).2
  | query spelled =>
    cases same
    exact roleOf_of_word (d := d) rfl spelled
  | group _ _ _ =>
    cases same
    exact absurd ((Quotes.next_left 0).symm.trans outside) (by decide)
  | existence spelled _ _ _ =>
    cases same
    exact roleOf_of_word (d := d) rfl spelled
  | not spelled _ _ _ =>
    cases same
    exact roleOf_of_word (d := d) rfl spelled
  | @apply n m op w' ls rs l r _ _ _ _ left _ ihl _ =>
    cases ls with
    | nil => exact absurd rfl left.ne_nil
    | cons x ls =>
      cases same
      exact ihl rfl
  | @member n negated w' inner ls front l r _ _ _ left _ _ ihl _ =>
    cases ls with
    | nil => exact absurd rfl left.ne_nil
    | cons x ls =>
      cases same
      exact ihl rfl

theorem Reads.head_ne_sign {cs : List Char} (h : Reads q d n (q.lexemes cs) f) :
    ∀ y ∈ (q.roles .top cs).head?, y.2 ≠ .sign := by
  intro y first sign
  cases cs with
  | nil => cases first
  | cons c rest =>
    rw [Quotes.lexemes] at h
    unfold Quotes.roles at first h
    split at first
    · cases first
    · rename_i p after
      simp only [after] at h
      cases first
      obtain ⟨outside, role⟩ : p = .top ∧ roleOf c = .sign := by
        split at sign
        · rename_i places
          exact ⟨places.2, sign⟩
        · cases sign
      subst outside
      have shown : Role.sign ≠ .blank := by decide
      obtain ⟨w, ws, shape⟩ := exists_cut_cons (c := c) shown (q.roles .top rest)
      simp only [and_self, if_true, role, shape] at h
      exact absurd ((h.role_of_head after).symm.trans role) (by decide)

theorem Reads.last_ne_sign {cs : List Char} (h : Reads q d n (q.lexemes cs) f) (bound : n ≤ 9)
    (closed : q.read .top cs = some .top) : ∀ y ∈ (q.roles .top cs).getLast?, y.2 ≠ .sign := by
  intro y last sign
  rcases List.eq_nil_or_concat cs with rfl | ⟨front, c, rfl⟩
  · cases last
  rw [List.concat_eq_append] at *
  rw [Quotes.roles_concat closed, List.getLast?_concat] at last
  cases last
  obtain ⟨outside, role⟩ : q.read .top front = some .top ∧ roleOf c = .sign := by
    split at sign
    · rename_i outside
      exact ⟨outside, sign⟩
    · cases sign
  have shown : Role.sign ≠ .blank := by decide
  obtain ⟨ws, w, shape⟩ := exists_cut_concat (c := c) shown (q.roles .top front)
  have stays : q.next .top c = some .top := by
    have after := closed
    rw [Quotes.read_append, outside, Option.bind_some] at after
    obtain ⟨p, stays, same⟩ := Option.bind_eq_some_iff.mp after
    cases same
    exact stays
  rw [Quotes.lexemes, Quotes.roles_concat closed, if_pos outside, role, shape] at h
  rcases h.last_cases bound List.getLast?_concat with named | ⟨inner, same⟩
  · have whole := congrArg List.getLast? named.whole
    rw [Quotes.roles_concat named.closed, if_pos (Quotes.read_of_concat named.closed stays), role, List.map_append] at whole
    simp at whole
  · have ends := congrArg List.getLast? same
    rw [enclosed, ← List.cons_append, List.getLast?_concat, List.getLast?_concat] at ends
    cases ends
    cases Quotes.next_right_top.symm.trans stays

end

namespace Quotes

variable (q : Quotes) (d : Dialect)

def SaysWithin (n : Nat) (text : String) (f : Expression) : Prop :=
  q.Balanced text ∧ Reads q d n (q.lexemes text.toList) f

def Says (text : String) (f : Expression) : Prop := q.SaysWithin d 8 text f

/-- An operand of a comparison: every operator outside parentheses binds more than a comparison does. -/
def SelfDelimiting (text : String) : Prop := ∃ f, q.SaysWithin d 4 text f

/-- Each of the texts says one condition, and they say the same. -/
def Agree (text other : String) : Prop := ∃ f, (∀ g, q.Says d text g ↔ g = f) ∧ ∀ g, q.Says d other g ↔ g = f

variable {q d}

theorem Says.unique {text : String} {f g : Expression} (h : q.Says d text f) (h' : q.Says d text g) : f = g :=
  h.2.unique h'.2

theorem agree_iff {text other : String} : q.Agree d text other ↔ ∃ f, q.Says d text f ∧ q.Says d other f := by
  constructor
  · intro agree
    obtain ⟨f, first, second⟩ := agree
    exact ⟨f, (first f).mpr rfl, (second f).mpr rfl⟩
  · intro common
    obtain ⟨f, first, second⟩ := common
    exact ⟨f, fun g => ⟨fun reading => reading.unique first, fun same => same ▸ first⟩,
      fun g => ⟨fun reading => reading.unique second, fun same => same ▸ second⟩⟩

theorem IsOperand.lexemes {cs : List Char} (named : q.IsOperand cs) : q.lexemes cs = [cs] :=
  lexemes_part named.whole named.ne_nil

end Quotes

end RelationFilter.Sql
