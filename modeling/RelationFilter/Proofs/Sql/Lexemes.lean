import RelationFilter.Proofs.Sql.Lexis

namespace RelationFilter.Sql

inductive Role where
  | blank
  | sign
  | part
deriving DecidableEq

def roleOf (c : Char) : Role :=
  if Text.isBlank c then .blank else if isNamePart c || c = '.' || c = ':' then .part else .sign

def prepend (c : Char) : List (List Char) → List (List Char)
  | [] => [[c]]
  | w :: ws => (c :: w) :: ws

/-- A lexeme is a longest run of one role, and blanks are none. -/
def cut : List (Char × Role) → List (List Char)
  | [] => []
  | (c, role) :: rest =>
    if role = .blank then cut rest
    else if rest.head?.map Prod.snd = some role then prepend c (cut rest)
    else [c] :: cut rest

def enclosed (inner : List Char) : List Char := '(' :: (inner ++ [')'])

namespace Quotes

variable (q : Quotes)

def roles : Place → List Char → List (Char × Role)
  | _, [] => []
  | p, c :: cs =>
    match q.next p c with
    | none => []
    | some p' => (c, if p = .top ∧ p' = .top then roleOf c else .part) :: roles p' cs

def lexemes (cs : List Char) : List (List Char) := cut (q.roles .top cs)

variable {q}

theorem roles_append {p p' : Place} {cs : List Char} (inside : q.read p cs = some p') (ds : List Char) :
    q.roles p (cs ++ ds) = q.roles p cs ++ q.roles p' ds := by
  induction cs generalizing p with
  | nil =>
    cases inside
    rfl
  | cons c rest ih =>
    obtain ⟨middle, after, later⟩ := Option.bind_eq_some_iff.mp inside
    simp only [List.cons_append, roles, after, ih later]

theorem roles_cons_bare {c : Char} (bare : isBare c = true) (cs : List Char) :
    q.roles .top (c :: cs) = (c, roleOf c) :: q.roles .top cs := by
  have stays : q.next .top c = some .top := next_bare bare (by simp [Place.top])
  simp only [roles, stays, and_self, if_true]

theorem roles_bare {cs : List Char} (bare : cs.all isBare = true) :
    q.roles .top cs = cs.map fun c => (c, roleOf c) := by
  induction cs with
  | nil => rfl
  | cons c rest ih =>
    obtain ⟨here, later⟩ := Bool.and_eq_true_iff.mp bare
    rw [roles_cons_bare here, ih later, List.map_cons]

theorem roles_run {role : Role} {cs : List Char} (bare : cs.all isBare = true)
    (run : cs.all (fun c => roleOf c = role) = true) : q.roles .top cs = cs.map fun c => (c, role) := by
  rw [roles_bare bare]
  apply List.map_congr_left
  intro c member
  rw [of_decide_eq_true (List.all_eq_true.mp run c member)]

theorem roles_deeper {x y : Option Char} {n m : Nat} {cs : List Char} (inside : q.read ⟨x, n⟩ cs = some ⟨y, m⟩) :
    q.roles ⟨x, n + 1⟩ cs = cs.map fun c => (c, .part) := by
  induction cs generalizing x n with
  | nil => rfl
  | cons c rest ih =>
    obtain ⟨middle, after, later⟩ := Option.bind_eq_some_iff.mp inside
    have below : (⟨x, n + 1⟩ : Place) ≠ .top := by simp [Place.top]
    simp only [roles, next_deeper after, below, false_and, if_false, ih later, List.map_cons]

theorem roles_hidden {cs : List Char} (bare : cs.all isBare = true) {p : Place}
    (outside : ∀ m, p.mark = some m → isQuoteMark m) (below : p ≠ .top) : q.roles p cs = cs.map fun c => (c, .part) := by
  induction cs with
  | nil => rfl
  | cons c rest ih =>
    obtain ⟨here, later⟩ := Bool.and_eq_true_iff.mp bare
    simp only [roles, next_bare here outside, below, false_and, if_false, ih later, List.map_cons]

theorem roles_enclosed {inner : List Char} (closed : q.read .top inner = some .top) :
    q.roles .top (enclosed inner) = (enclosed inner).map fun c => (c, .part) := by
  have left : q.next .top '(' = some ⟨none, 1⟩ := next_left 0
  have right : q.next ⟨none, 1⟩ ')' = some .top := next_right 0
  have below : (⟨none, 1⟩ : Place) ≠ .top := by decide
  have reads : q.read ⟨none, 1⟩ inner = some ⟨none, 1⟩ := (read_deeper closed).1
  simp only [enclosed, roles, left, below, and_false, if_false, roles_append reads, roles_deeper closed, right, false_and,
    List.map_cons, List.map_append, List.map_nil]

end Quotes

theorem prepend_append (c : Char) {ws : List (List Char)} (shown : ws ≠ []) (more : List (List Char)) :
    prepend c (ws ++ more) = prepend c ws ++ more := by
  cases ws with
  | nil => exact absurd rfl shown
  | cons w ws => rfl

theorem exists_cut_cons {c : Char} {role : Role} (shown : role ≠ .blank) (xs : List (Char × Role)) :
    ∃ w ws, cut ((c, role) :: xs) = (c :: w) :: ws := by
  rw [cut, if_neg shown]
  split
  · cases cut xs with
    | nil => exact ⟨_, _, rfl⟩
    | cons w ws => exact ⟨_, _, rfl⟩
  · exact ⟨_, _, rfl⟩

theorem cut_ne_nil {x : Char × Role} (shown : x.2 ≠ .blank) (xs : List (Char × Role)) : cut (x :: xs) ≠ [] := by
  obtain ⟨w, ws, shape⟩ := exists_cut_cons (c := x.1) shown xs
  rw [shape]
  exact List.cons_ne_nil _ _

/-- Where the role changes no lexeme goes on, and blanks are in none. -/
theorem cut_append {xs ys : List (Char × Role)}
    (apart : ∀ x ∈ xs.getLast?, ∀ y ∈ ys.head?, x.2 = y.2 → x.2 = .blank) : cut (xs ++ ys) = cut xs ++ cut ys := by
  induction xs with
  | nil => rfl
  | cons x rest ih =>
    obtain ⟨c, role⟩ := x
    -- only the last character of `xs` looks at `ys`
    by_cases blank : role = .blank
    · have later : cut (rest ++ ys) = cut rest ++ cut ys := by
        cases rest with
        | nil => rfl
        | cons y rest => exact ih (by simpa using apart)
      rw [List.cons_append, cut, cut, if_pos blank, if_pos blank, later]
    · cases rest with
      | nil =>
        have other : ys.head?.map Prod.snd ≠ some role := by
          intro same
          obtain ⟨y, first, rfl⟩ := Option.map_eq_some_iff.mp same
          exact blank (apart (c, y.2) rfl y first rfl)
        simp [cut, blank, other]
      | cons y rest =>
        have later := ih (by simpa using apart)
        rw [List.cons_append, cut, cut, if_neg blank, if_neg blank, later]
        simp only [List.cons_append, List.head?_cons]
        by_cases same : some y.2 = some role
        · have shown : cut (y :: rest) ≠ [] := cut_ne_nil (fun other => blank (Option.some.inj same ▸ other)) rest
          simp only [Option.map_some, same, if_true, prepend_append c shown]
        · simp only [Option.map_some, same, if_false, List.cons_append]

theorem cut_run_append {role : Role} (shown : role ≠ .blank) (cs : List Char) {y : Char × Role} (same : y.2 = role)
    (ys : List (Char × Role)) :
    ∃ w ws, w ≠ [] ∧ cut ((cs.map fun c => (c, role)) ++ y :: ys) = (cs ++ w) :: ws := by
  induction cs with
  | nil =>
    obtain ⟨w, ws, shape⟩ := exists_cut_cons (c := y.1) (same ▸ shown) ys
    exact ⟨_, _, List.cons_ne_nil _ _, shape⟩
  | cons c rest ih =>
    obtain ⟨w, ws, longer, shape⟩ := ih
    have goesOn : (((rest.map fun c => (c, role)) ++ y :: ys).head?.map Prod.snd) = some role := by
      cases rest with
      | nil => exact congrArg some same
      | cons c rest => rfl
    refine ⟨w, ws, longer, ?_⟩
    rw [List.map_cons, List.cons_append, cut, if_neg shown, if_pos goesOn, shape]
    rfl

theorem cut_run {role : Role} (shown : role ≠ .blank) {cs : List Char} (ne_nil : cs ≠ []) :
    cut (cs.map fun c => (c, role)) = [cs] := by
  induction cs with
  | nil => exact absurd rfl ne_nil
  | cons c rest ih =>
    rw [List.map_cons, cut, if_neg shown]
    cases rest with
    | nil => rfl
    | cons next rest =>
      rw [ih (List.cons_ne_nil _ _)]
      exact if_pos rfl

theorem role_of_getLast? {role : Role} {cs : List Char} {x : Char × Role}
    (last : x ∈ (cs.map fun c => (c, role)).getLast?) : x.2 = role := by
  obtain ⟨c, -, rfl⟩ := List.mem_map.mp (List.mem_of_getLast? last)
  rfl

theorem exists_cut_concat {c : Char} {role : Role} (shown : role ≠ .blank) (xs : List (Char × Role)) :
    ∃ ws w, cut (xs ++ [(c, role)]) = ws ++ [w ++ [c]] := by
  induction xs with
  | nil => exact ⟨[], [], by simp [cut, shown]⟩
  | cons x rest ih =>
    obtain ⟨ws, w, shape⟩ := ih
    rw [List.cons_append, cut, shape]
    split
    · exact ⟨ws, w, rfl⟩
    split
    · cases ws with
      | nil => exact ⟨[], x.1 :: w, rfl⟩
      | cons v ws => exact ⟨(x.1 :: v) :: ws, w, rfl⟩
    · exact ⟨[x.1] :: ws, w, rfl⟩

namespace Quotes

variable {q : Quotes} {cs ds : List Char}

theorem lexemes_append (closed : q.read .top cs = some .top)
    (apart : ∀ x ∈ (q.roles .top cs).getLast?, ∀ y ∈ (q.roles .top ds).head?, x.2 = y.2 → x.2 = .blank) :
    q.lexemes (cs ++ ds) = q.lexemes cs ++ q.lexemes ds := by
  rw [lexemes, roles_append closed, cut_append apart]
  rfl

theorem lexemes_bare (bare : cs.all isBare = true) : q.lexemes cs = cut (cs.map fun c => (c, roleOf c)) := by
  rw [lexemes, roles_bare bare]

theorem lexemes_blank (closed : q.read .top cs = some .top) (ds : List Char) :
    q.lexemes (cs ++ ' ' :: ds) = q.lexemes cs ++ q.lexemes ds := by
  have blank : q.roles .top (' ' :: ds) = (' ', .blank) :: q.roles .top ds := roles_cons_bare (by decide) ds
  rw [lexemes_append closed]
  · rw [lexemes, lexemes, blank, cut, if_pos rfl]
    rfl
  · intro x _ y first same
    rw [blank] at first
    rw [same, ← Option.some.inj first]

theorem lexemes_part (whole : q.roles .top cs = cs.map fun c => (c, .part)) (ne_nil : cs ≠ []) : q.lexemes cs = [cs] := by
  rw [lexemes, whole, cut_run (by decide) ne_nil]

theorem lexemes_enclosed {inner : List Char} (closed : q.read .top inner = some .top) :
    q.lexemes (enclosed inner) = [enclosed inner] := lexemes_part (roles_enclosed closed) (List.cons_ne_nil _ _)

theorem opens_of_read {p p' : Place} (inside : q.read p cs = some p') (marked : ∀ m, p.mark = some m → q.opens m = true) :
    ∀ m, p'.mark = some m → q.opens m = true := by
  induction cs generalizing p with
  | nil =>
    cases inside
    exact marked
  | cons c rest ih =>
    obtain ⟨middle, after, later⟩ := Option.bind_eq_some_iff.mp inside
    apply ih later
    intro m mark
    obtain ⟨before, n⟩ := p
    cases before with
    | some k =>
      rw [next_inside] at after
      cases after
      split at mark
      · cases mark
      · exact marked m mark
    | none =>
      rcases next_cases after with ⟨opening, rfl⟩ | ⟨-, rfl⟩ | ⟨-, k, -, rfl⟩ | ⟨-, -, rfl⟩
      · cases mark
        exact opening
      · cases mark
      · cases mark
      · cases mark

/-- A last character that is neither a mark nor a parenthesis stands outside whatever the text before it opens. -/
theorem read_of_concat {c : Char} (closed : q.read .top (cs ++ [c]) = some .top) (stays : q.next .top c = some .top) :
    q.read .top cs = some .top := by
  rw [read_append] at closed
  obtain ⟨p, before, last⟩ := Option.bind_eq_some_iff.mp closed
  obtain ⟨last, after, same⟩ := Option.bind_eq_some_iff.mp last
  cases same
  have marked := opens_of_read before (by simp [Place.top])
  obtain ⟨mark, n⟩ := p
  cases mark with
  | some m =>
    rw [next_inside] at after
    by_cases closing : c = m
    · have opened : q.next .top c = some ⟨some c, 0⟩ := next_opening (closing ▸ marked m rfl) 0
      cases opened.symm.trans stays
    · rw [if_neg closing] at after
      cases after
  | none =>
    rcases next_cases after with ⟨-, same⟩ | ⟨rfl, same⟩ | ⟨rfl, -⟩ | ⟨-, -, same⟩
    · cases same
    · cases same
    · cases next_right_top.symm.trans stays
    · exact before.trans (congrArg some same.symm)

theorem roles_concat {c : Char} (closed : q.read .top (cs ++ [c]) = some .top) :
    q.roles .top (cs ++ [c]) =
      q.roles .top cs ++ [(c, if q.read .top cs = some .top then roleOf c else .part)] := by
  have shape := closed
  rw [read_append] at shape
  obtain ⟨p, before, last⟩ := Option.bind_eq_some_iff.mp shape
  obtain ⟨last, after, same⟩ := Option.bind_eq_some_iff.mp last
  cases same
  simp only [roles_append before, before, roles, after, and_true, Option.some.injEq]

theorem lexemes_signs (bare : cs.all isBare = true) (signs : cs.all (fun c => roleOf c = .sign) = true) (ne_nil : cs ≠ []) :
    ((∀ y ∈ (q.roles .top ds).head?, y.2 ≠ .sign) ∧ q.lexemes (cs ++ ds) = cs :: q.lexemes ds) ∨
      ∃ y ∈ (q.roles .top ds).head?, y.2 = .sign ∧ ∃ w ws, w ≠ [] ∧ q.lexemes (cs ++ ds) = (cs ++ w) :: ws := by
  have roles : q.roles .top cs = cs.map fun c => (c, .sign) := roles_run bare signs
  cases shape : q.roles .top ds with
  | nil =>
    left
    rw [lexemes, roles_append (read_top bare), roles, shape, List.append_nil, cut_run (by decide) ne_nil, lexemes, shape]
    exact ⟨by simp, rfl⟩
  | cons y ys =>
    by_cases sign : y.2 = .sign
    · right
      refine ⟨y, rfl, sign, ?_⟩
      rw [lexemes, roles_append (read_top bare), roles, shape]
      exact cut_run_append (by decide) cs sign ys
    · left
      rw [lexemes_append (read_top bare), lexemes, roles, cut_run (by decide) ne_nil]
      · exact ⟨by simpa using sign, rfl⟩
      · intro x last z first same
        rw [shape] at first
        cases first
        exact absurd (same.symm.trans (role_of_getLast? (roles ▸ last))) sign

end Quotes

end RelationFilter.Sql
