import RelationFilter.Proofs.Filter.Standing
import RelationFilter.Proofs.Filter.Values
import RelationFilter.Proofs.Path.Email

namespace RelationFilter

namespace Sql

def guarded (sql : String) (rows : List String) : String :=
  rows.foldl (fun sql row => "((" ++ sql ++ ") AND (" ++ row ++ ".emailVisibility = TRUE))") sql

end Sql

namespace Comparison

theorem compared_ne_empty (l op r : String) : compared l op r ≠ "" := by
  simp [compared]

theorem equalitySql_ne_empty (equal : Bool) (left right : Operand) : equalitySql equal left right ≠ "" := by
  unfold equalitySql
  dsimp only
  split
  · exact compared_ne_empty _ _ _
  · split
    · exact compared_ne_empty _ _ _
    · split
      · exact compared_ne_empty _ _ _
      · split
        · split
          · simp
          · exact compared_ne_empty _ _ _
        · split
          · split
            · simp
            · exact compared_ne_empty _ _ _
          · exact compared_ne_empty _ _ _

theorem likeness_shown (d : Dialect) (keyword : String) (left right : Operand) :
    ∃ sql own, likeness d keyword left right = .raw sql own ∧ sql ≠ "" := by
  unfold likeness
  split
  · exact ⟨_, _, rfl, compared_ne_empty _ _ _⟩
  · exact ⟨_, _, rfl, by simp [compared]⟩

theorem condition_shown (d : Dialect) (t : Test) (left right : Operand) :
    ∃ sql own, condition d t left right = .raw sql own ∧ sql ≠ "" := by
  cases t with
  | equal => exact ⟨_, _, rfl, equalitySql_ne_empty true left right⟩
  | notEqual => exact ⟨_, _, rfl, equalitySql_ne_empty false left right⟩
  | like => exact likeness_shown d "LIKE" left right
  | notLike => exact likeness_shown d "NOT LIKE" left right
  | less | lessEqual | greater | greaterEqual => exact ⟨_, _, rfl, compared_ne_empty _ _ _⟩

end Comparison

theorem Sql.guarded_ne_empty {sql : String} (shown : sql ≠ "") (rows : List String) : guarded sql rows ≠ "" := by
  induction rows generalizing sql with
  | nil => exact shown
  | cons row rest ih => exact ih (by simp)

theorem Arrival.render_emailGuard (d : Dialect) (row : String) {c : Condition} {b : Bindings}
    (shown : (c.render d b).1 ≠ "") :
    (emailGuard row c).render d b = (Sql.guarded (c.render d b).1 [row], (c.render d b).2) := by
  have visible : row ++ ".emailVisibility = TRUE" ≠ "" := by simp
  have both : Sql.combine "AND" [(c.render d b).1, row ++ ".emailVisibility = TRUE"] =
      "(" ++ ((c.render d b).1 ++ ") AND (" ++ (row ++ ".emailVisibility = TRUE")) ++ ")" := by
    simp [Sql.combine, shown, visible]
  rw [emailGuard, Condition.render, Condition.render]
  simp only [Condition.text, Condition.renderAll, Condition.render, Bindings.merge, Bindings.empty, List.foldl_nil, both]
  refine Prod.ext ?_ rfl
  rw [← String.toList_inj]
  simp [Sql.enclose, Sql.guarded]

theorem Operand.GuardedBy.render {o : Operand} {found : Option String} (h : o.GuardedBy found) (d : Dialect)
    {c : Condition} {sql : String} {own : Bindings} (shown : sql ≠ "")
    (inner : ∀ b, c.render d b = (sql, b.merge own)) (b : Bindings) :
    (o.applyGuard c).render d b = (Sql.guarded sql found.toList, b.merge own) := by
  cases found with
  | none =>
    rw [applyGuard, show o.guard = none from h]
    exact inner b
  | some row =>
    rw [applyGuard, h.2]
    have text : (c.render d b).1 ≠ "" := by rwa [inner b]
    show (Arrival.emailGuard row c).render d b = _
    rw [Arrival.render_emailGuard d row text, inner b]
    rfl

/-- How a comparison is written whose sides may read e-mail addresses: the comparison itself, under one guard for each side
that reads one. -/
structure Leaf.Guarded (d : Dialect) (l : Leaf) (left right : Option String) : Prop where
  left_side : l.left.GuardedBy left
  right_side : l.right.GuardedBy right
  rendered : ∃ sql own, Comparison.condition d l.op.test l.left l.right = .raw sql own ∧
    ∀ b, (l.plain d).render d b = (Sql.guarded sql (left.toList ++ right.toList), b.merge own)

theorem Leaf.guarded_of_sides {l : Leaf} {left right : Option String} (hl : l.left.GuardedBy left)
    (hr : l.right.GuardedBy right) (d : Dialect) : l.Guarded d left right := by
  obtain ⟨sql, own, shape, shown⟩ := Comparison.condition_shown d l.op.test l.left l.right
  refine ⟨hl, hr, sql, own, shape, ?_⟩
  intro b
  have inner (b : Bindings) : (l.left.applyGuard (Comparison.condition d l.op.test l.left l.right)).render d b =
      (Sql.guarded sql left.toList, b.merge own) :=
    hl.render d shown (fun b => by rw [shape, Condition.render]) b
  rw [Leaf.plain, hr.render d (Sql.guarded_ne_empty shown _) inner b, Sql.guarded, Sql.guarded, Sql.guarded,
    List.foldl_append]

theorem Leaf.Guarded.chain?_eq_none {d : Dialect} {l : Leaf} {left right : Option String} (h : l.Guarded d left right)
    (reads : left.isSome ∨ right.isSome) : l.chain? = none := by
  have isGuarded {o : Operand} {found : Option String} (own : o.GuardedBy found) (there : found.isSome) :
      o.guard.isSome := by
    obtain ⟨row, rfl⟩ := Option.isSome_iff_exists.mp there
    rw [own.2]
    rfl
  unfold chain?
  rcases reads with there | there
  · simp [isGuarded h.left_side there]
  · simp [isGuarded h.right_side there]

/-- The term is a path to the e-mail address of a record that stands under the alias `row`. -/
def Term.ReadsEmail (s : RecordScope) : Term → (row : String) → Prop
  | identifier path, row => s.ReadsEmail path row
  | _, _ => False

namespace Filter

variable {now : Instant} {s t : RecordScope}

theorem head?_of_named? {name : String} {v : Json} (h : now.named? name = some v) : name.toList.head? = some '@' := by
  unfold Instant.named? at h
  split at h
  all_goals first | rfl | cases h

theorem split_of_bareWord? {name : String} {o : Operand} (h : bareWord? name = some o) :
    ∀ segments, Text.split '.' name ≠ segments ++ ["email"] := by
  intro segments shape
  have part : "email".toList ∈ name.toList.splitOn '.' := by
    have last : "email" ∈ Text.split '.' name := by rw [shape]; simp
    obtain ⟨cs, member, same⟩ := List.mem_map.mp last
    rwa [← same, String.toList_ofList]
  have inName : 'm' ∈ name.toList := by
    have within : "email".toList <:+: ['.'].intercalate (name.toList.splitOn '.') := Text.infix_intercalate part
    rw [List.intercalate_splitOn] at within
    exact within.subset (by decide)
  have lower : 'm' ∈ (Text.lowerAscii name).toList := by
    rw [Text.lowerAscii, String.toList_ofList]
    exact List.mem_map.mpr ⟨'m', inName, by decide⟩
  unfold bareWord? at h
  split at h
  · rename_i same
    exact absurd (same ▸ lower) (by decide)
  · rename_i same
    exact absurd (same ▸ lower) (by decide)
  · rename_i same
    exact absurd (same ▸ lower) (by decide)
  · cases h

theorem resolveTerm_email (hidden : s.settings.allowHiddenFields = false) {u : Term} {o : Operand}
    (h : resolveTerm now u s = (.ok o, t)) :
    ∃ found, (∀ row, u.ReadsEmail s row ↔ found = some row) ∧ o.GuardedBy found := by
  have free {u : Term} {o : Operand} (not : ∀ row, ¬ u.ReadsEmail s row) (none : o.guard = none) :
      ∃ found, (∀ row, u.ReadsEmail s row ↔ found = some row) ∧ o.GuardedBy found :=
    ⟨.none, fun row => ⟨fun reads => absurd reads (not row), nofun⟩, none⟩
  cases u with
  | text value =>
    cases h
    exact free (fun _ => id) rfl
  | number value =>
    cases h
    exact free (fun _ => id) rfl
  | identifier name =>
    simp only [resolveTerm, resolveIdentifier] at h
    split at h
    · rename_i v own
      cases h
      exact free (fun row reads => reads.1 (head?_of_named? own)) rfl
    · rcases outcome : (s.visit name).outcome with cause | o'
      · simp only [Resolver.resolve, RecordScope.resolve_of_error outcome, Prod.mk.injEq] at h
        rcases word : bareWord? name with _ | o'
        · simp [word] at h
        · simp only [word, Option.elim_some, Except.ok.injEq] at h
          obtain ⟨rfl, -⟩ := h
          obtain ⟨text, rfl, -⟩ := plain_bareWord? word
          refine free ?_ rfl
          rintro row ⟨-, segments, c, shape, -⟩
          exact split_of_bareWord? word segments shape
      · simp only [Resolver.resolve, RecordScope.resolve_of_ok outcome, Prod.mk.injEq, Except.ok.injEq] at h
        obtain ⟨rfl, -⟩ := h
        exact RecordScope.visit_email hidden outcome

theorem exists_of_resolveAll {cs : List (Term × Comparator × Term)} {leaves : List Leaf}
    (h : resolveAll now cs s = (.ok leaves, t)) {n : Nat} {left right : Term} {op : Comparator}
    (there : cs[n]? = some (left, op, right)) :
    ∃ l u, leaves[n]? = some l ∧ resolveLeaf now left op right (resolveAll now (cs.take n) s).2 = (.ok l, u) := by
  induction cs generalizing s leaves n with
  | nil => cases there
  | cons c cs ih =>
    obtain ⟨left', op', right'⟩ := c
    simp only [resolveAll] at h
    rcases first : resolveLeaf now left' op' right' s with ⟨e | l, s'⟩
    · simp [first] at h
    · simp only [first] at h
      rcases others : resolveAll now cs s' with ⟨e | ls, t'⟩
      · simp [others, Except.map] at h
      · simp only [others, Except.map, Prod.mk.injEq, Except.ok.injEq] at h
        obtain ⟨rfl, rfl⟩ := h
        cases n with
        | zero =>
          cases there
          exact ⟨l, s', rfl, first⟩
        | succ n =>
          obtain ⟨l', u, place, resolved⟩ := ih others there
          refine ⟨l', u, place, ?_⟩
          simpa [resolveAll, first] using resolved

/-- Where hidden fields are not shown, a comparison that reads the e-mail address of a record is written under a guard for
each side that does. It stands alone, on no row of a chain, and its text is a part of the text of the condition. -/
theorem compile_guards_email (hidden : s.settings.allowHiddenFields = false) {filter : Filter} {c : Condition}
    (compiled : (compile now filter s).1 = .ok c) :
    let d := s.settings.dialect
    ∃ leaves standing, (resolveAll now (comparisons filter) s).1 = .ok leaves ∧ c.Stands d standing ∧
      standing.leaves.Perm leaves ∧
      ∀ n left op right, (comparisons filter)[n]? = some (left, op, right) →
        let u := (resolveAll now ((comparisons filter).take n) s).2
        let v := (resolveTerm now left u).2
        ∃ l inLeft inRight, leaves[n]? = some l ∧ l.op = op ∧
          (resolveTerm now left u).1 = .ok l.left ∧ (resolveTerm now right v).1 = .ok l.right ∧
          (∀ row, left.ReadsEmail u row ↔ inLeft = some row) ∧ (∀ row, right.ReadsEmail v row ↔ inRight = some row) ∧
          l.Guarded d inLeft inRight ∧
          (inLeft.isSome ∨ inRight.isSome → l ∈ standing.alone ∧ l ∉ standing.grouped ∧
            ∀ b, ((l.plain d).render d b).1.toList <:+: (c.render d b).1.toList) := by
  intro d
  obtain ⟨leaves, standing, resolved, stands, once⟩ := compile_standing compiled
  refine ⟨leaves, standing, by rw [resolved], stands, once, ?_⟩
  intro n left op right there u v
  obtain ⟨l, w, place, leaf⟩ := exists_of_resolveAll resolved there
  obtain ⟨sameOp, v', first, second⟩ := resolveLeaf_cases leaf
  have ends : v = v' := congrArg Prod.snd first
  subst ends
  -- Both sides are resolved in later scopes, where hidden fields are still not shown.
  have kept : u.settings = s.settings := settings_resolveAll now s _
  have kept' : v.settings = s.settings := (settings_resolveTerm now u left).trans kept
  obtain ⟨inLeft, readsLeft, guardLeft⟩ := resolveTerm_email (by rwa [kept]) first
  obtain ⟨inRight, readsRight, guardRight⟩ := resolveTerm_email (by rwa [kept']) second
  have guarded : l.Guarded d inLeft inRight := Leaf.guarded_of_sides guardLeft guardRight d
  refine ⟨l, inLeft, inRight, place, sameOp, by rw [first], by rw [second], readsLeft, readsRight, guarded, ?_⟩
  intro reads
  have apart : l ∉ standing.grouped := by
    intro inGrouped
    obtain ⟨m, chain⟩ := standing.chains l inGrouped
    rw [guarded.chain?_eq_none reads] at chain
    cases chain
  have alone : l ∈ standing.alone := by
    have member : l ∈ standing.leaves := once.symm.subset (List.mem_of_getElem? place)
    exact (List.mem_append.mp member).resolve_right apart
  refine ⟨alone, apart, ?_⟩
  intro b
  obtain ⟨b', within⟩ := stands.shows l alone b
  obtain ⟨sql, own, -, text⟩ := guarded.rendered
  rw [text b'] at within
  rwa [text b]

def members : Collection := { id := "m", name := "members", kind := .auth, fields := [{ name := "nick", kind := .text }] }

def clubs : Collection :=
  { id := "c", name := "clubs", fields := [{ name := "members", kind := .relation { collectionId := "m" } }] }

def clubScope : RecordScope := .new ⟨[clubs, members]⟩ clubs none {}

def knownMembers : Filter :=
  [(.and, .comparison (.identifier "members.nick") ⟨.equal, false⟩ (.text "a")),
    (.and, .comparison (.identifier "members.email") ⟨.like, false⟩ (.text "b")),
    (.and, .comparison (.identifier "members.nick") ⟨.notEqual, false⟩ (.text "c"))]

theorem compile_guards_email_knownMembers :
    ∃ c, (compile ⟨0, 0⟩ knownMembers clubScope).1 = .ok c ∧
      ∃ standing, c.Stands .mysql standing ∧
        ∃ l ∈ standing.alone, l ∉ standing.grouped ∧ l.Guarded .mysql (some "clubs_members") none := by
  obtain ⟨c, compiled⟩ : ∃ c, (compile ⟨0, 0⟩ knownMembers clubScope).1 = .ok c := ⟨_, rfl⟩
  obtain ⟨leaves, standing, -, stands, -, each⟩ := compile_guards_email (by rfl) compiled
  obtain ⟨l, inLeft, inRight, -, -, -, -, left, right, guarded, apart⟩ := each 1 _ _ _ rfl
  have reads : (Term.identifier "members.email").ReadsEmail
      (resolveAll ⟨0, 0⟩ ((comparisons knownMembers).take 1) clubScope).2 "clubs_members" :=
    ⟨by decide, ["members"], members, by decide, rfl, .step (.relation rfl rfl rfl) (.here ..)⟩
  obtain rfl : inLeft = some "clubs_members" := (left _).mp reads
  obtain rfl : inRight = none := by
    cases inRight with
    | none => rfl
    | some row => exact ((right row).mpr rfl).elim
  obtain ⟨alone, notGrouped, -⟩ := apart (.inl rfl)
  exact ⟨c, compiled, standing, stands, l, alone, notGrouped, guarded⟩

end Filter
end RelationFilter
