import RelationFilter.Proofs.Filter.Bound
import RelationFilter.Proofs.Filter.Reading

namespace RelationFilter

def Term.value? (now : Instant) : Term → Option Json
  | .identifier name => now.named? name
  | .text value => some (.string value)
  | .number value => some (Json.ofFloat value)

structure Resolved where
  now : Instant
  left : Term
  right : Term
  leaf : Leaf

def Resolved.literals (r : Resolved) : List (Operand × Json) :=
  ((r.left.value? r.now).map fun v => (r.leaf.left, v)).toList ++
    ((r.right.value? r.now).map fun v => (r.leaf.right, r.leaf.op.test.bound v)).toList

namespace Filter

def resolved (now : Instant) (cs : List (Term × Comparator × Term)) (leaves : List Leaf) : List Resolved :=
  (cs.zip leaves).map fun p => ⟨now, p.1.1, p.1.2.2, p.2⟩

def resolveFilters {σ : Type} [Resolver σ] : List (Instant × Filter) → σ → Except FilterError (List Resolved) × σ
  | [], s => (.ok [], s)
  | (now, filter) :: rest, s =>
    match resolveAll now (comparisons filter) s with
    | (.error e, s) => (.error e, s)
    | (.ok leaves, s) =>
      let r := resolveFilters rest s
      (r.1.map (resolved now (comparisons filter) leaves ++ ·), r.2)

end Filter

/-- The numbers that were given to values between two scopes, in growing order. -/
structure GivenOut (s t : RecordScope) (placed : List (Nat × Json)) : Prop where
  counter : s.counter ≤ t.counter
  increasing : (placed.map Prod.fst).Pairwise (· < ·)
  within : ∀ p ∈ placed, s.counter ≤ p.1 ∧ p.1 < t.counter

namespace GivenOut

variable {s t u : RecordScope} {placed placed' : List (Nat × Json)}

theorem none (counter : s.counter ≤ t.counter) : GivenOut s t [] := ⟨counter, .nil, by simp⟩

theorem append (first : GivenOut s t placed) (second : GivenOut t u placed') : GivenOut s u (placed ++ placed') := by
  have below := first.counter
  have above := second.counter
  refine ⟨by omega, ?_, ?_⟩
  · rw [List.map_append, List.pairwise_append]
    refine ⟨first.increasing, second.increasing, ?_⟩
    intro n inFirst m inSecond
    obtain ⟨p, member, rfl⟩ := List.mem_map.mp inFirst
    obtain ⟨q, member', rfl⟩ := List.mem_map.mp inSecond
    have hp := first.within p member
    have hq := second.within q member'
    omega
  · intro p member
    rcases List.mem_append.mp member with inFirst | inSecond
    · have hp := first.within p inFirst
      omega
    · have hp := second.within p inSecond
      omega

theorem map (h : GivenOut s t placed) (g : Json → Json) : GivenOut s t (placed.map (Prod.map id g)) := by
  refine ⟨h.counter, ?_, ?_⟩
  · rw [List.map_map]
    exact h.increasing
  · intro p member
    obtain ⟨q, inPlaced, rfl⟩ := List.mem_map.mp member
    exact h.within q inPlaced

end GivenOut

/-- What a run from one scope to the next brings: resolved comparisons, and the values of their filters with the numbers
of their placeholders. -/
structure Brings (s t : RecordScope) (resolved : List Resolved) (placed : List (Nat × Json)) : Prop where
  numbers : GivenOut s t placed
  literals : (resolved.flatMap Resolved.literals).map (Prod.map Operand.text id) =
    placed.map fun p => (":" ++ numbered "f" p.1, p.2)
  named : ∀ p ∈ placed, ∃ r ∈ resolved, numbered "f" p.1 ∈ r.leaf.names
  sound : ∀ P, IsFree P → (∀ p ∈ placed, P (numbered "f" p.1) p.2) → ∀ r ∈ resolved, r.leaf.Sound P
  joins : ∀ P known, s.JoinsSound P known → t.JoinsSound P (known ++ resolved.flatMap fun r => r.leaf.names)

namespace Brings

variable {s t u : RecordScope}

theorem refl (s : RecordScope) : Brings s s [] [] where
  numbers := .none (Nat.le_refl _)
  literals := rfl
  named := by simp
  sound := by simp
  joins P known h := by simpa using h

theorem trans {resolved resolved' : List Resolved} {placed placed' : List (Nat × Json)}
    (first : Brings s t resolved placed) (second : Brings t u resolved' placed') :
    Brings s u (resolved ++ resolved') (placed ++ placed') where
  numbers := first.numbers.append second.numbers
  literals := by rw [List.flatMap_append, List.map_append, List.map_append, first.literals, second.literals]
  named := by
    intro p member
    rcases List.mem_append.mp member with member | member
    · obtain ⟨r, there, named⟩ := first.named p member
      exact ⟨r, List.mem_append_left _ there, named⟩
    · obtain ⟨r, there, named⟩ := second.named p member
      exact ⟨r, List.mem_append_right _ there, named⟩
  sound := by
    intro P free values r member
    rcases List.mem_append.mp member with member | member
    · exact first.sound P free (fun p inFirst => values p (List.mem_append_left _ inFirst)) r member
    · exact second.sound P free (fun p inSecond => values p (List.mem_append_right _ inSecond)) r member
  joins := by
    intro P known h
    rw [List.flatMap_append, ← List.append_assoc]
    exact second.joins P _ (first.joins P known h)

end Brings

inductive Term.Resolves (now : Instant) (t : Term) (s : RecordScope) : Operand → RecordScope → Prop where
  | value {v : Json} (own : t.value? now = some v) :
    Resolves now t s (.bound (numbered "f" s.counter) v) { s with counter := s.counter + 1 }
  | path {path : String} {o : Operand} (shape : t = .identifier path) (none : t.value? now = none)
    (reached : (s.visit path).outcome = .ok o) : Resolves now t s o (s.after (s.visit path))
  /-- A word that is no path. -/
  | word {path text : String} {cause : PathCause} (shape : t = .identifier path) (none : t.value? now = none)
    (failed : (s.visit path).outcome = .error cause) (plain : Plain text) :
    Resolves now t s { text := text } (s.after (s.visit path))

namespace Filter

variable {now : Instant} {s s' : RecordScope}

theorem plain_bareWord? {name : String} {o : Operand} (h : bareWord? name = some o) :
    ∃ text, o = { text := text } ∧ Plain text := by
  unfold bareWord? at h
  split at h
  · exact ⟨"NULL", (Option.some.inj h).symm, by decide⟩
  · exact ⟨"1", (Option.some.inj h).symm, by decide⟩
  · exact ⟨"0", (Option.some.inj h).symm, by decide⟩
  · cases h

theorem resolveTerm_resolves {t : Term} {o : Operand} (h : resolveTerm now t s = (.ok o, s')) :
    t.Resolves now s o s' := by
  cases t with
  | text value =>
    cases h
    exact .value rfl
  | number value =>
    cases h
    exact .value rfl
  | identifier name =>
    simp only [resolveTerm, resolveIdentifier] at h
    split at h
    · rename_i v own
      cases h
      exact .value own
    · rename_i none
      rcases outcome : (s.visit name).outcome with cause | o'
      · simp only [Resolver.resolve, RecordScope.resolve_of_error outcome, Prod.mk.injEq] at h
        rcases word : bareWord? name with _ | o'
        · simp [word] at h
        · simp only [word, Option.elim_some, Except.ok.injEq] at h
          obtain ⟨rfl, rfl⟩ := h
          obtain ⟨text, rfl, plain⟩ := plain_bareWord? word
          exact .word rfl none outcome plain
      · simp only [Resolver.resolve, RecordScope.resolve_of_ok outcome, Prod.mk.injEq, Except.ok.injEq] at h
        obtain ⟨rfl, rfl⟩ := h
        exact .path rfl none outcome

end Filter

structure Term.Brings (now : Instant) (t : Term) (s s' : RecordScope) (o : Operand) (placed : List (Nat × Json)) :
    Prop where
  numbers : GivenOut s s' placed
  literal : (t.value? now).toList.map (fun v => (o.text, v)) = placed.map fun p => (":" ++ numbered "f" p.1, p.2)
  named : ∀ p ∈ placed, numbered "f" p.1 ∈ o.bindings.names
  sound : ∀ P, IsFree P → o.Sound P
  values : ∀ P, IsFree P → ∀ g : Json → Json, (∀ p ∈ placed, P (numbered "f" p.1) (g p.2)) →
    ∀ e ∈ o.bindings.entries, P e.1 (g e.2)
  joins : ∀ P known, s.JoinsSound P known → s'.JoinsSound P (known ++ o.bindings.names)

theorem Term.Resolves.brings {now : Instant} {t : Term} {s s' : RecordScope} {o : Operand} (h : t.Resolves now s o s') :
    ∃ placed, t.Brings now s s' o placed := by
  cases h with
  | @value v own =>
    have numbers : GivenOut s { s with counter := s.counter + 1 } [(s.counter, v)] := ⟨Nat.le_succ _, by simp, by simp⟩
    refine ⟨_, numbers, by simp [own, Operand.bound], ?_, ?_, ?_, ?_⟩
    · simp [Operand.bound, Bindings.names, Bindings.single]
    · exact fun P _ => .bound v (by decide)
    · simp [Operand.bound, Bindings.single]
    · exact fun P known sound j member => (sound j member).mono (List.subset_append_left _ _)
  | @path path o shape none reached =>
    have seen := RecordScope.visits (s := s) path
    have operand (P : String → Json → Prop) (free : IsFree P) := seen.operand free reached
    refine ⟨[], .none seen.counter_le, by simp [none], by simp, fun P free => (operand P free).1, ?_, ?_⟩
    · intro P free g _ e member
      exact free e.1 (g e.2) ((operand P free).2 e.1 (List.mem_map_of_mem member))
    · intro P known sound
      have after := sound.after seen
      rwa [RecordScope.Visit.names, reached] at after
  | @word path text cause shape none failed plain =>
    have seen := RecordScope.visits (s := s) path
    refine ⟨[], .none seen.counter_le, by simp [none], by simp, fun P _ => .of_plain plain, ?_, ?_⟩
    · simp [Bindings.empty]
    · intro P known sound
      have after := sound.after seen
      rwa [RecordScope.Visit.names, failed] at after

namespace Filter

variable {now : Instant} {s t : RecordScope}

theorem resolveLeaf_cases {left right : Term} {op : Comparator} {l : Leaf}
    (h : resolveLeaf now left op right s = (.ok l, t)) :
    l.op = op ∧ ∃ u, resolveTerm now left s = (.ok l.left, u) ∧ resolveTerm now right u = (.ok l.right, t) := by
  unfold resolveLeaf at h
  rcases first : resolveTerm now left s with ⟨e | o, u⟩
  · simp [first] at h
  · simp only [first] at h
    split at h
    · cases h
    · rcases second : resolveTerm now right u with ⟨e | o', u'⟩
      · simp [second] at h
      · simp only [second] at h
        split at h
        · cases h
        · cases h
          exact ⟨rfl, u, rfl, second⟩

theorem resolveLeaf_brings {left right : Term} {op : Comparator} {l : Leaf}
    (h : resolveLeaf now left op right s = (.ok l, t)) : ∃ placed, Brings s t [⟨now, left, right, l⟩] placed := by
  obtain ⟨-, u, first, second⟩ := resolveLeaf_cases h
  obtain ⟨placed, bl⟩ := (resolveTerm_resolves first).brings
  obtain ⟨placed', br⟩ := (resolveTerm_resolves second).brings
  refine ⟨placed ++ placed'.map (Prod.map id l.op.test.bound), ?_⟩
  exact {
    numbers := bl.numbers.append (br.numbers.map _)
    literals := by
      have leftSide := bl.literal
      have rightSide := congrArg (List.map (Prod.map id l.op.test.bound)) br.literal
      simp only [List.map_map, Function.comp_def, Prod.map_apply, id_eq] at rightSide
      simp only [List.flatMap_cons, List.flatMap_nil, List.append_nil, Resolved.literals, List.map_append,
        Option.toList_map, List.map_map, Function.comp_def, Prod.map_apply, Prod.map_fst, Prod.map_snd, id_eq, leftSide,
        rightSide]
    named := by
      intro p member
      refine ⟨_, List.mem_cons_self, ?_⟩
      rcases List.mem_append.mp member with member | member
      · exact List.mem_append_left _ (bl.named p member)
      · obtain ⟨q, inRight, rfl⟩ := List.mem_map.mp member
        exact List.mem_append_right _ (br.named q inRight)
    sound := by
      intro P free values r member
      rw [List.mem_singleton.mp member]
      refine ⟨bl.sound P free, br.sound P free, ?_, ?_⟩
      · exact bl.values P free id fun p inLeft => values p (List.mem_append_left _ inLeft)
      · intro e inValues
        obtain ⟨own, inRight, rfl⟩ := List.mem_map.mp inValues
        refine br.values P free l.op.test.bound ?_ own inRight
        intro p inRight
        exact values (p.1, l.op.test.bound p.2) (List.mem_append_right _ (List.mem_map_of_mem inRight))
    joins := by
      intro P known sound
      simpa [Leaf.names] using br.joins P _ (bl.joins P known sound) }

theorem resolveAll_brings {cs : List (Term × Comparator × Term)} {leaves : List Leaf}
    (h : resolveAll now cs s = (.ok leaves, t)) :
    ∃ placed, Brings s t (resolved now cs leaves) placed := by
  induction cs generalizing s leaves with
  | nil =>
    cases h
    exact ⟨[], .refl _⟩
  | cons c cs ih =>
    obtain ⟨left, op, right⟩ := c
    simp only [resolveAll] at h
    rcases first : resolveLeaf now left op right s with ⟨e | l, u⟩
    · simp [first] at h
    · simp only [first] at h
      rcases others : resolveAll now cs u with ⟨e | ls, u'⟩
      · simp [others, Except.map] at h
      · simp only [others, Except.map, Prod.mk.injEq, Except.ok.injEq] at h
        obtain ⟨rfl, rfl⟩ := h
        obtain ⟨placed, head⟩ := resolveLeaf_brings first
        obtain ⟨placed', tail⟩ := ih others
        exact ⟨placed ++ placed', head.trans tail⟩

theorem resolveFilters_brings {filters : List (Instant × Filter)} {all : List Resolved}
    (h : resolveFilters filters s = (.ok all, t)) : ∃ placed, Brings s t all placed := by
  induction filters generalizing s all with
  | nil =>
    cases h
    exact ⟨[], .refl _⟩
  | cons f rest ih =>
    obtain ⟨now, filter⟩ := f
    simp only [resolveFilters] at h
    rcases first : resolveAll now (comparisons filter) s with ⟨e | leaves, u⟩
    · simp [first] at h
    · simp only [first] at h
      rcases others : resolveFilters rest u with ⟨e | more, u'⟩
      · simp [others, Except.map] at h
      · simp only [others, Except.map, Prod.mk.injEq, Except.ok.injEq] at h
        obtain ⟨rfl, rfl⟩ := h
        obtain ⟨placed, head⟩ := resolveAll_brings first
        obtain ⟨placed', tail⟩ := ih others
        exact ⟨placed ++ placed', head.trans tail⟩

end Filter

end RelationFilter
