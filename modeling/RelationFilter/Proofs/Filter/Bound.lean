import RelationFilter.Filter.Run
import RelationFilter.Proofs.Filter.Formula
import RelationFilter.Proofs.Path.Fresh

namespace RelationFilter

def Test.bound (t : Test) (v : Json) : Json :=
  match t with
  | .like | .notLike => LikePattern.ofValue v
  | _ => v

namespace Comparison

def rightBindings (t : Test) (right : Operand) : Bindings := ⟨right.bindings.entries.map fun e => (e.1, t.bound e.2)⟩

theorem names_rightBindings (t : Test) (right : Operand) : (rightBindings t right).names = right.bindings.names := by
  simp [rightBindings, Bindings.names]

variable {names : List String}

theorem covers_compared {l op r : String} (hl : Covers names l) (plain : Plain op) (hr : Covers names r) :
    Covers names (compared l op r) := (hl.between (by decide) (.of_plain plain)).between (by decide) hr

theorem covers_shown {o : Operand} (h : Covers names o.text) : Covers names (shown o) := by
  unfold shown
  split
  · exact .of_plain (by decide)
  · exact h

theorem covers_equalitySql (equal : Bool) {left right : Operand} (hl : Covers names left.text)
    (hr : Covers names right.text) : Covers names (equalitySql equal left right) := by
  have op : Plain (if equal then "=" else "!=") := by split <;> decide
  have blank : Covers names "''" := .of_plain (by decide)
  have orNull {o : Operand} {sql : String} (h : Covers names sql) (ho : Covers names o.text) :
      Covers names ("(" ++ sql ++ " OR " ++ o.text ++ " IS NULL)") :=
    ((h.after (by decide)).between (by decide) ho).before (by decide)
  have coalesced {o : Operand} (h : Covers names o.text) : Covers names ("COALESCE(" ++ o.text ++ ", '')") :=
    (h.after (by decide)).before (by decide)
  unfold equalitySql
  dsimp only
  split
  · exact covers_compared hl op hr
  · split
    · exact covers_compared blank op blank
    · split
      · exact covers_compared (covers_shown hl) op (covers_shown hr)
      · split
        · split
          · exact orNull (covers_compared blank (by decide) hr) hr
          · exact covers_compared blank (by decide) hr
        · split
          · split
            · exact orNull (covers_compared hl (by decide) blank) hl
            · exact covers_compared hl (by decide) blank
          · exact covers_compared (coalesced hl) op (coalesced hr)

theorem covers_containing (d : Dialect) {operand : String} (h : Covers names operand) :
    Covers names (d.containing operand) := by
  cases d
  · exact (h.after (by decide : Plain "CONCAT('%',")).before (by decide)
  · exact (h.after (by decide : Plain "('%' || ")).before (by decide)

theorem likeness_eq (d : Dialect) {keyword : String} (plain : Plain keyword) {t : Test} (like : t = .like ∨ t = .notLike)
    (left right : Operand) :
    ∃ sql, likeness d keyword left right = .raw sql (left.bindings.merge (rightBindings t right)) ∧
      ∀ names, Covers names left.text → Covers names right.text → Covers names sql := by
  have patterned : t.bound = LikePattern.ofValue := by rcases like with rfl | rfl <;> rfl
  unfold likeness
  split
  · rename_i none
    have unbound : rightBindings t right = ⟨[]⟩ := by
      rw [rightBindings, List.eq_nil_of_length_eq_zero none]
      rfl
    exact ⟨_, by rw [unbound]; rfl, fun _ hl hr => covers_compared hl plain (covers_containing d hr)⟩
  · refine ⟨_, by rw [rightBindings, patterned], fun _ hl hr => ?_⟩
    have whole := covers_compared hl plain hr
    cases d
    · simpa [Dialect.escapeClause] using whole
    · exact whole.before (by decide +kernel)

theorem condition_eq (d : Dialect) (t : Test) (left right : Operand) :
    ∃ sql, condition d t left right = .raw sql (left.bindings.merge (rightBindings t right)) ∧
      ∀ names, Covers names left.text → Covers names right.text → Covers names sql := by
  have unchanged (h : t.bound = id) : rightBindings t right = right.bindings := by simp [rightBindings, h]
  cases t with
  | equal => exact ⟨_, by rw [unchanged rfl]; rfl, fun _ hl hr => covers_equalitySql true hl hr⟩
  | notEqual => exact ⟨_, by rw [unchanged rfl]; rfl, fun _ hl hr => covers_equalitySql false hl hr⟩
  | like => exact likeness_eq d (by decide) (.inl rfl) left right
  | notLike => exact likeness_eq d (by decide) (.inr rfl) left right
  | less | lessEqual | greater | greaterEqual =>
    exact ⟨_, by rw [unchanged rfl]; rfl, fun _ hl hr => covers_compared hl (by decide) hr⟩

end Comparison

namespace Leaf

open Comparison

structure Sound (P : String → Json → Prop) (l : Leaf) : Prop where
  left : l.left.Sound P
  right : l.right.Sound P
  left_values : l.left.bindings.Are P
  right_values : (rightBindings l.op.test l.right).Are P

def names (l : Leaf) : List String := l.left.bindings.names ++ l.right.bindings.names

variable {P : String → Json → Prop} {l : Leaf}

theorem Sound.condition (sound : l.Sound P) (d : Dialect) {left right : Operand} (hl : left.bindings = l.left.bindings)
    (hr : right.bindings = l.right.bindings) (left_text : Covers left.bindings.names left.text)
    (right_text : Covers right.bindings.names right.text) :
    (Comparison.condition d l.op.test left right).Sound P ∧
      ∀ name ∈ l.names, (Comparison.condition d l.op.test left right).Binds name := by
  obtain ⟨sql, shape, covers⟩ := condition_eq d l.op.test left right
  have values : rightBindings l.op.test right = rightBindings l.op.test l.right := by
    rw [rightBindings, rightBindings, hr]
  rw [shape, values, hl]
  rw [hl] at left_text
  rw [hr, ← names_rightBindings l.op.test l.right] at right_text
  obtain ⟨more, there⟩ := l.left.bindings.extends_merge sound.right_values
  refine ⟨⟨covers _ (left_text.mono more.names) (right_text.mono there), more.kept sound.left_values⟩, ?_⟩
  intro name member
  rcases List.mem_append.mp member with inLeft | inRight
  · exact .raw (more.names inLeft)
  · exact .raw (there (names_rightBindings l.op.test l.right ▸ inRight))

theorem Sound.plain (sound : l.Sound P) (d : Dialect) :
    (l.plain d).Sound P ∧ ∀ name ∈ l.names, (l.plain d).Binds name := by
  have guarded {o : Operand} (h : o.Sound P) (c : Condition) :
      (c.Sound P → (o.applyGuard c).Sound P) ∧ ∀ name, c.Binds name → (o.applyGuard c).Binds name := by
    unfold Operand.applyGuard
    split
    · rename_i g same
      exact h.guard g same c
    · exact ⟨id, fun _ => id⟩
  obtain ⟨inner, binds⟩ := sound.condition d rfl rfl sound.left.text sound.right.text
  refine ⟨(guarded sound.right _).1 ((guarded sound.left _).1 inner), ?_⟩
  intro name member
  exact (guarded sound.right _).2 name ((guarded sound.left _).2 name (binds name member))

theorem Sound.chain (sound : l.Sound P) {m : Chain} (h : l.chain? = some m) : SoundChain P m ∧ m.isRooted := by
  have groups := chain?_eq_some_iff.mp h
  have rooted : m.isRooted := by
    have complete := groups.complete
    simp only [ChainOf.isComplete, Bool.and_eq_true] at complete
    exact complete.1
  rcases groups.side with ⟨left, -⟩ | ⟨-, right⟩
  · exact ⟨sound.left.chain m left, rooted⟩
  · exact ⟨sound.right.chain m right, rooted⟩

theorem Sound.onChain (sound : l.Sound P) (d : Dialect) {m : Chain} (h : l.chain? = some m) :
    (l.onChain d m).Sound P ∧ ∀ name ∈ l.names, (l.onChain d m).Binds name := by
  have value (names : List String) : Covers names m.value := .of_plain (sound.chain h).1.value_plain
  unfold Leaf.onChain
  split
  · exact sound.condition d rfl rfl (value _) sound.right.text
  · exact sound.condition d rfl rfl sound.left.text (value _)

end Leaf

namespace Condition

variable {P : String → Json → Prop} {leaves : List Leaf}

structure Carries (P : String → Json → Prop) (leaves : List Leaf) (c : Condition) (f : Formula) : Prop where
  sound : c.Sound P
  binds : ∀ n ∈ f.numbers, ∀ l, leaves[n]? = some l → ∀ name ∈ l.names, c.Binds name

theorem carries_parts {cs : List Condition} {fs : List Formula} (parts : List.Forall₂ (Carries P leaves) cs fs) :
    SoundAll P cs ∧ ∀ n ∈ fs.flatMap Formula.numbers, ∀ l, leaves[n]? = some l → ∀ name ∈ l.names,
      ∃ c ∈ cs, c.Binds name := by
  induction parts with
  | nil => exact ⟨trivial, by simp⟩
  | cons first rest ih =>
    obtain ⟨tail, tail_binds⟩ := ih
    refine ⟨⟨first.sound, tail⟩, ?_⟩
    intro n member l place name inLeaf
    rcases List.mem_append.mp (List.flatMap_cons ▸ member) with here | later
    · exact ⟨_, List.mem_cons_self, first.binds n here l place name inLeaf⟩
    · obtain ⟨c, inRest, binds⟩ := tail_binds n later l place name inLeaf
      exact ⟨c, List.mem_cons_of_mem _ inRest, binds⟩

theorem carries_all {cs : List Condition} {fs : List Formula} (parts : List.Forall₂ (Carries P leaves) cs fs) :
    Carries P leaves (.all cs) (.all fs) := by
  obtain ⟨sound, binds⟩ := carries_parts parts
  refine ⟨sound, ?_⟩
  intro n member l place name inLeaf
  rw [Formula.numbers_all] at member
  obtain ⟨c, part, inner⟩ := binds n member l place name inLeaf
  exact .all part inner

theorem carries_any {cs : List Condition} {fs : List Formula} (parts : List.Forall₂ (Carries P leaves) cs fs) :
    Carries P leaves (.any cs) (.any fs) := by
  obtain ⟨sound, binds⟩ := carries_parts parts
  refine ⟨sound, ?_⟩
  intro n member l place name inLeaf
  rw [Formula.numbers_any] at member
  obtain ⟨c, part, inner⟩ := binds n member l place name inLeaf
  exact .any part inner

theorem carries_plain {d : Dialect} {l : Leaf} {n : Nat} (sound : l.Sound P) (place : leaves[n]? = some l) :
    Carries P leaves (l.plain d) (.comparison n) := by
  obtain ⟨whole, binds⟩ := sound.plain d
  refine ⟨whole, ?_⟩
  intro m member l' place'
  rw [Formula.numbers, List.mem_singleton] at member
  subst member
  cases place.symm.trans place'
  exact binds

theorem carries_row {d : Dialect} {m : Chain} {members : List (Nat × Leaf)} (sound : ∀ l ∈ leaves, l.Sound P)
    (places : ∀ p ∈ members, leaves[p.1]? = some p.2 ∧ ∃ own, p.2.chain? = some own)
    (head : ∃ p ∈ members, p.2.chain? = some m) :
    Carries P leaves (.chainRow m (members.map fun p => p.2.onChain d (p.2.chain?.getD m)))
      (.all (members.map fun p => .comparison p.1)) := by
  obtain ⟨p, inMembers, own⟩ := head
  obtain ⟨chain, rooted⟩ := (sound p.2 (List.mem_of_getElem? (places p inMembers).1)).chain own
  have onChain : ∀ p ∈ members, (p.2.onChain d (p.2.chain?.getD m)).Sound P ∧
      ∀ name ∈ p.2.names, (p.2.onChain d (p.2.chain?.getD m)).Binds name := by
    intro p member
    obtain ⟨place, own, has⟩ := places p member
    rw [has]
    exact (sound p.2 (List.mem_of_getElem? place)).onChain d has
  refine ⟨⟨chain, soundAll_of ?_⟩, ?_⟩
  · intro c member
    obtain ⟨p, inMembers, rfl⟩ := List.mem_map.mp member
    exact (onChain p inMembers).1
  · intro n member l place name inLeaf
    simp only [Formula.numbers_all, List.mem_flatMap, List.mem_map] at member
    obtain ⟨-, ⟨p, inMembers, rfl⟩, numbered⟩ := member
    rw [Formula.numbers, List.mem_singleton] at numbered
    subst numbered
    cases (places p inMembers).1.symm.trans place
    exact .row rooted (List.mem_map_of_mem inMembers) ((onChain p inMembers).2 name inLeaf)

theorem Reads.carries (sound : ∀ l ∈ leaves, l.Sound P) {c : Condition} {f : Formula} (reads : c.Reads leaves f) :
    c.Carries P leaves f := by
  -- The parts of a condition stand in a list, so the recursion goes by the size of the condition.
  have each {cs : List Condition} {fs : List Formula} (parts : List.Forall₂ (Condition.Reads leaves) cs fs)
      (ih : ∀ c ∈ cs, ∀ f, c.Reads leaves f → c.Carries P leaves f) : List.Forall₂ (Carries P leaves) cs fs :=
    ((List.forall₂_and_left ..).mpr ⟨ih, parts⟩).imp fun c f h => h.1 f h.2
  cases reads with
  | plain place => exact carries_plain (sound _ (List.mem_of_getElem? place)) place
  | @all cs fs parts => exact carries_all (each parts fun c member f reads => Reads.carries sound reads)
  | @any cs fs parts => exact carries_any (each parts fun c member f reads => Reads.carries sound reads)
  | row places head => exact carries_row sound places head
termination_by sizeOf c
decreasing_by
  all_goals
    have smaller := List.sizeOf_lt_of_mem member
    simp only [Condition.all.sizeOf_spec, Condition.any.sizeOf_spec]
    omega

end Condition
end RelationFilter
