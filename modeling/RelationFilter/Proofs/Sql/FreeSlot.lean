import Mathlib.Order.Bounds.Basic
import RelationFilter.Proofs.Sql.Bindings

namespace RelationFilter.Bindings

variable {b : Bindings} {m n : Nat}

def freeFrom (b : Bindings) (n : Nat) : Set Nat := {k | n ≤ k ∧ slot k ∉ b.names}

/-- A search that ends, with the numbers at which it starts and stops. A taken slot leads to the next number. -/
inductive Searches (b : Bindings) : (start stop : Nat) → Prop
  | free {n : Nat} (free : slot n ∉ b.names) : Searches b n n
  | taken {n m : Nat} (taken : slot n ∈ b.names) (later : Searches b (n + 1) m) : Searches b n m

theorem isLeast_freeFrom_of_free (free : slot n ∉ b.names) : IsLeast (b.freeFrom n) n :=
  ⟨⟨Nat.le_refl n, free⟩, fun _ member => member.1⟩

/-- A number whose slot is taken is passed over. -/
theorem freeFrom_of_taken (taken : slot n ∈ b.names) : b.freeFrom n = b.freeFrom (n + 1) := by
  ext k
  constructor
  · rintro ⟨above, free⟩
    have other : k ≠ n := by
      rintro rfl
      exact free taken
    exact ⟨by omega, free⟩
  · rintro ⟨above, free⟩
    exact ⟨by omega, free⟩

theorem Searches.isLeast (search : b.Searches n m) : IsLeast (b.freeFrom n) m := by
  induction search with
  | free free => exact isLeast_freeFrom_of_free free
  | taken taken _ ih =>
    rw [freeFrom_of_taken taken]
    exact ih

/-- The first free slot is reached if it is reached within the tries. -/
theorem searches_freeIndex {tries : Nat} (free : slot (b.freeIndex tries n) ∉ b.names) :
    b.Searches n (b.freeIndex tries n) := by
  induction tries generalizing n with
  | zero => exact .free free
  | succ tries ih =>
    simp only [freeIndex] at free ⊢
    split at free
    · rename_i taken
      rw [if_pos taken]
      exact .taken (contains_iff.mp taken) (ih free)
    · rename_i first
      rw [if_neg first]
      exact .free free

theorem freeIndex_le (b : Bindings) (tries n : Nat) : b.freeIndex tries n ≤ n + tries := by
  induction tries generalizing n with
  | zero => exact Nat.le_refl n
  | succ tries ih =>
    simp only [freeIndex]
    split
    · have := ih (n + 1)
      omega
    · omega

/-- The search from the size on ends, after no more taken slots than there are names, and stops at one number only: the least
from the size on whose slot is free. Under that slot the value is bound, after all that was bound before. -/
theorem bind_least (b : Bindings) (v : Json) :
    ∃ n, (∀ m, b.Searches b.size m ↔ m = n) ∧ IsLeast {k | b.size ≤ k ∧ slot k ∉ b.names} n ∧ n ≤ b.size + b.size ∧
      b.bind v = (slot n, ⟨b.entries ++ [(slot n, v)]⟩) := by
  have search : b.Searches b.size (b.freeIndex b.size b.size) := searches_freeIndex b.freeSlot_not_mem
  refine ⟨b.freeIndex b.size b.size, fun m => ⟨?_, ?_⟩, search.isLeast, b.freeIndex_le _ _, ?_⟩
  · intro other
    exact other.isLeast.unique search.isLeast
  · rintro rfl
    exact search
  · have bound : b.insert b.freeSlot v = ⟨b.entries ++ [(b.freeSlot, v)]⟩ :=
      congrArg Bindings.mk (entries_insert v b.freeSlot_not_mem)
    rw [bind, bound]
    rfl

/-- A taken slot is passed over, and a free one before the last that is taken is used. -/
example : (bind ⟨[("p2", .null), ("p3", .null), ("p6", .null)]⟩ .null).1 = "p4" := by decide

end RelationFilter.Bindings
