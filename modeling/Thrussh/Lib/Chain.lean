import Mathlib.Algebra.GroupWithZero.Nat
import Mathlib.Data.List.Basic
import Mathlib.Data.Nat.Find
import Mathlib.Order.Bounds.Defs

/-!
# Chains of blocks

A chain appends to what there is a block that is computed from it. A loop that
goes on until so many elements are there ends, when all blocks have one length,
with the least number of blocks that reach it.
-/

namespace Thrussh.Lib

variable {α : Type} {next : List α → List α} {size len : Nat}

/-- The first blocks of a chain, one after the other. -/
def chain (next : List α → List α) : Nat → List α
  | 0 => []
  | n + 1 => chain next n ++ next (chain next n)

/-- Blocks are appended until there are `len` elements; the fuel counts the
tests of the loop. -/
def extend (next : List α → List α) (len : Nat) : Nat → List α → Option (List α)
  | 0, _ => none
  | fuel + 1, l => if l.length < len then extend next len fuel (l ++ next l) else some l

theorem length_chain (hsize : ∀ l, (next l).length = size) (n : Nat) :
    (chain next n).length = size * n := by
  induction n with
  | zero => rfl
  | succ n ih => rw [chain, List.length_append, hsize, ih, Nat.mul_succ]

/-- The loop ends with the least number of blocks that is enough. -/
theorem extend_chain (hsize : ∀ l, (next l).length = size) {n least fuel : Nat}
    (hleast : IsLeast {k | n ≤ k ∧ len ≤ size * k} least) (hfuel : least < n + fuel) :
    extend next len fuel (chain next n) = some (chain next least) := by
  induction fuel generalizing n with
  | zero =>
    have hle : n ≤ least := hleast.1.1
    omega
  | succ fuel ih =>
    rw [extend, length_chain hsize]
    by_cases hshort : size * n < len
    · rw [if_pos hshort]
      have hne : least ≠ n := by
        intro heq
        have hreached := hleast.1.2
        rw [heq] at hreached
        omega
      have hle : n ≤ least := hleast.1.1
      have hnext : IsLeast {k | n + 1 ≤ k ∧ len ≤ size * k} least := by
        constructor
        · exact ⟨by omega, hleast.1.2⟩
        · exact fun k hk => hleast.2 ⟨Nat.le_of_succ_le hk.1, hk.2⟩
      exact ih hnext (by omega)
    · rw [if_neg hshort]
      have hle : least ≤ n := hleast.2 ⟨Nat.le_refl n, Nat.le_of_not_lt hshort⟩
      rw [Nat.le_antisymm hle hleast.1.1]

/-- So many elements are reached by some number of blocks, not above it. -/
theorem exists_least (hsize : 0 < size) (n len : Nat) :
    ∃ least, IsLeast {k | n ≤ k ∧ len ≤ size * k} least ∧ least ≤ max n len := by
  have hmax : n ≤ max n len ∧ len ≤ size * max n len := by
    constructor
    · exact Nat.le_max_left _ _
    · exact Nat.le_trans (Nat.le_max_right n len) (Nat.le_mul_of_pos_left _ hsize)
  have hexists : ∃ k, n ≤ k ∧ len ≤ size * k := ⟨_, hmax⟩
  refine ⟨Nat.find hexists, ?_, Nat.find_min' hexists hmax⟩
  constructor
  · exact Nat.find_spec hexists
  · exact fun k hk => Nat.find_min' hexists hk

end Thrussh.Lib
