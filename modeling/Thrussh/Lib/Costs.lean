import Thrussh.Lib.Moves

/-!
# What a program adds to a measure

`Costs m n x` says that every run of a program, whether it returns or fails,
adds at most `n` to a measure of the state. Costs add up along a program.
-/

namespace Thrussh.Lib

variable {ε σ α β : Type} {m : σ → Nat} {n n' : Nat}

/-- Every run of the program adds at most so much to a measure of the state. -/
def Costs (m : σ → Nat) (n : Nat) (x : EStateM ε σ α) : Prop := ∀ s, m (final (x s)) ≤ m s + n

theorem Costs.mono {x : EStateM ε σ α} (h : Costs m n x) (hn : n ≤ n') : Costs m n' x := by
  intro s
  have hs := h s
  omega

/-- What follows a program that fails is not run. -/
theorem Costs.bind {x : EStateM ε σ α} {f : α → EStateM ε σ β} (hx : Costs m n x)
    (hf : ∀ a, Costs m n' (f a)) : Costs m (n + n') (x >>= f) := by
  intro s
  have hs := hx s
  rw [final_bind]
  cases hrun : x s with
  | ok a t =>
    rw [hrun, final_ok] at hs
    have ht := hf a t
    dsimp only
    omega
  | error e t =>
    rw [hrun, final_error] at hs
    dsimp only
    omega

/-- A program whose steps leave the measure costs nothing. -/
theorem Costs.of_moves {r : σ → σ → Prop} {x : EStateM ε σ α} (hx : Moves r x)
    (hr : ∀ s t, r s t → m t = m s) : Costs m 0 x := by
  intro s
  have hsame : m (final (x s)) = m s :=
    hx.invariant (p := fun t => m t = m s) (fun u v huv hu => (hr u v huv).trans hu) rfl
  omega

end Thrussh.Lib
