import Mathlib.Algebra.GroupWithZero.Nat
import Mathlib.Data.List.Basic

/-!
# A credit that is mirrored

One party grants a credit, a second keeps its balance, and a third spends it
against a window of its own. What is spent reaches the keeper later. When
more is granted, the keeper tells the spender the new balance, and the
spender, who hears it later, takes it for its window. The window stays true
when nothing is on its way to the keeper at a grant, and nothing is spent
while a balance is unheard.
-/

namespace Thrussh.Lib

/-- The state of a credit. -/
structure Credit where
  /-- What has been granted. -/
  granted : Nat
  /-- What the keeper has left. -/
  balance : Nat
  /-- What the spender believes is left. -/
  window : Nat
  /-- What has been spent and has not reached the keeper. -/
  inFlight : Nat
  /-- What has been spent. -/
  spent : Nat
  /-- The balances that the spender has been told and has not heard. -/
  unheard : List Nat

namespace Credit

/-- The spender spends. -/
def spend (c : Credit) (n : Nat) : Credit :=
  { c with window := c.window - n, inFlight := c.inFlight + n, spent := c.spent + n }

/-- Something spent reaches the keeper. -/
def settle (c : Credit) (n : Nat) : Credit :=
  { c with balance := c.balance - n, inFlight := c.inFlight - n }

/-- More is granted, and the spender is told. -/
def grant (c : Credit) (n : Nat) : Credit :=
  { c with
    granted := c.granted + n, balance := c.balance + n, unheard := c.unheard ++ [c.balance + n] }

/-- The spender hears a balance. -/
def hear (c : Credit) : Credit :=
  match c.unheard with
  | [] => c
  | total :: rest => { c with window := total, unheard := rest }

/-- The window is true. -/
structure Sound (c : Credit) : Prop where
  /-- With nothing unheard the window and what is on its way are the balance. -/
  settled : c.unheard = [] → c.window + c.inFlight = c.balance
  /-- Otherwise the last that is unheard is the balance, and nothing is on its way. -/
  told : ∀ total, c.unheard.getLast? = some total → c.inFlight = 0 ∧ total = c.balance
  /-- What is granted is in the balance or has reached the keeper. -/
  account : c.balance + c.spent = c.granted + c.inFlight

variable {c : Credit} {n : Nat}

/-- What is on its way is in the balance. -/
theorem Sound.inFlight_le (h : c.Sound) : c.inFlight ≤ c.balance := by
  cases hlast : c.unheard.getLast? with
  | none =>
    have hsettled := h.settled (List.getLast?_eq_none_iff.mp hlast)
    omega
  | some total =>
    have htold := (h.told total hlast).1
    omega

/-- No more is spent than is granted. -/
theorem Sound.spent_le (h : c.Sound) : c.spent ≤ c.granted := by
  have hle := h.inFlight_le
  have haccount := h.account
  omega

/-- Spending within the window, with nothing unheard. -/
theorem Sound.spend (h : c.Sound) (hle : n ≤ c.window) (hheard : n ≠ 0 → c.unheard = []) :
    (c.spend n).Sound := by
  constructor
  · intro hnone
    have hsettled := h.settled hnone
    change c.window - n + (c.inFlight + n) = c.balance
    omega
  · intro total hlast
    obtain ⟨hidle, htotal⟩ := h.told total hlast
    have hzero : n = 0 := by
      by_contra hne
      have hlast' : c.unheard.getLast? = some total := hlast
      rw [hheard hne] at hlast'
      cases hlast'
    refine ⟨?_, htotal⟩
    change c.inFlight + n = 0
    omega
  · have haccount := h.account
    change c.balance + (c.spent + n) = c.granted + (c.inFlight + n)
    omega

/-- What reaches the keeper is taken off. -/
theorem Sound.settle (h : c.Sound) (hle : n ≤ c.inFlight) : (c.settle n).Sound := by
  have hbalance := h.inFlight_le
  constructor
  · intro hnone
    have hsettled := h.settled hnone
    change c.window + (c.inFlight - n) = c.balance - n
    omega
  · intro total hlast
    obtain ⟨hidle, htotal⟩ := h.told total hlast
    change c.inFlight - n = 0 ∧ total = c.balance - n
    omega
  · have haccount := h.account
    change c.balance - n + c.spent = c.granted + (c.inFlight - n)
    omega

/-- A grant with nothing on its way. -/
theorem Sound.grant (h : c.Sound) (hidle : c.inFlight = 0) : (c.grant n).Sound := by
  constructor
  · intro hnone
    exact absurd (List.append_eq_nil_iff.mp hnone).2 (List.cons_ne_nil _ _)
  · intro total hlast
    have hlast' : (c.unheard ++ [c.balance + n]).getLast? = some total := hlast
    rw [List.getLast?_concat] at hlast'
    exact ⟨hidle, (Option.some.inj hlast').symm⟩
  · have haccount := h.account
    change c.balance + n + c.spent = c.granted + n + c.inFlight
    omega

/-- A balance is heard. -/
theorem Sound.hear (h : c.Sound) : c.hear.Sound := by
  unfold Credit.hear
  split
  · exact h
  · rename_i total rest hunheard
    constructor
    · intro hnone
      have hlast : c.unheard.getLast? = some total := by
        rw [hunheard, show rest = [] from hnone]
        rfl
      obtain ⟨hidle, htotal⟩ := h.told total hlast
      change total + c.inFlight = c.balance
      omega
    · intro total' hlast
      have hlast' : rest.getLast? = some total' := hlast
      refine h.told total' ?_
      rw [hunheard, List.getLast?_cons, hlast']
      rfl
    · exact h.account

end Credit

end Thrussh.Lib
