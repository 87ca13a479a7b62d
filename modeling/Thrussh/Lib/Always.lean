import Mathlib.Algebra.BigOperators.Group.List.Basic
import Mathlib.Algebra.GroupWithZero.Nat

/-!
# Conditions along a run

A step function says where a label leads from a state, or that it is not
possible there. A run folds it over labels. `Always` is a condition on the
labels of a run, each in the state it finds; what such a run keeps is checked
on one step. The invariant may count: every label has a weight, and the
invariant speaks of the weights so far.
-/

namespace Thrussh.Lib

variable {σ δ : Type} {step : σ → δ → Option σ} {P Q : σ → δ → Prop} {s t : σ} {d : δ}
  {labels : List δ}

/-- A condition on every step of a run, in the state that the step finds. -/
def Always (step : σ → δ → Option σ) (P : σ → δ → Prop) (s : σ) : List δ → Prop
  | [] => True
  | d :: labels => P s d ∧ ∀ t, step s d = some t → Always step P t labels

/-- A weaker condition. -/
theorem Always.imp (himp : ∀ s d, P s d → Q s d) (h : Always step P s labels) :
    Always step Q s labels := by
  induction labels generalizing s with
  | nil => trivial
  | cons d labels ih =>
    obtain ⟨hfirst, hrest⟩ := h
    exact ⟨himp s d hfirst, fun t ht => ih (hrest t ht)⟩

/-- Two conditions. -/
theorem Always.and (hP : Always step P s labels) (hQ : Always step Q s labels) :
    Always step (fun s d => P s d ∧ Q s d) s labels := by
  induction labels generalizing s with
  | nil => trivial
  | cons d labels ih =>
    obtain ⟨hfirst, hrest⟩ := hP
    obtain ⟨hfirst', hrest'⟩ := hQ
    exact ⟨⟨hfirst, hfirst'⟩, fun t ht => ih (hrest t ht) (hrest' t ht)⟩

/-- A first step, and the state that it leads to where it is possible. -/
theorem Always.cons (hP : P s d)
    (h : Always step P ((step s d).getD s) labels) : Always step P s (d :: labels) := by
  refine ⟨hP, fun t ht => ?_⟩
  rw [ht, Option.getD_some] at h
  exact h

/-- The end of a run that is possible. -/
theorem foldlM_getD (h : (labels.foldlM step s).isSome = true) :
    labels.foldlM step s = some ((labels.foldlM step s).getD s) := by
  obtain ⟨t, ht⟩ := Option.isSome_iff_exists.mp h
  rw [ht, Option.getD_some]

/-- What every step keeps, a run keeps, with the weights of its labels. -/
theorem Always.kept {I : Nat → σ → Prop} {w : δ → Nat} {n : Nat}
    (hstep : ∀ n s d t, I n s → P s d → step s d = some t → I (n + w d) t)
    (h : Always step P s labels) (hI : I n s) (hrun : labels.foldlM step s = some t) :
    I (n + (labels.map w).sum) t := by
  induction labels generalizing s n with
  | nil =>
    cases hrun
    exact hI
  | cons d labels ih =>
    obtain ⟨hfirst, hrest⟩ := h
    rw [List.foldlM_cons] at hrun
    obtain ⟨u, hu, hrun⟩ := Option.bind_eq_some_iff.mp hrun
    have hlast := ih (hrest u hu) (hstep n s d u hI hfirst hu) hrun
    rw [List.map_cons, List.sum_cons, ← Nat.add_assoc]
    exact hlast

end Thrussh.Lib
