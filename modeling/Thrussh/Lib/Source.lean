import Mathlib.Logic.Function.Iterate

/-!
# Finite sources, and loops that read them

A source is what a reader still yields: pieces, each what is ready at one
moment. A read takes a part of the first piece and never joins two, so every
way in which reads can split the data is a choice of pieces. A loop that
reads is a step function, and a measure that its steps make smaller brings
it to a halt.
-/

namespace Thrussh.Lib

/-- A finite source. -/
structure Source (α : Type) where
  /-- What is ready at one moment after another. -/
  pieces : List (List α)
  /-- At every moment something is ready. -/
  ready : ∀ piece ∈ pieces, piece ≠ []

variable {α σ : Type}

/-- All that a source yields. -/
def Source.content (s : Source α) : List α := s.pieces.flatten

/-- A read into a buffer of `n`: what it yields, and the source afterwards. -/
def Source.read (s : Source α) (n : Nat) : List α × Source α :=
  match h : s.pieces with
  | [] => ([], s)
  | piece :: rest =>
    if hrest : piece.drop n = [] then
      (piece.take n, ⟨rest, fun p hp => s.ready p (h ▸ List.mem_cons_of_mem piece hp)⟩)
    else
      (piece.take n, ⟨piece.drop n :: rest, fun p hp => by
        rcases List.mem_cons.mp hp with heq | hmem
        · rw [heq]
          exact hrest
        · exact s.ready p (h ▸ List.mem_cons_of_mem piece hmem)⟩)

/-- Nothing is lost between two reads. -/
theorem Source.read_content (s : Source α) (n : Nat) :
    (s.read n).1 ++ (s.read n).2.content = s.content := by
  unfold read
  split
  · rfl
  · rename_i piece rest hpieces
    have hcut : piece.take n ++ piece.drop n = piece := List.take_append_drop n piece
    have hcontent : s.content = piece ++ rest.flatten := by
      simp only [content, hpieces, List.flatten_cons]
    rw [hcontent]
    split
    · rename_i hrest
      rw [hrest, List.append_nil] at hcut
      simp only [content, hcut]
    · simp only [content, List.flatten_cons]
      rw [← List.append_assoc, hcut]

/-- A read fits the buffer. -/
theorem Source.read_le (s : Source α) (n : Nat) : (s.read n).1.length ≤ n := by
  unfold read
  split
  · exact Nat.zero_le n
  · split
    · rw [List.length_take]
      omega
    · rw [List.length_take]
      omega

/-- A read yields nothing when the buffer is empty or the source is at its end. -/
theorem Source.read_eq_nil (s : Source α) (n : Nat) :
    (s.read n).1 = [] ↔ n = 0 ∨ s.content = [] := by
  unfold read
  split
  · rename_i hpieces
    have hcontent : s.content = [] := by simp only [content, hpieces, List.flatten_nil]
    simp only [hcontent, or_true]
  · rename_i piece rest hpieces
    have hpiece : piece ≠ [] := s.ready piece (hpieces ▸ List.mem_cons_self)
    have hcontent : s.content ≠ [] := by
      simp only [content, hpieces, List.flatten_cons, ne_eq, List.append_eq_nil_iff, hpiece,
        false_and, not_false_eq_true]
    split
    · simp only [List.take_eq_nil_iff, hpiece, or_false, hcontent]
    · simp only [List.take_eq_nil_iff, hpiece, or_false, hcontent]

/-- What a read takes is missing from the source. -/
theorem Source.read_length (s : Source α) (n : Nat) :
    (s.read n).1.length + (s.read n).2.content.length = s.content.length := by
  have hcontent := congrArg List.length (s.read_content n)
  rw [List.length_append] at hcontent
  exact hcontent

/-- Steps that make a measure smaller until they are done get done. -/
theorem iterate_settles {step : σ → σ} {P done : σ → Prop} {m : σ → Nat}
    (hstep : ∀ s, P s → P (step s))
    (hless : ∀ s, P s → ¬ done s → m (step s) < m s) {s : σ} (h : P s) :
    ∃ n, done (step^[n] s) := by
  induction hk : m s using Nat.strongRecOn generalizing s with
  | ind k ih =>
    by_cases hdone : done s
    · exact ⟨0, hdone⟩
    · have hnext : m (step s) < k := by
        have hlt := hless s h hdone
        omega
      obtain ⟨n, hn⟩ := ih (m (step s)) hnext (hstep s h) rfl
      refine ⟨n + 1, ?_⟩
      rw [Function.iterate_succ_apply]
      exact hn

end Thrussh.Lib
