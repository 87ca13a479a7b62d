import Mathlib.Data.List.Basic

/-!
# Two processes on a pair of streams

A process takes the symbols that are delivered to it, acts, and appends to
what it has written. A duplex is two processes, each of which is delivered
what the other has written, in order and in parts of any size. `outputs` is
what a machine puts out along a list: two runs of one machine on lists of
which one is a prefix of the other put out the same, as far as they go. `inputs` is
what a run of both is for one of them. `getElem?_blocks` finds the symbols of
a stream of blocks.
-/

namespace Thrussh.Lib

section
variable {α β σ : Type} (step : σ → α → σ) (out : σ → α → β)

/-- What a machine puts out along a list of inputs. -/
def outputs : σ → List α → List β
  | _, [] => []
  | s, a :: l => out s a :: outputs (step s a) l

theorem outputs_append (s : σ) (l l' : List α) :
    outputs step out s (l ++ l') =
      outputs step out s l ++ outputs step out (l.foldl step s) l' := by
  induction l generalizing s with
  | nil => rfl
  | cons a l ih => rw [List.cons_append, outputs, outputs, ih, List.cons_append, List.foldl_cons]

@[simp] theorem length_outputs (s : σ) (l : List α) : (outputs step out s l).length = l.length := by
  induction l generalizing s with
  | nil => rfl
  | cons a l ih => rw [outputs, List.length_cons, List.length_cons, ih]

/-- On a prefix the machine puts out a prefix. -/
theorem outputs_mono (s : σ) {l l' : List α} (h : l <+: l') :
    outputs step out s l <+: outputs step out s l' := by
  obtain ⟨rest, rfl⟩ := h
  rw [outputs_append]
  exact List.prefix_append _ _

end

/-- Where an element of a list of blocks of one length is. -/
theorem getElem?_blocks {α β : Type} {f : α → List β} {k : Nat} (hf : ∀ a, (f a).length = k)
    (l : List α) (n : Nat) {i : Nat} (hi : i < k) :
    (l.flatMap f)[k * n + i]? = l[n]?.bind fun a => (f a)[i]? := by
  induction l generalizing n with
  | nil => rfl
  | cons a l ih =>
    have hlength := hf a
    cases n with
    | zero =>
      have hlt : k * 0 + i < (f a).length := by omega
      rw [List.flatMap_cons, List.getElem?_append_left hlt, Nat.mul_zero, Nat.zero_add]
      rfl
    | succ n =>
      have hmul : k * (n + 1) = k * n + k := Nat.mul_succ k n
      have hle : (f a).length ≤ k * (n + 1) + i := by omega
      have hindex : k * (n + 1) + i - (f a).length = k * n + i := by omega
      rw [List.flatMap_cons, List.getElem?_append_right hle, hindex, ih]
      rfl

/-- A process that reads and writes streams of symbols, and acts on its own. -/
structure Process (β σ μ : Type) where
  /-- Symbols are delivered to it. -/
  deliver : List β → σ → σ
  /-- It acts. -/
  act : μ → σ → σ
  /-- Everything it has written. -/
  written : σ → List β

/-- Two processes, and how much of what each has written has been delivered to the other. -/
structure Duplex (σ τ : Type) where
  /-- The one process. -/
  left : σ
  /-- The other one. -/
  right : τ
  /-- How many symbols have been delivered to the left. -/
  toLeft : Nat
  /-- How many symbols have been delivered to the right. -/
  toRight : Nat

namespace Duplex

variable {β σ τ μ ν : Type}

/-- What happens next: one process acts, or is delivered at most `n` symbols. -/
inductive Move (μ ν : Type) where
  /-- The left process acts. -/
  | left (m : μ)
  /-- The right process acts. -/
  | right (m : ν)
  /-- The left process is delivered what the right one has written. -/
  | toLeft (n : Nat)
  /-- The right process is delivered what the left one has written. -/
  | toRight (n : Nat)

/-- The next symbols of a stream, `n` of them at most. -/
def next (written : List β) (delivered n : Nat) : List β := (written.drop delivered).take n

/-- One move. -/
def step (P : Process β σ μ) (Q : Process β τ ν) (d : Duplex σ τ) : Move μ ν → Duplex σ τ
  | .left m => { d with left := P.act m d.left }
  | .right m => { d with right := Q.act m d.right }
  | .toLeft n =>
    let symbols := next (Q.written d.right) d.toLeft n
    { d with left := P.deliver symbols d.left, toLeft := d.toLeft + symbols.length }
  | .toRight n =>
    let symbols := next (P.written d.left) d.toRight n
    { d with right := Q.deliver symbols d.right, toRight := d.toRight + symbols.length }

/-- A run of moves. -/
def run (P : Process β σ μ) (Q : Process β τ ν) (d : Duplex σ τ) (moves : List (Move μ ν)) :
    Duplex σ τ :=
  moves.foldl (step P Q) d

/-- A condition on every state that a run reaches by a move, and on the move that leads there. -/
def Along (P : Process β σ μ) (Q : Process β τ ν) (C : Move μ ν → Duplex σ τ → Prop) :
    Duplex σ τ → List (Move μ ν) → Prop
  | _, [] => True
  | d, m :: moves => C m (step P Q d m) ∧ Along P Q C (step P Q d m) moves

instance instDecidableAlong (P : Process β σ μ) (Q : Process β τ ν) (C : Move μ ν → Duplex σ τ → Prop)
    [hC : ∀ m d, Decidable (C m d)] :
    ∀ d moves, Decidable (Along P Q C d moves)
  | _, [] => .isTrue trivial
  | d, m :: moves =>
    have := instDecidableAlong P Q C (step P Q d m) moves
    inferInstanceAs (Decidable (C m (step P Q d m) ∧ Along P Q C (step P Q d m) moves))

/-- The same two processes, the other way round. -/
def swap (d : Duplex σ τ) : Duplex τ σ := ⟨d.right, d.left, d.toRight, d.toLeft⟩

/-- The same move, seen from there. -/
def Move.swap : Move μ ν → Move ν μ
  | .left m => .right m
  | .right m => .left m
  | .toLeft n => .toRight n
  | .toRight n => .toLeft n

theorem step_swap (P : Process β σ μ) (Q : Process β τ ν) (d : Duplex σ τ) (m : Move μ ν) :
    (step P Q d m).swap = step Q P d.swap m.swap := by
  cases m <;> rfl

theorem run_swap (P : Process β σ μ) (Q : Process β τ ν) (d : Duplex σ τ) (moves : List (Move μ ν)) :
    (run P Q d moves).swap = run Q P d.swap (moves.map Move.swap) := by
  induction moves generalizing d with
  | nil => rfl
  | cons m moves ih =>
    have hrest := ih (step P Q d m)
    rw [step_swap] at hrest
    exact hrest

/-- A condition along a run, seen from there. -/
theorem Along.swap {P : Process β σ μ} {Q : Process β τ ν} {C : Move μ ν → Duplex σ τ → Prop}
    {C' : Move ν μ → Duplex τ σ → Prop} (hC : ∀ m d, C m d → C' m.swap d.swap) {d : Duplex σ τ}
    {moves : List (Move μ ν)} (h : Along P Q C d moves) :
    Along Q P C' d.swap (moves.map Move.swap) := by
  induction moves generalizing d with
  | nil => exact trivial
  | cons m moves ih =>
    have hnext := hC m _ h.1
    have hrest := ih h.2
    rw [step_swap] at hnext hrest
    exact ⟨hnext, hrest⟩

/-- What is delivered next continues what has been delivered. -/
theorem take_next (written : List β) {delivered : Nat} (h : delivered ≤ written.length) (n : Nat) :
    written.take delivered ++ next written delivered n =
        written.take (delivered + (next written delivered n).length) ∧
      delivered + (next written delivered n).length ≤ written.length := by
  have hlength : (next written delivered n).length = min n (written.length - delivered) := by
    rw [next, List.length_take, List.length_drop]
  have hnext : next written delivered n =
      (written.drop delivered).take (min n (written.length - delivered)) := by
    rw [next, ← List.length_drop]
    exact List.take_eq_take_min
  constructor
  · rw [hlength, List.take_add, ← hnext]
  · rw [hlength]
    omega

section
variable (P : Process β σ μ) (Q : Process β τ ν)

/-- What a move is for the left process: it acts, or symbols are delivered to it. -/
def input (d : Duplex σ τ) : Move μ ν → List (μ ⊕ List β)
  | .left m => [.inl m]
  | .toLeft n => [.inr (next (Q.written d.right) d.toLeft n)]
  | .right _ => []
  | .toRight _ => []

/-- What a run is for the left process. -/
def inputs (d : Duplex σ τ) : List (Move μ ν) → List (μ ⊕ List β)
  | [] => []
  | m :: moves => input Q d m ++ inputs (step P Q d m) moves

variable {P Q}

/-- The left process is where its inputs lead. -/
theorem left_run (d : Duplex σ τ) (moves : List (Move μ ν)) :
    (run P Q d moves).left =
      (inputs P Q d moves).foldl (fun s i => i.elim (P.act · s) (P.deliver · s)) d.left := by
  induction moves generalizing d with
  | nil => rfl
  | cons m moves ih =>
    have hmove : (step P Q d m).left =
        (input Q d m).foldl (fun s i => i.elim (P.act · s) (P.deliver · s)) d.left := by
      cases m <;> rfl
    rw [inputs, List.foldl_append, ← hmove]
    exact ih _

/-- The left process acts only as the moves say. -/
theorem mem_inputs {d : Duplex σ τ} {moves : List (Move μ ν)} {m : μ}
    (h : .inl m ∈ inputs P Q d moves) : .left m ∈ moves := by
  induction moves generalizing d with
  | nil => cases h
  | cons m' moves ih =>
    rcases List.mem_append.mp h with hinput | hlater
    · cases m' with
      | left m' =>
        cases List.mem_singleton.mp hinput
        exact List.mem_cons_self
      | toLeft n => cases List.mem_singleton.mp hinput
      | right m' => cases hinput
      | toRight n => cases hinput
    · exact List.mem_cons_of_mem _ (ih hlater)

end

/-- What every move keeps whose end meets the condition, a run along it keeps. -/
theorem Along.kept {P : Process β σ μ} {Q : Process β τ ν} {C : Move μ ν → Duplex σ τ → Prop}
    {I : Duplex σ τ → Prop} (hstep : ∀ d m, I d → C m (step P Q d m) → I (step P Q d m))
    {d : Duplex σ τ} (hd : I d) {moves : List (Move μ ν)} (h : Along P Q C d moves) :
    I (run P Q d moves) := by
  induction moves generalizing d with
  | nil => exact hd
  | cons m moves ih => exact ih (hstep d m hd h.1) h.2

end Duplex

end Thrussh.Lib
