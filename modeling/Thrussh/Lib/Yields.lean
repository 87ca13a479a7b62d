import Thrussh.Lib.Fails

/-!
# Programs that yield a turn to an oracle

A program that is given an oracle may end with the oracle's turn: from some
state on it does what the oracle does with a question, whatever the oracle.
`EndsAsking` says which question that is and in which state it is put; oracles
that `ok` tells apart may be asked different ones. A program that `Yields`
fails only in the oracle's turn, or as it is allowed to. There is a rule for
each former of a program that comes before the turn.
-/

namespace Thrussh.Lib

variable {ε σ α β H Q : Type} {p : ε → Prop} {ok : H → Prop} {turn : H → Q → EStateM ε σ α}
  {x y : H → EStateM ε σ α} {s : σ}

/-- From a state the program ends with the turn of the oracle: with this
question, in this state, whatever the oracle. -/
def EndsAsking (ok : H → Prop) (turn : H → Q → EStateM ε σ α) (x : H → EStateM ε σ α) (s : σ) (q : Q)
    (u : σ) : Prop :=
  ∀ h, ok h → x h s = turn h q u

/-- The program ends with a turn of the oracle, or fails only with one of these errors. -/
inductive Yields (p : ε → Prop) (ok : H → Prop) (turn : H → Q → EStateM ε σ α)
    (x : H → EStateM ε σ α) (s : σ) : Prop where
  /-- The oracle has the turn. -/
  | asks {q : Q} {u : σ} (h : EndsAsking ok turn x s q u)
  /-- No oracle is asked. -/
  | ends (h : ∀ h, ok h → Fails p (x h) s)

/-- Programs that run alike yield alike. -/
theorem Yields.congr {t : σ} (hxy : ∀ h, ok h → x h s = y h t) (hy : Yields p ok turn y t) :
    Yields p ok turn x s := by
  cases hy with
  | asks hasks => exact .asks fun h hok => (hxy h hok).trans (hasks h hok)
  | ends hends =>
    refine .ends fun h hok e u hx => ?_
    exact hends h hok e u ((hxy h hok).symm.trans hx)

/-- The turn itself. -/
theorem Yields.of_turn (q : Q) : Yields p ok turn (fun h => turn h q) s := .asks fun _ _ => rfl

/-- A program that never asks. -/
theorem Yields.of_fails {z : EStateM ε σ α} (h : Fails p z s) : Yields p ok turn (fun _ => z) s :=
  .ends fun _ _ => h

/-- A part before the turn that does not depend on the oracle. -/
theorem Yields.bind {z : EStateM ε σ β} {f : β → H → EStateM ε σ α} (hz : Fails p z s)
    (hf : ∀ b t, z s = .ok b t → Yields p ok turn (f b) t) :
    Yields p ok turn (fun h => z >>= fun b => f b h) s := by
  cases hrun : z s with
  | ok b t =>
    refine .congr (fun h _ => ?_) (hf b t hrun)
    rw [run_bind, hrun]
  | error e t =>
    refine .ends fun h _ => hz.bind fun b u hb => ?_
    rw [hrun] at hb
    cases hb

theorem Yields.lift_bind {z : Except ε β} {f : β → H → EStateM ε σ α} (hz : Errors p z)
    (hf : ∀ b, z = .ok b → Yields p ok turn (f b) s) :
    Yields p ok turn (fun h => lift z >>= fun b => f b h) s := by
  cases z with
  | ok b => exact .congr (fun h _ => rfl) (hf b rfl)
  | error e => exact .ends fun h _ => .lift_bind hz fun b hb => by cases hb

theorem Yields.get_bind {f : σ → H → EStateM ε σ α} (hf : Yields p ok turn (f s) s) :
    Yields p ok turn (fun h => MonadState.get >>= fun b => f b h) s :=
  .congr (y := f s) (fun _ _ => rfl) hf

theorem Yields.modify_bind {g : σ → σ} {f : PUnit → H → EStateM ε σ α}
    (hf : Yields p ok turn (f ()) (g s)) :
    Yields p ok turn (fun h => (modify g : EStateM ε σ PUnit) >>= fun b => f b h) s :=
  .congr (y := f ()) (fun _ _ => rfl) hf

/-- Where the program branches, either part may yield. -/
theorem Yields.ite {c : Prop} [Decidable c] (hx : c → Yields p ok turn x s)
    (hy : ¬ c → Yields p ok turn y s) : Yields p ok turn (fun h => if c then x h else y h) s := by
  by_cases hc : c
  · simpa only [if_pos hc] using hx hc
  · simpa only [if_neg hc] using hy hc

/-- A program that yields the turn fails only as it may if that turn does. -/
theorem Yields.fails (hx : Yields p ok turn x s)
    {h : H} (hok : ok h) (hturn : ∀ q u, EndsAsking ok turn x s q u → Fails p (turn h q) u) :
    Fails p (x h) s := by
  cases hx with
  | asks hasks =>
    intro e t hrun
    exact hturn _ _ hasks e t ((hasks h hok).symm.trans hrun)
  | ends hends => exact hends h hok

end Thrussh.Lib
