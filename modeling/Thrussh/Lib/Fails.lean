import Thrussh.Lib.Moves

/-!
# The errors of a program

`Errors p x` says that every error of a value is one of `p`, and
`Fails p x s` that every run of a program that fails does so with an error of
`p`. With `p` the errors that a function is allowed to return, both say that
nothing else can go wrong. There is a rule for each former of a program.
-/

namespace Thrussh.Lib

variable {ε σ τ α β : Type} {p : ε → Prop} {s : σ}

/-- Every error of a value is one of these. -/
def Errors (p : ε → Prop) (x : Except ε α) : Prop := ∀ e, x = .error e → p e

/-- Every run that fails, fails with one of these errors. -/
def Fails (p : ε → Prop) (x : EStateM ε σ α) (s : σ) : Prop := ∀ e t, x s = .error e t → p e

/-! ### Values -/

theorem Errors.ok (a : α) : Errors p (.ok a : Except ε α) := fun _ h => by cases h

theorem Errors.error {e : ε} (h : p e) : Errors p (.error e : Except ε α) := by
  rintro e' ⟨⟩
  exact h

/-- What follows a value may use how it was computed. -/
theorem Errors.bind {x : Except ε α} {f : α → Except ε β} (hx : Errors p x)
    (hf : ∀ a, x = .ok a → Errors p (f a)) : Errors p (x >>= f) := by
  cases x with
  | ok a => exact hf a rfl
  | error e => exact .error (hx e rfl)

theorem Errors.map {x : Except ε α} (f : α → β) (hx : Errors p x) : Errors p (x.map f) := by
  cases x with
  | ok a => exact .ok (f a)
  | error e => exact .error (hx e rfl)

/-! ### Programs -/

theorem Fails.pure (a : α) : Fails p (Pure.pure a : EStateM ε σ α) s := fun _ _ h => by cases h

theorem Fails.throw {e : ε} (h : p e) : Fails p (MonadExcept.throw e : EStateM ε σ α) s := by
  rintro e' t ⟨⟩
  exact h

theorem Fails.modify_bind {g : σ → σ} {f : PUnit → EStateM ε σ β} (h : Fails p (f ()) (g s)) :
    Fails p ((modify g : EStateM ε σ PUnit) >>= f) s := h

theorem Fails.modify (f : σ → σ) : Fails p (modify f : EStateM ε σ PUnit) s :=
  fun _ _ h => by cases h

theorem Fails.lift {x : Except ε α} (h : Errors p x) : Fails p (lift x) s := by
  cases x with
  | ok a => exact .pure a
  | error e => exact .throw (h e rfl)

/-- What follows a part starts where the part has returned. -/
theorem Fails.bind {x : EStateM ε σ α} {f : α → EStateM ε σ β} (hx : Fails p x s)
    (hf : ∀ a t, x s = .ok a t → Fails p (f a) t) : Fails p (x >>= f) s := by
  intro e t h
  rw [run_bind] at h
  cases hs : x s with
  | ok a u =>
    rw [hs] at h
    exact hf a u hs e t h
  | error e' u =>
    rw [hs] at h
    cases h
    exact hx e t hs

theorem Fails.lift_bind {x : Except ε α} {f : α → EStateM ε σ β} (hx : Errors p x)
    (hf : ∀ a, x = .ok a → Fails p (f a) s) : Fails p (Lib.lift x >>= f) s := by
  cases x with
  | ok a => exact hf a rfl
  | error e => exact .throw (hx e rfl)

theorem Fails.get_bind {f : σ → EStateM ε σ β} (h : Fails p (f s) s) :
    Fails p (MonadState.get >>= f) s := h

/-- A run depends on the program only as far as it goes. -/
theorem Fails.congr {x y : EStateM ε σ α} (hrun : x s = y s) (h : Fails p y s) : Fails p x s := by
  intro e t hx
  exact h e t (hrun.symm.trans hx)

theorem Fails.zoom {view : σ → τ} {put : τ → σ → σ} {x : EStateM ε τ α}
    (h : Fails p x (view s)) : Fails p (zoom view put x) s := by
  intro e t hx
  unfold Lib.zoom at hx
  cases hview : x (view s) with
  | ok a u =>
    rw [hview] at hx
    cases hx
  | error e' u =>
    rw [hview] at hx
    cases hx
    exact h e u hview

/-- A loop over steps each of which fails only so, wherever it starts. -/
theorem Fails.forM {γ : Type} {f : γ → EStateM ε σ PUnit} {l : List γ}
    (hf : ∀ c ∈ l, ∀ s, Fails p (f c) s) : Fails p (l.forM f) s := by
  induction l generalizing s with
  | nil => exact .pure _
  | cons c l ih =>
    have hhead : Fails p (f c) s := hf c List.mem_cons_self s
    exact hhead.bind fun _ _ _ => ih fun d hd => hf d (List.mem_cons_of_mem c hd)

end Thrussh.Lib
