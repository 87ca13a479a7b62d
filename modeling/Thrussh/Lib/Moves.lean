import Mathlib.Logic.Relation

/-!
# Stateful programs that move along a relation

A program of `EStateM ε σ` keeps its state when it fails. `Moves r x` says
that, from every start, `x` reaches its final state (after success or
failure) by finitely many `r` steps. Programs built from moving parts move,
so an invariant of `r` is checked on the steps of `r` and holds after every
program that moves along it. `Ends x s post fails` is a postcondition for the
runs that return and one for those that fail, with a rule for each former of
a program; `Returns x s post` asks nothing of a run that fails.
-/

namespace Thrussh.Lib

variable {ε σ τ α β : Type}

/-- The state in which a run ends, with or without a result. -/
def final : EStateM.Result ε σ α → σ
  | .ok _ s => s
  | .error _ s => s

@[simp] theorem final_ok (a : α) (s : σ) : final (.ok a s : EStateM.Result ε σ α) = s := rfl

@[simp] theorem final_error (e : ε) (s : σ) : final (.error e s : EStateM.Result ε σ α) = s := rfl

/-- Run a program on a part of the state. -/
def zoom (view : σ → τ) (put : τ → σ → σ) (x : EStateM ε τ α) : EStateM ε σ α := fun s =>
  match x (view s) with
  | .ok a t => .ok a (put t s)
  | .error e t => .error e (put t s)

/-- A value or an error, with the state unchanged. -/
def lift (x : Except ε α) : EStateM ε σ α := fun s =>
  match x with
  | .ok a => .ok a s
  | .error e => .error e s

/-- Every run of the program ends in a state that `r` steps reach. -/
def Moves (r : σ → σ → Prop) (x : EStateM ε σ α) : Prop :=
  ∀ s, Relation.ReflTransGen r s (final (x s))

variable {r : σ → σ → Prop}

/-- A value that returns has its parts return. -/
theorem ok_of_bind {x : Except ε α} {f : α → Except ε β} {b : β} (h : (x >>= f) = .ok b) :
    ∃ a, x = .ok a ∧ f a = .ok b := by
  cases x with
  | ok a => exact ⟨a, rfl, h⟩
  | error e => cases h

/-- A computation whose result is kept has returned it. -/
theorem ok_of_toOption {x : Except ε α} {a : α} (h : x.toOption = some a) : x = .ok a := by
  cases x with
  | ok b => exact congrArg Except.ok (Option.some.inj h)
  | error e => cases h

/-- A bind runs its first part, then its second if there was no failure. -/
theorem run_bind (x : EStateM ε σ α) (f : α → EStateM ε σ β) (s : σ) :
    (x >>= f) s = match x s with
      | .ok a t => f a t
      | .error e t => .error e t := rfl

theorem run_pure (a : α) (s : σ) : (pure a : EStateM ε σ α) s = .ok a s := rfl

theorem run_throw (e : ε) (s : σ) : (throw e : EStateM ε σ α) s = .error e s := rfl

theorem run_get (s : σ) : (get : EStateM ε σ σ) s = .ok s s := rfl

theorem run_set (t s : σ) : (set t : EStateM ε σ PUnit) s = .ok () t := rfl

theorem run_modify (f : σ → σ) (s : σ) : (modify f : EStateM ε σ PUnit) s = .ok () (f s) := rfl

theorem run_lift_ok (a : α) (s : σ) : lift (Except.ok a : Except ε α) s = .ok a s := rfl

theorem run_lift {x : Except ε α} {a : α} (h : x = .ok a) (s : σ) : lift x s = .ok a s := by
  rw [h, run_lift_ok]

theorem run_lift_error (e : ε) (s : σ) :
    lift (Except.error e : Except ε α) s = .error e s := rfl

/-- A bind runs its first part, then its second from where the first ended. -/
theorem final_bind (x : EStateM ε σ α) (f : α → EStateM ε σ β) (s : σ) :
    final ((x >>= f) s) = match x s with
      | .ok a t => final (f a t)
      | .error _ t => t := by
  change final (EStateM.bind x f s) = _
  unfold EStateM.bind
  cases x s <;> rfl

theorem Moves.pure (a : α) : Moves r (Pure.pure a : EStateM ε σ α) := fun _ => .refl

theorem Moves.throw (e : ε) : Moves r (MonadExcept.throw e : EStateM ε σ α) := fun _ => .refl

theorem Moves.get : Moves r (MonadState.get : EStateM ε σ σ) := fun _ => .refl

theorem Moves.lift (x : Except ε α) : Moves r (lift x : EStateM ε σ α) := by
  intro s
  cases x <;> exact .refl

/-- Sequencing keeps to the relation. -/
theorem Moves.bind {x : EStateM ε σ α} {f : α → EStateM ε σ β}
    (hx : Moves r x) (hf : ∀ a, Moves r (f a)) : Moves r (x >>= f) := by
  intro s
  have h := hx s
  rw [final_bind]
  cases hs : x s with
  | ok a t =>
    rw [hs] at h
    exact h.trans (hf a t)
  | error e t =>
    rw [hs] at h
    exact h

/-- What a program reaches, it reaches behind a part that returns. -/
theorem reaches_bind {x : EStateM ε σ α} {f : α → EStateM ε σ β} {s t u : σ} {a : α}
    (hx : x s = .ok a t) (h : Relation.ReflTransGen r u (final (f a t))) :
    Relation.ReflTransGen r u (final ((x >>= f) s)) := by
  rw [final_bind, hx]
  exact h

/-- Sequencing, where what follows may use what the first part returned. -/
theorem Moves.bind_ok {x : EStateM ε σ α} {f : α → EStateM ε σ β} (hx : Moves r x)
    (hf : ∀ s a t, x s = .ok a t → Moves r (f a)) : Moves r (x >>= f) := by
  intro s
  have h := hx s
  rw [final_bind]
  cases hs : x s with
  | ok a t =>
    rw [hs] at h
    exact h.trans (hf s a t hs t)
  | error e t =>
    rw [hs] at h
    exact h

/-- What follows a value may use how it was computed. -/
theorem Moves.lift_bind {x : Except ε α} {f : α → EStateM ε σ β}
    (hf : ∀ a, x = .ok a → Moves r (f a)) : Moves r (Lib.lift x >>= f) := by
  refine (Moves.lift x).bind_ok fun s a t h => hf a ?_
  cases x with
  | ok b =>
    cases h
    rfl
  | error e => cases h

/-- A change of the state that is one step, or none. -/
theorem Moves.modify {f : σ → σ} (h : ∀ s, Relation.ReflTransGen r s (f s)) :
    Moves r (modify f : EStateM ε σ PUnit) := h

/-- A program on a part of the state moves the whole when its steps do. -/
theorem Moves.zoom {q : τ → τ → Prop} {view : σ → τ} {put : τ → σ → σ} {x : EStateM ε τ α}
    (hx : Moves q x) (hstep : ∀ s t u, q t u → Relation.ReflTransGen r (put t s) (put u s))
    (hview : ∀ s, put (view s) s = s) : Moves r (zoom view put x) := by
  intro s
  have hlift : ∀ t u, Relation.ReflTransGen q t u →
      Relation.ReflTransGen r (put t s) (put u s) := by
    intro t u h
    induction h with
    | refl => exact .refl
    | tail _ hs ih => exact ih.trans (hstep s _ _ hs)
  have h := hlift _ _ (hx (view s))
  rw [hview] at h
  unfold Lib.zoom
  cases hs : x (view s) with
  | ok a t =>
    rw [hs] at h
    exact h
  | error e t =>
    rw [hs] at h
    exact h

/-- What every step of a relation keeps, every run along it keeps. -/
theorem Moves.invariant {x : EStateM ε σ α} {p : σ → Prop} (hx : Moves r x)
    (hstep : ∀ s t, r s t → p s → p t) {s : σ} (hs : p s) : p (final (x s)) := by
  have h := hx s
  generalize final (x s) = t at h
  induction h with
  | refl => exact hs
  | tail _ h ih => exact hstep _ _ h ih

/-- A program that moves along a relation moves along every weaker one. -/
theorem Moves.mono {q : σ → σ → Prop} {x : EStateM ε σ α} (hx : Moves r x)
    (h : ∀ s t, r s t → Relation.ReflTransGen q s t) : Moves q x := by
  intro s
  have hs := hx s
  generalize final (x s) = t at hs
  induction hs with
  | refl => exact .refl
  | tail _ hs ih => exact ih.trans (h _ _ hs)

/-- A list of programs, one after the other. -/
theorem Moves.forM_mem {γ : Type} {f : γ → EStateM ε σ PUnit} {l : List γ}
    (hf : ∀ c ∈ l, Moves r (f c)) : Moves r (l.forM f) := by
  induction l with
  | nil => exact Moves.pure _
  | cons c l ih =>
    have hrest := ih fun d hd => hf d (List.mem_cons_of_mem _ hd)
    exact (hf c List.mem_cons_self).bind fun _ => hrest

theorem Moves.forM {γ : Type} {f : γ → EStateM ε σ PUnit} (hf : ∀ c, Moves r (f c)) (l : List γ) :
    Moves r (l.forM f) :=
  .forM_mem fun c _ => hf c

/-- A run that returns ends in `post`, and one that fails in `fails`. -/
def Ends (x : EStateM ε σ α) (s : σ) (post : α → σ → Prop) (fails : σ → Prop) : Prop :=
  match x s with
  | .ok a t => post a t
  | .error _ t => fails t

section
variable {s : σ} {fails : σ → Prop}

theorem Ends.pure {a : α} {post : α → σ → Prop} (h : post a s) :
    Ends (Pure.pure a : EStateM ε σ α) s post fails := h

theorem Ends.throw (e : ε) {post : α → σ → Prop} (h : fails s) :
    Ends (MonadExcept.throw e : EStateM ε σ α) s post fails := h

theorem Ends.modify {f : σ → σ} {post : PUnit → σ → Prop} (h : post () (f s)) :
    Ends (modify f : EStateM ε σ PUnit) s post fails := h

/-- What follows a part starts where the part ends. -/
theorem Ends.bind {x : EStateM ε σ α} {f : α → EStateM ε σ β} {m : α → σ → Prop}
    {post : β → σ → Prop} (hx : Ends x s m fails)
    (hf : ∀ a t, m a t → Ends (f a) t post fails) : Ends (x >>= f) s post fails := by
  unfold Ends at hx ⊢
  rw [run_bind]
  cases hs : x s with
  | ok a t =>
    rw [hs] at hx
    exact hf a t hx
  | error e t =>
    rw [hs] at hx
    exact hx

/-- What follows a value may use how it was computed. -/
theorem Ends.lift_bind {x : Except ε α} {f : α → EStateM ε σ β} {post : β → σ → Prop}
    (hfails : fails s) (hf : ∀ a, x = .ok a → Ends (f a) s post fails) :
    Ends (Lib.lift x >>= f) s post fails := by
  cases x with
  | ok a => exact hf a rfl
  | error e => exact hfails

/-- Reading the state. -/
theorem Ends.get_bind {f : σ → EStateM ε σ β} {post : β → σ → Prop}
    (h : Ends (f s) s post fails) : Ends (MonadState.get >>= f) s post fails := h

theorem Ends.mono {x : EStateM ε σ α} {post post' : α → σ → Prop} {fails' : σ → Prop}
    (h : Ends x s post fails) (hpost : ∀ a t, post a t → post' a t)
    (hfails : ∀ t, fails t → fails' t) : Ends x s post' fails' := by
  unfold Ends at h ⊢
  cases hs : x s with
  | ok a t =>
    rw [hs] at h
    exact hpost a t h
  | error e t =>
    rw [hs] at h
    exact hfails t h

/-- What holds everywhere holds in the end. -/
theorem Ends.of_forall {x : EStateM ε σ α} {post : α → σ → Prop} (hpost : ∀ a t, post a t)
    (hfails : ∀ t, fails t) : Ends x s post fails := by
  unfold Ends
  cases x s with
  | ok a t => exact hpost a t
  | error e t => exact hfails t

/-- A run depends on the program only as far as it goes. -/
theorem Ends.congr {x y : EStateM ε σ α} {post : α → σ → Prop} (hrun : x s = y s)
    (h : Ends y s post fails) : Ends x s post fails := by
  unfold Ends at h ⊢
  rw [hrun]
  exact h

/-- Two promises of one run. -/
theorem Ends.and {x : EStateM ε σ α} {post post' : α → σ → Prop} {fails' : σ → Prop}
    (h : Ends x s post fails) (h' : Ends x s post' fails') :
    Ends x s (fun a t => post a t ∧ post' a t) fun t => fails t ∧ fails' t := by
  unfold Ends at h h' ⊢
  cases hs : x s with
  | ok a t =>
    rw [hs] at h h'
    exact ⟨h, h'⟩
  | error e t =>
    rw [hs] at h h'
    exact ⟨h, h'⟩

/-- What every step of a relation keeps holds wherever a run along it ends. -/
theorem Ends.of_moves {x : EStateM ε σ α} {p : σ → Prop} (hx : Moves r x)
    (hstep : ∀ s t, r s t → p s → p t) (hs : p s) : Ends x s (fun _ t => p t) p := by
  have h := hx.invariant hstep hs
  unfold Ends
  cases hrun : x s with
  | ok a t =>
    rw [hrun] at h
    exact h
  | error e t =>
    rw [hrun] at h
    exact h

/-- A promise about where a run ends. -/
theorem Ends.of_final {x : EStateM ε σ α} (h : fails (Lib.final (x s))) :
    Ends x s (fun _ t => fails t) fails := by
  unfold Ends
  cases hs : x s with
  | ok a t => rwa [hs] at h
  | error e t => rwa [hs] at h

/-- Where a run ends, with or without a result. -/
theorem Ends.final {x : EStateM ε σ α} (h : Ends x s (fun _ t => fails t) fails) :
    fails (final (x s)) := by
  unfold Ends at h
  cases hs : x s with
  | ok a t =>
    rw [hs] at h
    exact h
  | error e t =>
    rw [hs] at h
    exact h

end

/-- Every run that returns ends in what is promised. -/
def Returns (x : EStateM ε σ α) (s : σ) (post : α → σ → Prop) : Prop :=
  ∀ a t, x s = .ok a t → post a t

/-- What is asked of the runs that return is asked of no other. -/
theorem returns_iff_ends {x : EStateM ε σ α} {s : σ} {post : α → σ → Prop} :
    Returns x s post ↔ Ends x s post fun _ => True := by
  unfold Returns Ends
  cases hs : x s with
  | ok a t => simp
  | error e t => simp

end Thrussh.Lib
