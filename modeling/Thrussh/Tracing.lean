import Thrussh.Keeps
import Thrussh.Roles

/-!
# Runs as steps on the channels

Whatever a run does to an encrypted session is one of the steps that the
deeds account for. An encrypted session starts without channels, and with
nothing noted and nothing queued; what is queued later is of the kind that the
programs of the role queue.
-/

namespace Thrussh

open Lib

variable [Deps] {C : Type} {s t u : CommonSession C} {P : Bytes → Prop}

/-- An encrypted session with which nothing has been done yet. -/
structure Encrypted.New (enc : Encrypted) : Prop where
  /-- There is no channel. -/
  channels : ∀ id, enc.channels id = none
  /-- Nothing has been queued. -/
  emitted : enc.emitted = []
  /-- Nothing has been noted. -/
  deeds : enc.deeds = []

/-- Steps make one session of another. -/
def CommonSession.Goes (s t : CommonSession C) : Prop := Option.Rel Deeds s.encrypted t.encrypted

/-- Sessions that stand at the same. -/
theorem goes_of_standing (h : t.standing.map Prod.snd = s.standing.map Prod.snd) : s.Goes t := by
  have hrel := rel_of_standing h
  unfold CommonSession.Goes
  generalize s.encrypted = a at hrel ⊢
  generalize t.encrypted = b at hrel ⊢
  cases hrel with
  | none => exact .none
  | some hsame => exact .some (.single (.idle hsame.1 hsame.2.1 hsame.2.2))

theorem Quiet.goes (h : Quiet P s t) : s.Goes t := by
  have henc := h.encrypted
  unfold CommonSession.Goes
  generalize s.encrypted = a at henc ⊢
  generalize t.encrypted = b at henc ⊢
  cases henc with
  | none => exact .none
  | some henc => exact .some henc.deeds

theorem Staged.goes (h : Staged s t) : s.Goes t := by
  have henc := h.encrypted
  unfold CommonSession.Goes
  generalize s.encrypted = a at henc ⊢
  generalize t.encrypted = b at henc ⊢
  cases henc with
  | none => exact .none
  | some henc =>
    rw [henc.same]
    exact .some (.single (.idle rfl rfl rfl))

theorem Seals.goes {packets : List (Origin × Bytes)} (h : Seals s t packets) : s.Goes t :=
  goes_of_standing (congrArg _ h.standing_eq)

/-- The end of the first exchange makes the session encrypted. -/
theorem Installs.goes {bytes : Nat} {packets : List (Origin × Bytes)}
    (h : Installs s t bytes packets) :
    s.Goes t ∨ s.encrypted = none ∧ ∃ enc, t.encrypted = some enc ∧ enc.New := by
  have henc := h.encrypted
  unfold CommonSession.Goes
  cases hs : s.encrypted with
  | none =>
    rw [hs] at henc
    obtain ⟨enc', ht, -, -, hemitted, hchannels, hdeeds⟩ := henc
    exact .inr ⟨rfl, enc', ht, hchannels, hemitted, hdeeds⟩
  | some enc =>
    rw [hs] at henc
    obtain ⟨enc', ht, hsame⟩ := henc
    rw [ht, hsame]
    exact .inl (.some (.single (.idle rfl rfl rfl)))

theorem Advance.goes {buf : Bytes} (h : Advance buf s t) :
    s.Goes t ∨ s.encrypted = none ∧ ∃ enc, t.encrypted = some enc ∧ enc.New := by
  cases h with
  | skip hsame =>
    rw [hsame]
    exact .inl (goes_of_standing rfl)
  | answer _ _ hseals _ => exact .inl hseals.goes
  | serve _ _ hseals => exact .inl hseals.goes
  | guess _ _ hseals => exact .inl hseals.goes
  | finish _ _ hseals _ => exact .inl hseals.goes
  | install _ _ hinstalls => exact hinstalls.goes
  | drop _ _ _ _ hseals => exact .inl hseals.goes

variable [SessionConfig C]

theorem Turn.goes (h : Turn P s t) : s.Goes t := by
  cases h with
  | busy h =>
    cases h with
    | quiet h => exact h.goes
    | flush h => exact goes_of_standing (congrArg _ h.standing_eq)
  | staged h => exact h.goes

omit [SessionConfig C] in
theorem Local.goes (h : Local P s t) : s.Goes t := by
  cases h with
  | quiet h => exact h.goes
  | staged h => exact h.goes
  | service _ hsame =>
    rw [hsame]
    exact goes_of_standing rfl

/-- What the steps keep, and what holds when a session becomes encrypted, every run keeps. -/
theorem goes_invariant (P : Bytes → Prop) {inv : CommonSession C → Prop}
    (hgoes : ∀ s t, inv s → s.Goes t → inv t)
    (hnew : ∀ s t enc, inv s → s.encrypted = none → t.encrypted = some enc → enc.New → inv t) :
    Invariant P (fun _ _ => True) inv inv inv where
  enter _ := id
  leave _ := id
  inflate s enc decompress henc hs := by
    refine hgoes s _ hs ?_
    unfold CommonSession.Goes
    rw [henc]
    exact .some (.single (.idle rfl rfl rfl))
  advance s t _ hs _ _ h := by
    rcases h.goes with h | ⟨hnone, enc, ht, henc⟩
    · exact hgoes s t hs h
    · exact hnew s t enc hs hnone ht henc
  seals s t _ hs _ h := hgoes s t hs h.goes
  turn s t hs _ _ h := hgoes s t hs h.goes
  message s t _ hs _ _ _ h := by
    induction h with
    | refl => exact hs
    | tail _ h ih => exact hgoes _ _ ih h.goes
  flush s t hs _ h := by
    have hstep := flush_final s
    rw [h] at hstep
    exact hgoes s _ hs (goes_of_standing (congrArg _ hstep.standing_eq))
  settle s t hs h := hgoes s t hs h.goes

/-- An encrypted session comes of a new one. -/
def CommonSession.Traceable (s : CommonSession C) : Prop :=
  ∀ enc, s.encrypted = some enc → ∃ start : Encrypted, start.New ∧ Deeds start enc

/-- Every run keeps its session traceable. -/
theorem traceable_invariant (P : Bytes → Prop) :
    Invariant P (fun _ _ => True) (CommonSession.Traceable (C := C)) CommonSession.Traceable
      CommonSession.Traceable := by
  refine goes_invariant P (fun s t hs h enc' ht => ?_) fun s t enc hs hnone ht hnew enc' ht' => ?_
  · unfold CommonSession.Goes at h
    rw [ht] at h
    cases hs' : s.encrypted with
    | none =>
      rw [hs'] at h
      cases h
    | some enc =>
      rw [hs'] at h
      cases h with
      | some h =>
        obtain ⟨start, hstart, hdeeds⟩ := hs enc hs'
        exact ⟨start, hstart, hdeeds.trans h⟩
  · rw [ht] at ht'
    cases ht'
    exact ⟨enc, hnew, .refl⟩

/-- The session of a loop is traceable from its first turn on. -/
theorem Loop.run_traceable {S M : Type} {d : Driver C S M} (hd : d.Behaves P) {s : S}
    (hs : (d.common s).Initial) (output : Bytes) (events : List (Event M)) :
    (d.common ((Loop.start d s output).run d events).session).Traceable := by
  have hstart : (d.common s).Traceable := by
    intro enc henc
    rw [hs.encrypted] at henc
    cases henc
  have hholds := run_holds hd (traceable_invariant P)
    (start_holds hd (traceable_invariant P) hstart hs.sound output) events
    (Along.of_forall (fun _ _ _ _ _ => trivial) _ _)
  exact hholds.ended

/-- A session that comes of an encrypted one. -/
def CommonSession.Since (start : Encrypted) (s : CommonSession C) : Prop :=
  ∃ enc, s.encrypted = some enc ∧ Deeds start enc

omit [SessionConfig C] in
theorem CommonSession.Since.goes {start : Encrypted} (hs : s.Since start) (h : s.Goes t) :
    t.Since start := by
  obtain ⟨enc, henc, hdeeds⟩ := hs
  unfold CommonSession.Goes at h
  rw [henc] at h
  unfold CommonSession.Since
  generalize t.encrypted = b at h
  cases h with
  | some h => exact ⟨_, rfl, hdeeds.trans h⟩

/-- Every program of a role goes on with an encrypted session. -/
theorem Driver.Behaves.keeps_since {S M : Type} {d : Driver C S M} (hd : d.Behaves P)
    (start : Encrypted) :
    d.Keeps (fun s => (d.common s).Sound ∧ (d.common s).Since start)
      fun s => (d.common s).Since start := by
  refine hd.keeps (goes_invariant P (fun _ _ hs h => hs.goes h) fun s t enc hs hnone _ _ => ?_)
    fun _ _ hs h => hs.goes h.goes
  obtain ⟨enc', henc', -⟩ := hs
  rw [hnone] at henc'
  cases henc'

/-! ### What is queued -/

/-- Every packet ever queued on a session is of a kind. -/
def CommonSession.QueuesOnly (P : Bytes → Prop) (s : CommonSession C) : Prop :=
  ∀ body ∈ s.emitted, P body

omit [SessionConfig C] in
theorem CommonSession.QueuesOnly.more (h : s.QueuesOnly P) {bodies : List Bytes}
    (hbodies : ∀ body ∈ bodies, P body) (hemitted : t.emitted = s.emitted ++ bodies) :
    t.QueuesOnly P := by
  intro body hbody
  rw [hemitted] at hbody
  rcases List.mem_append.mp hbody with hbody | hbody
  · exact h body hbody
  · exact hbodies body hbody

omit [SessionConfig C] in
theorem CommonSession.QueuesOnly.same (h : s.QueuesOnly P) (hemitted : t.emitted = s.emitted) :
    t.QueuesOnly P := by
  unfold CommonSession.QueuesOnly
  rw [hemitted]
  exact h

omit [SessionConfig C] in
theorem CommonSession.QueuesOnly.of_standing (h : s.QueuesOnly P)
    (hstanding : t.standing = s.standing) : t.QueuesOnly P :=
  h.same (by unfold CommonSession.emitted; rw [hstanding])

omit [SessionConfig C] in
/-- An exchange queues nothing. -/
theorem Advance.emitted_eq {buf : Bytes} (h : Advance buf s t) : t.emitted = s.emitted := by
  have hseals : ∀ {packets : List (Origin × Bytes)}, Seals s t packets → t.emitted = s.emitted := by
    intro packets h
    unfold CommonSession.emitted
    rw [h.standing_eq]
  cases h with
  | skip hsame => rw [hsame]
  | answer _ _ h _ => exact hseals h
  | serve _ _ h => exact hseals h
  | guess _ _ h => exact hseals h
  | finish _ _ h _ => exact hseals h
  | drop _ _ _ _ h => exact hseals h
  | install _ _ h =>
    have henc := h.encrypted
    cases hs : s.encrypted with
    | none =>
      rw [hs] at henc
      obtain ⟨enc', ht, -, -, hemitted, -⟩ := henc
      rw [emitted_none hs, emitted_some ht, hemitted]
    | some enc =>
      rw [hs] at henc
      obtain ⟨enc', ht, hsame⟩ := henc
      rw [emitted_some hs, emitted_some ht, hsame]

/-- A run whose programs queue only packets of a kind has queued no others. -/
theorem queuesOnly_invariant (P : Bytes → Prop) :
    Invariant P (fun _ _ => True) (CommonSession.QueuesOnly (C := C) P)
      (CommonSession.QueuesOnly P) (CommonSession.QueuesOnly P) where
  enter _ := id
  leave _ := id
  inflate s enc decompress henc hs := by
    refine hs.of_standing ?_
    unfold CommonSession.standing
    rw [henc]
    rfl
  advance s t _ hs _ _ h := hs.same h.emitted_eq
  seals s t _ hs _ h := hs.of_standing h.standing_eq
  turn s t hs _ _ h := by
    cases h with
    | busy h =>
      obtain ⟨bodies, hbodies, hemitted⟩ := h.emits
      exact hs.more hbodies hemitted
    | staged h => exact hs.same h.emitted_eq
  message s t _ hs _ _ _ h := by
    induction h with
    | refl => exact hs
    | tail _ h ih =>
      cases h with
      | quiet h =>
        obtain ⟨bodies, hbodies, hemitted⟩ := (Busy.quiet h).emits
        exact ih.more hbodies hemitted
      | staged h => exact ih.same h.emitted_eq
      | service _ hsame =>
        rw [hsame]
        exact ih.of_standing rfl
  flush s t hs _ h := by
    have hstep := flush_final s
    rw [h] at hstep
    exact hs.of_standing hstep.standing_eq
  settle s t hs h := hs.same h.emitted_eq

/-- From its first turn on a loop queues only packets of the kind that its programs queue. -/
theorem Loop.run_queuesOnly {S M : Type} {d : Driver C S M} (hd : d.Behaves P) {s : S}
    (hs : (d.common s).Initial) (output : Bytes) (events : List (Event M)) :
    (d.common ((Loop.start d s output).run d events).session).QueuesOnly P := by
  have hstart : (d.common s).QueuesOnly P := by
    intro body hbody
    rw [emitted_none hs.encrypted] at hbody
    cases hbody
  have hholds := run_holds hd (queuesOnly_invariant P)
    (start_holds hd (queuesOnly_invariant P) hstart hs.sound output) events
    (Along.of_forall (fun _ _ _ _ _ => trivial) _ _)
  exact hholds.ended

end Thrussh
