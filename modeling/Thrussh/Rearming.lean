import Thrussh.Metering

/-!
# What starts a re-exchange

Along a run in which every completed re-exchange resets the counters, no call
of `Session::flush` starts a re-exchange before a limit is reached under the
keys in use.
-/

namespace Thrussh

open Lib

variable [Deps] {C S M : Type} [SessionConfig C]

/-- The sessions on which a turn can call `Session::flush`, before or at its
end. `E` tells what a packet of the exchange makes of a session. -/
inductive Driver.Course (d : Driver C S M) (E : CommonSession C → Bytes → CommonSession C → Prop) :
    Act S M → CommonSession C → Prop where
  /-- A packet of the exchange is served. -/
  | exchange {s : S} {buf : Bytes} {t u : CommonSession C} (hin : (d.common s).InExchange buf)
    (hexchange : E (d.common s) buf t) (hsteps : Relation.ReflTransGen Small t u) :
    Driver.Course d E (.reply s buf) u
  /-- Any other packet is. -/
  | serve {s : S} {buf : Bytes} {u : CommonSession C} (hout : ¬ (d.common s).InExchange buf)
    (hsteps : Relation.ReflTransGen Small (d.common s) u) : Driver.Course d E (.reply s buf) u
  /-- A local message is. -/
  | message {s : S} {m : Option M} {u : CommonSession C}
    (hsteps : Relation.ReflTransGen Small (d.common s) u) : Driver.Course d E (.message s m) u

/-- What `E` and the course of a turn are to a role. -/
structure Driver.Courses (d : Driver C S M)
    (E : CommonSession C → Bytes → CommonSession C → Prop) : Prop where
  /-- A packet of the exchange is served, perhaps with a flush, or fails. -/
  exchange : ∀ s buf, (d.common s).Sound → (d.common s).InExchange buf →
    (∃ t, E (d.common s) buf (d.common t) ∧
      (d.reply buf s = .ok () t ∨ d.reply buf s = zoom d.common d.setCommon flush t)) ∨
    ∃ e t packets, d.reply buf s = .error e t ∧ Seals (d.common s) (d.common t) packets
  /-- Any other packet is served in small steps. -/
  serve : ∀ s buf, (d.common s).Sound → ¬ (d.common s).InExchange buf →
    Relation.ReflTransGen Small (d.common s) (d.common (final (d.reply buf s)))

/-- An act completes a re-exchange with both counters at zero. -/
def Driver.Rearms (d : Driver C S M) : Act S M → Prop
  | .reply s buf =>
    (d.common (final (d.reply buf s))).writeBuffer.bytes = 0 ∧
      (d.common (final (d.reply buf s))).rekeyedAt =
        some ((d.common s).world.clock (d.common s).tick)
  | .message _ _ => True

/-- Along a run a flush starts a re-exchange only if, since the keys in use
were installed, one of the limits is reached, and whatever completes a
re-exchange rearms both of them. -/
def Loop.Rearming (d : Driver C S M) (E : CommonSession C → Bytes → CommonSession C → Prop)
    (l : Loop S) (events : List (Event M)) : Prop :=
  ∀ before e after, events = before ++ e :: after →
    ∀ act ∈ Loop.acted d (l.run d before) e,
      (∀ u, d.Course E act u → u.Starts →
        u.LimitReached (d.sealedAt (l.acts d before ++ [act]))
          (d.installedAt (l.acts d before ++ [act]))) ∧
      (d.completes act = true → d.Rearms act)

section
variable {d : Driver C S M} {E : CommonSession C → Bytes → CommonSession C → Prop}
  {P : Bytes → Prop} {acts : List (Act S M)} {act : Act S M}

/-- The flush at the end of the turn is called on a session of its course. -/
theorem Driver.Courses.of_reply (hd : d.Courses E) (hcommon : ∀ c s, d.common (d.setCommon c s) = c)
    {s t : S} {buf : Bytes} (hs : (d.common s).Sound) (h : d.reply buf s = .ok () t) :
    d.Course E (.reply s buf) (d.common t) := by
  by_cases hin : (d.common s).InExchange buf
  · rcases hd.exchange s buf hs hin with ⟨u, hu, hreply | hreply⟩ | ⟨e, u, packets, hreply, -⟩
    · cases hreply.symm.trans h
      exact .exchange hin hu .refl
    · have hflush : (final (flush (d.common u))) = d.common t := by
        have hrun := hreply.symm.trans h
        unfold zoom at hrun
        cases hresult : flush (d.common u) with
        | error e v =>
          rw [hresult] at hrun
          cases hrun
        | ok x v =>
          rw [hresult] at hrun
          cases hrun
          rw [hcommon, final_ok]
      exact .exchange hin hu (.single (.call hflush.symm))
    · cases hreply.symm.trans h
  · have hserved := hd.serve s buf hs hin
    rw [h, final_ok] at hserved
    exact .serve hin hserved

theorem Driver.Behaves.course_message (hd : d.Behaves fun _ => True) (s : S) (m : Option M) :
    d.Course E (.message s m) (d.common (final (d.message m s))) := by
  refine .message ?_
  have hmessage := hd.message s m
  generalize d.common (final (d.message m s)) = t at hmessage
  induction hmessage with
  | refl => exact .refl
  | tail _ hstep ih => exact ih.tail hstep.small

/-- What the steps of a session outside of the exchange have in common. -/
structure Outside (R : CommonSession C → CommonSession C → Prop) : Prop where
  /-- A step of a turn. -/
  small : ∀ s t, Small s t → R s t
  /-- A packet is decompressed. -/
  inflate : ∀ s enc decompress, s.encrypted = some enc →
    R s { s with encrypted := some { enc with decompress := decompress } }
  /-- What is sealed is written. -/
  clear : ∀ s, R s { s with writeBuffer := s.writeBuffer.clear }

theorem outside_keeping : Outside (Keeping : CommonSession C → CommonSession C → Prop) where
  small _ _ h := h.keeping
  inflate s enc decompress henc :=
    ⟨.of_same rfl rfl, by simp only [CommonSession.rekeyedAt, henc, Option.map_some]⟩
  clear _ := ⟨.of_same rfl rfl, rfl⟩

/-- What the course of every act and every step outside of the exchange keep, a role keeps. -/
theorem Driver.Courses.follows {H : Type} (hd : d.Courses E) (hbehaves : d.Behaves fun _ => True)
    {R : CommonSession C → CommonSession C → Prop} (hR : Outside R)
    (next : H → Act S M → H) (inv : H → CommonSession C → Prop)
    (hact : ∀ h act u, (d.common act.session).Sound → d.Course E act u →
      inv h (d.common act.session) → inv (next h act) u)
    (hkeep : ∀ h s t, R s t → inv h s → inv h t) :
    d.Follows next (fun h s => (d.common s).Sound ∧ inv h (d.common s)) (fun _ _ => True) := by
  have hkeeps := hbehaves.keeps_sound
  constructor
  · exact fun _ _ _ => trivial
  · intro h s enc decompress henc hs
    refine ⟨hkeeps.inflate s enc decompress henc hs.1, ?_⟩
    rw [hbehaves.common_set]
    exact hkeep h _ _ (hR.inflate _ enc decompress henc) hs.2
  · intro h s buf hs
    have hreply : Ends (d.reply buf) s (fun _ t => inv (next h (.reply s buf)) (d.common t))
        fun _ => True := by
      unfold Ends
      cases hresult : d.reply buf s with
      | error e t => exact trivial
      | ok x t =>
        have hcourse := hd.of_reply hbehaves.common_set hs.1 hresult
        exact hact h _ _ hs.1 hcourse hs.2
    exact ((hkeeps.reply s buf hs.1).and hreply).mono (fun _ _ ht => ht) fun _ _ => trivial
  · intro h s m enc hs _ _
    have hcourse := hbehaves.course_message (E := E) s m
    have hmessage : Ends (d.message m) s (fun _ t => inv (next h (.message s m)) (d.common t))
        fun _ => True := by
      unfold Ends
      cases hresult : d.message m s with
      | error e t => exact trivial
      | ok x t =>
        rw [hresult, final_ok] at hcourse
        exact hact h _ _ hs.1 hcourse hs.2
    exact ((hkeeps.message s m hs.1).and hmessage).mono (fun _ _ ht => ht) fun _ _ => trivial
  · intro h s hs
    have hflush : Ends (zoom d.common d.setCommon flush) s
        (fun _ t => inv h (d.common (Loop.clearWrite d t))) fun _ => True := by
      unfold Ends zoom
      cases hresult : flush (d.common s) with
      | error e c => exact trivial
      | ok x c =>
        have hkept := hkeep h _ _ (hR.small (d.common s) _ (.call rfl)) hs.2
        rw [hresult, final_ok] at hkept
        unfold Loop.clearWrite
        dsimp only
        rw [hbehaves.common_set, hbehaves.common_set]
        exact hkeep h _ _ (hR.clear c) hkept
    exact ((hkeeps.flush s hs.1).and hflush).mono (fun _ _ ht => ht) fun _ _ => trivial
  · intro h s hs
    exact ⟨hkeeps.settle s hs.1, hkeep h _ _ (hR.small _ _ (.staged (hbehaves.settle s))) hs.2⟩

/-- What is kept holds of the session of an act. -/
theorem acted_follows {H : Type} {next : H → Act S M → H} {inv ended : H → S → Prop} {h : H}
    (hd : d.Follows next inv ended) {l : Loop S} (hl : Loop.Kept (inv h) (ended h) l)
    {e : Event M} (hact : act ∈ Loop.acted d l e) : inv h act.session := by
  have hgiven : ∀ e', act ∈ (Loop.given d l e').map (fun p => (.reply p.1 p.2 : Act S M)) →
      inv h act.session := by
    intro e' hmem
    obtain ⟨p, hp, rfl⟩ := Option.map_eq_some_iff.mp hmem
    exact Loop.given_follows hd hl hp
  cases e with
  | message m taken =>
    dsimp only [Loop.acted] at hact
    by_cases hrunning : l.stage = .running ∧
        (l.isRekeying d || !l.canHaveTaken d taken) = false
    · rw [if_pos hrunning] at hact
      cases hact
      exact hl.running hrunning.1
    · rw [if_neg hrunning] at hact
      cases hact
  | arrive bytes => exact hgiven (.arrive bytes) hact
  | close => exact hgiven .close hact
  | read => exact hgiven .read hact
  | timeout => exact hgiven .timeout hact

omit [Deps] [SessionConfig C] in
/-- A condition holds along a run if it holds at each of its events. -/
theorem along_of_at {step : Loop S → Event M → Loop S} {Q : Loop S → Event M → Prop} {l : Loop S}
    {events : List (Event M)}
    (h : ∀ before e after, events = before ++ e :: after → Q (before.foldl step l) e) :
    Loop.Along step Q l events := by
  induction events generalizing l with
  | nil => exact trivial
  | cons e events ih =>
    refine ⟨h [] e events rfl, ih fun before e' after hevents => ?_⟩
    exact h (e :: before) e' after (by rw [hevents, List.cons_append])

/-- The acts of a run are allowed, if each one is when it happens. -/
theorem acts_allowed {allowed : Act S M → Prop} {l : Loop S} {events : List (Event M)}
    (h : Loop.Along (Loop.iterate d) (fun l e => ∀ act ∈ Loop.acted d l e, allowed act) l events) :
    ∀ act ∈ l.acts d events, allowed act := by
  have hall : ∀ (acts : List (Act S M)), (∀ act ∈ acts, allowed act) →
      ∀ act ∈ Loop.history d (fun acts act => acts ++ [act]) acts l events, allowed act := by
    induction events generalizing l with
    | nil => exact fun acts hacts => hacts
    | cons e events ih =>
      intro acts hacts
      refine ih h.2 _ ?_
      cases hacted : Loop.acted d l e with
      | none => exact hacts
      | some act =>
        intro act' hmem
        rcases List.mem_append.mp hmem with hold | hnew
        · exact hacts act' hold
        · rw [List.mem_singleton.mp hnew]
          exact h.1 act hacted
  exact hall [] fun act hmem => by cases hmem

/-! ### Runs whose re-exchanges reset the counters -/

section
variable {allowed : Act S M → Prop} {n since : Nat} {s t u : CommonSession C}

omit [SessionConfig C] in
/-- A session before its first turn has counted its KEXINIT. -/
theorem CommonSession.Initial.counted (h : s.Initial) :
    Tallied (d.sealedAt []) (d.installedAt []) s := by
  obtain ⟨payload, buffer, hbuffer⟩ := h.writeBuffer
  constructor
  · exact Nat.zero_le _
  · rw [hbuffer]
    simp [Driver.sealedAt, payloadBytes, SSHBuffer.sealed, SSHBuffer.new]
  · intro at' hat
    unfold CommonSession.rekeyedAt at hat
    rw [h.encrypted] at hat
    cases hat

/-- What an act leaves of the counters, on every session of its course. -/
theorem Driver.Course.counted
    (hE : ∀ acts s buf t, E (d.common s) buf t → allowed (.reply s buf) →
      Tallied (d.sealedAt acts) (d.installedAt acts) (d.common s) →
      Tallied (d.sealedAt (acts ++ [.reply s buf])) (d.installedAt (acts ++ [.reply s buf])) t)
    (h : d.Course E act u) (hallowed : allowed act)
    (hcounted : Tallied (d.sealedAt acts) (d.installedAt acts) (d.common act.session)) :
    Tallied (d.sealedAt (acts ++ [act])) (d.installedAt (acts ++ [act])) u := by
  have hstays : d.installs act = false → ∀ {u}, Relation.ReflTransGen Small
      (d.common act.session) u →
      Tallied (d.sealedAt (acts ++ [act])) (d.installedAt (acts ++ [act])) u := by
    intro hnot u hsteps
    obtain ⟨hat, hsealed⟩ := installed_append acts hnot
    rw [hat, hsealed]
    exact hcounted.keep_all hsteps
  cases h with
  | exchange hin hexchange hsteps =>
    exact (hE _ _ _ _ hexchange hallowed hcounted).keep_all hsteps
  | @serve s buf _ hout hsteps =>
    have hphase : (d.common s).phase ≠ .newKeys := fun h => hout (.inr (.inr (.inr h)))
    have hnot : d.installs (.reply s buf : Act S M) = false := by
      simp only [Driver.installs, hphase, decide_false, Bool.false_and]
    exact hstays hnot hsteps
  | message hsteps => exact hstays rfl hsteps

/-- Along a run whose acts are allowed, both limits are respected. -/
theorem Driver.Courses.rearming (hd : d.Courses E) (hbehaves : d.Behaves fun _ => True)
    (allowed : Act S M → Prop)
    (hE : ∀ acts s buf t, E (d.common s) buf t → allowed (.reply s buf) →
      Tallied (d.sealedAt acts) (d.installedAt acts) (d.common s) →
      Tallied (d.sealedAt (acts ++ [.reply s buf])) (d.installedAt (acts ++ [.reply s buf])) t)
    (hrearms : ∀ act, allowed act → (d.common act.session).Sound → d.completes act = true →
      d.Rearms act)
    {s : S} (hs : (d.common s).Initial) (output : Bytes) (events : List (Event M))
    (hallowed : Loop.Along (Loop.iterate d) (fun l e => ∀ act ∈ Loop.acted d l e, allowed act)
      (Loop.start d s output) events) :
    (Loop.start d s output).Rearming d E events := by
  have hfollows := hd.follows hbehaves outside_keeping (fun acts act => acts ++ [act])
    (fun acts s => (∀ act ∈ acts, allowed act) →
      Tallied (d.sealedAt acts) (d.installedAt acts) s)
    (fun acts act u _ hcourse hcounted hall =>
      hcourse.counted hE (hall act (List.mem_append_right _ (List.mem_singleton.mpr rfl)))
        (hcounted fun a ha => hall a (List.mem_append_left _ ha)))
    fun acts s t hkeeping hcounted hall => (hcounted hall).keep hkeeping
  have hstart := Loop.start_follows hfollows (h := []) ⟨hs.sound, fun _ => hs.counted⟩ output
  intro before e after hevents act hact
  subst hevents
  have hbefore := acts_allowed hallowed.before
  have hnow := hallowed.of_append.1 act hact
  have hrun := Loop.run_follows hfollows hstart before
  have hsession := acted_follows hfollows hrun hact
  constructor
  · intro u hcourse hstarts
    exact hstarts.limitReached (hcourse.counted hE hnow (hsession.2 hbefore))
  · exact hrearms act hnow hsession.1

end

end

end Thrussh
