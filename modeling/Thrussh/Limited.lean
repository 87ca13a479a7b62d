import Thrussh.Limits
import Thrussh.Rearmed
import Thrussh.Stream

/-!
# The limits of a run

In either role the write limit is kept in every run in which no KEXINIT comes
too late. Nothing in the source reads `rekey_read_limit`, so that the read
limit is kept exactly as far as the packets read stay below it, or an exchange
is in progress anyway.
-/

namespace Thrussh

open Lib

section
variable [Deps] {C S M : Type}

namespace Loop

section
variable (d : Driver C S M)

/-- The bytes read under the keys in use. -/
def bytesRead (l : Loop S) : Nat :=
  payloadUnder (d.common l.session).cipher.epoch l.buffer.history

/-- The read buffer once an event has read its packet. -/
def readBuffer (l : Loop S) (e : Event M) : SSHBuffer :=
  match e, l.stage, l.nextRead d with
  | .read, .running, .ok _ buffer _ => buffer
  | .read, .running, .err _ buffer _ => buffer
  | _, _, _ => l.buffer

variable [SessionConfig C]

/-- A loop in which a limit is reached under the keys in use of an encrypted
session only while an exchange is in progress. -/
def Limited (l : Loop S) : Prop :=
  l.stage = .running → (d.common l.session).encrypted.isSome = true →
    (SessionConfig.limits (d.common l.session).config).rekeyWriteLimit ≤
        (d.common l.session).written ∨
      (SessionConfig.limits (d.common l.session).config).rekeyReadLimit ≤ l.bytesRead d →
    (d.common l.session).exchanging.isSome = true

/-- An event does not make a session without an exchange in progress reach the
read limit: a packet that is read stays below it, and new keys do not start at it. -/
def ReadsWithin (l : Loop S) (e : Event M) : Prop :=
  (l.stage = .running → (d.common l.session).phase = .idle →
    payloadUnder (d.common l.session).cipher.epoch (l.readBuffer d e).history <
      (SessionConfig.limits (d.common l.session).config).rekeyReadLimit) ∧
  ∀ act ∈ acted d l e, d.installs act = true →
    0 < (SessionConfig.limits (d.common l.session).config).rekeyReadLimit

instance (l : Loop S) (e : Event M) : Decidable (l.ReadsWithin d e) :=
  inferInstanceAs (Decidable (_ ∧ _))

end

/-! ### What is read -/

section
variable {d : Driver C S M}

/-- What `cipher::read` leaves of the history of its buffer. -/
def Opens (pair : CipherPair) (b : SSHBuffer) : ReadResult → Prop
  | .ok _ b' _ => ∃ r, b'.history = b.history ++ [r] ∧ r.epoch = pair.epoch
  | .err _ b' _ => b'.history = b.history
  | .pending | .panic => True

/-- What `cipher::read` opens is opened under the pair in use. -/
theorem read_opens (pair : CipherPair) (b : SSHBuffer) (stream : Bytes) (eof : Bool) :
    Opens pair b (Thrussh.read pair b stream eof) := by
  have hpacket : ∀ buffer rest, Opens pair b (readPacket pair { b with buffer := buffer } rest) := by
    intro buffer rest
    unfold readPacket
    dsimp only
    split
    · rfl
    · split
      · trivial
      · split
        · exact ⟨_, rfl, rfl⟩
        · rfl
  unfold Thrussh.read
  split
  · split
    · rfl
    · trivial
  · split
    · trivial
    · dsimp only
      split
      · split
        · rfl
        · trivial
      · exact hpacket _ _

/-- An event opens packets under the keys in use only. -/
theorem readBuffer_known (l : Loop S) (e : Event M) {n : Nat}
    (h : ∀ r ∈ l.buffer.history, r.epoch ≤ n) (hn : (d.common l.session).cipher.epoch ≤ n) :
    ∀ r ∈ (l.readBuffer d e).history, r.epoch ≤ n := by
  have hread := read_opens (d.common l.session).cipher l.buffer l.stream l.eof
  unfold readBuffer
  split
  · rename_i buffer rest hnext
    rw [nextRead] at hnext
    rw [hnext] at hread
    obtain ⟨r, hhistory, hepoch⟩ := hread
    intro r' hr'
    rw [hhistory] at hr'
    rcases List.mem_append.mp hr' with hold | hnew
    · exact h r' hold
    · rw [List.mem_singleton.mp hnew, hepoch]
      exact hn
  · rename_i buffer rest hnext
    rw [nextRead] at hnext
    rw [hnext] at hread
    rw [hread]
    exact h
  · exact h

variable [SessionConfig C]

omit [Deps] [SessionConfig C] in
/-- Two loops that have opened the same packets. -/
theorem history_of_inbound {l l' : Loop S} (h : l'.inbound = l.inbound) :
    l'.buffer.history = l.buffer.history := by
  simp only [inbound, Prod.mk.injEq] at h
  exact h.2.2.2

/-- A loop that runs on has run before, and has read what the event reads. -/
theorem iterate_running {l : Loop S} {e : Event M} (h : (iterate d l e).stage = .running) :
    l.stage = .running ∧ (iterate d l e).buffer.history = (l.readBuffer d e).history := by
  cases e with
  | arrive bytes =>
    unfold iterate at h ⊢
    dsimp only at h ⊢
    by_cases heof : l.eof = true
    · rw [if_pos heof] at h ⊢
      exact ⟨h, rfl⟩
    · rw [if_neg heof] at h ⊢
      exact ⟨h, rfl⟩
  | close => exact ⟨h, rfl⟩
  | timeout =>
    unfold iterate at h ⊢
    dsimp only at h ⊢
    by_cases hexpired : l.stage = .running ∧ d.timeout (d.common l.session).config = true
    · rw [if_pos hexpired] at h
      exact absurd h (leave_stage l)
    · rw [if_neg hexpired] at h ⊢
      exact ⟨h, rfl⟩
  | message m taken =>
    unfold iterate at h ⊢
    dsimp only at h ⊢
    by_cases hrunning : l.stage = .running
    · rw [if_pos hrunning] at h ⊢
      refine ⟨hrunning, ?_⟩
      change _ = l.buffer.history
      unfold turnMessage at h ⊢
      by_cases hcannot : (l.isRekeying d || !l.canHaveTaken d taken) = true
      · rw [if_pos hcannot]
      · rw [if_neg hcannot] at h ⊢
        dsimp only at h ⊢
        cases hmessage : d.message m l.session with
        | error e s => rfl
        | ok b s =>
          cases b with
          | true => rfl
          | false =>
            dsimp only
            exact (history_of_inbound (endTurn_inbound d _)).trans rfl
    · rw [if_neg hrunning] at h
      exact absurd h hrunning
  | read =>
    unfold iterate at h ⊢
    unfold readBuffer
    dsimp only at h ⊢
    cases hstage : l.stage with
    | draining =>
      simp only [hstage, drain] at h
      cases hread : l.nextRead d with
      | pending => simp [hread, hstage] at h
      | panic => simp [hread, fail] at h
      | ok n buffer rest =>
        simp only [hread] at h
        split at h
        · cases h
        · simp at h
      | err e buffer rest => simp [hread] at h
    | finished result => simp [hstage] at h
    | running =>
      refine ⟨rfl, ?_⟩
      simp only [hstage, turnRead] at h ⊢
      cases hread : l.nextRead d with
      | pending => rfl
      | panic => simp [hread, fail] at h
      | ok n buffer rest =>
        dsimp only
        exact history_of_inbound (handle_inbound d _ true)
      | err e buffer rest =>
        simp only [hread] at h ⊢
        by_cases hchecks : d.checksRead = true
        · rw [if_pos hchecks] at h
          exact absurd h (leave_stage _)
        · rw [if_neg hchecks]
          exact history_of_inbound (handle_inbound d _ false)

end

end Loop

/-! ### One event -/

/-- What has become of a session since `s`, according to whether new keys have
been installed. -/
inductive After (s : CommonSession C) : Bool → CommonSession C → Prop where
  /-- The keys are the same. -/
  | stays {t : CommonSession C} (h : Stays s t) : After s false t
  /-- They are later ones. -/
  | installed {t : CommonSession C} (hconfig : t.config = s.config)
    (h : s.cipher.epoch < t.cipher.epoch) : After s true t

section
variable {s t u : CommonSession C} {b b' : Bool}

theorem After.config (h : After s b t) : t.config = s.config := by
  cases h with
  | stays h => exact h.config
  | installed hconfig h => exact hconfig

theorem After.epoch_le (h : After s b t) : s.cipher.epoch ≤ t.cipher.epoch := by
  cases h with
  | stays h => exact Nat.le_of_eq (by rw [h.cipher])
  | installed hconfig h => exact Nat.le_of_lt h

theorem After.trans (h : After s b t) (h' : After t b' u) : After s (b || b') u := by
  have hconfig := h'.config.trans h.config
  have hfirst := h.epoch_le
  have hsecond := h'.epoch_le
  cases h with
  | stays h =>
    cases h' with
    | stays h' => exact .stays (h.trans h')
    | installed _ h' => exact .installed hconfig (by omega)
  | installed _ h => exact .installed hconfig (by omega)

/-- A packet that moves an exchange on, and does not end it, leaves the keys in use. -/
theorem Seals.stays {packets : List (Origin × Bytes)} (h : Seals s t packets)
    (hphase : t.phase ≠ .idle) : Stays s t :=
  ⟨by rw [h.same], by rw [h.same], h.metered, fun _ => hphase⟩

/-- Only the NEWKEYS phase is left by new keys. -/
theorem Advance.stays {buf : Bytes} (h : Advance buf s t) (hphase : s.phase ≠ .newKeys) :
    Stays s t := by
  cases h with
  | skip h => rw [h]; exact .refl s
  | answer _ ht hseals _ => exact hseals.stays (by rw [ht]; decide)
  | serve _ ht hseals => exact hseals.stays (by rw [ht]; decide)
  | guess _ ht hseals => exact hseals.stays (by rw [ht]; decide)
  | finish _ ht hseals _ => exact hseals.stays (by rw [ht]; decide)
  | install hs _ _ => exact absurd hs hphase
  | drop _ _ _ ht hseals => exact hseals.stays (by rw [ht]; decide)

variable [SessionConfig C] {d : Driver C S M}
  {E : CommonSession C → Bytes → CommonSession C → Prop}

/-- Dropping an exchange leaves the keys in use. -/
theorem stays_drop (hs : s.Sound) {enc : Encrypted} {k : Kex} (henc : s.encrypted = some enc)
    (hrekey : enc.rekey = some k) :
    Stays s { s with encrypted := some { enc with rekey := none } } := by
  have hex : enc.exchange = none := hs.exclusive enc henc (by rw [hrekey]; rfl)
  refine ⟨rfl, rfl, metered_of_same rfl rfl rfl, fun _ => ?_⟩
  simp only [CommonSession.phase, Encrypted.phase, hex, Option.isSome_none, Bool.false_eq_true,
    if_false]
  decide

omit [SessionConfig C] in
/-- A packet of the exchange, from what it makes of the NEWKEYS phase. -/
theorem after_of_advance {s : S} {buf : Bytes} {t : CommonSession C}
    (hadvance : Advance buf (d.common s) t)
    (hlast : (d.common s).phase = .newKeys →
      (buf.head? = some msg.NEWKEYS ∧ t.config = (d.common s).config ∧
          (d.common s).cipher.epoch < t.cipher.epoch) ∨
        buf.head? ≠ some msg.NEWKEYS ∧ Stays (d.common s) t) :
    After (d.common s) (d.installs (.reply s buf : Act S M)) t := by
  by_cases hphase : (d.common s).phase = .newKeys
  · rcases hlast hphase with ⟨hhead, hconfig, hepoch⟩ | ⟨hhead, hstays⟩
    · have hinstalls : d.installs (.reply s buf : Act S M) = true := by
        simp only [Driver.installs, hphase, hhead, decide_true, Bool.and_true]
      rw [hinstalls]
      exact .installed hconfig hepoch
    · rw [installs_of_head hhead]
      exact .stays hstays
  · rw [installs_of_phase hphase]
    exact .stays (hadvance.stays hphase)

/-- Small steps leave the keys in use. -/
theorem stays_of_small (h : Relation.ReflTransGen Small s t) : Stays s t := by
  induction h with
  | refl => exact .refl s
  | tail _ hstep ih => exact ih.trans hstep.stays

/-- What an act makes of a session, on every session of its course. -/
theorem Driver.Course.after
    (hE : ∀ s buf t, (d.common s).Sound → E (d.common s) buf t →
      After (d.common s) (d.installs (.reply s buf : Act S M)) t)
    {act : Act S M} (hs : (d.common act.session).Sound) (h : d.Course E act u) :
    After (d.common act.session) (d.installs act) u := by
  cases h with
  | exchange hin hexchange hsteps =>
    have hlast := After.stays (stays_of_small hsteps)
    have hall := (hE _ _ _ hs hexchange).trans hlast
    rw [Bool.or_false] at hall
    exact hall
  | @serve s buf _ hout hsteps =>
    have hphase : (d.common s).phase ≠ .newKeys := fun h => hout (.inr (.inr (.inr h)))
    rw [installs_of_phase hphase]
    exact .stays (stays_of_small hsteps)
  | message hsteps => exact .stays (stays_of_small hsteps)

/-- What becomes of a session in the events of a role. -/
theorem Driver.Courses.follows_after (hd : d.Courses E) (hbehaves : d.Behaves fun _ => True)
    (hE : ∀ s buf t, (d.common s).Sound → E (d.common s) buf t →
      After (d.common s) (d.installs (.reply s buf : Act S M)) t) (s : CommonSession C) :
    d.Follows (fun b act => b || d.installs act)
      (fun b t => (d.common t).Sound ∧ After s b (d.common t)) fun _ _ => True := by
  refine hd.follows hbehaves outside_stays (fun b act => b || d.installs act)
    (fun b t => After s b t) ?_ ?_
  · intro b act u hsound hcourse hafter
    exact hafter.trans (hcourse.after hE hsound)
  · intro b t u hstays hafter
    have hall := hafter.trans (.stays hstays)
    rw [Bool.or_false] at hall
    exact hall

/-- What an event makes of the session of a running loop. -/
theorem Driver.Courses.iterate_after (hd : d.Courses E) (hbehaves : d.Behaves fun _ => True)
    (hE : ∀ s buf t, (d.common s).Sound → E (d.common s) buf t →
      After (d.common s) (d.installs (.reply s buf : Act S M)) t)
    {l : Loop S} (hs : (d.common l.session).Sound) {e : Event M}
    (h : (l.iterate d e).stage = .running) :
    After (d.common l.session) ((Loop.acted d l e).elim false d.installs)
      (d.common (l.iterate d e).session) := by
  have hfollows := hd.follows_after hbehaves hE (d.common l.session)
  have hl : Loop.Kept (fun s => (d.common s).Sound ∧
      After (d.common l.session) false (d.common s)) (fun _ => True) l :=
    ⟨fun _ => ⟨hs, .stays (.refl _)⟩, trivial⟩
  have hafter := ((Loop.iterate_follows hfollows (h := false) hl e).running h).2
  cases hacted : Loop.acted d l e with
  | none =>
    rw [hacted] at hafter
    exact hafter
  | some act =>
    rw [hacted] at hafter
    exact hafter

/-! ### Runs -/

/-- What a running loop has read: nothing under later keys, and less than the
limit while no exchange is in progress. -/
structure Loop.Below (d : Driver C S M) (l : Loop S) : Prop where
  /-- Nothing is opened under keys that come later. -/
  known : l.stage = .running →
    ∀ r ∈ l.buffer.history, r.epoch ≤ (d.common l.session).cipher.epoch
  /-- The limit is not reached. -/
  below : l.stage = .running → (d.common l.session).phase = .idle →
    l.bytesRead d < (SessionConfig.limits (d.common l.session).config).rekeyReadLimit

/-- An event that keeps within the read limit keeps a loop below it. -/
theorem Loop.Below.iterate (hd : d.Courses E) (hbehaves : d.Behaves fun _ => True)
    (hE : ∀ s buf t, (d.common s).Sound → E (d.common s) buf t →
      After (d.common s) (d.installs (.reply s buf : Act S M)) t)
    {l : Loop S} (hl : l.Below d) (hs : l.stage = .running → (d.common l.session).Sound)
    {e : Event M} (hwithin : l.ReadsWithin d e) : (l.iterate d e).Below d := by
  have hafter : (l.iterate d e).stage = .running → After (d.common l.session)
      ((acted d l e).elim false d.installs) (d.common (l.iterate d e).session) :=
    fun h => hd.iterate_after hbehaves hE (hs (iterate_running h).1) h
  constructor
  · intro hrunning
    obtain ⟨hstage, hhistory⟩ := iterate_running hrunning
    rw [hhistory]
    have hle := (hafter hrunning).epoch_le
    refine readBuffer_known l e (fun r hr => ?_) hle
    exact Nat.le_trans (hl.known hstage r hr) hle
  · intro hrunning hidle
    obtain ⟨hstage, hhistory⟩ := iterate_running hrunning
    have hevent := hafter hrunning
    unfold bytesRead
    rw [hhistory, hevent.config]
    generalize hinstalled : (acted d l e).elim false d.installs = installed at hevent
    cases hevent with
    | stays h =>
      rw [h.cipher]
      refine hwithin.1 hstage ?_
      by_contra hbusy
      exact h.busy hbusy hidle
    | installed hconfig hepoch =>
      have hknown := readBuffer_known (d := d) l e (hl.known hstage) (Nat.le_refl _)
      have hnone := payloadUnder_later fun r hr => Nat.lt_of_le_of_lt (hknown r hr) hepoch
      rw [hnone]
      cases hacted : acted d l e with
      | none =>
        rw [hacted] at hinstalled
        cases hinstalled
      | some act =>
        rw [hacted] at hinstalled
        exact hwithin.2 act hacted hinstalled

omit [SessionConfig C] in
theorem CommonSession.Initial.metered (h : s.Initial) : s.Metered := by
  obtain ⟨payload, buffer, hbuffer⟩ := h.writeBuffer
  have hnew : SSHBuffer.new.Metered clearPair.epoch :=
    ⟨fun r hr => absurd hr List.not_mem_nil, Nat.le_refl _⟩
  have hsealed := hnew.sealed .kexinit payload
  unfold CommonSession.Metered
  rw [hbuffer, h.cipher]
  exact ⟨hsealed.known, hsealed.counted⟩

omit [SessionConfig C] in
/-- An encrypted session without an exchange in progress can start one. -/
theorem phase_of_none (hlost : s.NotLost) (henc : s.encrypted.isSome = true)
    (hnone : ¬ s.exchanging.isSome = true) : s.phase = .idle := by
  have hphase := hlost henc
  obtain ⟨enc, hsome⟩ := Option.isSome_iff_exists.mp henc
  rw [exchanging_some hsome, Option.not_isSome_iff_eq_none] at hnone
  simp only [CommonSession.phase, hsome, Encrypted.phase, hnone] at hphase ⊢
  by_cases hex : enc.exchange.isSome = true
  · rw [if_pos hex]
  · rw [if_neg hex] at hphase
    exact absurd rfl hphase

/-- Before its first turn a loop has read nothing. -/
theorem Loop.start_below (hd : d.Courses E) (hbehaves : d.Behaves fun _ => True)
    (hE : ∀ s buf t, (d.common s).Sound → E (d.common s) buf t →
      After (d.common s) (d.installs (.reply s buf : Act S M)) t)
    {s : S} (hs : (d.common s).Initial) (output : Bytes) : (Loop.start d s output).Below d := by
  have hinbound := start_inbound (d := d) s output
  simp only [inbound, Prod.mk.injEq] at hinbound
  have hhistory : (start d s output).buffer.history = [] := hinbound.2.2.2
  have hfollows := hd.follows_after hbehaves hE (d.common s)
  have hstart := start_follows hfollows (h := false) ⟨hs.sound, .stays (.refl _)⟩ output
  constructor
  · intro _ r hr
    rw [hhistory] at hr
    cases hr
  · intro hrunning hidle
    have hwaiting : (d.common s).phase ≠ .idle := by
      rw [hs.phase_eq]
      decide
    have hafter := (hstart.running hrunning).2
    generalize d.common (start d s output).session = t at hidle hafter
    cases hafter with
    | stays h => exact absurd hidle (h.busy hwaiting)

/-- A loop that has reached the read limit without an exchange in progress. -/
theorem Loop.not_limited {l : Loop S} (hrunning : l.stage = .running)
    (henc : (d.common l.session).encrypted.isSome = true)
    (hread : (SessionConfig.limits (d.common l.session).config).rekeyReadLimit ≤ l.bytesRead d)
    (hnone : (d.common l.session).exchanging.isSome = false) : ¬ l.Limited d := by
  intro hlimited
  have hsome := hlimited hrunning henc (.inr hread)
  rw [hnone] at hsome
  cases hsome

/-- In a run in which no KEXINIT comes too late and the reads stay within
their limit, the limits are kept. -/
theorem Driver.Courses.run_limited (hd : d.Courses E) (hbehaves : d.Behaves fun _ => True)
    (hE : ∀ s buf t, (d.common s).Sound → E (d.common s) buf t →
      After (d.common s) (d.installs (.reply s buf : Act S M)) t)
    {s : S} (hs : (d.common s).Initial) (output : Bytes) (events : List (Event M))
    (hallowed : Loop.Along (Loop.iterate d) (fun l e =>
      Loop.Allows d noLateKexInit l e ∧ l.ReadsWithin d e) (Loop.start d s output) events) :
    ((Loop.start d s output).run d events).Limited d := by
  have hinv := writesWithin_invariant (C := C)
  have hlost : (d.common s).NotLost := NotLost.of_phase (by rw [hs.phase_eq]; decide)
  have hstart := Loop.start_holds hbehaves hinv ⟨hlost, hs.metered⟩ hs.sound output
  have hbelow := Loop.start_below hd hbehaves hE hs output
  have hrun := Loop.Along.kept (I := fun l =>
      Loop.Holds d CommonSession.WritesWithin (fun s => s.NotLost ∧ s.Metered) (fun _ => True) l ∧
        l.Below d)
    (fun l e hl hstep => ⟨Loop.iterate_holds hbehaves hinv hl.1 e hstep.1,
      hl.2.iterate hd hbehaves hE (fun h => (hl.1.running h).2) hstep.2⟩)
    ⟨hstart, hbelow⟩ hallowed
  intro hrunning henc hreach
  obtain ⟨hwrites, -⟩ := hrun.1.running hrunning
  by_contra hnone
  have hidle := phase_of_none hwrites.notLost henc hnone
  rcases hreach with hwritten | hread
  · exact Nat.not_le_of_lt (hwrites.below hidle) hwritten
  · exact Nat.not_le_of_lt (hrun.2.below hrunning hidle) hread

end

/-! ### The roles -/

namespace Server

variable {handler : Handler} {s : Session} {t : CommonSession Config} {buf : Bytes}

/-- What a packet of the server's exchange makes of its keys. -/
theorem Exchanged.after (h : Exchanged s.common buf t) (hs : s.common.Sound) :
    After s.common ((driver handler).installs (.reply s buf)) t := by
  refine after_of_advance (d := driver handler) (h.advance hs) fun hphase => ?_
  change s.common.phase = .newKeys at hphase
  cases h with
  | skip h =>
    rcases h with hlost | ⟨-, hwaiting, -⟩
    · cases hphase.symm.trans hlost
    · cases hphase.symm.trans hwaiting
  | answer hk hhead hread hkey => cases (phase_of_exchanging hk).symm.trans hphase
  | serve henc hrekey hex hhead hread hkey =>
    simp [CommonSession.phase, henc, Encrypted.phase, hrekey, hex] at hphase
  | guess hk hhead hguess => cases (phase_of_exchanging hk).symm.trans hphase
  | finish hk hreplies => cases (phase_of_exchanging hk).symm.trans hphase
  | first henc hk hhead => exact .inl ⟨hhead, rfl, Nat.lt_succ_self _⟩
  | install henc hrekey hhead => exact .inl ⟨hhead, rfl, Nat.lt_succ_self _⟩
  | drop henc hrekey hdrop hhead =>
    refine .inr ⟨?_, stays_drop hs henc hrekey⟩
    rw [hhead]
    decide

end Server

namespace Client

variable {app : Application} {s : Session} {t : CommonSession Config} {buf : Bytes}

/-- What a packet of the client's exchange makes of its keys. -/
theorem Exchanged.after (h : Exchanged s.common buf t) (hs : s.common.Sound) :
    After s.common ((driver app).installs (.reply s buf)) t := by
  refine after_of_advance (d := driver app) (h.advance hs) fun hphase => ?_
  change s.common.phase = .newKeys at hphase
  cases h with
  | skip h => cases hphase.symm.trans h
  | answer hk hhead hread => cases (phase_of_exchanging hk).symm.trans hphase
  | guess hk hhead hguess => cases (phase_of_exchanging hk).symm.trans hphase
  | finish hk hguess hhead hchecks => cases (phase_of_exchanging hk).symm.trans hphase
  | first henc hk hhead => exact .inl ⟨hhead, rfl, Nat.lt_succ_self _⟩
  | install henc hrekey hhead => exact .inl ⟨hhead, rfl, Nat.lt_succ_self _⟩
  | drop henc hrekey hdrop hhead =>
    refine .inr ⟨?_, stays_drop hs henc hrekey⟩
    rw [hhead]
    decide

end Client

end

/-! ### Both roles -/

/-- In every run of either role in which no KEXINIT comes too late, and no
event brings the bytes read to the read limit while no exchange is in progress,
an exchange is in progress between two events whenever a limit is reached
under the keys in use. -/
theorem limited_of_within [Deps] :
    (∀ config handler sshid world l, Server.runStream config handler sshid world = .ok l →
      ∀ events, Loop.Along (Loop.iterate (Server.driver handler)) (fun l e =>
          Loop.Allows (Server.driver handler) noLateKexInit l e ∧
            l.ReadsWithin (Server.driver handler) e) l events →
        (l.run (Server.driver handler) events).Limited (Server.driver handler)) ∧
    ∀ config app sshid world l, Client.connectStream config app sshid world = .ok l →
      ∀ events, Loop.Along (Loop.iterate (Client.driver app)) (fun l e =>
          Loop.Allows (Client.driver app) noLateKexInit l e ∧
            l.ReadsWithin (Client.driver app) e) l events →
        (l.run (Client.driver app) events).Limited (Client.driver app) := by
  constructor
  · intro config handler sshid world l hl events hallowed
    obtain ⟨s, output, hs, rfl⟩ := Server.runStream_start hl
    have hbehaves := Server.driver_behaves (P := fun _ => True) (fun _ _ => trivial) handler
    exact (Server.driver_courses handler).run_limited hbehaves
      (fun s buf t hsound hexchanged => Server.Exchanged.after hexchanged hsound) hs output events
      hallowed
  · intro config app sshid world l hl events hallowed
    obtain ⟨s, output, hs, rfl⟩ := Client.connectStream_start hl
    have hbehaves := Client.driver_behaves (P := fun _ => True) (fun _ _ => trivial) app
      fun _ _ _ _ => trivial
    exact (Client.driver_courses app).run_limited hbehaves
      (fun s buf t hsound hexchanged => Client.Exchanged.after hexchanged hsound) hs output events
      hallowed

/-- A server up to the service request, and a client behind its first exchange. -/
theorem limited_of_within_handshake :
    letI := Concrete.deps
    (Concrete.server.run (Server.driver Concrete.handler) Concrete.authenticating).Limited
      (Server.driver Concrete.handler) ∧
    (Concrete.client.run (Client.driver Concrete.application) Concrete.answers).Limited
      (Client.driver Concrete.application) := by
  have hlimited := @limited_of_within Concrete.deps
  have hserver := hlimited.1 Concrete.serverConfig Concrete.handler Concrete.clientConfig.clientId
    Concrete.world Concrete.server (Concrete.runStream_eq _) Concrete.authenticating
  have hclient := hlimited.2 Concrete.clientConfig Concrete.application
    Concrete.serverConfig.serverId Concrete.world Concrete.client Concrete.connectStream_eq
    Concrete.answers
  exact ⟨hserver (by decide +kernel), hclient (by decide +kernel)⟩

/-- A server that is to start a re-exchange once it has read 16 bytes. -/
def Concrete.attentiveConfig : Server.Config := { serverConfig with limits := ⟨2 ^ 30, 16, 3600⟩ }

/-- That server's loop before its first turn. -/
def Concrete.attentive : @Loop (@Server.Session deps) :=
  letI := deps
  returned (Server.runStream attentiveConfig handler clientConfig.clientId world)
    (by decide +kernel)

theorem Concrete.attentive_eq :
    letI := deps
    Server.runStream attentiveConfig handler clientConfig.clientId world = .ok attentive :=
  returned_spec _ _

/-- The service request passes that limit, and no re-exchange starts. -/
theorem Concrete.attentive_passes :
    letI := Concrete.deps
    ¬ (attentive.run (Server.driver handler) authenticating).Limited (Server.driver handler) := by
  refine @Loop.not_limited deps Server.Config (@Server.Session deps) (UInt32 × ChannelMsg) _
    (@Server.driver deps handler) _ ?_ ?_ ?_ ?_
  all_goals decide +kernel

/-- The service request has 17 bytes, one more than the limit, and no re-exchange starts. -/
theorem read_limit_passed :
    letI := Concrete.deps
    let d := Server.driver Concrete.handler
    let l := Concrete.attentive.run d Concrete.authenticating
    (l.stage = .running ∧ l.session.common.encrypted.isSome = true ∧
      l.session.common.config.limits.rekeyReadLimit = 16 ∧ l.bytesRead d = 17 ∧
      l.session.common.exchanging.isSome = false) ∧
    ¬ ∀ config handler sshid world l, Server.runStream config handler sshid world = .ok l →
      ∀ events, (l.run (Server.driver handler) events).Limited (Server.driver handler) := by
  constructor
  · decide +kernel
  · intro hlimited
    have hrun := hlimited Concrete.attentiveConfig Concrete.handler Concrete.clientConfig.clientId
      Concrete.world Concrete.attentive Concrete.attentive_eq Concrete.authenticating
    exact Concrete.attentive_passes hrun

end Thrussh
