import Thrussh.Runs

/-!
# Invariants of whole sessions

The rule for invariants that speak of more than the common session: what
each program of a role keeps when it returns, the role's running loop keeps,
and what each leaves when it fails holds wherever a run ends. What is kept
may depend on the acts of the run: the packets given to `reply` and the local
messages received. A packet that is given to `reply` makes of the loop what
`reply` makes of its session.
-/

namespace Thrussh

open Lib

variable [Deps] {C S M : Type} [SessionConfig C]

/-- What every program of a role keeps when it returns, and what holds also when it fails. -/
structure Driver.Keeps (d : Driver C S M) (inv ended : S → Prop) : Prop where
  /-- What is kept holds in the end. -/
  leave : ∀ s, inv s → ended s
  /-- A packet is decompressed. -/
  inflate : ∀ s enc decompress, (d.common s).encrypted = some enc → inv s →
    inv (d.setCommon { d.common s with
      encrypted := some { enc with decompress := decompress } } s)
  /-- A packet is served. -/
  reply : ∀ s buf, inv s → Ends (d.reply buf) s (fun _ t => inv t) ended
  /-- A local message is served. -/
  message : ∀ s m, inv s → Ends (d.message m) s (fun _ t => inv t) ended
  /-- What is sealed is written. -/
  flush : ∀ s, inv s →
    Ends (zoom d.common d.setCommon flush) s (fun _ t => inv (Loop.clearWrite d t)) ended
  /-- The session settles. -/
  settle : ∀ s, inv s → inv (d.settle s)

/-- What an event hands to a program of the role, with the session it is handed to. -/
inductive Act (S M : Type) where
  /-- A packet is given to `reply`. -/
  | reply (s : S) (buf : Bytes)
  /-- A local message is received. -/
  | message (s : S) (m : Option M)

/-- What every program of a role keeps that depends on the acts of the run so
far; `next` says what an act adds to them. -/
structure Driver.Follows {H : Type} (d : Driver C S M) (next : H → Act S M → H)
    (inv ended : H → S → Prop) : Prop where
  /-- What is kept holds in the end. -/
  leave : ∀ h s, inv h s → ended h s
  /-- A packet is decompressed. -/
  inflate : ∀ h s enc decompress, (d.common s).encrypted = some enc → inv h s →
    inv h (d.setCommon { d.common s with
      encrypted := some { enc with decompress := decompress } } s)
  /-- A packet is served. -/
  reply : ∀ h s buf, inv h s →
    Ends (d.reply buf) s (fun _ t => inv (next h (.reply s buf)) t) (ended (next h (.reply s buf)))
  /-- A local message is served; one is received only by an encrypted session without a re-exchange. -/
  message : ∀ h s m enc, inv h s → (d.common s).encrypted = some enc → enc.rekey = none →
    Ends (d.message m) s (fun _ t => inv (next h (.message s m)) t) (ended (next h (.message s m)))
  /-- What is sealed is written. -/
  flush : ∀ h s, inv h s →
    Ends (zoom d.common d.setCommon flush) s (fun _ t => inv h (Loop.clearWrite d t)) (ended h)
  /-- The session settles. -/
  settle : ∀ h s, inv h s → inv h (d.settle s)

/-- What holds of a role's session between two events and what in the course of
one, each depending on the acts of the run so far; `next` says what an act
adds to them. -/
structure Driver.Cycles {H : Type} (d : Driver C S M) (next : H → Act S M → H)
    (inv mid ended : H → S → Prop) : Prop where
  /-- What holds between two events holds in the end. -/
  leave : ∀ h s, inv h s → ended h s
  /-- So does what holds in the course of one. -/
  close : ∀ h s, mid h s → ended h s
  /-- A packet is decompressed. -/
  inflate : ∀ h s enc decompress, (d.common s).encrypted = some enc → inv h s →
    inv h (d.setCommon { d.common s with
      encrypted := some { enc with decompress := decompress } } s)
  /-- A packet is served. -/
  reply : ∀ h s buf, inv h s →
    Ends (d.reply buf) s (fun _ t => mid (next h (.reply s buf)) t) (ended (next h (.reply s buf)))
  /-- A local message is served; one is received only by an encrypted session without a re-exchange. -/
  message : ∀ h s m enc, inv h s → (d.common s).encrypted = some enc → enc.rekey = none →
    Ends (d.message m) s (fun _ t => mid (next h (.message s m)) t) (ended (next h (.message s m)))
  /-- What is sealed is written. -/
  flush : ∀ h s, mid h s →
    Ends (zoom d.common d.setCommon flush) s (fun _ t => mid h (Loop.clearWrite d t)) (ended h)
  /-- The session settles. -/
  settle : ∀ h s, mid h s → inv h (d.settle s)

/-- What is kept whatever happens. -/
theorem Driver.Keeps.follows {H : Type} {d : Driver C S M} {inv ended : S → Prop}
    (hd : d.Keeps inv ended) (next : H → Act S M → H) :
    d.Follows next (fun _ => inv) fun _ => ended where
  leave _ := hd.leave
  inflate _ := hd.inflate
  reply _ := hd.reply
  message _ s m _ hs _ _ := hd.message s m hs
  flush _ := hd.flush
  settle _ := hd.settle

/-- What is kept holds also in the course of an event. -/
theorem Driver.Follows.cycles {H : Type} {d : Driver C S M} {next : H → Act S M → H}
    {inv ended : H → S → Prop} (hd : d.Follows next inv ended) : d.Cycles next inv inv ended :=
  { hd with close := hd.leave }

/-- Whether the packets given to `reply` so far were allowed. -/
def within (allowed : S → Bytes → Prop) (h : Prop) : Act S M → Prop
  | .reply s buf => h ∧ allowed s buf
  | .message _ _ => h

namespace Loop

/-- What a turn gives to `reply` when a read has left a buffer: the session,
whose decompressor has moved on, and the payload. -/
def givenOf (d : Driver C S M) (l : Loop S) (b : SSHBuffer) : Option (S × Bytes) :=
  if b.buffer.length < 5 then none
  else match (d.common l.session).encrypted with
    | some enc =>
      match enc.decompress.decompress (b.buffer.drop 5) with
      | .ok (buf, decompress) =>
        if served buf then some (d.setCommon { d.common l.session with
          encrypted := some { enc with decompress := decompress } } l.session, buf)
        else none
      | .error _ => none
    | none => if served (b.buffer.drop 5) then some (l.session, b.buffer.drop 5) else none

/-- What an event gives to `reply`. -/
def given (d : Driver C S M) (l : Loop S) (e : Event M) : Option (S × Bytes) :=
  match e, l.stage, l.nextRead d with
  | .read, .running, .ok _ buffer _ => givenOf d l buffer
  | .read, .running, .err _ buffer _ => if d.checksRead then none else givenOf d l buffer
  | _, _, _ => none

/-- What an event hands to a program of the role. -/
def acted (d : Driver C S M) (l : Loop S) (e : Event M) : Option (Act S M) :=
  match e with
  | .message m taken =>
    if l.stage = .running ∧ (l.isRekeying d || !l.canHaveTaken d taken) = false then
      some (.message l.session m)
    else none
  | e => (given d l e).map fun p => .reply p.1 p.2

/-- What the acts of a run add up to. -/
def history {H : Type} (d : Driver C S M) (next : H → Act S M → H) :
    H → Loop S → List (Event M) → H
  | h, _, [] => h
  | h, l, e :: events => history d next ((acted d l e).elim h (next h)) (iterate d l e) events

theorem history_append {H : Type} {d : Driver C S M} {next : H → Act S M → H} (h : H)
    (l : Loop S) (events events' : List (Event M)) :
    history d next h l (events ++ events') =
      history d next (history d next h l events) (run d l events) events' := by
  induction events generalizing h l with
  | nil => rfl
  | cons e events ih => exact ih _ _

section
variable {d : Driver C S M} {inv ended : S → Prop}

/-- What holds of the session of a loop. -/
structure Kept (inv ended : S → Prop) (l : Loop S) : Prop where
  /-- While it runs. -/
  running : l.stage = .running → inv l.session
  /-- In the end. -/
  ended : ended l.session

omit [Deps] [SessionConfig C] in
theorem Kept.of_stage {l : Loop S} (h : l.stage ≠ .running) (hended : ended l.session) :
    Kept inv ended l :=
  ⟨fun hrunning => absurd hrunning h, hended⟩

omit [SessionConfig C] in
theorem leave_stage (l : Loop S) : (l.leave d).stage ≠ .running := by
  unfold leave
  dsimp only
  split <;> simp

omit [Deps] in
theorem fail_kept {l : Loop S} {s : S} {e : Fault} (h : ended s) : Kept inv ended (l.fail s e) :=
  .of_stage (by simp [fail]) h

end

section
variable {H : Type} {d : Driver C S M} {next : H → Act S M → H} {inv mid ended : H → S → Prop}
  {h : H}

theorem leave_cycles (hd : d.Cycles next inv mid ended) {l : Loop S} (hl : inv h l.session) :
    Kept (inv h) (ended h) (l.leave d) :=
  .of_stage (leave_stage l) (hd.leave _ _ hl)

theorem endTurn_cycles (hd : d.Cycles next inv mid ended) {l : Loop S} (hl : mid h l.session) :
    Kept (inv h) (ended h) (endTurn d l) := by
  have hflush := hd.flush h l.session hl
  unfold Ends at hflush
  unfold endTurn
  cases hresult : zoom d.common d.setCommon flush l.session with
  | error e s =>
    rw [hresult] at hflush
    exact fail_kept hflush
  | ok u s =>
    rw [hresult] at hflush
    have hs := hd.settle _ _ hflush
    dsimp only
    split
    · exact leave_cycles hd hs
    · exact ⟨fun _ => hs, hd.leave _ _ hs⟩

theorem serve_cycles (hd : d.Cycles next inv mid ended) {l : Loop S} (hl : inv h l.session)
    (buf : Bytes) :
    let h' := if served buf then next h (.reply l.session buf) else h
    Kept (inv h') (ended h') (serve d l buf) := by
  have hsame : Kept (inv h) (ended h) l := ⟨fun _ => hl, hd.leave _ _ hl⟩
  unfold serve
  cases buf with
  | nil => exact hsame
  | cons m rest =>
    by_cases hdisconnect : m = msg.DISCONNECT
    · simp only [served, hdisconnect, if_true, ne_eq, not_true_eq_false, decide_false,
        Bool.false_and, Bool.false_eq_true, if_false]
      exact leave_cycles hd hl
    · by_cases hsmall : m ≤ 4
      · simp only [served, if_neg hdisconnect, hsmall, decide_true, Bool.not_true,
          Bool.and_false, Bool.false_eq_true, if_false]
        exact hsame
      · have hserved : served (m :: rest) = true := by simp [served, hdisconnect, hsmall]
        simp only [if_neg hdisconnect, if_neg hsmall, if_pos hserved]
        have hreply := hd.reply h l.session (m :: rest) hl
        unfold Ends at hreply
        cases hresult : d.reply (m :: rest) l.session with
        | ok u s =>
          rw [hresult] at hreply
          exact endTurn_cycles hd hreply
        | error e s =>
          rw [hresult] at hreply
          exact fail_kept hreply

omit [SessionConfig C] in
/-- Local messages are received by encrypted sessions without a re-exchange. -/
theorem idle_of_not_rekeying {l : Loop S} (h : l.isRekeying d = false) :
    ∃ enc, (d.common l.session).encrypted = some enc ∧ enc.rekey = none := by
  unfold isRekeying at h
  cases henc : (d.common l.session).encrypted with
  | none =>
    rw [henc] at h
    cases h
  | some enc =>
    rw [henc] at h
    exact ⟨enc, rfl, by simpa using h⟩

theorem handle_cycles (hd : d.Cycles next inv mid ended) {l : Loop S} (hl : inv h l.session)
    (fresh : Bool) :
    let h' := (givenOf d l l.buffer).elim h fun p => next h (.reply p.1 p.2)
    Kept (inv h') (ended h') (handle d l fresh) := by
  unfold handle givenOf
  by_cases hshort : l.buffer.buffer.length < 5
  · simp only [if_pos hshort]
    exact leave_cycles hd hl
  · simp only [if_neg hshort]
    cases henc : (d.common l.session).encrypted with
    | none =>
      by_cases hserved : served (l.buffer.buffer.drop 5) = true
      · have hserve := serve_cycles hd (l := l.pass (l.buffer.buffer.drop 5) fresh) hl
          (l.buffer.buffer.drop 5)
        simp only [if_pos hserved] at hserve ⊢
        exact hserve
      · have hserve := serve_cycles hd hl (l.buffer.buffer.drop 5)
        simp only [if_neg hserved] at hserve ⊢
        exact hserve
    | some enc =>
      dsimp only
      cases hdecompress : enc.decompress.decompress (l.buffer.buffer.drop 5) with
      | error e =>
        cases e with
        | error e => exact leave_cycles hd (by exact hl)
        | panic => exact fail_kept (hd.leave _ _ hl)
        | overflow => exact fail_kept (hd.leave _ _ hl)
        | diverge => exact fail_kept (hd.leave _ _ hl)
      | ok res =>
        obtain ⟨buf, decompress⟩ := res
        have hserve := serve_cycles hd (l := { l.pass (l.buffer.buffer.drop 5) fresh with
          session := d.setCommon { d.common l.session with
            encrypted := some { enc with decompress := decompress } } l.session })
          (hd.inflate _ _ enc decompress henc hl) buf
        dsimp only at hserve ⊢
        by_cases hserved : served buf = true
        · simp only [if_pos hserved] at hserve ⊢
          exact hserve
        · simp only [if_neg hserved] at hserve ⊢
          exact hserve

/-- What holds between two events holds after each. -/
theorem iterate_cycles (hd : d.Cycles next inv mid ended) {l : Loop S}
    (hl : Kept (inv h) (ended h) l) (e : Event M) :
    let h' := (acted d l e).elim h (next h)
    Kept (inv h') (ended h') (iterate d l e) := by
  have hsame : ∀ l' : Loop S, l'.session = l.session → l'.stage = l.stage ∨ l'.stage ≠ .running →
      Kept (inv h) (ended h) l' := by
    intro l' hsession hstage
    refine ⟨fun hrunning => ?_, ?_⟩
    · rw [hsession]
      exact hl.running ((hstage.resolve_right fun hnot => hnot hrunning) ▸ hrunning)
    · rw [hsession]
      exact hl.ended
  cases e with
  | arrive bytes =>
    simp only [acted, given, Option.map_none, Option.elim_none]
    unfold iterate
    dsimp only
    split
    · exact hl
    · exact hsame _ rfl (.inl rfl)
  | close =>
    simp only [acted, given, Option.map_none, Option.elim_none]
    exact hsame _ rfl (.inl rfl)
  | timeout =>
    simp only [acted, given, Option.map_none, Option.elim_none]
    unfold iterate
    dsimp only
    split
    · exact hsame _ rfl (.inr (leave_stage _))
    · exact hl
  | message m taken =>
    unfold iterate
    by_cases hstage : l.stage = .running
    · simp only [acted, hstage, true_and, if_true]
      unfold turnMessage
      by_cases hcannot : (l.isRekeying d || !l.canHaveTaken d taken) = true
      · simp only [hcannot, Bool.true_eq_false, if_false, if_true, Option.elim_none]
        exact hl
      · simp only [hcannot, if_true, if_false, Bool.false_eq_true, Option.elim_some]
        have hidle : l.isRekeying d = false := by
          simp only [Bool.not_eq_true, Bool.or_eq_false_iff] at hcannot
          exact hcannot.1
        obtain ⟨enc, henc, hrekey⟩ := idle_of_not_rekeying hidle
        have hmessage := hd.message h l.session m enc (hl.running hstage) henc hrekey
        unfold Ends at hmessage
        cases hresult : d.message m l.session with
        | error e s =>
          rw [hresult] at hmessage
          exact fail_kept hmessage
        | ok b s =>
          rw [hresult] at hmessage
          cases b with
          | true => exact .of_stage (leave_stage _) (hd.close _ _ hmessage)
          | false => exact endTurn_cycles hd hmessage
    · simp only [acted, hstage, false_and, if_false, Option.elim_none]
      exact hl
  | read =>
    cases hstage : l.stage with
    | running =>
      have hsession := hl.running hstage
      simp only [iterate, acted, given, hstage, turnRead]
      cases l.nextRead d with
      | pending => exact hl
      | panic => exact fail_kept hl.ended
      | ok n buffer rest =>
        have hhandle := handle_cycles hd (l := { l with
          buffer := buffer, stream := rest, stage := .running }) (by exact hsession) true
        rw [Option.elim_map]
        exact hhandle
      | err e buffer rest =>
        dsimp only
        by_cases hchecks : d.checksRead = true
        · simp only [if_pos hchecks]
          exact leave_cycles hd (by exact hsession)
        · have hhandle := handle_cycles hd (l := { l with
            buffer := buffer, stream := rest, stage := .running }) (by exact hsession) false
          simp only [if_neg hchecks]
          rw [Option.elim_map]
          exact hhandle
    | draining =>
      simp only [iterate, acted, given, hstage, drain, Option.map_none, Option.elim_none]
      split
      · exact hl
      · exact fail_kept hl.ended
      · split
        · exact hsame _ rfl (.inr (by simp))
        · exact hsame _ rfl (.inr (by simp))
      · exact hsame _ rfl (.inr (by simp))
    | finished result =>
      simp only [iterate, acted, given, hstage, Option.map_none, Option.elim_none]
      exact hl

/-- What holds between two events holds after every run. -/
theorem run_cycles (hd : d.Cycles next inv mid ended) {l : Loop S}
    (hl : Kept (inv h) (ended h) l) (events : List (Event M)) :
    Kept (inv (history d next h l events)) (ended (history d next h l events))
      (run d l events) := by
  induction events generalizing h l with
  | nil => exact hl
  | cons e events ih => exact ih (iterate_cycles hd hl e)

/-- One event keeps what each program of the role keeps. -/
theorem iterate_follows (hd : d.Follows next inv ended) {l : Loop S}
    (hl : Kept (inv h) (ended h) l) (e : Event M) :
    let h' := (acted d l e).elim h (next h)
    Kept (inv h') (ended h') (iterate d l e) :=
  iterate_cycles hd.cycles hl e

/-- Every run keeps what each program of the role keeps. -/
theorem run_follows (hd : d.Follows next inv ended) {l : Loop S} (hl : Kept (inv h) (ended h) l)
    (events : List (Event M)) :
    Kept (inv (history d next h l events)) (ended (history d next h l events))
      (run d l events) :=
  run_cycles hd.cycles hl events

/-- The session of a loop that has just been started is the one it was started with. -/
theorem start_follows (hd : d.Follows next inv ended) {s : S} (hs : inv h s) (output : Bytes) :
    Kept (inv h) (ended h) (start d s output) := by
  have hflush := hd.flush h s hs
  unfold Ends at hflush
  unfold start
  dsimp only
  cases hresult : zoom d.common d.setCommon flush s with
  | error e t =>
    rw [hresult] at hflush
    exact fail_kept hflush
  | ok u t =>
    rw [hresult] at hflush
    dsimp only
    split
    · exact leave_cycles hd.cycles (by exact hflush)
    · exact ⟨fun _ => hflush, hd.leave _ _ hflush⟩

end

section
variable {d : Driver C S M} {inv ended : S → Prop}

/-- One event keeps what each program of the role keeps. -/
theorem iterate_kept (hd : d.Keeps inv ended) {l : Loop S} (h : Kept inv ended l) (e : Event M) :
    Kept inv ended (iterate d l e) :=
  iterate_follows (hd.follows fun _ _ => ()) (h := ()) h e

/-- Every run keeps what each program of the role keeps. -/
theorem run_kept (hd : d.Keeps inv ended) {l : Loop S} (h : Kept inv ended l)
    (events : List (Event M)) : Kept inv ended (run d l events) :=
  run_follows (hd.follows fun _ _ => ()) (h := ()) h events

/-- The session of a loop that has just been started is the one it was started with. -/
theorem start_kept (hd : d.Keeps inv ended) {s : S} (h : inv s) (output : Bytes) :
    Kept inv ended (start d s output) :=
  start_follows (hd.follows fun _ _ => ()) (h := ()) h output

/-- What serving a payload makes of a loop: the session with which the event
ends is the one that `reply` leaves, flushed and settled if it returns. -/
inductive Replies (d : Driver C S M) (s : S) (buf : Bytes) (t : S) : Prop where
  /-- `reply` returns. -/
  | returned {u v : S} (hreply : d.reply buf s = .ok () u)
    (hflush : zoom d.common d.setCommon flush u = .ok () v)
    (ht : t = d.settle (clearWrite d v))
  /-- `reply` returns, and the flush after it fails. -/
  | stuck {u : S} {e : Fault} (hreply : d.reply buf s = .ok () u)
    (hflush : zoom d.common d.setCommon flush u = .error e t)
  /-- `reply` fails. -/
  | failed {e : Fault} (hreply : d.reply buf s = .error e t)

theorem endTurn_session {d : Driver C S M} (l : Loop S) :
    match zoom d.common d.setCommon flush l.session with
    | .ok _ v => (endTurn d l).session = d.settle (clearWrite d v)
    | .error _ v => (endTurn d l).session = v := by
  unfold endTurn
  cases zoom d.common d.setCommon flush l.session with
  | error e v => rfl
  | ok u v =>
    dsimp only
    split
    · rfl
    · rfl

theorem serve_replies {l : Loop S} {buf : Bytes} (h : served buf = true) :
    Replies d l.session buf (serve d l buf).session := by
  cases buf with
  | nil => cases h
  | cons m rest =>
    simp only [served, Bool.and_eq_true, decide_eq_true_eq, Bool.not_eq_eq_eq_not, Bool.not_true,
      decide_eq_false_iff_not] at h
    unfold serve
    dsimp only
    rw [if_neg h.1, if_neg h.2]
    cases hreply : d.reply (m :: rest) l.session with
    | error e t => exact .failed hreply
    | ok u t =>
      have hend := endTurn_session (d := d) { l with session := t }
      cases hflush : zoom d.common d.setCommon flush t with
      | error e v =>
        simp only [hflush] at hend
        rw [hend]
        exact .stuck hreply hflush
      | ok u v =>
        simp only [hflush] at hend
        exact .returned hreply hflush hend

/-- The session that `reply` is given with a payload: decompression has moved on. -/
inductive Inflated (d : Driver C S M) (s : S) : S → Prop where
  /-- In the clear. -/
  | clear (henc : (d.common s).encrypted = none) : Inflated d s s
  /-- On an encrypted session. -/
  | encrypted {enc : Encrypted} (decompress : Decompress)
    (henc : (d.common s).encrypted = some enc) : Inflated d s (d.setCommon { d.common s with
      encrypted := some { enc with decompress := decompress } } s)

omit [SessionConfig C] in
theorem payloadOf_eq (l : Loop S) (b : SSHBuffer) :
    payloadOf d l b = (givenOf d l b).map Prod.snd := by
  unfold payloadOf givenOf
  by_cases hshort : b.buffer.length < 5
  · rw [if_pos hshort, if_pos hshort]
    rfl
  rw [if_neg hshort, if_neg hshort]
  cases (d.common l.session).encrypted with
  | none =>
    dsimp only
    split <;> rfl
  | some enc =>
    dsimp only
    cases enc.decompress.decompress (b.buffer.drop 5) with
    | error e => rfl
    | ok res =>
      dsimp only
      split <;> rfl

omit [SessionConfig C] in
/-- What an event hands to `reply` is the payload it gives to it. -/
theorem handed_eq (l : Loop S) (e : Event M) : handed d l e = (given d l e).map Prod.snd := by
  cases e with
  | arrive bytes => rfl
  | close => rfl
  | timeout => rfl
  | message m taken => rfl
  | read =>
    cases hstage : l.stage with
    | draining => simp only [handed, given, hstage, Option.map_none]
    | finished result => simp only [handed, given, hstage, Option.map_none]
    | running =>
      cases hread : l.nextRead d with
      | pending => simp only [handed, given, hstage, hread, Option.map_none]
      | panic => simp only [handed, given, hstage, hread, Option.map_none]
      | ok n buffer rest =>
        simp only [handed, given, hstage, hread]
        exact payloadOf_eq l buffer
      | err e buffer rest =>
        simp only [handed, given, hstage, hread]
        split
        · rfl
        · exact payloadOf_eq l buffer

omit [SessionConfig C] in
/-- Only a running loop gives something to `reply`. -/
theorem given_running {l : Loop S} {e : Event M} {p : S × Bytes} (h : p ∈ given d l e) :
    l.stage = .running := by
  unfold given at h
  split at h
  · assumption
  · assumption
  · cases h

omit [SessionConfig C] in
/-- A session in the clear is given to `reply` as it is. -/
theorem given_clear {l : Loop S} (henc : (d.common l.session).encrypted = none) {e : Event M}
    {p : S × Bytes} (h : p ∈ given d l e) : p.1 = l.session := by
  have hgiven : ∀ b, p ∈ givenOf d l b → p.1 = l.session := by
    intro b hb
    unfold givenOf at hb
    rw [henc] at hb
    dsimp only at hb
    split at hb
    · cases hb
    · split at hb
      · cases hb
        rfl
      · cases hb
  unfold given at h
  split at h
  · exact hgiven _ h
  · split at h
    · cases h
    · exact hgiven _ h
  · cases h

omit [SessionConfig C] in
/-- Nothing is handed to a session in the clear but packets. -/
theorem acted_clear {l : Loop S} (henc : (d.common l.session).encrypted = none) {e : Event M}
    {act : Act S M} (h : acted d l e = some act) : ∃ buf, act = .reply l.session buf := by
  have hreply : (given d l e).map (fun p => Act.reply p.1 p.2) = some act →
      ∃ buf, act = .reply l.session buf := by
    intro hmap
    obtain ⟨p, hp, rfl⟩ := Option.map_eq_some_iff.mp hmap
    exact ⟨p.2, by rw [given_clear henc hp]⟩
  cases e with
  | message m taken =>
    simp only [acted, isRekeying, henc, Bool.true_or, Bool.true_eq_false, and_false, if_false] at h
    cases h
  | arrive bytes => exact hreply h
  | close => exact hreply h
  | read => exact hreply h
  | timeout => exact hreply h

section
variable {H : Type} {next : H → Act S M → H} {inv mid ended : H → S → Prop} {h : H}

theorem givenOf_cycles (hd : d.Cycles next inv mid ended) {l : Loop S} (hl : inv h l.session)
    {b : SSHBuffer} {p : S × Bytes} (hp : p ∈ givenOf d l b) : inv h p.1 := by
  unfold givenOf at hp
  by_cases hshort : b.buffer.length < 5
  · rw [if_pos hshort] at hp
    cases hp
  rw [if_neg hshort] at hp
  cases henc : (d.common l.session).encrypted with
  | none =>
    simp only [henc] at hp
    split at hp
    · cases hp
      exact hl
    · cases hp
  | some enc =>
    simp only [henc] at hp
    split at hp
    · split at hp
      · cases hp
        exact hd.inflate _ _ enc _ henc hl
      · cases hp
    · cases hp

/-- What holds between two events holds of a session that is given to `reply`. -/
theorem given_cycles (hd : d.Cycles next inv mid ended) {l : Loop S}
    (hl : Kept (inv h) (ended h) l) {e : Event M} {p : S × Bytes} (hp : p ∈ given d l e) :
    inv h p.1 := by
  have hsession := hl.running (given_running hp)
  unfold given at hp
  split at hp
  · exact givenOf_cycles hd hsession hp
  · split at hp
    · cases hp
    · exact givenOf_cycles hd hsession hp
  · cases hp

/-- What is kept holds of a session that is given to `reply`. -/
theorem given_follows (hd : d.Follows next inv ended) {l : Loop S}
    (hl : Kept (inv h) (ended h) l) {e : Event M} {p : S × Bytes} (hp : p ∈ given d l e) :
    inv h p.1 :=
  given_cycles hd.cycles hl hp

end

theorem given_kept (hd : d.Keeps inv ended) {l : Loop S} (hl : Kept inv ended l) {e : Event M}
    {p : S × Bytes} (h : p ∈ given d l e) : inv p.1 :=
  given_follows (hd.follows fun _ _ => ()) (h := ()) hl h

section
variable {allowed : S → Bytes → Prop}

/-- What holds while the packets are allowed is kept by an event that hands over such a packet. -/
theorem iterate_within (hd : d.Follows (within allowed) (fun h s => h → inv s)
    fun h s => h → ended s) {l : Loop S} (hl : Kept inv ended l) {e : Event M}
    (h : ∀ p ∈ given d l e, allowed p.1 p.2) : Kept inv ended (iterate d l e) := by
  have hstart : Kept (fun s => True → inv s) (fun s => True → ended s) l :=
    ⟨fun hrunning _ => hl.running hrunning, fun _ => hl.ended⟩
  have hkept := iterate_follows hd (h := True) hstart e
  have hgiven : ((given d l e).map fun p => (.reply p.1 p.2 : Act S M)).elim True
      (within allowed True) := by
    cases hg : given d l e with
    | none => exact trivial
    | some p => exact ⟨trivial, h p hg⟩
  have hallowed : (acted d l e).elim True (within allowed True) := by
    cases e with
    | message m taken =>
      unfold acted
      dsimp only
      split
      · exact trivial
      · exact trivial
    | arrive bytes => exact hgiven
    | close => exact hgiven
    | read => exact hgiven
    | timeout => exact hgiven
  exact ⟨fun hrunning => hkept.running hrunning hallowed, hkept.ended hallowed⟩

/-- It holds of the session that an event gives to `reply`. -/
theorem given_within (hd : d.Follows (within allowed) (fun h s => h → inv s)
    fun h s => h → ended s) {l : Loop S} (hl : Kept inv ended l) {e : Event M} {p : S × Bytes}
    (hp : p ∈ given d l e) : inv p.1 :=
  given_follows hd (h := True) ⟨fun hrunning _ => hl.running hrunning, fun _ => hl.ended⟩ hp trivial

/-- It holds of a loop that has just been started. -/
theorem start_within (hd : d.Follows (within allowed) (fun h s => h → inv s)
    fun h s => h → ended s) {s : S} (hs : inv s) (output : Bytes) :
    Kept inv ended (start d s output) := by
  have hkept := start_follows hd (h := True) (fun _ => hs) output
  exact ⟨fun hrunning => hkept.running hrunning trivial, hkept.ended trivial⟩

end

theorem handle_given {l : Loop S} {p : S × Bytes} (h : p ∈ givenOf d l l.buffer) (fresh : Bool) :
    Replies d p.1 p.2 (handle d l fresh).session := by
  unfold givenOf at h
  unfold handle
  by_cases hshort : l.buffer.buffer.length < 5
  · rw [if_pos hshort] at h
    cases h
  rw [if_neg hshort] at h ⊢
  cases henc : (d.common l.session).encrypted with
  | none =>
    simp only [henc] at h ⊢
    by_cases hserved : served (l.buffer.buffer.drop 5) = true
    · rw [if_pos hserved] at h ⊢
      cases h
      exact serve_replies (l := l.pass _ fresh) hserved
    · rw [if_neg hserved] at h
      cases h
  | some enc =>
    simp only [henc] at h ⊢
    cases hdecompress : enc.decompress.decompress (l.buffer.buffer.drop 5) with
    | error e =>
      simp only [hdecompress] at h
      cases h
    | ok res =>
      obtain ⟨payload, decompress⟩ := res
      simp only [hdecompress] at h ⊢
      by_cases hserved : served payload = true
      · rw [if_pos hserved] at h
        cases h
        exact serve_replies (l := { l.pass _ fresh with session := d.setCommon _ l.session }) hserved
      · rw [if_neg hserved] at h
        cases h

/-- An event that gives a session and a payload to `reply` ends in the
session that `reply` makes of them. -/
theorem iterate_given {l : Loop S} {e : Event M} {p : S × Bytes} (h : p ∈ given d l e) :
    Replies d p.1 p.2 (iterate d l e).session := by
  have hstage := given_running h
  cases e with
  | arrive bytes => cases h
  | close => cases h
  | timeout => cases h
  | message m taken => cases h
  | read =>
    simp only [given, hstage, iterate, turnRead] at h ⊢
    cases hread : l.nextRead d with
    | pending => simp [hread] at h
    | panic => simp [hread] at h
    | ok n buffer rest =>
      simp only [hread] at h ⊢
      exact handle_given (l := { l with
        buffer := buffer, stream := rest, stage := .running }) h true
    | err e buffer rest =>
      simp only [hread] at h ⊢
      by_cases hchecks : d.checksRead = true
      · rw [if_pos hchecks] at h
        cases h
      · rw [if_neg hchecks] at h ⊢
        exact handle_given (l := { l with
          buffer := buffer, stream := rest, stage := .running }) h false

end

end Loop

/-- Nothing is asked of a session. -/
theorem trivial_invariant (P : Bytes → Prop) :
    Invariant (C := C) P (fun _ _ => True) (fun _ => True) (fun _ => True) fun _ => True where
  enter _ _ := trivial
  leave _ _ := trivial
  inflate _ _ _ _ _ := trivial
  advance _ _ _ _ _ _ _ := trivial
  seals _ _ _ _ _ _ := trivial
  turn _ _ _ _ _ _ := trivial
  message _ _ _ _ _ _ _ _ := trivial
  flush _ _ _ _ _ := trivial
  settle _ _ _ _ := trivial

omit [SessionConfig C] in
/-- A step of a key exchange leaves an encrypted session encrypted. -/
theorem Advance.isSome {s t : CommonSession C} {buf : Bytes} (h : Advance buf s t)
    (hs : s.encrypted.isSome = true) : t.encrypted.isSome = true := by
  cases h with
  | skip h => rw [h, hs]
  | answer _ _ h _ => exact (isSome_of_rel h.encrypted).trans hs
  | serve _ _ h => exact (isSome_of_rel h.encrypted).trans hs
  | guess _ _ h => exact (isSome_of_rel h.encrypted).trans hs
  | finish _ _ h _ => exact (isSome_of_rel h.encrypted).trans hs
  | drop _ _ _ _ h => exact (isSome_of_rel h.encrypted).trans hs
  | install _ _ h =>
    have henc := h.encrypted
    rw [← Option.some_get hs] at henc
    obtain ⟨enc', henc', -⟩ := henc
    rw [henc']
    rfl

/-- An encrypted session stays encrypted. -/
theorem encrypted_invariant (P : Bytes → Prop) :
    Invariant (C := C) P (fun _ _ => True) (fun s => s.encrypted.isSome = true)
      (fun s => s.encrypted.isSome = true) fun s => s.encrypted.isSome = true where
  enter _ := id
  leave _ := id
  inflate _ _ _ _ _ := rfl
  advance _ _ _ hs _ _ h := h.isSome hs
  seals _ _ _ hs _ h := (isSome_of_rel h.encrypted).trans hs
  turn _ _ hs _ _ h := h.isSome_eq.trans hs
  message _ _ _ hs _ _ _ h := by
    induction h with
    | refl => exact hs
    | tail _ h ih => exact h.isSome_eq.trans ih
  flush s t hs _ h := by
    have hstep := flush_final s
    rw [h] at hstep
    exact (Turn.isSome_eq (P := P) (.busy (.flush hstep))).trans hs
  settle _ _ hs h := (isSome_of_rel h.encrypted).trans hs

/-- A packet leaves an encrypted session encrypted. -/
theorem Driver.Behaves.reply_encrypted {d : Driver C S M} {P : Bytes → Prop} (hd : d.Behaves P)
    {s : S} (hs : (d.common s).Sound) (henc : (d.common s).encrypted.isSome = true) (buf : Bytes) :
    Ends (d.reply buf) s (fun _ t => (d.common t).encrypted.isSome = true)
      fun t => (d.common t).encrypted.isSome = true := by
  have hmid := Loop.reply_mid hd (encrypted_invariant P) buf henc hs fun _ => trivial
  unfold Ends
  cases hreply : d.reply buf s with
  | ok u t =>
    rw [hreply] at hmid
    exact hmid.1
  | error e t =>
    rw [hreply] at hmid
    exact hmid

/-- A local message leaves an encrypted session encrypted. -/
theorem Driver.Behaves.message_encrypted {d : Driver C S M} {P : Bytes → Prop}
    (hd : d.Behaves P) {s : S} (henc : (d.common s).encrypted.isSome = true) (m : Option M) :
    Ends (d.message m) s (fun _ t => (d.common t).encrypted.isSome = true)
      fun t => (d.common t).encrypted.isSome = true := by
  have hfinal : (d.common (final (d.message m s))).encrypted.isSome = true := by
    have hlocals := hd.message s m
    generalize d.common (final (d.message m s)) = t at hlocals
    induction hlocals with
    | refl => exact henc
    | tail _ h ih => exact h.isSome_eq.trans ih
  unfold Ends
  cases hmessage : d.message m s with
  | ok b t =>
    rw [hmessage] at hfinal
    exact hfinal
  | error e t =>
    rw [hmessage] at hfinal
    exact hfinal

/-- An invariant of the common session that holds within a turn as between two
of them, and that local messages keep, is kept by every program of a role. -/
theorem Driver.Behaves.keeps {d : Driver C S M} {P : Bytes → Prop} (hd : d.Behaves P)
    {inv : CommonSession C → Prop} (hi : Invariant P (fun _ _ => True) inv inv inv)
    (hlocal : ∀ s t, inv s → Local P s t → inv t) :
    d.Keeps (fun s => (d.common s).Sound ∧ inv (d.common s)) fun s => inv (d.common s) where
  leave _ h := h.2
  inflate s enc decompress henc h := by
    rw [hd.common_set]
    refine ⟨h.1.of_records rfl ?_, hi.inflate _ enc decompress henc h.2⟩
    rw [henc]
    exact .some ⟨rfl, rfl⟩
  reply s buf h := by
    have hmid := Loop.reply_mid hd hi buf h.2 h.1 fun _ => trivial
    unfold Ends
    cases hrun : d.reply buf s with
    | ok a t =>
      rw [hrun] at hmid
      exact hmid.symm
    | error e t =>
      rw [hrun] at hmid
      exact hmid
  message s m h := by
    have hlocals := hd.message s m
    have hkept : ∀ t, Relation.ReflTransGen (Local P) (d.common s) t → inv t := by
      intro t ht
      induction ht with
      | refl => exact h.2
      | tail _ hstep ih => exact hlocal _ _ ih hstep
    unfold Ends
    cases hrun : d.message m s with
    | ok a t =>
      rw [hrun] at hlocals
      exact ⟨Loop.sound_of_locals hlocals h.1, hkept _ hlocals⟩
    | error e t =>
      rw [hrun] at hlocals
      exact hkept _ hlocals
  flush s h := by
    have hstep := flush_final (d.common s)
    unfold Ends zoom
    cases hflush : flush (d.common s) with
    | error e c =>
      rw [hflush] at hstep
      dsimp only
      rw [hd.common_set]
      exact hi.turn _ _ h.2 h.1 (fun _ => hstep) (.busy (.flush hstep))
    | ok u c =>
      rw [hflush] at hstep
      have hc := hstep.sound h.1
      dsimp only
      unfold Loop.clearWrite
      rw [hd.common_set, hd.common_set]
      exact ⟨⟨hc.fits, hc.exclusive, hc.first⟩, hi.flush _ _ h.2 h.1 hflush⟩
  settle s h :=
    have hstaged := hd.settle s
    ⟨h.1.of_records hstaged.records.1 hstaged.records.2, hi.settle _ _ h.2 hstaged⟩

/-- Both roles keep their sessions sound. -/
theorem Driver.Behaves.keeps_sound {d : Driver C S M} {P : Bytes → Prop} (hd : d.Behaves P) :
    d.Keeps (fun s => (d.common s).Sound) fun _ => True := by
  simpa only [and_true] using hd.keeps (trivial_invariant P) fun _ _ _ _ => trivial

/-- Two things that are kept are kept together. -/
theorem Driver.Keeps.and {d : Driver C S M} {inv inv' ended ended' : S → Prop}
    (h : d.Keeps inv ended) (h' : d.Keeps inv' ended') :
    d.Keeps (fun s => inv s ∧ inv' s) fun s => ended s ∧ ended' s where
  leave s hs := ⟨h.leave s hs.1, h'.leave s hs.2⟩
  inflate s enc decompress henc hs :=
    ⟨h.inflate s enc decompress henc hs.1, h'.inflate s enc decompress henc hs.2⟩
  reply s buf hs := (h.reply s buf hs.1).and (h'.reply s buf hs.2)
  message s m hs := (h.message s m hs.1).and (h'.message s m hs.2)
  flush s hs := (h.flush s hs.1).and (h'.flush s hs.2)
  settle s hs := ⟨h.settle s hs.1, h'.settle s hs.2⟩

end Thrussh
