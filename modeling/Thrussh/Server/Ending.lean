import Thrussh.Concrete
import Thrussh.Keeps

/-!
# The end of the stream

`run_stream` does not look at the result of `cipher::read`: when a read fails
at the end of the stream, it serves what the shared buffer holds. A payload
that is served ends the turn, which clears the buffer, and the next failing
read leaves the loop. A payload that is skipped by `continue` stays, and is
skipped again in every turn that follows.
-/

namespace Thrussh.Server

open Lib

section
variable [Deps]

/-- Whether the loop skips a payload by `continue`: it is empty, or of a type
up to 4 other than DISCONNECT. -/
def Skipped (buf : Bytes) : Prop :=
  ∀ m, buf.head? = some m → m ≠ msg.DISCONNECT ∧ m ≤ 4

instance (buf : Bytes) : Decidable (Skipped buf) :=
  match buf with
  | [] => isTrue fun _ h => by cases h
  | m :: _ => decidable_of_iff (m ≠ msg.DISCONNECT ∧ m ≤ 4)
    ⟨fun h _ hm => Option.some.inj hm ▸ h, fun h => h m rfl⟩

/-- Whether a payload that is decompressed `n` times over is skipped every time. -/
def SkipsFor (payload : Bytes) : Nat → Decompress → Prop
  | 0, _ => True
  | n + 1, decompress =>
    match decompress.decompress payload with
    | .ok (buf, decompress) => Skipped buf ∧ SkipsFor payload n decompress
    | .error _ => False

/-- The transport has reached the end of the stream: no whole packet is left. -/
structure AtEnd (handler : Handler) (l : Loop Session) : Prop where
  /-- The main loop is running. -/
  running : l.stage = .running
  /-- The peer has closed the stream. -/
  eof : l.eof = true
  /-- The next read fails. -/
  fails : ∃ b, l.nextRead (driver handler) = .err .unexpectedEof b []

/-- What the shared buffer holds after the next read. -/
def leftOver (handler : Handler) (l : Loop Session) : Bytes :=
  match l.nextRead (driver handler) with
  | .err _ b _ => b.buffer
  | _ => l.buffer.buffer

/-- Whether the loop skips what the next read leaves in the buffer, every time. -/
def Spins (handler : Handler) (l : Loop Session) : Prop :=
  5 ≤ (leftOver handler l).length ∧
    match l.session.common.encrypted with
    | none => Skipped ((leftOver handler l).drop 5)
    | some enc => ∀ n, SkipsFor ((leftOver handler l).drop 5) n enc.decompress

/-- In the clear it does not if the payload is served. -/
theorem not_spins_clear {handler : Handler} {l : Loop Session}
    (hnone : l.session.common.encrypted.isNone = true)
    (hserved : ¬ Skipped ((leftOver handler l).drop 5)) : ¬ Spins handler l := by
  rintro ⟨-, hskips⟩
  rw [Option.isNone_iff_eq_none.mp hnone] at hskips
  exact hserved hskips

/-- The state in which the stream is used up. -/
structure UsedUp (l : Loop Session) : Prop where
  /-- The main loop is running. -/
  running : l.stage = .running
  /-- The peer has closed the stream. -/
  eof : l.eof = true
  /-- Nothing is left. -/
  stream : l.stream = []

section
variable (handler : Handler) {l : Loop Session}

/-- A read that finds nothing leaves the buffer to be handled. -/
theorem UsedUp.read (h : UsedUp l) :
    l.nextRead (driver handler) = .err .unexpectedEof l.buffer [] ∧
      l.iterate (driver handler) .read = Loop.handle (driver handler) l false := by
  have hread : l.nextRead (driver handler) = .err .unexpectedEof l.buffer [] := by
    unfold Loop.nextRead Thrussh.read
    rw [h.stream, h.eof]
    rfl
  refine ⟨hread, ?_⟩
  have hself : { l with stream := [] } = l := by
    cases l
    cases h.stream
    rfl
  unfold Loop.iterate
  simp only [h.running]
  unfold Loop.turnRead
  rw [hread]
  change Loop.handle (driver handler) { l with buffer := l.buffer, stream := [] } false = _
  rw [hself]

/-- A stream that is used up is at its end. -/
theorem UsedUp.atEnd (h : UsedUp l) : AtEnd handler l :=
  ⟨h.running, h.eof, l.buffer, (h.read handler).1⟩

/-- Behind the end of the stream the rest of a packet is used up. -/
theorem AtEnd.usedUp (h : AtEnd handler l) : ∃ l' : Loop Session, UsedUp l' ∧
    l'.buffer.buffer = leftOver handler l ∧ l'.session = l.session ∧
    l.iterate (driver handler) .read = l'.iterate (driver handler) .read := by
  obtain ⟨b, hread⟩ := h.fails
  have hused : UsedUp { l with buffer := b, stream := [] } := ⟨h.running, h.eof, rfl⟩
  refine ⟨_, hused, ?_, rfl, ?_⟩
  · unfold leftOver
    rw [hread]
  · rw [(hused.read handler).2]
    unfold Loop.iterate
    simp only [h.running]
    unfold Loop.turnRead
    rw [hread]
    change Loop.handle (driver handler) { l with buffer := b, stream := [] } false = _
    rw [h.running]

/-- A buffer that is too short leaves the loop. -/
theorem UsedUp.short (h : UsedUp l) (hshort : l.buffer.buffer.length < 5) :
    (l.iterate (driver handler) .read).stage ≠ .running := by
  rw [(h.read handler).2]
  unfold Loop.handle
  rw [if_pos hshort]
  exact Loop.leave_stage _

/-- What is left in the buffer is handled in the clear. -/
theorem UsedUp.clear (h : UsedUp l) (hlong : 5 ≤ l.buffer.buffer.length)
    (hnone : l.session.common.encrypted = none) : ∃ l' : Loop Session, UsedUp l' ∧
      l'.session = l.session ∧ l'.buffer = l.buffer ∧
      l.iterate (driver handler) .read =
        Loop.serve (driver handler) l' (l.buffer.buffer.drop 5) := by
  have hnot : ¬ l.buffer.buffer.length < 5 := by omega
  refine ⟨if Loop.served (l.buffer.buffer.drop 5) then l.pass (l.buffer.buffer.drop 5) false
    else l, ?_, ?_, ?_, ?_⟩
  · split
    · exact ⟨h.running, h.eof, h.stream⟩
    · exact h
  · split <;> rfl
  · split <;> rfl
  · rw [(h.read handler).2]
    unfold Loop.handle
    rw [if_neg hnot]
    have hcommon : ((driver handler).common l.session).encrypted = none := hnone
    simp only [hcommon]

/-- What is left in the buffer is decompressed once more. -/
theorem UsedUp.encrypted (h : UsedUp l) (hlong : 5 ≤ l.buffer.buffer.length) {enc : Encrypted}
    (henc : l.session.common.encrypted = some enc) :
    match enc.decompress.decompress (l.buffer.buffer.drop 5) with
    | .ok (buf, decompress) => ∃ l' : Loop Session, UsedUp l' ∧
        l'.session.common.encrypted = some { enc with decompress := decompress } ∧
        l'.buffer = l.buffer ∧
        l.iterate (driver handler) .read = Loop.serve (driver handler) l' buf
    | .error _ => (l.iterate (driver handler) .read).stage ≠ .running := by
  have hnot : ¬ l.buffer.buffer.length < 5 := by omega
  have hcommon : ((driver handler).common l.session).encrypted = some enc := henc
  rw [(h.read handler).2]
  unfold Loop.handle
  rw [if_neg hnot]
  simp only [hcommon]
  cases enc.decompress.decompress (l.buffer.buffer.drop 5) with
  | error e =>
    cases e with
    | error e => exact Loop.leave_stage _
    | _ => simp [Loop.fail]
  | ok res =>
    obtain ⟨buf, decompress⟩ := res
    refine ⟨_, ?_, ?_, ?_, rfl⟩
    · exact ⟨h.running, h.eof, h.stream⟩
    · rfl
    · rfl

/-- Reading on after a read. -/
theorem run_reads (n : Nat) (l : Loop Session) :
    l.run (driver handler) (List.replicate (n + 1) .read) =
      (l.iterate (driver handler) .read).run (driver handler) (List.replicate n .read) := rfl

/-- A loop that has been left is not entered again. -/
theorem iterate_left (h : l.stage ≠ .running) (e : Event (UInt32 × ChannelMsg)) :
    (l.iterate (driver handler) e).stage ≠ .running := by
  unfold Loop.iterate
  cases e with
  | arrive bytes =>
    dsimp only
    split
    · exact h
    · exact h
  | close => exact h
  | message m taken =>
    simp only [if_neg h]
    exact h
  | timeout =>
    simp only [h, false_and, if_false]
    exact h
  | read =>
    cases hstage : l.stage with
    | running => exact absurd hstage h
    | finished result =>
      dsimp only
      rw [hstage]
      simp
    | draining =>
      dsimp only
      unfold Loop.drain
      cases l.nextRead (driver handler) with
      | pending => exact h
      | panic => simp [Loop.fail]
      | err e buffer rest => simp
      | ok n buffer rest =>
        dsimp only
        split
        · simp
        · exact h

/-- A loop that has been left stays so. -/
theorem run_left (h : l.stage ≠ .running) (events : List (Event (UInt32 × ChannelMsg))) :
    (l.run (driver handler) events).stage ≠ .running := by
  induction events generalizing l with
  | nil => exact h
  | cons e events ih => exact ih (iterate_left handler h e)

/-- The loop has been left, or it leaves with the next read: the stream is
used up and the buffer is clear. -/
def Leaving (l : Loop Session) : Prop :=
  l.stage ≠ .running ∨ UsedUp l ∧ l.buffer.buffer = []

/-- The end of a turn clears the buffer. -/
theorem endTurn_leaving (h : UsedUp l) : Leaving (Loop.endTurn (driver handler) l) := by
  unfold Loop.endTurn
  cases zoom (driver handler).common (driver handler).setCommon flush l.session with
  | error e s => exact .inl (by simp [Loop.fail])
  | ok a s =>
    dsimp only
    split
    · exact .inl (Loop.leave_stage _)
    · exact .inr ⟨⟨h.running, h.eof, h.stream⟩, rfl⟩

/-- An event other than a read changes nothing in a stream that is used up,
or ends the turn. -/
theorem UsedUp.other (h : UsedUp l) {e : Event (UInt32 × ChannelMsg)} (he : e ≠ .read) :
    l.iterate (driver handler) e = l ∨ Leaving (l.iterate (driver handler) e) := by
  cases e with
  | read => exact absurd rfl he
  | arrive bytes =>
    refine .inl ?_
    unfold Loop.iterate
    simp only [h.eof, if_true]
  | close =>
    refine .inl ?_
    unfold Loop.iterate
    cases l
    cases h.eof
    rfl
  | timeout =>
    unfold Loop.iterate
    dsimp only
    split
    · exact .inr (.inl (Loop.leave_stage l))
    · exact .inl rfl
  | message m taken =>
    unfold Loop.iterate
    simp only [h.running, if_true]
    unfold Loop.turnMessage
    split
    · exact .inl rfl
    · have hstream : l.stream.drop taken = [] := by
        rw [h.stream, List.drop_nil]
      refine .inr ?_
      dsimp only
      cases (driver handler).message m l.session with
      | error e s => exact .inl (by simp [Loop.fail])
      | ok b s =>
        cases b with
        | true => exact .inl (Loop.leave_stage _)
        | false => exact endTurn_leaving handler ⟨h.running, h.eof, hstream⟩

/-- The next read leaves the loop. -/
theorem Leaving.read (h : Leaving l) : (l.iterate (driver handler) .read).stage ≠ .running := by
  rcases h with hleft | ⟨hused, hempty⟩
  · exact iterate_left handler hleft .read
  · refine hused.short handler ?_
    rw [hempty]
    decide

/-- Once the loop is leaving, every event leaves it so. -/
theorem Leaving.iterate (h : Leaving l) (e : Event (UInt32 × ChannelMsg)) :
    Leaving (l.iterate (driver handler) e) := by
  by_cases hread : e = .read
  · rw [hread]
    exact .inl (h.read handler)
  · rcases h with hleft | ⟨hused, hempty⟩
    · exact .inl (iterate_left handler hleft e)
    · rcases hused.other handler hread with hsame | hleaving
      · rw [hsame]
        exact .inr ⟨hused, hempty⟩
      · exact hleaving

/-- The number of turns that a read wins. -/
def readTurns : List (Event (UInt32 × ChannelMsg)) → Nat
  | [] => 0
  | .read :: events => readTurns events + 1
  | _ :: events => readTurns events

/-- Whether the main loop is left with the `n`-th turn that a read wins,
whatever wins the turns between. -/
def LeavesWithin (n : Nat) (l : Loop Session) : Prop :=
  ∀ events, n ≤ readTurns events → (l.run (driver handler) events).stage ≠ .running

omit [Deps] in
/-- Nothing but reads. -/
theorem readTurns_replicate (n : Nat) : readTurns (List.replicate n .read) = n := by
  induction n with
  | zero => rfl
  | succ n ih => exact congrArg (· + 1) ih

omit [Deps] in
/-- An event other than a read is no such turn. -/
theorem readTurns_other {e : Event (UInt32 × ChannelMsg)} (he : e ≠ .read)
    (events : List (Event (UInt32 × ChannelMsg))) :
    readTurns (e :: events) = readTurns events := by
  cases e with
  | read => exact absurd rfl he
  | _ => rfl

/-- A loop that is leaving is left with the next read. -/
theorem Leaving.within (h : Leaving l) : LeavesWithin handler 1 l := by
  intro events
  induction events generalizing l with
  | nil =>
    intro hreads
    exact absurd hreads (by decide)
  | cons e events ih =>
    intro hreads
    by_cases hread : e = .read
    · rw [hread]
      exact run_left handler (h.read handler) events
    · rw [readTurns_other hread] at hreads
      exact ih (h.iterate handler e) hreads

/-- A loop on a stream that is used up is left one read after the next. -/
theorem UsedUp.within (h : UsedUp l) {n : Nat}
    (hread : LeavesWithin handler n (l.iterate (driver handler) .read)) :
    LeavesWithin handler (n + 1) l := by
  intro events
  induction events with
  | nil =>
    intro hreads
    exact absurd hreads (by simp [readTurns])
  | cons e events ih =>
    intro hreads
    by_cases he : e = .read
    · rw [he] at hreads ⊢
      have hmore : n ≤ readTurns events := by
        simp only [readTurns] at hreads
        omega
      exact hread events hmore
    · rw [readTurns_other he] at hreads
      rcases h.other handler he with hsame | hleaving
      · have hrest := ih hreads
        unfold Loop.run at hrest ⊢
        rw [List.foldl_cons, hsame]
        exact hrest
      · have hone : 1 ≤ readTurns events := by omega
        exact hleaving.within handler events hone

/-- A payload that is skipped changes nothing, after any other the loop is
leaving. -/
theorem serve_ends (l : Loop Session) (hl : UsedUp l) (buf : Bytes) :
    (Skipped buf ∧ Loop.serve (driver handler) l buf = l) ∨
      ¬ Skipped buf ∧ Leaving (Loop.serve (driver handler) l buf) := by
  unfold Loop.serve
  cases buf with
  | nil => exact .inl ⟨fun m hm => (by cases hm), rfl⟩
  | cons m rest =>
    dsimp only
    by_cases hdisconnect : m = msg.DISCONNECT
    · rw [if_pos hdisconnect]
      exact .inr ⟨fun hskipped => (hskipped m rfl).1 hdisconnect, .inl (Loop.leave_stage l)⟩
    rw [if_neg hdisconnect]
    by_cases hsmall : m ≤ 4
    · rw [if_pos hsmall]
      refine .inl ⟨fun m' hm => ?_, rfl⟩
      cases hm
      exact ⟨hdisconnect, hsmall⟩
    · rw [if_neg hsmall]
      refine .inr ⟨fun hskipped => hsmall (hskipped m rfl).2, ?_⟩
      cases (driver handler).reply (m :: rest) l.session with
      | error e s => exact .inl (by simp [Loop.fail])
      | ok a s => exact endTurn_leaving handler ⟨hl.running, hl.eof, hl.stream⟩

/-- A payload in the clear that is skipped is skipped for ever. -/
theorem UsedUp.spins_clear (h : UsedUp l) (hlong : 5 ≤ l.buffer.buffer.length)
    (hnone : l.session.common.encrypted = none) (hskipped : Skipped (l.buffer.buffer.drop 5))
    (n : Nat) : (l.run (driver handler) (List.replicate n .read)).stage = .running := by
  induction n generalizing l with
  | zero => exact h.running
  | succ n ih =>
    obtain ⟨l', hused, hsession, hbuffer, hread⟩ := h.clear handler hlong hnone
    rcases serve_ends handler l' hused (l.buffer.buffer.drop 5) with
      ⟨-, hserve⟩ | ⟨hnot, -⟩
    · rw [run_reads handler, hread, hserve]
      refine ih hused ?_ ?_ ?_
      · rw [hbuffer]
        exact hlong
      · rw [hsession]
        exact hnone
      · rw [hbuffer]
        exact hskipped
    · exact absurd hskipped hnot

/-- A payload that is skipped after every decompression is skipped for ever. -/
theorem UsedUp.spins_encrypted (h : UsedUp l) (hlong : 5 ≤ l.buffer.buffer.length)
    {enc : Encrypted} (henc : l.session.common.encrypted = some enc)
    (hskips : ∀ n, SkipsFor (l.buffer.buffer.drop 5) n enc.decompress) (n : Nat) :
    (l.run (driver handler) (List.replicate n .read)).stage = .running := by
  induction n generalizing l enc with
  | zero => exact h.running
  | succ n ih =>
    have hread := h.encrypted handler hlong henc
    have hstep : ∀ k, SkipsFor (l.buffer.buffer.drop 5) (k + 1) enc.decompress :=
      fun k => hskips (k + 1)
    unfold SkipsFor at hstep
    cases hdecompress : enc.decompress.decompress (l.buffer.buffer.drop 5) with
    | error e =>
      rw [hdecompress] at hstep
      exact (hstep 0).elim
    | ok res =>
      obtain ⟨buf, decompress⟩ := res
      rw [hdecompress] at hread hstep
      obtain ⟨l', hused, henc', hbuffer, hread⟩ := hread
      rcases serve_ends handler l' hused buf with ⟨-, hserve⟩ | ⟨hnot, -⟩
      · rw [run_reads handler, hread, hserve]
        refine ih hused ?_ henc' ?_
        · rw [hbuffer]
          exact hlong
        · rw [hbuffer]
          exact fun k => (hstep k).2
      · exact absurd (hstep 0).1 hnot

/-- A payload that some decompression does not skip leaves the loop. -/
theorem UsedUp.leaves_encrypted (h : UsedUp l) (hlong : 5 ≤ l.buffer.buffer.length)
    {enc : Encrypted} (henc : l.session.common.encrypted = some enc) {n : Nat}
    (hskips : ¬ SkipsFor (l.buffer.buffer.drop 5) n enc.decompress) :
    ∃ m, LeavesWithin handler m l := by
  induction n generalizing l enc with
  | zero => exact absurd trivial hskips
  | succ n ih =>
    have hread := h.encrypted handler hlong henc
    unfold SkipsFor at hskips
    cases hdecompress : enc.decompress.decompress (l.buffer.buffer.drop 5) with
    | error e =>
      rw [hdecompress] at hread
      have hleft : Leaving (l.iterate (driver handler) .read) := .inl hread
      exact ⟨2, h.within handler (hleft.within handler)⟩
    | ok res =>
      obtain ⟨buf, decompress⟩ := res
      rw [hdecompress] at hread hskips
      obtain ⟨l', hused, henc', hbuffer, hread⟩ := hread
      rcases serve_ends handler l' hused buf with ⟨hskipped, hserve⟩ | ⟨-, hends⟩
      · have hrest : ¬ SkipsFor (l'.buffer.buffer.drop 5) n decompress := by
          rw [hbuffer]
          exact fun hmore => hskips ⟨hskipped, hmore⟩
        rw [← hbuffer] at hlong
        obtain ⟨m, hm⟩ := ih hused hlong henc' hrest
        refine ⟨m + 1, h.within handler ?_⟩
        rw [hread, hserve]
        exact hm
      · refine ⟨2, h.within handler ?_⟩
        rw [hread]
        exact hends.within handler

end

/-- From the read that meets the end of the stream on, the main loop is left
within a number of reads, whatever else happens, if and only if it does not
skip what that read leaves in the buffer, every time. -/
theorem leaves_iff (handler : Handler) (l : Loop Session) (h : AtEnd handler l) :
    (∃ n, LeavesWithin handler n (l.iterate (driver handler) .read)) ↔ ¬ Spins handler l := by
  obtain ⟨l', hused, hbuffer, hsession, hread⟩ := h.usedUp handler
  rw [hread]
  unfold Spins
  rw [← hbuffer, ← hsession]
  have hnever : (∀ n, (l'.run (driver handler) (List.replicate n .read)).stage = .running) →
      ¬ ∃ n, LeavesWithin handler n (l'.iterate (driver handler) .read) := by
    rintro hrunning ⟨n, hn⟩
    exact hn _ (Nat.le_of_eq (readTurns_replicate n).symm) (hrunning (n + 1))
  by_cases hlong : 5 ≤ l'.buffer.buffer.length
  · cases henc : l'.session.common.encrypted with
    | none =>
      dsimp only
      constructor
      · rintro hleaves ⟨-, hskipped⟩
        exact hnever (hused.spins_clear handler hlong henc hskipped) hleaves
      · intro hnot
        obtain ⟨l'', hused', -, -, hread'⟩ := hused.clear handler hlong henc
        rcases serve_ends handler l'' hused' (l'.buffer.buffer.drop 5) with
          ⟨hskipped, -⟩ | ⟨-, hleaving⟩
        · exact absurd ⟨hlong, hskipped⟩ hnot
        · rw [hread']
          exact ⟨1, hleaving.within handler⟩
    | some enc =>
      dsimp only
      constructor
      · rintro hleaves ⟨-, hskips⟩
        exact hnever (hused.spins_encrypted handler hlong henc hskips) hleaves
      · intro hnot
        have hsome : ∃ n, ¬ SkipsFor (l'.buffer.buffer.drop 5) n enc.decompress := by
          by_contra hall
          exact hnot ⟨hlong, fun n => by_contra fun hn => hall ⟨n, hn⟩⟩
        obtain ⟨n, hn⟩ := hsome
        obtain ⟨m, hm⟩ := hused.leaves_encrypted handler hlong henc hn
        exact ⟨m, fun events hreads => hm (.read :: events) (by simp only [readTurns]; omega)⟩
  · have hleft := hused.short handler (by omega)
    have hleaves : LeavesWithin handler 0 (l'.iterate (driver handler) .read) :=
      fun events _ => run_left handler hleft events
    exact ⟨fun _ hspins => hlong hspins.1, fun _ => ⟨0, hleaves⟩⟩

end

/-- A client that sends its KEXINIT and half of the next packet, and closes the stream. -/
def severed : List (Event (UInt32 × ChannelMsg)) :=
  [.arrive (Concrete.clear Concrete.kexinit), .read,
    .arrive ((Concrete.clear (msg.KEX_ECDH_INIT :: sshString (zeros 32))).take 20), .close]

/-- Whether a read fails at the end of the stream and leaves nothing. -/
def meetsEnd : ReadResult → Bool
  | .err .unexpectedEof _ [] => true
  | _ => false

theorem fails_of_meetsEnd {r : ReadResult} (h : meetsEnd r = true) :
    ∃ b, r = .err .unexpectedEof b [] := by
  unfold meetsEnd at h
  split at h
  · exact ⟨_, rfl⟩
  · cases h

/-- The server behind it. -/
def severedLoop : @Loop (@Session Concrete.deps) :=
  letI := Concrete.deps
  Concrete.server.run (driver Concrete.handler) severed

/-- The server is at the end of its stream in the middle of a packet, which is not skipped. -/
theorem severed_atEnd :
    letI := Concrete.deps
    AtEnd Concrete.handler severedLoop ∧ severedLoop.stream.length = 20 ∧
      ¬ Spins Concrete.handler severedLoop := by
  let _ := Concrete.deps
  have hstage : severedLoop.stage = .running ∧ severedLoop.eof = true := by decide +kernel
  have hfails : meetsEnd (severedLoop.nextRead (driver Concrete.handler)) = true := by
    decide +kernel
  have hlength : severedLoop.stream.length = 20 := by decide +kernel
  have hnone : severedLoop.session.common.encrypted.isNone = true := by decide +kernel
  have hserved : ¬ Skipped ((leftOver Concrete.handler severedLoop).drop 5) := by decide +kernel
  refine ⟨⟨hstage.1, hstage.2, fails_of_meetsEnd hfails⟩, hlength, ?_⟩
  exact @not_spins_clear Concrete.deps _ _ hnone hserved

/-- A client that closes the stream in the middle of a packet is left. -/
theorem closed_leaves :
    letI := Concrete.deps
    severedLoop = Concrete.server.run (driver Concrete.handler) severed ∧
      ∃ n, LeavesWithin Concrete.handler n (severedLoop.iterate (driver Concrete.handler) .read) := by
  let _ := Concrete.deps
  obtain ⟨hend, -, hspins⟩ := severed_atEnd
  exact ⟨rfl, (leaves_iff Concrete.handler _ hend).mpr hspins⟩

/-- A client whose last packet is an IGNORE keeps the loop spinning. -/
theorem ignored_spins :
    letI := Concrete.deps
    let l := Concrete.server.run (driver Concrete.handler)
      [.arrive (Concrete.clear [2, 0, 0, 0, 0]), .read, .close]
    runStream Concrete.serverConfig Concrete.handler Concrete.clientConfig.clientId
        Concrete.world = .ok Concrete.server ∧
      AtEnd Concrete.handler l ∧
      ∀ n, (l.run (driver Concrete.handler) (List.replicate n .read)).stage = .running := by
  let _ := Concrete.deps
  have hused : UsedUp (Concrete.server.run (driver Concrete.handler)
      [.arrive (Concrete.clear [2, 0, 0, 0, 0]), .read, .close]) :=
    ⟨by decide +kernel, by decide +kernel, by decide +kernel⟩
  refine ⟨Concrete.runStream_eq Concrete.handler, hused.atEnd Concrete.handler, ?_⟩
  exact hused.spins_clear Concrete.handler (by decide +kernel) (by decide +kernel)
    (by decide +kernel)

end Thrussh.Server
