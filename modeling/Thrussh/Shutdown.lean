import Thrussh.Concrete
import Thrussh.Packets

/-!
# The end of a shutdown

After a disconnection both loops drain the stream: they read packets until
`cipher::read` returns 0. It never does, since it returns the length of a
buffer that holds at least the length field; at the end of the stream it
fails. So the packets that still arrive are taken, and then the function
returns the error of the last read.
-/

namespace Thrussh

open Lib

section
variable [Deps]

/-- Whether a stream ends behind a number of packets, as `cipher::read` opens
them with the buffer cleared between any two of them. -/
def whole (pair : CipherPair) : Nat → SSHBuffer → Bytes → Bool
  | 0, _, stream => stream.isEmpty
  | k + 1, b, stream =>
    match read pair b stream true with
    | .ok _ b' rest => whole pair k b'.clear rest
    | _ => false

/-- Behind the last packet the stream is at its end. -/
theorem stream_nil_of_whole {pair : CipherPair} {b : SSHBuffer} {stream : Bytes}
    (h : whole pair 0 b stream = true) : stream = [] := by
  simpa [whole] using h

/-- A packet that comes first is read. -/
theorem read_of_whole {pair : CipherPair} {b : SSHBuffer} {stream : Bytes} {k : Nat}
    (h : whole pair (k + 1) b stream = true) : ∃ n b' rest,
      read pair b stream true = .ok n b' rest ∧ whole pair k b'.clear rest = true := by
  unfold whole at h
  cases hread : read pair b stream true with
  | pending =>
    rw [hread] at h
    cases h
  | panic =>
    rw [hread] at h
    cases h
  | err e b' rest =>
    rw [hread] at h
    cases h
  | ok n b' rest =>
    rw [hread] at h
    exact ⟨n, b', rest, rfl, h⟩

/-- The buffer that `cipher::read` returns holds the length field at least. -/
theorem readPacket_ok_pos {pair : CipherPair} {b b' : SSHBuffer} {rest rest' : Bytes} {n : Nat}
    (h : readPacket pair b rest = .ok n b' rest') : 4 ≤ n := by
  unfold readPacket at h
  dsimp only at h
  split at h
  · cases h
  · split at h
    · cases h
    · split at h
      · cases h
        omega
      · cases h

/-- What `cipher::read` returns is never 0. -/
theorem read_ok_pos {pair : CipherPair} {b b' : SSHBuffer} {stream rest : Bytes} {eof : Bool}
    {n : Nat} (h : read pair b stream eof = .ok n b' rest) : 4 ≤ n := by
  unfold read at h
  split at h
  · split at h <;> cases h
  · split at h
    · cases h
    · dsimp only at h
      split at h
      · split at h <;> cases h
      · exact readPacket_ok_pos h

/-- At its end a stream makes `cipher::read` fail. -/
theorem read_end (pair : CipherPair) (b : SSHBuffer) :
    read pair b [] true = .err .unexpectedEof b [] := rfl

/-- Draining the stream, or failed in it. -/
def Stage.Shut (stage : Stage) : Prop :=
  stage = .draining ∨ ∃ e, stage = .finished (.error e)

namespace Loop

variable {C S M : Type} [SessionConfig C] {d : Driver C S M} {l : Loop S}

omit [SessionConfig C] in
/-- A packet that is drained keeps the loop draining, and all else makes it fail. -/
theorem drain_shut (h : l.stage = .draining) : (drain d l).stage.Shut := by
  unfold drain
  cases hread : l.nextRead d with
  | pending => exact .inl h
  | panic => exact .inr ⟨.panic, rfl⟩
  | err e buffer rest => exact .inr ⟨.error e, rfl⟩
  | ok n buffer rest =>
    have hpos := read_ok_pos hread
    have hn : n ≠ 0 := by omega
    dsimp only
    rw [if_neg hn]
    exact .inl h

/-- The event of a read, while the stream is drained. -/
theorem iterate_draining (h : l.stage = .draining) : l.iterate d .read = drain d l := by
  unfold iterate
  dsimp only
  split
  · rename_i hrunning
    rw [h] at hrunning
    cases hrunning
  · rfl
  · rename_i hfinished
    rw [h] at hfinished
    cases hfinished

/-- A shutdown does not end well: what one event leaves. -/
theorem iterate_shut (h : l.stage.Shut) (e : Event M) : (l.iterate d e).stage.Shut := by
  have hrunning : l.stage ≠ .running := by
    intro hrunning
    rcases h with hstage | ⟨e, hstage⟩
    · rw [hrunning] at hstage
      cases hstage
    · rw [hrunning] at hstage
      cases hstage
  cases e with
  | arrive bytes =>
    simp only [iterate]
    split
    · exact h
    · exact h
  | close => exact h
  | message m taken =>
    simp only [iterate, if_neg hrunning]
    exact h
  | timeout =>
    simp only [iterate, hrunning, false_and, if_false]
    exact h
  | read =>
    rcases h with hstage | ⟨e, hstage⟩
    · rw [iterate_draining hstage]
      exact drain_shut hstage
    · simp only [iterate, hstage]
      exact .inr ⟨e, rfl⟩

/-- A shutdown does not end well, whatever the events. -/
theorem run_shut (h : l.stage.Shut) (events : List (Event M)) : (l.run d events).stage.Shut := by
  induction events generalizing l with
  | nil => exact h
  | cons e events ih => exact ih (iterate_shut h e)

omit [SessionConfig C] in
/-- What a drain does to a packet. -/
theorem drain_ok {n : Nat} {buffer : SSHBuffer} {rest : Bytes}
    (hread : l.nextRead d = .ok n buffer rest) :
    drain d l = { l with buffer := buffer.clear, stream := rest } := by
  have hpos := read_ok_pos hread
  have hn : n ≠ 0 := by omega
  unfold drain
  rw [hread]
  dsimp only
  rw [if_neg hn]

/-- A shutdown takes all packets down to the end of the stream, and fails there. -/
theorem run_whole {k : Nat} (hstage : l.stage = .draining) (heof : l.eof = true)
    (hwhole : whole (d.common l.session).cipher k l.buffer l.stream = true) :
    (l.run d (List.replicate k .read)).stage = .draining ∧
      (l.run d (List.replicate k .read)).stream = [] ∧
      (l.run d (List.replicate (k + 1) .read)).stage =
        .finished (.error (.error .unexpectedEof)) := by
  induction k generalizing l with
  | zero =>
    have hstream : l.stream = [] := stream_nil_of_whole hwhole
    have hread : l.nextRead d = .err .unexpectedEof l.buffer [] := by
      unfold nextRead
      rw [hstream, heof]
      exact read_end _ _
    have hend : drain d l = { l with
        stream := [], stage := .finished (.error (.error .unexpectedEof)) } := by
      unfold drain
      rw [hread]
    refine ⟨hstage, hstream, ?_⟩
    change (l.iterate d .read).stage = _
    rw [iterate_draining hstage, hend]
  | succ k ih =>
    obtain ⟨n, b', rest, hread, hrest⟩ := read_of_whole hwhole
    have hnext : l.nextRead d = .ok n b' rest := by
      unfold nextRead
      rw [heof]
      exact hread
    have hstep : l.iterate d .read = { l with buffer := b'.clear, stream := rest } := by
      rw [iterate_draining hstage]
      exact drain_ok hnext
    have hrun : ∀ m, l.run d (List.replicate (m + 1) .read) =
        ({ l with buffer := b'.clear, stream := rest } : Loop S).run d
          (List.replicate m .read) := by
      intro m
      change (l.iterate d .read).run d (List.replicate m .read) = _
      rw [hstep]
    rw [hrun k, hrun (k + 1)]
    exact ih hstage heof hrest

/-- Whether some events take a loop to the return of `Ok`. -/
def ShutsDown (d : Driver C S M) (l : Loop S) : Prop :=
  ∃ events, (l.run d events).stage = .finished (.ok ())

/-- A shutdown does not end with `Ok`. -/
theorem not_shutsDown (h : l.stage = .draining) : ¬ ShutsDown d l := by
  rintro ⟨events, hok⟩
  have hshut : (l.run d events).stage.Shut := run_shut (.inl h) events
  rw [hok] at hshut
  rcases hshut with hstage | ⟨e, hstage⟩
  · cases hstage
  · cases hstage

end Loop

/-- A loop that drains a stream which the peer has closed behind whole packets. -/
structure Closing {C S M : Type} [SessionConfig C] (d : Driver C S M) (l : Loop S) (k : Nat) : Prop
    where
  /-- The session is over, and the stream is drained. -/
  draining : l.stage = .draining
  /-- The peer has closed it. -/
  eof : l.eof = true
  /-- It has packets in front of its end. -/
  whole : whole (d.common l.session).cipher k l.buffer l.stream = true

/-- The packets are taken, the read behind them fails, and `Ok` is never returned. -/
structure EndsInError {C S M : Type} [SessionConfig C] (d : Driver C S M) (l : Loop S) (k : Nat) :
    Prop where
  /-- All packets are taken. -/
  taken : (l.run d (List.replicate k .read)).stream = []
  /-- The next read ends the function with its error. -/
  failed : (l.run d (List.replicate (k + 1) .read)).stage =
    .finished (.error (.error .unexpectedEof))
  /-- There is no other end. -/
  not_ok : ¬ Loop.ShutsDown d l

/-- A closing loop ends in an error. -/
theorem Closing.ends {C S M : Type} [SessionConfig C] {d : Driver C S M} {l : Loop S} {k : Nat}
    (h : Closing d l k) : EndsInError d l k := by
  have hrun := Loop.run_whole h.draining h.eof h.whole
  constructor
  · exact hrun.2.1
  · exact hrun.2.2
  · exact Loop.not_shutsDown h.draining

/-- Whenever a run of either role comes to drain a stream that the peer has
closed behind whole packets, it takes these packets, fails at the end of the
stream, and never returns `Ok`. -/
theorem shutdown_fails :
    (∀ (config : Server.Config) (handler : Server.Handler) (sshid : Bytes) (world : World)
      (l : Loop Server.Session) (events : List (Event (UInt32 × ChannelMsg))) (k : Nat),
      Server.runStream config handler sshid world = .ok l →
      Closing (Server.driver handler) (l.run (Server.driver handler) events) k →
      EndsInError (Server.driver handler) (l.run (Server.driver handler) events) k) ∧
    ∀ (config : Client.Config) (app : Client.Application) (sshid : Bytes) (world : World)
      (l : Loop Client.Session) (events : List (Event Client.Msg)) (k : Nat),
      Client.connectStream config app sshid world = .ok l →
      Closing (Client.driver app) (l.run (Client.driver app) events) k →
      EndsInError (Client.driver app) (l.run (Client.driver app) events) k := by
  constructor
  · intro config handler sshid world l events k _ hclosing
    exact hclosing.ends
  · intro config app sshid world l events k _ hclosing
    exact hclosing.ends

end

namespace Concrete

/-- A server's handler that accepts every authentication, and disconnects when
a session is opened. -/
def leavingHandler : @Server.Handler deps := fun _ callback _ =>
  match callback with
  | .channelOpenSession _ => ⟨[.disconnect .byApplication [] []], false, .accept, false, 0⟩
  | _ => ⟨[], false, .accept, false, 0⟩

/-- A client up to the opening of a session, one more packet, and the end of the stream. -/
def lastPacket {M : Type} : List (Event M) :=
  authenticated ++ [.arrive (sealed sessionOpen), .read, .arrive (sealed [2, 0, 0, 0, 0]), .close]

/-- An application that disconnects as soon as it is given the session. -/
def leavingApplication : @Client.Application deps :=
  letI := deps
  { handler := fun _ callback _ =>
      match callback with
      | .onSessionConnected => ⟨[.disconnect .byApplication [] []], false, true, 0⟩
      | callback => { Client.Answer.default callback with check := true }
    listening := fun _ _ => true
    awaited := fun _ _ => [] }

/-- The loop of a client that has disconnected before its first turn. -/
def leavingClient : @Loop (@Client.Session deps) :=
  letI := deps
  returned (Client.connectStream clientConfig leavingApplication serverConfig.serverId world)
    (by decide +kernel)

theorem leavingClient_eq :
    letI := deps
    Client.connectStream clientConfig leavingApplication serverConfig.serverId world =
      .ok leavingClient :=
  returned_spec _ _

/-- The server closes behind one packet. -/
theorem lastPacket_closing :
    letI := deps
    Closing (Server.driver leavingHandler)
      (server.run (Server.driver leavingHandler) lastPacket) 1 := by
  let _ := deps
  exact ⟨by decide +kernel, by decide +kernel, by decide +kernel⟩

/-- The client closes behind the server's KEXINIT. -/
theorem leavingClient_closing :
    letI := deps
    Closing (Client.driver leavingApplication)
      (leavingClient.run (Client.driver leavingApplication) [.arrive (clear kexinit), .close]) 1 := by
  let _ := deps
  exact ⟨by decide +kernel, by decide +kernel, by decide +kernel⟩

end Concrete

/-- A server that has disconnected, and a client. -/
theorem shutdown_fails_leaving :
    letI := Concrete.deps
    EndsInError (Server.driver Concrete.leavingHandler)
        (Concrete.server.run (Server.driver Concrete.leavingHandler) Concrete.lastPacket) 1 ∧
      EndsInError (Client.driver Concrete.leavingApplication)
        (Concrete.leavingClient.run (Client.driver Concrete.leavingApplication)
          [.arrive (Concrete.clear Concrete.kexinit), .close]) 1 := by
  let _ := Concrete.deps
  have hfails := @shutdown_fails Concrete.deps
  constructor
  · exact hfails.1 _ _ _ _ _ _ _ (Concrete.runStream_eq _) Concrete.lastPacket_closing
  · exact hfails.2 _ _ _ _ _ _ _ Concrete.leavingClient_eq Concrete.leavingClient_closing

/-- The client has disconnected, takes the packet that is left, and fails. -/
theorem shutdown_not_ok :
    letI := Concrete.deps
    let l := Concrete.leavingClient.run (Client.driver Concrete.leavingApplication)
      [.arrive (Concrete.clear Concrete.kexinit), .close]
    Client.connectStream Concrete.clientConfig Concrete.leavingApplication
        Concrete.serverConfig.serverId Concrete.world = .ok Concrete.leavingClient ∧
      l.session.common.disconnected = true ∧
      Closing (Client.driver Concrete.leavingApplication) l 1 ∧
      ¬ Loop.ShutsDown (Client.driver Concrete.leavingApplication) l := by
  let _ := Concrete.deps
  exact ⟨Concrete.leavingClient_eq, by decide +kernel, Concrete.leavingClient_closing,
    Loop.not_shutsDown Concrete.leavingClient_closing.draining⟩

end Thrussh
