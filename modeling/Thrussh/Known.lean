import Thrussh.Client.Known
import Thrussh.Client.Service
import Thrussh.Server.Known

/-!
# Channels that a peer has named

Along every run of either role in which the packets whose branches trust the
channel they name, name channels of the table, the handler hears of no other
channel, and a packet for another channel fails or is ignored.
-/

namespace Thrussh

open Deps Lib

section
variable [Deps]

/-- In a run in which every packet that names a channel without a lookup names
one of the table, every packet tells the handler only of channels that were in
the table when it arrived, and a packet about another one fails with
WrongChannel or is ignored. -/
theorem told_of_known :
    (∀ config app sshid world l, Client.connectStream config app sshid world = .ok l →
      ∀ events,
        Loop.Along (Loop.iterate (Client.driver app)) (fun l e =>
          ∀ p ∈ Loop.given (Client.driver app) l e, Client.NamesKnown p.1 p.2) l events →
        Loop.Along (Loop.iterate (Client.driver app)) (fun l e =>
          ∀ p ∈ Loop.given (Client.driver app) l e, Client.TellsKnown app p.1 p.2) l events) ∧
    (∀ config handler sshid world l, Server.runStream config handler sshid world = .ok l →
      ∀ events,
        Loop.Along (Loop.iterate (Server.driver handler)) (fun l e =>
          ∀ p ∈ Loop.given (Server.driver handler) l e, Server.NamesKnown p.1 p.2) l events →
        Loop.Along (Loop.iterate (Server.driver handler)) (fun l e =>
          ∀ p ∈ Loop.given (Server.driver handler) l e,
            Server.TellsKnown handler p.1 p.2) l events) := by
  constructor
  · intro config app sshid world l hl events halong
    have hkeeps := (Client.driver_behaves (P := fun _ => True) (fun _ _ => trivial) app
      fun _ _ _ _ => trivial).keeps_sound
    obtain ⟨s, output, hs, rfl⟩ := Client.connectStream_start hl
    refine halong.imp (I := Loop.Kept (fun s => s.common.Sound) fun _ => True)
      (fun l e hkept _ => Loop.iterate_kept hkeeps hkept e) (fun l e hkept hnames p hp => ?_)
      (Loop.start_kept hkeeps hs.sound output)
    have hsound := Loop.given_kept hkeeps hkept hp
    exact Client.tellsKnown_of_namesKnown app hsound (hnames p hp)
  · intro config handler sshid world l hl events halong
    have hkeeps := (Server.driver_behaves (P := fun _ => True) (fun _ _ => trivial)
      handler).keeps_sound
    obtain ⟨s, output, hs, rfl⟩ := Server.runStream_start hl
    refine halong.imp (I := Loop.Kept (fun s => s.common.Sound) fun _ => True)
      (fun l e hkept _ => Loop.iterate_kept hkeeps hkept e) (fun l e hkept hnames p hp => ?_)
      (Loop.start_kept hkeeps hs.sound output)
    have hsound := Loop.given_kept hkeeps hkept hp
    exact Server.tellsKnown_of_namesKnown hsound (hnames p hp)

end

/-- A window adjustment for a channel that nobody has opened. -/
def Concrete.stray {M : Type} : List (Event M) :=
  [.arrive (sealed (msg.CHANNEL_WINDOW_ADJUST :: be32 7 ++ be32 5)), .read]

/-- A packet with which a run tries the theorem: the session is not yet
settled, or the packet is a window adjustment. -/
def Client.tries [Deps] (p : Client.Session × Bytes) : Bool :=
  p.1.common.encrypted.all (·.state != .authenticated) ||
    p.2.head? == some msg.CHANNEL_WINDOW_ADJUST

/-- The same on the server. -/
def Server.tries [Deps] (p : Server.Session × Bytes) : Bool :=
  (p.1.state != some .initCompression && p.1.state != some .authenticated) ||
    p.2.head? == some msg.CHANNEL_WINDOW_ADJUST

theorem Client.namesKnown_of_tries [Deps] {p : Client.Session × Bytes}
    (h : Client.tries p = true) : Client.NamesKnown p.1 p.2 := by
  rintro ⟨enc, henc, hstate⟩ _ id ⟨hhead, _⟩
  simp [Client.tries, henc, hstate, hhead] at h

theorem Server.namesKnown_of_tries [Deps] {p : Server.Session × Bytes}
    (h : Server.tries p = true) : Server.NamesKnown p.1 p.2 := by
  intro hsettled _ id htrusts
  have hstate : (p.1.state != some .initCompression && p.1.state != some .authenticated) = false := by
    rcases hsettled with hstate | hstate <;> simp [hstate]
  have hhead : p.2.head? = some msg.CHANNEL_WINDOW_ADJUST := by
    simpa [Server.tries, hstate] using h
  cases htrusts with
  | question hnot => exact absurd hhead hnot
  | unknown hunknown =>
    have hrequest := hunknown.1
    rw [hhead] at hrequest
    exact absurd hrequest (by decide)

/-- Both roles with a stray window adjustment after the authentication. -/
theorem told_of_known_stray :
    letI := Concrete.deps
    let letIn := Concrete.answers ++ [.message (some (.authenticate [1] (.password [2]))) 0] ++
      Client.accepts ++ [.arrive (Concrete.sealed [msg.USERAUTH_SUCCESS]), .read]
    Loop.Along (Loop.iterate (Client.driver Concrete.application)) (fun l e =>
        ∀ p ∈ Loop.given (Client.driver Concrete.application) l e,
          Client.TellsKnown Concrete.application p.1 p.2) Concrete.client (letIn ++ Concrete.stray) ∧
      Loop.Along (Loop.iterate (Server.driver Concrete.handler)) (fun l e =>
        ∀ p ∈ Loop.given (Server.driver Concrete.handler) l e,
          Server.TellsKnown Concrete.handler p.1 p.2) Concrete.server
        (Concrete.authenticated ++ Concrete.stray) := by
  let _ := Concrete.deps
  have hknown := told_of_known
  refine ⟨hknown.1 _ _ _ _ _ Concrete.connectStream_eq _ ?_,
    hknown.2 _ _ _ _ _ (Concrete.runStream_eq _) _ ?_⟩
  · refine Loop.Along.imp (P := fun l e =>
      (Loop.given (Client.driver Concrete.application) l e).all Client.tries = true)
      (I := fun _ => True) (fun _ _ _ _ => trivial) (fun l e _ h p hp => ?_) trivial (by decide +kernel)
    exact Client.namesKnown_of_tries (by simpa [Option.mem_def.mp hp] using h)
  · refine Loop.Along.imp (P := fun l e =>
      (Loop.given (Server.driver Concrete.handler) l e).all Server.tries = true)
      (I := fun _ => True) (fun _ _ _ _ => trivial) (fun l e _ h p hp => ?_) trivial (by decide +kernel)
    exact Server.namesKnown_of_tries (by simpa [Option.mem_def.mp hp] using h)

/-- Data for a channel that nobody has opened: the server hands them to its handler. -/
theorem unknown_told :
    letI := Concrete.deps
    let l := Concrete.server.run (Server.driver Concrete.handler) Concrete.authenticated
    let l' := l.run (Server.driver Concrete.handler)
      [.arrive (Concrete.sealed (Concrete.dataFor 7)), .read]
    Server.runStream Concrete.serverConfig Concrete.handler Concrete.clientConfig.clientId
      Concrete.world = .ok Concrete.server ∧
    l.session.common.encrypted.map (·.channels 7) = some none ∧
    (l'.session.callbacks.drop l.session.callbacks.length).map (·.1) = [.data 7 [1, 2, 3]] ∧
    l'.stage = .running :=
  ⟨Concrete.runStream_eq _, by decide +kernel, by decide +kernel, by decide +kernel⟩

end Thrussh
