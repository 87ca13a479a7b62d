import Thrussh.Client.Bearing
import Thrussh.Client.Malformed
import Thrussh.Concrete
import Thrussh.Server.Bearing
import Thrussh.Server.Malformed

/-!
# Malformed packets during a key exchange

In every phase of a first exchange or of a re-exchange a packet of the
exchange is served or refused with an error if and only if it is well formed
for that phase. A re-exchange whose KEXINIT is still expected leaves all other
packets to the stage of the session, which serves or refuses what it bears.
-/

namespace Thrussh

open Deps Lib

section
variable [Deps]

/-- The server serves a packet of an exchange, or refuses it with an error, if
and only if the packet is well formed. -/
theorem Server.inExchange_robust_iff {config : Server.Config} {handler : Server.Handler}
    {sshid : Bytes} {world : World} {l : Loop Server.Session}
    (hl : Server.runStream config handler sshid world = .ok l)
    (hsupported : config.preferred.Supported) (hreplies : config.RepliesFit)
    (events : List (Event (UInt32 × ChannelMsg))) {e : Event (UInt32 × ChannelMsg)}
    {p : Server.Session × Bytes}
    (hp : p ∈ Loop.given (Server.driver handler) (l.run (Server.driver handler) events) e)
    (hin : p.1.common.InExchange p.2) :
    Fails Fault.Returned (Server.reply handler p.2) p.1 ↔ Server.WellFormed p.1.common p.2 := by
  obtain ⟨hs, htracks, hblank⟩ := Server.given_prepared hl events hp
  constructor
  · intro hreturned
    by_contra hnot
    obtain ⟨v, hv⟩ : ∃ v, Server.reply handler p.2 p.1 = .error .panic v :=
      Server.reply_panics hnot
    exact not_fails_of_error hv trivial hreturned
  · exact Server.reply_robust hs htracks hblank.drained hsupported hreplies hin

/-- What the server bears of the packets that its exchange has no part in is
served, or refused with an error. -/
theorem Server.bears_robust {config : Server.Config} {handler : Server.Handler} {sshid : Bytes}
    {world : World} {l : Loop Server.Session}
    (hl : Server.runStream config handler sshid world = .ok l)
    (events : List (Event (UInt32 × ChannelMsg))) {e : Event (UInt32 × ChannelMsg)}
    {p : Server.Session × Bytes}
    (hp : p ∈ Loop.given (Server.driver handler) (l.run (Server.driver handler) events) e)
    (hout : ¬ p.1.common.InExchange p.2) (h : Server.Bears handler p.1 p.2) :
    Fails Fault.Returned (Server.reply handler p.2) p.1 := by
  obtain ⟨-, -, hblank⟩ := Server.given_prepared hl events hp
  refine .congr (Server.reply_state handler hout) ?_
  cases henc : p.1.common.encrypted with
  | none => exact absurd (.inl henc) hout
  | some enc =>
    obtain ⟨hwrite, hcursor⟩ := hblank enc henc
    exact h.robust henc hwrite hcursor hout

/-- The client serves a packet of an exchange, or refuses it with an error, if
and only if the packet is well formed. -/
theorem Client.inExchange_robust_iff {config : Client.Config} {app : Client.Application}
    {sshid : Bytes} {world : World} {l : Loop Client.Session}
    (hl : Client.connectStream config app sshid world = .ok l)
    (hsupported : config.preferred.Supported) (events : List (Event Client.Msg))
    {e : Event Client.Msg} {p : Client.Session × Bytes}
    (hp : p ∈ Loop.given (Client.driver app) (l.run (Client.driver app) events) e)
    (hphase : p.1.common.exchanging.isSome = true) (hin : p.1.common.InExchange p.2) :
    Fails Fault.Returned (Client.reply app p.2) p.1 ↔ Client.WellFormed app p.1 p.2 := by
  obtain ⟨hs, htracks, hblank⟩ := Client.given_prepared hl events hp
  obtain ⟨kex, hexchanging⟩ := Option.isSome_iff_exists.mp hphase
  constructor
  · intro hreturned
    by_contra hnot
    obtain ⟨v, hv⟩ := Client.reply_panics hs htracks hnot
    exact not_fails_of_error hv trivial hreturned
  · exact Client.reply_robust hs htracks hblank.drained hsupported hexchanging hin

/-- What the client bears of the packets that its exchange has no part in is
served, or refused with an error. -/
theorem Client.bears_robust {config : Client.Config} {app : Client.Application} {sshid : Bytes}
    {world : World} {l : Loop Client.Session}
    (hl : Client.connectStream config app sshid world = .ok l) (events : List (Event Client.Msg))
    {e : Event Client.Msg} {p : Client.Session × Bytes}
    (hp : p ∈ Loop.given (Client.driver app) (l.run (Client.driver app) events) e)
    (hout : ¬ p.1.common.InExchange p.2)
    (h : ∀ enc ∈ p.1.common.encrypted, Client.Bears app p.1 enc p.2) :
    Fails Fault.Returned (Client.reply app p.2) p.1 := by
  obtain ⟨hs, -, -⟩ := Client.given_prepared hl events hp
  refine .congr (Client.reply_state app hs hout) ?_
  cases henc : p.1.common.encrypted with
  | none => exact absurd (.inl henc) hout
  | some enc => exact (h enc henc).robust henc (Client.given_awake hl events hp enc henc)

/-- In every phase of an exchange, along every run of either role, a packet of
the exchange is served or refused with an error if and only if it is well
formed, and any other packet if the role bears it. -/
theorem exchange_robust_iff :
    (∀ (config : Server.Config) (handler : Server.Handler) (sshid : Bytes) (world : World)
      (l : Loop Server.Session), Server.runStream config handler sshid world = .ok l →
      config.preferred.Supported → config.RepliesFit →
      ∀ (events : List (Event (UInt32 × ChannelMsg))) (e : Event (UInt32 × ChannelMsg)),
      ∀ p ∈ Loop.given (Server.driver handler) (l.run (Server.driver handler) events) e,
        p.1.common.exchanging.isSome = true →
        (p.1.common.InExchange p.2 →
          (Fails Fault.Returned (Server.reply handler p.2) p.1 ↔
            Server.WellFormed p.1.common p.2)) ∧
        (¬ p.1.common.InExchange p.2 → Server.Bears handler p.1 p.2 →
          Fails Fault.Returned (Server.reply handler p.2) p.1)) ∧
    (∀ (config : Client.Config) (app : Client.Application) (sshid : Bytes) (world : World)
      (l : Loop Client.Session), Client.connectStream config app sshid world = .ok l →
      config.preferred.Supported →
      ∀ (events : List (Event Client.Msg)) (e : Event Client.Msg),
      ∀ p ∈ Loop.given (Client.driver app) (l.run (Client.driver app) events) e,
        p.1.common.exchanging.isSome = true →
        (p.1.common.InExchange p.2 →
          (Fails Fault.Returned (Client.reply app p.2) p.1 ↔ Client.WellFormed app p.1 p.2)) ∧
        (¬ p.1.common.InExchange p.2 →
          (∀ enc ∈ p.1.common.encrypted, Client.Bears app p.1 enc p.2) →
          Fails Fault.Returned (Client.reply app p.2) p.1)) := by
  constructor
  · intro config handler sshid world l hl hsupported hreplies events e p hp _
    exact ⟨Server.inExchange_robust_iff hl hsupported hreplies events hp,
      Server.bears_robust hl events hp⟩
  · intro config app sshid world l hl hsupported events e p hp hphase
    exact ⟨Client.inExchange_robust_iff hl hsupported events hp hphase,
      Client.bears_robust hl events hp⟩

end

/-- The signatures of the transparent libraries fit. -/
theorem Server.concrete_repliesFit :
    letI := Concrete.deps
    Concrete.serverConfig.RepliesFit := by
  let _ := Concrete.deps
  intro key hkey hash signature hsignature
  cases List.mem_singleton.mp hkey
  cases hsignature
  have hname : (ascii "ssh-ed25519").length = 11 := by decide
  simp [KeyPair.pushTo, length_sshString, ed25519Name, Vector.length_toList, hname]

/-- The peer's KEXINIT is served, and its next packet arrives. -/
def nextPacket {M : Type} (packet : Bytes) : List (Event M) :=
  [.arrive (Concrete.clear Concrete.kexinit), .read, .arrive (Concrete.clear packet)]

/-- What a server is given after the KEXINITs. -/
def Server.expecting (packet : Bytes) : Option (@Server.Session Concrete.deps × Bytes) :=
  letI := Concrete.deps
  Loop.given (Server.driver Concrete.handler)
    (Concrete.server.run (Server.driver Concrete.handler) (nextPacket packet)) .read

/-- What a client is given after the KEXINITs. -/
def Client.expecting (packet : Bytes) : Option (@Client.Session Concrete.deps × Bytes) :=
  letI := Concrete.deps
  Loop.given (Client.driver Concrete.application)
    (Concrete.client.run (Client.driver Concrete.application) (nextPacket packet)) .read

/-- An ECDH_REPLY with an ephemeral key of some length. -/
def Client.ecdhReplyOf (length : Nat) : Bytes :=
  msg.KEX_ECDH_REPLY :: (sshString (sshString ed25519Name ++ sshString (zeros 32)) ++
    sshString (zeros length) ++ sshString [])

theorem Server.expecting_exchanging :
    letI := Concrete.deps
    ∃ p ∈ Server.expecting (msg.KEX_ECDH_INIT :: sshString (zeros 32)),
      p.1.common.exchanging.isSome = true ∧ p.1.common.InExchange p.2 := by
  let _ := Concrete.deps
  have htests : (Server.expecting (msg.KEX_ECDH_INIT :: sshString (zeros 32))).any
      (fun p => decide (p.1.common.exchanging.isSome = true ∧ p.1.common.InExchange p.2)) = true := by
    decide +kernel
  obtain ⟨p, hp, htests⟩ := (Option.any_eq_true _ _).mp htests
  exact ⟨p, hp, of_decide_eq_true htests⟩

theorem Client.expecting_exchanging :
    letI := Concrete.deps
    ∃ p ∈ Client.expecting Concrete.reply,
      p.1.common.exchanging.isSome = true ∧ p.1.common.InExchange p.2 := by
  let _ := Concrete.deps
  have htests : (Client.expecting Concrete.reply).any
      (fun p => decide (p.1.common.exchanging.isSome = true ∧ p.1.common.InExchange p.2)) = true := by
    decide +kernel
  obtain ⟨p, hp, htests⟩ := (Option.any_eq_true _ _).mp htests
  exact ⟨p, hp, of_decide_eq_true htests⟩

/-- A packet that arrives behind others, sealed. -/
def behind {M : Type} (events : List (Event M)) (packet : Bytes) : List (Event M) :=
  events ++ [.arrive (Concrete.sealed packet)]

/-- What a server is given that has authenticated a client and waits for the
KEXINIT of a re-exchange. -/
def Server.waiting (packet : Bytes) : Option (@Server.Session Concrete.deps × Bytes) :=
  letI := Concrete.deps
  Loop.given (Server.driver Concrete.handler)
    (Concrete.impatient.run (Server.driver Concrete.handler)
      (behind Concrete.authenticated packet)) .read

/-- A client whose limits ask for a re-exchange after every flush. -/
def Client.impatientConfig : Client.Config :=
  { Concrete.clientConfig with limits := ⟨0, 2 ^ 30, 3600⟩ }

/-- An application whose handler only accepts. -/
def Client.idle : @Client.Application Concrete.deps :=
  letI := Concrete.deps
  { Concrete.application with handler := fun _ _ _ => ⟨[], false, true, 0⟩ }

/-- The impatient client's loop before its first turn. -/
def Client.impatient : @Loop (@Client.Session Concrete.deps) :=
  letI := Concrete.deps
  Concrete.returned (Client.connectStream Client.impatientConfig Client.idle
    Concrete.serverConfig.serverId Concrete.world) (by decide +kernel)

theorem Client.impatient_eq :
    letI := Concrete.deps
    Client.connectStream Client.impatientConfig Client.idle Concrete.serverConfig.serverId
      Concrete.world = .ok Client.impatient :=
  Concrete.returned_spec _ _

/-- What the impatient client is given after its first exchange. -/
def Client.waiting (packet : Bytes) : Option (@Client.Session Concrete.deps × Bytes) :=
  letI := Concrete.deps
  Loop.given (Client.driver Client.idle) (Client.impatient.run (Client.driver Client.idle)
    (behind Concrete.answers packet)) .read

/-- A channel is opened in a re-exchange, and the server bears it. -/
theorem Server.waiting_bears :
    letI := Concrete.deps
    ∃ p ∈ Server.waiting Concrete.sessionOpen, p.1.common.exchanging.isSome = true ∧
      ¬ p.1.common.InExchange p.2 ∧ Server.Bears Concrete.handler p.1 p.2 := by
  let _ := Concrete.deps
  have htests : (Server.waiting Concrete.sessionOpen).any (fun p =>
      decide (p.1.common.exchanging.isSome = true ∧ ¬ p.1.common.InExchange p.2 ∧
        p.2.head? = some msg.CHANNEL_OPEN ∧
        (p.1.compressing.common.entry 0).isNone = true)) = true := by
    decide +kernel
  obtain ⟨p, hp, htests⟩ := (Option.any_eq_true _ _).mp htests
  obtain ⟨hphase, hout, hhead, hfree⟩ := of_decide_eq_true htests
  have hother : ∀ {m}, m ≠ msg.CHANNEL_OPEN → p.2.head? ≠ some m := by
    intro m hne heq
    exact hne (Option.some.inj (heq.symm.trans hhead))
  refine ⟨p, hp, hphase, hout, fun _ _ _ _ _ _ => .inr Auth.noConfusion, fun enc henc _ => ?_⟩
  constructor
  · intro _
    rw [entry_some henc, Option.isNone_iff_eq_none] at hfree
    exact ⟨0, hfree⟩
  · exact fun h => absurd h (hother (by decide))
  · exact fun _ _ _ _ _ _ _ h => absurd h.head (hother (by decide))
  · exact fun h => h.elim (fun h => absurd h (hother (by decide)))
      fun h => absurd h (hother (by decide))
  · exact fun _ _ _ => .pure _

/-- The service is accepted in a re-exchange, and the client bears it. -/
theorem Client.waiting_bears :
    letI := Concrete.deps
    ∃ p ∈ Client.waiting (msg.SERVICE_ACCEPT :: sshString (ascii "ssh-userauth")),
      p.1.common.exchanging.isSome = true ∧ ¬ p.1.common.InExchange p.2 ∧
        ∀ enc ∈ p.1.common.encrypted, Client.Bears Client.idle p.1 enc p.2 := by
  let _ := Concrete.deps
  have htests : (Client.waiting (msg.SERVICE_ACCEPT :: sshString (ascii "ssh-userauth"))).any
      (fun p => decide (p.1.common.exchanging.isSome = true ∧ ¬ p.1.common.InExchange p.2 ∧
        p.2.head? = some msg.SERVICE_ACCEPT)) = true := by
    decide +kernel
  obtain ⟨p, hp, htests⟩ := (Option.any_eq_true _ _).mp htests
  obtain ⟨hphase, hout, hhead⟩ := of_decide_eq_true htests
  have hother : ∀ {m}, m ≠ msg.SERVICE_ACCEPT → p.2.head? ≠ some m := by
    intro m hne heq
    exact hne (Option.some.inj (heq.symm.trans hhead))
  refine ⟨p, hp, hphase, hout, fun enc _ => ?_⟩
  constructor
  · exact fun _ _ _ h => absurd h (hother (by decide))
  · exact fun _ h => absurd h (hother (by decide))
  · exact fun _ h => absurd h (hother (by decide))
  · exact fun _ _ _ => .pure _

/-- Both roles in the middle of their first exchange, and in a re-exchange
that waits for the KEXINIT of the peer. -/
theorem exchange_robust_handshake :
    letI := Concrete.deps
    ((∃ p ∈ Server.expecting (msg.KEX_ECDH_INIT :: sshString (zeros 32)),
      (Fails Fault.Returned (Server.reply Concrete.handler p.2) p.1 ↔
        Server.WellFormed p.1.common p.2)) ∧
      ∃ p ∈ Server.waiting Concrete.sessionOpen, ¬ p.1.common.InExchange p.2 ∧
        Fails Fault.Returned (Server.reply Concrete.handler p.2) p.1) ∧
    (∃ p ∈ Client.expecting Concrete.reply,
      (Fails Fault.Returned (Client.reply Concrete.application p.2) p.1 ↔
        Client.WellFormed Concrete.application p.1 p.2)) ∧
      ∃ p ∈ Client.waiting (msg.SERVICE_ACCEPT :: sshString (ascii "ssh-userauth")),
        ¬ p.1.common.InExchange p.2 ∧ Fails Fault.Returned (Client.reply Client.idle p.2) p.1 := by
  have hiff := @exchange_robust_iff Concrete.deps
  refine ⟨⟨?_, ?_⟩, ?_, ?_⟩
  · obtain ⟨p, hp, hphase⟩ := Server.expecting_exchanging
    have hserver := hiff.1 _ Concrete.handler _ _ _ (Concrete.runStream_eq Concrete.handler)
      (by decide +kernel) Server.concrete_repliesFit
      (nextPacket (msg.KEX_ECDH_INIT :: sshString (zeros 32))) .read p hp hphase.1
    exact ⟨p, hp, hserver.1 hphase.2⟩
  · obtain ⟨p, hp, hphase, hout, hbears⟩ := Server.waiting_bears
    have hserver := hiff.1 _ Concrete.handler _ _ _ Concrete.impatient_eq (by decide +kernel)
      Server.concrete_repliesFit (behind Concrete.authenticated Concrete.sessionOpen) .read p hp hphase
    exact ⟨p, hp, hout, hserver.2 hout hbears⟩
  · obtain ⟨p, hp, hphase⟩ := Client.expecting_exchanging
    have hclient := hiff.2 _ Concrete.application _ _ _ Concrete.connectStream_eq
      (by decide +kernel) (nextPacket Concrete.reply) .read p hp hphase.1
    exact ⟨p, hp, hclient.1 hphase.2⟩
  · obtain ⟨p, hp, hphase, hout, hbears⟩ := Client.waiting_bears
    have hclient := hiff.2 _ Client.idle _ _ _ Client.impatient_eq (by decide +kernel)
      (behind Concrete.answers (msg.SERVICE_ACCEPT :: sshString (ascii "ssh-userauth"))) .read p hp
        hphase
    exact ⟨p, hp, hout, hclient.2 hout hbears⟩

/-- A packet in an exchange that can be seen to crash the server. -/
theorem Server.expecting_crashes {packet : Bytes}
    (h : letI := Concrete.deps
      ((Server.expecting packet).any fun p => p.1.common.exchanging.isSome &&
        crashes (Server.reply Concrete.handler p.2) p.1) = true) :
    letI := Concrete.deps
    ∃ p ∈ Server.expecting packet, p.1.common.exchanging.isSome = true ∧
      ¬ Fails Fault.Returned (Server.reply Concrete.handler p.2) p.1 := by
  obtain ⟨p, hp, htests⟩ := (Option.any_eq_true _ _).mp h
  obtain ⟨hphase, hcrash⟩ := Bool.and_eq_true_iff.mp htests
  exact ⟨p, hp, hphase, not_fails_of_crashes hcrash⟩

theorem Client.expecting_crashes {packet : Bytes}
    (h : letI := Concrete.deps
      ((Client.expecting packet).any fun p => p.1.common.exchanging.isSome &&
        crashes (Client.reply Concrete.application p.2) p.1) = true) :
    letI := Concrete.deps
    ∃ p ∈ Client.expecting packet, p.1.common.exchanging.isSome = true ∧
      ¬ Fails Fault.Returned (Client.reply Concrete.application p.2) p.1 := by
  obtain ⟨p, hp, htests⟩ := (Option.any_eq_true _ _).mp h
  obtain ⟨hphase, hcrash⟩ := Bool.and_eq_true_iff.mp htests
  exact ⟨p, hp, hphase, not_fails_of_crashes hcrash⟩

/-- In an exchange that waits for an ECDH message a packet that is no
ECDH_INIT, an ECDH_INIT with a key of 31 bytes and an ECDH_REPLY with one of
33 bytes are panics. -/
theorem exchange_crashes :
    letI := Concrete.deps
    (Server.runStream Concrete.serverConfig Concrete.handler Concrete.clientConfig.clientId
        Concrete.world = .ok Concrete.server ∧
      Client.connectStream Concrete.clientConfig Concrete.application Concrete.serverConfig.serverId
        Concrete.world = .ok Concrete.client) ∧
    (∃ p ∈ Server.expecting [msg.NEWKEYS], p.1.common.exchanging.isSome = true ∧
      ¬ Fails Fault.Returned (Server.reply Concrete.handler p.2) p.1) ∧
    (∃ p ∈ Server.expecting (msg.KEX_ECDH_INIT :: sshString (zeros 31)),
      p.1.common.exchanging.isSome = true ∧
      ¬ Fails Fault.Returned (Server.reply Concrete.handler p.2) p.1) ∧
    ∃ p ∈ Client.expecting (Client.ecdhReplyOf 33), p.1.common.exchanging.isSome = true ∧
      ¬ Fails Fault.Returned (Client.reply Concrete.application p.2) p.1 :=
  ⟨⟨Concrete.runStream_eq _, Concrete.connectStream_eq⟩,
    Server.expecting_crashes (by decide +kernel), Server.expecting_crashes (by decide +kernel),
    Client.expecting_crashes (by decide +kernel)⟩

end Thrussh
