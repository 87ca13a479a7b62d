import Thrussh.Channels
import Thrussh.Client.Serving
import Thrussh.Concrete
import Thrussh.Framing

/-!
# The server's calls, as the client serves them

The calls with which a server reports on a channel, or opens one for a
forwarded connection, and the question that each of them puts to the
client's handler. A call whose packet is shorter than `2 ^ 32` bytes puts
exactly its question, with its own arguments, and no other call does.
-/

namespace Thrussh

open Lib Position

namespace Server

/-- The question that a call puts to the client's handler, where `id` is the
client's number of the channel, or the server's of one that is opened. -/
def Call.question (config : Config) (id : UInt32) : Call → Option Client.Callback
  | .xonXoffRequest _ clientCanDo => some (.xonXoff id clientCanDo)
  | .exitStatusRequest _ exitStatus => some (.exitStatus id exitStatus)
  | .exitSignalRequest _ signal coreDumped errorMessage languageTag =>
    some (.exitSignal id signal coreDumped errorMessage languageTag)
  | .channelOpenForwardedTcpip connectedAddress connectedPort originatorAddress originatorPort =>
    some (.channelOpenForwardedTcpipClient id connectedAddress connectedPort originatorAddress
      originatorPort config.windowSize config.maximumPacketSize)
  | _ => none

/-- The channel that a call reports on. -/
def Call.channel : Call → Option UInt32
  | .xonXoffRequest channel _ => some channel
  | .exitStatusRequest channel _ => some channel
  | .exitSignalRequest channel .. => some channel
  | _ => none

/-- The length of the packet that carries the arguments of a call. -/
def Call.packetLength : Call → Nat
  | .xonXoffRequest .. => 19
  | .exitStatusRequest .. => 25
  | .exitSignalRequest _ signal _ errorMessage languageTag =>
    34 + signal.name.length + errorMessage.length + languageTag.length
  | .channelOpenForwardedTcpip connectedAddress _ originatorAddress _ =>
    48 + connectedAddress.length + originatorAddress.length
  | _ => 0

/-- The arguments of a call have their types: a `str` is UTF-8, and a custom
signal has no standard name. -/
def Call.Typed : Call → Prop
  | .exitSignalRequest _ signal _ errorMessage languageTag =>
    Client.Named signal ∧ utf8Valid errorMessage ∧ utf8Valid languageTag
  | .channelOpenForwardedTcpip connectedAddress _ originatorAddress _ =>
    utf8Valid connectedAddress ∧ utf8Valid originatorAddress
  | _ => True

variable [Deps]

/-- What a call has written: the session after it, and the body of its packet. -/
structure Call.Writes (call : Call) (t t' : Session) (enc enc' : Encrypted) (body : Bytes) :
    Prop where
  /-- The session is encrypted. -/
  before : t.common.encrypted = some enc
  /-- The call returns. -/
  run : runCall call t = .ok () t'
  /-- The session stays encrypted. -/
  after : t'.common.encrypted = some enc'
  /-- The packet is appended. -/
  written : enc'.write = pushPacket enc.write body

/-- What a change of `enc` that returns has computed. -/
theorem onCommon_updateEnc_ok {t t' : Session} {enc : Encrypted}
    {f : Encrypted → Except Fault Encrypted} (henc : t.common.encrypted = some enc)
    (h : onCommon (updateEnc f) t = .ok () t') : ∃ enc', f enc = .ok enc' ∧ t' = t.withEnc enc' := by
  cases hf : f enc with
  | ok enc' =>
    simp only [onCommon, zoom, updateEnc, run_bind, run_get, henc, hf, run_lift_ok, run_set] at h
    cases h
    exact ⟨enc', rfl, rfl⟩
  | error e =>
    simp only [onCommon, zoom, updateEnc, run_bind, run_get, henc, hf, run_lift_error] at h
    cases h

section
variable {call : Call} {t t' : Session} {enc enc' : Encrypted} {body : Bytes}

/-- A report that has written something has written its packet, to the
client's number of the channel. -/
theorem confirmedRequest_written {channel : UInt32} {name rest : Bytes}
    (henc : t.common.encrypted = some enc)
    (hrun : confirmedRequest channel name rest t = .ok () t')
    (henc' : t'.common.encrypted = some enc') (hwritten : enc'.write = pushPacket enc.write body) :
    ∃ ch, enc.channels channel = some ch ∧ body = channelRequest ch.recipientChannel name rest := by
  unfold confirmedRequest at hrun
  obtain ⟨enc1, hf, rfl⟩ := onCommon_updateEnc_ok henc hrun
  cases henc'
  cases hch : enc.channels channel with
  | none =>
    rw [hch] at hf
    cases hf
    exact absurd hwritten (pushPacket_ne _ _)
  | some ch =>
    rw [hch] at hf
    dsimp only at hf
    split at hf
    · cases hf
      exact ⟨ch, rfl, (pushPacket_inj hwritten).symm⟩
    · cases hf

/-- An opening that has written something has written its packet, with the
id of the new channel. -/
theorem channelOpenForwardedTcpip_written {address originator : Bytes} {port port' : UInt32}
    (henc : t.common.encrypted = some enc)
    (hrun : channelOpenForwardedTcpip address port originator port' t = .ok () t')
    (henc' : t'.common.encrypted = some enc') (hwritten : enc'.write = pushPacket enc.write body) :
    enc.channels enc'.lastChannelId = none ∧ body = channelOpenPacket (ascii "forwarded-tcpip")
      enc'.lastChannelId t.common.config.windowSize t.common.config.maximumPacketSize
      (sshString address ++ be32 port ++ sshString originator ++ be32 port') := by
  unfold channelOpenForwardedTcpip at hrun
  rw [run_bind, run_get] at hrun
  dsimp only at hrun
  obtain ⟨enc1, hf, rfl⟩ := onCommon_updateEnc_ok henc hrun
  cases henc'
  cases hstate : enc.state with
  | authenticated =>
    rw [hstate] at hf
    obtain ⟨⟨id, enc2⟩, hnew, hrest⟩ := ok_of_bind hf
    cases hrest
    obtain ⟨hnone, rfl⟩ := newChannel_ok hnew
    exact ⟨hnone, (pushPacket_inj hwritten).symm⟩
  | _ =>
    rw [hstate] at hf
    cases hf
    exact absurd hwritten (pushPacket_ne _ _)

/-- The client serves the packet that a call of the server has written: it
asks the question of the call, about its own side of the channel, or about
the server's id of the new one, with the arguments of the call. -/
def Call.DeliveredTo (call : Call) (t : Session) (enc enc' : Encrypted)
    (app : Client.Application) (c : Client.Session) (packet : Bytes) : Prop :=
  ∃ id callback, call.question t.common.config id = some callback ∧
    (match call.channel with
      | some x => ∃ ch, enc.channels x = some ch ∧ ch.recipientChannel = id
      | none => id = enc'.lastChannelId ∧ enc.channels id = none) ∧
    Client.Serves app c packet callback

variable {app : Client.Application} {c : Client.Session}

/-- The packet of a report has the length for its arguments, and the client
serves it if it reads the question. -/
theorem confirmedRequest_delivered {channel : UInt32} {name rest : Bytes}
    {question : UInt32 → Client.Callback} (hwrites : call.Writes t t' enc enc' body)
    (hrun : runCall call = confirmedRequest channel name rest)
    (hquestion : ∀ id, call.question t.common.config id = some (question id))
    (hchannel : call.channel = some channel)
    (hread : call.packetLength < 2 ^ 32 → ∀ id, ∀ r : Position, r.Before rest →
      Client.channelRequestCallback id name r = .ok (some (question id)))
    (hlength : 9 + name.length + rest.length = call.packetLength) :
    body.length = call.packetLength ∧
      (call.packetLength < 2 ^ 32 → call.DeliveredTo t enc enc' app c body) := by
  have hwritten := hwrites.run
  rw [hrun] at hwritten
  obtain ⟨ch, hch, rfl⟩ := confirmedRequest_written hwrites.before hwritten hwrites.after
    hwrites.written
  have hbody : (channelRequest ch.recipientChannel name rest).length =
      9 + name.length + rest.length := by
    simp only [channelRequest, sshString, List.length_cons, List.length_append, length_be32]
    omega
  refine ⟨hbody.trans hlength, fun hlt => ?_⟩
  have hserves := Client.channelRequest_serves app c ch.recipientChannel (by omega) (hread hlt _)
  refine ⟨ch.recipientChannel, _, hquestion _, ?_, hserves⟩
  rw [hchannel]
  exact ⟨ch, hch, rfl⟩

/-- Every call that puts a question to the client writes a packet with its
arguments, which the client serves if the formats can carry them. -/
theorem Call.Writes.delivered (hwrites : call.Writes t t' enc enc' body)
    (hquestion : (call.question t.common.config 0).isSome) (htyped : call.Typed) :
    body.length = call.packetLength ∧
      (call.packetLength < 2 ^ 32 → call.DeliveredTo t enc enc' app c body) := by
  have hrun := hwrites.run
  cases call with
  | xonXoffRequest channel clientCanDo =>
    have hlength : 9 + (ascii "xon-xoff").length + 2 = 19 := by decide
    exact confirmedRequest_delivered hwrites rfl (fun _ => rfl) rfl
      (fun _ _ _ hr => Client.reads_xonXoff hr) hlength
  | exitStatusRequest channel exitStatus =>
    have hlength : 9 + (ascii "exit-status").length + 5 = 25 := by decide
    exact confirmedRequest_delivered hwrites rfl (fun _ => rfl) rfl
      (fun _ _ _ hr => Client.reads_exitStatus hr) hlength
  | exitSignalRequest channel signal coreDumped message language =>
    refine confirmedRequest_delivered hwrites rfl (fun _ => rfl) rfl (fun hlt id r hr => ?_) ?_
    · simp only [Call.packetLength] at hlt
      refine Client.reads_exitSignal ?_ ⟨by omega, htyped.1⟩ ⟨by omega, htyped.2.1⟩
        ⟨by omega, htyped.2.2⟩
      simpa using hr
    · have hname : (ascii "exit-signal").length = 11 := by decide
      simp only [Call.packetLength, sshString, List.length_append, List.length_cons, length_be32,
        hname]
      omega
  | channelOpenForwardedTcpip address port originator port' =>
    obtain ⟨hfree, rfl⟩ := channelOpenForwardedTcpip_written hwrites.before hrun hwrites.after
      hwrites.written
    have hname : (ascii "forwarded-tcpip").length = 15 := by decide
    constructor
    · simp only [Call.packetLength, channelOpenPacket, sshString, List.length_append,
        List.length_cons, length_be32, hname]
      omega
    · intro hlt
      simp only [Call.packetLength] at hlt
      exact ⟨_, _, rfl, ⟨rfl, hfree⟩, Client.forwarded_serves app c _ _ _ _ _
        ⟨by omega, htyped.1⟩ ⟨by omega, htyped.2⟩⟩
  | _ => cases hquestion

omit [Deps] in
/-- A request that is cut is still one, or nothing is left of it. -/
theorem framed_channelRequest (recipient : UInt32) (name rest : Bytes) :
    framed (channelRequest recipient name rest) = [] ∨
      (framed (channelRequest recipient name rest)).head? = some msg.CHANNEL_REQUEST := by
  unfold framed
  cases (UInt32.ofNat (channelRequest recipient name rest).length).toNat with
  | zero => exact .inl List.take_zero
  | succ n => exact .inr rfl

/-- A packet that is served, whole or cut, is as long as its question asks for. -/
theorem Call.Writes.delivered_length (hwrites : call.Writes t t' enc enc' body)
    (htyped : call.Typed) (h : call.DeliveredTo t enc enc' app c (framed body)) :
    call.packetLength ≤ max (framed body).length 25 := by
  have hrun := hwrites.run
  obtain ⟨id, callback, hquestion, -, hserves⟩ := h
  have hcut : framed body <+: body := List.take_prefix _ _
  cases call with
  | xonXoffRequest channel clientCanDo =>
    have hshort : 19 ≤ 25 := by decide
    exact Nat.le_trans hshort (Nat.le_max_right _ 25)
  | exitStatusRequest channel exitStatus => exact Nat.le_max_right _ 25
  | exitSignalRequest channel signal coreDumped message language =>
    obtain ⟨ch, -, rfl⟩ := confirmedRequest_written hwrites.before hrun hwrites.after
      hwrites.written
    cases hquestion
    exact Nat.le_trans (Client.asked_exitSignal (framed_channelRequest _ _ _) hserves.asked)
      (Nat.le_max_left _ 25)
  | channelOpenForwardedTcpip address port originator port' =>
    obtain ⟨-, rfl⟩ := channelOpenForwardedTcpip_written hwrites.before hrun hwrites.after
      hwrites.written
    cases hquestion
    exact Nat.le_trans (Client.asked_forwarded hcut htyped.1 htyped.2 hserves.asked)
      (Nat.le_max_left _ 25)
  | _ => cases hquestion

/-- The packet that a call has written is served, with the question and the
arguments of the call, if and only if its length is a `u32`. -/
theorem Call.delivered_iff (hwrites : call.Writes t t' enc enc' body)
    (hquestion : (call.question t.common.config 0).isSome) (htyped : call.Typed) :
    call.DeliveredTo t enc enc' app c (framed body) ↔ call.packetLength < 2 ^ 32 := by
  have hboth : body.length = call.packetLength ∧
      (call.packetLength < 2 ^ 32 → call.DeliveredTo t enc enc' app c body) :=
    hwrites.delivered hquestion htyped
  obtain ⟨hlength, hdelivered⟩ := hboth
  constructor
  · intro h
    have hle := hwrites.delivered_length htyped h
    by_contra hlong
    have hcut : (framed body).length + 2 ^ 32 ≤ body.length := length_framed_of_le (by omega)
    omega
  · intro hlt
    rw [framed_of_lt (by omega)]
    exact hdelivered hlt

/-- A report on a confirmed channel writes its packet. -/
theorem confirmedRequest_writes {channel : UInt32} {ch : Channel} {name rest : Bytes}
    (henc : t.common.encrypted = some enc) (hch : enc.channels channel = some ch)
    (hconfirmed : ch.confirmed) (hrun : runCall call = confirmedRequest channel name rest) :
    ∃ t' enc', call.Writes t t' enc enc' (channelRequest ch.recipientChannel name rest) := by
  refine ⟨t.withEnc (enc.push (channelRequest ch.recipientChannel name rest)), _, henc, ?_, rfl, rfl⟩
  rw [hrun]
  simp only [confirmedRequest, onCommon, zoom, updateEnc, run_bind, run_get, henc, hch,
    if_pos hconfirmed, run_lift_ok, run_set, Session.withEnc]

end

end Server

/-- An exit by TERM is delivered. -/
theorem Server.delivered_exitSignal :
    letI := Concrete.deps
    ∃ t' enc' body, (Server.Call.exitSignalRequest 7 .term false [108] []).Writes
        (Concrete.serverWithChannel 100) t' (Concrete.withPeerChannel 100) enc' body ∧
      (Server.Call.exitSignalRequest 7 .term false [108] []).DeliveredTo
        (Concrete.serverWithChannel 100) (Concrete.withPeerChannel 100) enc' Concrete.application
        (Concrete.clientWithChannel 100) (framed body) := by
  let _ := Concrete.deps
  have henc : (Concrete.serverWithChannel 100).common.encrypted =
      some (Concrete.withPeerChannel 100) := rfl
  have hch : (Concrete.withPeerChannel 100).channels 7 =
      some ⟨2, 7, 100, 100, 100, 100, true, false, []⟩ := rfl
  have hrun : Server.runCall (.exitSignalRequest 7 .term false [108] []) =
      Server.confirmedRequest 7 (ascii "exit-signal") (0 :: sshString (ascii "TERM") ++
        flagByte false :: sshString [108] ++ sshString []) := rfl
  obtain ⟨t', enc', hwrites⟩ := Server.confirmedRequest_writes henc hch rfl hrun
  exact ⟨t', enc', _, hwrites,
    (Server.Call.delivered_iff hwrites rfl ⟨trivial, by decide, by decide⟩).mpr (by decide)⟩

/-- An exit with an error message of `2 ^ 32` bytes is written, and is not delivered. -/
theorem Server.undelivered_exitSignal :
    letI := Concrete.deps
    ∃ message : Bytes, message = List.replicate (2 ^ 32) 97 ∧
      ∃ t' enc' body, (Server.Call.exitSignalRequest 7 .term false message []).Writes
          (Concrete.serverWithChannel 100) t' (Concrete.withPeerChannel 100) enc' body ∧
        ¬ (Server.Call.exitSignalRequest 7 .term false message []).DeliveredTo
          (Concrete.serverWithChannel 100) (Concrete.withPeerChannel 100) enc'
          Concrete.application (Concrete.clientWithChannel 100) (framed body) := by
  let _ := Concrete.deps
  obtain ⟨message, hmessage⟩ : ∃ message : Bytes, message = List.replicate (2 ^ 32) 97 := ⟨_, rfl⟩
  have hlength : message.length = 2 ^ 32 := by rw [hmessage, List.length_replicate]
  have hvalid : utf8Valid message := by
    rw [hmessage]
    exact utf8Valid_replicate (by decide) _
  have henc : (Concrete.serverWithChannel 100).common.encrypted =
      some (Concrete.withPeerChannel 100) := rfl
  have hch : (Concrete.withPeerChannel 100).channels 7 =
      some ⟨2, 7, 100, 100, 100, 100, true, false, []⟩ := rfl
  have hrun : Server.runCall (.exitSignalRequest 7 .term false message []) =
      Server.confirmedRequest 7 (ascii "exit-signal") (0 :: sshString (ascii "TERM") ++
        flagByte false :: sshString message ++ sshString []) := rfl
  obtain ⟨t', enc', hwrites⟩ := Server.confirmedRequest_writes henc hch rfl hrun
  refine ⟨message, hmessage, t', enc', _, hwrites, fun hdelivered => ?_⟩
  have hlt := (Server.Call.delivered_iff hwrites rfl ⟨trivial, hvalid, by decide⟩).mp hdelivered
  simp only [Server.Call.packetLength, hlength] at hlt
  omega

end Thrussh
