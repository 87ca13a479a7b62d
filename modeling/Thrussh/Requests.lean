import Thrussh.Concrete
import Thrussh.Framing
import Thrussh.Server.Serving

/-!
# The client's calls, as the server serves them

The calls with which a client opens a channel, asks something on a channel
or asks for a forwarding, and the question that each of them puts to the
server's handler. A call whose packet is shorter than `2 ^ 32` bytes puts
exactly its question, with its own arguments. `signal` never does: the
server reads a byte that the client does not write.
-/

namespace Thrussh

open Lib Position

namespace Client

/-- The question that a call puts to the server's handler, where `id` is the
server's number of the channel. -/
def Call.question (id : UInt32) : Call → Option Server.Callback
  | .channelOpenSession => some (.channelOpenSession id)
  | .channelOpenX11 address port => some (.channelOpenX11 id address port)
  | .channelOpenDirectTcpip host port address originatorPort =>
    some (.channelOpenDirectTcpip id host port address originatorPort)
  | .requestPty _ _ term colWidth rowHeight pixWidth pixHeight terminalModes =>
    some (.ptyRequest id term colWidth rowHeight pixWidth pixHeight terminalModes)
  | .requestX11 _ _ singleConnection protocol cookie screen =>
    some (.x11Request id singleConnection protocol cookie screen)
  | .setEnv _ _ name value => some (.envRequest id name value)
  | .requestShell _ _ => some (.shellRequest id)
  | .exec _ _ command => some (.execRequest id command)
  | .requestSubsystem _ _ name => some (.subsystemRequest id name)
  | .windowChange _ colWidth rowHeight pixWidth pixHeight =>
    some (.windowChangeRequest id colWidth rowHeight pixWidth pixHeight)
  | .tcpipForward _ address port => some (.tcpipForward address port)
  | .cancelTcpipForward _ address port => some (.cancelTcpipForward address port)
  | _ => none

/-- The channel that a call asks something on. -/
def Call.channel : Call → Option UInt32
  | .requestPty channel .. => some channel
  | .requestX11 channel .. => some channel
  | .setEnv channel .. => some channel
  | .requestShell _ channel => some channel
  | .exec channel .. => some channel
  | .requestSubsystem _ channel _ => some channel
  | .windowChange channel .. => some channel
  | _ => none

/-- Whether a call opens a channel. -/
def Call.opens : Call → Bool
  | .channelOpenSession => true
  | .channelOpenX11 .. => true
  | .channelOpenDirectTcpip .. => true
  | _ => false

/-- The length of the packet that carries the arguments of a call. -/
def Call.packetLength : Call → Nat
  | .channelOpenSession => 24
  | .channelOpenX11 address _ => 28 + address.length
  | .channelOpenDirectTcpip host _ address _ => 45 + host.length + address.length
  | .requestPty _ _ term _ _ _ _ terminalModes => 42 + term.length + 5 * terminalModes.length
  | .requestX11 _ _ _ protocol cookie _ => 30 + protocol.length + cookie.length
  | .setEnv _ _ name value => 21 + name.length + value.length
  | .requestShell _ _ => 15
  | .exec _ _ command => 18 + command.length
  | .requestSubsystem _ _ name => 23 + name.length
  | .windowChange .. => 39
  | .tcpipForward _ address _ => 27 + address.length
  | .cancelTcpipForward _ address _ => 34 + address.length
  | _ => 0

/-- All of it is read for the question, up to the end of a mode list. -/
theorem Call.packetLength_le {call : Call} {id : UInt32} {callback : Server.Callback}
    (h : call.question id = some callback) : call.packetLength ≤ callback.size + 1 := by
  cases call <;> cases h <;> simp only [Call.packetLength, Server.Callback.size] <;> omega

/-- The arguments of a call have their types: a `str` is UTF-8, and terminal
modes are at most 130, without the mode that ends the list. -/
def Call.Typed : Call → Prop
  | .channelOpenX11 address _ => utf8Valid address
  | .channelOpenDirectTcpip host _ address _ => utf8Valid host ∧ utf8Valid address
  | .requestPty _ _ term _ _ _ _ terminalModes =>
    utf8Valid term ∧ terminalModes.length ≤ 130 ∧ ∀ m ∈ terminalModes, m.1 ≠ Pty.ttyOpEnd
  | .requestX11 _ _ _ protocol cookie _ => utf8Valid protocol ∧ utf8Valid cookie
  | .setEnv _ _ name value => utf8Valid name ∧ utf8Valid value
  | .requestSubsystem _ _ name => utf8Valid name
  | .tcpipForward _ address _ => utf8Valid address
  | .cancelTcpipForward _ address _ => utf8Valid address
  | _ => True

end Client

namespace Client

variable [Deps]

/-- What a call has written: the session after it, and the body of its packet. -/
structure Call.Writes (call : Call) (c c' : Session) (enc enc' : Encrypted) (body : Bytes) :
    Prop where
  /-- The session is encrypted. -/
  before : c.common.encrypted = some enc
  /-- The call returns. -/
  run : runCall call c = .ok () c'
  /-- The session stays encrypted. -/
  after : c'.common.encrypted = some enc'
  /-- The packet is appended. -/
  written : enc'.write = pushPacket enc.write body

/-- A request that has written something has written its packet, to the other
side's number of the channel. -/
theorem request_written {c c' : Session} {enc enc' : Encrypted} {body : Bytes}
    (henc : c.common.encrypted = some enc) {channel : UInt32} {name rest : Bytes}
    (hrun : request channel name rest c = .ok () c') (henc' : c'.common.encrypted = some enc')
    (hwritten : enc'.write = pushPacket enc.write body) :
    ∃ ch, enc.channels channel = some ch ∧ body = channelRequest ch.recipientChannel name rest := by
  unfold request modifyEnc at hrun
  rw [run_modify] at hrun
  cases hrun
  simp only [CommonSession.modifyEnc, henc, Option.map_some, Option.some.injEq] at henc'
  cases hch : enc.channels channel with
  | none =>
    rw [hch] at henc'
    subst henc'
    exact absurd hwritten (pushPacket_ne _ _)
  | some ch =>
    rw [hch] at henc'
    subst henc'
    exact ⟨ch, rfl, (pushPacket_inj hwritten).symm⟩

/-- So has a request for a forwarding. -/
theorem forwardRequest_written {c c' : Session} {enc enc' : Encrypted} {body : Bytes}
    (henc : c.common.encrypted = some enc) {name address : Bytes} {want : Bool} {port : UInt32}
    (hrun : forwardRequest name want address port c = .ok () c')
    (henc' : c'.common.encrypted = some enc') (hwritten : enc'.write = pushPacket enc.write body) :
    body = msg.GLOBAL_REQUEST :: sshString name ++ flagByte want :: sshString address ++
      be32 port := by
  unfold forwardRequest push modifyEnc at hrun
  rw [run_modify] at hrun
  cases hrun
  simp only [CommonSession.modifyEnc, henc, Option.map_some, Option.some.injEq] at henc'
  subst henc'
  exact (pushPacket_inj hwritten).symm

/-- An opening that has written something has written its packet, with the
id of the new channel. -/
theorem openChannel_written {c c' : Session} {enc enc' : Encrypted} {body : Bytes}
    (henc : c.common.encrypted = some enc) {typ rest : Bytes} {result : Except Error UInt32}
    (hrun : openChannel typ rest c = .ok result c') (henc' : c'.common.encrypted = some enc')
    (hwritten : enc'.write = pushPacket enc.write body) :
    enc.channels enc'.lastChannelId = none ∧ body = channelOpenPacket typ enc'.lastChannelId
      c.common.config.windowSize c.common.config.maximumPacketSize rest := by
  unfold openChannel at hrun
  rw [run_bind, run_get] at hrun
  dsimp only at hrun
  rw [if_pos (by rw [henc]; rfl)] at hrun
  obtain ⟨enc1, hf, rfl⟩ := onCommon_withEnc_ok henc hrun
  cases henc'
  cases hstate : enc.state with
  | authenticated =>
    rw [hstate] at hf
    obtain ⟨⟨id, enc2⟩, hnew, hrest⟩ := ok_of_bind hf
    cases hrest
    obtain ⟨hnone, rfl⟩ := newChannel_ok hnew
    exact ⟨hnone, (pushPacket_inj hwritten).symm⟩
  | _ =>
    rw [hstate] at hf
    cases hf
    exact absurd hwritten (pushPacket_ne _ _)

/-- The server serves the packet that a call of the client has written: it
asks the question of the call, about its own side of the channel, with the
arguments of the call. A channel that the call opens gets an entry with the
client's id, window and packet size. -/
def Call.ServedBy (call : Call) (c : Session) (enc enc' : Encrypted) (handler : Server.Handler)
    (t : Server.Session) (tenc : Encrypted) (packet : Bytes) : Prop :=
  ∃ id callback u, call.question id = some callback ∧
    (∀ x, call.channel = some x → ∃ ch, enc.channels x = some ch ∧ ch.recipientChannel = id) ∧
    Server.Serves handler t packet callback u ∧
    (call.opens → tenc.channels id = none ∧ (u.common.encrypted.bind fun e => e.channels id) =
      some (Server.entryFor t.common.config id enc'.lastChannelId c.common.config.windowSize
        c.common.config.maximumPacketSize))

section
variable {call : Call} {c c' : Session} {enc enc' tenc : Encrypted} {body : Bytes}
variable {handler : Server.Handler} {t : Server.Session}

/-- What a written packet has to be like: it has the length for its
arguments, and if that is a `u32` the server serves it, with an id for the
channel that it opens. -/
def Call.Carries (call : Call) (c : Session) (enc enc' : Encrypted) (handler : Server.Handler)
    (t : Server.Session) (tenc : Encrypted) (body : Bytes) : Prop :=
  body.length = call.packetLength ∧ (body.length < 2 ^ 32 →
    (call.opens → ∃ id, tenc.channels id = none) → call.ServedBy c enc enc' handler t tenc body)

/-- A request on a channel is served, if the server reads its question. -/
theorem request_carries {channel : UInt32} {name rest : Bytes} {want : UInt8}
    {question : UInt32 → Server.Callback} (hwrites : call.Writes c c' enc enc' body)
    (hrun : runCall call = request channel name (want :: rest))
    (hquestion : ∀ id, call.question id = some (question id)) (hchannel : call.channel = some channel)
    (hopens : call.opens = false)
    (hread : call.packetLength < 2 ^ 32 → ∀ id, ∀ r : Position, r.Before rest →
      Server.channelRequestCallback id name r = .ok (some (question id)))
    (hturn : ∀ id, Server.turn handler (question id) = Server.finish handler (question id))
    (hlength : 10 + name.length + rest.length = call.packetLength) :
    call.Carries c enc enc' handler t tenc body := by
  have hwritten := hwrites.run
  rw [hrun] at hwritten
  obtain ⟨ch, hch, rfl⟩ := request_written hwrites.before hwritten hwrites.after hwrites.written
  have hbody : (channelRequest ch.recipientChannel name (want :: rest)).length =
      10 + name.length + rest.length := by
    simp only [channelRequest, sshString, List.length_cons, List.length_append, length_be32]
    omega
  refine ⟨hbody.trans hlength, fun hlt _ => ?_⟩
  obtain ⟨u, hserves⟩ := Server.channelRequest_serves handler t ch.recipientChannel want
    (by omega) (hread (by omega) _) (hturn _)
  refine ⟨ch.recipientChannel, _, u, hquestion _, fun x hx => ?_, hserves, fun h => ?_⟩
  · rw [hchannel] at hx
    cases hx
    exact ⟨ch, hch, rfl⟩
  · rw [hopens] at h
    cases h

/-- A request for a forwarding is served. -/
theorem forwardRequest_carries {name address : Bytes} {want : Bool} {port : UInt32}
    {callback : Server.Callback} (hwrites : call.Writes c c' enc enc' body)
    (hrun : runCall call = forwardRequest name want address port)
    (hquestion : ∀ id, call.question id = some callback) (hchannel : call.channel = none)
    (hopens : call.opens = false) (hvalid : utf8Valid address)
    (hcase : name = ascii "tcpip-forward" ∧ callback = .tcpipForward address port ∨
      name = ascii "cancel-tcpip-forward" ∧ callback = .cancelTcpipForward address port)
    (hlength : 14 + name.length + address.length = call.packetLength) :
    call.Carries c enc enc' handler t tenc body := by
  have hwritten := hwrites.run
  rw [hrun] at hwritten
  obtain rfl := forwardRequest_written hwrites.before hwritten hwrites.after hwrites.written
  have hbody : (msg.GLOBAL_REQUEST :: sshString name ++ flagByte want :: sshString address ++
      be32 port).length = 14 + name.length + address.length := by
    simp only [sshString, List.length_cons, List.length_append, length_be32]
    omega
  refine ⟨hbody.trans hlength, fun hlt _ => ?_⟩
  obtain ⟨u, hserves⟩ := Server.forwardRequest_serves handler t (flagByte want) (by omega)
    ⟨by omega, hvalid⟩ hcase
  refine ⟨0, _, u, hquestion _, fun x hx => ?_, hserves, fun h => ?_⟩
  · rw [hchannel] at hx
    cases hx
  · rw [hopens] at h
    cases h

/-- An opening is served, while the server has an id left. -/
theorem openChannel_carries {typ rest : Bytes} {question : UInt32 → Server.Callback}
    (henc : t.common.encrypted = some tenc) (hwrites : call.Writes c c' enc enc' body)
    (hrun : ∃ result, openChannel typ rest c = .ok result c')
    (hquestion : ∀ id, call.question id = some (question id)) (hchannel : call.channel = none)
    (hcase : call.packetLength < 2 ^ 32 → (typ = ascii "session" ∧ question = .channelOpenSession) ∨
      (∃ a port, typ = ascii "x11" ∧ rest = sshString a ++ be32 port ∧ a.length < 2 ^ 32 ∧
        utf8Valid a ∧ question = fun id => .channelOpenX11 id a port) ∨
      ∃ a port b port', typ = ascii "direct-tcpip" ∧
        rest = sshString a ++ (be32 port ++ (sshString b ++ be32 port')) ∧ a.length < 2 ^ 32 ∧
        utf8Valid a ∧ b.length < 2 ^ 32 ∧ utf8Valid b ∧
        question = fun id => .channelOpenDirectTcpip id a port b port')
    (hlength : 17 + typ.length + rest.length = call.packetLength) (hopens : call.opens = true) :
    call.Carries c enc enc' handler t tenc body := by
  obtain ⟨result, hwritten⟩ := hrun
  obtain ⟨-, rfl⟩ := openChannel_written hwrites.before hwritten hwrites.after hwrites.written
  have hbody : (channelOpenPacket typ enc'.lastChannelId c.common.config.windowSize
      c.common.config.maximumPacketSize rest).length = 17 + typ.length + rest.length := by
    simp only [channelOpenPacket, sshString, List.length_cons, List.length_append, length_be32]
    omega
  refine ⟨hbody.trans hlength, fun hlt hfree => ?_⟩
  obtain ⟨free, hnone⟩ := hfree hopens
  obtain ⟨id, u, hid, hserves, hentry⟩ := Server.channelOpen_serves handler henc hnone
    enc'.lastChannelId c.common.config.windowSize c.common.config.maximumPacketSize
      (hcase (by omega))
  refine ⟨id, _, u, hquestion _, fun x hx => ?_, hserves, fun _ => ⟨hid, hentry⟩⟩
  rw [hchannel] at hx
  cases hx

/-- A call that only drops what an opening returns. -/
theorem discards_ok {typ rest : Bytes}
    (h : (do let _ ← openChannel typ rest : M Unit) c = .ok () c') :
    ∃ result, openChannel typ rest c = .ok result c' := by
  rw [run_bind] at h
  cases hopen : openChannel typ rest c with
  | error e s =>
    rw [hopen] at h
    cases h
  | ok result s =>
    rw [hopen] at h
    cases h
    exact ⟨result, rfl⟩

/-- Every call that puts a question to the server writes a packet that carries it. -/
theorem Call.Writes.carries (henc : t.common.encrypted = some tenc)
    (hwrites : call.Writes c c' enc enc' body) (hquestion : (call.question 0).isSome)
    (htyped : call.Typed) : call.Carries c enc enc' handler t tenc body := by
  have hrun := hwrites.run
  cases call with
  | channelOpenSession =>
    exact openChannel_carries henc hwrites (discards_ok hrun) (fun _ => rfl) rfl
      (fun _ => .inl ⟨rfl, rfl⟩) rfl rfl
  | channelOpenX11 address port =>
    refine openChannel_carries henc hwrites (discards_ok hrun) (fun _ => rfl) rfl
      (fun hlt => ?_) ?_ rfl
    · simp only [Call.packetLength] at hlt
      exact .inr (.inl ⟨address, port, rfl, rfl, by omega, htyped, rfl⟩)
    · have hname : (ascii "x11").length = 3 := by decide
      simp only [Call.packetLength, sshString, List.length_append, length_be32, hname]
      omega
  | channelOpenDirectTcpip host port address port' =>
    refine openChannel_carries henc hwrites (discards_ok hrun) (fun _ => rfl) rfl
      (fun hlt => ?_) ?_ rfl
    · simp only [Call.packetLength] at hlt
      exact .inr (.inr ⟨host, port, address, port', rfl, by simp only [List.append_assoc],
        by omega, htyped.1, by omega, htyped.2, rfl⟩)
    · have hname : (ascii "direct-tcpip").length = 12 := by decide
      simp only [Call.packetLength, sshString, List.length_append, length_be32, hname]
      omega
  | requestPty channel want term colWidth rowHeight pixWidth pixHeight modes =>
    refine request_carries hwrites rfl (fun _ => rfl) rfl rfl (fun hlt id r hr => ?_)
      (fun _ => rfl) ?_
    · simp only [Call.packetLength] at hlt
      refine Server.reads_ptyRequest ?_ (by omega) htyped.1 htyped.2.1 htyped.2.2
      have hmodes : (modeList modes ++ [0]).length = 1 + 5 * modes.length := by
        rw [List.length_append, Server.length_modeList, List.length_singleton, Nat.add_comm]
      have hstring : sshString (modeList modes ++ [0]) =
          be32 (UInt32.ofNat (1 + 5 * modes.length)) ++ (modeList modes ++ [0]) := by
        rw [sshString, hmodes]
      rw [hstring]
      simpa using hr
    · have hname : (ascii "pty-req").length = 7 := by decide
      simp only [Call.packetLength, sshString, List.append_eq, List.length_append, length_be32,
        Server.length_modeList, List.length_singleton, hname]
      omega
  | requestX11 channel want single protocol cookie screen =>
    refine request_carries hwrites rfl (fun _ => rfl) rfl rfl (fun hlt id r hr => ?_)
      (fun _ => rfl) ?_
    · simp only [Call.packetLength] at hlt
      refine Server.reads_x11Request ?_ ⟨by omega, htyped.1⟩ ⟨by omega, htyped.2⟩
      simpa using hr
    · have hname : (ascii "x11-req").length = 7 := by decide
      simp only [Call.packetLength, sshString, List.append_eq, List.length_append,
        List.length_cons, length_be32, hname]
      omega
  | setEnv channel want name value =>
    refine request_carries hwrites rfl (fun _ => rfl) rfl rfl (fun hlt id r hr => ?_)
      (fun _ => rfl) ?_
    · simp only [Call.packetLength] at hlt
      exact Server.reads_envRequest hr ⟨by omega, htyped.1⟩ ⟨by omega, htyped.2⟩
    · have hname : (ascii "env").length = 3 := by decide
      simp only [Call.packetLength, sshString, List.append_eq, List.length_append, length_be32, hname]
      omega
  | requestShell want channel =>
    have hname : 10 + (ascii "shell").length = 15 := by decide
    exact request_carries hwrites rfl (fun _ => rfl) rfl rfl
      (fun _ _ _ _ => Server.reads_shellRequest) (fun _ => rfl) hname
  | exec channel want command =>
    refine request_carries hwrites rfl (fun _ => rfl) rfl rfl (fun hlt id r hr => ?_)
      (fun _ => rfl) ?_
    · simp only [Call.packetLength] at hlt
      exact Server.reads_execRequest hr (by omega)
    · have hname : (ascii "exec").length = 4 := by decide
      simp only [Call.packetLength, sshString, List.length_append, length_be32, hname]
      omega
  | requestSubsystem want channel name =>
    refine request_carries hwrites rfl (fun _ => rfl) rfl rfl (fun hlt id r hr => ?_)
      (fun _ => rfl) ?_
    · simp only [Call.packetLength] at hlt
      exact Server.reads_subsystemRequest hr ⟨by omega, htyped⟩
    · have hname : (ascii "subsystem").length = 9 := by decide
      simp only [Call.packetLength, sshString, List.length_append, length_be32, hname]
      omega
  | windowChange channel colWidth rowHeight pixWidth pixHeight =>
    refine request_carries hwrites rfl (fun _ => rfl) rfl rfl (fun _ id r hr => ?_)
      (fun _ => rfl) ?_
    · refine Server.reads_windowChangeRequest ?_
      simpa using hr
    · have hname : (ascii "window-change").length = 13 := by decide
      simp only [Call.packetLength, List.append_eq, List.length_append, length_be32, hname]
  | tcpipForward want address port =>
    refine forwardRequest_carries hwrites rfl (fun _ => rfl) rfl rfl htyped (.inl ⟨rfl, rfl⟩) ?_
    have hname : (ascii "tcpip-forward").length = 13 := by decide
    simp only [Call.packetLength, hname]
  | cancelTcpipForward want address port =>
    refine forwardRequest_carries hwrites rfl (fun _ => rfl) rfl rfl htyped (.inr ⟨rfl, rfl⟩) ?_
    have hname : (ascii "cancel-tcpip-forward").length = 20 := by decide
    simp only [Call.packetLength, hname]
  | _ => cases hquestion

/-- The packet that a call has written is served, with the question and the
arguments of the call, if and only if its length is a `u32` and the server
has an id for a channel that is opened. -/
theorem Call.served_iff (henc : t.common.encrypted = some tenc)
    (hwrites : call.Writes c c' enc enc' body) (hquestion : (call.question 0).isSome)
    (htyped : call.Typed) :
    call.ServedBy c enc enc' handler t tenc (framed body) ↔
      call.packetLength < 2 ^ 32 ∧ (call.opens → ∃ id, tenc.channels id = none) := by
  have hcarries : call.Carries c enc enc' handler t tenc body :=
    hwrites.carries henc hquestion htyped
  obtain ⟨hlength, hserved⟩ := hcarries
  constructor
  · rintro ⟨id, callback, u, hcallback, -, hserves, hentry⟩
    refine ⟨?_, fun hopens => ⟨id, (hentry hopens).1⟩⟩
    by_contra hlong
    have hcut : (framed body).length + 2 ^ 32 ≤ body.length := length_framed_of_le (by omega)
    have hsize := hserves.size
    have hle := Call.packetLength_le hcallback
    omega
  · rintro ⟨hlt, hfree⟩
    rw [framed_of_lt (by omega)]
    exact hserved (by omega) hfree

/-- A request on an open channel writes its packet. -/
theorem request_writes {channel : UInt32} {ch : Channel} {name rest : Bytes}
    (henc : c.common.encrypted = some enc) (hch : enc.channels channel = some ch)
    (hrun : runCall call = request channel name rest) :
    ∃ c' enc', call.Writes c c' enc enc' (channelRequest ch.recipientChannel name rest) := by
  refine ⟨c.withEnc (enc.push (channelRequest ch.recipientChannel name rest)), _, henc, ?_, rfl, rfl⟩
  rw [hrun]
  unfold request modifyEnc
  rw [run_modify]
  simp only [CommonSession.modifyEnc, henc, Option.map_some, hch, Session.withEnc]

end

end Client

/-- A command of two bytes is served. -/
theorem Client.served_exec :
    letI := Concrete.deps
    ∃ c' enc' body, (Client.Call.exec 2 true [108, 115]).Writes (Concrete.clientWithChannel 100) c'
        (Concrete.withChannel 100) enc' body ∧
      (Client.Call.exec 2 true [108, 115]).ServedBy (Concrete.clientWithChannel 100)
        (Concrete.withChannel 100) enc' Concrete.handler (Concrete.serverWithChannel 100)
        (Concrete.withPeerChannel 100) (framed body) := by
  let _ := Concrete.deps
  have henc : (Concrete.clientWithChannel 100).common.encrypted =
      some (Concrete.withChannel 100) := rfl
  have hch : (Concrete.withChannel 100).channels 2 = some (Concrete.channel 100) := rfl
  have hrun : Client.runCall (.exec 2 true [108, 115]) =
      Client.request 2 (ascii "exec") (flagByte true :: sshString [108, 115]) := rfl
  obtain ⟨c', enc', hwrites⟩ := Client.request_writes henc hch hrun
  exact ⟨c', enc', _, hwrites, (Client.Call.served_iff rfl hwrites rfl trivial).mpr
    ⟨by decide, fun h => by cases h⟩⟩

/-- A command of `2 ^ 32` bytes is written, and is not served. -/
theorem Client.unserved_exec :
    letI := Concrete.deps
    ∃ command : Bytes, command = List.replicate (2 ^ 32) 97 ∧
      ∃ c' enc' body, (Client.Call.exec 2 true command).Writes (Concrete.clientWithChannel 100) c'
          (Concrete.withChannel 100) enc' body ∧
        ¬ (Client.Call.exec 2 true command).ServedBy (Concrete.clientWithChannel 100)
          (Concrete.withChannel 100) enc' Concrete.handler
          (Concrete.serverWithChannel 100) (Concrete.withPeerChannel 100)
          (framed body) := by
  let _ := Concrete.deps
  obtain ⟨command, hcommand⟩ : ∃ command : Bytes, command = List.replicate (2 ^ 32) 97 := ⟨_, rfl⟩
  have hlength : command.length = 2 ^ 32 := by rw [hcommand, List.length_replicate]
  have henc : (Concrete.clientWithChannel 100).common.encrypted =
      some (Concrete.withChannel 100) := rfl
  have hch : (Concrete.withChannel 100).channels 2 = some (Concrete.channel 100) := rfl
  have hrun : Client.runCall (.exec 2 true command) =
      Client.request 2 (ascii "exec") (flagByte true :: sshString command) := rfl
  obtain ⟨c', enc', hwrites⟩ := Client.request_writes henc hch hrun
  refine ⟨command, hcommand, c', enc', _, hwrites, fun hserved => ?_⟩
  have hlt := ((Client.Call.served_iff rfl hwrites rfl trivial).mp hserved).1
  simp only [Client.Call.packetLength, hlength] at hlt
  omega

section
variable [Deps]

/-- No signal is served under its name: its packet is one byte short. -/
theorem Client.signal_unserved {channel : UInt32} {sig : Sig} {c c' : Client.Session}
    {enc enc' : Encrypted} {body : Bytes}
    (hwrites : (Client.Call.signal channel sig).Writes c c' enc enc' body)
    (handler : Server.Handler) (t : Server.Session) :
    ¬ ∃ id sig' u, sig'.name = sig.name ∧
      Server.Serves handler t (framed body) (.signal id sig') u := by
  rintro ⟨id, sig', u, hname, hserves⟩
  obtain ⟨ch, -, rfl⟩ := Client.request_written hwrites.before hwrites.run hwrites.after
    hwrites.written
  have hsize := hserves.size
  have hsignal : (ascii "signal").length = 6 := by decide
  have hcut : (framed (channelRequest ch.recipientChannel (ascii "signal")
      (0 :: sshString sig.name))).length ≤ 20 + sig.name.length := by
    rw [framed, List.length_take]
    refine Nat.le_trans (Nat.min_le_right _ _) (Nat.le_of_eq ?_)
    simp only [channelRequest, sshString, List.length_cons, List.length_append, length_be32,
      hsignal]
    omega
  simp only [Server.Callback.size, hname] at hsize
  omega

end

/-- Nor is HUP. -/
theorem Client.unserved_hup :
    letI := Concrete.deps
    ∃ c' enc' body, (Client.Call.signal 2 .hup).Writes (Concrete.clientWithChannel 100) c'
        (Concrete.withChannel 100) enc' body ∧
      ¬ ∃ id sig u, Sig.name sig = ascii "HUP" ∧ Server.Serves Concrete.handler
        (Concrete.serverWithChannel 100) (framed body) (.signal id sig) u := by
  let _ := Concrete.deps
  have henc : (Concrete.clientWithChannel 100).common.encrypted =
      some (Concrete.withChannel 100) := rfl
  have hch : (Concrete.withChannel 100).channels 2 = some (Concrete.channel 100) := rfl
  have hrun : Client.runCall (.signal 2 .hup) =
      Client.request 2 (ascii "signal") (0 :: sshString (ascii "HUP")) := rfl
  obtain ⟨c', enc', hwrites⟩ := Client.request_writes henc hch hrun
  exact ⟨c', enc', _, hwrites, Client.signal_unserved hwrites _ _⟩

/-- The server gets an error from the packet of a TERM, and asks nothing. -/
theorem Client.term_fails :
    letI := Concrete.deps
    ∃ c' enc' body, (Client.Call.signal 2 .term).Writes (Concrete.clientWithChannel 100) c'
        (Concrete.withChannel 100) enc' body ∧
      (final (Server.serverReadAuthenticated Concrete.handler (framed body)
        (Concrete.serverWithChannel 100))).callbacks = [] ∧
      (match Server.serverReadAuthenticated Concrete.handler (framed body)
        (Concrete.serverWithChannel 100) with
      | .ok _ _ => none
      | .error e _ => some e) = some (.error .indexOutOfBounds) := by
  let _ := Concrete.deps
  have henc : (Concrete.clientWithChannel 100).common.encrypted =
      some (Concrete.withChannel 100) := rfl
  have hch : (Concrete.withChannel 100).channels 2 = some (Concrete.channel 100) := rfl
  have hrun : Client.runCall (.signal 2 .term) =
      Client.request 2 (ascii "signal") (0 :: sshString (ascii "TERM")) := rfl
  obtain ⟨c', enc', hwrites⟩ := Client.request_writes henc hch hrun
  exact ⟨c', enc', _, hwrites, by decide +kernel, by decide +kernel⟩

end Thrussh
