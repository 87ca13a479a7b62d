import Thrussh.Api

/-!
# The client's session and its application

`client::Config`, `client::Session` with its public calls, and the
application: the handler, an oracle as on the server, and the owner of the
handle, who sends local messages. Senders of channel messages are numbered.
`callbacks`, `sent` and `replies` are history variables: the questions put
to the handler, the messages sent to channels and the replies sent to the
handle.
-/

namespace Thrussh.Client

open Lib

/-- `client::Config`. -/
structure Config where
  /-- The client's identification line. -/
  clientId : Bytes
  /-- The limits before a re-exchange. -/
  limits : Limits
  /-- The initial window size of a channel. -/
  windowSize : UInt32
  /-- The maximal size of a packet. -/
  maximumPacketSize : UInt32
  /-- Preferred algorithms. -/
  preferred : Preferred

instance : SessionConfig Config where
  role := .client
  limits := Config.limits
  preferred := Config.preferred

/-- `Reply`. -/
inductive Reply where
  | authSuccess
  | authFailure
  | channelOpenFailure
  | signRequest (key : PublicKey) (data : Bytes)
  deriving DecidableEq

/-- `OpenChannelMsg`. -/
inductive OpenChannelMsg where
  | opened (id maxPacketSize windowSize : UInt32)
  | msg (m : ChannelMsg)
  deriving DecidableEq

/-- `Msg`. A sender of channel messages is its number. -/
inductive Msg where
  | authenticate (user : Bytes) (method : Method)
  | signed (data : Bytes)
  | channelOpenSession (sender : Nat)
  | channelOpenX11 (originatorAddress : Bytes) (originatorPort : UInt32) (sender : Nat)
  | channelOpenDirectTcpip (hostToConnect : Bytes) (portToConnect : UInt32)
      (originatorAddress : Bytes) (originatorPort : UInt32) (sender : Nat)
  | tcpipForward (wantReply : Bool) (address : Bytes) (port : UInt32)
  | cancelTcpipForward (wantReply : Bool) (address : Bytes) (port : UInt32)
  | disconnect (reason : Disconnect) (description languageTag : Bytes)
  | data (id : UInt32) (data : Bytes)
  | extendedData (id : UInt32) (data : Bytes) (ext : UInt32)
  | eof (id : UInt32)
  | requestPty (id : UInt32) (wantReply : Bool) (term : Bytes)
      (colWidth rowHeight pixWidth pixHeight : UInt32) (terminalModes : List (Pty × UInt32))
  | requestShell (id : UInt32) (wantReply : Bool)
  | exec (id : UInt32) (wantReply : Bool) (command : Bytes)
  | signal (id : UInt32) (signal : Sig)
  | requestSubsystem (id : UInt32) (wantReply : Bool) (name : Bytes)
  | requestX11 (id : UInt32) (wantReply singleConnection : Bool)
      (x11AuthenticationProtocol x11AuthenticationCookie : Bytes) (x11ScreenNumber : UInt32)
  | setEnv (id : UInt32) (wantReply : Bool) (variableName variableValue : Bytes)
  | windowChange (id colWidth rowHeight pixWidth pixHeight : UInt32)
  deriving DecidableEq

/-- A method of `Handler`, with its arguments. -/
inductive Callback where
  | onSessionConnected
  | authBanner (banner : Bytes)
  | checkServerKey (serverPublicKey : PublicKey)
  | channelOpenConfirmation (id maxPacketSize windowSize : UInt32)
  | channelSuccess (channel : UInt32)
  | channelClose (channel : UInt32)
  | channelEof (channel : UInt32)
  | channelOpenFailure (channel : UInt32) (reason : ChannelOpenFailure)
      (description language : Bytes)
  | channelOpenForwardedTcpip (channel : UInt32) (connectedAddress : Bytes)
      (connectedPort : UInt32) (originatorAddress : Bytes) (originatorPort : UInt32)
  | channelOpenForwardedTcpipClient (channel : UInt32) (connectedAddress : Bytes)
      (connectedPort : UInt32) (originatorAddress : Bytes)
      (originatorPort windowSize maxPacketSize : UInt32)
  | data (channel : UInt32) (data : Bytes)
  | extendedData (channel ext : UInt32) (data : Bytes)
  | xonXoff (channel : UInt32) (clientCanDo : Bool)
  | exitStatus (channel exitStatus : UInt32)
  | exitSignal (channel : UInt32) (signalName : Sig) (coreDumped : Bool)
      (errorMessage langTag : Bytes)
  | windowAdjusted (channel newSize : UInt32)
  | adjustWindow (channel window : UInt32)
  deriving DecidableEq

/-- What a handler can do with the session it is given: the public methods of
`Session`, and what the default methods and the tunnel of this crate do with
its private fields. -/
inductive Call where
  | channelOpenSession
  | channelOpenX11 (originatorAddress : Bytes) (originatorPort : UInt32)
  | channelOpenDirectTcpip (hostToConnect : Bytes) (portToConnect : UInt32)
      (originatorAddress : Bytes) (originatorPort : UInt32)
  | requestPty (channel : UInt32) (wantReply : Bool) (term : Bytes)
      (colWidth rowHeight pixWidth pixHeight : UInt32) (terminalModes : List (Pty × UInt32))
  | requestX11 (channel : UInt32) (wantReply singleConnection : Bool)
      (x11AuthenticationProtocol x11AuthenticationCookie : Bytes) (x11ScreenNumber : UInt32)
  | setEnv (channel : UInt32) (wantReply : Bool) (variableName variableValue : Bytes)
  | requestShell (wantReply : Bool) (channel : UInt32)
  | exec (channel : UInt32) (wantReply : Bool) (command : Bytes)
  | signal (channel : UInt32) (signal : Sig)
  | requestSubsystem (wantReply : Bool) (channel : UInt32) (name : Bytes)
  | windowChange (channel colWidth rowHeight pixWidth pixHeight : UInt32)
  | tcpipForward (wantReply : Bool) (address : Bytes) (port : UInt32)
  | cancelTcpipForward (wantReply : Bool) (address : Bytes) (port : UInt32)
  | data (channel : UInt32) (data : Bytes)
  | eof (channel : UInt32)
  | extendedData (channel ext : UInt32) (data : Bytes)
  | disconnect (reason : Disconnect) (description languageTag : Bytes)
  | confirmChannelOpen (remoteChannelNo localChannelNo : UInt32)
  /-- `session.channels.get(&channel)` and `send`. -/
  | sendTo (channel : UInt32) (m : OpenChannelMsg)
  /-- `session.channels.remove(&channel)`. -/
  | forget (channel : UInt32)
  /-- `session.sender.send(reply).unwrap_or(())`. -/
  | sendReply (reply : Reply)
  /-- The default `window_adjusted`. -/
  | flushAdjusted (channel newSize : UInt32)
  /-- `create_forwarded_tcpip_channel`, with the number of the new sender. -/
  | createForwardedTcpipChannel (remoteChannel : UInt32) (sender : Nat)
      (windowSize maxPacketSize : UInt32)
  deriving DecidableEq

/-- What a handler does when it is asked. Only the fields its method returns are read. -/
structure Answer where
  /-- What it does with the session it is given. -/
  calls : List Call
  /-- Whether it returns an `Err`. -/
  fail : Bool
  /-- The verdict of `check_server_key`. -/
  check : Bool
  /-- The window of `adjust_window`. -/
  window : UInt32
  deriving DecidableEq

/-- The answer of the default methods. -/
def Answer.default : Callback → Answer
  | .channelOpenConfirmation id maxPacketSize windowSize =>
    ⟨[.sendTo id (.opened id maxPacketSize windowSize)], false, false, 0⟩
  | .channelSuccess channel => ⟨[.sendTo channel (.msg .success)], false, false, 0⟩
  | .channelClose channel => ⟨[.forget channel], false, false, 0⟩
  | .channelEof channel => ⟨[.sendTo channel (.msg .eof)], false, false, 0⟩
  | .channelOpenFailure channel _ _ _ =>
    ⟨[.forget channel, .sendReply .channelOpenFailure], false, false, 0⟩
  | .data channel data => ⟨[.sendTo channel (.msg (.data data))], false, false, 0⟩
  | .extendedData channel ext data =>
    ⟨[.sendTo channel (.msg (.extendedData data ext))], false, false, 0⟩
  | .xonXoff channel clientCanDo =>
    ⟨[.sendTo channel (.msg (.xonXoff clientCanDo))], false, false, 0⟩
  | .exitStatus channel exitStatus =>
    ⟨[.sendTo channel (.msg (.exitStatus exitStatus))], false, false, 0⟩
  | .exitSignal channel signalName coreDumped errorMessage langTag =>
    ⟨[.sendTo channel (.msg (.exitSignal signalName coreDumped errorMessage langTag))],
      false, false, 0⟩
  | .windowAdjusted channel newSize => ⟨[.flushAdjusted channel newSize], false, false, 0⟩
  | .adjustWindow _ window => ⟨[], false, false, window⟩
  | .onSessionConnected => ⟨[], false, false, 0⟩
  | .authBanner _ => ⟨[], false, false, 0⟩
  | .checkServerKey _ => ⟨[], false, false, 0⟩
  | .channelOpenForwardedTcpip _ _ _ _ _ => ⟨[], false, false, 0⟩
  | .channelOpenForwardedTcpipClient _ _ _ _ _ _ _ => ⟨[], false, false, 0⟩

section
variable [Deps]

/-- `client::Session`. -/
structure Session where
  /-- The part both roles share. -/
  common : CommonSession Config
  /-- The senders of channel messages. -/
  channels : UInt32 → Option Nat
  /-- The window to grant next. -/
  targetWindowSize : UInt32
  /-- History: the questions put to the handler and its answers. -/
  callbacks : List (Callback × Answer)
  /-- History: the messages sent to channels. -/
  sent : List (Nat × OpenChannelMsg)
  /-- History: the replies sent to the handle. -/
  replies : List Reply

/-- A step of the client's session. -/
abbrev M := EStateM Fault Session

/-- The application around a session. Its answers are numbered by the questions asked so far. -/
structure Application where
  /-- The handler. -/
  handler : Nat → Callback → Session → Answer
  /-- Whether the handle still receives replies. -/
  listening : Nat → Session → Bool
  /-- The messages that arrive while the session waits for a signature. -/
  awaited : Nat → Session → List Msg

/-- A step on the common part. -/
def onCommon {α : Type} (x : CommonM Config α) : M α :=
  zoom Session.common (fun c s => { s with common := c }) x

/-- `enc`, where the source unwraps it. -/
def getEnc : M Encrypted := do
  match (← get).common.encrypted with
  | some enc => pure enc
  | none => throw .panic

/-- A step of `enc`. -/
def modifyEnc (f : Encrypted → Encrypted) : M Unit :=
  modify fun s => { s with common := s.common.modifyEnc f }

/-- `push_packet!` on `enc.write`. -/
def push (body : Bytes) : M Unit := modifyEnc (·.push body)

/-- `Session::is_rekeying`. -/
def Session.isRekeying (s : Session) : Bool :=
  match s.common.encrypted with
  | some enc => enc.rekey.isSome
  | none => true

/-- What the three methods that open a channel share: the id, or the error they return. -/
def openChannel (typ rest : Bytes) : M (Except Error UInt32) := do
  let s ← get
  let config := s.common.config
  if s.common.encrypted.isSome then
    onCommon (withEnc fun enc =>
      match enc.state with
      | .authenticated => do
        let (id, enc) ← enc.newChannel config.windowSize config.maximumPacketSize
        .ok (.ok id, enc.push
          (channelOpenPacket typ id config.windowSize config.maximumPacketSize rest))
      | _ => .ok (.error .notAuthenticated, enc))
  else pure (.error .inconsistent)

/-- `Session::channel_open_session`. -/
def channelOpenSession : M (Except Error UInt32) := openChannel (ascii "session") []

/-- `Session::channel_open_x11`. -/
def channelOpenX11 (originatorAddress : Bytes) (originatorPort : UInt32) :
    M (Except Error UInt32) :=
  openChannel (ascii "x11") (sshString originatorAddress ++ be32 originatorPort)

/-- `Session::channel_open_direct_tcpip`. -/
def channelOpenDirectTcpip (hostToConnect : Bytes) (portToConnect : UInt32)
    (originatorAddress : Bytes) (originatorPort : UInt32) : M (Except Error UInt32) :=
  openChannel (ascii "direct-tcpip") (sshString hostToConnect ++ be32 portToConnect ++
    sshString originatorAddress ++ be32 originatorPort)

/-- A request on a channel of the table. -/
def request (channel : UInt32) (name rest : Bytes) : M Unit := modifyEnc fun enc =>
  match enc.channels channel with
  | some ch => enc.push (channelRequest ch.recipientChannel name rest)
  | none => enc

/-- The modes of a pty-req. -/
def modeList (terminalModes : List (Pty × UInt32)) : Bytes :=
  terminalModes.flatMap fun m => m.1.code :: be32 m.2

/-- `Session::request_pty`. -/
def requestPty (channel : UInt32) (wantReply : Bool) (term : Bytes)
    (colWidth rowHeight pixWidth pixHeight : UInt32) (terminalModes : List (Pty × UInt32)) :
    M Unit :=
  request channel (ascii "pty-req") (flagByte wantReply :: sshString term ++ be32 colWidth ++
    be32 rowHeight ++ be32 pixWidth ++ be32 pixHeight ++
    be32 (UInt32.ofNat (1 + 5 * terminalModes.length)) ++ modeList terminalModes ++ [0])

/-- `Session::request_x11`. -/
def requestX11 (channel : UInt32) (wantReply singleConnection : Bool)
    (x11AuthenticationProtocol x11AuthenticationCookie : Bytes) (x11ScreenNumber : UInt32) :
    M Unit :=
  request channel (ascii "x11-req") (flagByte wantReply :: flagByte singleConnection ::
    sshString x11AuthenticationProtocol ++ sshString x11AuthenticationCookie ++
    be32 x11ScreenNumber)

/-- `Session::set_env`. -/
def setEnv (channel : UInt32) (wantReply : Bool) (variableName variableValue : Bytes) : M Unit :=
  request channel (ascii "env") (flagByte wantReply :: sshString variableName ++
    sshString variableValue)

/-- `Session::request_shell`. -/
def requestShell (wantReply : Bool) (channel : UInt32) : M Unit :=
  request channel (ascii "shell") [flagByte wantReply]

/-- `Session::exec`. -/
def exec (channel : UInt32) (wantReply : Bool) (command : Bytes) : M Unit :=
  request channel (ascii "exec") (flagByte wantReply :: sshString command)

/-- `Session::signal`. -/
def signal (channel : UInt32) (signal : Sig) : M Unit :=
  request channel (ascii "signal") (0 :: sshString signal.name)

/-- `Session::request_subsystem`. -/
def requestSubsystem (wantReply : Bool) (channel : UInt32) (name : Bytes) : M Unit :=
  request channel (ascii "subsystem") (flagByte wantReply :: sshString name)

/-- `Session::window_change`. -/
def windowChange (channel colWidth rowHeight pixWidth pixHeight : UInt32) : M Unit :=
  request channel (ascii "window-change") (0 :: be32 colWidth ++ be32 rowHeight ++
    be32 pixWidth ++ be32 pixHeight)

/-- A GLOBAL_REQUEST for a forwarding. -/
def forwardRequest (name : Bytes) (wantReply : Bool) (address : Bytes) (port : UInt32) : M Unit :=
  push (msg.GLOBAL_REQUEST :: sshString name ++ flagByte wantReply :: sshString address ++
    be32 port)

/-- `Session::tcpip_forward`. -/
def tcpipForward (wantReply : Bool) (address : Bytes) (port : UInt32) : M Unit :=
  forwardRequest (ascii "tcpip-forward") wantReply address port

/-- `Session::cancel_tcpip_forward`. -/
def cancelTcpipForward (wantReply : Bool) (address : Bytes) (port : UInt32) : M Unit :=
  forwardRequest (ascii "cancel-tcpip-forward") wantReply address port

/-- `unreachable!()` when the session is not encrypted yet. -/
def assertEncrypted : M Unit := do
  if (← get).common.encrypted.isSome then pure () else throw .panic

/-- `Session::data`. -/
def data (channel : UInt32) (data : Bytes) : M Unit := do
  assertEncrypted
  onCommon (updateEnc (·.data channel data))

/-- `Session::eof`. -/
def eof (channel : UInt32) : M Unit := do
  assertEncrypted
  modifyEnc (·.eof channel)

/-- `Session::extended_data`. -/
def extendedData (channel ext : UInt32) (data : Bytes) : M Unit := do
  assertEncrypted
  onCommon (updateEnc (·.extendedData channel ext data))

/-- `Session::disconnect`. -/
def disconnect (reason : Disconnect) (description languageTag : Bytes) : M Unit :=
  onCommon (modify (·.disconnect reason description languageTag))

/-- `Session::confirm_channel_open`. -/
def confirmChannelOpen (remoteChannelNo localChannelNo : UInt32) : M Unit := do
  let config := (← get).common.config
  push (confirmChannelOpenPacket remoteChannelNo localChannelNo config.windowSize
    config.maximumPacketSize)

/-- `create_forwarded_tcpip_channel`. On an unencrypted session it returns an
`Err`, which its caller unwraps. -/
def createForwardedTcpipChannel (remoteChannel : UInt32) (sender : Nat)
    (windowSize maxPacketSize : UInt32) : M Unit := do
  let config := (← get).common.config
  let id ← onCommon (withEnc Encrypted.newChannelId)
  modify fun s => { s with channels := Function.update s.channels id (some sender) }
  modifyEnc fun enc => enc.insertChannel id ⟨remoteChannel, id, windowSize, config.windowSize,
    maxPacketSize, config.maximumPacketSize, true, false, []⟩
  confirmChannelOpen remoteChannel id

/-- `channels.get(&channel)` and `send`, where a closed receiver is ignored. -/
def sendTo (channel : UInt32) (m : OpenChannelMsg) : M Unit := modify fun s =>
  match s.channels channel with
  | some sender => { s with sent := s.sent ++ [(sender, m)] }
  | none => s

/-- The default `window_adjusted`: the size it passes on has the bytes sent taken off. -/
def flushAdjusted (channel newSize : UInt32) : M Unit := do
  if (← get).common.encrypted.isSome then do
    let size ← onCommon (withEnc fun enc => (enc.flushPending channel).map Prod.swap)
    if UInt32.ofNat size ≤ newSize then
      sendTo channel (.msg (.windowAdjusted (newSize - UInt32.ofNat size)))
    else throw .overflow
  else sendTo channel (.msg (.windowAdjusted newSize))

/-- Something a handler does with its session. -/
def runCall : Call → M Unit
  | .channelOpenSession => do
    let _ ← channelOpenSession
  | .channelOpenX11 originatorAddress originatorPort => do
    let _ ← channelOpenX11 originatorAddress originatorPort
  | .channelOpenDirectTcpip hostToConnect portToConnect originatorAddress originatorPort => do
    let _ ← channelOpenDirectTcpip hostToConnect portToConnect originatorAddress originatorPort
  | .requestPty channel wantReply term colWidth rowHeight pixWidth pixHeight terminalModes =>
    requestPty channel wantReply term colWidth rowHeight pixWidth pixHeight terminalModes
  | .requestX11 channel wantReply singleConnection protocol cookie x11ScreenNumber =>
    requestX11 channel wantReply singleConnection protocol cookie x11ScreenNumber
  | .setEnv channel wantReply variableName variableValue =>
    setEnv channel wantReply variableName variableValue
  | .requestShell wantReply channel => requestShell wantReply channel
  | .exec channel wantReply command => exec channel wantReply command
  | .signal channel sig => signal channel sig
  | .requestSubsystem wantReply channel name => requestSubsystem wantReply channel name
  | .windowChange channel colWidth rowHeight pixWidth pixHeight =>
    windowChange channel colWidth rowHeight pixWidth pixHeight
  | .tcpipForward wantReply address port => tcpipForward wantReply address port
  | .cancelTcpipForward wantReply address port => cancelTcpipForward wantReply address port
  | .data channel d => data channel d
  | .eof channel => eof channel
  | .extendedData channel ext d => extendedData channel ext d
  | .disconnect reason description languageTag => disconnect reason description languageTag
  | .confirmChannelOpen remoteChannelNo localChannelNo =>
    confirmChannelOpen remoteChannelNo localChannelNo
  | .sendTo channel m => sendTo channel m
  | .forget channel => modify fun s => { s with channels := Function.update s.channels channel none }
  | .sendReply reply => modify fun s => { s with replies := s.replies ++ [reply] }
  | .flushAdjusted channel newSize => flushAdjusted channel newSize
  | .createForwardedTcpipChannel remoteChannel sender windowSize maxPacketSize =>
    createForwardedTcpipChannel remoteChannel sender windowSize maxPacketSize

/-- Put a question to the handler. -/
def ask (app : Application) (callback : Callback) : M Answer := fun s =>
  let answer := app.handler s.common.tick callback s
  .ok answer { s with
    common := { s.common with tick := s.common.tick + 1 }
    callbacks := s.callbacks ++ [(callback, answer)] }

/-- A method that is given the session and returns it. -/
def finish (app : Application) (callback : Callback) : M Unit := do
  let answer ← ask app callback
  answer.calls.forM runCall
  if answer.fail then throw (.error .handler) else pure ()

/-- `check_server_key`, which is not given the session. -/
def checkServerKey (app : Application) (serverPublicKey : PublicKey) : M Bool := do
  let answer ← ask app (.checkServerKey serverPublicKey)
  if answer.fail then throw (.error .handler) else pure answer.check

/-- `self.sender.send(reply)`, which fails once the handle is gone. -/
def sendReply (app : Application) (reply : Reply) : M Unit := fun s =>
  if app.listening s.common.tick s then
    .ok () { s with
      common := { s.common with tick := s.common.tick + 1 }, replies := s.replies ++ [reply] }
  else .error (.error .sendError) { s with common := { s.common with tick := s.common.tick + 1 } }

/-- The session with another `enc`. -/
def Session.withEnc (s : Session) (enc : Encrypted) : Session :=
  { s with common := { s.common with encrypted := some enc } }

theorem run_onCommon {s : Session} {enc enc' : Encrypted} {α : Type} {a : α}
    {f : Encrypted → Except Fault (α × Encrypted)}
    (henc : s.common.encrypted = some enc) (hf : f enc = .ok (a, enc')) :
    onCommon (Thrussh.withEnc f) s = .ok a (s.withEnc enc') := by
  unfold onCommon zoom
  rw [run_withEnc henc hf]
  rfl

/-- What a change of `enc` that returns has computed. -/
theorem onCommon_withEnc_ok {s s' : Session} {enc : Encrypted} {α : Type} {a : α}
    {f : Encrypted → Except Fault (α × Encrypted)} (henc : s.common.encrypted = some enc)
    (h : onCommon (Thrussh.withEnc f) s = .ok a s') :
    ∃ enc', f enc = .ok (a, enc') ∧ s' = s.withEnc enc' := by
  cases hf : f enc with
  | ok res =>
    obtain ⟨a', enc'⟩ := res
    rw [run_onCommon henc hf] at h
    cases h
    exact ⟨enc', rfl, rfl⟩
  | error e =>
    simp only [onCommon, zoom, Thrussh.withEnc, run_bind, run_get, henc, hf, run_lift_error] at h
    cases h

end

end Thrussh.Client
