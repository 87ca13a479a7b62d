import Thrussh.Api

/-!
# The server's session and its handler

`server::Config`, `server::Session` with its public calls, and the handler.
A handler is an oracle: asked for the n-th time, and shown the session, it
answers with the calls it makes on the session and with what it returns.
`callbacks` is a history variable: every question put to the handler, with
its answer.
-/

namespace Thrussh.Server

open Lib

/-- `server::Config`. -/
structure Config where
  /-- The server's identification line. -/
  serverId : Bytes
  /-- Authentication methods proposed to the client. -/
  methods : MethodSet
  /-- The authentication banner. -/
  authBanner : Option Bytes
  /-- The server's keys. -/
  keys : List KeyPair
  /-- The limits before a re-exchange. -/
  limits : Limits
  /-- The initial window size of a channel. -/
  windowSize : UInt32
  /-- The maximal size of a packet. -/
  maximumPacketSize : UInt32
  /-- Preferred algorithms. -/
  preferred : Preferred
  /-- Maximal number of authentication attempts, which nothing reads. -/
  maxAuthAttempts : Nat
  /-- Time after which an idle connection is closed. -/
  connectionTimeout : Option Nat

instance : SessionConfig Config where
  role := .server
  limits := Config.limits
  preferred := Config.preferred

/-- A method of `Handler`, with its arguments. -/
inductive Callback where
  | authPassword (user password : Bytes)
  | authPublickey (user : Bytes) (publicKey : PublicKey)
  /-- The response is the reader behind the count, and the count. -/
  | authKeyboardInteractive (user submethods : Bytes) (response : Option (Position × UInt32))
  | channelClose (channel : UInt32)
  | channelEof (channel : UInt32)
  | channelOpenSession (channel : UInt32)
  | channelOpenX11 (channel : UInt32) (originatorAddress : Bytes) (originatorPort : UInt32)
  | channelOpenDirectTcpip (channel : UInt32) (hostToConnect : Bytes) (portToConnect : UInt32)
      (originatorAddress : Bytes) (originatorPort : UInt32)
  | data (channel : UInt32) (data : Bytes)
  | extendedData (channel code : UInt32) (data : Bytes)
  | windowAdjusted (channel newWindowSize : UInt32)
  | adjustWindow (channel current : UInt32)
  | ptyRequest (channel : UInt32) (term : Bytes) (colWidth rowHeight pixWidth pixHeight : UInt32)
      (modes : List (Pty × UInt32))
  | x11Request (channel : UInt32) (singleConnection : Bool) (x11AuthProtocol x11AuthCookie : Bytes)
      (x11ScreenNumber : UInt32)
  | envRequest (channel : UInt32) (variableName variableValue : Bytes)
  | shellRequest (channel : UInt32)
  | execRequest (channel : UInt32) (data : Bytes)
  | subsystemRequest (channel : UInt32) (name : Bytes)
  | windowChangeRequest (channel colWidth rowHeight pixWidth pixHeight : UInt32)
  | signal (channel : UInt32) (signalName : Sig)
  | tcpipForward (address : Bytes) (port : UInt32)
  | cancelTcpipForward (address : Bytes) (port : UInt32)
  deriving DecidableEq

/-- A public method of `Session` that changes the session. -/
inductive Call where
  | flush
  | flushPending (channel : UInt32)
  | disconnect (reason : Disconnect) (description languageTag : Bytes)
  | requestSuccess
  | requestFailure
  | channelSuccess (channel : UInt32)
  | channelFailure (channel : UInt32)
  | channelOpenFailure (channel : UInt32) (reason : ChannelOpenFailure)
      (description language : Bytes)
  | close (channel : UInt32)
  | eof (channel : UInt32)
  | data (channel : UInt32) (data : Bytes)
  | extendedData (channel extended : UInt32) (data : Bytes)
  | xonXoffRequest (channel : UInt32) (clientCanDo : Bool)
  | exitStatusRequest (channel exitStatus : UInt32)
  | exitSignalRequest (channel : UInt32) (signal : Sig) (coreDumped : Bool)
      (errorMessage languageTag : Bytes)
  | channelOpenForwardedTcpip (connectedAddress : Bytes) (connectedPort : UInt32)
      (originatorAddress : Bytes) (originatorPort : UInt32)
  deriving DecidableEq

/-- What a handler does when it is asked. Only the fields its method returns are read. -/
structure Answer where
  /-- The calls it makes on the session it is given. -/
  calls : List Call
  /-- Whether it returns an `Err`. -/
  fail : Bool
  /-- The verdict of an authentication method. -/
  auth : Auth
  /-- The Boolean of a forwarding method. -/
  result : Bool
  /-- The window of `adjust_window`. -/
  window : UInt32
  deriving DecidableEq

/-- The answer of a default method that only finishes. -/
def Answer.finished : Answer := ⟨[], false, .reject, false, 0⟩

section
variable [Deps]

/-- `server::Session`. -/
structure Session where
  /-- The part both roles share. -/
  common : CommonSession Config
  /-- The window to grant next. -/
  targetWindowSize : UInt32
  /-- History: the questions put to the handler and its answers. -/
  callbacks : List (Callback × Answer)

/-- A step of the server's session. -/
abbrev M := EStateM Fault Session

/-- A handler: the number of the question, the question and the session it is given. -/
abbrev Handler := Nat → Callback → Session → Answer

/-- A step on the common part. -/
def onCommon {α : Type} (x : CommonM Config α) : M α :=
  zoom Session.common (fun c s => { s with common := c }) x

/-- `enc`, where the source unwraps it. -/
def getEnc : M Encrypted := do
  match (← get).common.encrypted with
  | some enc => pure enc
  | none => throw .panic

/-- A step of `enc`. -/
def modifyEnc (f : Encrypted → Encrypted) : M Unit :=
  modify fun s => { s with common := s.common.modifyEnc f }

/-- `push_packet!` on `enc.write`. -/
def push (body : Bytes) : M Unit := modifyEnc (·.push body)

/-- `Session::is_rekeying`. -/
def Session.isRekeying (s : Session) : Bool :=
  match s.common.encrypted with
  | some enc => enc.rekey.isSome
  | none => true

/-- `Session::request_success`. -/
def requestSuccess : M Unit := do
  let s ← get
  if s.common.wantsReply then
    if s.common.encrypted.isSome then do
      modify fun s => { s with common := { s.common with wantsReply := false } }
      push [msg.REQUEST_SUCCESS]
    else pure ()
  else pure ()

/-- `Session::request_failure`. -/
def requestFailure : M Unit := do
  let s ← get
  if s.common.encrypted.isSome then do
    modify fun s => { s with common := { s.common with wantsReply := false } }
    push [msg.REQUEST_FAILURE]
  else pure ()

/-- `Session::channel_success` and `Session::channel_failure`, up to the message number. -/
def channelReply (m : UInt8) (channel : UInt32) : M Unit :=
  onCommon (updateEnc fun enc =>
    match enc.channels channel with
    | none => .ok enc
    | some ch =>
      if ch.confirmed then
        if ch.wantsReply then
          .ok ((enc.setChannel channel { ch with wantsReply := false }).push
            (m :: be32 ch.recipientChannel))
        else .ok enc
      else .error .panic)

/-- A request on a channel that the source asserts to be confirmed. -/
def confirmedRequest (channel : UInt32) (name rest : Bytes) : M Unit :=
  onCommon (updateEnc fun enc =>
    match enc.channels channel with
    | none => .ok enc
    | some ch =>
      if ch.confirmed then .ok (enc.push (channelRequest ch.recipientChannel name rest))
      else .error .panic)

/-- `unreachable!()` when the session is not encrypted yet. -/
def assertEncrypted : M Unit := do
  if (← get).common.encrypted.isSome then pure () else throw .panic

/-- `Session::xon_xoff_request`. -/
def xonXoffRequest (channel : UInt32) (clientCanDo : Bool) : M Unit :=
  confirmedRequest channel (ascii "xon-xoff") [0, flagByte clientCanDo]

/-- `Session::exit_status_request`. -/
def exitStatusRequest (channel exitStatus : UInt32) : M Unit :=
  confirmedRequest channel (ascii "exit-status") (0 :: be32 exitStatus)

/-- `Session::exit_signal_request`. -/
def exitSignalRequest (channel : UInt32) (signal : Sig) (coreDumped : Bool)
    (errorMessage languageTag : Bytes) : M Unit :=
  confirmedRequest channel (ascii "exit-signal")
    (0 :: sshString signal.name ++ flagByte coreDumped :: sshString errorMessage ++
      sshString languageTag)

/-- `Session::data`. -/
def data (channel : UInt32) (data : Bytes) : M Unit := do
  assertEncrypted
  onCommon (updateEnc (·.data channel data))

/-- `Session::extended_data`. -/
def extendedData (channel extended : UInt32) (data : Bytes) : M Unit := do
  assertEncrypted
  onCommon (updateEnc (·.extendedData channel extended data))

/-- `Session::eof`. -/
def eof (channel : UInt32) : M Unit := onCommon (modify (·.byte channel msg.CHANNEL_EOF))

/-- `Session::close`. -/
def close (channel : UInt32) : M Unit := onCommon (modify (·.byte channel msg.CHANNEL_CLOSE))

/-- `Session::channel_open_forwarded_tcpip`. Its `Err` goes to the handler. -/
def channelOpenForwardedTcpip (connectedAddress : Bytes) (connectedPort : UInt32)
    (originatorAddress : Bytes) (originatorPort : UInt32) : M Unit := do
  let s ← get
  let config := s.common.config
  onCommon (updateEnc fun enc =>
    match enc.state with
    | .authenticated => do
      let (id, enc) ← enc.newChannel config.windowSize config.maximumPacketSize
      .ok (enc.push (channelOpenPacket (ascii "forwarded-tcpip") id config.windowSize
        config.maximumPacketSize (sshString connectedAddress ++ be32 connectedPort ++
          sshString originatorAddress ++ be32 originatorPort)))
    | _ => .ok enc)

/-- A call a handler makes on its session. -/
def runCall : Call → M Unit
  | .flush => onCommon Thrussh.flush
  | .flushPending channel => onCommon (updateEnc fun enc => do
      let (enc, _) ← enc.flushPending channel
      .ok enc)
  | .disconnect reason description languageTag =>
    onCommon (modify (·.disconnect reason description languageTag))
  | .requestSuccess => requestSuccess
  | .requestFailure => requestFailure
  | .channelSuccess channel => channelReply msg.CHANNEL_SUCCESS channel
  | .channelFailure channel => channelReply msg.CHANNEL_FAILURE channel
  | .channelOpenFailure channel reason description language =>
    push (channelOpenFailurePacket channel reason.code description language)
  | .close channel => close channel
  | .eof channel => eof channel
  | .data channel d => data channel d
  | .extendedData channel extended d => extendedData channel extended d
  | .xonXoffRequest channel clientCanDo => xonXoffRequest channel clientCanDo
  | .exitStatusRequest channel exitStatus => exitStatusRequest channel exitStatus
  | .exitSignalRequest channel signal coreDumped errorMessage languageTag =>
    exitSignalRequest channel signal coreDumped errorMessage languageTag
  | .channelOpenForwardedTcpip connectedAddress connectedPort originatorAddress originatorPort =>
    channelOpenForwardedTcpip connectedAddress connectedPort originatorAddress originatorPort

/-- Put a question to the handler. -/
def ask (handler : Handler) (callback : Callback) : M Answer := fun s =>
  let answer := handler s.common.tick callback s
  .ok answer { s with
    common := { s.common with tick := s.common.tick + 1 }
    callbacks := s.callbacks ++ [(callback, answer)] }

/-- A method that authenticates: it is not given the session. -/
def askAuth (handler : Handler) (callback : Callback) : M Auth := do
  let answer ← ask handler callback
  if answer.fail then throw (.error .handler) else pure answer.auth

/-- A method that is given the session and returns it. -/
def finished (handler : Handler) (callback : Callback) : M Bool := do
  let answer ← ask handler callback
  answer.calls.forM runCall
  if answer.fail then throw (.error .handler) else pure answer.result

/-- A method that returns nothing but the session. -/
def finish (handler : Handler) (callback : Callback) : M Unit := do
  let _ ← finished handler callback
  pure ()

/-- The session with another `enc`. -/
def Session.withEnc (s : Session) (enc : Encrypted) : Session :=
  { s with common := { s.common with encrypted := some enc } }

theorem run_onCommon {s : Session} {enc enc' : Encrypted} {α : Type} {a : α}
    {f : Encrypted → Except Fault (α × Encrypted)}
    (henc : s.common.encrypted = some enc) (hf : f enc = .ok (a, enc')) :
    onCommon (Thrussh.withEnc f) s = .ok a (s.withEnc enc') := by
  unfold onCommon zoom
  rw [run_withEnc henc hf]
  rfl

end

end Thrussh.Server
