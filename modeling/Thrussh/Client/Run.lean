import Thrussh.Client.Encrypted
import Thrussh.Loop

/-!
# The client's loop

`reply`, the local messages, `read_ssh_id` with the first KEXINIT, and the
driver of `Session::run`.
-/

namespace Thrussh.Client

open Lib

variable [Deps]

/-- `session.common.kex.take()`. -/
def takeKex : M Unit := modify fun s => { s with common := { s.common with kex := none } }

/-- `session.common.kex = Some(..)`. -/
def setKex (kex : Kex) : M Unit :=
  modify fun s => { s with common := { s.common with kex := some kex } }

/-- The service request that is sealed directly. -/
def serviceRequest : Bytes := msg.SERVICE_REQUEST :: sshString (ascii "ssh-userauth")

/-- The NEWKEYS of the first exchange in `reply`. -/
def installFirst (newkeys : NewKeys) : M Unit := do
  let isFirstTime := (← get).common.encrypted.isNone
  let now ← onCommon now
  modify fun s => { s with
    common := s.common.toEncrypted (.waitingServiceRequest isFirstTime false) newkeys now }
  if isFirstTime then sealPacket .service serviceRequest else pure ()

/-- `reply`. -/
def reply (app : Application) (buf : Bytes) : M Unit := do
  let s ← get
  match s.common.kex with
  | some (.kexInit kexinit) => do
    takeKex
    if kexinit.algo.isSome ∨ buf.head? = some msg.KEXINIT ∨ s.common.encrypted.isNone then do
      let kexdhdone ← runClientParse kexinit buf
      setKex (.kexDhDone kexdhdone)
      onCommon flush
    else pure ()
  | some (.kexDhDone kexdhdone) => do
    takeKex
    if kexdhdone.names.ignoreGuessed then
      setKex (.kexDhDone
        { kexdhdone with names := { kexdhdone.names with ignoreGuessed := false } })
    else if buf.head? = some msg.KEX_ECDH_REPLY then do
      let kex ← serverKeyCheck app kexdhdone false buf
      setKex kex
      sealPacket .newkeys [msg.NEWKEYS]
      onCommon flush
    else throw (.error .inconsistent)
  | some (.newKeys newkeys) => do
    takeKex
    if buf.head? = some msg.NEWKEYS then installFirst newkeys else throw (.error .kex)
  | some (.kexDh _) => pure ()
  | none => clientReadEncrypted app buf

/-- The direct service request of `write_auth_request_if_needed`. -/
def requestService : M Unit := do
  match (← get).common.encrypted with
  | some enc =>
    match enc.state with
    | .waitingServiceRequest false accepted => do
      sealPacket .service serviceRequest
      modifyEnc fun enc => { enc with state := .waitingServiceRequest true accepted }
    | _ => pure ()
  | none => pure ()

/-- Whether the service has been accepted and authentication is not over. -/
def EncryptedState.isWaiting : EncryptedState → Bool
  | .waitingAuthRequest _ => true
  | .waitingServiceRequest _ accepted => accepted
  | .initCompression => false
  | .authenticated => false

/-- `write_auth_request_if_needed`. -/
def writeAuthRequestIfNeeded (user : Bytes) (meth : Method) : M Unit := do
  requestService
  match (← get).common.encrypted with
  | some enc =>
    if EncryptedState.isWaiting enc.state then push (authRequestPacket user meth) else pure ()
  | none => pure ()
  modify fun s => { s with common := { s.common with authUser := user, authMethod := some meth } }

/-- `channels.insert` for a channel just opened, or the error of opening it. -/
def insertChannel (id : Except Error UInt32) (sender : Nat) : M Unit :=
  match id with
  | .ok id => modify fun s => { s with channels := Function.update s.channels id (some sender) }
  | .error e => throw (.error e)

/-- A `Msg` other than the end of the channel. -/
def serveMessage : Msg → M Unit
  | .authenticate user method => writeAuthRequestIfNeeded user method
  | .signed _ => pure ()
  | .channelOpenSession sender => do
    let id ← channelOpenSession
    insertChannel id sender
  | .channelOpenX11 originatorAddress originatorPort sender => do
    let id ← channelOpenX11 originatorAddress originatorPort
    insertChannel id sender
  | .channelOpenDirectTcpip hostToConnect portToConnect originatorAddress originatorPort sender => do
    let id ← channelOpenDirectTcpip hostToConnect portToConnect originatorAddress originatorPort
    insertChannel id sender
  | .tcpipForward wantReply address port => tcpipForward wantReply address port
  | .cancelTcpipForward wantReply address port => cancelTcpipForward wantReply address port
  | .disconnect reason description languageTag => disconnect reason description languageTag
  | .data id d => data id d
  | .extendedData id d ext => extendedData id ext d
  | .eof id => eof id
  | .requestPty id wantReply term colWidth rowHeight pixWidth pixHeight terminalModes =>
    requestPty id wantReply term colWidth rowHeight pixWidth pixHeight terminalModes
  | .requestShell id wantReply => requestShell wantReply id
  | .exec id wantReply command => exec id wantReply command
  | .signal id sig => signal id sig
  | .requestSubsystem id wantReply name => requestSubsystem wantReply id name
  | .requestX11 id wantReply singleConnection protocol cookie x11ScreenNumber =>
    requestX11 id wantReply singleConnection protocol cookie x11ScreenNumber
  | .setEnv id wantReply variableName variableValue =>
    setEnv id wantReply variableName variableValue
  | .windowChange id colWidth rowHeight pixWidth pixHeight =>
    windowChange id colWidth rowHeight pixWidth pixHeight

/-- A message of `self.receiver`. The end of the channel disconnects. -/
def message : Option Msg → M Bool
  | some m => do
    serveMessage m
    pure false
  | none => do
    modify fun s => { s with common := { s.common with disconnected := true } }
    pure true

/-- The end of a turn: compression starts once authentication has succeeded. -/
def settle (s : Session) : Session :=
  { s with common := s.common.modifyEnc fun enc =>
    match enc.state with
    | .initCompression => { enc with
        compress := enc.clientCompression.initCompress enc.compress, state := .authenticated }
    | _ => enc }

/-- The driver of `Session::run`. -/
def driver (app : Application) : Driver Config Session Msg where
  common := Session.common
  setCommon common s := { s with common := common }
  checksRead := true
  timeout _ := false
  reply := reply app
  message := message
  settle := settle
  drains s := s.common.disconnected

/-- `read_ssh_id` on the server's identification line, and the session around it. -/
def readSshId (config : Config) (sshid : Bytes) (world : World) : Except Fault Session :=
  let kexinit : KexInit := ⟨none, { Exchange.new with
    serverId := sshid, clientId := config.clientId }, none, false⟩
  match kexinit.ownWrite .client config.preferred clearPair (world.rand 0).cookie .new with
  | .error e _ => .error e
  | .ok kexinit writeBuffer => .ok {
      common := {
        authUser := [], config, encrypted := none, authMethod := none, writeBuffer
        kex := some (.kexInit kexinit), cipher := clearPair, wantsReply := false
        disconnected := false, buffer := [], world, tick := 1, flushes := [] }
      channels := fun _ => none
      targetWindowSize := config.windowSize
      callbacks := [], sent := [], replies := [] }

/-- `connect_stream` up to the first turn, given the server's identification
line. The handler sees the session before the loop starts. -/
def connectStream (config : Config) (app : Application) (sshid : Bytes) (world : World) :
    Except Fault (Loop Session) := do
  let session ← readSshId config sshid world
  match finish app .onSessionConnected session with
  | .ok _ session =>
    .ok (Loop.start (driver app) session (SSHBuffer.new.sendSshId config.clientId).buffer)
  | .error e _ => .error e

end Thrussh.Client
