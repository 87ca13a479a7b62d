import Thrussh.Loop
import Thrussh.Server.Encrypted

/-!
# The server's loop

`reply`, the local messages, `read_ssh_id` with the first KEXINIT, and the
driver of `run_stream`.
-/

namespace Thrussh.Server

open Lib

variable [Deps]

/-- `session.common.kex.take()`. -/
def takeKex : M Unit := modify fun s => { s with common := { s.common with kex := none } }

/-- `session.common.kex = Some(..)`. -/
def setKex (kex : Kex) : M Unit :=
  modify fun s => { s with common := { s.common with kex := some kex } }

/-- The first key exchange in `reply`. -/
def replyKex (buf : Bytes) : M Unit := do
  let s ← get
  match s.common.kex with
  | some (.kexInit kexinit) =>
    if kexinit.algo.isSome ∨ buf.head? = some msg.KEXINIT then do
      takeKex
      let kex ← runServerParse kexinit buf
      setKex kex
    else pure ()
  | some (.kexDh kexdh) => do
    takeKex
    let kex ← runKexDhParse kexdh buf
    setKex kex
  | some (.newKeys newkeys) => do
    takeKex
    if buf.head? = some msg.NEWKEYS then do
      let now ← onCommon now
      modify fun s =>
        { s with common := s.common.toEncrypted (.waitingServiceRequest false false) newkeys now }
    else throw (.error .kex)
  | _ => pure ()

/-- `reply`. -/
def reply (handler : Handler) (buf : Bytes) : M Unit := do
  if (← get).common.encrypted.isNone then replyKex buf else serverReadEncrypted handler buf

/-- A message of `session.receiver`. -/
def message : Option (UInt32 × ChannelMsg) → M Bool
  | some (id, m) => do
    match m with
    | .data d => data id d
    | .extendedData d ext => extendedData id ext d
    | .eof => eof id
    | .xonXoff clientCanDo => xonXoffRequest id clientCanDo
    | .exitStatus exitStatus => exitStatusRequest id exitStatus
    | .exitSignal signalName coreDumped errorMessage langTag =>
      exitSignalRequest id signalName coreDumped errorMessage langTag
    | .windowAdjusted _ => pure ()
    | .success => pure ()
    pure false
  | none => pure false

/-- The driver of `run_stream`. The result of `cipher::read` is dropped. -/
def driver (handler : Handler) : Driver Config Session (UInt32 × ChannelMsg) where
  common := Session.common
  setCommon common s := { s with common := common }
  checksRead := false
  timeout config := config.connectionTimeout.isSome
  reply := reply handler
  message := message
  settle := id
  drains _ := true

/-- `read_ssh_id` on the client's identification line, and the session around it. -/
def readSshId (config : Config) (sshid : Bytes) (world : World) : Except Fault Session :=
  let kexinit : KexInit := ⟨none, { Exchange.new with
    clientId := sshid, serverId := config.serverId }, none, false⟩
  match kexinit.ownWrite .server config.preferred clearPair (world.rand 0).cookie .new with
  | .error e _ => .error e
  | .ok kexinit writeBuffer => .ok {
      common := {
        authUser := [], config, encrypted := none, authMethod := none, writeBuffer
        kex := some (.kexInit kexinit), cipher := clearPair, wantsReply := false
        disconnected := false, buffer := [], world, tick := 1, flushes := [] }
      targetWindowSize := config.windowSize
      callbacks := [] }

/-- `run_stream` up to its first turn, given the client's identification line. -/
def runStream (config : Config) (handler : Handler) (sshid : Bytes) (world : World) :
    Except Fault (Loop Session) := do
  let session ← readSshId config sshid world
  .ok (Loop.start (driver handler) session (SSHBuffer.new.sendSshId config.serverId).buffer)

/-- No handler is asked before the first turn. -/
theorem runStream_congr (config : Config) (handler handler' : Handler) (sshid : Bytes)
    (world : World) :
    runStream config handler sshid world = runStream config handler' sshid world := by
  simp only [runStream, Loop.start, Loop.clearWrite, Loop.leave, driver]

end Thrussh.Server
