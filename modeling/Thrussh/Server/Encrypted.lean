import Thrussh.Server.Auth

/-!
# Packets on the server's encrypted session

`server_read_encrypted`, with the re-exchange first, then the service and
authentication stages, and `server_read_authenticated` with one function for
each message it serves.
-/

namespace Thrussh.Server

open Deps Lib

variable [Deps]

/-- `confirm_channel_open`. -/
def confirmChannelOpen (channel : Channel) : M Unit := do
  let config := (← get).common.config
  modifyEnc fun enc =>
    (enc.push (confirmChannelOpenPacket channel.recipientChannel channel.senderChannel
      config.windowSize config.maximumPacketSize)).insertChannel channel.senderChannel channel

/-- `server_handle_channel_open`. -/
def serverHandleChannelOpen (handler : Handler) (buf : Bytes) : M Unit := do
  let (typ, r) ← lift (reader buf 1).readString
  let (sender, r) ← lift r.readU32
  let (window, r) ← lift r.readU32
  let (maxpacket, r) ← lift r.readU32
  let senderChannel ← onCommon (withEnc Encrypted.newChannelId)
  let config := (← get).common.config
  let channel : Channel := ⟨sender, senderChannel, window, config.windowSize, maxpacket,
    config.maximumPacketSize, true, false, []⟩
  if typ = ascii "session" then do
    confirmChannelOpen channel
    finish handler (.channelOpenSession senderChannel)
  else if typ = ascii "x11" then do
    confirmChannelOpen channel
    let (a, r) ← lift r.readString
    let a ← lift (fromUtf8 a)
    let (b, _) ← lift r.readU32
    finish handler (.channelOpenX11 senderChannel a b)
  else if typ = ascii "direct-tcpip" then do
    confirmChannelOpen channel
    let (a, r) ← lift r.readString
    let a ← lift (fromUtf8 a)
    let (b, r) ← lift r.readU32
    let (c, r) ← lift r.readString
    let c ← lift (fromUtf8 c)
    let (d, _) ← lift r.readU32
    finish handler (.channelOpenDirectTcpip senderChannel a b c d)
  else push (channelOpenFailurePacket sender 3 (ascii "Unknown channel type") (ascii "en"))

/-- The CHANNEL_CLOSE branch. -/
def serverReadChannelClose (handler : Handler) (buf : Bytes) : M Unit := do
  let (channelNum, _) ← lift (reader buf 1).readU32
  modifyEnc (·.removeChannel channelNum)
  finish handler (.channelClose channelNum)

/-- The CHANNEL_EOF branch. -/
def serverReadChannelEof (handler : Handler) (buf : Bytes) : M Unit := do
  let (channelNum, _) ← lift (reader buf 1).readU32
  finish handler (.channelEof channelNum)

/-- The ext code of a data packet, which only CHANNEL_EXTENDED_DATA has. -/
def readExt (buf : Bytes) (r : Position) : Except Fault (Option UInt32 × Position) :=
  if buf.head? = some msg.CHANNEL_DATA then .ok (none, r)
  else do
    let (ext, r) ← r.readU32
    .ok (some ext, r)

/-- The question that hands data to the handler. -/
def dataCallback (channelNum : UInt32) (ext : Option UInt32) (data : Bytes) : Callback :=
  match ext with
  | some ext => .extendedData channelNum ext data
  | none => .data channelNum data

/-- The CHANNEL_DATA and CHANNEL_EXTENDED_DATA branch. -/
def serverReadData (handler : Handler) (buf : Bytes) : M Unit := do
  let (channelNum, r) ← lift (reader buf 1).readU32
  let (ext, r) ← lift (readExt buf r)
  let (data, _) ← lift r.readString
  let target := (← get).targetWindowSize
  if ← onCommon (withEnc fun enc => .ok (enc.adjustWindowSize channelNum data target).swap) then do
    let answer ← ask handler (.adjustWindow channelNum target)
    if answer.window > 0 then modify fun s => { s with targetWindowSize := answer.window }
    else pure ()
  else pure ()
  onCommon flush
  finish handler (dataCallback channelNum ext data)

/-- The CHANNEL_WINDOW_ADJUST branch. -/
def serverReadWindowAdjust (handler : Handler) (buf : Bytes) : M Unit := do
  let (channelNum, r) ← lift (reader buf 1).readU32
  let (amount, _) ← lift r.readU32
  let newValue ← onCommon (withEnc (·.adjustRecipientWindow channelNum amount))
  finish handler (.windowAdjusted channelNum newValue)

/-- The loop over the mode string of a pty-req: the 130 entries, and how many were read. -/
def ptyModes (modeString : Bytes) : Nat → Nat → List (Pty × UInt32) →
    Except Fault (List (Pty × UInt32) × Nat)
  | 0, i, modes => .ok (modes, i)
  | fuel + 1, i, modes =>
    match modeString.drop (5 * i) with
    | [] => .ok (modes, i)
    | code :: rest =>
      if code = 0 then .ok (modes, i)
      else match headBe32 rest with
        | none => .error .panic
        | some num =>
          match Pty.fromU8 code with
          | some code =>
            if i < modes.length then ptyModes modeString fuel (i + 1) (modes.set i (code, num))
            else .error .panic
          | none => ptyModes modeString fuel (i + 1) modes

/-- `&modes[0..i]` after the loop. -/
def readPtyModes (modeString : Bytes) : Except Fault (List (Pty × UInt32)) := do
  let (modes, i) ← ptyModes modeString (modeString.length + 1) 0
    (List.replicate 130 (Pty.ttyOpEnd, 0))
  if i ≤ modes.length then .ok (modes.take i) else .error .panic

/-- The question for a channel request, if its type is known. -/
def channelRequestCallback (channelNum : UInt32) (reqType : Bytes) (r : Position) :
    Except Fault (Option Callback) :=
  if reqType = ascii "pty-req" then do
    let (term, r) ← r.readString
    let term ← fromUtf8 term
    let (colWidth, r) ← r.readU32
    let (rowHeight, r) ← r.readU32
    let (pixWidth, r) ← r.readU32
    let (pixHeight, r) ← r.readU32
    let (modeString, _) ← r.readString
    let modes ← readPtyModes modeString
    .ok (some (.ptyRequest channelNum term colWidth rowHeight pixWidth pixHeight modes))
  else if reqType = ascii "x11-req" then do
    let (singleConnection, r) ← r.readByte
    let (x11AuthProtocol, r) ← r.readString
    let x11AuthProtocol ← fromUtf8 x11AuthProtocol
    let (x11AuthCookie, r) ← r.readString
    let x11AuthCookie ← fromUtf8 x11AuthCookie
    let (x11ScreenNumber, _) ← r.readU32
    .ok (some (.x11Request channelNum (singleConnection ≠ 0) x11AuthProtocol x11AuthCookie
      x11ScreenNumber))
  else if reqType = ascii "env" then do
    let (envVariable, r) ← r.readString
    let envVariable ← fromUtf8 envVariable
    let (envValue, _) ← r.readString
    let envValue ← fromUtf8 envValue
    .ok (some (.envRequest channelNum envVariable envValue))
  else if reqType = ascii "shell" then .ok (some (.shellRequest channelNum))
  else if reqType = ascii "exec" then do
    let (req, _) ← r.readString
    .ok (some (.execRequest channelNum req))
  else if reqType = ascii "subsystem" then do
    let (name, _) ← r.readString
    let name ← fromUtf8 name
    .ok (some (.subsystemRequest channelNum name))
  else if reqType = ascii "window-change" then do
    let (colWidth, r) ← r.readU32
    let (rowHeight, r) ← r.readU32
    let (pixWidth, r) ← r.readU32
    let (pixHeight, _) ← r.readU32
    .ok (some (.windowChangeRequest channelNum colWidth rowHeight pixWidth pixHeight))
  else if reqType = ascii "signal" then do
    let (_, r) ← r.readByte -- should be 0
    let (name, _) ← r.readString
    let signalName ← Sig.fromName name
    .ok (some (.signal channelNum signalName))
  else .ok none

/-- The CHANNEL_REQUEST branch. -/
def serverReadChannelRequest (handler : Handler) (buf : Bytes) : M Unit := do
  let (channelNum, r) ← lift (reader buf 1).readU32
  let (reqType, r) ← lift r.readString
  let (wantsReply, r) ← lift r.readByte
  modifyEnc fun enc =>
    match enc.channels channelNum with
    | some ch => enc.setChannel channelNum { ch with wantsReply := wantsReply ≠ 0 }
    | none => enc
  match ← lift (channelRequestCallback channelNum reqType r) with
  | some callback => finish handler callback
  | none => push [msg.CHANNEL_FAILURE]

/-- The reply to a forwarding request. -/
def serverReplyForward (handler : Handler) (callback : Callback) : M Unit := do
  if ← finished handler callback then push [msg.REQUEST_SUCCESS] else push [msg.REQUEST_FAILURE]

/-- The GLOBAL_REQUEST branch. -/
def serverReadGlobalRequest (handler : Handler) (buf : Bytes) : M Unit := do
  let (reqType, r) ← lift (reader buf 1).readString
  let (wantsReply, r) ← lift r.readByte
  modify fun s => { s with common := { s.common with wantsReply := wantsReply ≠ 0 } }
  if reqType = ascii "tcpip-forward" then do
    let (address, r) ← lift r.readString
    let address ← lift (fromUtf8 address)
    let (port, _) ← lift r.readU32
    serverReplyForward handler (.tcpipForward address port)
  else if reqType = ascii "cancel-tcpip-forward" then do
    let (address, r) ← lift r.readString
    let address ← lift (fromUtf8 address)
    let (port, _) ← lift r.readU32
    serverReplyForward handler (.cancelTcpipForward address port)
  else push [msg.REQUEST_FAILURE]

/-- `server_read_authenticated`. -/
def serverReadAuthenticated (handler : Handler) (buf : Bytes) : M Unit :=
  if buf.head? = some msg.CHANNEL_OPEN then serverHandleChannelOpen handler buf
  else if buf.head? = some msg.CHANNEL_CLOSE then serverReadChannelClose handler buf
  else if buf.head? = some msg.CHANNEL_EOF then serverReadChannelEof handler buf
  else if buf.head? = some msg.CHANNEL_EXTENDED_DATA ∨ buf.head? = some msg.CHANNEL_DATA then
    serverReadData handler buf
  else if buf.head? = some msg.CHANNEL_WINDOW_ADJUST then serverReadWindowAdjust handler buf
  else if buf.head? = some msg.CHANNEL_REQUEST then serverReadChannelRequest handler buf
  else if buf.head? = some msg.GLOBAL_REQUEST then serverReadGlobalRequest handler buf
  else pure ()

/-- `init_decompress` once authentication has succeeded. -/
def initDecompress : M Unit := modifyEnc fun enc =>
  match enc.state with
  | .initCompression =>
    { enc with decompress := enc.clientCompression.initDecompress enc.decompress }
  | _ => enc

/-- The end of `server_read_encrypted`, for a packet that is not part of a key exchange. -/
def serverReadState (handler : Handler) (buf : Bytes) : M Unit := do
  let enc ← getEnc
  match enc.state with
  | .waitingServiceRequest _ _ =>
    if buf.head? = some msg.SERVICE_REQUEST then do
      let (request, _) ← lift (reader buf 1).readString
      if request = sshUserauth then do
        let config := (← get).common.config
        let authRequest ← serverAcceptService config.authBanner config.methods
        modifyEnc fun enc => { enc with state := .waitingAuthRequest authRequest }
      else pure ()
    else pure ()
  | .waitingAuthRequest _ =>
    if buf.head? = some msg.USERAUTH_REQUEST then do
      serverReadAuthRequest handler buf
      initDecompress
    else if buf.head? = some msg.USERAUTH_INFO_RESPONSE then do
      if ← readUserauthInfoResponse handler buf then initDecompress else pure ()
    else pure ()
  | .initCompression => do
    modifyEnc fun enc => { enc with
      compress := enc.serverCompression.initCompress enc.compress, state := .authenticated }
    serverReadAuthenticated handler buf
  | .authenticated => serverReadAuthenticated handler buf

/-- `enc.rekey.take()`. -/
def takeRekey : M Unit := modifyEnc fun enc => { enc with rekey := none }

/-- `enc.rekey = Some(..)`. -/
def setRekey (kex : Kex) : M Unit := modifyEnc fun enc => { enc with rekey := some kex }

/-- `server_parse` on the session's write buffer. -/
def runServerParse (kexinit : KexInit) (buf : Bytes) : M Kex := do
  let s ← get
  let r ← onCommon rand
  onCommon (withWriteBuffer (kexinit.serverParse s.common.config s.common.cipher buf r.cookie))

/-- `KexDh::parse` on the session's write buffer. -/
def runKexDhParse (kexdh : KexDh) (buf : Bytes) : M Kex := do
  let s ← get
  let r ← onCommon rand
  onCommon (withWriteBuffer (kexdh.parse s.common.config s.common.cipher buf r.secret))

/-- A KEXINIT on an encrypted session. -/
def serverReadKexInit (buf : Bytes) : M Unit := do
  let enc ← getEnc
  takeRekey
  match enc.rekey with
  | some (.kexInit kexinit) => do
    let kex ← runServerParse kexinit buf
    setRekey kex
    onCommon flush
  | _ =>
    match enc.exchange with
    | some exchange => do
      modifyEnc fun enc => { enc with exchange := none }
      let algo ← lift (readKex .server buf (← get).common.config.preferred)
      let kex ← runServerParse (KexInit.receivedRekey exchange algo enc.sessionId) buf
      setRekey kex
    | none => pure ()

/-- `server_read_encrypted`. -/
def serverReadEncrypted (handler : Handler) (buf : Bytes) : M Unit := do
  let enc ← getEnc
  if buf.head? = some msg.KEXINIT then serverReadKexInit buf
  else match enc.rekey with
    | some (.kexDh kexdh) => do
      takeRekey
      let kex ← runKexDhParse kexdh buf
      setRekey kex
    | some (.newKeys newkeys) => do
      takeRekey
      if buf.head? = some msg.NEWKEYS then
        modify fun s => { s with common := s.common.newkeys newkeys }
      else throw (.error .kex)
    | _ => serverReadState handler buf

end Thrussh.Server
