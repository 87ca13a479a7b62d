import Thrussh.Client.Kex

/-!
# Packets on the client's encrypted session

`client_read_encrypted`, with the re-exchange first, then the service and
authentication stages, and `client_read_authenticated` with one function for
each message it serves.
-/

namespace Thrussh.Client

open Deps Lib

variable [Deps]

/-- The body of a USERAUTH_REQUEST for a public key, up to the key blob. -/
def publickeyRequest (user : Bytes) (isReal : UInt8) (name blob : Bytes) : Bytes :=
  msg.USERAUTH_REQUEST :: sshString user ++ sshString (ascii "ssh-connection") ++
    sshString (ascii "publickey") ++ isReal :: sshString name ++ blob

/-- `write_auth_request`, the packet it pushes. Key requests are probes. -/
def authRequestPacket (user : Bytes) : Method → Bytes
  | .password password =>
    msg.USERAUTH_REQUEST :: sshString user ++ sshString (ascii "ssh-connection") ++
      sshString (ascii "password") ++ 1 :: sshString password
  | .publicKey key => publickeyRequest user 0 key.name key.pushTo
  | .futurePublicKey key => publickeyRequest user 0 key.algorithm key.pushTo

/-- `client_make_to_sign`: the buffer to sign, and where the request starts in it. -/
def clientMakeToSign (sessionId : Bytes32) (user name blob : Bytes) : Bytes × Nat :=
  let head := sshString sessionId.toList
  (head ++ publickeyRequest user 1 name blob, head.length)

/-- `client_send_signature`: the packet with the signature. -/
def signaturePacket (sessionId : Bytes32) (user : Bytes) (key : KeyPair) : Except Fault Bytes :=
  let (buffer, i0) := clientMakeToSign sessionId user key.name key.pushTo
  match addSelfSignature key buffer with
  | .ok signature => .ok ((buffer ++ signature).drop i0)
  | .error e => .error (.error e)

/-- The wait for `Msg::Signed`: other messages are dropped, and without one it never ends. -/
def awaitSigned : List Msg → Except Fault Bytes
  | [] => .error .diverge
  | .signed data :: _ => .ok data
  | _ :: rest => awaitSigned rest

/-- A change of `auth_method`. -/
def setAuthMethod (method : Option Method) : M Unit :=
  modify fun s => { s with common := { s.common with authMethod := method } }

/-- A change of the scratch buffer. -/
def setBuffer (buffer : Bytes) : M Unit :=
  modify fun s => { s with common := { s.common with buffer := buffer } }

/-- The messages that arrive during a wait. -/
def awaited (app : Application) : M (List Msg) := fun s =>
  .ok (app.awaited s.common.tick s)
    { s with common := { s.common with tick := s.common.tick + 1 } }

/-- The answer to USERAUTH_PK_OK for a key that the application signs with. -/
def clientAwaitSignature (app : Application) (key : PublicKey) : M Unit := do
  let enc ← getEnc
  let authUser := (← get).common.authUser
  let (buf, i) := clientMakeToSign enc.sessionId authUser key.name key.pushTo
  setBuffer []
  sendReply app (.signRequest key buf)
  let messages ← awaited app
  let data ← lift (awaitSigned messages)
  setBuffer data
  if data.length ≠ buf.length then do
    let body ← lift (slice data i data.length)
    modifyEnc (·.pushSigned body)
  else pure ()

/-- The USERAUTH_PK_OK branch. -/
def clientReadPkOk (app : Application) : M Unit := do
  modifyEnc fun enc =>
    match enc.state with
    | .waitingAuthRequest auth =>
      match auth.current with
      | some (.publicKey key algo _) =>
        let auth := { auth with current := some (.publicKey key algo true) }
        { enc with state := .waitingAuthRequest auth }
      | _ => enc
    | _ => enc
  let s ← get
  let enc ← getEnc
  setAuthMethod none
  match s.common.authMethod with
  | some (.publicKey key) => do
    let packet ← lift (signaturePacket enc.sessionId s.common.authUser key)
    push packet
  | some (.futurePublicKey key) => clientAwaitSignature app key
  | _ => pure ()

/-- The USERAUTH_FAILURE branch. -/
def clientReadAuthFailure (app : Application) (buf : Bytes) : M Unit := do
  let (remainingMethods, _) ← lift (reader buf 1).readString
  let methods := (remainingMethods.splitOn 44).foldl MethodSet.insertName .empty
  modifyEnc fun enc =>
    match enc.state with
    | .waitingAuthRequest auth =>
      { enc with state := .waitingAuthRequest { auth with methods := methods } }
    | _ => enc
  setAuthMethod none
  sendReply app .authFailure
  if methods = .empty then throw (.error .noAuthMethod) else pure ()

/-- The USERAUTH_BANNER branch. A banner that is not UTF-8 is dropped. -/
def clientReadBanner (app : Application) (buf : Bytes) : M Unit := do
  let (banner, _) ← lift (reader buf 1).readString
  match fromUtf8 banner with
  | .ok banner => finish app (.authBanner banner)
  | .error _ => pure ()

/-- The WaitingAuthRequest stage. -/
def clientReadWaitingAuth (app : Application) (buf : Bytes) : M Unit :=
  if buf.head? = some msg.USERAUTH_SUCCESS then do
    sendReply app .authSuccess
    modifyEnc fun enc => { enc with
      state := .initCompression
      decompress := enc.serverCompression.initDecompress enc.decompress }
  else if buf.head? = some msg.USERAUTH_BANNER then clientReadBanner app buf
  else if buf.head? = some msg.USERAUTH_FAILURE then clientReadAuthFailure app buf
  else if buf.head? = some msg.USERAUTH_PK_OK then clientReadPkOk app
  else throw (.error .inconsistent)

/-- The WaitingServiceRequest stage. -/
def clientReadServiceAccept (buf : Bytes) : M Unit := do
  if buf.head? = some msg.SERVICE_ACCEPT then do
    let (service, _) ← lift (reader buf 1).readString
    if service = ascii "ssh-userauth" then do
      modifyEnc fun enc =>
        match enc.state with
        | .waitingServiceRequest sent _ => { enc with state := .waitingServiceRequest sent true }
        | _ => enc
      let s ← get
      match s.common.authMethod with
      | some method => do
        push (authRequestPacket s.common.authUser method)
        modifyEnc fun enc => { enc with state := .waitingAuthRequest ⟨.all, false, none, 0⟩ }
      | none => pure ()
    else pure ()
  else throw (.error .inconsistent)

/-- The CHANNEL_OPEN_CONFIRMATION branch. -/
def clientReadOpenConfirmation (app : Application) (buf : Bytes) : M Unit := do
  let (idSend, r) ← lift (reader buf 1).readU32
  let (idRecv, r) ← lift r.readU32
  let (window, r) ← lift r.readU32
  let (maxPacket, _) ← lift r.readU32
  onCommon (withEnc fun enc =>
    match enc.channels idSend with
    | some ch => .ok ((), enc.setChannel idSend { ch with
        recipientChannel := idRecv, recipientWindowSize := window
        recipientMaximumPacketSize := maxPacket, confirmed := true })
    | none => .error (.error .inconsistent))
  finish app (.channelOpenConfirmation idSend maxPacket window)

/-- The CHANNEL_CLOSE branch. -/
def clientReadChannelClose (app : Application) (buf : Bytes) : M Unit := do
  let (channelNum, _) ← lift (reader buf 1).readU32
  modifyEnc (·.removeChannel channelNum)
  finish app (.channelClose channelNum)

/-- The branches that only tell the handler a channel: CHANNEL_EOF and CHANNEL_SUCCESS. -/
def clientReadChannel (app : Application) (callback : UInt32 → Callback) (buf : Bytes) :
    M Unit := do
  let (channelNum, _) ← lift (reader buf 1).readU32
  finish app (callback channelNum)

/-- The CHANNEL_OPEN_FAILURE branch. -/
def clientReadOpenFailure (app : Application) (buf : Bytes) : M Unit := do
  let (channelNum, r) ← lift (reader buf 1).readU32
  let (code, r) ← lift r.readU32
  match ChannelOpenFailure.fromU32 code with
  | none => throw .panic
  | some reasonCode => do
    let (descr, r) ← lift r.readString
    let descr ← lift (fromUtf8 descr)
    let (language, _) ← lift r.readString
    let language ← lift (fromUtf8 language)
    modifyEnc (·.removeChannel channelNum)
    finish app (.channelOpenFailure channelNum reasonCode descr language)

/-- What the two data branches share, behind the headers. -/
def clientReceiveData (app : Application) (channelNum : UInt32) (data : Bytes)
    (callback : Callback) : M Unit := do
  let s ← get
  let target := s.common.config.windowSize
  if ← onCommon (withEnc fun enc => .ok (enc.adjustWindowSize channelNum data target).swap) then do
    let answer ← ask app (.adjustWindow channelNum s.targetWindowSize)
    if answer.window > 0 then modify fun s => { s with targetWindowSize := answer.window }
    else pure ()
  else pure ()
  finish app callback

/-- The CHANNEL_DATA branch. -/
def clientReadData (app : Application) (buf : Bytes) : M Unit := do
  let (channelNum, r) ← lift (reader buf 1).readU32
  let (data, _) ← lift r.readString
  clientReceiveData app channelNum data (.data channelNum data)

/-- The CHANNEL_EXTENDED_DATA branch. -/
def clientReadExtendedData (app : Application) (buf : Bytes) : M Unit := do
  let (channelNum, r) ← lift (reader buf 1).readU32
  let (extendedCode, r) ← lift r.readU32
  let (data, _) ← lift r.readString
  clientReceiveData app channelNum data (.extendedData channelNum extendedCode data)

/-- The question for a channel request, if its type is known. -/
def channelRequestCallback (channelNum : UInt32) (req : Bytes) (r : Position) :
    Except Fault (Option Callback) :=
  if req = ascii "forwarded_tcpip" then do
    let (a, r) ← r.readString
    let a ← fromUtf8 a
    let (b, r) ← r.readU32
    let (c, r) ← r.readString
    let c ← fromUtf8 c
    let (d, _) ← r.readU32
    .ok (some (.channelOpenForwardedTcpip channelNum a b c d))
  else if req = ascii "xon-xoff" then do
    let (_, r) ← r.readByte -- should be 0
    let (clientCanDo, _) ← r.readByte
    .ok (some (.xonXoff channelNum (clientCanDo ≠ 0)))
  else if req = ascii "exit-status" then do
    let (_, r) ← r.readByte -- should be 0
    let (exitStatus, _) ← r.readU32
    .ok (some (.exitStatus channelNum exitStatus))
  else if req = ascii "exit-signal" then do
    let (_, r) ← r.readByte -- should be 0
    let (name, r) ← r.readString
    let signalName ← Sig.fromName name
    let (coreDumped, r) ← r.readByte
    let (errorMessage, r) ← r.readString
    let errorMessage ← fromUtf8 errorMessage
    let (langTag, _) ← r.readString
    let langTag ← fromUtf8 langTag
    .ok (some (.exitSignal channelNum signalName (coreDumped ≠ 0) errorMessage langTag))
  else .ok none

/-- The CHANNEL_REQUEST branch. -/
def clientReadChannelRequest (app : Application) (buf : Bytes) : M Unit := do
  let (channelNum, r) ← lift (reader buf 1).readU32
  let (req, r) ← lift r.readString
  match ← lift (channelRequestCallback channelNum req r) with
  | some callback => finish app callback
  | none => pure ()

/-- The CHANNEL_WINDOW_ADJUST branch. -/
def clientReadWindowAdjust (app : Application) (buf : Bytes) : M Unit := do
  let (channelNum, r) ← lift (reader buf 1).readU32
  let (amount, _) ← lift r.readU32
  let newValue ← onCommon (withEnc (·.adjustRecipientWindow channelNum amount))
  finish app (.windowAdjusted channelNum newValue)

/-- The forwarded-tcpip branch of `client_handle_channel_open`. -/
def clientHandleForwarded (app : Application) (senderChannel window maxpacket : UInt32)
    (r : Position) : M Unit := do
  let (address, r) ← lift r.readString
  let (port, r) ← lift r.readU32
  let (origAddr, r) ← lift r.readString
  let (origPort, _) ← lift r.readU32
  finish app (.channelOpenForwardedTcpipClient senderChannel (fromUtf8Lossy address) port
    (fromUtf8Lossy origAddr) origPort window maxpacket)

/-- `client_handle_channel_open`. -/
def clientHandleChannelOpen (app : Application) (buf : Bytes) : M Unit := do
  let (typ, r) ← lift (reader buf 1).readString
  let (senderChannel, r) ← lift r.readU32
  let (window, r) ← lift r.readU32
  let (maxpacket, r) ← lift r.readU32
  if typ = ascii "forwarded-tcpip" then
    clientHandleForwarded app senderChannel window maxpacket r
  else push (channelOpenFailurePacket senderChannel 3 (ascii "Unknown channel type") (ascii "en"))

/-- The GLOBAL_REQUEST branch, which only reads the type. -/
def clientReadGlobalRequest (buf : Bytes) : M Unit := do
  let _ ← lift (reader buf 1).readString

/-- `client_read_authenticated`. -/
def clientReadAuthenticated (app : Application) (buf : Bytes) : M Unit :=
  if buf.head? = some msg.CHANNEL_OPEN_CONFIRMATION then clientReadOpenConfirmation app buf
  else if buf.head? = some msg.CHANNEL_CLOSE then clientReadChannelClose app buf
  else if buf.head? = some msg.CHANNEL_EOF then clientReadChannel app .channelEof buf
  else if buf.head? = some msg.CHANNEL_OPEN_FAILURE then clientReadOpenFailure app buf
  else if buf.head? = some msg.CHANNEL_DATA then clientReadData app buf
  else if buf.head? = some msg.CHANNEL_EXTENDED_DATA then clientReadExtendedData app buf
  else if buf.head? = some msg.CHANNEL_REQUEST then clientReadChannelRequest app buf
  else if buf.head? = some msg.CHANNEL_WINDOW_ADJUST then clientReadWindowAdjust app buf
  else if buf.head? = some msg.GLOBAL_REQUEST then clientReadGlobalRequest buf
  else if buf.head? = some msg.CHANNEL_SUCCESS then clientReadChannel app .channelSuccess buf
  else if buf.head? = some msg.CHANNEL_OPEN then clientHandleChannelOpen app buf
  else pure ()

/-- The end of `client_read_encrypted`, for a packet that is not part of a key exchange. -/
def clientReadState (app : Application) (buf : Bytes) : M Unit := do
  match (← get).common.encrypted with
  | none => pure ()
  | some enc =>
    match enc.state with
    | .waitingServiceRequest _ _ => clientReadServiceAccept buf
    | .waitingAuthRequest _ => clientReadWaitingAuth app buf
    | .initCompression => throw .panic -- `unreachable!()`
    | .authenticated => clientReadAuthenticated app buf

/-- `enc.rekey.take()`. -/
def takeRekey : M Unit := modifyEnc fun enc => { enc with rekey := none }

/-- `enc.rekey = Some(..)`. -/
def setRekey (kex : Kex) : M Unit := modifyEnc fun enc => { enc with rekey := some kex }

/-- `client_parse` on the session's write buffer. -/
def runClientParse (kexinit : KexInit) (buf : Bytes) : M KexDhDone := do
  let s ← get
  let r ← onCommon rand
  onCommon (withWriteBuffer (kexinit.clientParse s.common.config s.common.cipher buf r))

/-- `self.common.cipher.write(payload, &mut self.common.write_buffer)`. -/
def sealPacket (origin : Origin) (payload : Bytes) : M Unit := do
  let cipher := (← get).common.cipher
  onCommon (withWriteBuffer (cipher.write origin payload))

/-- A KEXINIT on an encrypted session. -/
def clientReadKexInit (buf : Bytes) : M Unit := do
  let enc ← getEnc
  takeRekey
  match enc.rekey with
  | some (.kexInit kexinit) => do
    let kexdhdone ← runClientParse kexinit buf
    setRekey (.kexDhDone kexdhdone)
    onCommon flush
  | _ =>
    match enc.exchange with
    | some exchange => do
      modifyEnc fun enc => { enc with exchange := none }
      let algo ← lift (readKex .client buf (← get).common.config.preferred)
      let kexdhdone ← runClientParse (KexInit.receivedRekey exchange algo enc.sessionId) buf
      setRekey (.kexDhDone kexdhdone)
    | none => pure ()

/-- The NEWKEYS of a re-exchange: the byte count and the clock start again. -/
def clientInstall (newkeys : NewKeys) : M Unit := do
  modify fun s => { s with common := { s.common with
    writeBuffer := { s.common.writeBuffer with bytes := 0 } } }
  let now ← onCommon now
  modifyEnc fun enc => { enc with lastRekey := now }
  modify fun s => { s with common := s.common.newkeys newkeys }

/-- A packet that arrives in a re-exchange after the KEXINITs. -/
def clientReadRekey (app : Application) (kexdhdone : KexDhDone) (buf : Bytes) : M Unit := do
  takeRekey
  if kexdhdone.names.ignoreGuessed then
    setRekey (.kexDhDone
      { kexdhdone with names := { kexdhdone.names with ignoreGuessed := false } })
  else if buf.head? = some msg.KEX_ECDH_REPLY then do
    let kex ← serverKeyCheck app kexdhdone true buf
    setRekey kex
    sealPacket .newkeys [msg.NEWKEYS]
    onCommon flush
  else throw (.error .inconsistent)

/-- `client_read_encrypted`. -/
def clientReadEncrypted (app : Application) (buf : Bytes) : M Unit := do
  if buf.head? = some msg.KEXINIT then clientReadKexInit buf
  else match (← get).common.encrypted with
    | none => pure ()
    | some enc =>
      match enc.rekey with
      | some (.kexDhDone kexdhdone) => clientReadRekey app kexdhdone buf
      | some (.newKeys newkeys) => do
        takeRekey
        if buf.head? = some msg.NEWKEYS then clientInstall newkeys else throw (.error .kex)
      | _ => clientReadState app buf

end Thrussh.Client
