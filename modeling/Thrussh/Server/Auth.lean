import Thrussh.Server.Kex

/-!
# The server's authentication dialogue

The functions of `server/encrypted.rs` that serve a service request, a
USERAUTH_REQUEST and a USERAUTH_INFO_RESPONSE. The delay of a rejection is
not modelled.
-/

namespace Thrussh.Server

open Deps Lib

variable [Deps]

/-- The name of the service and of the protocol that users authenticate for. -/
def sshUserauth : Bytes := ascii "ssh-userauth"

/-- The service an authentication request names. -/
def sshConnection : Bytes := ascii "ssh-connection"

/-- `server_accept_service`. -/
def serverAcceptService (banner : Option Bytes) (methods : MethodSet) : M AuthRequest := do
  push (msg.SERVICE_ACCEPT :: sshString sshUserauth)
  match banner with
  | some banner => push (msg.USERAUTH_BANNER :: sshString banner ++ sshString [])
  | none => pure ()
  pure ⟨methods, false, none, 0⟩

/-- The dialogue in progress; the callers have matched on it. -/
def getAuth : M AuthRequest := do
  match (← getEnc).state with
  | .waitingAuthRequest auth => pure auth
  | _ => throw .panic

/-- A change of the dialogue in progress. -/
def modifyAuth (f : AuthRequest → AuthRequest) : M Unit := modifyEnc fun enc =>
  match enc.state with
  | .waitingAuthRequest auth => { enc with state := .waitingAuthRequest (f auth) }
  | _ => enc

/-- `auth_user.clear()` and `auth_user.push_str(user)`. -/
def setAuthUser (user : Bytes) : M Unit :=
  modify fun s => { s with common := { s.common with authUser := user } }

/-- `reject_auth_request`. -/
def rejectAuthRequest : M Unit := do
  let auth ← getAuth
  push (msg.USERAUTH_FAILURE :: nameList auth.methods.names ++ [flagByte auth.partialSuccess])
  modifyAuth fun auth => { auth with current := none, rejectionCount := auth.rejectionCount + 1 }

/-- `server_auth_request_success`. -/
def serverAuthRequestSuccess : M Unit := push [msg.USERAUTH_SUCCESS]

/-- `server_auth_request_success`, and the state after it. -/
def acceptAuthRequest : M Unit := do
  serverAuthRequestSuccess
  modifyEnc fun enc => { enc with state := .initCompression }

/-- The prompts of a USERAUTH_INFO_REQUEST. -/
def promptList (prompts : List (Bytes × Bool)) : Bytes :=
  prompts.flatMap fun p => sshString p.1 ++ [flagByte p.2]

/-- `reply_userauth_info_response`. -/
def replyUserauthInfoResponse (auth : Auth) : M Bool :=
  match auth with
  | .accept => do
    serverAuthRequestSuccess
    pure true
  | .reject => do
    modifyAuth fun auth => { auth with partialSuccess := false }
    rejectAuthRequest
    pure false
  | .partialAccept name instructions prompts => do
    push (msg.USERAUTH_INFO_REQUEST :: sshString name ++ sshString instructions ++ sshString [] ++
      be32 (UInt32.ofNat prompts.length) ++ promptList prompts)
    pure false
  | .unsupportedMethod => throw .panic

/-- `read_userauth_info_response`. -/
def readUserauthInfoResponse (handler : Handler) (b : Bytes) : M Bool := do
  let auth ← getAuth
  match auth.current with
  | some (.keyboardInteractive submethods) => do
    let (n, r) ← lift (reader b 1).readU32
    let s ← get
    let auth ← askAuth handler
      (.authKeyboardInteractive s.common.authUser submethods (some (r, n)))
    replyUserauthInfoResponse auth
  | _ => do
    rejectAuthRequest
    pure false

/-- Whether `current` is a public key for which USERAUTH_PK_OK was sent. -/
def sentPkOk (current : Option CurrentRequest) : Bool :=
  match current with
  | some (.publicKey _ _ sentPkOk) => sentPkOk
  | _ => false

/-- The signed request of `server_read_auth_request_pk`: the judgement of the
user and key, then the signature. -/
def serverReadSignedRequest (handler : Handler) (buf user : Bytes) (pubkey : PublicKey)
    (r : Position) : M Unit := do
  let pos0 := r.position
  let auth ← getAuth
  let pkOk := sentPkOk auth.current
  let (signature, _) ← lift r.readString
  let (_, s) ← lift (reader signature 0).readString
  let (sig, _) ← lift s.readString
  let init := buf.take pos0
  let authUser := (← get).common.authUser
  let isValid ←
    if pkOk ∧ user = authUser then pure true
    else if authUser.length = 0 then do
      setAuthUser user
      let auth ← askAuth handler (.authPublickey user pubkey)
      pure (auth = .accept)
    else pure false
  if isValid then do
    let enc ← getEnc
    if verifyClientAuth pubkey (sshString enc.sessionId.toList ++ init) sig then
      acceptAuthRequest
    else rejectAuthRequest
  else rejectAuthRequest

/-- The probe of `server_read_auth_request_pk`. -/
def serverReadProbe (handler : Handler) (user pubkeyAlgo pubkeyKey : Bytes) (pubkey : PublicKey) :
    M Unit := do
  setAuthUser user
  let auth ← askAuth handler (.authPublickey user pubkey)
  if auth = .accept then do
    push (msg.USERAUTH_PK_OK :: sshString pubkeyAlgo ++ sshString pubkeyKey)
    modifyAuth fun auth => { auth with current := some (.publicKey pubkeyKey pubkeyAlgo true) }
  else do
    modifyAuth fun auth => { auth with partialSuccess := false }
    setAuthUser []
    rejectAuthRequest

/-- `server_read_auth_request_pk`. -/
def serverReadAuthRequestPk (handler : Handler) (buf user : Bytes) (r : Position) : M Unit := do
  let (isReal, r) ← lift r.readByte
  let (pubkeyAlgo, r) ← lift r.readString
  let (pubkeyKey, r) ← lift r.readString
  match publicKeyParse pubkeyAlgo pubkeyKey with
  | .ok pubkey =>
    if isReal ≠ 0 then serverReadSignedRequest handler buf user pubkey r
    else serverReadProbe handler user pubkeyAlgo pubkeyKey pubkey
  | .error .couldNotReadKey => rejectAuthRequest
  | .error e => throw (.error e)

/-- The password branch of `server_read_auth_request`. -/
def serverReadPassword (handler : Handler) (user : Bytes) (r : Position) : M Unit := do
  setAuthUser user
  let (_, r) ← lift r.readByte
  let (password, _) ← lift r.readString
  let password ← lift (fromUtf8 password)
  let auth ← askAuth handler (.authPassword user password)
  if auth = .accept then acceptAuthRequest
  else do
    setAuthUser []
    modifyAuth fun auth =>
      { auth with methods := { auth.methods with password := false }, partialSuccess := false }
    rejectAuthRequest

/-- The keyboard-interactive branch of `server_read_auth_request`. -/
def serverReadKeyboardInteractive (handler : Handler) (user : Bytes) (r : Position) : M Unit := do
  setAuthUser user
  let (_, r) ← lift r.readString -- language tag, deprecated
  let (submethods, _) ← lift r.readString
  let submethods ← lift (fromUtf8 submethods)
  modifyAuth fun auth => { auth with current := some (.keyboardInteractive submethods) }
  let auth ← askAuth handler (.authKeyboardInteractive user submethods none)
  if ← replyUserauthInfoResponse auth then
    modifyEnc fun enc => { enc with state := .initCompression }
  else pure ()

/-- `server_read_auth_request`. -/
def serverReadAuthRequest (handler : Handler) (buf : Bytes) : M Unit := do
  let (user, r) ← lift (reader buf 1).readString
  let user ← lift (fromUtf8 user)
  let (serviceName, r) ← lift r.readString
  let (method, r) ← lift r.readString
  if serviceName = sshConnection then
    if method = ascii "password" then serverReadPassword handler user r
    else if method = ascii "publickey" then serverReadAuthRequestPk handler buf user r
    else if method = ascii "keyboard-interactive" then serverReadKeyboardInteractive handler user r
    else rejectAuthRequest
  else throw (.error .inconsistent)

end Thrussh.Server
