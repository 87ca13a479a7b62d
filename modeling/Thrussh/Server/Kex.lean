import Thrussh.Server.Session

/-!
# The server's key exchange

`KexInit::server_parse` and `KexDh::parse`. Both seal their packets into the
write buffer at once. Random bytes are arguments.
-/

namespace Thrussh

open Deps Lib

variable [Deps]

/-- The loop over `config.keys` for a key of the chosen type. -/
def findKey (keys : List KeyPair) (name : Bytes) : Option Nat :=
  keys.findIdx? fun key => key.name = name

/-- `KexInit::server_parse`. -/
def KexInit.serverParse (k : KexInit) (config : Server.Config) (cipher : CipherPair) (buf : Bytes)
    (cookie : Vector UInt8 16) : EStateM Fault SSHBuffer Kex := do
  if buf.head? = some msg.KEXINIT then
    let k := { k with exchange := { k.exchange with
      clientKexInit := k.exchange.clientKexInit ++ buf } }
    let algo ← lift (readKex .server buf config.preferred)
    let k ← if k.sent then pure k else k.ownWrite .server config.preferred cipher cookie
    match findKey config.keys algo.key with
    | some key => pure (.kexDh ⟨k.exchange, algo, key, k.sessionId⟩)
    | none => throw (.error .unknownKey)
  else pure (.kexInit k)

/-- The KEX_ECDH_REPLY: host key, ephemeral key and the signature of the exchange hash. -/
def ecdhReply (key : KeyPair) (exchange : Exchange) (hash : Bytes32) : Except Fault Bytes :=
  match addSignature key hash with
  | .ok signature =>
    .ok (msg.KEX_ECDH_REPLY :: key.pushTo ++ sshString exchange.serverEphemeral ++ signature)
  | .error e => .error (.error e)

/-- `KexDh::parse`. -/
def KexDh.parse (k : KexDh) (config : Server.Config) (cipher : CipherPair) (buf : Bytes)
    (secret : Bytes32) : EStateM Fault SSHBuffer Kex := do
  if k.names.ignoreGuessed then
    pure (.kexDh { k with names := { k.names with ignoreGuessed := false } })
  else if buf.head? = some msg.KEX_ECDH_INIT then
    let (clientEphemeral, _) ← lift (reader buf 1).readString
    let exchange := { k.exchange with
      clientEphemeral := k.exchange.clientEphemeral ++ clientEphemeral }
    let (kex, exchange) ← lift (Algorithm.serverDh exchange buf secret)
    match config.keys[k.key]? with
    | none => throw .panic
    | some key =>
      let hash := kex.computeExchangeHash key.pushTo exchange
      let reply ← lift (ecdhReply key exchange hash)
      cipher.write .ecdhReply reply
      cipher.write .newkeys [msg.NEWKEYS]
      let newkeys ← lift
        (KexDhDone.computeKeys ⟨exchange, kex, k.key, k.sessionId, k.names⟩ hash true)
      pure (.newKeys newkeys)
  else throw .panic -- the assertion on `buf[0]`

end Thrussh
