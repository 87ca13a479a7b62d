import Thrussh.Client.Session

/-!
# The client's key exchange

`KexInit::client_parse` and `KexDhDone::server_key_check`.
-/

namespace Thrussh

open Deps Lib

variable [Deps]

/-- `KexInit::client_parse`. The ECDH_INIT packet is made behind the own
KEXINIT in its buffer, which is then cut back. -/
def KexInit.clientParse (k : KexInit) (config : Client.Config) (cipher : CipherPair) (buf : Bytes)
    (random : Rand) : EStateM Fault SSHBuffer KexDhDone := do
  if k.algo.isSome then throw (.error .kex)
  else do
    let k := { k with exchange := { k.exchange with
      serverKexInit := k.exchange.serverKexInit ++ buf } }
    let algo ← lift (readKex .client buf config.preferred)
    let k ← if k.sent then pure k else k.ownWrite .client config.preferred cipher random.cookie
    let i0 := k.exchange.clientKexInit.length
    let (kex, clientEphemeral, clientKexInit) :=
      Algorithm.clientDh k.exchange.clientKexInit random.secret
    cipher.write .ecdhInit (clientKexInit.drop i0)
    let exchange := { k.exchange with
      clientEphemeral := clientEphemeral, clientKexInit := resize clientKexInit i0 }
    pure ⟨exchange, kex, 0, k.sessionId, algo⟩

namespace Client

/-- The part of `server_key_check` behind the check of the host key. -/
def KexDhDone.verify (k : KexDhDone) (pubkey : PublicKey) (r : Position) : Except Fault Kex := do
  let (serverEphemeral, r) ← r.readString
  let exchange := { k.exchange with
    serverEphemeral := k.exchange.serverEphemeral ++ serverEphemeral }
  let (signature, _) ← r.readString
  let kex ← k.kex.computeSharedSecret exchange.serverEphemeral
  let hash := kex.computeExchangeHash pubkey.pushTo exchange
  let (_, s) ← (reader signature 0).readString
  let (sig, _) ← s.readString
  if verifyServerAuth pubkey hash.toList sig then do
    let newkeys ← KexDhDone.computeKeys { k with exchange := exchange, kex := kex } hash false
    .ok (.newKeys { newkeys with sent := true })
  else .error (.error .wrongServerSig)

/-- `parse_public_key`, with its error. -/
def readPublicKey (blob : Bytes) : Except Fault PublicKey :=
  match parsePublicKey blob with
  | .ok key => .ok key
  | .error e => .error (.error e)

/-- `KexDhDone::server_key_check`. The handler judges the key in the first exchange only. -/
def serverKeyCheck (app : Application) (k : KexDhDone) (rekey : Bool) (buf : Bytes) : M Kex := do
  let (blob, r) ← lift (reader buf 1).readString
  let pubkey ← lift (readPublicKey blob)
  if rekey then lift (KexDhDone.verify k pubkey r)
  else do
    if ← checkServerKey app pubkey then lift (KexDhDone.verify k pubkey r)
    else throw (.error .unknownKey)

end Client

end Thrussh
