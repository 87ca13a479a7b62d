import Thrussh.Cipher
import Thrussh.Negotiation

/-!
# The key exchange

The records of `session.rs` that a key exchange moves through, the X25519
`Algorithm` with the exchange hash and the derived keys, and the host keys
of `key.rs`. A step that copies a slice into a 32-byte array panics on any
other length. The steps that also write packets are in the modules of the
two roles.
-/

namespace Thrussh

open Deps

/-- `clone_from_slice` into a `[u8; 32]`. -/
def toBytes32 (s : Bytes) : Except Fault Bytes32 :=
  if h : s.length = 32 then .ok ⟨s.toArray, by simpa using h⟩ else .error .panic

/-- Copying the bytes of an array gives the array back. -/
@[simp] theorem toBytes32_toList (v : Bytes32) : toBytes32 v.toList = .ok v := by
  have h : v.toList.length = 32 := by simp
  rw [toBytes32, dif_pos h]
  congr 1

/-- `Exchange`: everything both sides hash. -/
structure Exchange where
  /-- The client's identification line. -/
  clientId : Bytes
  /-- The server's identification line. -/
  serverId : Bytes
  /-- The client's KEXINIT payload. -/
  clientKexInit : Bytes
  /-- The server's KEXINIT payload. -/
  serverKexInit : Bytes
  /-- The client's ephemeral public key. -/
  clientEphemeral : Bytes
  /-- The server's ephemeral public key. -/
  serverEphemeral : Bytes
  deriving DecidableEq, Repr

/-- `Exchange::new`. -/
def Exchange.new : Exchange := ⟨[], [], [], [], [], []⟩

/-- The four `clear()` calls that start a re-exchange; the two ids stay. -/
def Exchange.cleared (ex : Exchange) : Exchange :=
  { ex with clientKexInit := [], serverKexInit := [], clientEphemeral := [], serverEphemeral := [] }

/-- `kex::Algorithm`. -/
structure Algorithm where
  /-- The client's secret scalar, until it is used. -/
  localSecret : Option Bytes32
  /-- The shared secret, once it is known. -/
  sharedSecret : Option Bytes32
  deriving DecidableEq

/-- `KexInit`: `algo` and `sent` tell whether a KEXINIT has been received, and sent. -/
structure KexInit where
  /-- The negotiated names. -/
  algo : Option Names
  /-- The record being filled. -/
  exchange : Exchange
  /-- The session id, in a re-exchange. -/
  sessionId : Option Bytes32
  /-- Whether the own KEXINIT has been sent. -/
  sent : Bool
  deriving DecidableEq

/-- `KexInit::received_rekey`. -/
def KexInit.receivedRekey (ex : Exchange) (algo : Names) (sessionId : Bytes32) : KexInit :=
  ⟨some algo, ex.cleared, some sessionId, false⟩

/-- `KexInit::initiate_rekey`. -/
def KexInit.initiateRekey (ex : Exchange) (sessionId : Bytes32) : KexInit :=
  ⟨none, ex.cleared, some sessionId, true⟩

/-- `KexDh`, the server's phase between KEXINIT and ECDH_INIT. -/
structure KexDh where
  /-- The record being filled. -/
  exchange : Exchange
  /-- The negotiated names. -/
  names : Names
  /-- Index of the host key. -/
  key : Nat
  /-- The session id, in a re-exchange. -/
  sessionId : Option Bytes32
  deriving DecidableEq

/-- `KexDhDone`, the client's phase between its ECDH_INIT and the reply. -/
structure KexDhDone where
  /-- The record being filled. -/
  exchange : Exchange
  /-- The secrets. -/
  kex : Algorithm
  /-- Index of the host key. -/
  key : Nat
  /-- The session id, in a re-exchange. -/
  sessionId : Option Bytes32
  /-- The negotiated names. -/
  names : Names
  deriving DecidableEq

/-- `NewKeys`: the keys are computed, the peer's NEWKEYS is awaited. -/
structure NewKeys where
  /-- The completed record. -/
  exchange : Exchange
  /-- The negotiated names. -/
  names : Names
  /-- The secrets. -/
  kex : Algorithm
  /-- Index of the host key. -/
  key : Nat
  /-- The pair to install. -/
  cipher : CipherPair
  /-- The session id. -/
  sessionId : Bytes32
  /-- Never set. -/
  received : Bool
  /-- Set by the client. -/
  sent : Bool
  deriving DecidableEq

/-- `Kex`, the phase of a key exchange. -/
inductive Kex where
  | kexInit (k : KexInit)
  | kexDh (k : KexDh)
  | kexDhDone (k : KexDhDone)
  | newKeys (k : NewKeys)
  deriving DecidableEq

variable [Deps]

/-- `push_to` for a `PublicKey`. -/
def PublicKey.pushTo : PublicKey → Bytes
  | .ed25519 key =>
    be32 (UInt32.ofNat (ed25519Name.length + key.toList.length + 8)) ++
      sshString ed25519Name ++ sshString key.toList
  | .rsa e n _ =>
    be32 (UInt32.ofNat (4 + sshRsaName.length + mpintLen n + mpintLen e)) ++
      sshString sshRsaName ++ sshMpint e ++ sshMpint n

/-- `push_to` for a `KeyPair`. -/
def KeyPair.pushTo : KeyPair → Bytes
  | .ed25519 _ pub =>
    be32 (UInt32.ofNat (ed25519Name.length + pub.toList.length + 8)) ++
      sshString ed25519Name ++ sshString pub.toList
  | .rsa e n _ _ =>
    be32 (UInt32.ofNat (4 + sshRsaName.length + mpintLen n + mpintLen e)) ++
      sshString sshRsaName ++ sshMpint e ++ sshMpint n

/-- `Algorithm::server_dh`, with the random secret. -/
def Algorithm.serverDh (exchange : Exchange) (payload : Bytes) (secret : Bytes32) :
    Except Fault (Algorithm × Exchange) :=
  if payload.head? = some msg.KEX_ECDH_INIT then
    match headBe32 (payload.drop 1) with
    | none => .error .panic
    | some pubkeyLen =>
      if 5 + pubkeyLen.toNat ≤ payload.length then do
        let clientPubkey ← toBytes32 ((payload.drop 5).take pubkeyLen.toNat)
        .ok (⟨none, some (scalarmult secret clientPubkey)⟩,
          { exchange with serverEphemeral := (scalarmultBase secret).toList })
      else .error .panic
  else .error .panic

/-- `Algorithm::client_dh`, with the random secret: the secrets, the
ephemeral key and the ECDH_INIT packet appended to the buffer. -/
def Algorithm.clientDh (buf : Bytes) (secret : Bytes32) : Algorithm × Bytes × Bytes :=
  let clientPubkey := (scalarmultBase secret).toList
  (⟨some secret, none⟩, clientPubkey, buf ++ msg.KEX_ECDH_INIT :: sshString clientPubkey)

/-- `Algorithm::compute_shared_secret`. -/
def Algorithm.computeSharedSecret (kex : Algorithm) (remotePubkey : Bytes) :
    Except Fault Algorithm :=
  match kex.localSecret with
  | none => .error .panic
  | some localSecret => do
    let remotePubkey ← toBytes32 remotePubkey
    .ok ⟨none, some (scalarmult localSecret remotePubkey)⟩

/-- The mpint of the shared secret, if there is one. -/
def Algorithm.sharedMpint (kex : Algorithm) : Bytes :=
  match kex.sharedSecret with
  | some shared => sshMpint shared.toList
  | none => []

/-- `Algorithm::compute_exchange_hash`, given what `push_to` writes for the host key. -/
def Algorithm.computeExchangeHash (kex : Algorithm) (key : Bytes) (ex : Exchange) : Bytes32 :=
  sha256 (sshString ex.clientId ++ sshString ex.serverId ++ sshString ex.clientKexInit ++
    sshString ex.serverKexInit ++ key ++ sshString ex.clientEphemeral ++
    sshString ex.serverEphemeral ++ kex.sharedMpint)

/-- The loop that extends a key until it has `len` bytes. -/
def extendKey (kex : Algorithm) (hash : Bytes32) (len : Nat) : Nat → Bytes → Bytes
  | 0, key => key
  | fuel + 1, key =>
    if key.length < len then
      extendKey kex hash len fuel
        (key ++ (sha256 (kex.sharedMpint ++ hash.toList ++ key)).toList)
    else key

/-- The `compute_key` closure: each repetition of the loop adds 32 bytes, so
`len` of them are enough. -/
def Algorithm.computeKey (kex : Algorithm) (sessionId hash : Bytes32) (c : UInt8) (len : Nat) :
    Bytes :=
  extendKey kex hash len len
    (sha256 (kex.sharedMpint ++ hash.toList ++ c :: sessionId.toList)).toList

/-- `CIPHER.key_len` of ChaCha20-Poly1305. -/
def chachaKeyLen : Nat := 64

/-- `Algorithm::compute_keys`. The number of the exchange is set when the
pair is installed. -/
def Algorithm.computeKeys (kex : Algorithm) (sessionId hash : Bytes32) (cipher : Bytes)
    (isServer : Bool) : Except Fault CipherPair :=
  if cipher = chacha20poly1305 then do
    let (localToRemote, remoteToLocal) := if isServer then (68, 67) else (67, 68)
    let localToRemote ← makeCipher (kex.computeKey sessionId hash localToRemote chachaKeyLen)
    let remoteToLocal ← makeCipher (kex.computeKey sessionId hash remoteToLocal chachaKeyLen)
    .ok ⟨localToRemote, remoteToLocal, 0⟩
  else .error .panic

/-- `KexDhDone::compute_keys`: the first exchange hash is the session id. -/
def KexDhDone.computeKeys (k : KexDhDone) (hash : Bytes32) (isServer : Bool) :
    Except Fault NewKeys := do
  let sessionId := k.sessionId.getD hash
  let c ← k.kex.computeKeys sessionId hash k.names.cipher isServer
  .ok ⟨k.exchange, k.names, k.kex, k.key, c, sessionId, false, false⟩

end Thrussh
