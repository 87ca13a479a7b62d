import Thrussh.Client.Run
import Thrussh.Server.Run

/-!
# A transparent instance of the libraries

Concrete functions for `Deps` that keep the promises of `LawfulSodium`: a
key stream of zeros, a commutative curve operation, a digest that keeps
the first bytes, signatures that repeat what they sign, and flate2 streams
that copy. Theorems about all libraries are tried on it, and it runs the
concrete sessions in which a property fails.
-/

namespace Thrussh.Concrete

/-- The first 32 bytes, padded with zeros. -/
def digest (s : Bytes) : Bytes32 := ⟨(resize s 32).toArray, by simp⟩

/-- Copy as much as the output has room for. -/
def copyStep (input : Bytes) (room : Nat) : Option (FlateStep Unit) :=
  some ⟨if room = 0 ∨ input = [] then .bufError else .ok, min room input.length,
    input.take room, ()⟩

/-- The transparent libraries. -/
@[reducible] def deps : Deps where
  sha256 := digest
  scalarmult a b := Vector.zipWith (· ^^^ ·) a b
  scalarmultBase a := a
  chacha20Xor data _ _ := data
  chacha20XorIc data _ _ _ := data
  poly1305Auth _ _ := Vector.replicate 16 0
  poly1305Verify tag _ _ := tag = zeros 16
  sshMpint s := sshString s
  mpintLen s := s.length
  parsePublicKey blob :=
    match Position.readString ⟨blob, 15⟩ with
    | .ok (key, _) => .ok (.ed25519 (digest key))
    | .error _ => .error .couldNotReadKey
  publicKeyParse _ blob := .ok (.ed25519 (digest blob))
  verifyServerAuth _ hash sig := sig = hash
  verifyClientAuth _ _ _ := true
  addSignature _ hash := .ok (sshString (sshString ed25519Name ++ sshString hash.toList))
  addSelfSignature _ _ := .ok (sshString (sshString ed25519Name ++ sshString []))
  Deflate := Unit
  deflateNew := ()
  deflateReset _ := ()
  deflate _ := copyStep
  Inflate := Unit
  inflateNew := ()
  inflateReset _ := ()
  inflate _ := copyStep

/-- The transparent libraries keep the promises made of libsodium. -/
theorem lawful : @LawfulSodium deps := by
  let _ := deps
  exact {
    length_chacha20Xor := fun _ _ _ => rfl
    length_chacha20XorIc := fun _ _ _ _ => rfl
    chacha20Xor_twice := fun _ _ _ => rfl
    chacha20XorIc_twice := fun _ _ _ _ => rfl
    poly1305_verify_auth := fun _ _ => by
      change decide ((Vector.replicate 16 (0 : UInt8)).toList = zeros 16) = true
      decide
    scalarmult_comm := fun a b => by
      change Vector.zipWith (· ^^^ ·) a b = Vector.zipWith (· ^^^ ·) b a
      ext i hi
      simp [UInt8.xor_comm] }

/-- A clock that stands still and random bytes that are zero. -/
def world : World := ⟨fun _ => 0, fun _ => ⟨Vector.replicate 16 0, Vector.replicate 32 0⟩⟩

/-- A freshly encrypted session with nothing queued. -/
def encrypted (state : EncryptedState) : @Encrypted deps :=
  letI := deps
  { state := state, exchange := some Exchange.new, kex := ⟨none, none⟩, key := 0, mac := none
    sessionId := Vector.replicate 32 0, rekey := none, channels := fun _ => none
    lastChannelId := 1, wantsReply := false, write := [], writeCursor := 0, lastRekey := 0
    serverCompression := .none, clientCompression := .none, compress := .none
    decompress := .none, emitted := [], deeds := [] }

/-- A confirmed channel with number 2 and a given window. -/
def channel (window : UInt32) : Channel := ⟨7, 2, window, 100, 100, 100, true, false, []⟩

/-- An encrypted session with that channel. -/
def withChannel (window : UInt32) : @Encrypted deps :=
  letI := deps
  (encrypted .authenticated).setChannel 2 (channel window)

/-- A server with one key and the default algorithms. -/
def serverConfig : Server.Config where
  serverId := ascii "SSH-2.0-server"
  methods := .all
  authBanner := none
  keys := [.ed25519 (Vector.replicate 32 0) (Vector.replicate 32 0)]
  limits := ⟨2 ^ 30, 2 ^ 30, 3600⟩
  windowSize := 2097152
  maximumPacketSize := 32768
  preferred := .default
  maxAuthAttempts := 10
  connectionTimeout := none

/-- A client with the default algorithms. -/
def clientConfig : Client.Config where
  clientId := ascii "SSH-2.0-client"
  limits := ⟨2 ^ 30, 2 ^ 30, 3600⟩
  windowSize := 2097152
  maximumPacketSize := 32768
  preferred := .default

/-- A server's handler with the default methods, which accepts every authentication. -/
def handler : @Server.Handler deps := fun _ _ _ => ⟨[], false, .accept, false, 0⟩

/-- A client's application with the default methods, which accepts every host key. -/
def application : @Client.Application deps :=
  letI := deps
  { handler := fun _ callback _ => { Client.Answer.default callback with check := true }
    listening := fun _ _ => true
    awaited := fun _ _ => [] }

/-- A packet in the clear. -/
def clear (payload : Bytes) : Bytes :=
  letI := deps
  CipherKey.wire .clear 0 payload

/-- A packet under a key. With these libraries all keys and numbers seal alike. -/
def sealed (payload : Bytes) : Bytes :=
  letI := deps
  CipherKey.wire (.chacha20Poly1305 ⟨Vector.replicate 32 0, Vector.replicate 32 0⟩) 0 payload

/-- A KEXINIT with the default algorithms. -/
def kexinit : Bytes := writeKex .default (Vector.replicate 16 0)

/-- The packets with which a client takes a server through the first exchange. -/
def handshake {M : Type} : List (Event M) :=
  [.arrive (clear kexinit), .read, .arrive (clear (msg.KEX_ECDH_INIT :: sshString (zeros 32))), .read,
    .arrive (clear [msg.NEWKEYS]), .read]

/-- The server's answer to an ECDH_INIT. The digest sees the identification lines only. -/
def reply : Bytes :=
  letI := deps
  let hash := digest (sshString clientConfig.clientId ++ sshString serverConfig.serverId)
  msg.KEX_ECDH_REPLY :: (sshString (sshString ed25519Name ++ sshString (zeros 32)) ++
    sshString (zeros 32) ++ sshString (sshString ed25519Name ++ sshString hash.toList))

/-- The packets with which a server takes a client through the first exchange. -/
def answers {M : Type} : List (Event M) :=
  [.arrive (clear kexinit), .read, .arrive (clear reply), .read, .arrive (clear [msg.NEWKEYS]), .read]

/-- A publickey request of the user `root`: a probe, or a request with a signature. -/
def publickeyRequest (key : Bytes) (signed : Bool) : Bytes :=
  msg.USERAUTH_REQUEST :: sshString (ascii "root") ++ sshString (ascii "ssh-connection") ++
    sshString (ascii "publickey") ++ flagByte signed :: sshString ed25519Name ++ sshString key ++
      if signed then sshString (sshString ed25519Name ++ sshString []) else []

/-- A handler that accepts one public key and nothing else. -/
def accepting (key : Bytes) : @Server.Handler deps := fun _ callback _ =>
  match callback with
  | .authPublickey _ pubkey =>
    if pubkey = .ed25519 (digest key) then ⟨[], false, .accept, false, 0⟩ else .finished
  | _ => .finished

/-- A client up to its first request of the authentication. -/
def authenticating {M : Type} : List (Event M) :=
  handshake ++ [.arrive (sealed (msg.SERVICE_REQUEST :: sshString (ascii "ssh-userauth"))), .read]

/-- A client whose authentication is over. -/
def authenticated {M : Type} : List (Event M) :=
  authenticating ++ [.arrive (sealed (publickeyRequest [1] true)), .read]

/-- The opening of a session by a client whose number for it is 5. -/
def sessionOpen : Bytes := channelOpenPacket (ascii "session") 5 100 100 []

/-- The opening of a channel for a connection to `host` that a server forwards. -/
def forwardedOpen : Bytes :=
  channelOpenPacket (ascii "forwarded-tcpip") 5 100 100
    (sshString (ascii "host") ++ be32 22 ++ sshString (ascii "origin") ++ be32 99)

/-- Three bytes for a channel of the server. -/
def dataFor (id : UInt32) : Bytes := msg.CHANNEL_DATA :: be32 id ++ sshString [1, 2, 3]

/-- A global request of an unknown type. -/
def globalRequest (wantsReply : UInt8) : Bytes :=
  msg.GLOBAL_REQUEST :: sshString (ascii "keepalive") ++ [wantsReply]

/-- A request of an unknown type on the server's first channel. -/
def strangeRequest (wantsReply : UInt8) : Bytes :=
  msg.CHANNEL_REQUEST :: be32 2 ++ sshString (ascii "strange") ++ [wantsReply]

/-- A request of the user `root` for keyboard-interactive authentication. -/
def interactiveRequest : Bytes :=
  msg.USERAUTH_REQUEST :: sshString (ascii "root") ++ sshString (ascii "ssh-connection") ++
    sshString (ascii "keyboard-interactive") ++ sshString [] ++ sshString []

/-- A handler that accepts every authentication but the keyboard-interactive
one, which it does not support. -/
def unsupporting : @Server.Handler deps := fun _ callback _ =>
  match callback with
  | .authKeyboardInteractive _ _ _ => ⟨[], false, .unsupportedMethod, false, 0⟩
  | _ => ⟨[], false, .accept, false, 0⟩

/-- A client that authenticates by a probe of one key and a signature of another. -/
def otherKey {M : Type} : List (Event M) :=
  handshake ++ [.arrive (sealed (msg.SERVICE_REQUEST :: sshString (ascii "ssh-userauth"))), .read,
    .arrive (sealed (publickeyRequest [1] false)), .read,
    .arrive (sealed (publickeyRequest [2] true)), .read]

/-- A handler with one round of keyboard-interactive authentication, whose response it accepts. -/
def prompting : @Server.Handler deps := fun _ callback _ =>
  match callback with
  | .authKeyboardInteractive _ _ none => ⟨[], false, .partialAccept [] [] [], false, 0⟩
  | .authKeyboardInteractive _ _ (some _) => ⟨[], false, .accept, false, 0⟩
  | _ => .finished

/-- A client up to its request for keyboard-interactive authentication. -/
def interactive {M : Type} : List (Event M) :=
  handshake ++ [.arrive (sealed (msg.SERVICE_REQUEST :: sshString (ascii "ssh-userauth"))), .read,
    .arrive (sealed (msg.USERAUTH_REQUEST :: sshString (ascii "root") ++
      sshString (ascii "ssh-connection") ++ sshString (ascii "keyboard-interactive") ++
      sshString [] ++ sshString [])), .read,
    .arrive (sealed (msg.USERAUTH_INFO_RESPONSE :: be32 0))]

/-- A value that a computation is known to return. -/
def returned {α : Type} (x : Except Fault α) (h : x.toOption.isSome = true) : α := x.toOption.get h

theorem returned_spec {α : Type} (x : Except Fault α) (h : x.toOption.isSome = true) :
    x = .ok (returned x h) := by
  cases x with
  | ok a => rfl
  | error e => cases h

/-- The server's loop before its first turn. -/
def server : @Loop (@Server.Session deps) :=
  letI := deps
  returned (Server.runStream serverConfig handler clientConfig.clientId world) (by decide +kernel)

/-- The client's loop before its first turn. -/
def client : @Loop (@Client.Session deps) :=
  letI := deps
  returned (Client.connectStream clientConfig application serverConfig.serverId world)
    (by decide +kernel)

/-- A server whose limits ask for a re-exchange after every flush. -/
def impatientConfig : Server.Config := { serverConfig with limits := ⟨0, 2 ^ 30, 3600⟩ }

/-- The impatient server's loop before its first turn. -/
def impatient : @Loop (@Server.Session deps) :=
  letI := deps
  returned (Server.runStream impatientConfig handler clientConfig.clientId world)
    (by decide +kernel)

theorem impatient_eq :
    letI := deps
    Server.runStream impatientConfig handler clientConfig.clientId world = .ok impatient :=
  returned_spec _ _

/-- A server that allows a single rejection. -/
def strictConfig : Server.Config := { serverConfig with maxAuthAttempts := 1 }

/-- The strict server's loop before its first turn. -/
def strict : @Loop (@Server.Session deps) :=
  letI := deps
  returned (Server.runStream strictConfig handler clientConfig.clientId world) (by decide +kernel)

theorem strict_eq (handler' : @Server.Handler deps) :
    letI := deps
    Server.runStream strictConfig handler' clientConfig.clientId world = .ok strict :=
  (@Server.runStream_congr deps _ handler' handler _ _).trans (returned_spec _ _)

theorem runStream_eq (handler' : @Server.Handler deps) :
    letI := deps
    Server.runStream serverConfig handler' clientConfig.clientId world = .ok server :=
  (@Server.runStream_congr deps _ handler' handler _ _).trans (returned_spec _ _)

theorem connectStream_eq :
    letI := deps
    Client.connectStream clientConfig application serverConfig.serverId world = .ok client :=
  returned_spec _ _

/-- The server's session right after an exchange, at a stage. -/
def serverSession (state : EncryptedState) : @Server.Session deps :=
  letI := deps
  { server.session with
    common := { server.session.common with encrypted := some (encrypted state), kex := none } }

/-- The client's session right after an exchange, at a stage. -/
def clientSession (state : EncryptedState) : @Client.Session deps :=
  letI := deps
  { client.session with
    common := { client.session.common with encrypted := some (encrypted state), kex := none } }

/-- The client's session with the channel. -/
def clientWithChannel (window : UInt32) : @Client.Session deps :=
  letI := deps
  { client.session with
    common := { client.session.common with encrypted := some (withChannel window), kex := none } }

/-- An encrypted session with the other side of the channel. -/
def withPeerChannel (window : UInt32) : @Encrypted deps :=
  letI := deps
  (encrypted .authenticated).setChannel 7 ⟨2, 7, window, 100, 100, 100, true, false, []⟩

/-- The server's session with its side of the channel. -/
def serverWithChannel (window : UInt32) : @Server.Session deps :=
  letI := deps
  { server.session with
    common := { server.session.common with encrypted := some (withPeerChannel window), kex := none } }

end Thrussh.Concrete
