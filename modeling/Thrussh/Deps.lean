import Thrussh.Encoding

/-!
# The libraries the crate calls

libsodium, openssl, flate2 and `thrussh_keys` are not part of the
repository. Their functions are the fields of `Deps`, left uninterpreted;
`LawfulSodium` states what their documentation promises, and only the results
that need such a promise assume it. Instants and random bytes are the
answers of a `World`, one for each question asked.
-/

namespace Thrussh

/-- The hash of an RSA signature, `thrussh_keys::key::SignatureHash`. -/
inductive SignatureHash where
  | sha2_256 | sha2_512 | sha1
  deriving DecidableEq, Repr

/-- `thrussh_keys::key::PublicKey`, with what `push_to` writes of it. -/
inductive PublicKey where
  | ed25519 (key : Bytes32)
  | rsa (e n : Bytes) (hash : SignatureHash)
  deriving DecidableEq

/-- `thrussh_keys::key::KeyPair`: a secret with the public part that `push_to` writes. -/
inductive KeyPair where
  | ed25519 (secret pub : Bytes32)
  | rsa (e n secret : Bytes) (hash : SignatureHash)
  deriving DecidableEq

/-- `flate2::Status`. -/
inductive Status where
  | ok | bufError | streamEnd
  deriving DecidableEq, Repr

/-- One call of a flate2 stream: the status, the input bytes consumed, the
output bytes produced and the stream afterwards. -/
structure FlateStep (Z : Type) where
  /-- The returned status. -/
  status : Status
  /-- How many input bytes were consumed. -/
  consumed : Nat
  /-- The bytes written to the output. -/
  produced : Bytes
  /-- The stream after the call. -/
  next : Z

/-- The functions of the libraries that the modelled code calls. -/
class Deps where
  /-- SHA-256, through `openssl::hash::Hasher`. -/
  sha256 : Bytes → Bytes32
  /-- `sodium::scalarmult::scalarmult`, secret first. -/
  scalarmult : Bytes32 → Bytes32 → Bytes32
  /-- `sodium::scalarmult::scalarmult_base`. -/
  scalarmultBase : Bytes32 → Bytes32
  /-- `chacha20_xor` on data, nonce and key. -/
  chacha20Xor : Bytes → Bytes → Bytes32 → Bytes
  /-- `chacha20_xor_ic` on data, nonce, initial block and key. -/
  chacha20XorIc : Bytes → Bytes → Nat → Bytes32 → Bytes
  /-- `poly1305_auth` on the message and the one-time key. -/
  poly1305Auth : Bytes → Bytes → Vector UInt8 16
  /-- `poly1305_verify` on the tag, the message and the one-time key. -/
  poly1305Verify : Bytes → Bytes → Bytes → Bool
  /-- The bytes that `extend_ssh_mpint` appends. -/
  sshMpint : Bytes → Bytes
  /-- `mpint_len`. -/
  mpintLen : Bytes → Nat
  /-- `parse_public_key`, the blob of a host key. -/
  parsePublicKey : Bytes → Except Error PublicKey
  /-- `PublicKey::parse` on the algorithm and the blob. -/
  publicKeyParse : Bytes → Bytes → Except Error PublicKey
  /-- `verify_server_auth` on the key, the hash and the signature. -/
  verifyServerAuth : PublicKey → Bytes → Bytes → Bool
  /-- `verify_client_auth` on the key, the signed buffer and the signature. -/
  verifyClientAuth : PublicKey → Bytes → Bytes → Bool
  /-- What `add_signature` appends for a hash. -/
  addSignature : KeyPair → Bytes32 → Except Error Bytes
  /-- What `add_self_signature` appends to a buffer. -/
  addSelfSignature : KeyPair → Bytes → Except Error Bytes
  /-- `flate2::Compress`. -/
  Deflate : Type
  /-- `flate2::Compress::new(Compression::fast(), true)`. -/
  deflateNew : Deflate
  /-- `flate2::Compress::reset`. -/
  deflateReset : Deflate → Deflate
  /-- `flate2::Compress::compress` with partial flush, on the input and the output room. -/
  deflate : Deflate → Bytes → Nat → Option (FlateStep Deflate)
  /-- `flate2::Decompress`. -/
  Inflate : Type
  /-- `flate2::Decompress::new(true)`. -/
  inflateNew : Inflate
  /-- `flate2::Decompress::reset(true)`. -/
  inflateReset : Inflate → Inflate
  /-- `flate2::Decompress::decompress` without flush. -/
  inflate : Inflate → Bytes → Nat → Option (FlateStep Inflate)

open Deps

/-- What the documentation of libsodium promises: the ciphers keep the
length, undo themselves, and a computed tag is accepted; both sides of a
Diffie-Hellman exchange find one secret. -/
class LawfulSodium [Deps] : Prop where
  /-- `chacha20_xor` works in place. -/
  length_chacha20Xor (data nonce : Bytes) (key : Bytes32) :
    (chacha20Xor data nonce key).length = data.length
  /-- `chacha20_xor_ic` works in place. -/
  length_chacha20XorIc (data nonce : Bytes) (ic : Nat) (key : Bytes32) :
    (chacha20XorIc data nonce ic key).length = data.length
  /-- XOR with the same key stream twice. -/
  chacha20Xor_twice (data nonce : Bytes) (key : Bytes32) :
    chacha20Xor (chacha20Xor data nonce key) nonce key = data
  /-- XOR with the same key stream twice. -/
  chacha20XorIc_twice (data nonce : Bytes) (ic : Nat) (key : Bytes32) :
    chacha20XorIc (chacha20XorIc data nonce ic key) nonce ic key = data
  /-- A tag made by `poly1305_auth` is accepted. -/
  poly1305_verify_auth (data key : Bytes) :
    poly1305Verify (poly1305Auth data key).toList data key = true
  /-- X25519 commutes. -/
  scalarmult_comm (a b : Bytes32) :
    scalarmult a (scalarmultBase b) = scalarmult b (scalarmultBase a)

/-- The random bytes one key-exchange step may ask for. -/
structure Rand where
  /-- The cookie of a KEXINIT. -/
  cookie : Vector UInt8 16
  /-- The secret scalar of an ephemeral key. -/
  secret : Bytes32

/-- The answers of the clock and of the random generator to successive questions. -/
structure World where
  /-- Results of `Instant::now()`. -/
  clock : Nat → Nat
  /-- Results of `rand_bytes`. -/
  rand : Nat → Rand

end Thrussh
