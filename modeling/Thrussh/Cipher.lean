import Thrussh.Deps

/-!
# Binary packets: sealing, opening and reading

`CipherPair::write` and `cipher::read` for the clear pair and for
ChaCha20-Poly1305, on `SSHBuffer`. `read` is given the bytes that have
arrived and whether the peer has closed the stream: it waits, returns a
packet, fails, or panics, and a failure leaves in the shared buffer what the
source leaves there. `epoch` and `history` are history variables: `epoch`
numbers the key exchange that made a pair (0 is the clear pair) and
`history` lists every packet sealed into or opened out of a buffer.
-/

namespace Thrussh

open Deps

/-- `PACKET_LENGTH_LEN`. -/
abbrev packetLengthLen : Nat := 4

/-- `MINIMUM_PACKET_LEN`. -/
abbrev minimumPacketLen : Nat := 16

/-- `PADDING_LENGTH_LEN`. -/
abbrev paddingLengthLen : Nat := 1

/-- Which call of `CipherPair::write` sealed a packet: a step of the key
exchange, the direct service request, or `Encrypted::flush`; `opened` marks
the packets of `cipher::read`. -/
inductive Origin where
  | kexinit | ecdhInit | ecdhReply | newkeys | service | queued | opened
  deriving DecidableEq, Repr

/-- Whether the packet belongs to the key exchange itself. -/
def Origin.isKex : Origin → Bool
  | .kexinit | .ecdhInit | .ecdhReply | .newkeys => true
  | .service | .queued | .opened => false

/-- One packet in the history of a buffer. -/
structure PacketRecord where
  /-- The key exchange that made the key. -/
  epoch : Nat
  /-- The sequence number given to the cipher. -/
  seqn : UInt32
  /-- The payload. -/
  payload : Bytes
  /-- Where the packet comes from. -/
  origin : Origin
  deriving DecidableEq, Repr

/-- `SSHBuffer`, with the history of its packets. -/
structure SSHBuffer where
  /-- The bytes. -/
  buffer : Bytes
  /-- Next packet length, never set to anything but 0. -/
  len : Nat
  /-- Payload bytes sealed. -/
  bytes : Nat
  /-- Sequence numbers are on 32 bits and wrap. -/
  seqn : UInt32
  /-- History: the packets sealed into, or opened out of, this buffer. -/
  history : List PacketRecord
  deriving DecidableEq, Repr

/-- `SSHBuffer::new`. -/
def SSHBuffer.new : SSHBuffer := ⟨[], 0, 0, 0, []⟩

/-- `SSHBuffer::send_ssh_id`. -/
def SSHBuffer.sendSshId (b : SSHBuffer) (id : Bytes) : SSHBuffer :=
  { b with buffer := b.buffer ++ id ++ [13, 10] }

/-- `buffer.buffer.clear()`. -/
def SSHBuffer.clear (b : SSHBuffer) : SSHBuffer := { b with buffer := [] }

/-- The two keys of ChaCha20-Poly1305. -/
structure ChachaKey where
  /-- Key of the length field. -/
  k1 : Bytes32
  /-- Key of the payload and of the tag. -/
  k2 : Bytes32
  deriving DecidableEq

/-- `SealingCipher`, and `OpeningCipher`: both hold the clear key or the two ChaCha keys. -/
inductive CipherKey where
  | clear
  | chacha20Poly1305 (key : ChachaKey)
  deriving DecidableEq

/-- `CipherPair`, with the number of the key exchange that made it. -/
structure CipherPair where
  /-- The sealing key. -/
  localToRemote : CipherKey
  /-- The opening key. -/
  remoteToLocal : CipherKey
  /-- History: 0 for `CLEAR_PAIR`, then one more at every installed exchange. -/
  epoch : Nat
  deriving DecidableEq

/-- `CLEAR_PAIR`. -/
def clearPair : CipherPair := ⟨.clear, .clear, 0⟩

/-- `make_sealing_cipher` and `make_opening_cipher` on 64 key bytes: the
first half is `k2`, the second `k1`; another length makes them panic. -/
def makeCipher (k : Bytes) : Except Fault CipherKey :=
  if h1 : (k.drop 32).length = 32 then
    if h2 : (k.take 32).length = 32 then
      .ok (.chacha20Poly1305
        ⟨⟨(k.drop 32).toArray, by simpa using h1⟩, ⟨(k.take 32).toArray, by simpa using h2⟩⟩)
    else .error .panic
  else .error .panic

/-- `tag_len`. -/
def CipherKey.tagLen : CipherKey → Nat
  | .clear => 0
  | .chacha20Poly1305 _ => 16

/-- `make_counter`: eight bytes, the last four of them the sequence number. -/
def makeCounter (seqn : UInt32) : Bytes := zeros 4 ++ be32 seqn

variable [Deps]

/-- The Poly1305 key of a packet. -/
def polyKey (seqn : UInt32) (key : ChachaKey) : Bytes :=
  chacha20Xor (zeros 32) (makeCounter seqn) key.k2

/-- `padding_length`. -/
def CipherKey.paddingLength : CipherKey → Bytes → Nat
  | .clear, payload =>
    let paddingLen := 8 - (5 + payload.length) % 8
    if paddingLen < 4 then paddingLen + 8 else paddingLen
  | .chacha20Poly1305 _, payload =>
    let extraLen := packetLengthLen + paddingLengthLen
    let paddingLen :=
      if payload.length + extraLen ≤ minimumPacketLen then
        minimumPacketLen - payload.length - paddingLengthLen
      else 8 - (paddingLengthLen + payload.length) % 8
    if paddingLen < packetLengthLen then paddingLen + 8 else paddingLen

/-- `seal` on a whole packet (length, padding length, payload, padding):
what it becomes, and the tag. -/
def CipherKey.seal : CipherKey → UInt32 → Bytes → Bytes × Bytes
  | .clear, _, plaintext => (plaintext, [])
  | .chacha20Poly1305 key, seqn, plaintext =>
    let ciphertext := chacha20Xor (plaintext.take 4) (makeCounter seqn) key.k1 ++
      chacha20XorIc (plaintext.drop 4) (makeCounter seqn) 1 key.k2
    (ciphertext, (poly1305Auth ciphertext (polyKey seqn key)).toList)

/-- The packet before sealing: `packet_length`, `padding_length`, payload, zero padding. -/
def CipherKey.plaintext (key : CipherKey) (payload : Bytes) : Bytes :=
  let paddingLength := key.paddingLength payload
  be32 (UInt32.ofNat (paddingLengthLen + payload.length + paddingLength)) ++
    UInt8.ofNat paddingLength :: payload ++ zeros paddingLength

/-- The bytes that `CipherPair::write` appends for a payload. -/
def CipherKey.wire (key : CipherKey) (seqn : UInt32) (payload : Bytes) : Bytes :=
  let (ciphertext, tag) := key.seal seqn (key.plaintext payload)
  ciphertext ++ tag

/-- `CipherPair::write`. The two assertions are on the packet and padding lengths. -/
def CipherPair.write (pair : CipherPair) (origin : Origin) (payload : Bytes) :
    EStateM Fault SSHBuffer Unit := fun b =>
  let key := pair.localToRemote
  let paddingLength := key.paddingLength payload
  if paddingLengthLen + payload.length + paddingLength ≤ 2 ^ 32 - 1 ∧ paddingLength ≤ 255 then
    .ok () { b with
      buffer := b.buffer ++ key.wire b.seqn payload
      bytes := b.bytes + payload.length
      seqn := b.seqn + 1
      history := b.history ++ [⟨pair.epoch, b.seqn, payload, origin⟩] }
  else .error .panic b

/-- `decrypt_packet_length` followed by `BigEndian::read_u32`. -/
def CipherKey.packetLength : CipherKey → UInt32 → Bytes → Option UInt32
  | .clear, _, len => headBe32 len
  | .chacha20Poly1305 key, seqn, len => headBe32 (chacha20Xor len (makeCounter seqn) key.k1)

/-- `open`: the ciphertext buffer after the call, or `Error::PacketAuth` with
the buffer untouched. The plaintext is the result from index 4 on. -/
def CipherKey.open : CipherKey → UInt32 → Bytes → Bytes → Option Bytes
  | .clear, _, ciphertext, _ => some ciphertext
  | .chacha20Poly1305 key, seqn, ciphertext, tag =>
    if poly1305Verify tag ciphertext (polyKey seqn key) then
      some (ciphertext.take 4 ++ chacha20XorIc (ciphertext.drop 4) (makeCounter seqn) 1 key.k2)
    else none

/-- How far `cipher::read` gets with the bytes that have arrived. -/
inductive ReadResult where
  /-- It waits for more bytes. -/
  | pending
  /-- It returns `Ok(n)`; the buffer, and the bytes it leaves in the stream. -/
  | ok (n : Nat) (buffer : SSHBuffer) (rest : Bytes)
  /-- It returns `Err`; the buffer, and the bytes it leaves in the stream. -/
  | err (e : Error) (buffer : SSHBuffer) (rest : Bytes)
  /-- The task panics. -/
  | panic
  deriving DecidableEq, Repr

/-- The end of `cipher::read`, once the whole packet is in the buffer. -/
def readPacket (pair : CipherPair) (b : SSHBuffer) (rest : Bytes) : ReadResult :=
  let key := pair.remoteToLocal
  let ciphertextLen := b.buffer.length - key.tagLen
  match key.open b.seqn (b.buffer.take ciphertextLen) (b.buffer.drop ciphertextLen) with
  | none => .err .packetAuth b rest
  | some opened =>
    let buffer := opened ++ b.buffer.drop ciphertextLen
    match opened.drop 4 with
    | [] => .panic
    | paddingLength :: body =>
      if paddingLength.toNat ≤ body.length + 1 then
        let plaintextEnd := body.length + 1 - paddingLength.toNat
        .ok (plaintextEnd + 4)
          { b with
            buffer := resize buffer (plaintextEnd + 4)
            len := 0
            seqn := b.seqn + 1
            history := b.history ++
              [⟨pair.epoch, b.seqn, (resize buffer (plaintextEnd + 4)).drop 5, .opened⟩] }
          rest
      else .err .indexOutOfBounds { b with buffer := buffer } rest

/-- `cipher::read` on the bytes that have arrived. `eof` says that the peer
has closed the stream behind them, so that `read_exact` fails when they are
too few; the bytes it did get are then in the buffer, the rest of which is zero. -/
def read (pair : CipherPair) (b : SSHBuffer) (stream : Bytes) (eof : Bool) : ReadResult :=
  if stream.length < 4 then
    if eof then .err .unexpectedEof b [] else .pending
  else
    match pair.remoteToLocal.packetLength b.seqn (stream.take 4) with
    | none => .panic
    | some len =>
      let n := len.toNat + pair.remoteToLocal.tagLen
      if stream.length < 4 + n then
        if eof then .err .unexpectedEof { b with buffer := resize stream (n + 4) } []
        else .pending
      else readPacket pair { b with buffer := stream.take (4 + n) } (stream.drop (4 + n))

end Thrussh
