import Thrussh.Concrete
import Thrussh.Flush

/-!
# Packets on the wire

What `CipherPair::write` appends for a payload is a whole packet: aligned,
with enough padding, and read back by `cipher::read` under the matching key
and sequence number. A list of payloads comes back in order, with the two
sequence numbers equal after every packet.
-/

namespace Thrussh

open Deps Lib

section
variable [Deps]

/-- The length that `packet_length` holds. -/
def CipherKey.bodyLength (key : CipherKey) (payload : Bytes) : Nat :=
  paddingLengthLen + payload.length + key.paddingLength payload

/-- Whether `packet_length` fits its field. -/
def CipherKey.Fits (key : CipherKey) (payload : Bytes) : Prop := key.bodyLength payload < 2 ^ 32

instance (key : CipherKey) (payload : Bytes) : Decidable (key.Fits payload) :=
  inferInstanceAs (Decidable (key.bodyLength payload < 2 ^ 32))

/-- The part of a packet that is a multiple of the block size: all of it in
the clear, all but the length field under ChaCha20-Poly1305. -/
def CipherKey.alignedLength (key : CipherKey) (payload : Bytes) : Nat :=
  match key with
  | .clear => packetLengthLen + key.bodyLength payload
  | .chacha20Poly1305 _ => key.bodyLength payload

omit [Deps] in
/-- There are between 4 and 15 bytes of padding. -/
theorem paddingLength_bounds (key : CipherKey) (payload : Bytes) :
    4 ≤ key.paddingLength payload ∧ key.paddingLength payload ≤ 15 := by
  cases key with
  | clear =>
    have hmod := Nat.mod_lt (5 + payload.length) (show 0 < 8 by omega)
    simp only [CipherKey.paddingLength]
    split
    · omega
    · omega
  | chacha20Poly1305 key =>
    have hmod := Nat.mod_lt (paddingLengthLen + payload.length) (show 0 < 8 by omega)
    simp only [CipherKey.paddingLength, packetLengthLen, paddingLengthLen, minimumPacketLen] at hmod ⊢
    split
    · split
      · omega
      · omega
    · split
      · omega
      · omega

omit [Deps] in
/-- Packets are multiples of eight bytes long. -/
theorem alignedLength_mod (key : CipherKey) (payload : Bytes) :
    key.alignedLength payload % 8 = 0 := by
  cases key with
  | clear =>
    simp only [CipherKey.alignedLength, CipherKey.bodyLength, CipherKey.paddingLength,
      packetLengthLen, paddingLengthLen]
    split
    · omega
    · omega
  | chacha20Poly1305 key =>
    simp only [CipherKey.alignedLength, CipherKey.bodyLength, CipherKey.paddingLength,
      packetLengthLen, paddingLengthLen, minimumPacketLen]
    split
    · split
      · omega
      · omega
    · split
      · omega
      · omega

omit [Deps] in
/-- A packet with its length field has at least sixteen bytes. -/
theorem sixteen_le_packet (key : CipherKey) (payload : Bytes) :
    16 ≤ packetLengthLen + key.bodyLength payload := by
  have hpadding := paddingLength_bounds key payload
  have haligned := alignedLength_mod key payload
  cases key with
  | clear =>
    simp only [CipherKey.alignedLength, CipherKey.bodyLength, packetLengthLen, paddingLengthLen]
      at haligned ⊢
    omega
  | chacha20Poly1305 key =>
    simp only [CipherKey.bodyLength, CipherKey.paddingLength, packetLengthLen, paddingLengthLen,
      minimumPacketLen]
    split
    · split
      · omega
      · omega
    · omega

omit [Deps] in
/-- The two parts of a packet before sealing. -/
theorem plaintext_eq (key : CipherKey) (payload : Bytes) :
    key.plaintext payload = be32 (UInt32.ofNat (key.bodyLength payload)) ++
      (UInt8.ofNat (key.paddingLength payload) :: (payload ++ zeros (key.paddingLength payload))) := by
  simp [CipherKey.plaintext, CipherKey.bodyLength]

variable [LawfulSodium]

/-- What the receiver needs to know of a sealed packet: the length field as
it is on the wire, the rest of the ciphertext and the tag. -/
theorem wire_parts (key : CipherKey) (seqn : UInt32) (payload : Bytes) (hfits : key.Fits payload) :
    ∃ field cipherbody tag, key.wire seqn payload = field ++ cipherbody ++ tag ∧
      field.length = 4 ∧ cipherbody.length = key.bodyLength payload ∧ tag.length = key.tagLen ∧
      key.packetLength seqn field = some (UInt32.ofNat (key.bodyLength payload)) ∧
      key.open seqn (field ++ cipherbody) tag = some (field ++
        UInt8.ofNat (key.paddingLength payload) :: (payload ++ zeros (key.paddingLength payload))) := by
  have hplain := plaintext_eq key payload
  have hbody : (UInt8.ofNat (key.paddingLength payload) ::
      (payload ++ zeros (key.paddingLength payload))).length = key.bodyLength payload := by
    simp only [List.length_cons, List.length_append, length_zeros, CipherKey.bodyLength,
      paddingLengthLen]
    omega
  have htake : (key.plaintext payload).take 4 = be32 (UInt32.ofNat (key.bodyLength payload)) := by
    rw [hplain]
    exact List.take_left' (length_be32 _)
  have hdrop : (key.plaintext payload).drop 4 = UInt8.ofNat (key.paddingLength payload) ::
      (payload ++ zeros (key.paddingLength payload)) := by
    rw [hplain]
    exact List.drop_left' (length_be32 _)
  have hhead : ∀ n : UInt32, headBe32 (be32 n) = some n := fun n => by
    simpa using headBe32_append n []
  cases key with
  | clear =>
    refine ⟨_, _, [], ?_, length_be32 _, hbody, rfl, hhead _, rfl⟩
    rw [List.append_nil]
    simpa [CipherKey.wire, CipherKey.seal] using hplain
  | chacha20Poly1305 k =>
    refine ⟨_, _, _, rfl, ?_, ?_, ?_, ?_, ?_⟩
    · rw [htake, LawfulSodium.length_chacha20Xor]
      rfl
    · rw [hdrop, LawfulSodium.length_chacha20XorIc]
      exact hbody
    · simp [CipherKey.tagLen]
    · simp only [CipherKey.packetLength, htake, LawfulSodium.chacha20Xor_twice]
      exact hhead _
    · have hfield : (chacha20Xor (be32 (UInt32.ofNat (CipherKey.bodyLength
          (.chacha20Poly1305 k) payload))) (makeCounter seqn) k.k1).length = 4 := by
        rw [LawfulSodium.length_chacha20Xor]
        rfl
      simp only [CipherKey.open, LawfulSodium.poly1305_verify_auth, if_true, htake, hdrop,
        List.take_left' hfield, List.drop_left' hfield, LawfulSodium.chacha20XorIc_twice]

/-- The buffer behind the packet that `cipher::read` has returned. -/
def SSHBuffer.opened (b : SSHBuffer) (pair : CipherPair) (head payload : Bytes) : SSHBuffer :=
  { b with
    buffer := head ++ payload
    len := 0
    seqn := b.seqn + 1
    history := b.history ++ [⟨pair.epoch, b.seqn, payload, .opened⟩] }

/-- `cipher::read` takes one packet off the stream and returns its payload. -/
theorem read_wire (pair : CipherPair) (b : SSHBuffer) (payload : Bytes)
    (hfits : pair.remoteToLocal.Fits payload) :
    ∃ head, head.length = 5 ∧ ∀ rest eof,
      read pair b (pair.remoteToLocal.wire b.seqn payload ++ rest) eof =
        .ok (payload.length + 5) (b.opened pair head payload) rest := by
  obtain ⟨field, cipherbody, tag, hwire, hfield, hbody, htag, hlen, hopen⟩ :=
    wire_parts pair.remoteToLocal b.seqn payload hfits
  have hpadding := paddingLength_bounds pair.remoteToLocal payload
  set pad := pair.remoteToLocal.paddingLength payload with hpad
  have hlen' : (UInt32.ofNat (pair.remoteToLocal.bodyLength payload)).toNat =
      pair.remoteToLocal.bodyLength payload := by
    rw [UInt32.toNat_ofNat']
    exact Nat.mod_eq_of_lt hfits
  have hpad' : (UInt8.ofNat pad).toNat = pad := by
    rw [UInt8.toNat_ofNat']
    omega
  have hwhole : (field ++ cipherbody ++ tag).length =
      4 + (pair.remoteToLocal.bodyLength payload + pair.remoteToLocal.tagLen) := by
    simp only [List.length_append, hfield, hbody, htag]
    omega
  have hcipher : (field ++ cipherbody ++ tag).length - pair.remoteToLocal.tagLen =
      (field ++ cipherbody).length := by
    rw [List.length_append, htag]
    omega
  have hbodyLength : pair.remoteToLocal.bodyLength payload = 1 + payload.length + pad := rfl
  refine ⟨field ++ [UInt8.ofNat pad], by simp [hfield], fun rest eof => ?_⟩
  have hstream : (field ++ cipherbody ++ tag ++ rest).take 4 = field := by
    rw [List.append_assoc, List.append_assoc]
    exact List.take_left' hfield
  have hpacket : readPacket pair { b with buffer := field ++ cipherbody ++ tag } rest =
      .ok (payload.length + 5) (b.opened pair (field ++ [UInt8.ofNat pad]) payload) rest := by
    have hend : (payload ++ zeros pad).length + 1 - pad = payload.length + 1 := by
      simp only [List.length_append, length_zeros]
      omega
    have hresize : resize (field ++ UInt8.ofNat pad :: (payload ++ zeros pad) ++ tag)
        (payload.length + 1 + 4) = field ++ [UInt8.ofNat pad] ++ payload := by
      have hsplit : field ++ UInt8.ofNat pad :: (payload ++ zeros pad) ++ tag =
          (field ++ [UInt8.ofNat pad] ++ payload) ++ (zeros pad ++ tag) := by simp
      rw [resize_of_le (by
        simp only [List.length_append, List.length_cons, hfield]
        omega), hsplit]
      refine List.take_left' ?_
      simp only [List.length_append, List.length_cons, List.length_nil, hfield]
      omega
    have hdrop : (field ++ [UInt8.ofNat pad] ++ payload).drop 5 = payload :=
      List.drop_left' (by simp [hfield])
    have hfour : (field ++ UInt8.ofNat pad :: (payload ++ zeros pad)).drop 4 =
        UInt8.ofNat pad :: (payload ++ zeros pad) := List.drop_left' hfield
    have hle : pad ≤ (payload ++ zeros pad).length + 1 := by
      simp only [List.length_append, length_zeros]
      omega
    simp only [readPacket, hcipher, List.take_left, List.drop_left, hopen, hfour, hpad', if_pos hle,
      hend, hresize, hdrop]
    rfl
  have hlong : ¬ (field ++ cipherbody ++ tag ++ rest).length < 4 +
      (pair.remoteToLocal.bodyLength payload + pair.remoteToLocal.tagLen) := by
    rw [List.length_append, hwhole]
    omega
  have hfour : ¬ (field ++ cipherbody ++ tag ++ rest).length < 4 := by
    omega
  simp only [read, hwire, if_neg hfour, hstream, hlen, hlen', if_neg hlong,
    List.take_left' hwhole, List.drop_left' hwhole]
  exact hpacket

omit [LawfulSodium] in
/-- `CipherPair::write` returns for a payload whose length fits. -/
theorem write_fits (pair : CipherPair) (origin : Origin) (b : SSHBuffer) {payload : Bytes}
    (hfits : pair.localToRemote.Fits payload) :
    pair.write origin payload b = .ok () (b.sealed pair origin payload) := by
  have hpadding := paddingLength_bounds pair.localToRemote payload
  have hlength : pair.localToRemote.bodyLength payload < 2 ^ 32 := hfits
  unfold CipherKey.bodyLength at hlength
  have hassert : paddingLengthLen + payload.length + pair.localToRemote.paddingLength payload ≤
      2 ^ 32 - 1 ∧ pair.localToRemote.paddingLength payload ≤ 255 := by
    constructor
    · omega
    · omega
  simp only [CipherPair.write, if_pos hassert]
  rfl

/-- The length of a packet on the wire. -/
theorem length_wire (key : CipherKey) (seqn : UInt32) {payload : Bytes} (hfits : key.Fits payload) :
    (key.wire seqn payload).length = packetLengthLen + key.bodyLength payload + key.tagLen := by
  obtain ⟨field, cipherbody, tag, hwire, hfield, hbody, htag, -⟩ :=
    wire_parts key seqn payload hfits
  simp only [hwire, List.length_append, hfield, hbody, htag, packetLengthLen]

/-- `cipher::read`, called a number of times: the sequence numbers and the
payloads `&buffer[5..]` it returns, the buffer and the rest of the stream. -/
def readMany (pair : CipherPair) (eof : Bool) : Nat → SSHBuffer → Bytes →
    Option (List (UInt32 × Bytes) × SSHBuffer × Bytes)
  | 0, b, stream => some ([], b, stream)
  | n + 1, b, stream =>
    match read pair b stream eof with
    | .ok _ b' rest =>
      match readMany pair eof n b' rest with
      | some (packets, end') => some ((b.seqn, b'.buffer.drop 5) :: packets, end')
      | none => none
    | _ => none

/-- What `CipherPair::write` appends for a list of payloads, `cipher::read`
returns in order, with the same sequence number for each payload. -/
theorem read_written (sealer opener : CipherPair)
    (hkey : opener.remoteToLocal = sealer.localToRemote) (origin : Origin) (payloads : List Bytes)
    (hfits : ∀ p ∈ payloads, sealer.localToRemote.Fits p) (w r : SSHBuffer)
    (hseqn : r.seqn = w.seqn) (rest : Bytes) (eof : Bool) :
    ∃ bytes packets w' r', payloads.forM (sealer.write origin) w = .ok () w' ∧
      w'.buffer = w.buffer ++ bytes ∧
      w'.history = w.history ++ packets.map (fun p => ⟨sealer.epoch, p.1, p.2, origin⟩) ∧
      packets.map Prod.snd = payloads ∧
      readMany opener eof payloads.length r (bytes ++ rest) = some (packets, r', rest) ∧
      r'.seqn = w'.seqn := by
  induction payloads generalizing w r with
  | nil => exact ⟨[], [], w, r, rfl, by simp, by simp, rfl, rfl, hseqn⟩
  | cons payload payloads ih =>
    have hfit := hfits payload (List.mem_cons_self ..)
    obtain ⟨head, hhead, hread⟩ := read_wire opener r payload
      (by rw [hkey]; exact hfit)
    have hdrop : (r.opened opener head payload).buffer.drop 5 = payload := List.drop_left' hhead
    have hnext : (r.opened opener head payload).seqn = (w.sealed sealer origin payload).seqn := by
      change r.seqn + 1 = w.seqn + 1
      rw [hseqn]
    obtain ⟨bytes, packets, w', r', hforM, hbuffer, hhistory, hpayloads, hmany, hend⟩ :=
      ih (fun p hp => hfits p (List.mem_cons_of_mem _ hp)) _ _ hnext
    refine ⟨sealer.localToRemote.wire w.seqn payload ++ bytes, (w.seqn, payload) :: packets, w', r',
      ?_, ?_, ?_, ?_, ?_, hend⟩
    · change (sealer.write origin payload >>= fun _ => payloads.forM (sealer.write origin)) w = _
      rw [run_bind, write_fits sealer origin w hfit]
      exact hforM
    · rw [hbuffer, SSHBuffer.sealed, List.append_assoc]
    · rw [hhistory, SSHBuffer.sealed, List.append_assoc]
      rfl
    · rw [List.map_cons, hpayloads]
    · rw [hkey, hseqn] at hread
      simp only [List.length_cons, readMany, List.append_assoc, hread, hmany, hdrop, hseqn]

/-- The payloads sealed by successive calls of `CipherPair::write` come back
from successive calls of `cipher::read` under the matching key, in order and
with equal sequence numbers, and every packet is padded as its cipher
requires. -/
theorem packets_roundtrip (sealer opener : CipherPair)
    (hkey : opener.remoteToLocal = sealer.localToRemote) (origin : Origin) (payloads : List Bytes)
    (hfits : ∀ p ∈ payloads, sealer.localToRemote.Fits p) (w r : SSHBuffer)
    (hseqn : r.seqn = w.seqn) (rest : Bytes) (eof : Bool) :
    (∃ bytes packets w' r', payloads.forM (sealer.write origin) w = .ok () w' ∧
      w'.buffer = w.buffer ++ bytes ∧
      w'.history = w.history ++ packets.map (fun p => ⟨sealer.epoch, p.1, p.2, origin⟩) ∧
      packets.map Prod.snd = payloads ∧
      readMany opener eof payloads.length r (bytes ++ rest) = some (packets, r', rest) ∧
      r'.seqn = w'.seqn) ∧
    ∀ p ∈ payloads, 4 ≤ sealer.localToRemote.paddingLength p ∧
      sealer.localToRemote.paddingLength p ≤ 255 ∧
      (∀ seqn, (sealer.localToRemote.wire seqn p).length =
        packetLengthLen + sealer.localToRemote.bodyLength p + sealer.localToRemote.tagLen) ∧
      16 ≤ packetLengthLen + sealer.localToRemote.bodyLength p ∧
      sealer.localToRemote.alignedLength p % 8 = 0 := by
  refine ⟨read_written sealer opener hkey origin payloads hfits w r hseqn rest eof, fun p hp => ?_⟩
  have hpadding := paddingLength_bounds sealer.localToRemote p
  exact ⟨hpadding.1, by omega, fun seqn => length_wire _ seqn (hfits p hp), sixteen_le_packet _ p,
    alignedLength_mod _ p⟩

end

/-- Three packets under a key, between the last sequence number and the first. -/
theorem packets_roundtrip_wrapping :
    letI := Concrete.deps
    let key := CipherKey.chacha20Poly1305 ⟨Vector.replicate 32 1, Vector.replicate 32 2⟩
    let start : SSHBuffer := { SSHBuffer.new with seqn := 0xFFFFFFFF }
    ∃ bytes packets w' r',
      [[5], zeros 12, [6, 7]].forM (CipherPair.write ⟨key, .clear, 1⟩ .queued) start = .ok () w' ∧
      w'.buffer = start.buffer ++ bytes ∧
      w'.history = start.history ++ packets.map (fun p => ⟨1, p.1, p.2, .queued⟩) ∧
      packets.map Prod.snd = [[5], zeros 12, [6, 7]] ∧
      readMany ⟨.clear, key, 1⟩ false 3 start (bytes ++ []) = some (packets, r', []) ∧
      r'.seqn = w'.seqn := by
  have hfits : ∀ p ∈ [[5], zeros 12, [6, 7]], CipherKey.Fits (.chacha20Poly1305
      ⟨Vector.replicate 32 1, Vector.replicate 32 2⟩) p := by
    simp only [CipherKey.Fits]
    decide
  exact (@packets_roundtrip Concrete.deps Concrete.lawful _ _ rfl _ _ hfits _ _ rfl _ _).1

end Thrussh
