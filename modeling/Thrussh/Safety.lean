import Thrussh.Concrete

/-!
# Where reading a packet panics

`cipher::read` takes the length of a packet, and the length of its padding,
from bytes that nobody has authenticated. It fails on all of them without a
panic, but for one: a packet of length 0 has no padding byte to read.
-/

namespace Thrussh

open Deps

section
variable [Deps]

/-- The stream cipher works in place: `chacha20_xor` and `chacha20_xor_ic`
overwrite the bytes that they are given. -/
class InPlace : Prop where
  /-- `chacha20_xor`. -/
  length_chacha20Xor (data nonce : Bytes) (key : Bytes32) :
    (chacha20Xor data nonce key).length = data.length
  /-- `chacha20_xor_ic`. -/
  length_chacha20XorIc (data nonce : Bytes) (ic : Nat) (key : Bytes32) :
    (chacha20XorIc data nonce ic key).length = data.length

/-- A stream that starts with a whole packet of length 0, as the cipher reads
its length, whose tag the cipher accepts. -/
def EmptyPacket (pair : CipherPair) (seqn : UInt32) (stream : Bytes) : Prop :=
  let key := pair.remoteToLocal
  key.packetLength seqn (stream.take 4) = some 0 ∧ 4 + key.tagLen ≤ stream.length ∧
    (key.open seqn (stream.take 4) ((stream.drop 4).take key.tagLen)).isSome

section
variable [InPlace] {pair : CipherPair} {seqn : UInt32} {stream : Bytes}

/-- Four bytes are read as a length. -/
theorem packetLength_some (key : CipherKey) (seqn : UInt32) (h : 4 ≤ stream.length) :
    ∃ len, key.packetLength seqn (stream.take 4) = some len := by
  have htake : (stream.take 4).length = 4 := by
    rw [List.length_take]
    omega
  cases key with
  | clear => exact headBe32_isSome (Nat.le_of_eq htake.symm)
  | chacha20Poly1305 key =>
    have hlength := InPlace.length_chacha20Xor (stream.take 4) (makeCounter seqn) key.k1
    exact headBe32_isSome (Nat.le_of_eq (hlength.trans htake).symm)

/-- Opening a packet keeps its length. -/
theorem length_open {key : CipherKey} {ciphertext tag opened : Bytes}
    (h : key.open seqn ciphertext tag = some opened) : opened.length = ciphertext.length := by
  cases key with
  | clear =>
    cases h
    rfl
  | chacha20Poly1305 key =>
    change (if poly1305Verify tag ciphertext (polyKey seqn key) = true then
      some (ciphertext.take 4 ++ chacha20XorIc (ciphertext.drop 4) (makeCounter seqn) 1 key.k2)
      else none) = some opened at h
    split at h
    · cases h
      rw [List.length_append, InPlace.length_chacha20XorIc, List.length_take, List.length_drop]
      omega
    · cases h

/-- The end of `cipher::read` panics on an opened packet without content only. -/
theorem readPacket_panics_iff {b : SSHBuffer} {rest : Bytes} :
    readPacket pair b rest = .panic ↔ b.buffer.length - pair.remoteToLocal.tagLen ≤ 4 ∧
      (pair.remoteToLocal.open b.seqn
        (b.buffer.take (b.buffer.length - pair.remoteToLocal.tagLen))
        (b.buffer.drop (b.buffer.length - pair.remoteToLocal.tagLen))).isSome := by
  unfold readPacket
  dsimp only
  cases hopen : pair.remoteToLocal.open b.seqn
      (b.buffer.take (b.buffer.length - pair.remoteToLocal.tagLen))
      (b.buffer.drop (b.buffer.length - pair.remoteToLocal.tagLen)) with
  | none =>
    constructor
    · intro h
      cases h
    · rintro ⟨-, hsome⟩
      cases hsome
  | some opened =>
    have hlength := length_open hopen
    rw [List.length_take] at hlength
    dsimp only
    cases hcontent : opened.drop 4 with
    | nil =>
      have hshort := List.drop_eq_nil_iff.mp hcontent
      refine ⟨fun _ => ⟨by omega, rfl⟩, fun _ => rfl⟩
    | cons paddingLength body =>
      have hlong := congrArg List.length hcontent
      rw [List.length_drop, List.length_cons] at hlong
      dsimp only
      constructor
      · intro h
        split at h
        · cases h
        · cases h
      · rintro ⟨hshort, -⟩
        omega

/-- `cipher::read` never panics, whatever has arrived, but on a packet of
length 0 whose tag is accepted. -/
theorem read_panics_iff (pair : CipherPair) (b : SSHBuffer) (stream : Bytes) (eof : Bool) :
    read pair b stream eof ≠ .panic ↔ ¬ EmptyPacket pair b.seqn stream := by
  refine not_congr ?_
  unfold read EmptyPacket
  by_cases hfour : stream.length < 4
  · rw [if_pos hfour]
    constructor
    · intro h
      cases eof with
      | true => cases h
      | false => cases h
    · rintro ⟨-, hlong, -⟩
      omega
  · rw [if_neg hfour]
    obtain ⟨len, hlen⟩ := packetLength_some pair.remoteToLocal b.seqn (Nat.le_of_not_lt hfour)
    simp only [hlen, Option.some.injEq]
    by_cases hwhole : stream.length < 4 + (len.toNat + pair.remoteToLocal.tagLen)
    · rw [if_pos hwhole]
      constructor
      · intro h
        cases eof with
        | true => cases h
        | false => cases h
      · rintro ⟨rfl, hlong, -⟩
        rw [UInt32.toNat_zero] at hwhole
        omega
    · rw [if_neg hwhole, readPacket_panics_iff]
      have hlength : (stream.take (4 + (len.toNat + pair.remoteToLocal.tagLen))).length =
          4 + len.toNat + pair.remoteToLocal.tagLen := by
        rw [List.length_take]
        omega
      have hsplit : 4 + len.toNat + pair.remoteToLocal.tagLen - pair.remoteToLocal.tagLen =
          4 + len.toNat := by omega
      dsimp only
      rw [hlength, hsplit]
      constructor
      · rintro ⟨hshort, hopen⟩
        have hzero : len.toNat = 0 := by omega
        have hlenZero : len = 0 := UInt32.toNat_inj.mp hzero
        rw [hzero, List.take_take, List.drop_take] at hopen
        refine ⟨hlenZero, by omega, ?_⟩
        have hmin : min (4 + 0) (4 + (0 + pair.remoteToLocal.tagLen)) = 4 := by omega
        have htag : 4 + (0 + pair.remoteToLocal.tagLen) - (4 + 0) = pair.remoteToLocal.tagLen := by
          omega
        rw [hmin, htag] at hopen
        exact hopen
      · rintro ⟨rfl, hlong, hopen⟩
        have hmin : min (4 + 0) (4 + (0 + pair.remoteToLocal.tagLen)) = 4 := by omega
        have htag : 4 + (0 + pair.remoteToLocal.tagLen) - (4 + 0) = pair.remoteToLocal.tagLen := by
          omega
        rw [UInt32.toNat_zero]
        refine ⟨Nat.le_refl _, ?_⟩
        rw [List.take_take, List.drop_take, hmin, htag]
        exact hopen

end

end

/-- The model ciphers of the examples work in place. -/
theorem Concrete.inPlace : @InPlace Concrete.deps :=
  @InPlace.mk Concrete.deps Concrete.lawful.length_chacha20Xor Concrete.lawful.length_chacha20XorIc

/-- A KEXINIT in the clear is read without a panic. -/
theorem read_panics_kexinit :
    letI := Concrete.deps
    read clearPair .new (Concrete.clear Concrete.kexinit) false ≠ .panic := by
  let _ := Concrete.deps
  let _ := Concrete.inPlace
  refine (read_panics_iff clearPair .new (Concrete.clear Concrete.kexinit) false).mpr ?_
  rintro ⟨hlen, -⟩
  revert hlen
  decide +kernel

/-- Four zero bytes, the first that an unauthenticated peer sends, panic. -/
theorem read_zero_panics :
    letI := Concrete.deps
    read clearPair .new [0, 0, 0, 0] false = .panic :=
  rfl

end Thrussh
