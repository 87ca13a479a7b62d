import Mathlib.Algebra.GroupWithZero.Nat
import Mathlib.Data.List.Basic

/-!
# Byte strings and the SSH wire encoding

`CryptoVec` and byte slices are lists of bytes, `u32` values are `UInt32`
and `usize` values are natural numbers. The readers and writers are those of
`thrussh_keys::encoding` on the wire format of strings, name lists and
integers: a reader is a buffer with a position, and every read checks the
bytes that remain. `pushPacket` is the `push_packet!` macro.
-/

namespace Thrussh

/-- A `CryptoVec` or a byte slice. -/
abbrev Bytes := List UInt8

/-- A fixed array `[u8; 32]`: keys, digests, curve points and scalars. -/
abbrev Bytes32 := Vector UInt8 32

/-- The bytes of an ASCII literal. -/
def ascii (s : String) : Bytes := s.toList.map fun c => UInt8.ofNat c.toNat

/-- The values of `crate::Error`, and the errors of the libraries that `?` passes on. -/
inductive Error where
  | kexInit | noCommonKexAlgo | noCommonKeyAlgo | noCommonCipher | noCommonCompression
  | version | kex | packetAuth | inconsistent | notAuthenticated | indexOutOfBounds
  | unknownKey | wrongServerSig | wrongChannel | disconnect | noAuthMethod | sendError
  | unexpectedEof | utf8 | couldNotReadKey | keys | compression | handler
  deriving DecidableEq, Repr

/-- How a step of a session can fail to return a value: an `Err`, a panic of
the task, an integer overflow (a panic under overflow checks), or a loop that
never ends. -/
inductive Fault where
  | error (e : Error)
  | panic
  | overflow
  | diverge
  deriving DecidableEq, Repr

/-- `n` zero bytes. -/
def zeros (n : Nat) : Bytes := List.replicate n 0

@[simp] theorem length_zeros (n : Nat) : (zeros n).length = n := List.length_replicate

/-- `CryptoVec::resize`: truncate, or extend by zero bytes. -/
def resize (v : Bytes) (n : Nat) : Bytes := v.take n ++ zeros (n - v.length)

@[simp] theorem length_resize (v : Bytes) (n : Nat) : (resize v n).length = n := by
  simp only [resize, List.length_append, List.length_take, length_zeros]
  omega

/-- Resizing to a shorter length is truncation. -/
theorem resize_of_le {v : Bytes} {n : Nat} (h : n ≤ v.length) : resize v n = v.take n := by
  simp [resize, zeros, Nat.sub_eq_zero_of_le h]

/-- The four big-endian bytes that `push_u32_be` appends. -/
def be32 (n : UInt32) : Bytes :=
  [UInt8.ofNat (n.toNat / 2 ^ 24), UInt8.ofNat (n.toNat / 2 ^ 16),
    UInt8.ofNat (n.toNat / 2 ^ 8), UInt8.ofNat n.toNat]

@[simp] theorem length_be32 (n : UInt32) : (be32 n).length = 4 := rfl

/-- `BigEndian::read_u32` on four bytes. -/
def readBe32 (a b c d : UInt8) : UInt32 :=
  UInt32.ofNat (((a.toNat * 256 + b.toNat) * 256 + c.toNat) * 256 + d.toNat)

/-- The smaller of two sizes, as numbers. -/
theorem toNat_min (a b : UInt32) : (min a b).toNat = min a.toNat b.toNat := by
  change (if a ≤ b then a else b).toNat = _
  by_cases hle : a ≤ b
  · have hle' := UInt32.le_iff_toNat_le.mp hle
    rw [if_pos hle, Nat.min_eq_left hle']
  · have hlt : ¬ a.toNat ≤ b.toNat := fun h => hle (UInt32.le_iff_toNat_le.mpr h)
    rw [if_neg hle, Nat.min_eq_right (by omega)]

/-- The integer at the head of a slice; a shorter slice makes `read_u32` panic. -/
def headBe32 : Bytes → Option UInt32
  | a :: b :: c :: d :: _ => some (readBe32 a b c d)
  | _ => none

/-- Reading back the four bytes of an integer gives that integer. -/
theorem headBe32_append (n : UInt32) (rest : Bytes) : headBe32 (be32 n ++ rest) = some n := by
  have hn := n.toNat_lt
  simp only [be32, List.cons_append, List.nil_append, headBe32, Option.some.injEq]
  apply UInt32.toNat_inj.mp
  simp only [readBe32, UInt32.toNat_ofNat', UInt8.toNat_ofNat']
  omega

/-- Four bytes or more start with an integer. -/
theorem headBe32_isSome {s : Bytes} (h : 4 ≤ s.length) : ∃ n, headBe32 s = some n := by
  match s, h with
  | _ :: _ :: _ :: _ :: _, _ => exact ⟨_, rfl⟩

/-- `extend_ssh_string`: the length as a `u32`, then the bytes. -/
def sshString (s : Bytes) : Bytes := be32 (UInt32.ofNat s.length) ++ s

@[simp] theorem length_sshString (s : Bytes) : (sshString s).length = 4 + s.length := by
  simp [sshString]

/-- `extend_list`: the names joined by commas, as a string. -/
def nameList (names : List Bytes) : Bytes := sshString (List.intercalate [44] names)

/-- `push_packet!`: a placeholder for the length, the body, the length written back. -/
def pushPacket (buffer body : Bytes) : Bytes :=
  buffer ++ be32 (UInt32.ofNat body.length) ++ body

/-- A `thrussh_keys::encoding::Position`: the slice and the index of the next read. -/
structure Position where
  /-- The whole slice. -/
  s : Bytes
  /-- Index of the next byte to read. -/
  position : Nat
  deriving DecidableEq, Repr

/-- `buf.reader(i)`. -/
def reader (s : Bytes) (i : Nat) : Position := ⟨s, i⟩

/-- `read_byte`. -/
def Position.readByte (r : Position) : Except Fault (UInt8 × Position) :=
  match r.s[r.position]? with
  | some b => .ok (b, { r with position := r.position + 1 })
  | none => .error (.error .indexOutOfBounds)

/-- `read_u32`. -/
def Position.readU32 (r : Position) : Except Fault (UInt32 × Position) :=
  match headBe32 (r.s.drop r.position) with
  | some n => .ok (n, { r with position := r.position + 4 })
  | none => .error (.error .indexOutOfBounds)

/-- `read_string`: the length, then that many bytes if they are there. -/
def Position.readString (r : Position) : Except Fault (Bytes × Position) := do
  let (n, r) ← r.readU32
  if r.position + n.toNat ≤ r.s.length then
    .ok ((r.s.drop r.position).take n.toNat, { r with position := r.position + n.toNat })
  else
    .error (.error .indexOutOfBounds)

/-- A read at the end of a prefix sees only what follows the prefix. -/
theorem drop_append_length {pre : Bytes} {p : Nat} (hp : pre.length = p) (rest : Bytes) :
    (pre ++ rest).drop p = rest := by
  subst hp
  exact List.drop_left

/-- Reading the byte just after a prefix. -/
theorem readByte_append (pre rest : Bytes) (b : UInt8) :
    Position.readByte ⟨pre ++ b :: rest, pre.length⟩ =
      .ok (b, ⟨pre ++ b :: rest, pre.length + 1⟩) := by
  simp [Position.readByte]

/-- Reading the integer just after a prefix. -/
theorem readU32_append (pre rest : Bytes) (n : UInt32) :
    Position.readU32 ⟨pre ++ (be32 n ++ rest), pre.length⟩ =
      .ok (n, ⟨pre ++ (be32 n ++ rest), pre.length + 4⟩) := by
  simp only [Position.readU32, drop_append_length rfl, headBe32_append]

/-- Reading the string just after a prefix, for strings whose length is a `u32`. -/
theorem readString_append (pre rest : Bytes) {x : Bytes} (hx : x.length < 2 ^ 32) :
    Position.readString ⟨pre ++ (sshString x ++ rest), pre.length⟩ =
      .ok (x, ⟨pre ++ (sshString x ++ rest), pre.length + (4 + x.length)⟩) := by
  have hlen : (UInt32.ofNat x.length).toNat = x.length := by
    rw [UInt32.toNat_ofNat']
    omega
  have hdrop : (pre ++ (be32 (UInt32.ofNat x.length) ++ (x ++ rest))).drop (pre.length + 4) =
      x ++ rest := by
    rw [← List.drop_drop, drop_append_length rfl, drop_append_length (length_be32 _)]
  have hfits : pre.length + (4 + x.length) ≤
      (pre ++ (be32 (UInt32.ofNat x.length) ++ (x ++ rest))).length := by
    simp only [List.length_append, length_be32]
    omega
  simp only [Position.readString, sshString, List.append_assoc, readU32_append, bind,
    Except.bind, hlen, if_pos hfits, hdrop, List.take_left, Nat.add_assoc]

/-- Whether a byte continues a UTF-8 sequence. -/
def isContinuation (b : UInt8) : Bool := 0x80 ≤ b && b ≤ 0xBF

/-- Well-formedness of a byte string as UTF-8, by its sequences of one to four bytes. -/
def utf8Valid : Bytes → Bool
  | [] => true
  | a :: rest =>
    if a ≤ 0x7F then utf8Valid rest
    else match rest with
      | b :: rest =>
        if 0xC2 ≤ a && a ≤ 0xDF then isContinuation b && utf8Valid rest
        else match rest with
          | c :: rest =>
            if 0xE0 ≤ a && a ≤ 0xEF then
              isContinuation b && isContinuation c && (a ≠ 0xE0 || 0xA0 ≤ b) &&
                (a ≠ 0xED || b ≤ 0x9F) && utf8Valid rest
            else match rest with
              | d :: rest =>
                0xF0 ≤ a && a ≤ 0xF4 && isContinuation b && isContinuation c &&
                  isContinuation d && (a ≠ 0xF0 || 0x90 ≤ b) && (a ≠ 0xF4 || b ≤ 0x8F) &&
                  utf8Valid rest
              | [] => false
          | [] => false
      | [] => false

/-- `std::str::from_utf8`: the same bytes, if they are UTF-8. A `str` is kept as its bytes. -/
def fromUtf8 (s : Bytes) : Except Fault Bytes :=
  if utf8Valid s then .ok s else .error (.error .utf8)

/-- How many continuation bytes follow a lead byte, and the bounds of the first of them. -/
def utf8Lead (a : UInt8) : Option (Nat × UInt8 × UInt8) :=
  if 0xC2 ≤ a ∧ a ≤ 0xDF then some (1, 0x80, 0xBF)
  else if a = 0xE0 then some (2, 0xA0, 0xBF)
  else if a = 0xED then some (2, 0x80, 0x9F)
  else if 0xE1 ≤ a ∧ a ≤ 0xEF then some (2, 0x80, 0xBF)
  else if a = 0xF0 then some (3, 0x90, 0xBF)
  else if 0xF1 ≤ a ∧ a ≤ 0xF3 then some (3, 0x80, 0xBF)
  else if a = 0xF4 then some (3, 0x80, 0x8F)
  else none

/-- The length of the longest well-formed run of at most `n` continuation bytes. -/
def continuations : Nat → UInt8 → UInt8 → Bytes → Nat
  | n + 1, lo, hi, b :: rest =>
    if lo ≤ b ∧ b ≤ hi then continuations n 0x80 0xBF rest + 1 else 0
  | _, _, _, _ => 0

/-- The loop of `String::from_utf8_lossy`: each ill-formed sequence becomes U+FFFD. -/
def lossyLoop : Nat → Bytes → Bytes
  | fuel + 1, a :: rest =>
    if a ≤ 0x7F then a :: lossyLoop fuel rest
    else match utf8Lead a with
      | none => [0xEF, 0xBF, 0xBD] ++ lossyLoop fuel rest
      | some (n, lo, hi) =>
        let k := continuations n lo hi rest
        if k = n then a :: rest.take n ++ lossyLoop fuel (rest.drop n)
        else [0xEF, 0xBF, 0xBD] ++ lossyLoop fuel (rest.drop k)
  | _, _ => []

/-- `String::from_utf8_lossy`. -/
def fromUtf8Lossy (s : Bytes) : Bytes := lossyLoop s.length s

end Thrussh
