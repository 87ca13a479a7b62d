import Thrussh.Deps

/-!
# Compression of packet payloads

`Compression`, `Compress` and `Decompress` with the loops that drive flate2.
A stream counts its input and output in `total_in` and `total_out`; the
loops read them only as differences, which the model keeps as the bytes
consumed and produced so far. Each repetition doubles the output buffer, so
a loop is followed for `2 ^ 64` repetitions, and a buffer longer than a
`usize` makes it panic.
-/

namespace Thrussh

open Deps

/-- `Compression`, the negotiated algorithm of one direction. -/
inductive Compression where
  | none | zlib
  deriving DecidableEq, Repr

/-- `Compression::from_string`. -/
def Compression.fromString (s : Bytes) : Compression :=
  if s = ascii "zlib" ∨ s = ascii "zlib@openssh.com" then .zlib else .none

variable [Deps]

/-- `Compress`. -/
inductive Compress where
  | none
  | zlib (z : Deflate)

/-- `Decompress`. -/
inductive Decompress where
  | none
  | zlib (z : Inflate)

/-- `init_compress`. -/
def Compression.initCompress : Compression → Compress → Compress
  | .zlib, .zlib c => .zlib (deflateReset c)
  | .zlib, .none => .zlib deflateNew
  | .none, _ => .none

/-- `init_decompress`. -/
def Compression.initDecompress : Compression → Decompress → Decompress
  | .zlib, .zlib c => .zlib (inflateReset c)
  | .zlib, .none => .zlib inflateNew
  | .none, _ => .none

/-- The loop of `Compress::compress`: `room` is the length of the output
buffer, `out` what has been written to it. `BufError` doubles the buffer,
any other status ends the loop. -/
def compressLoop : Nat → Deflate → Bytes → Nat → Bytes → Except Fault (Bytes × Deflate)
  | 0, _, _, _, _ => .error .diverge
  | fuel + 1, z, input, room, out =>
    match deflate z input (room - out.length) with
    | .none => .error (.error .compression)
    | .some step =>
      match step.status with
      | .bufError =>
        if room * 2 < 2 ^ 64 then
          compressLoop fuel step.next (input.drop step.consumed) (room * 2) (out ++ step.produced)
        else .error .panic
      | _ => .ok (out ++ step.produced, step.next)

/-- `Compress::compress`. -/
def Compress.compress : Compress → Bytes → Except Fault (Bytes × Compress)
  | .none, input => .ok (input, .none)
  | .zlib z, input => do
    let (out, z) ← compressLoop (2 ^ 64) z input (input.length + 10) []
    .ok (out, .zlib z)

/-- The loop of `Decompress::decompress`: `Ok` doubles the buffer, any other
status ends the loop. -/
def decompressLoop : Nat → Inflate → Bytes → Nat → Bytes → Except Fault (Bytes × Inflate)
  | 0, _, _, _, _ => .error .diverge
  | fuel + 1, z, input, room, out =>
    match inflate z input (room - out.length) with
    | .none => .error (.error .compression)
    | .some step =>
      match step.status with
      | .ok =>
        if room * 2 < 2 ^ 64 then
          decompressLoop fuel step.next (input.drop step.consumed) (room * 2) (out ++ step.produced)
        else .error .panic
      | _ => .ok (out ++ step.produced, step.next)

/-- `Decompress::decompress`. -/
def Decompress.decompress : Decompress → Bytes → Except Fault (Bytes × Decompress)
  | .none, input => .ok (input, .none)
  | .zlib z, input => do
    let (out, z) ← decompressLoop (2 ^ 64) z input input.length []
    .ok (out, .zlib z)

end Thrussh
