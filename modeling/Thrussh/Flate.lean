import Thrussh.Concrete

/-!
# One call of flate2

What the documentation of flate2 promises of a call, as far as the loops of
`compress` and `decompress` rely on it: which part of the input it consumes,
which part of the pending output it writes, and what the returned status
tells. The output is a parameter, the bytes that a stream in a state still
has to write when it is given an input. Streams of stored blocks keep the
promises: the compressor writes what zlib writes for bytes that it cannot
make shorter.
-/

namespace Thrussh

open Deps

section

variable [Deps]

/-- One call of `Compress::compress` with partial flush: `flush` is what is
to be written until the flush is complete, `flushed` tells that it is, and
`totalIn` is `total_in`. -/
structure FlushCall (flush : Deflate → Bytes → Bytes) (flushed : Deflate → Prop)
    (totalIn : Deflate → Nat) (z : Deflate) (input : Bytes) (room : Nat)
    (step : FlateStep Deflate) : Prop where
  /-- A prefix of the input is consumed. -/
  consumed_le : step.consumed ≤ input.length
  /-- It is counted. -/
  totalIn_eq : totalIn step.next = totalIn z + step.consumed
  /-- A prefix of the pending output is written. -/
  produced_prefix : step.produced <+: flush z input
  /-- It fits the output. -/
  produced_le : step.produced.length ≤ room
  /-- The status is `Ok` after progress, also when the output is full. -/
  ok : 0 < step.consumed ∨ step.produced ≠ [] → step.status = .ok
  /-- It is `BufError` only without progress, and nothing more is to be written then. -/
  bufError : step.status = .bufError → flush step.next input = flush z input
  /-- When output space is left, the flush is complete. -/
  complete : step.produced.length < room →
    step.consumed = input.length ∧ step.produced = flush z input ∧ flushed step.next
  /-- It is complete only then. -/
  space : flushed step.next → step.produced.length < room

/-- Calls with partial flush succeed, as `FlushCall` says. -/
def PartialFlush (flush : Deflate → Bytes → Bytes) (flushed : Deflate → Prop)
    (totalIn : Deflate → Nat) : Prop :=
  ∀ z input room, 0 < room →
    ∃ step, deflate z input room = some step ∧ FlushCall flush flushed totalIn z input room step

/-- One successful call of `Decompress::decompress` without flush: `decoded`
is what an input decodes to, `ends` tells that the stream ends in it. -/
structure InflateCall (decoded : Inflate → Bytes → Bytes) (totalIn : Inflate → Nat)
    (ends : Inflate → Bytes → Prop) (z : Inflate) (input : Bytes) (room : Nat)
    (step : FlateStep Inflate) : Prop where
  /-- A prefix of the input is consumed. -/
  consumed_le : step.consumed ≤ input.length
  /-- It is counted. -/
  totalIn_eq : totalIn step.next = totalIn z + step.consumed
  /-- A prefix of the pending output is written, the rest stays pending. -/
  decoded_eq : decoded z input = step.produced ++ decoded step.next (input.drop step.consumed)
  /-- It fits the output. -/
  produced_le : step.produced.length ≤ room
  /-- A stream that ends in the rest of the input ends in the input. -/
  ends_next : ends step.next (input.drop step.consumed) → ends z input
  /-- The status is `Ok` only after progress. -/
  ok : step.status = .ok → 0 < step.consumed ∨ step.produced ≠ []
  /-- It is `BufError` only when no progress was possible. -/
  bufError : step.status = .bufError → step.consumed = 0 ∧ step.produced = [] ∧
    (input = [] ∧ decoded z [] = [] ∨ room = 0)
  /-- It is `StreamEnd` only when the stream ends. -/
  streamEnd : step.status = .streamEnd → ends z input

/-- Calls without flush that succeed are as `InflateCall` says. -/
def Unflushed (decoded : Inflate → Bytes → Bytes) (totalIn : Inflate → Nat)
    (ends : Inflate → Bytes → Prop) : Prop :=
  ∀ z input room step, inflate z input room = some step →
    InflateCall decoded totalIn ends z input room step

end

/-! ### A compressor of stored blocks -/

namespace Concrete

/-- A number on two bytes, the lower one first. -/
def le16 (n : Nat) : Bytes := [UInt8.ofNat n, UInt8.ofNat (n / 256)]

/-- A stored block: its type, its length, the complement, the bytes. -/
def storedBlock (s : Bytes) : Bytes := 0 :: le16 s.length ++ le16 (65535 - s.length) ++ s

/-- Stored blocks of 16383 bytes, the symbols that a block of the fast level holds. -/
def storedBlocks : Nat → Bytes → Bytes
  | 0, _ => []
  | n + 1, s =>
    if s = [] then [] else storedBlock (s.take 16383) ++ storedBlocks n (s.drop 16383)

/-- Bytes of which no three come twice, and among which all values are as
frequent: there is nothing that zlib can make shorter. -/
def unrepeated (n : Nat) : Bytes :=
  (List.range n).map fun i =>
    UInt8.ofNat (if i % 2 = 0 then 2 * ((i / 256 + 37 * (i / 2)) % 128) else 2 * (i / 2 % 128) + 1)

theorem length_unrepeated (n : Nat) : (unrepeated n).length = n := by
  rw [unrepeated, List.length_map, List.length_range]

/-- A compressor that stores. -/
structure Deflater where
  /-- The header of the stream has been written. -/
  begun : Bool
  /-- What has not found space in the output. -/
  pending : Bytes
  /-- `total_in`. -/
  total : Nat

/-- The output of a flush: the header, the blocks, and the empty block that ends a flush. -/
def Deflater.flush (z : Deflater) (input : Bytes) : Bytes :=
  z.pending ++
    if z.begun ∧ input = [] then []
    else (if z.begun then [] else [120, 1]) ++ storedBlocks input.length input ++ [2]

/-- A flush that fills the output to the last byte is begun again by the next call. -/
def Deflater.deflate (z : Deflater) (input : Bytes) (room : Nat) : Option (FlateStep Deflater) :=
  let out := z.flush input
  let rest := if out.length < room then [] else if out.length = room then [2] else out.drop room
  some ⟨if input = [] ∧ out.take room = [] then .bufError else .ok, input.length, out.take room,
    ⟨true, rest, z.total + input.length⟩⟩

theorem length_storedBlock (s : Bytes) : (storedBlock s).length = s.length + 5 := by
  simp only [storedBlock, le16, List.length_append, List.length_cons, List.length_nil]
  omega

/-- Each block is five bytes longer than what it stores. -/
theorem length_storedBlocks {n : Nat} {s : Bytes} (h : s.length ≤ n) :
    (storedBlocks n s).length = s.length + 5 * ((s.length + 16382) / 16383) := by
  induction n generalizing s with
  | zero =>
    have hnil : s = [] := List.length_eq_zero_iff.mp (Nat.le_zero.mp h)
    rw [hnil]
    rfl
  | succ n ih =>
    rw [storedBlocks]
    by_cases hnil : s = []
    · rw [if_pos hnil, hnil]
      rfl
    · have hpos : 0 < s.length := List.length_pos_iff.mpr hnil
      have hdrop : (s.drop 16383).length = s.length - 16383 := List.length_drop
      have htake : (s.take 16383).length = min 16383 s.length := List.length_take
      have hrest := ih (s := s.drop 16383) (by omega)
      rw [if_neg hnil, List.length_append, length_storedBlock, hrest, hdrop, htake]
      omega

/-- The header, the blocks and the empty block of a first flush. -/
theorem Deflater.length_flush {z : Deflater} (h : z.begun = false) (hpending : z.pending = [])
    (input : Bytes) : (z.flush input).length =
      2 + (input.length + 5 * ((input.length + 16382) / 16383)) + 1 := by
  unfold flush
  rw [h, hpending, if_neg (by simp), if_neg (by simp)]
  simp only [List.length_append, List.length_cons, List.length_nil,
    length_storedBlocks (Nat.le_refl _)]
  omega

/-- What is left of a flush is written by the next one. -/
theorem Deflater.flush_nil (z : Deflater) (h : z.begun = true) : z.flush [] = z.pending := by
  simp [flush, h]

/-! ### A decompressor of stored blocks -/

/-- Where a decompressor is in its stream. -/
inductive Reader where
  | header (left : Nat)
  | block (seen : Bytes)
  | stored (left : Nat)

/-- The next byte of the stream: the byte that it decodes to, if any, and
where the decompressor is then. Blocks that are not stored are refused. -/
def Reader.step : Reader → UInt8 → Option (Option UInt8 × Reader)
  | .header left, _ => some (none, if left ≤ 1 then .block [] else .header (left - 1))
  | .block seen, b =>
    match seen ++ [b] with
    | [type, low, high, low', high'] =>
      if type = 0 ∧ low' = 255 - low ∧ high' = 255 - high then
        let len := low.toNat + 256 * high.toNat
        some (none, if len = 0 then .block [] else .stored len)
      else none
    | seen => some (none, .block seen)
  | .stored left, b => some (some b, if left ≤ 1 then .block [] else .stored (left - 1))

/-- What an input decodes to. -/
def Reader.decode : Reader → Bytes → Bytes
  | _, [] => []
  | r, b :: rest =>
    match r.step b with
    | none => []
    | some (out, r') => out.toList ++ r'.decode rest

/-- Bytes are consumed until one is decoded that finds no space: how many
were, what they decode to, and where the decompressor is then. -/
def Reader.run : Reader → Bytes → Nat → Option (Nat × Bytes × Reader)
  | r, [], _ => some (0, [], r)
  | r, b :: rest, room =>
    match r.step b with
    | none => none
    | some (none, r') => (r'.run rest room).map fun (n, out, r) => (n + 1, out, r)
    | some (some o, r') =>
      if room = 0 then some (0, [], r)
      else (r'.run rest (room - 1)).map fun (n, out, r) => (n + 1, o :: out, r)

/-- A decompressor of stored blocks. -/
structure Inflater where
  /-- What is left of a match that was being copied when the output was full. -/
  pending : Bytes
  /-- Where it is in its stream. -/
  reader : Reader
  /-- `total_in`. -/
  total : Nat

/-- What an input decodes to, after what is pending. -/
def Inflater.decoded (z : Inflater) (input : Bytes) : Bytes := z.pending ++ z.reader.decode input

/-- What is pending is written before more of the input is decoded. -/
def Inflater.inflate (z : Inflater) (input : Bytes) (room : Nat) : Option (FlateStep Inflater) :=
  let first := z.pending.take room
  match z.reader.run input (room - first.length) with
  | none => none
  | some (n, out, reader) =>
    some ⟨if n = 0 ∧ first ++ out = [] then .bufError else .ok, n, first ++ out,
      ⟨z.pending.drop room, reader, z.total + n⟩⟩

/-- What one run of the reader consumes and writes. -/
theorem Reader.run_decode {r r' : Reader} {input out : Bytes} {room n : Nat}
    (h : r.run input room = some (n, out, r')) :
    n ≤ input.length ∧ out.length ≤ room ∧ r.decode input = out ++ r'.decode (input.drop n) ∧
      (n = 0 → out = [] ∧ (input = [] ∨ room = 0)) := by
  induction input generalizing r room n out with
  | nil =>
    rw [run] at h
    cases h
    simp
  | cons b rest ih =>
    rw [run] at h
    rw [decode]
    cases hstep : r.step b with
    | none =>
      rw [hstep] at h
      cases h
    | some p =>
      obtain ⟨o, q⟩ := p
      rw [hstep] at h
      cases o with
      | none =>
        obtain ⟨⟨n', out', q'⟩, hrun, hp⟩ := Option.map_eq_some_iff.mp h
        cases hp
        obtain ⟨hn, hout, hdecode, -⟩ := ih hrun
        refine ⟨Nat.succ_le_succ hn, hout, ?_, fun h => absurd h (Nat.succ_ne_zero _)⟩
        simpa using hdecode
      | some o =>
        dsimp only at h
        by_cases hroom : room = 0
        · rw [if_pos hroom] at h
          cases h
          refine ⟨Nat.zero_le _, Nat.zero_le _, ?_, fun _ => ⟨rfl, .inr hroom⟩⟩
          rw [List.drop_zero, decode, hstep]
          rfl
        · rw [if_neg hroom] at h
          obtain ⟨⟨n', out', q'⟩, hrun, hp⟩ := Option.map_eq_some_iff.mp h
          cases hp
          obtain ⟨hn, hout, hdecode, -⟩ := ih hrun
          refine ⟨Nat.succ_le_succ hn, ?_, ?_, fun h => absurd h (Nat.succ_ne_zero _)⟩
          · have hlength : (o :: out').length = out'.length + 1 := List.length_cons
            dsimp only at hlength ⊢
            omega
          · simpa using hdecode

/-! ### Their promises -/

/-- The transparent libraries, with streams of stored blocks. -/
@[reducible] def storing : Deps :=
  { deps with
    Deflate := Deflater
    deflateNew := ⟨false, [], 0⟩
    deflateReset := fun _ => ⟨false, [], 0⟩
    deflate := Deflater.deflate
    Inflate := Inflater
    inflateNew := ⟨[], .header 2, 0⟩
    inflateReset := fun _ => ⟨[], .header 2, 0⟩
    inflate := Inflater.inflate }

/-- The compressor keeps the promises of partial flushes. -/
theorem storing_partialFlush :
    @PartialFlush storing Deflater.flush (fun z => z.pending = []) Deflater.total := by
  let _ := storing
  intro z input room hroom
  refine ⟨_, rfl, ?_⟩
  have htake : ((z.flush input).take room).length = min room (z.flush input).length :=
    List.length_take
  constructor
  · exact Nat.le_refl _
  · rfl
  · exact List.take_prefix _ _
  · dsimp only
    omega
  · intro hprogress
    dsimp only at hprogress ⊢
    rw [if_neg]
    rintro ⟨hinput, hout⟩
    rcases hprogress with hconsumed | hproduced
    · rw [hinput] at hconsumed
      exact Nat.lt_irrefl 0 hconsumed
    · exact hproduced hout
  · intro hbuf
    dsimp only at hbuf ⊢
    by_cases hstuck : input = [] ∧ (z.flush input).take room = []
    · obtain ⟨hinput, hout⟩ := hstuck
      have hnothing : z.flush input = [] :=
        (List.take_eq_nil_iff.mp hout).resolve_left (Nat.ne_of_gt hroom)
      rw [hnothing, List.length_nil, if_pos hroom, hinput, Deflater.flush_nil _ rfl]
    · rw [if_neg hstuck] at hbuf
      cases hbuf
  · intro hspace
    have hshort : (z.flush input).length < room := by
      dsimp only at hspace
      omega
    exact ⟨rfl, List.take_of_length_le (Nat.le_of_lt hshort), if_pos hshort⟩
  · intro hflushed
    dsimp only at hflushed ⊢
    rw [htake]
    by_cases hshort : (z.flush input).length < room
    · omega
    · rw [if_neg hshort] at hflushed
      by_cases hexact : (z.flush input).length = room
      · rw [if_pos hexact] at hflushed
        cases hflushed
      · rw [if_neg hexact, List.drop_eq_nil_iff] at hflushed
        omega

/-- The decompressor keeps the promises of calls without flush; its stream never ends. -/
theorem storing_unflushed :
    @Unflushed storing Inflater.decoded Inflater.total fun _ _ => False := by
  let _ := storing
  intro z input room step hstep
  change z.inflate input room = some step at hstep
  unfold Inflater.inflate at hstep
  dsimp only at hstep
  cases hrun : z.reader.run input (room - (z.pending.take room).length) with
  | none =>
    rw [hrun] at hstep
    cases hstep
  | some p =>
    obtain ⟨n, out, reader⟩ := p
    rw [hrun] at hstep
    cases hstep
    obtain ⟨hn, hout, hdecode, hzero⟩ := Reader.run_decode hrun
    have htake : (z.pending.take room).length = min room z.pending.length := List.length_take
    constructor
    · exact hn
    · rfl
    · dsimp only [Inflater.decoded]
      rw [hdecode]
      by_cases hfull : room < z.pending.length
      · have hnil : out = [] := List.length_eq_zero_iff.mp (by omega)
        rw [hnil, List.append_nil, List.nil_append, ← List.append_assoc, List.take_append_drop]
      · have hle : z.pending.length ≤ room := Nat.le_of_not_lt hfull
        rw [List.take_of_length_le hle, List.drop_of_length_le hle, List.nil_append,
          List.append_assoc]
    · rw [List.length_append]
      omega
    · exact id
    · intro hok
      dsimp only at hok ⊢
      by_contra hnone
      rw [not_or, not_not] at hnone
      rw [if_pos ⟨by omega, hnone.2⟩] at hok
      cases hok
    · intro hbuf
      dsimp only at hbuf
      by_cases hnone : n = 0 ∧ z.pending.take room ++ out = []
      · obtain ⟨hn, hnil⟩ := hnone
        obtain ⟨hfirst, -⟩ := List.append_eq_nil_iff.mp hnil
        refine ⟨hn, hnil, ?_⟩
        by_cases hroom : room = 0
        · exact .inr hroom
        · have hpending : z.pending = [] := by
            rcases List.take_eq_nil_iff.mp hfirst with hzero | hpending
            · exact absurd hzero hroom
            · exact hpending
          rcases (hzero hn).2 with hinput | hzero
          · exact .inl ⟨hinput, by rw [Inflater.decoded, hpending, Reader.decode]; rfl⟩
          · rw [hfirst, List.length_nil] at hzero
            exact .inr (by omega)
      · rw [if_neg hnone] at hbuf
        cases hbuf
    · intro hend
      dsimp only at hend
      split at hend <;> cases hend

end Concrete

end Thrussh
