import Thrussh.Compression
import Thrussh.Flate

/-!
# A packet is compressed, and decompressed

`compress` leaves its loop at the first status that is not `BufError`, which
is `Ok` also when the output is full: a packet whose flush is ten bytes
longer than the packet, or more, is cut. `decompress` leaves its loop at
`BufError`: its output grows with every call and is never full before one,
so that `BufError` says that nothing is left. Only an empty packet is given
no output space, and then no output is pending.
-/

namespace Thrussh

open Deps Lib

/-! ### Compression -/

section

variable [Deps] {flush : Deflate → Bytes → Bytes} {flushed : Deflate → Prop}
  {totalIn : Deflate → Nat} {z : Deflate} {input : Bytes}

/-- The packet is compressed completely: all of it has been consumed, the
bytes returned are those of the flush, and the flush is complete. -/
def Flushes (flush : Deflate → Bytes → Bytes) (flushed : Deflate → Prop)
    (totalIn : Deflate → Nat) (z : Deflate) (input : Bytes) : Prop :=
  ∃ z', Compress.compress (.zlib z) input = .ok (flush z input, .zlib z') ∧
    totalIn z' = totalIn z + input.length ∧ flushed z'

/-- The library answers `BufError` to so many calls without input, each of
which is given twice the output of the one before. -/
def Refuses : Nat → Deflate → Nat → Prop
  | 0, _, _ => True
  | n + 1, z, room => ∃ step, deflate z [] room = some step ∧ step.status = .bufError ∧
      Refuses n step.next (room * 2)

/-- The loop with at least one call. -/
theorem compress_eq (z : Deflate) (input : Bytes) :
    ∃ fuel, 61 ≤ fuel ∧ Compress.compress (.zlib z) input =
      compressLoop (fuel + 1) z input (input.length + 10) [] >>= fun p => .ok (p.1, .zlib p.2) :=
  ⟨2 ^ 64 - 1, by omega, rfl⟩

/-- The first call that makes progress ends the loop. -/
theorem compress_of_progress {step : FlateStep Deflate}
    (hstep : deflate z input (input.length + 10) = some step) (hok : step.status = .ok) :
    Compress.compress (.zlib z) input = .ok (step.produced, .zlib step.next) := by
  obtain ⟨fuel, -, hcompress⟩ := compress_eq z input
  rw [hcompress, compressLoop, List.length_nil, Nat.sub_zero, hstep]
  dsimp only
  rw [hok]
  rfl

/-- A call that is refused has made no progress. -/
theorem FlushCall.refused {room : Nat} {step : FlateStep Deflate}
    (h : FlushCall flush flushed totalIn z input room step) (hbuf : step.status = .bufError) :
    step.consumed = 0 ∧ step.produced = [] := by
  by_contra hprogress
  have hok := h.ok (by
    rw [not_and_or] at hprogress
    exact hprogress.imp_left Nat.pos_of_ne_zero)
  rw [hbuf] at hok
  cases hok

/-- When every call is refused, the output grows until it is too large. -/
theorem compressLoop_refused (h : PartialFlush flush flushed totalIn) {n fuel room : Nat}
    (hrefuses : Refuses n z room) (hroom : 0 < room) (hlarge : 2 ^ 64 ≤ room * 2 ^ n)
    (hsmall : room < 2 ^ 64) (result : Bytes × Deflate) :
    compressLoop fuel z [] room [] ≠ .ok result := by
  induction n generalizing fuel z room with
  | zero => omega
  | succ n ih =>
    cases fuel with
    | zero =>
      intro heq
      cases heq
    | succ fuel =>
      obtain ⟨step, hstep, hbuf, hrest⟩ := hrefuses
      obtain ⟨step', hstep', hcall⟩ := h z [] room hroom
      obtain rfl : step = step' := Option.some.inj (hstep.symm.trans hstep')
      rw [compressLoop, List.length_nil, Nat.sub_zero, hstep]
      dsimp only
      rw [hbuf, (hcall.refused hbuf).2, List.drop_nil, List.append_nil]
      dsimp only
      by_cases hdouble : room * 2 < 2 ^ 64
      · rw [if_pos hdouble]
        refine ih hrest (by omega) ?_ hdouble
        rw [Nat.mul_assoc, ← Nat.pow_succ']
        exact hlarge
      · rw [if_neg hdouble]
        intro heq
        cases heq

/-- When a call is not refused before, the loop returns what there is to flush: nothing. -/
theorem compressLoop_done (h : PartialFlush flush flushed totalIn) {n fuel room : Nat}
    (hrefuses : ¬ Refuses (n + 1) z room) (hroom : 0 < room) (hsmall : room * 2 ^ n < 2 ^ 64)
    (hfuel : n < fuel) (hflush : flush z [] = []) :
    ∃ z', compressLoop fuel z [] room [] = .ok ([], z') ∧ totalIn z' = totalIn z ∧ flushed z' := by
  induction n generalizing fuel z room with
  | zero =>
    obtain ⟨fuel, rfl⟩ := Nat.exists_eq_succ_of_ne_zero (Nat.ne_of_gt hfuel)
    obtain ⟨step, hstep, hcall⟩ := h z [] room hroom
    have hproduced : step.produced = [] := List.prefix_nil.mp (hflush ▸ hcall.produced_prefix)
    obtain ⟨hconsumed, -, hflushed⟩ := hcall.complete (by rw [hproduced]; exact hroom)
    refine ⟨step.next, ?_, by rw [hcall.totalIn_eq, hconsumed]; rfl, hflushed⟩
    rw [compressLoop, List.length_nil, Nat.sub_zero, hstep]
    dsimp only
    rw [hproduced]
    cases hstatus : step.status with
    | bufError => exact absurd ⟨step, hstep, hstatus, trivial⟩ hrefuses
    | ok => rfl
    | streamEnd => rfl
  | succ n ih =>
    obtain ⟨fuel, rfl⟩ := Nat.exists_eq_succ_of_ne_zero (Nat.ne_of_gt (Nat.zero_lt_of_lt hfuel))
    obtain ⟨step, hstep, hcall⟩ := h z [] room hroom
    have hproduced : step.produced = [] := List.prefix_nil.mp (hflush ▸ hcall.produced_prefix)
    obtain ⟨hconsumed, -, hflushed⟩ := hcall.complete (by rw [hproduced]; exact hroom)
    have htotal : totalIn step.next = totalIn z := by rw [hcall.totalIn_eq, hconsumed]; rfl
    rw [compressLoop, List.length_nil, Nat.sub_zero, hstep]
    dsimp only
    rw [hproduced]
    cases hstatus : step.status with
    | bufError =>
      have hdouble : room * 2 * 2 ^ n < 2 ^ 64 := by
        rw [Nat.mul_assoc, ← Nat.pow_succ']
        exact hsmall
      have hpow : 0 < 2 ^ n := Nat.two_pow_pos n
      have hnext : room * 2 < 2 ^ 64 :=
        Nat.lt_of_le_of_lt (Nat.le_mul_of_pos_right _ hpow) hdouble
      dsimp only
      rw [if_pos hnext, List.drop_nil, List.append_nil]
      have hserved : ¬ Refuses (n + 1) step.next (room * 2) :=
        fun hrest => hrefuses ⟨step, hstep, hstatus, hrest⟩
      have hless : n < fuel := by omega
      obtain ⟨z', hloop, htotal', hflushed'⟩ := ih hserved (by omega) hdouble hless
        ((hcall.bufError hstatus).trans hflush)
      exact ⟨z', hloop, htotal'.trans htotal, hflushed'⟩
    | ok => exact ⟨step.next, rfl, htotal, hflushed⟩
    | streamEnd => exact ⟨step.next, rfl, htotal, hflushed⟩

/-- A packet is compressed completely exactly when its flush does not fill the
first output, and the library does not refuse an empty packet for good. -/
theorem compress_flushes_iff (h : PartialFlush flush flushed totalIn) (z : Deflate)
    (input : Bytes) : Flushes flush flushed totalIn z input ↔
      (flush z input).length < input.length + 10 ∧ ¬ (input = [] ∧ Refuses 61 z 10) := by
  obtain ⟨step, hstep, hcall⟩ := h z input (input.length + 10) (by omega)
  by_cases hprogress : 0 < step.consumed ∨ step.produced ≠ []
  · have hok := hcall.ok hprogress
    have hcompress := compress_of_progress hstep hok
    have hserved : ¬ (input = [] ∧ Refuses 61 z 10) := by
      rintro ⟨rfl, step', hstep', hbuf, -⟩
      rw [Option.some.inj (hstep.symm.trans hstep'), hbuf] at hok
      cases hok
    constructor
    · rintro ⟨z', hresult, -, hflushed⟩
      rw [hcompress] at hresult
      have hpair := Prod.mk.inj (Except.ok.inj hresult)
      rw [← Compress.zlib.inj hpair.2] at hflushed
      refine ⟨?_, hserved⟩
      rw [← hpair.1]
      exact hcall.space hflushed
    · rintro ⟨hlength, -⟩
      have hle := hcall.produced_prefix.length_le
      obtain ⟨hconsumed, hflush, hflushed⟩ := hcall.complete (by omega)
      refine ⟨step.next, ?_, ?_, hflushed⟩
      · rw [hcompress, hflush]
      · rw [hcall.totalIn_eq, hconsumed]
  · -- nothing was consumed and nothing written, although there was space
    rw [not_or, not_not] at hprogress
    obtain ⟨hzero, hproduced⟩ := hprogress
    obtain ⟨hconsumed, hflush, -⟩ := hcall.complete (by
      rw [hproduced, List.length_nil]
      omega)
    have hinput : input = [] := List.length_eq_zero_iff.mp (by omega)
    subst hinput
    rw [hproduced] at hflush
    obtain ⟨fuel, hfuel, hcompress⟩ := compress_eq z []
    constructor
    · rintro ⟨z', hresult, -⟩
      refine ⟨by rw [← hflush]; decide, fun hrefused => ?_⟩
      rw [hcompress] at hresult
      obtain ⟨result, hloop, -⟩ := ok_of_bind hresult
      exact compressLoop_refused h hrefused.2 (by decide) (by decide) (by decide) result hloop
    · rintro ⟨-, hserved⟩
      have hrefuses : ¬ Refuses (60 + 1) z 10 := fun hrefuses => hserved ⟨rfl, hrefuses⟩
      have hless : 60 < fuel + 1 := by omega
      obtain ⟨z', hloop, htotal, hflushed⟩ := compressLoop_done h hrefuses (by decide) (by decide)
        hless hflush.symm
      refine ⟨z', ?_, htotal, hflushed⟩
      rw [hcompress, List.length_nil, hloop, ← hflush]
      rfl

end

namespace Concrete

theorem length_dataPacket (recipient : UInt32) (data : Bytes) :
    (dataPacket recipient data).length = data.length + 9 := by
  simp only [dataPacket, List.length_append, List.length_cons, length_be32, length_sshString]
  omega

/-- 128 bytes on a channel, which are stored. -/
theorem compress_flushes_iff_small :
    letI := storing
    Flushes Deflater.flush (fun z => z.pending = []) Deflater.total ⟨false, [], 0⟩
      (dataPacket 1 (unrepeated 128)) := by
  have hlength := length_dataPacket 1 (unrepeated 128)
  have hflush : (Deflater.flush ⟨false, [], 0⟩ (dataPacket 1 (unrepeated 128))).length = _ :=
    Deflater.length_flush rfl rfl (dataPacket 1 (unrepeated 128))
  rw [length_unrepeated] at hlength
  rw [hlength] at hflush
  refine (@compress_flushes_iff storing _ _ _ storing_partialFlush _ _).mpr ⟨?_, fun hnil => ?_⟩
  · rw [hflush, hlength]
    decide
  · exact List.cons_ne_nil _ _ hnil.1

/-- 40000 bytes on a channel are stored in three blocks, which do not fit. -/
theorem compress_cut :
    letI := storing
    PartialFlush Deflater.flush (fun z => z.pending = []) Deflater.total ∧
      ¬ Flushes Deflater.flush (fun z => z.pending = []) Deflater.total ⟨false, [], 0⟩
        (dataPacket 1 (unrepeated 40000)) := by
  let _ := storing
  have hlength := length_dataPacket 1 (unrepeated 40000)
  have hflush : (Deflater.flush ⟨false, [], 0⟩ (dataPacket 1 (unrepeated 40000))).length = _ :=
    Deflater.length_flush rfl rfl (dataPacket 1 (unrepeated 40000))
  rw [length_unrepeated] at hlength
  rw [hlength] at hflush
  refine ⟨storing_partialFlush, ?_⟩
  rintro ⟨z', hresult, -, -⟩
  generalize hpacket : dataPacket 1 (unrepeated 40000) = packet at hresult hlength hflush
  obtain ⟨step, hstep, hcall⟩ := storing_partialFlush ⟨false, [], 0⟩ packet (packet.length + 10)
    (by omega)
  have hproduced := hcall.produced_le
  have hprogress : 0 < step.consumed ∨ step.produced ≠ [] := by
    by_contra hnone
    rw [not_or, not_not] at hnone
    obtain ⟨hconsumed, -⟩ := hcall.complete (by rw [hnone.2, List.length_nil]; omega)
    omega
  rw [compress_of_progress hstep (hcall.ok hprogress)] at hresult
  rw [← (Prod.mk.inj (Except.ok.inj hresult)).1] at hflush
  rw [hlength] at hproduced
  omega

end Concrete

/-! ### Decompression -/

section

variable [Deps] {decoded : Inflate → Bytes → Bytes} {totalIn : Inflate → Nat}
  {ends : Inflate → Bytes → Prop} {z : Inflate} {input : Bytes}

/-- The packet is decompressed completely when it is at all: the call ends,
and if it succeeds, all of the packet has been consumed, the bytes returned
are those that it decodes to, and none is left in the stream. -/
def Inflates (decoded : Inflate → Bytes → Bytes) (totalIn : Inflate → Nat) (z : Inflate)
    (input : Bytes) : Prop :=
  Decompress.decompress (.zlib z) input ≠ .error .diverge ∧
    ∀ out d, Decompress.decompress (.zlib z) input = .ok (out, d) →
      ∃ z', d = .zlib z' ∧ totalIn z' = totalIn z + input.length ∧ out = decoded z input ∧
        decoded z' [] = []

/-- The loop is followed for long enough. -/
theorem decompress_eq (z : Inflate) (input : Bytes) :
    ∃ fuel, 63 ≤ fuel ∧ Decompress.decompress (.zlib z) input =
      decompressLoop (fuel + 1) z input input.length [] >>= fun p => .ok (p.1, .zlib p.2) :=
  ⟨2 ^ 64 - 1, by omega, rfl⟩

/-- What one call of the loop leaves when its status is `Ok`. -/
theorem InflateCall.shrinks {room : Nat} {step : FlateStep Inflate}
    (h : InflateCall decoded totalIn ends z input room step) (hok : step.status = .ok) :
    (input.drop step.consumed).length + (decoded step.next (input.drop step.consumed)).length <
      input.length + (decoded z input).length := by
  have hle := h.consumed_le
  rw [h.decoded_eq, List.length_append, List.length_drop]
  rcases h.ok hok with hconsumed | hproduced
  · omega
  · have hpos : 0 < step.produced.length := List.length_pos_iff.mpr hproduced
    omega

/-- Each `Ok` comes with progress, of which there can only be so much. -/
theorem decompressLoop_ends (h : Unflushed decoded totalIn ends) {fuel room : Nat} {out : Bytes}
    (hfuel : input.length + (decoded z input).length < fuel) :
    decompressLoop fuel z input room out ≠ .error .diverge := by
  induction fuel generalizing z input room out with
  | zero => omega
  | succ fuel ih =>
    rw [decompressLoop]
    cases hstep : inflate z input (room - out.length) with
    | none =>
      intro heq
      cases heq
    | some step =>
      have hcall := h z input _ step hstep
      dsimp only
      cases hstatus : step.status with
      | ok =>
        have hless := hcall.shrinks hstatus
        dsimp only
        by_cases hsmall : room * 2 < 2 ^ 64
        · rw [if_pos hsmall]
          exact ih (by omega)
        · rw [if_neg hsmall]
          intro heq
          cases heq
      | bufError =>
        intro heq
        cases heq
      | streamEnd =>
        intro heq
        cases heq

/-- A loop whose output is not full before a call returns only when nothing is left. -/
theorem decompressLoop_exact (h : Unflushed decoded totalIn ends) {fuel room : Nat}
    {out out' : Bytes} {z' : Inflate} (hends : ¬ ends z input) (hroom : out.length < room)
    (hresult : decompressLoop fuel z input room out = .ok (out', z')) :
    totalIn z' = totalIn z + input.length ∧ out' = out ++ decoded z input ∧
      decoded z' [] = [] := by
  induction fuel generalizing z input room out with
  | zero => cases hresult
  | succ fuel ih =>
    rw [decompressLoop] at hresult
    cases hstep : inflate z input (room - out.length) with
    | none =>
      rw [hstep] at hresult
      cases hresult
    | some step =>
      have hcall := h z input _ step hstep
      have hle := hcall.produced_le
      have htotal := hcall.totalIn_eq
      rw [hstep] at hresult
      dsimp only at hresult
      cases hstatus : step.status with
      | ok =>
        rw [hstatus] at hresult
        dsimp only at hresult
        by_cases hsmall : room * 2 < 2 ^ 64
        · rw [if_pos hsmall] at hresult
          have hspace : (out ++ step.produced).length < room * 2 := by
            rw [List.length_append]
            omega
          have hrest : ¬ ends step.next (input.drop step.consumed) :=
            fun hend => hends (hcall.ends_next hend)
          obtain ⟨htotal', hout, hnil⟩ := ih hrest hspace hresult
          have hconsumed := hcall.consumed_le
          rw [List.length_drop] at htotal'
          refine ⟨by omega, ?_, hnil⟩
          rw [hout, hcall.decoded_eq, List.append_assoc]
        · rw [if_neg hsmall] at hresult
          cases hresult
      | bufError =>
        rw [hstatus] at hresult
        cases hresult
        obtain ⟨hconsumed, hproduced, hdone | hfull⟩ := hcall.bufError hstatus
        · obtain ⟨hinput, hnil⟩ := hdone
          have hdecoded := hcall.decoded_eq
          rw [hproduced, hinput, List.drop_nil, hnil, List.nil_append] at hdecoded
          rw [hinput, hnil, hproduced, htotal, hconsumed]
          exact ⟨rfl, rfl, hdecoded.symm⟩
        · omega
      | streamEnd => exact absurd (hcall.streamEnd hstatus) hends

/-- The output can only be doubled so often before it is too large. -/
theorem decompressLoop_doubles {k fuel room : Nat} {out : Bytes} (hfuel : k < fuel)
    (hroom : 2 ^ 64 ≤ room * 2 ^ (k + 1)) :
    decompressLoop fuel z input room out ≠ .error .diverge := by
  induction k generalizing fuel z input room out with
  | zero =>
    obtain ⟨fuel, rfl⟩ := Nat.exists_eq_succ_of_ne_zero (Nat.ne_of_gt hfuel)
    have hlarge : ¬ room * 2 < 2 ^ 64 := by omega
    rw [decompressLoop]
    cases inflate z input (room - out.length) with
    | none =>
      intro heq
      cases heq
    | some step =>
      dsimp only
      rw [if_neg hlarge]
      cases step.status <;> intro heq <;> cases heq
  | succ k ih =>
    obtain ⟨fuel, rfl⟩ := Nat.exists_eq_succ_of_ne_zero (Nat.ne_of_gt (Nat.zero_lt_of_lt hfuel))
    have hnext : 2 ^ 64 ≤ room * 2 * 2 ^ (k + 1) := by
      rw [Nat.mul_assoc, ← Nat.pow_succ']
      exact hroom
    rw [decompressLoop]
    cases inflate z input (room - out.length) with
    | none =>
      intro heq
      cases heq
    | some step =>
      dsimp only
      cases step.status with
      | ok =>
        dsimp only
        by_cases hsmall : room * 2 < 2 ^ 64
        · rw [if_pos hsmall]
          exact ih (Nat.lt_of_succ_lt_succ hfuel) hnext
        · rw [if_neg hsmall]
          intro heq
          cases heq
      | bufError =>
        intro heq
        cases heq
      | streamEnd =>
        intro heq
        cases heq

/-- An empty packet is given no output space, and leaves the stream as it is. -/
theorem decompressLoop_empty (h : Unflushed decoded totalIn ends) {fuel : Nat}
    (hends : ¬ ends z []) :
    decompressLoop (fuel + 1) z [] 0 [] = .error (.error .compression) ∨
      ∃ z', decompressLoop (fuel + 1) z [] 0 [] = .ok ([], z') ∧ totalIn z' = totalIn z ∧
        decoded z' [] = decoded z [] := by
  rw [decompressLoop]
  cases hstep : inflate z [] (0 - ([] : Bytes).length) with
  | none => exact .inl rfl
  | some step =>
    have hcall := h z [] _ step hstep
    have hconsumed : step.consumed = 0 := Nat.le_zero.mp hcall.consumed_le
    have hproduced : step.produced = [] :=
      List.length_eq_zero_iff.mp (Nat.le_zero.mp hcall.produced_le)
    have hdecoded := hcall.decoded_eq
    have htotal := hcall.totalIn_eq
    rw [hproduced, List.drop_nil, List.nil_append] at hdecoded
    rw [hconsumed] at htotal
    right
    refine ⟨step.next, ?_, htotal, hdecoded.symm⟩
    dsimp only
    rw [hproduced]
    cases hstatus : step.status with
    | ok =>
      rcases hcall.ok hstatus with hpos | hsome
      · omega
      · exact absurd hproduced hsome
    | bufError => rfl
    | streamEnd => exact absurd (hcall.streamEnd hstatus) hends

/-- A packet that does not end its stream is decompressed completely, if no
output is pending before an empty packet. -/
theorem inflates_of_drained (h : Unflushed decoded totalIn ends) (hends : ¬ ends z input)
    (hpending : input ≠ [] ∨ decoded z [] = []) : Inflates decoded totalIn z input := by
  obtain ⟨fuel, hfuel, hdecompress⟩ := decompress_eq z input
  unfold Inflates
  rw [hdecompress]
  by_cases hinput : input = []
  · have hnil : decoded z [] = [] := hpending.resolve_left fun hsome => hsome hinput
    rw [hinput] at hends ⊢
    have hresult : decompressLoop (fuel + 1) z [] 0 [] = .error (.error .compression) ∨
        ∃ z', decompressLoop (fuel + 1) z [] 0 [] = .ok ([], z') ∧ totalIn z' = totalIn z ∧
          decoded z' [] = decoded z [] := decompressLoop_empty h hends
    rcases hresult with herror | ⟨z', hok, htotal, hdecoded⟩
    · rw [List.length_nil, herror]
      constructor
      · intro heq
        cases heq
      · intro out d heq
        cases heq
    · rw [List.length_nil, hok]
      constructor
      · intro heq
        cases heq
      · intro out d heq
        cases heq
        exact ⟨z', rfl, htotal, hnil.symm, hdecoded.trans hnil⟩
  · have hpos : 0 < input.length := List.length_pos_iff.mpr hinput
    constructor
    · intro heq
      have hdiverge : decompressLoop (fuel + 1) z input input.length [] ≠ .error .diverge :=
        decompressLoop_doubles (k := 63) (by omega) (by omega)
      cases hresult : decompressLoop (fuel + 1) z input input.length [] with
      | error e =>
        rw [hresult] at heq hdiverge
        exact hdiverge (by cases heq; rfl)
      | ok p =>
        rw [hresult] at heq
        cases heq
    · intro out d heq
      obtain ⟨⟨out', z'⟩, hresult, hpair⟩ := ok_of_bind heq
      cases hpair
      obtain ⟨htotal, hout, hnil⟩ := decompressLoop_exact h hends hpos hresult
      exact ⟨z', rfl, htotal, hout, hnil⟩

/-- The states in which a session can have its decompressor before a packet:
`decompress` ends the session when it fails, so the packets before it have
been decompressed. -/
inductive Prior (ends : Inflate → Bytes → Prop) : Inflate → Prop where
  /-- A new stream. -/
  | new : Prior ends inflateNew
  /-- A stream that begins anew. -/
  | reset (z : Inflate) : Prior ends (inflateReset z)
  /-- A stream behind a packet that it does not end in. -/
  | next {z z' : Inflate} {input out : Bytes} (h : Prior ends z) (hends : ¬ ends z input)
    (hok : Decompress.decompress (.zlib z) input = .ok (out, .zlib z')) : Prior ends z'

/-- No output is pending before a packet. -/
theorem Prior.drained (h : Unflushed decoded totalIn ends) (hnew : decoded inflateNew [] = [])
    (hreset : ∀ z, decoded (inflateReset z) [] = []) (hprior : Prior ends z) :
    decoded z [] = [] := by
  induction hprior with
  | new => exact hnew
  | reset z => exact hreset z
  | next _ hends hok ih =>
    obtain ⟨z', heq, -, -, hnil⟩ := (inflates_of_drained h hends (.inr ih)).2 _ _ hok
    rw [Decompress.zlib.inj heq]
    exact hnil

/-- A packet that does not end its stream is decompressed completely: any
packet with content in any state, an empty one in every state in which a
session can have its decompressor. The loop ends within as many calls as
there are bytes of input and output, and one more. -/
theorem decompress_exact (h : Unflushed decoded totalIn ends) (hnew : decoded inflateNew [] = [])
    (hreset : ∀ z, decoded (inflateReset z) [] = []) (z : Inflate) (input : Bytes)
    (hends : ¬ ends z input) (hprior : input ≠ [] ∨ Prior ends z) :
    Inflates decoded totalIn z input ∧
      ∀ fuel, input.length + (decoded z input).length < fuel → ∀ room out,
        decompressLoop fuel z input room out ≠ .error .diverge :=
  ⟨inflates_of_drained h hends (hprior.imp_right fun hprior => hprior.drained h hnew hreset),
    fun _ hfuel _ _ => decompressLoop_ends h hfuel⟩

end

namespace Concrete

/-- A stored block of three bytes, and an empty packet before it. -/
theorem decompress_exact_stored :
    letI := storing
    (Inflates Inflater.decoded Inflater.total ⟨[], .header 2, 0⟩
        [120, 1, 0, 3, 0, 252, 255, 97, 98, 99] ∧
      ∀ fuel, 10 + 3 < fuel → ∀ room out,
        decompressLoop fuel (inflateNew : Inflate) [120, 1, 0, 3, 0, 252, 255, 97, 98, 99] room
          out ≠ .error .diverge) ∧
    Inflates Inflater.decoded Inflater.total (inflateNew : Inflate) [] := by
  let _ := storing
  have hexact := @decompress_exact storing _ _ _ storing_unflushed rfl fun _ => rfl
  refine ⟨hexact ⟨[], .header 2, 0⟩ [120, 1, 0, 3, 0, 252, 255, 97, 98, 99] id ?_, ?_⟩
  · exact .inl (List.cons_ne_nil _ _)
  · exact (hexact inflateNew [] id (.inr .new)).1

end Concrete

end Thrussh
