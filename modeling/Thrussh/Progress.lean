import Thrussh.Concrete
import Thrussh.PeerWindow

/-!
# Where the chunk loops end

A chunk loop takes a chunk off its buffer in every repetition, as long as the
peer's maximum packet size leaves room for a byte. With a maximum of 0 the
chunk is empty, and a loop that has something to send never ends: no number
of repetitions is enough for it.
-/

namespace Thrussh

section
variable [Deps]

/-- Whether something of a buffer can be sent, from an offset on. -/
def Sendable (window : Nat) (buf : Bytes) (start : Nat) : Prop := start < partEnd window buf

/-- Whether a flush of a queue gets to something that can be sent. -/
def QueueSendable (window : Nat) : List (Bytes × Option UInt32 × Nat) → Prop
  | [] => False
  | (buf, _, start) :: rest =>
    Sendable window buf start ∨ start = 0 ∧ buf = [] ∧ QueueSendable window rest

/-- Whether an operation on a channel has something to send. -/
def ChannelOp.Sends (ch : Channel) : ChannelOp → Prop
  | .data buf => ch.pendingData = [] ∧ Sendable ch.recipientWindowSize.toNat buf 0
  | .extendedData _ buf => ch.pendingData = [] ∧ Sendable ch.recipientWindowSize.toNat buf 0
  | .adjust _ => False
  | .flushPending => QueueSendable ch.recipientWindowSize.toNat ch.pendingData

section
variable {packet : Bytes → Bytes} {maxSize : Nat} {enc : Encrypted} {window : UInt32}
  {ch : Channel} {buf : Bytes} {start : Nat}

/-- Without room for a byte, no number of repetitions empties a buffer. -/
theorem chunkLoop_stuck (packet : Bytes → Bytes) (fuel : Nat) (enc : Encrypted) (window : UInt32)
    (b : UInt8) (buf : Bytes) : chunkLoop packet 0 fuel enc window (b :: buf) = .error .diverge := by
  induction fuel generalizing enc with
  | zero => rfl
  | succ fuel ih =>
    have hzero : UInt32.ofNat 0 = 0 := rfl
    have hle : (0 : UInt32) ≤ window := by
      rw [UInt32.le_iff_toNat_le]
      exact Nat.zero_le _
    simp only [chunkLoop, Nat.min_zero, hzero, if_pos hle, UInt32.sub_zero, List.drop_zero]
    exact ih _

/-- If a chunk loop ends after any number of repetitions, one repetition for each
byte is enough for it to end. -/
theorem chunkLoop_ends_iff : (∃ fuel, chunkLoop packet maxSize fuel enc window buf ≠
      .error .diverge) ↔ chunkLoop packet maxSize buf.length enc window buf ≠ .error .diverge := by
  constructor
  · rintro ⟨fuel, hends⟩ hdiverge
    cases maxSize with
    | zero =>
      cases buf with
      | nil => cases hdiverge
      | cons b buf => exact hends (chunkLoop_stuck packet fuel enc window b buf)
    | succ n => cases chunkLoop_error (Nat.succ_pos n) (Nat.le_refl _) hdiverge
  · exact fun hends => ⟨buf.length, hends⟩

/-- Sending a part never ends exactly if the part is not empty and a packet
has no room for a byte. -/
theorem sendChunks_diverges_iff : enc.sendChunks ch packet buf start = .error .diverge ↔
    ch.recipientMaximumPacketSize.toNat = 0 ∧ Sendable ch.recipientWindowSize.toNat buf start := by
  have hend := partEnd_le ch.recipientWindowSize.toNat buf
  unfold Encrypted.sendChunks Sendable
  rw [windowSlice_eq]
  by_cases hstart : start ≤ partEnd ch.recipientWindowSize.toNat buf
  · rw [if_pos hstart]
    set part := (buf.take (partEnd ch.recipientWindowSize.toNat buf)).drop start with hpart
    have hlength : part.length = partEnd ch.recipientWindowSize.toNat buf - start := by
      rw [hpart, List.length_drop, List.length_take]
      omega
    simp only [bind, Except.bind]
    constructor
    · intro h
      cases hrun : chunkLoop packet ch.recipientMaximumPacketSize.toNat part.length enc
          ch.recipientWindowSize part with
      | ok res =>
        rw [hrun] at h
        cases h
      | error e =>
        rw [hrun] at h
        cases h
        constructor
        · by_contra hmax
          cases chunkLoop_error (Nat.pos_of_ne_zero hmax) (Nat.le_refl _) hrun
        · by_contra hnone
          have hnil : part = [] := List.length_eq_zero_iff.mp (by omega)
          rw [hnil] at hrun
          cases hrun
    · rintro ⟨hmax, hsend⟩
      cases hcons : part with
      | nil =>
        rw [hcons, List.length_nil] at hlength
        omega
      | cons b rest => rw [hmax, chunkLoop_stuck]
  · rw [if_neg hstart]
    constructor
    · intro h
      cases h
    · rintro ⟨-, hsend⟩
      omega

/-- A part with nothing in it sends nothing. -/
theorem sendChunks_nothing (hstart : start ≤ partEnd ch.recipientWindowSize.toNat buf)
    (hnone : ¬ Sendable ch.recipientWindowSize.toNat buf start) :
    enc.sendChunks ch packet buf start = .ok (enc, ch, 0) := by
  have hend := partEnd_le ch.recipientWindowSize.toNat buf
  have hequal : start = partEnd ch.recipientWindowSize.toNat buf := by
    unfold Sendable at hnone
    omega
  have hpart : (buf.take (partEnd ch.recipientWindowSize.toNat buf)).drop start = [] := by
    rw [List.drop_eq_nil_iff, List.length_take]
    omega
  unfold Encrypted.sendChunks
  rw [windowSlice_eq, if_pos hstart, hpart]
  rfl

/-- A flush of the queue never ends exactly if it gets to something that can
be sent and a packet has no room for a byte. -/
theorem flushPendingLoop_diverges_iff (pending : List (Bytes × Option UInt32 × Nat))
    (enc : Encrypted) (ch : Channel) (total : Nat) :
    flushPendingLoop pending enc ch total = .error .diverge ↔
      ch.recipientMaximumPacketSize.toNat = 0 ∧
        QueueSendable ch.recipientWindowSize.toNat pending := by
  induction pending generalizing enc ch total with
  | nil =>
    constructor
    · intro h
      cases h
    · rintro ⟨-, hnone⟩
      exact hnone.elim
  | cons entry rest ih =>
    obtain ⟨buf, a, start⟩ := entry
    have hstep : enc.sendChunks ch (dataPacket ch.recipientChannel) buf start = .error .diverge ↔ _ :=
      sendChunks_diverges_iff
    unfold flushPendingLoop Encrypted.dataNoqueue
    cases hrun : enc.sendChunks ch (dataPacket ch.recipientChannel) buf start with
    | error e =>
      rw [hrun, Except.error.injEq] at hstep
      simp only [bind, Except.bind, Except.error.injEq, QueueSendable]
      rw [hstep]
      refine and_congr_right fun _ => ⟨.inl, ?_⟩
      rintro (hsend | ⟨rfl, rfl, -⟩)
      · exact hsend
      · cases hrun
    | ok res =>
      obtain ⟨enc', ch', sent⟩ := res
      have hchannel : ch'.recipientMaximumPacketSize = ch.recipientMaximumPacketSize := by
        obtain ⟨part, -, hsent⟩ := Lib.ok_of_bind hrun
        obtain ⟨⟨enc1, window⟩, -, hrest⟩ := Lib.ok_of_bind hsent
        cases hrest
        rfl
      have hnot : ¬ (ch.recipientMaximumPacketSize.toNat = 0 ∧
          Sendable ch.recipientWindowSize.toNat buf start) := by
        rw [← hstep, hrun]
        intro h
        cases h
      simp only [bind, Except.bind]
      by_cases hless : sent < buf.length
      · rw [if_pos hless]
        constructor
        · intro h
          cases h
        · rintro ⟨hmax, hsend | ⟨rfl, rfl, -⟩⟩
          · exact absurd ⟨hmax, hsend⟩ hnot
          · exact absurd hless (Nat.not_lt_zero _)
      · rw [if_neg hless, ih, hchannel]
        refine and_congr_right fun hmax => ?_
        have hnone : ¬ Sendable ch.recipientWindowSize.toNat buf start :=
          fun hsend => hnot ⟨hmax, hsend⟩
        by_cases hstart : start ≤ partEnd ch.recipientWindowSize.toNat buf
        · rw [sendChunks_nothing hstart hnone] at hrun
          cases hrun
          have hnil : buf = [] := List.length_eq_zero_iff.mp (by omega)
          have hend := partEnd_le ch.recipientWindowSize.toNat buf
          rw [hnil, List.length_nil] at hend
          have hzero : start = 0 := by
            rw [hnil] at hstart
            omega
          constructor
          · exact fun hrest => .inr ⟨hzero, hnil, hrest⟩
          · rintro (hsend | ⟨-, -, hrest⟩)
            · exact absurd hsend hnone
            · exact hrest
        · unfold Encrypted.sendChunks at hrun
          rw [windowSlice_eq, if_neg hstart] at hrun
          cases hrun

end

/-- On every confirmed channel the loops of `data`, `extended_data` and
`flush_pending` end if and only if the peer's packets have room for a byte,
or there is nothing to send. -/
theorem channelOp_ends_iff {enc : Encrypted} {id : UInt32} {ch : Channel} (op : ChannelOp)
    (hch : enc.channels id = some ch) (hconfirmed : ch.confirmed = true) :
    enc.channelOp id op ≠ .error .diverge ↔
      0 < ch.recipientMaximumPacketSize.toNat ∨ ¬ op.Sends ch := by
  have hsubmit : ∀ (ext : Option UInt32) (packet : Channel → Bytes → Bytes) (buf : Bytes),
      enc.submit id ext packet buf = .error .diverge ↔ ch.recipientMaximumPacketSize.toNat = 0 ∧
        ch.pendingData = [] ∧ Sendable ch.recipientWindowSize.toNat buf 0 := by
    intro ext packet buf
    have hstep : enc.sendChunks ch (packet ch) buf 0 = .error .diverge ↔ _ :=
      sendChunks_diverges_iff
    unfold Encrypted.submit
    simp only [hch, if_pos hconfirmed]
    by_cases hempty : ch.pendingData = []
    · rw [if_pos hempty]
      cases hrun : enc.sendChunks ch (packet ch) buf 0 with
      | error e =>
        rw [hrun, Except.error.injEq] at hstep
        simp only [bind, Except.bind, hempty, true_and, Except.error.injEq]
        exact hstep
      | ok res =>
        rw [hrun] at hstep
        simp only [bind, Except.bind, hempty, true_and]
        rw [← hstep]
        constructor
        · intro h
          cases h
        · intro h
          cases h
    · rw [if_neg hempty]
      constructor
      · intro h
        cases h
      · exact fun h => absurd h.2.1 hempty
  have hiff : enc.channelOp id op = .error .diverge ↔
      ch.recipientMaximumPacketSize.toNat = 0 ∧ op.Sends ch := by
    cases op with
    | data buf => exact hsubmit _ _ buf
    | extendedData ext buf => exact hsubmit _ _ buf
    | adjust amount =>
      simp only [Encrypted.channelOp, hch, ChannelOp.Sends, and_false, iff_false]
      unfold Channel.addWindow
      split
      · intro h
        cases h
      · intro h
        cases h
    | flushPending =>
      have hloop := flushPendingLoop_diverges_iff ch.pendingData enc ch 0
      simp only [Encrypted.channelOp, Encrypted.flushPending, hch, ChannelOp.Sends]
      rw [← hloop]
      cases flushPendingLoop ch.pendingData enc ch 0 with
      | error e => simp only [bind, Except.bind, Except.error.injEq]
      | ok res =>
        constructor
        · intro h
          cases h
        · intro h
          cases h
  rw [ne_eq, hiff, not_and_or, Nat.pos_iff_ne_zero]

end

/-- A channel whose peer takes packets of 100 bytes. -/
theorem channelOp_ends_room :
    letI := Concrete.deps
    (Concrete.withChannel 100).channelOp 2 (.data [1, 2, 3]) ≠ .error .diverge := by
  let _ := Concrete.deps
  have hch : (Concrete.withChannel 100).channels 2 = some (Concrete.channel 100) := rfl
  exact (channelOp_ends_iff (.data [1, 2, 3]) hch rfl).mpr (.inl (by decide))

/-- With a maximum packet size of 0 the data are never sent, and the loop
never ends: it is not over after any number of repetitions. -/
theorem data_diverges :
    letI := Concrete.deps
    let ch : Channel := { Concrete.channel 100 with recipientMaximumPacketSize := 0 }
    let enc := (Concrete.encrypted .authenticated).setChannel 2 ch
    ch.confirmed = true ∧ enc.channelOp 2 (.data [1]) = .error .diverge ∧
      ∀ fuel, chunkLoop (dataPacket ch.recipientChannel) ch.recipientMaximumPacketSize.toNat fuel
        enc ch.recipientWindowSize [1] = .error .diverge := by
  let _ := Concrete.deps
  refine ⟨rfl, rfl, fun fuel => ?_⟩
  exact chunkLoop_stuck _ fuel _ _ 1 []

end Thrussh
