import Thrussh.Session

/-!
# The queue of packets

What the emitters of `Encrypted` do to `write`: each appends a list of
packets. Sending data cuts a buffer into chunks, one packet for each.
-/

namespace Thrussh

variable [Deps]

/-- `push_packet!` once for each body of a list. -/
def Encrypted.pushAll (enc : Encrypted) (bodies : List Bytes) : Encrypted :=
  bodies.foldl Encrypted.push enc

@[simp] theorem pushAll_emitted (enc : Encrypted) (bodies : List Bytes) :
    (enc.pushAll bodies).emitted = enc.emitted ++ bodies := by
  induction bodies generalizing enc with
  | nil => simp [Encrypted.pushAll]
  | cons body bodies ih =>
    have hstep : enc.pushAll (body :: bodies) = (enc.push body).pushAll bodies := rfl
    rw [hstep, ih]
    simp [Encrypted.push]

@[simp] theorem pushAll_channels (enc : Encrypted) (bodies : List Bytes) :
    (enc.pushAll bodies).channels = enc.channels := by
  induction bodies generalizing enc with
  | nil => rfl
  | cons body bodies ih => exact ih (enc.push body)

@[simp] theorem pushAll_deeds (enc : Encrypted) (bodies : List Bytes) :
    (enc.pushAll bodies).deeds = enc.deeds := by
  induction bodies generalizing enc with
  | nil => rfl
  | cons body bodies ih => exact ih (enc.push body)

@[simp] theorem note_channels (enc : Encrypted) (d : Deed) :
    (enc.note d).channels = enc.channels := rfl

@[simp] theorem note_emitted (enc : Encrypted) (d : Deed) : (enc.note d).emitted = enc.emitted := rfl

@[simp] theorem setChannel_emitted (enc : Encrypted) (id : UInt32) (ch : Channel) :
    (enc.setChannel id ch).emitted = enc.emitted := rfl

@[simp] theorem insertChannel_channels (enc : Encrypted) (id : UInt32) (ch : Channel) :
    (enc.insertChannel id ch).channels = Function.update enc.channels id (some ch) := rfl

@[simp] theorem queuedSince_pushAll (enc : Encrypted) (bodies : List Bytes) :
    (enc.pushAll bodies).queuedSince enc = bodies := by
  rw [Encrypted.queuedSince, pushAll_emitted, List.drop_left]

/-- The chunk loop cuts its buffer into packets and takes its length off the window. -/
theorem chunkLoop_ok {packet : Bytes → Bytes} {maxSize : Nat} (hmax : maxSize < 2 ^ 32)
    {fuel : Nat} {enc enc' : Encrypted} {window window' : UInt32} {buf : Bytes}
    (h : chunkLoop packet maxSize fuel enc window buf = .ok (enc', window')) :
    ∃ chunks : List Bytes, chunks.flatten = buf ∧
      (∀ c ∈ chunks, 0 < c.length ∧ c.length ≤ maxSize) ∧
      enc' = enc.pushAll (chunks.map packet) ∧ window'.toNat + buf.length = window.toNat := by
  induction fuel generalizing enc window buf with
  | zero =>
    cases buf with
    | nil =>
      simp only [chunkLoop, Except.ok.injEq, Prod.mk.injEq] at h
      obtain ⟨rfl, rfl⟩ := h
      exact ⟨[], rfl, by simp, rfl, by simp⟩
    | cons b buf => simp [chunkLoop] at h
  | succ fuel ih =>
    cases buf with
    | nil =>
      simp only [chunkLoop, Except.ok.injEq, Prod.mk.injEq] at h
      obtain ⟨rfl, rfl⟩ := h
      exact ⟨[], rfl, by simp, rfl, by simp⟩
    | cons b buf =>
      generalize hbuf : b :: buf = whole at h
      set off := min whole.length maxSize with hoff
      have hoffNat : (UInt32.ofNat off).toNat = off := by
        rw [UInt32.toNat_ofNat']
        omega
      rw [← hbuf] at h
      simp only [chunkLoop] at h
      rw [hbuf, ← hoff] at h
      by_cases hfits : UInt32.ofNat off ≤ window
      · rw [if_pos hfits] at h
        obtain ⟨chunks, hflat, hlen, henc, hwindow⟩ := ih h
        have hle : off ≤ window.toNat := by
          rw [← hoffNat]
          exact UInt32.le_iff_toNat_le.mp hfits
        have hsub : (window - UInt32.ofNat off).toNat = window.toNat - off := by
          rw [UInt32.toNat_sub_of_le _ _ hfits, hoffNat]
        have hpositive : 0 < whole.length := by
          rw [← hbuf]
          exact Nat.succ_pos _
        -- without room in a packet the loop goes on with the same buffer
        have hroom : 0 < maxSize := by
          by_contra hzero
          have hoffZero : off = 0 := by omega
          rw [hoffZero, List.drop_zero] at hflat
          cases chunks with
          | nil =>
            rw [← hflat] at hpositive
            cases hpositive
          | cons c chunks =>
            obtain ⟨hc, hcmax⟩ := hlen c List.mem_cons_self
            omega
        refine ⟨whole.take off :: chunks, ?_, ?_, ?_, ?_⟩
        · rw [List.flatten_cons, hflat, List.take_append_drop]
        · intro c hc
          rcases List.mem_cons.mp hc with rfl | hc
          · rw [List.length_take]
            omega
          · exact hlen c hc
        · exact henc
        · rw [hsub, List.length_drop] at hwindow
          omega
      · rw [if_neg hfits] at h
        cases h

/-- A chunk loop with room for progress fails only when the window underflows. -/
theorem chunkLoop_error {packet : Bytes → Bytes} {maxSize : Nat} (hmax : 0 < maxSize)
    {fuel : Nat} {enc : Encrypted} {window : UInt32} {buf : Bytes} (hfuel : buf.length ≤ fuel)
    {e : Fault} (h : chunkLoop packet maxSize fuel enc window buf = .error e) : e = .overflow := by
  induction fuel generalizing enc window buf with
  | zero =>
    have hnil : buf = [] := List.length_eq_zero_iff.mp (Nat.le_zero.mp hfuel)
    rw [hnil] at h
    cases h
  | succ fuel ih =>
    cases buf with
    | nil => cases h
    | cons b buf =>
      simp only [chunkLoop] at h
      split at h
      · refine ih ?_ h
        rw [List.length_drop]
        simp only [List.length_cons] at hfuel ⊢
        omega
      · cases h
        rfl

/-- A chunk loop with room for progress succeeds on a buffer that the window has room for. -/
theorem chunkLoop_fits (packet : Bytes → Bytes) {maxSize : Nat} (hmax : 0 < maxSize)
    (hmaxlt : maxSize < 2 ^ 32) (enc : Encrypted) {fuel : Nat} {window : UInt32} {buf : Bytes}
    (hfuel : buf.length ≤ fuel) (hwindow : buf.length ≤ window.toNat) :
    ∃ res, chunkLoop packet maxSize fuel enc window buf = .ok res := by
  induction fuel generalizing enc window buf with
  | zero =>
    rw [List.length_eq_zero_iff.mp (Nat.le_zero.mp hfuel)]
    exact ⟨_, rfl⟩
  | succ fuel ih =>
    cases buf with
    | nil => exact ⟨_, rfl⟩
    | cons b buf =>
      set off := min (b :: buf).length maxSize with hoff
      have hoffNat : (UInt32.ofNat off).toNat = off := by
        rw [UInt32.toNat_ofNat']
        omega
      have hpositive : 0 < (b :: buf).length := by simp
      have hfits : UInt32.ofNat off ≤ window := by
        rw [UInt32.le_iff_toNat_le, hoffNat]
        omega
      simp only [chunkLoop, ← hoff, if_pos hfits]
      refine ih _ ?_ ?_
      · rw [List.length_drop]
        omega
      · rw [List.length_drop, UInt32.toNat_sub_of_le _ _ hfits, hoffNat]
        omega

/-- Sending part of a buffer pushes packets and takes their payload from the window. -/
theorem sendChunks_pushes {enc enc' : Encrypted} {ch ch' : Channel} {packet : Bytes → Bytes}
    {buf : Bytes} {start sent : Nat}
    (h : enc.sendChunks ch packet buf start = .ok (enc', ch', sent)) :
    ch' = { ch with recipientWindowSize := ch'.recipientWindowSize } ∧
      ∃ chunks : List Bytes, enc' = enc.pushAll (chunks.map packet) ∧
        (∀ c ∈ chunks, c.length < 2 ^ 32) ∧
        ch'.recipientWindowSize.toNat + chunks.flatten.length = ch.recipientWindowSize.toNat := by
  unfold Encrypted.sendChunks at h
  cases hslice : windowSlice ch.recipientWindowSize buf start with
  | error e => rw [hslice] at h; cases h
  | ok part =>
    rw [hslice] at h
    simp only [bind, Except.bind] at h
    cases hloop : chunkLoop packet ch.recipientMaximumPacketSize.toNat part.length enc
        ch.recipientWindowSize part with
    | error e => rw [hloop] at h; cases h
    | ok res =>
      obtain ⟨enc1, window⟩ := res
      rw [hloop] at h
      simp only [Except.ok.injEq, Prod.mk.injEq] at h
      obtain ⟨rfl, rfl, rfl⟩ := h
      have hmax := ch.recipientMaximumPacketSize.toNat_lt
      obtain ⟨chunks, hflat, hlen, henc, hwindow⟩ := chunkLoop_ok hmax hloop
      refine ⟨rfl, chunks, henc, fun c hc => Nat.lt_of_le_of_lt (hlen c hc).2 hmax, ?_⟩
      rw [hflat]
      exact hwindow

/-- Flushing the queue of a channel pushes CHANNEL_DATA packets for it, and
keeps of the queue only buffers that were in it. -/
theorem flushPendingLoop_pushes {pending : Pending}
    {enc enc' : Encrypted} {ch ch' : Channel} {total total' : Nat}
    (h : flushPendingLoop pending enc ch total = .ok (enc', ch', total')) :
    ch' = { ch with
      recipientWindowSize := ch'.recipientWindowSize, pendingData := ch'.pendingData } ∧
    (∀ entry ∈ ch'.pendingData, ∃ entry' ∈ pending, entry.1 = entry'.1) ∧
    ∃ chunks : List Bytes, enc' = enc.pushAll (chunks.map (dataPacket ch.recipientChannel)) ∧
      (∀ c ∈ chunks, c.length < 2 ^ 32) ∧
      ch'.recipientWindowSize.toNat + chunks.flatten.length = ch.recipientWindowSize.toNat := by
  induction pending generalizing enc ch total with
  | nil =>
    simp only [flushPendingLoop, Except.ok.injEq, Prod.mk.injEq] at h
    obtain ⟨rfl, rfl, rfl⟩ := h
    exact ⟨rfl, by simp, [], rfl, by simp, by simp⟩
  | cons entry rest ih =>
    obtain ⟨buf, a, size⟩ := entry
    simp only [flushPendingLoop, bind, Except.bind] at h
    cases hsend : enc.dataNoqueue ch buf size with
    | error e => rw [hsend] at h; cases h
    | ok res =>
      obtain ⟨enc1, ch1, sent⟩ := res
      rw [hsend] at h
      obtain ⟨hch, chunks, henc, hlen, hwindow⟩ := sendChunks_pushes hsend
      by_cases hlt : sent < buf.length
      · simp only [if_pos hlt, Except.ok.injEq, Prod.mk.injEq] at h
        obtain ⟨rfl, rfl, -⟩ := h
        refine ⟨by rw [hch], fun entry hentry => ?_, chunks, henc, hlen, hwindow⟩
        rcases List.mem_cons.mp hentry with rfl | hrest
        · exact ⟨_, List.mem_cons_self, rfl⟩
        · exact ⟨entry, List.mem_cons_of_mem _ hrest, rfl⟩
      · simp only [if_neg hlt] at h
        obtain ⟨hch', hpending, more, hmore, hmorelen, hmorewindow⟩ := ih h
        have hrecipient : ch1.recipientChannel = ch.recipientChannel := by rw [hch]
        refine ⟨by rw [hch', hch], fun entry hentry => ?_, chunks ++ more, ?_, ?_, ?_⟩
        · obtain ⟨entry', hmem, heq⟩ := hpending entry hentry
          exact ⟨entry', List.mem_cons_of_mem _ hmem, heq⟩
        · rw [hmore, henc, hrecipient, List.map_append]
          exact List.foldl_append.symm
        · intro c hc
          exact (List.mem_append.mp hc).elim (hlen c) (hmorelen c)
        · rw [List.flatten_append, List.length_append]
          omega

/-- What data on a channel come to: packets, what of it changes in the entry, and the deed. -/
inductive Transmits (packet : Channel → Bytes → Bytes) (deed : UInt32 → List Bytes → Deed)
    (id : UInt32) (enc : Encrypted) : Encrypted → Prop where
  /-- Without an entry, nothing. -/
  | unknown (h : enc.channels id = none) : Transmits packet deed id enc enc
  /-- With an entry, its window and what is pending. -/
  | known {ch : Channel} {window : UInt32} {pending : Pending}
    {l : List Bytes} (hch : enc.channels id = some ch) :
    Transmits packet deed id enc (((enc.pushAll (l.map (packet ch))).setChannel id
      { ch with recipientWindowSize := window, pendingData := pending }).note
        (deed id (l.map (packet ch))))

/-- Submitting data transmits. -/
theorem submit_transmits {enc enc' : Encrypted} {id : UInt32} {ext : Option UInt32}
    {packet : Channel → Bytes → Bytes} {buf0 : Bytes}
    (h : enc.submit id ext packet buf0 = .ok enc') : Transmits packet .data id enc enc' := by
  unfold Encrypted.submit at h
  cases hch : enc.channels id with
  | none =>
    rw [hch] at h
    cases h
    exact .unknown hch
  | some ch =>
    rw [hch] at h
    dsimp only at h
    by_cases hconfirmed : ch.confirmed = true
    · rw [if_pos hconfirmed] at h
      by_cases hpending : ch.pendingData = []
      · simp only [if_pos hpending, bind, Except.bind] at h
        cases hsend : enc.sendChunks ch (packet ch) buf0 0 with
        | error e => rw [hsend] at h; cases h
        | ok res =>
          obtain ⟨enc1, ch1, sent⟩ := res
          obtain ⟨hch1, chunks, hpushed, -, -⟩ := sendChunks_pushes hsend
          rw [hsend] at h
          cases h
          rw [hpushed, queuedSince_pushAll]
          split
          · rw [hch1]
            exact .known hch
          · rw [hch1]
            exact .known hch
      · rw [if_neg hpending] at h
        cases h
        exact .known (l := []) hch
    · rw [if_neg hconfirmed] at h
      cases h

/-- What the loop sends of what is pending is noted. -/
theorem flushPending_of_loop {enc : Encrypted} {id : UInt32} {ch ch' : Channel} {l : List Bytes}
    {total : Nat} (hch : enc.channels id = some ch)
    (h : flushPendingLoop ch.pendingData enc ch 0 = .ok (enc.pushAll l, ch', total)) :
    enc.flushPending id =
      .ok (((enc.pushAll l).setChannel id ch').note (.flushPending id l), total) := by
  simp only [Encrypted.flushPending, hch, h, bind, Except.bind, queuedSince_pushAll]

/-- Sending what is pending transmits. -/
theorem flushPending_transmits {enc enc' : Encrypted} {id : UInt32} {total : Nat}
    (h : enc.flushPending id = .ok (enc', total)) :
    Transmits (fun ch => dataPacket ch.recipientChannel) .flushPending id enc enc' := by
  unfold Encrypted.flushPending at h
  cases hch : enc.channels id with
  | none =>
    rw [hch] at h
    cases h
    exact .unknown hch
  | some ch =>
    rw [hch] at h
    simp only [bind, Except.bind] at h
    cases hloop : flushPendingLoop ch.pendingData enc ch 0 with
    | error e => rw [hloop] at h; cases h
    | ok res =>
      obtain ⟨enc1, ch1, total1⟩ := res
      obtain ⟨hch1, -, chunks, hpushed, -, -⟩ := flushPendingLoop_pushes hloop
      rw [hloop] at h
      cases h
      rw [hpushed, queuedSince_pushAll, hch1]
      exact .known hch

/-- What is left of a window when data have come. -/
def windowLeft (window : UInt32) (d : Bytes) : UInt32 :=
  if UInt32.ofNat d.length ≤ window then window - UInt32.ofNat d.length else window

/-- What data that come on a channel come to: its window, and what is granted anew. -/
inductive Receives (target id : UInt32) (d : Bytes) (enc : Encrypted) : Encrypted → Prop where
  /-- Without an entry, nothing. -/
  | unknown (h : enc.channels id = none) : Receives target id d enc enc
  /-- The window is large enough. -/
  | kept {ch : Channel} (hch : enc.channels id = some ch)
    (hlarge : ¬ windowLeft ch.senderWindowSize d < target / 2) :
    Receives target id d enc
      (enc.setChannel id { ch with senderWindowSize := windowLeft ch.senderWindowSize d })
  /-- The window is granted anew. -/
  | granted {ch : Channel} (hch : enc.channels id = some ch)
    (hsmall : windowLeft ch.senderWindowSize d < target / 2) :
    Receives target id d enc ((enc.push (msg.CHANNEL_WINDOW_ADJUST :: be32 ch.recipientChannel ++
      be32 (target - windowLeft ch.senderWindowSize d))).setChannel id
        { ch with senderWindowSize := target })

/-- `adjust_window_size` receives. -/
theorem adjustWindowSize_receives (enc : Encrypted) (id : UInt32) (d : Bytes) (target : UInt32) :
    Receives target id d enc (enc.adjustWindowSize id d target).1 := by
  unfold Encrypted.adjustWindowSize
  cases hch : enc.channels id with
  | none => exact .unknown hch
  | some ch =>
    have hleft : (if UInt32.ofNat d.length ≤ ch.senderWindowSize then
        { ch with senderWindowSize := ch.senderWindowSize - UInt32.ofNat d.length }
      else ch) = { ch with senderWindowSize := windowLeft ch.senderWindowSize d } := by
      unfold windowLeft
      split <;> rfl
    dsimp only
    rw [hleft]
    by_cases hsmall : windowLeft ch.senderWindowSize d < target / 2
    · rw [if_pos hsmall]
      exact .granted hch hsmall
    · rw [if_neg hsmall]
      exact .kept hch hsmall

/-- `adjust_recipient_window` adds to the window of an entry. -/
theorem adjustRecipientWindow_ok {enc enc' : Encrypted} {id amount newSize : UInt32}
    (h : enc.adjustRecipientWindow id amount = .ok (newSize, enc')) :
    ∃ ch, enc.channels id = some ch ∧ newSize = ch.recipientWindowSize + amount ∧
      enc' = enc.setChannel id { ch with recipientWindowSize := newSize } := by
  unfold Encrypted.adjustRecipientWindow at h
  cases hch : enc.channels id with
  | none =>
    rw [hch] at h
    cases h
  | some ch =>
    rw [hch] at h
    obtain ⟨ch', hadd, hrest⟩ := Lib.ok_of_bind h
    unfold Channel.addWindow at hadd
    split at hadd
    · cases hadd
      cases hrest
      exact ⟨ch, rfl, rfl, rfl⟩
    · cases hadd

end Thrussh
