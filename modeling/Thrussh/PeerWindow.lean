import Thrussh.Window

/-!
# The window of the peer, as a number

`recipient_window_size` is taken off by every chunk that is sent and added to
by every CHANNEL_WINDOW_ADJUST. What an operation needs in order neither to
panic nor to wrap is a condition on the state before it; then the window is
exactly what the peer has granted less what was sent, and every packet
carries at least one byte and at most as many as the peer takes.
-/

namespace Thrussh

section
variable [Deps]

/-- Where the part of a buffer that a window allows ends, as the code finds
it: the length of the buffer is compared as a `u32`. -/
def partEnd (window : Nat) (buf : Bytes) : Nat :=
  if window < buf.length % 2 ^ 32 then window else buf.length

/-- What sending the part from an offset on needs: the offset lies before its
end, the window has room for it, and a packet has room for something. -/
def PartFits (window maxSize : Nat) (buf : Bytes) (start : Nat) : Prop :=
  start ≤ partEnd window buf ∧ partEnd window buf - start ≤ window ∧
    (start < partEnd window buf → 0 < maxSize)

instance (window maxSize : Nat) (buf : Bytes) (start : Nat) :
    Decidable (PartFits window maxSize buf start) :=
  inferInstanceAs (Decidable (_ ∧ _ ∧ (_ → _)))

/-- What flushing a queue needs: the same of every buffer that it gets to. -/
def QueueFits (maxSize : Nat) : List (Bytes × Option UInt32 × Nat) → Nat → Prop
  | [], _ => True
  | (buf, _, start) :: rest, window =>
    PartFits window maxSize buf start ∧
      (buf.length ≤ partEnd window buf - start →
        QueueFits maxSize rest (window - (partEnd window buf - start)))

instance QueueFits.decidable (maxSize : Nat) :
    (queue : List (Bytes × Option UInt32 × Nat)) → (window : Nat) →
      Decidable (QueueFits maxSize queue window)
  | [], _ => isTrue trivial
  | (buf, _, start) :: rest, window =>
    have := QueueFits.decidable maxSize rest (window - (partEnd window buf - start))
    inferInstanceAs (Decidable (_ ∧ (_ → _)))

/-- What an operation needs, in the state before it. -/
def Encrypted.Fits (enc : Encrypted) (id : UInt32) : ChannelOp → Prop
  | .data buf => ∀ ch, enc.channels id = some ch → ch.confirmed = true ∧ (ch.pendingData = [] →
      PartFits ch.recipientWindowSize.toNat ch.recipientMaximumPacketSize.toNat buf 0)
  | .extendedData _ buf => ∀ ch, enc.channels id = some ch → ch.confirmed = true ∧
      (ch.pendingData = [] →
        PartFits ch.recipientWindowSize.toNat ch.recipientMaximumPacketSize.toNat buf 0)
  | .adjust amount => ∀ ch, enc.channels id = some ch →
      ch.recipientWindowSize.toNat + amount.toNat < 2 ^ 32
  | .flushPending => ∀ ch, enc.channels id = some ch →
      QueueFits ch.recipientMaximumPacketSize.toNat ch.pendingData ch.recipientWindowSize.toNat

/-- Every operation of a sequence starts in a state that has what it needs. -/
def Encrypted.AllFit (enc : Encrypted) (id : UInt32) : List ChannelOp → Prop
  | [] => True
  | op :: ops => enc.Fits id op ∧
      match enc.channelOp id op with
      | .ok enc' => enc'.AllFit id ops
      | .error _ => True

/-- What the peer grants by an operation. -/
def ChannelOp.adjusted : ChannelOp → Nat
  | .adjust amount => amount.toNat
  | _ => 0

/-- A packet of data for a channel number whose payload is not empty and fits
the peer's packets. -/
def Sized (recipient maxSize : UInt32) (packet : Bytes) : Prop :=
  ∃ stream payload, readData recipient packet = some (stream, payload) ∧
    1 ≤ payload.length ∧ payload.length ≤ maxSize.toNat

/-- A channel as it was but for its window and its queue, what has been sent
on it since, and the window as the number that it should be. -/
structure Exact (start enc : Encrypted) (id : UInt32) (ch ch' : Channel) (sent : List Bytes)
    (adjusted : Nat) : Prop where
  /-- The channel afterwards. -/
  channel : enc.channels id = some ch'
  /-- What changes of the channel. -/
  same : ch' = { ch with
    recipientWindowSize := ch'.recipientWindowSize, pendingData := ch'.pendingData }
  /-- What is sent. -/
  emitted : enc.emitted = start.emitted ++ sent
  /-- The packets are of a size that the peer takes. -/
  sized : ∀ p ∈ sent, Sized ch.recipientChannel ch.recipientMaximumPacketSize p
  /-- Their payload is taken off the window, and what the peer grants is added. -/
  window : ch'.recipientWindowSize.toNat + carried ch.recipientChannel sent =
    ch.recipientWindowSize.toNat + adjusted

/-- A sequence of operations that stops at a CHANNEL_WINDOW_ADJUST that would
take the window above what a `u32` holds. -/
def Encrypted.Refuses (enc : Encrypted) (id : UInt32) (ops : List ChannelOp) : Prop :=
  ∃ before amount after enc' ch, ops = before ++ .adjust amount :: after ∧
    enc.channelOps id before = .ok enc' ∧ enc'.channels id = some ch ∧
    2 ^ 32 ≤ ch.recipientWindowSize.toNat + amount.toNat

/-- A sequence of operations on a channel is processed: nothing panics, wraps
or goes on for ever, the account is exact, and an error is the refusal of a
CHANNEL_WINDOW_ADJUST. -/
def Encrypted.Processes (enc : Encrypted) (id : UInt32) (ch : Channel) (ops : List ChannelOp) :
    Prop :=
  match enc.channelOps id ops with
  | .ok enc' => ∃ ch' sent, Exact enc enc' id ch ch' sent (ops.map ChannelOp.adjusted).sum
  | .error (.error _) => enc.Refuses id ops
  | .error _ => False

/-- A fault that is not an error the code returns. -/
def Fault.Crash : Fault → Prop
  | .error _ => False
  | _ => True

/-! ### One buffer -/

omit [Deps] in
/-- The part of a buffer, if its offset lies before its end. -/
theorem windowSlice_eq (window : UInt32) (buf : Bytes) (start : Nat) :
    windowSlice window buf start =
      if start ≤ partEnd window.toNat buf then
        .ok ((buf.take (partEnd window.toNat buf)).drop start)
      else .error .panic := by
  have hlength : (UInt32.ofNat buf.length).toNat = buf.length % 2 ^ 32 := UInt32.toNat_ofNat'
  have hcompare : UInt32.ofNat buf.length > window ↔ window.toNat < buf.length % 2 ^ 32 := by
    rw [gt_iff_lt, UInt32.lt_iff_toNat_lt, hlength]
  have hmod := Nat.mod_le buf.length (2 ^ 32)
  have hend : partEnd window.toNat buf ≤ buf.length := by
    unfold partEnd
    split
    · omega
    · omega
  have hslice : windowSlice window buf start = slice buf start (partEnd window.toNat buf) := by
    unfold windowSlice partEnd
    by_cases h : window.toNat < buf.length % 2 ^ 32
    · rw [if_pos (hcompare.mpr h), if_pos h]
    · rw [if_neg fun hgt => h (hcompare.mp hgt), if_neg h]
  rw [hslice, slice]
  by_cases h : start ≤ partEnd window.toNat buf
  · rw [if_pos ⟨h, hend⟩, if_pos h]
  · rw [if_neg fun hboth => h hboth.1, if_neg h]

omit [Deps] in
theorem partEnd_le (window : Nat) (buf : Bytes) : partEnd window buf ≤ buf.length := by
  have hmod := Nat.mod_le buf.length (2 ^ 32)
  unfold partEnd
  split
  · omega
  · omega

/-- A part that fits is sent, in chunks that the peer takes. -/
theorem sendChunks_fits (enc : Encrypted) {ch : Channel} {buf : Bytes} {start : Nat}
    (packet : Bytes → Bytes) (h : PartFits ch.recipientWindowSize.toNat
      ch.recipientMaximumPacketSize.toNat buf start) :
    ∃ (window : UInt32) (chunks : List Bytes),
      enc.sendChunks ch packet buf start = .ok (enc.pushAll (chunks.map packet),
        { ch with recipientWindowSize := window },
        partEnd ch.recipientWindowSize.toNat buf - start) ∧
      (∀ c ∈ chunks, 1 ≤ c.length ∧ c.length ≤ ch.recipientMaximumPacketSize.toNat) ∧
      chunks.flatten.length = partEnd ch.recipientWindowSize.toNat buf - start ∧
      window.toNat + chunks.flatten.length = ch.recipientWindowSize.toNat := by
  obtain ⟨hstart, hroom, hmax⟩ := h
  have hmaxlt := ch.recipientMaximumPacketSize.toNat_lt
  have hend := partEnd_le ch.recipientWindowSize.toNat buf
  set part := (buf.take (partEnd ch.recipientWindowSize.toNat buf)).drop start with hpart
  have hlength : part.length = partEnd ch.recipientWindowSize.toNat buf - start := by
    rw [hpart, List.length_drop, List.length_take]
    omega
  have hloop : ∃ res, chunkLoop packet ch.recipientMaximumPacketSize.toNat part.length enc
      ch.recipientWindowSize part = .ok res := by
    by_cases hsome : start < partEnd ch.recipientWindowSize.toNat buf
    · exact chunkLoop_fits packet (hmax hsome) hmaxlt enc (Nat.le_refl _) (by omega)
    · have hnil : part = [] := List.length_eq_zero_iff.mp (by omega)
      rw [hnil]
      exact ⟨_, rfl⟩
  obtain ⟨⟨enc', window⟩, hrun⟩ := hloop
  obtain ⟨chunks, hflat, hsizes, henc, hwindow⟩ := chunkLoop_ok hmaxlt hrun
  refine ⟨window, chunks, ?_, hsizes, by rw [hflat, hlength], by rw [hflat, hwindow]⟩
  simp only [Encrypted.sendChunks, windowSlice_eq, if_pos hstart, ← hpart, bind, Except.bind, hrun]
  rw [henc, hlength]

/-- A chunk loop returns no error. -/
theorem chunkLoop_crash {packet : Bytes → Bytes} {maxSize fuel : Nat} {enc : Encrypted}
    {window : UInt32} {buf : Bytes} {e : Fault}
    (h : chunkLoop packet maxSize fuel enc window buf = .error e) : e.Crash := by
  induction fuel generalizing enc window buf with
  | zero =>
    cases buf with
    | nil => cases h
    | cons b buf =>
      cases h
      trivial
  | succ fuel ih =>
    cases buf with
    | nil => cases h
    | cons b buf =>
      simp only [chunkLoop] at h
      split at h
      · exact ih h
      · cases h
        trivial

/-- A part that does not fit is a crash. -/
theorem sendChunks_crashes (enc : Encrypted) {ch : Channel} {buf : Bytes} {start : Nat}
    (packet : Bytes → Bytes) (h : ¬ PartFits ch.recipientWindowSize.toNat
      ch.recipientMaximumPacketSize.toNat buf start) :
    ∃ e : Fault, e.Crash ∧ enc.sendChunks ch packet buf start = .error e := by
  have hend := partEnd_le ch.recipientWindowSize.toNat buf
  by_cases hstart : start ≤ partEnd ch.recipientWindowSize.toNat buf
  · set part := (buf.take (partEnd ch.recipientWindowSize.toNat buf)).drop start with hpart
    have hlength : part.length = partEnd ch.recipientWindowSize.toNat buf - start := by
      rw [hpart, List.length_drop, List.length_take]
      omega
    cases hrun : chunkLoop packet ch.recipientMaximumPacketSize.toNat part.length enc
        ch.recipientWindowSize part with
    | error e =>
      refine ⟨e, chunkLoop_crash hrun, ?_⟩
      simp only [Encrypted.sendChunks, windowSlice_eq, if_pos hstart, ← hpart, bind, Except.bind,
        hrun]
    | ok res =>
      -- a loop that ends has had room for all of it
      obtain ⟨chunks, hflat, hsizes, -, hwindow⟩ :=
        chunkLoop_ok ch.recipientMaximumPacketSize.toNat_lt hrun
      refine absurd ⟨hstart, by omega, fun hsome => ?_⟩ h
      cases chunks with
      | nil =>
        have hnil := congrArg List.length hflat
        rw [List.flatten_nil, List.length_nil] at hnil
        omega
      | cons c chunks =>
        obtain ⟨hc, hcmax⟩ := hsizes c List.mem_cons_self
        omega
  · refine ⟨.panic, trivial, ?_⟩
    simp only [Encrypted.sendChunks, windowSlice_eq, if_neg hstart, bind, Except.bind]

/-! ### One operation -/

omit [Deps] in
/-- Chunks that the peer takes make packets that it takes. -/
theorem sized_map {recipient maxSize : UInt32} {stream : Option UInt32} {packet : Bytes → Bytes}
    (hread : ∀ data : Bytes, data.length < 2 ^ 32 →
      readData recipient (packet data) = some (stream, data)) {chunks : List Bytes}
    (hsizes : ∀ c ∈ chunks, 1 ≤ c.length ∧ c.length ≤ maxSize.toNat) :
    (∀ p ∈ chunks.map packet, Sized recipient maxSize p) ∧
      carried recipient (chunks.map packet) = chunks.flatten.length := by
  have hmaxlt := maxSize.toNat_lt
  induction chunks with
  | nil => simp
  | cons c chunks ih =>
    obtain ⟨hc, hcmax⟩ := hsizes c List.mem_cons_self
    obtain ⟨htail, hsum⟩ := ih fun d hd => hsizes d (List.mem_cons_of_mem c hd)
    have hfirst := hread c (by omega)
    have hone : carried recipient [packet c] = c.length := by simp [carried, hfirst]
    constructor
    · intro p hp
      rcases List.mem_cons.mp hp with rfl | hp
      · exact ⟨stream, c, hfirst, hc, hcmax⟩
      · exact htail p hp
    · rw [List.map_cons, carried_cons, hone, hsum, List.flatten_cons, List.length_append]

/-- Flushing a queue that fits sends packets that the peer takes. -/
theorem flushPendingLoop_fits {pending : List (Bytes × Option UInt32 × Nat)} (enc : Encrypted)
    (ch : Channel) (total : Nat) (h : QueueFits ch.recipientMaximumPacketSize.toNat pending
      ch.recipientWindowSize.toNat) :
    ∃ (ch' : Channel) (chunks : List Bytes) (total' : Nat),
      flushPendingLoop pending enc ch total =
        .ok (enc.pushAll (chunks.map (dataPacket ch.recipientChannel)), ch', total') ∧
      ch' = { ch with
        recipientWindowSize := ch'.recipientWindowSize, pendingData := ch'.pendingData } ∧
      (∀ c ∈ chunks, 1 ≤ c.length ∧ c.length ≤ ch.recipientMaximumPacketSize.toNat) ∧
      ch'.recipientWindowSize.toNat + chunks.flatten.length = ch.recipientWindowSize.toNat := by
  induction pending generalizing enc ch total with
  | nil => exact ⟨_, [], total, rfl, rfl, by simp, by simp⟩
  | cons entry rest ih =>
    obtain ⟨buf, a, start⟩ := entry
    obtain ⟨hpart, hrest⟩ := h
    obtain ⟨window, chunks, hsend, hsizes, hlength, hwindow⟩ :=
      sendChunks_fits enc (dataPacket ch.recipientChannel) hpart
    simp only [flushPendingLoop, Encrypted.dataNoqueue, hsend, bind, Except.bind]
    by_cases hlt : partEnd ch.recipientWindowSize.toNat buf - start < buf.length
    · rw [if_pos hlt]
      exact ⟨_, chunks, _, rfl, rfl, hsizes, hwindow⟩
    · have hleft : window.toNat = ch.recipientWindowSize.toNat -
          (partEnd ch.recipientWindowSize.toNat buf - start) := by omega
      have hqueue : QueueFits ch.recipientMaximumPacketSize.toNat rest window.toNat := by
        rw [hleft]
        exact hrest (by omega)
      obtain ⟨ch', more, total', hloop, hsame, hmore, hmorewindow⟩ :=
        ih (enc.pushAll (chunks.map (dataPacket ch.recipientChannel)))
          { ch with recipientWindowSize := window }
          (total + (partEnd ch.recipientWindowSize.toNat buf - start)) hqueue
      rw [if_neg hlt, hloop]
      refine ⟨ch', chunks ++ more, total', ?_, hsame, fun c hc => ?_, ?_⟩
      · rw [List.map_append]
        simp only [Encrypted.pushAll, List.foldl_append]
      · exact (List.mem_append.mp hc).elim (hsizes c) (hmore c)
      · rw [List.flatten_append, List.length_append]
        simp only at hmorewindow
        omega

/-- Flushing a queue that does not fit is a crash. -/
theorem flushPendingLoop_crashes {pending : List (Bytes × Option UInt32 × Nat)} (enc : Encrypted)
    (ch : Channel) (total : Nat) (h : ¬ QueueFits ch.recipientMaximumPacketSize.toNat pending
      ch.recipientWindowSize.toNat) :
    ∃ e : Fault, e.Crash ∧ flushPendingLoop pending enc ch total = .error e := by
  induction pending generalizing enc ch total with
  | nil => exact absurd trivial h
  | cons entry rest ih =>
    obtain ⟨buf, a, start⟩ := entry
    by_cases hpart : PartFits ch.recipientWindowSize.toNat ch.recipientMaximumPacketSize.toNat buf
        start
    · obtain ⟨window, chunks, hsend, hsizes, hlength, hwindow⟩ :=
        sendChunks_fits enc (dataPacket ch.recipientChannel) hpart
      have hleft : window.toNat = ch.recipientWindowSize.toNat -
          (partEnd ch.recipientWindowSize.toNat buf - start) := by omega
      have hall : ¬ partEnd ch.recipientWindowSize.toNat buf - start < buf.length :=
        fun hlt => h ⟨hpart, fun hle => absurd hlt (by omega)⟩
      have hqueue : ¬ QueueFits ch.recipientMaximumPacketSize.toNat rest window.toNat := by
        rw [hleft]
        exact fun hrest => h ⟨hpart, fun _ => hrest⟩
      simp only [flushPendingLoop, Encrypted.dataNoqueue, hsend, bind, Except.bind, if_neg hall]
      exact ih _ _ _ hqueue
    · obtain ⟨e, hcrash, hsend⟩ :=
        sendChunks_crashes enc (dataPacket ch.recipientChannel) hpart
      refine ⟨e, hcrash, ?_⟩
      simp only [flushPendingLoop, Encrypted.dataNoqueue, hsend, bind, Except.bind]

/-- A submission that fits sends packets that the peer takes. -/
theorem submit_fits {enc : Encrypted} {id : UInt32} {ch : Channel} {ext : Option UInt32}
    {packet : Channel → Bytes → Bytes} {buf : Bytes} (hch : enc.channels id = some ch)
    (hread : ∀ data : Bytes, data.length < 2 ^ 32 →
      readData ch.recipientChannel (packet ch data) = some (ext, data))
    (hconfirmed : ch.confirmed = true)
    (hfits : ch.pendingData = [] →
      PartFits ch.recipientWindowSize.toNat ch.recipientMaximumPacketSize.toNat buf 0) :
    ∃ enc' ch' sent, enc.submit id ext packet buf = .ok enc' ∧ Exact enc enc' id ch ch' sent 0 := by
  unfold Encrypted.submit
  rw [hch]
  simp only [if_pos hconfirmed]
  by_cases hempty : ch.pendingData = []
  · obtain ⟨window, chunks, hsend, hsizes, hlength, hwindow⟩ :=
      sendChunks_fits enc (packet ch) (hfits hempty)
    obtain ⟨hsized, hcarried⟩ := sized_map hread hsizes
    simp only [if_pos hempty, hsend, bind, Except.bind]
    refine ⟨_, _, chunks.map (packet ch), rfl, Function.update_self .., ?_, ?_, hsized, ?_⟩
    · split
      · rfl
      · rfl
    · simp [Encrypted.setChannel]
    · rw [hcarried]
      split
      · exact hwindow
      · exact hwindow
  · simp only [if_neg hempty]
    exact ⟨_, _, [], rfl, Function.update_self .., rfl, by simp [Encrypted.setChannel], by simp, rfl⟩

/-- A submission that does not fit is a crash. -/
theorem submit_crashes {enc : Encrypted} {id : UInt32} {ch : Channel} {ext : Option UInt32}
    {packet : Channel → Bytes → Bytes} {buf : Bytes} (hch : enc.channels id = some ch)
    (h : ¬ (ch.confirmed = true ∧ (ch.pendingData = [] →
      PartFits ch.recipientWindowSize.toNat ch.recipientMaximumPacketSize.toNat buf 0))) :
    ∃ e : Fault, e.Crash ∧ enc.submit id ext packet buf = .error e := by
  unfold Encrypted.submit
  rw [hch]
  by_cases hconfirmed : ch.confirmed = true
  · have hempty : ch.pendingData = [] := by
      by_contra hnot
      exact h ⟨hconfirmed, fun hempty => absurd hempty hnot⟩
    have hpart : ¬ PartFits ch.recipientWindowSize.toNat ch.recipientMaximumPacketSize.toNat
        buf 0 := fun hfits => h ⟨hconfirmed, fun _ => hfits⟩
    obtain ⟨e, hcrash, hsend⟩ := sendChunks_crashes enc (packet ch) hpart
    refine ⟨e, hcrash, ?_⟩
    simp only [if_pos hconfirmed, if_pos hempty, hsend, bind, Except.bind]
  · exact ⟨.panic, trivial, if_neg hconfirmed⟩

/-- An operation that has what it needs keeps the account. -/
theorem channelOp_fits {enc : Encrypted} {id : UInt32} {ch : Channel} {op : ChannelOp}
    (hch : enc.channels id = some ch) (h : enc.Fits id op) :
    ∃ enc' ch' sent, enc.channelOp id op = .ok enc' ∧
      Exact enc enc' id ch ch' sent op.adjusted := by
  cases op with
  | data buf =>
    obtain ⟨hconfirmed, hfits⟩ := h ch hch
    exact submit_fits hch (fun _ hd => readData_dataPacket ch.recipientChannel hd) hconfirmed hfits
  | extendedData ext buf =>
    obtain ⟨hconfirmed, hfits⟩ := h ch hch
    exact submit_fits hch (fun _ hd => readData_extendedDataPacket ch.recipientChannel ext hd)
      hconfirmed hfits
  | adjust amount =>
    have hroom : ch.recipientWindowSize.toNat + amount.toNat < 2 ^ 32 := h ch hch
    have hsum : (ch.recipientWindowSize + amount).toNat =
        ch.recipientWindowSize.toNat + amount.toNat := by
      rw [UInt32.toNat_add, Nat.mod_eq_of_lt hroom]
    simp only [Encrypted.channelOp, hch, Channel.addWindow, if_pos hroom, bind, Except.bind]
    exact ⟨_, _, [], rfl, Function.update_self .., rfl, by simp [Encrypted.setChannel], by simp,
      hsum⟩
  | flushPending =>
    obtain ⟨ch', chunks, total, hloop, hsame, hsizes, hwindow⟩ :=
      flushPendingLoop_fits enc ch 0 (h ch hch)
    obtain ⟨hsized, hcarried⟩ := sized_map
      (fun _ hd => readData_dataPacket ch.recipientChannel hd) hsizes
    simp only [Encrypted.channelOp, Encrypted.flushPending, hch, hloop, bind, Except.bind]
    refine ⟨_, ch', _, rfl, Function.update_self .., hsame, ?_, hsized, ?_⟩
    · simp [Encrypted.setChannel]
    · rw [hcarried]
      exact hwindow

/-- An operation that has not what it needs is a crash. -/
theorem channelOp_crashes {enc : Encrypted} {id : UInt32} {ch : Channel} {op : ChannelOp}
    (hch : enc.channels id = some ch) (h : ¬ enc.Fits id op) :
    ∃ e : Fault, e.Crash ∧ enc.channelOp id op = .error e := by
  have hentry : ∀ {P : Channel → Prop}, P ch → ∀ ch', enc.channels id = some ch' → P ch' := by
    intro P hP ch' hch'
    obtain rfl : ch = ch' := Option.some.inj (hch.symm.trans hch')
    exact hP
  cases op with
  | data buf => exact submit_crashes hch fun hfits => h (hentry hfits)
  | extendedData ext buf => exact submit_crashes hch fun hfits => h (hentry hfits)
  | adjust amount =>
    have hroom : ¬ ch.recipientWindowSize.toNat + amount.toNat < 2 ^ 32 :=
      fun hroom => h (hentry hroom)
    refine ⟨.overflow, trivial, ?_⟩
    simp only [Encrypted.channelOp, hch, Channel.addWindow, if_neg hroom, bind, Except.bind]
  | flushPending =>
    obtain ⟨e, hcrash, hloop⟩ := flushPendingLoop_crashes enc ch 0 fun hqueue => h (hentry hqueue)
    refine ⟨e, hcrash, ?_⟩
    simp only [Encrypted.channelOp, Encrypted.flushPending, hch, hloop, bind, Except.bind]

/-! ### A run of operations -/

/-- Two accounts, one after the other. -/
theorem Exact.trans {start enc enc' : Encrypted} {id : UInt32} {ch ch' ch'' : Channel}
    {sent sent' : List Bytes} {adjusted adjusted' : Nat}
    (h : Exact start enc id ch ch' sent adjusted)
    (h' : Exact enc enc' id ch' ch'' sent' adjusted') :
    Exact start enc' id ch ch'' (sent ++ sent') (adjusted + adjusted') := by
  have hsame := h.same
  have hrecipient : ch'.recipientChannel = ch.recipientChannel := by rw [hsame]
  have hmax : ch'.recipientMaximumPacketSize = ch.recipientMaximumPacketSize := by rw [hsame]
  have hsized := h'.sized
  have hwindow := h.window
  have hwindow' := h'.window
  rw [hrecipient, hmax] at hsized
  rw [hrecipient] at hwindow'
  constructor
  · exact h'.channel
  · rw [h'.same, hsame]
  · rw [h'.emitted, h.emitted, List.append_assoc]
  · intro p hp
    exact (List.mem_append.mp hp).elim (h.sized p) (hsized p)
  · rw [carried_append]
    omega

/-- A run whose operations have what they need keeps the account. -/
theorem channelOps_fit {enc : Encrypted} {id : UInt32} {ch : Channel} {ops : List ChannelOp}
    (hch : enc.channels id = some ch) (h : enc.AllFit id ops) :
    ∃ enc' ch' sent, enc.channelOps id ops = .ok enc' ∧
      Exact enc enc' id ch ch' sent (ops.map ChannelOp.adjusted).sum := by
  induction ops generalizing enc ch with
  | nil => exact ⟨enc, ch, [], rfl, hch, rfl, by simp, by simp, rfl⟩
  | cons op ops ih =>
    obtain ⟨hop, hops⟩ := h
    obtain ⟨enc1, ch1, sent, hrun, hexact⟩ := channelOp_fits hch hop
    rw [hrun] at hops
    obtain ⟨enc', ch', more, hrun', hexact'⟩ := ih hexact.channel hops
    refine ⟨enc', ch', sent ++ more, ?_, ?_⟩
    · simp only [Encrypted.channelOps, hrun, bind, Except.bind, hrun']
    · rw [List.map_cons, List.sum_cons]
      exact hexact.trans hexact'

/-- A run with an operation that has not what it needs is a crash. -/
theorem channelOps_crash {enc : Encrypted} {id : UInt32} {ch : Channel} {ops : List ChannelOp}
    (hch : enc.channels id = some ch) (h : ¬ enc.AllFit id ops) :
    ∃ e : Fault, e.Crash ∧ enc.channelOps id ops = .error e := by
  induction ops generalizing enc ch with
  | nil => exact absurd trivial h
  | cons op ops ih =>
    by_cases hop : enc.Fits id op
    · obtain ⟨enc1, ch1, sent, hrun, hexact⟩ := channelOp_fits hch hop
      have hops : ¬ enc1.AllFit id ops := by
        intro hops
        refine h ⟨hop, ?_⟩
        rw [hrun]
        exact hops
      obtain ⟨e, hcrash, hrun'⟩ := ih hexact.channel hops
      refine ⟨e, hcrash, ?_⟩
      simp only [Encrypted.channelOps, hrun, bind, Except.bind, hrun']
    · obtain ⟨e, hcrash, hrun⟩ := channelOp_crashes hch hop
      refine ⟨e, hcrash, ?_⟩
      simp only [Encrypted.channelOps, hrun, bind, Except.bind]

/-- A sequence of operations on a channel is processed, with an exact account
of the peer's window, if and only if each of them starts in a state that has
what it needs. -/
theorem processes_iff {enc : Encrypted} {id : UInt32} {ch : Channel}
    (hch : enc.channels id = some ch) (ops : List ChannelOp) :
    enc.Processes id ch ops ↔ enc.AllFit id ops := by
  constructor
  · intro h
    by_contra hnot
    obtain ⟨e, hcrash, hrun⟩ := channelOps_crash hch hnot
    unfold Encrypted.Processes at h
    rw [hrun] at h
    cases e with
    | error e => exact hcrash
    | panic => exact h
    | overflow => exact h
    | diverge => exact h
  · intro h
    obtain ⟨enc', ch', sent, hrun, hexact⟩ := channelOps_fit hch h
    unfold Encrypted.Processes
    rw [hrun]
    exact ⟨ch', sent, hexact⟩

end

/-- A buffer that the window cuts, more of a window, and the rest. -/
theorem processes_cut :
    letI := Concrete.deps
    (Concrete.withChannel 2).Processes 2 (Concrete.channel 2)
      [.data [1, 2, 3], .adjust 4, .flushPending] := by
  let _ := Concrete.deps
  have hch : (Concrete.withChannel 2).channels 2 = some (Concrete.channel 2) := rfl
  refine (processes_iff hch _).mpr ⟨fun ch hch => ?_, fun ch hch => ?_, fun ch hch => ?_, trivial⟩
  · obtain rfl := Option.some.inj hch
    decide
  · obtain rfl := Option.some.inj hch
    decide
  · have hqueue : ch.pendingData = [([1, 2, 3], none, 2)] :=
      (congrArg Channel.pendingData (Option.some.inj hch)).symm
    have hwindow : ch.recipientWindowSize = 4 :=
      (congrArg Channel.recipientWindowSize (Option.some.inj hch)).symm
    have hmax : ch.recipientMaximumPacketSize = 100 :=
      (congrArg Channel.recipientMaximumPacketSize (Option.some.inj hch)).symm
    rw [hqueue, hwindow, hmax]
    decide

/-- One byte more than a `u32` holds is not refused. -/
theorem adjust_overflows :
    letI := Concrete.deps
    ¬ (Concrete.withChannel 4294967295).Processes 2 (Concrete.channel 4294967295)
      [.adjust 1] := by
  let _ := Concrete.deps
  have hrun : (Concrete.withChannel 4294967295).channelOps 2 [.adjust 1] = .error .overflow := rfl
  unfold Encrypted.Processes
  rw [hrun]
  exact id

end Thrussh
