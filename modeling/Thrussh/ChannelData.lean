import Thrussh.Concrete
import Thrussh.Queue

/-!
# Data on a channel

What `Encrypted::data`, `Encrypted::extended_data` and
`Encrypted::flush_pending` put on the wire, against what was submitted. A
stream of a channel is its plain data or one ext code. A byte submitted to
a stream is either in a packet of that stream, as the peer decodes it, or in
the remainder of a queued buffer. The account is exact for a channel on
which every flush finds whole plain buffers; a partly sent buffer, or one
with an ext code, breaks it.
-/

namespace Thrussh

/-- The stream and the payload of a data packet for a channel number, as
the receiving side reads it. -/
def readData (recipient : UInt32) (packet : Bytes) : Option (Option UInt32 × Bytes) :=
  match packet.head?, (reader packet 1).readU32 with
  | some m, .ok (id, r) =>
    if id ≠ recipient then none
    else if m = msg.CHANNEL_DATA then
      match r.readString with
      | .ok (data, _) => some (none, data)
      | .error _ => none
    else if m = msg.CHANNEL_EXTENDED_DATA then
      match r.readU32 with
      | .error _ => none
      | .ok (ext, r) =>
        match r.readString with
        | .ok (data, _) => some (some ext, data)
        | .error _ => none
    else none
  | _, _ => none

/-- The payload a packet carries on one stream. -/
def streamPayload (recipient : UInt32) (stream : Option UInt32) (packet : Bytes) : Bytes :=
  match readData recipient packet with
  | some (s, data) => if s = stream then data else []
  | none => []

/-- The payloads of a list of packets on one stream, in order. -/
def sentOn (recipient : UInt32) (stream : Option UInt32) (packets : List Bytes) : Bytes :=
  packets.flatMap (streamPayload recipient stream)

@[simp] theorem sentOn_append (recipient : UInt32) (stream : Option UInt32) (l m : List Bytes) :
    sentOn recipient stream (l ++ m) = sentOn recipient stream l ++ sentOn recipient stream m :=
  List.flatMap_append

/-- The unsent remainders queued for one stream, in queue order. -/
def queuedOn (stream : Option UInt32) (pending : List (Bytes × Option UInt32 × Nat)) : Bytes :=
  pending.flatMap fun entry => if entry.2.1 = stream then entry.1.drop entry.2.2 else []

/-- What the readers find in a CHANNEL_DATA packet. -/
theorem dataPacket_reads (recipient : UInt32) {data : Bytes} (h : data.length < 2 ^ 32) :
    (reader (dataPacket recipient data) 1).readU32 =
        .ok (recipient, ⟨dataPacket recipient data, 5⟩) ∧
      Position.readString ⟨dataPacket recipient data, 5⟩ =
        .ok (data, ⟨dataPacket recipient data, 5 + (4 + data.length)⟩) := by
  refine ⟨readU32_append [msg.CHANNEL_DATA] (sshString data) recipient, ?_⟩
  have hread := readString_append (msg.CHANNEL_DATA :: be32 recipient) [] h
  rw [List.append_nil] at hread
  exact hread

/-- What the readers find in a CHANNEL_EXTENDED_DATA packet. -/
theorem extendedDataPacket_reads (recipient ext : UInt32) {data : Bytes}
    (h : data.length < 2 ^ 32) :
    (reader (extendedDataPacket recipient ext data) 1).readU32 =
        .ok (recipient, ⟨extendedDataPacket recipient ext data, 5⟩) ∧
      Position.readU32 ⟨extendedDataPacket recipient ext data, 5⟩ =
        .ok (ext, ⟨extendedDataPacket recipient ext data, 9⟩) ∧
      Position.readString ⟨extendedDataPacket recipient ext data, 9⟩ =
        .ok (data, ⟨extendedDataPacket recipient ext data, 9 + (4 + data.length)⟩) := by
  refine ⟨readU32_append [msg.CHANNEL_EXTENDED_DATA] (be32 ext ++ sshString data) recipient,
    readU32_append (msg.CHANNEL_EXTENDED_DATA :: be32 recipient) (sshString data) ext, ?_⟩
  have hread := readString_append (msg.CHANNEL_EXTENDED_DATA :: be32 recipient ++ be32 ext) [] h
  rw [List.append_nil] at hread
  exact hread

/-- A CHANNEL_DATA packet carries its payload on the plain stream. -/
theorem readData_dataPacket (recipient : UInt32) {data : Bytes} (h : data.length < 2 ^ 32) :
    readData recipient (dataPacket recipient data) = some (none, data) := by
  obtain ⟨hid, hdata⟩ := dataPacket_reads recipient h
  have hhead : (dataPacket recipient data).head? = some msg.CHANNEL_DATA := rfl
  simp [readData, hhead, hid, hdata]

/-- A CHANNEL_EXTENDED_DATA packet carries its payload on the stream of its ext code. -/
theorem readData_extendedDataPacket (recipient ext : UInt32) {data : Bytes}
    (h : data.length < 2 ^ 32) :
    readData recipient (extendedDataPacket recipient ext data) = some (some ext, data) := by
  obtain ⟨hid, hext, hdata⟩ := extendedDataPacket_reads recipient ext h
  have hhead : (extendedDataPacket recipient ext data).head? = some msg.CHANNEL_EXTENDED_DATA := rfl
  have hne : msg.CHANNEL_EXTENDED_DATA ≠ msg.CHANNEL_DATA := by decide
  simp [readData, hhead, hid, hext, hdata, hne]

/-- Packets of one stream, one for each chunk, carry the chunks on it. -/
theorem sentOn_map {recipient : UInt32} {target : Option UInt32} {packet : Bytes → Bytes}
    (hpacket : ∀ data : Bytes, data.length < 2 ^ 32 →
      readData recipient (packet data) = some (target, data))
    (stream : Option UInt32) (chunks : List Bytes) (hlen : ∀ c ∈ chunks, c.length < 2 ^ 32) :
    sentOn recipient stream (chunks.map packet) = if target = stream then chunks.flatten else [] := by
  induction chunks with
  | nil => simp [sentOn]
  | cons c chunks ih =>
    have hc := hpacket c (hlen c List.mem_cons_self)
    have htail := ih fun d hd => hlen d (List.mem_cons_of_mem c hd)
    have hcons : sentOn recipient stream ((c :: chunks).map packet) =
        streamPayload recipient stream (packet c) ++ sentOn recipient stream (chunks.map packet) := rfl
    rw [hcons, htail, streamPayload, hc]
    by_cases h : target = stream <;> simp [h]

@[simp] theorem queuedOn_cons (stream : Option UInt32) (entry : Bytes × Option UInt32 × Nat)
    (rest : List (Bytes × Option UInt32 × Nat)) :
    queuedOn stream (entry :: rest) =
      (if entry.2.1 = stream then entry.1.drop entry.2.2 else []) ++ queuedOn stream rest := rfl

@[simp] theorem queuedOn_append (stream : Option UInt32)
    (l m : List (Bytes × Option UInt32 × Nat)) :
    queuedOn stream (l ++ m) = queuedOn stream l ++ queuedOn stream m :=
  List.flatMap_append

/-- A buffer cut after the bytes sent as plain data, when it is plain or nothing was sent. -/
theorem plain_split {a : Option UInt32} {buf : Bytes} {sent : Nat}
    (h : a = none ∨ buf = [] ∨ sent = 0) (stream : Option UInt32) :
    (if none = stream then buf.take sent else []) ++ (if a = stream then buf.drop sent else []) =
      if a = stream then buf else [] := by
  rcases h with rfl | rfl | rfl
  · by_cases h : none = stream <;> simp [h]
  · simp
  · simp

section
variable [Deps]

/-- Sending a buffer from its start sends what the window allows. -/
theorem sendChunks_ok {enc enc' : Encrypted} {ch ch' : Channel} {packet : Bytes → Bytes}
    {buf : Bytes} {sent : Nat} (h : enc.sendChunks ch packet buf 0 = .ok (enc', ch', sent)) :
    sent = min buf.length ch.recipientWindowSize.toNat ∧
      ch' = { ch with recipientWindowSize := ch'.recipientWindowSize } ∧
      ch'.recipientWindowSize.toNat + sent = ch.recipientWindowSize.toNat ∧
      ∃ chunks : List Bytes, chunks.flatten = buf.take sent ∧ (∀ c ∈ chunks, c.length < 2 ^ 32) ∧
        enc' = enc.pushAll (chunks.map packet) := by
  have hmax := ch.recipientMaximumPacketSize.toNat_lt
  unfold Encrypted.sendChunks at h
  cases hslice : windowSlice ch.recipientWindowSize buf 0 with
  | error e => rw [hslice] at h; cases h
  | ok part =>
    rw [hslice] at h
    simp only [bind, Except.bind] at h
    cases hloop : chunkLoop packet ch.recipientMaximumPacketSize.toNat part.length enc
        ch.recipientWindowSize part with
    | error e => rw [hloop] at h; cases h
    | ok res =>
      obtain ⟨enc1, window⟩ := res
      rw [hloop] at h
      simp only [Except.ok.injEq, Prod.mk.injEq] at h
      obtain ⟨rfl, rfl, rfl⟩ := h
      obtain ⟨chunks, hflat, hlen, henc, hwindow⟩ := chunkLoop_ok hmax hloop
      have hpart : part.length = min buf.length ch.recipientWindowSize.toNat ∧
          part = buf.take part.length := by
        unfold windowSlice slice at hslice
        split at hslice
        · have hlt := UInt32.lt_iff_toNat_lt.mp ‹_›
          rw [UInt32.toNat_ofNat'] at hlt
          have hle : ch.recipientWindowSize.toNat ≤ buf.length := by omega
          rw [if_pos ⟨Nat.zero_le _, hle⟩] at hslice
          cases hslice
          simp [hle]
        · rw [if_pos ⟨Nat.zero_le _, Nat.le_refl _⟩] at hslice
          cases hslice
          simp only [List.take_length, List.drop_zero] at hwindow ⊢
          exact ⟨by omega, trivial⟩
      refine ⟨hpart.1, rfl, hwindow, chunks, ?_, fun c hc => Nat.lt_of_le_of_lt (hlen c hc).2 hmax,
        henc⟩
      rw [hflat]
      exact hpart.2

/-- Sending a buffer from its start fails only when the window underflows. -/
theorem sendChunks_error {enc : Encrypted} {ch : Channel} {packet : Bytes → Bytes} {buf : Bytes}
    (hmax : 0 < ch.recipientMaximumPacketSize) {e : Fault}
    (h : enc.sendChunks ch packet buf 0 = .error e) : e = .overflow := by
  have hmaxNat : 0 < ch.recipientMaximumPacketSize.toNat := UInt32.lt_iff_toNat_lt.mp hmax
  have hslice : ∃ part, windowSlice ch.recipientWindowSize buf 0 = .ok part := by
    unfold windowSlice slice
    split
    · have hlt := UInt32.lt_iff_toNat_lt.mp ‹_›
      rw [UInt32.toNat_ofNat'] at hlt
      have hle : ch.recipientWindowSize.toNat ≤ buf.length := by omega
      exact ⟨_, if_pos ⟨Nat.zero_le _, hle⟩⟩
    · exact ⟨_, if_pos ⟨Nat.zero_le _, Nat.le_refl _⟩⟩
  obtain ⟨part, hslice⟩ := hslice
  unfold Encrypted.sendChunks at h
  rw [hslice] at h
  simp only [bind, Except.bind] at h
  cases hloop : chunkLoop packet ch.recipientMaximumPacketSize.toNat part.length enc
      ch.recipientWindowSize part with
  | error e' =>
    rw [hloop] at h
    cases h
    exact chunkLoop_error hmaxNat (Nat.le_refl _) hloop
  | ok res => rw [hloop] at h; cases h

/-- What a session does to the sending side of one channel. -/
inductive ChannelOp where
  /-- `Encrypted::data`. -/
  | data (buf : Bytes)
  /-- `Encrypted::extended_data`. -/
  | extendedData (ext : UInt32) (buf : Bytes)
  /-- A CHANNEL_WINDOW_ADJUST. -/
  | adjust (amount : UInt32)
  /-- `Encrypted::flush_pending`. -/
  | flushPending

/-- The buffer an operation submits to a stream. -/
def ChannelOp.submitted (stream : Option UInt32) : ChannelOp → Bytes
  | .data buf => if none = stream then buf else []
  | .extendedData ext buf => if some ext = stream then buf else []
  | .adjust _ => []
  | .flushPending => []

/-- One operation. -/
def Encrypted.channelOp (enc : Encrypted) (id : UInt32) : ChannelOp → Except Fault Encrypted
  | .data buf => enc.data id buf
  | .extendedData ext buf => enc.extendedData id ext buf
  | .adjust amount =>
    match enc.channels id with
    | none => .ok enc
    | some ch => do
      let ch ← ch.addWindow amount
      .ok (enc.setChannel id ch)
  | .flushPending => do
    let (enc, _) ← enc.flushPending id
    .ok enc

/-- A sequence of operations. -/
def Encrypted.channelOps (enc : Encrypted) (id : UInt32) : List ChannelOp → Except Fault Encrypted
  | [] => .ok enc
  | op :: ops => do
    let enc ← enc.channelOp id op
    enc.channelOps id ops

/-- What a flush of the queue meets entry by entry: every buffer it reaches
is unsent so far, and is plain data unless nothing of it goes out. -/
def WholeAndPlain : List (Bytes × Option UInt32 × Nat) → Nat → Prop
  | [], _ => True
  | (buf, a, size) :: rest, window =>
    size = 0 ∧ (a = none ∨ buf = [] ∨ window = 0) ∧
      (buf.length ≤ window → WholeAndPlain rest (window - buf.length))

/-- The condition on the state before an operation: a flush meets whole plain buffers. -/
def Encrypted.FlushMeets (enc : Encrypted) (id : UInt32) : ChannelOp → Prop
  | .flushPending => ∀ ch, enc.channels id = some ch →
      WholeAndPlain ch.pendingData ch.recipientWindowSize.toNat
  | _ => True

/-- Every operation of a sequence starts in a state that meets the condition. -/
def Encrypted.FlushesMeet (enc : Encrypted) (id : UInt32) : List ChannelOp → Prop
  | [] => True
  | op :: ops => enc.FlushMeets id op ∧
      match enc.channelOp id op with
      | .ok enc' => enc'.FlushesMeet id ops
      | .error _ => True

/-- The account of a channel since a state: what was emitted and what is
queued make up what was submitted, on every stream. -/
structure Accounted (start enc : Encrypted) (id recipient : UInt32)
    (submitted : Option UInt32 → Bytes) : Prop where
  /-- The channel is still there, as it was but for its window and queue. -/
  channel : ∃ ch, enc.channels id = some ch ∧ ch.confirmed = true ∧
    ch.recipientChannel = recipient ∧ 0 < ch.recipientMaximumPacketSize ∧
    ∃ sent, enc.emitted = start.emitted ++ sent ∧
      ∀ stream, sentOn recipient stream sent ++ queuedOn stream ch.pendingData = submitted stream

/-- A flush that meets whole plain buffers only moves bytes from the queue to the packets. -/
theorem flushPendingLoop_ok {pending : List (Bytes × Option UInt32 × Nat)} {enc enc' : Encrypted}
    {ch ch' : Channel} {total total' : Nat}
    (hmeets : WholeAndPlain pending ch.recipientWindowSize.toNat)
    (h : flushPendingLoop pending enc ch total = .ok (enc', ch', total')) :
    ch' = { ch with
      recipientWindowSize := ch'.recipientWindowSize, pendingData := ch'.pendingData } ∧
    ∃ sent, enc' = enc.pushAll sent ∧ ∀ stream,
      sentOn ch.recipientChannel stream sent ++ queuedOn stream ch'.pendingData =
        queuedOn stream pending := by
  induction pending generalizing enc ch total with
  | nil =>
    simp only [flushPendingLoop, Except.ok.injEq, Prod.mk.injEq] at h
    obtain ⟨rfl, rfl, rfl⟩ := h
    exact ⟨rfl, [], rfl, fun _ => rfl⟩
  | cons entry rest ih =>
    obtain ⟨buf, a, size⟩ := entry
    obtain ⟨rfl, hplain, hrest⟩ := hmeets
    simp only [flushPendingLoop, bind, Except.bind] at h
    cases hsend : enc.dataNoqueue ch buf 0 with
    | error e => rw [hsend] at h; cases h
    | ok res =>
      obtain ⟨enc1, ch1, sent⟩ := res
      rw [hsend] at h
      obtain ⟨hsent, hch, hwindow, chunks, hflat, hlen, henc⟩ := sendChunks_ok hsend
      have hpackets := fun stream => sentOn_map (fun data hd =>
        readData_dataPacket ch.recipientChannel hd) stream chunks hlen
      have hsplit : a = none ∨ buf = [] ∨ sent = 0 := by
        rcases hplain with h | h | h
        · exact .inl h
        · exact .inr (.inl h)
        · exact .inr (.inr (by omega))
      by_cases hlt : sent < buf.length
      · simp only [if_pos hlt, Except.ok.injEq, Prod.mk.injEq] at h
        obtain ⟨rfl, rfl, rfl⟩ := h
        refine ⟨by rw [hch], _, henc, fun stream => ?_⟩
        rw [hpackets, hflat, queuedOn_cons, queuedOn_cons, ← List.append_assoc,
          plain_split hsplit]
        rfl
      · simp only [if_neg hlt] at h
        have hall : sent = buf.length := by omega
        have hmeets1 : WholeAndPlain rest ch1.recipientWindowSize.toNat := by
          have hleft : ch1.recipientWindowSize.toNat =
              ch.recipientWindowSize.toNat - buf.length := by omega
          rw [hleft]
          exact hrest (by omega)
        obtain ⟨hch', packets, henc', haccount⟩ := ih hmeets1 h
        have hrecipient : ch1.recipientChannel = ch.recipientChannel := by rw [hch]
        refine ⟨by rw [hch', hch], chunks.map (dataPacket ch.recipientChannel) ++ packets, ?_, ?_⟩
        · rw [henc', henc]
          exact (List.foldl_append).symm
        · intro stream
          have hone := plain_split hsplit stream
          rw [hall, List.drop_length, List.take_length] at hone
          simp only [ite_self, List.append_nil] at hone
          rw [sentOn_append, List.append_assoc, ← hrecipient, haccount, hrecipient, hpackets,
            hflat, hall, List.take_length, hone]
          rfl

/-- A flush that meets whole plain buffers fails only when the window underflows. -/
theorem flushPendingLoop_error {pending : List (Bytes × Option UInt32 × Nat)} {enc : Encrypted}
    {ch : Channel} {total : Nat} (hmax : 0 < ch.recipientMaximumPacketSize)
    (hmeets : WholeAndPlain pending ch.recipientWindowSize.toNat) {e : Fault}
    (h : flushPendingLoop pending enc ch total = .error e) : e = .overflow := by
  induction pending generalizing enc ch total with
  | nil => cases h
  | cons entry rest ih =>
    obtain ⟨buf, a, size⟩ := entry
    obtain ⟨rfl, -, hrest⟩ := hmeets
    simp only [flushPendingLoop, bind, Except.bind] at h
    cases hsend : enc.dataNoqueue ch buf 0 with
    | error e' =>
      rw [hsend] at h
      cases h
      exact sendChunks_error hmax hsend
    | ok res =>
      obtain ⟨enc1, ch1, sent⟩ := res
      rw [hsend] at h
      obtain ⟨hsent, hch, hwindow, -⟩ := sendChunks_ok hsend
      by_cases hlt : sent < buf.length
      · simp only [if_pos hlt] at h
        cases h
      · simp only [if_neg hlt] at h
        refine ih ?_ ?_ h
        · rw [hch]
          exact hmax
        · have hleft : ch1.recipientWindowSize.toNat =
              ch.recipientWindowSize.toNat - buf.length := by omega
          rw [hleft]
          exact hrest (by omega)

/-- The channel of a submission after the packets that went out at once. -/
theorem submit_ok {enc enc' : Encrypted} {id : UInt32} {ch : Channel} {ext : Option UInt32}
    {packet : Channel → Bytes → Bytes} {buf : Bytes} (hch : enc.channels id = some ch)
    (hpacket : ∀ data : Bytes, data.length < 2 ^ 32 →
      readData ch.recipientChannel (packet ch data) = some (ext, data))
    (h : enc.submit id ext packet buf = .ok enc') :
    ∃ ch', enc'.channels id = some ch' ∧
      ch' = { ch with
        recipientWindowSize := ch'.recipientWindowSize, pendingData := ch'.pendingData } ∧
      ∃ sent, enc'.emitted = enc.emitted ++ sent ∧ ∀ stream,
        sentOn ch.recipientChannel stream sent ++ queuedOn stream ch'.pendingData =
          queuedOn stream ch.pendingData ++ if ext = stream then buf else [] := by
  unfold Encrypted.submit at h
  rw [hch] at h
  by_cases hconfirmed : ch.confirmed = true
  · simp only [if_pos hconfirmed] at h
    by_cases hempty : ch.pendingData = []
    · simp only [if_pos hempty, bind, Except.bind] at h
      cases hsend : enc.sendChunks ch (packet ch) buf 0 with
      | error e => rw [hsend] at h; cases h
      | ok res =>
        obtain ⟨enc1, ch1, sent⟩ := res
        rw [hsend] at h
        obtain ⟨hsent, hch1, -, chunks, hflat, hlen, henc⟩ := sendChunks_ok hsend
        have hpackets := fun stream => sentOn_map hpacket stream chunks hlen
        have hpending : ch1.pendingData = [] := by
          rw [hch1]
          exact hempty
        simp only [Except.ok.injEq] at h
        subst h
        refine ⟨_, Function.update_self .., ?_, chunks.map (packet ch), ?_, fun stream => ?_⟩
        · split
          · rw [hch1]
          · rw [hch1]
        · simp [Encrypted.setChannel, henc]
        · rw [hpackets, hflat, hempty]
          have hcut : (if ext = stream then buf.take sent else []) ++
              (if ext = stream then buf.drop sent else []) = if ext = stream then buf else [] := by
            by_cases hs : ext = stream <;> simp [hs]
          by_cases hlt : sent < buf.length
          · simp only [if_pos hlt, queuedOn_cons]
            simpa [queuedOn] using hcut
          · have hall : sent = buf.length := by omega
            simp only [if_neg hlt, hpending]
            rw [hall]
            simp [queuedOn]
    · simp only [if_neg hempty, Except.ok.injEq] at h
      subst h
      refine ⟨_, Function.update_self .., rfl, [], ?_, fun stream => ?_⟩
      · simp [Encrypted.setChannel]
      · simp [sentOn, queuedOn]
  · simp only [if_neg hconfirmed] at h
    cases h

/-- A submission fails only when the window underflows. -/
theorem submit_error {enc : Encrypted} {id : UInt32} {ch : Channel} {ext : Option UInt32}
    {packet : Channel → Bytes → Bytes} {buf : Bytes} (hch : enc.channels id = some ch)
    (hconfirmed : ch.confirmed = true) (hmax : 0 < ch.recipientMaximumPacketSize) {e : Fault}
    (h : enc.submit id ext packet buf = .error e) : e = .overflow := by
  unfold Encrypted.submit at h
  rw [hch] at h
  simp only [if_pos hconfirmed] at h
  by_cases hempty : ch.pendingData = []
  · simp only [if_pos hempty, bind, Except.bind] at h
    cases hsend : enc.sendChunks ch (packet ch) buf 0 with
    | error e' =>
      rw [hsend] at h
      cases h
      exact sendChunks_error hmax hsend
    | ok res => rw [hsend] at h; cases h
  · simp only [if_neg hempty] at h
    cases h

/-- What a step emits and leaves queued extends the account by what it was given. -/
theorem Accounted.step {start enc enc' : Encrypted} {id recipient : UInt32} {ch ch' : Channel}
    {submitted added : Option UInt32 → Bytes} (hacc : Accounted start enc id recipient submitted)
    (hch : enc.channels id = some ch) (hch' : enc'.channels id = some ch')
    (hsame : ch' = { ch with
      recipientWindowSize := ch'.recipientWindowSize, pendingData := ch'.pendingData })
    (hmoved : ∃ sent, enc'.emitted = enc.emitted ++ sent ∧ ∀ stream,
      sentOn ch.recipientChannel stream sent ++ queuedOn stream ch'.pendingData =
        queuedOn stream ch.pendingData ++ added stream) :
    Accounted start enc' id recipient fun stream => submitted stream ++ added stream := by
  obtain ⟨ch0, hch0, hconfirmed, hrecipient, hmax, sent0, hemitted, haccount⟩ := hacc.channel
  obtain rfl : ch0 = ch := Option.some.inj (hch0.symm.trans hch)
  obtain ⟨sent, hemitted', hstep⟩ := hmoved
  refine ⟨ch', hch', by rw [hsame]; exact hconfirmed, by rw [hsame]; exact hrecipient,
    by rw [hsame]; exact hmax, sent0 ++ sent, ?_, fun stream => ?_⟩
  · rw [hemitted', hemitted, List.append_assoc]
  · rw [← haccount stream, sentOn_append, List.append_assoc, List.append_assoc, ← hstep stream,
      hrecipient]

/-- An operation that meets the condition keeps the account. -/
theorem channelOp_accounted {start enc enc' : Encrypted} {id recipient : UInt32}
    {submitted : Option UInt32 → Bytes} (hacc : Accounted start enc id recipient submitted)
    {op : ChannelOp} (hmeets : enc.FlushMeets id op) (h : enc.channelOp id op = .ok enc') :
    Accounted start enc' id recipient fun stream => submitted stream ++ op.submitted stream := by
  obtain ⟨ch, hch, -⟩ := hacc.channel
  cases op with
  | data buf =>
    obtain ⟨ch', hch', hsame, hmoved⟩ := submit_ok hch
      (fun _ hd => readData_dataPacket ch.recipientChannel hd) h
    exact hacc.step hch hch' hsame hmoved
  | extendedData ext buf =>
    obtain ⟨ch', hch', hsame, hmoved⟩ := submit_ok hch
      (fun _ hd => readData_extendedDataPacket ch.recipientChannel ext hd) h
    exact hacc.step hch hch' hsame hmoved
  | adjust amount =>
    simp only [Encrypted.channelOp, hch, Channel.addWindow] at h
    split at h
    · simp only [bind, Except.bind, Except.ok.injEq] at h
      subst h
      exact hacc.step hch (Function.update_self ..) rfl
        ⟨[], by simp [Encrypted.setChannel], by simp [sentOn, ChannelOp.submitted]⟩
    · cases h
  | flushPending =>
    simp only [Encrypted.channelOp, Encrypted.flushPending, hch, bind, Except.bind] at h
    cases hloop : flushPendingLoop ch.pendingData enc ch 0 with
    | error e => rw [hloop] at h; cases h
    | ok res =>
      obtain ⟨enc1, ch1, total⟩ := res
      rw [hloop] at h
      simp only [Except.ok.injEq] at h
      subst h
      obtain ⟨hsame, sent, henc, hqueue⟩ := flushPendingLoop_ok (hmeets ch hch) hloop
      refine hacc.step hch (Function.update_self ..) hsame ⟨sent, ?_, fun stream => ?_⟩
      · simp [Encrypted.setChannel, henc]
      · rw [hqueue]
        simp [ChannelOp.submitted]

/-- An operation that meets the condition fails only on a window overflow. -/
theorem channelOp_error {start enc : Encrypted} {id recipient : UInt32}
    {submitted : Option UInt32 → Bytes} (hacc : Accounted start enc id recipient submitted)
    {op : ChannelOp} (hmeets : enc.FlushMeets id op) {e : Fault}
    (h : enc.channelOp id op = .error e) : e = .overflow := by
  obtain ⟨ch, hch, hconfirmed, -, hmax, -⟩ := hacc.channel
  cases op with
  | data buf => exact submit_error hch hconfirmed hmax h
  | extendedData ext buf => exact submit_error hch hconfirmed hmax h
  | adjust amount =>
    simp only [Encrypted.channelOp, hch, Channel.addWindow] at h
    split at h
    · cases h
    · cases h
      rfl
  | flushPending =>
    simp only [Encrypted.channelOp, Encrypted.flushPending, hch, bind, Except.bind] at h
    cases hloop : flushPendingLoop ch.pendingData enc ch 0 with
    | error e' =>
      rw [hloop] at h
      cases h
      exact flushPendingLoop_error hmax (hmeets ch hch) hloop
    | ok res => rw [hloop] at h; cases h

/-- A run of operations keeps the account it starts with. -/
theorem channelOps_keep {start enc : Encrypted} {id recipient : UInt32}
    {submitted : Option UInt32 → Bytes} (hacc : Accounted start enc id recipient submitted)
    {ops : List ChannelOp} (hmeets : enc.FlushesMeet id ops) :
    match enc.channelOps id ops with
    | .ok enc' => Accounted start enc' id recipient fun stream =>
        submitted stream ++ ops.flatMap (ChannelOp.submitted stream)
    | .error e => e = .overflow := by
  induction ops generalizing enc submitted with
  | nil => simpa [Encrypted.channelOps] using hacc
  | cons op ops ih =>
    obtain ⟨hop, hops⟩ := hmeets
    simp only [Encrypted.channelOps, bind, Except.bind]
    cases h : enc.channelOp id op with
    | error e => exact channelOp_error hacc hop h
    | ok enc1 =>
      rw [h] at hops
      have hrun := ih (channelOp_accounted hacc hop h) hops
      simpa only [List.flatMap_cons, List.append_assoc] using hrun

/-- For a confirmed channel with room in its packets and nothing queued, a run
whose flushes meet whole plain buffers panics on no slice, and on every stream
the payloads emitted and the remainders queued are the buffers submitted. -/
theorem channelOps_accounted {enc : Encrypted} {id : UInt32} {ch : Channel}
    (hch : enc.channels id = some ch) (hconfirmed : ch.confirmed = true)
    (hmax : 0 < ch.recipientMaximumPacketSize) (hpending : ch.pendingData = [])
    (ops : List ChannelOp) (hmeets : enc.FlushesMeet id ops) :
    match enc.channelOps id ops with
    | .ok enc' => Accounted enc enc' id ch.recipientChannel fun stream =>
        ops.flatMap (ChannelOp.submitted stream)
    | .error e => e = .overflow := by
  have hstart : Accounted enc enc id ch.recipientChannel fun _ => [] :=
    ⟨ch, hch, hconfirmed, rfl, hmax, [], by simp, by simp [sentOn, queuedOn, hpending]⟩
  have hrun := channelOps_keep hstart hmeets
  simpa only [List.nil_append] using hrun

end

/-- Plain data queued whole behind an empty window, and flushed once the window opens. -/
theorem channelOps_accounted_queued :
    letI := Concrete.deps
    match (Concrete.withChannel 0).channelOps 2 [.data [1, 2], .adjust 3, .flushPending] with
    | .ok enc' => Accounted (Concrete.withChannel 0) enc' 2 7 fun stream =>
        [.data [1, 2], .adjust 3, .flushPending].flatMap (ChannelOp.submitted stream)
    | .error e => e = .overflow := by
  let _ := Concrete.deps
  have hch : (Concrete.withChannel 0).channels 2 = some (Concrete.channel 0) := rfl
  refine channelOps_accounted hch rfl (by decide) rfl [.data [1, 2], .adjust 3, .flushPending]
    ⟨trivial, trivial, fun ch hch => ?_, trivial⟩
  have hqueue : ch.pendingData = [([1, 2], none, 0)] :=
    (congrArg Channel.pendingData (Option.some.inj hch)).symm
  have hwindow : ch.recipientWindowSize = 3 :=
    (congrArg Channel.recipientWindowSize (Option.some.inj hch)).symm
  rw [hqueue, hwindow]
  exact ⟨rfl, .inl rfl, fun _ => trivial⟩

/-- A buffer cut by the window and flushed again: with a window still shorter
than what was sent the slice panics, and with a larger one its last byte is
sent and queued again. -/
theorem flushPending_repeats :
    letI := Concrete.deps
    (Concrete.withChannel 2).channelOps 2 [.data [1, 2, 3], .adjust 1, .flushPending] =
      .error .panic ∧
    ∃ enc', (Concrete.withChannel 1).channelOps 2 [.data [1, 2], .adjust 2, .flushPending] =
        .ok enc' ∧
      enc'.emitted = [dataPacket 7 [1], dataPacket 7 [2]] ∧
      (enc'.channels 2).map (·.pendingData) = some [([1, 2], none, 1)] ∧
      ¬ Accounted (Concrete.withChannel 1) enc' 2 7 fun stream =>
        [.data [1, 2], .adjust 2, .flushPending].flatMap (ChannelOp.submitted stream) := by
  let _ := Concrete.deps
  refine ⟨rfl, _, rfl, rfl, rfl, fun hacc => ?_⟩
  obtain ⟨ch, hch, -, -, -, sent, hemitted, haccount⟩ := hacc.channel
  have hsent : sent = [dataPacket 7 [1], dataPacket 7 [2]] := hemitted.symm
  have hqueue : ch.pendingData = [([1, 2], none, 1)] :=
    (congrArg Channel.pendingData (Option.some.inj hch)).symm
  have hplain := haccount none
  rw [hsent, hqueue] at hplain
  exact absurd hplain (by decide)

end Thrussh
