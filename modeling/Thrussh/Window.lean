import Thrussh.ChannelData
import Thrussh.Client.Moves
import Thrussh.Server.Moves

/-!
# The windows of one endpoint of a channel

The packets of the traffic on a channel, what an endpoint does with its
windows when it submits data, and what both roles do with a packet of the
traffic: they take it in as `Encrypted.receive` does, then the handler has
its turn.
-/

namespace Thrussh

open Lib

/-- The body of a CHANNEL_WINDOW_ADJUST packet. -/
def adjustPacket (recipient amount : UInt32) : Bytes :=
  msg.CHANNEL_WINDOW_ADJUST :: be32 recipient ++ be32 amount

/-- The increment that a packet grants a channel number. -/
def readAdjust (recipient : UInt32) (packet : Bytes) : Option UInt32 :=
  if packet.head? = some msg.CHANNEL_WINDOW_ADJUST then
    match (reader packet 1).readU32 with
    | .ok (id, r) =>
      if id = recipient then
        match r.readU32 with
        | .ok (amount, _) => some amount
        | .error _ => none
      else none
    | .error _ => none
  else none

/-- The payload bytes that a list of packets carries for a channel number. -/
def carried (recipient : UInt32) (packets : List Bytes) : Nat :=
  (packets.map fun packet => (readData recipient packet).elim 0 fun data => data.2.length).sum

/-- The increments that a list of packets grants a channel number. -/
def granted (recipient : UInt32) (packets : List Bytes) : Nat :=
  (packets.map fun packet => (readAdjust recipient packet).elim 0 UInt32.toNat).sum

/-- A packet of the traffic on a channel. -/
inductive Traffic (recipient : UInt32) : Bytes → Prop where
  /-- Plain data. -/
  | data {data : Bytes} (h : data.length < 2 ^ 32) : Traffic recipient (dataPacket recipient data)
  /-- Extended data. -/
  | extendedData (ext : UInt32) {data : Bytes} (h : data.length < 2 ^ 32) :
    Traffic recipient (extendedDataPacket recipient ext data)
  /-- A window increment. -/
  | adjust (amount : UInt32) : Traffic recipient (adjustPacket recipient amount)

@[simp] theorem carried_nil (recipient : UInt32) : carried recipient [] = 0 := rfl

@[simp] theorem granted_nil (recipient : UInt32) : granted recipient [] = 0 := rfl

@[simp] theorem carried_append (recipient : UInt32) (l m : List Bytes) :
    carried recipient (l ++ m) = carried recipient l + carried recipient m := by
  simp [carried]

@[simp] theorem granted_append (recipient : UInt32) (l m : List Bytes) :
    granted recipient (l ++ m) = granted recipient l + granted recipient m := by
  simp [granted]

theorem carried_cons (recipient : UInt32) (packet : Bytes) (rest : List Bytes) :
    carried recipient (packet :: rest) =
      carried recipient [packet] + carried recipient rest := by
  simp [carried]

theorem granted_cons (recipient : UInt32) (packet : Bytes) (rest : List Bytes) :
    granted recipient (packet :: rest) =
      granted recipient [packet] + granted recipient rest := by
  simp [granted]

/-- What the readers find in a CHANNEL_WINDOW_ADJUST packet. -/
theorem adjustPacket_reads (recipient amount : UInt32) :
    (reader (adjustPacket recipient amount) 1).readU32 =
        .ok (recipient, ⟨adjustPacket recipient amount, 5⟩) ∧
      Position.readU32 ⟨adjustPacket recipient amount, 5⟩ =
        .ok (amount, ⟨adjustPacket recipient amount, 9⟩) := by
  refine ⟨readU32_append [msg.CHANNEL_WINDOW_ADJUST] (be32 amount) recipient, ?_⟩
  have hread := readU32_append (msg.CHANNEL_WINDOW_ADJUST :: be32 recipient) [] amount
  rw [List.append_nil] at hread
  exact hread

theorem readAdjust_adjustPacket (recipient amount : UInt32) :
    readAdjust recipient (adjustPacket recipient amount) = some amount := by
  obtain ⟨hid, hamount⟩ := adjustPacket_reads recipient amount
  have hhead : (adjustPacket recipient amount).head? = some msg.CHANNEL_WINDOW_ADJUST := rfl
  simp [readAdjust, hhead, hid, hamount]

/-- A packet with another message number grants nothing. -/
theorem readAdjust_of_head {recipient : UInt32} {packet : Bytes} {m : UInt8}
    (h : packet.head? = some m) (hm : m ≠ msg.CHANNEL_WINDOW_ADJUST) :
    readAdjust recipient packet = none := by
  unfold readAdjust
  rw [h, if_neg fun heq => hm (Option.some.inj heq)]

/-- A window increment carries no payload. -/
theorem readData_adjustPacket (recipient amount : UInt32) :
    readData recipient (adjustPacket recipient amount) = none := by
  obtain ⟨hid, -⟩ := adjustPacket_reads recipient amount
  have hhead : (adjustPacket recipient amount).head? = some msg.CHANNEL_WINDOW_ADJUST := rfl
  have hdata : msg.CHANNEL_WINDOW_ADJUST ≠ msg.CHANNEL_DATA := by decide
  have hext : msg.CHANNEL_WINDOW_ADJUST ≠ msg.CHANNEL_EXTENDED_DATA := by decide
  simp [readData, hhead, hid, hdata, hext]

/-- Packets of data grant nothing, and carry their chunks. -/
theorem traffic_map {recipient : UInt32} {stream : Option UInt32} {packet : Bytes → Bytes}
    (hread : ∀ data : Bytes, data.length < 2 ^ 32 →
      readData recipient (packet data) = some (stream, data))
    (htraffic : ∀ data : Bytes, data.length < 2 ^ 32 → Traffic recipient (packet data))
    (hgrants : ∀ data : Bytes, readAdjust recipient (packet data) = none) (chunks : List Bytes)
    (hlen : ∀ c ∈ chunks, c.length < 2 ^ 32) :
    (∀ p ∈ chunks.map packet, Traffic recipient p) ∧ granted recipient (chunks.map packet) = 0 ∧
      carried recipient (chunks.map packet) = chunks.flatten.length := by
  induction chunks with
  | nil => simp
  | cons c chunks ih =>
    have hc := hlen c List.mem_cons_self
    obtain ⟨htail, hnone, hsum⟩ := ih fun d hd => hlen d (List.mem_cons_of_mem c hd)
    have hone : carried recipient [packet c] = c.length := by simp [carried, hread c hc]
    have hzero : granted recipient [packet c] = 0 := by simp [granted, hgrants c]
    rw [List.map_cons]
    refine ⟨fun p hp => ?_, ?_, ?_⟩
    · rcases List.mem_cons.mp hp with rfl | hp
      · exact htraffic c hc
      · exact htail p hp
    · rw [granted_cons, hzero, hnone]
    · rw [carried_cons, hone, hsum, List.flatten_cons, List.length_append]

theorem dataPackets_traffic (recipient : UInt32) (chunks : List Bytes)
    (hlen : ∀ c ∈ chunks, c.length < 2 ^ 32) :
    (∀ p ∈ chunks.map (dataPacket recipient), Traffic recipient p) ∧
      granted recipient (chunks.map (dataPacket recipient)) = 0 ∧
      carried recipient (chunks.map (dataPacket recipient)) = chunks.flatten.length :=
  traffic_map (fun _ => readData_dataPacket recipient) (fun _ => .data)
    (fun _ => readAdjust_of_head (m := msg.CHANNEL_DATA) rfl (by decide)) chunks hlen

theorem extendedDataPackets_traffic (recipient ext : UInt32) (chunks : List Bytes)
    (hlen : ∀ c ∈ chunks, c.length < 2 ^ 32) :
    (∀ p ∈ chunks.map (extendedDataPacket recipient ext), Traffic recipient p) ∧
      granted recipient (chunks.map (extendedDataPacket recipient ext)) = 0 ∧
      carried recipient (chunks.map (extendedDataPacket recipient ext)) = chunks.flatten.length :=
  traffic_map (fun _ => readData_extendedDataPacket recipient ext) (fun _ => .extendedData ext)
    (fun _ => readAdjust_of_head (m := msg.CHANNEL_EXTENDED_DATA) rfl (by decide)) chunks hlen

section
variable [Deps]

/-- What an endpoint does with its end of a channel of its own accord. -/
inductive Submission where
  /-- `Encrypted::data`. -/
  | data (buf : Bytes)
  /-- `Encrypted::extended_data`. -/
  | extendedData (ext : UInt32) (buf : Bytes)
  /-- `Encrypted::flush_pending`. -/
  | flushPending
  deriving DecidableEq, Repr

/-- A submitted buffer is shorter than `2 ^ 32` bytes. -/
def Submission.Short : Submission → Prop
  | .data buf => buf.length < 2 ^ 32
  | .extendedData _ buf => buf.length < 2 ^ 32
  | .flushPending => True

/-- The submissions of an endpoint. -/
def Encrypted.submission (enc : Encrypted) (id : UInt32) : Submission → Except Fault Encrypted
  | .data buf => enc.data id buf
  | .extendedData ext buf => enc.extendedData id ext buf
  | .flushPending => do
    let (enc, _) ← enc.flushPending id
    .ok enc

/-- What both roles do to `enc` with a packet of the traffic on a channel. -/
def Encrypted.receive (enc : Encrypted) (target : UInt32) (packet : Bytes) :
    Except Fault Encrypted :=
  if packet.head? = some msg.CHANNEL_DATA ∨ packet.head? = some msg.CHANNEL_EXTENDED_DATA then do
    let (id, r) ← (reader packet 1).readU32
    let (_, r) ← Server.readExt packet r
    let (data, _) ← r.readString
    .ok (enc.adjustWindowSize id data target).1
  else if packet.head? = some msg.CHANNEL_WINDOW_ADJUST then do
    let (id, r) ← (reader packet 1).readU32
    let (amount, _) ← r.readU32
    let (_, enc) ← enc.adjustRecipientWindow id amount
    .ok enc
  else .ok enc

theorem receive_data (enc : Encrypted) (target id : UInt32) {data : Bytes}
    (h : data.length < 2 ^ 32) :
    enc.receive target (dataPacket id data) = .ok (enc.adjustWindowSize id data target).1 := by
  obtain ⟨hid, hdata⟩ := dataPacket_reads id h
  have hhead : (dataPacket id data).head? = some msg.CHANNEL_DATA := rfl
  simp only [Encrypted.receive, hhead, true_or, if_true, hid, bind, Except.bind, Server.readExt,
    hdata]

theorem receive_extendedData (enc : Encrypted) (target id ext : UInt32) {data : Bytes}
    (h : data.length < 2 ^ 32) :
    enc.receive target (extendedDataPacket id ext data) =
      .ok (enc.adjustWindowSize id data target).1 := by
  obtain ⟨hid, hext, hdata⟩ := extendedDataPacket_reads id ext h
  have hhead : (extendedDataPacket id ext data).head? = some msg.CHANNEL_EXTENDED_DATA := rfl
  have hne : ¬ some msg.CHANNEL_EXTENDED_DATA = some msg.CHANNEL_DATA := by decide
  simp only [Encrypted.receive, hhead, or_true, if_true, hid, bind, Except.bind, Server.readExt,
    if_neg hne, hext, hdata]

theorem receive_adjust (enc : Encrypted) (target id amount : UInt32) :
    enc.receive target (adjustPacket id amount) =
      (enc.adjustRecipientWindow id amount).map Prod.snd := by
  obtain ⟨hid, hamount⟩ := adjustPacket_reads id amount
  have hhead : (adjustPacket id amount).head? = some msg.CHANNEL_WINDOW_ADJUST := rfl
  have hnot : ¬ (some msg.CHANNEL_WINDOW_ADJUST = some msg.CHANNEL_DATA ∨
      some msg.CHANNEL_WINDOW_ADJUST = some msg.CHANNEL_EXTENDED_DATA) := by decide
  simp only [Encrypted.receive, hhead, if_neg hnot, if_true, hid, bind, Except.bind, hamount]
  cases enc.adjustRecipientWindow id amount <;> rfl

/-- The buffers waiting on a channel are shorter than `2 ^ 32` bytes. -/
def Channel.Short (ch : Channel) : Prop := ∀ entry ∈ ch.pendingData, entry.1.length < 2 ^ 32

/-- What a submission makes of an endpoint: the payload it sends is taken off the window. -/
structure Sends (enc enc' : Encrypted) (id : UInt32) (ch ch' : Channel) (new : List Bytes) :
    Prop where
  /-- The channel afterwards. -/
  channel : enc'.channels id = some ch'
  /-- What changes of the channel. -/
  same : ch' = { ch with
    recipientWindowSize := ch'.recipientWindowSize, pendingData := ch'.pendingData }
  /-- Packets are queued. -/
  emitted : enc'.emitted = enc.emitted ++ new
  /-- They belong to the channel. -/
  traffic : ∀ p ∈ new, Traffic ch.recipientChannel p
  /-- They are data. -/
  grants : granted ch.recipientChannel new = 0
  /-- Their payload is taken off the window. -/
  window : ch'.recipientWindowSize.toNat + carried ch.recipientChannel new =
    ch.recipientWindowSize.toNat
  /-- The buffers left waiting are short. -/
  short : ch.Short → ch'.Short

theorem submit_sends {enc enc' : Encrypted} {id : UInt32} {ch : Channel} {ext : Option UInt32}
    {packet : Channel → Bytes → Bytes} {buf : Bytes} (hch : enc.channels id = some ch)
    (hpackets : ∀ chunks : List Bytes, (∀ c ∈ chunks, c.length < 2 ^ 32) →
      (∀ p ∈ chunks.map (packet ch), Traffic ch.recipientChannel p) ∧
        granted ch.recipientChannel (chunks.map (packet ch)) = 0 ∧
        carried ch.recipientChannel (chunks.map (packet ch)) = chunks.flatten.length)
    (hbuf : buf.length < 2 ^ 32) (h : enc.submit id ext packet buf = .ok enc') :
    ∃ ch' new, Sends enc enc' id ch ch' new := by
  unfold Encrypted.submit at h
  rw [hch] at h
  by_cases hconfirmed : ch.confirmed = true
  · simp only [if_pos hconfirmed] at h
    by_cases hempty : ch.pendingData = []
    · simp only [if_pos hempty, bind, Except.bind] at h
      cases hsend : enc.sendChunks ch (packet ch) buf 0 with
      | error e => rw [hsend] at h; cases h
      | ok res =>
        obtain ⟨enc1, ch1, sent⟩ := res
        rw [hsend] at h
        obtain ⟨hch1, chunks, henc, hlen, hwindow⟩ := sendChunks_pushes hsend
        obtain ⟨htraffic, hgrants, hcarried⟩ := hpackets chunks hlen
        have hpending : ch1.pendingData = [] := by
          rw [hch1]
          exact hempty
        simp only [Except.ok.injEq] at h
        subst h
        refine ⟨_, chunks.map (packet ch), Function.update_self .., ?_, ?_, htraffic, hgrants, ?_, ?_⟩
        · split
          · rw [hch1]
          · rw [hch1]
        · simp [Encrypted.setChannel, henc]
        · rw [hcarried]
          split
          · exact hwindow
          · exact hwindow
        · intro _ entry hentry
          split at hentry
          · rw [List.mem_singleton.mp hentry]
            exact hbuf
          · rw [hpending] at hentry
            cases hentry
    · simp only [if_neg hempty, Except.ok.injEq] at h
      subst h
      refine ⟨_, [], Function.update_self .., rfl, ?_, by simp, rfl, rfl, ?_⟩
      · simp [Encrypted.setChannel]
      · intro hshort entry hentry
        rcases List.mem_append.mp hentry with hold | hnew
        · exact hshort entry hold
        · rw [List.mem_singleton.mp hnew]
          exact hbuf
  · simp only [if_neg hconfirmed] at h
    cases h

/-- Every submission sends what it takes off the window. -/
theorem submission_sends {enc enc' : Encrypted} {id : UInt32} {ch : Channel}
    {what : Submission} (hch : enc.channels id = some ch) (hshort : what.Short)
    (h : enc.submission id what = .ok enc') : ∃ ch' new, Sends enc enc' id ch ch' new := by
  cases what with
  | data buf => exact submit_sends hch (dataPackets_traffic _) hshort h
  | extendedData ext buf => exact submit_sends hch (extendedDataPackets_traffic _ ext) hshort h
  | flushPending =>
    simp only [Encrypted.submission, Encrypted.flushPending, hch, bind, Except.bind] at h
    cases hloop : flushPendingLoop ch.pendingData enc ch 0 with
    | error e => rw [hloop] at h; cases h
    | ok res =>
      obtain ⟨enc1, ch1, total⟩ := res
      rw [hloop] at h
      simp only [Except.ok.injEq] at h
      subst h
      obtain ⟨hch1, hpending, chunks, henc, hlen, hwindow⟩ := flushPendingLoop_pushes hloop
      obtain ⟨htraffic, hgrants, hcarried⟩ := dataPackets_traffic ch.recipientChannel chunks hlen
      refine ⟨ch1, _, Function.update_self .., hch1, ?_, htraffic, hgrants, ?_, ?_⟩
      · simp [Encrypted.setChannel, henc]
      · rw [hcarried]
        exact hwindow
      · intro hold entry hentry
        obtain ⟨entry', hmem, heq⟩ := hpending entry hentry
        rw [heq]
        exact hold entry' hmem

/-- Sending part of a short buffer fails only when the offset is behind the window. -/
theorem sendChunks_fails {enc : Encrypted} {ch : Channel} {packet : Bytes → Bytes} {buf : Bytes}
    {start : Nat} (hmax : 0 < ch.recipientMaximumPacketSize) (hbuf : buf.length < 2 ^ 32)
    {e : Fault} (h : enc.sendChunks ch packet buf start = .error e) : e = .panic ∧ 0 < start := by
  have hmaxNat : 0 < ch.recipientMaximumPacketSize.toNat := UInt32.lt_iff_toNat_lt.mp hmax
  have hlength : (UInt32.ofNat buf.length).toNat = buf.length := by
    rw [UInt32.toNat_ofNat']
    omega
  unfold Encrypted.sendChunks at h
  cases hslice : windowSlice ch.recipientWindowSize buf start with
  | error e' =>
    rw [hslice] at h
    cases h
    unfold windowSlice slice at hslice
    split at hslice
    · rename_i hgt
      have hlt := UInt32.lt_iff_toNat_lt.mp hgt
      rw [hlength] at hlt
      split at hslice
      · cases hslice
      · cases hslice
        exact ⟨rfl, by omega⟩
    · split at hslice
      · cases hslice
      · cases hslice
        exact ⟨rfl, by omega⟩
  | ok part =>
    rw [hslice] at h
    have hpart : part.length ≤ ch.recipientWindowSize.toNat := by
      unfold windowSlice slice at hslice
      split at hslice
      · split at hslice
        · cases hslice
          rw [List.length_drop, List.length_take]
          omega
        · cases hslice
      · rename_i hle
        have hnot : ¬ ch.recipientWindowSize.toNat < buf.length := by
          rw [← hlength]
          exact fun hlt => hle (UInt32.lt_iff_toNat_lt.mpr hlt)
        split at hslice
        · cases hslice
          rw [List.length_drop, List.length_take]
          omega
        · cases hslice
    obtain ⟨res, hres⟩ := chunkLoop_fits packet hmaxNat
      ch.recipientMaximumPacketSize.toNat_lt enc (Nat.le_refl part.length) hpart
    simp only [bind, Except.bind, hres] at h
    cases h

theorem flushPendingLoop_fails {pending : List (Bytes × Option UInt32 × Nat)} {enc : Encrypted}
    {ch : Channel} {total : Nat} (hmax : 0 < ch.recipientMaximumPacketSize)
    (hshort : ∀ entry ∈ pending, entry.1.length < 2 ^ 32) {e : Fault}
    (h : flushPendingLoop pending enc ch total = .error e) : e = .panic := by
  induction pending generalizing enc ch total with
  | nil => cases h
  | cons entry rest ih =>
    obtain ⟨buf, a, size⟩ := entry
    simp only [flushPendingLoop, bind, Except.bind] at h
    cases hsend : enc.dataNoqueue ch buf size with
    | error e' =>
      rw [hsend] at h
      cases h
      exact (sendChunks_fails hmax (hshort _ List.mem_cons_self) hsend).1
    | ok res =>
      obtain ⟨enc1, ch1, sent⟩ := res
      rw [hsend] at h
      obtain ⟨hch, -⟩ := sendChunks_pushes hsend
      by_cases hlt : sent < buf.length
      · simp only [if_pos hlt] at h
        cases h
      · simp only [if_neg hlt] at h
        refine ih ?_ (fun entry hentry => hshort entry (List.mem_cons_of_mem _ hentry)) h
        rw [hch]
        exact hmax

/-- A submission on a confirmed channel never takes more off the window than
there is; only `flush_pending` fails, when the offset of a buffer is behind the window. -/
theorem submission_fails {enc : Encrypted} {id : UInt32} {ch : Channel} {what : Submission}
    (hch : enc.channels id = some ch) (hconfirmed : ch.confirmed = true)
    (hmax : 0 < ch.recipientMaximumPacketSize) (hpending : ch.Short) (hshort : what.Short)
    {e : Fault} (h : enc.submission id what = .error e) : e = .panic ∧ what = .flushPending := by
  have hsubmit : ∀ {ext packet} {buf : Bytes}, buf.length < 2 ^ 32 →
      enc.submit id ext packet buf ≠ .error e := by
    intro ext packet buf hbuf herror
    unfold Encrypted.submit at herror
    rw [hch] at herror
    simp only [if_pos hconfirmed] at herror
    by_cases hempty : ch.pendingData = []
    · simp only [if_pos hempty, bind, Except.bind] at herror
      cases hsend : enc.sendChunks ch (packet ch) buf 0 with
      | error e' => exact absurd (sendChunks_fails hmax hbuf hsend).2 (Nat.lt_irrefl 0)
      | ok res =>
        rw [hsend] at herror
        cases herror
    · simp only [if_neg hempty] at herror
      cases herror
  cases what with
  | data buf => exact absurd h (hsubmit hshort)
  | extendedData ext buf => exact absurd h (hsubmit hshort)
  | flushPending =>
    simp only [Encrypted.submission, Encrypted.flushPending, hch, bind, Except.bind] at h
    cases hloop : flushPendingLoop ch.pendingData enc ch 0 with
    | error e' =>
      rw [hloop] at h
      cases h
      exact ⟨flushPendingLoop_fails hmax hpending hloop, rfl⟩
    | ok res =>
      rw [hloop] at h
      cases h

/-- What data that the window allows make of an endpoint: they are taken off
what it still takes, and what it grants is added. -/
theorem adjustWindowSize_takes {enc : Encrypted} {id : UInt32} {ch : Channel} (data : Bytes)
    (target : UInt32) (hch : enc.channels id = some ch)
    (hdata : data.length ≤ ch.senderWindowSize.toNat) :
    ∃ ch' new, (enc.adjustWindowSize id data target).1.channels id = some ch' ∧
      ch' = { ch with senderWindowSize := ch'.senderWindowSize } ∧
      (enc.adjustWindowSize id data target).1.emitted = enc.emitted ++ new ∧
      (∀ p ∈ new, Traffic ch.recipientChannel p) ∧ carried ch.recipientChannel new = 0 ∧
      ch'.senderWindowSize.toNat + data.length =
        ch.senderWindowSize.toNat + granted ch.recipientChannel new := by
  have hlt := ch.senderWindowSize.toNat_lt
  have hlength : (UInt32.ofNat data.length).toNat = data.length := by
    rw [UInt32.toNat_ofNat']
    omega
  have hle : UInt32.ofNat data.length ≤ ch.senderWindowSize := by
    rw [UInt32.le_iff_toNat_le, hlength]
    exact hdata
  have hleft : (ch.senderWindowSize - UInt32.ofNat data.length).toNat =
      ch.senderWindowSize.toNat - data.length := by
    rw [UInt32.toNat_sub_of_le _ _ hle, hlength]
  set left := ch.senderWindowSize - UInt32.ofNat data.length with hset
  simp only [Encrypted.adjustWindowSize, hch, if_pos hle, ← hset]
  by_cases htop : left < target / 2
  · have hhalf : left.toNat < (target / 2).toNat := UInt32.lt_iff_toNat_lt.mp htop
    rw [UInt32.toNat_div] at hhalf
    have htwo : (2 : UInt32).toNat = 2 := rfl
    rw [htwo] at hhalf
    have hamount : (target - left).toNat = target.toNat - left.toNat := by
      refine UInt32.toNat_sub_of_le _ _ (UInt32.le_iff_toNat_le.mpr ?_)
      omega
    simp only [if_pos htop]
    refine ⟨_, [adjustPacket ch.recipientChannel (target - left)], Function.update_self .., rfl,
      rfl, ?_, ?_, ?_⟩
    · intro p hp
      rw [List.mem_singleton.mp hp]
      exact .adjust _
    · simp [carried, readData_adjustPacket]
    · have hgranted : granted ch.recipientChannel
          [adjustPacket ch.recipientChannel (target - left)] = (target - left).toNat := by
        simp [granted, readAdjust_adjustPacket]
      rw [hgranted, hamount]
      dsimp only
      omega
  · simp only [if_neg htop]
    refine ⟨_, [], Function.update_self .., rfl, ?_, by simp, rfl, ?_⟩
    · simp [Encrypted.setChannel]
    · rw [granted_nil]
      dsimp only
      omega

/-- An increment that fits is added to the window. -/
theorem adjustRecipientWindow_grants {enc : Encrypted} {id : UInt32} {ch : Channel}
    (amount : UInt32) (hch : enc.channels id = some ch)
    (hfits : ch.recipientWindowSize.toNat + amount.toNat < 2 ^ 32) :
    ∃ value ch', enc.adjustRecipientWindow id amount = .ok (value, enc.setChannel id ch') ∧
      ch' = { ch with recipientWindowSize := ch'.recipientWindowSize } ∧
      ch'.recipientWindowSize.toNat = ch.recipientWindowSize.toNat + amount.toNat := by
  refine ⟨ch.recipientWindowSize + amount,
    { ch with recipientWindowSize := ch.recipientWindowSize + amount }, ?_, rfl, ?_⟩
  · simp only [Encrypted.adjustRecipientWindow, hch, Channel.addWindow, if_pos hfits, bind,
      Except.bind]
  · rw [UInt32.toNat_add]
    exact Nat.mod_eq_of_lt hfits

/-! ### What the roles do with the traffic -/

namespace Server

variable {s : Session} {enc enc' : Encrypted} {packet : Bytes}

/-- Data are taken off the window, then the handler has its turn. -/
theorem serverReadData_reaches (handler : Handler) {id : UInt32} {ext : Option UInt32}
    {data : Bytes} {r r' r'' : Position} (hid : (reader packet 1).readU32 = .ok (id, r))
    (hext : readExt packet r = .ok (ext, r')) (hdata : r'.readString = .ok (data, r''))
    (henc : s.common.encrypted = some enc) :
    Relation.ReflTransGen (Over (Busy fun _ => True))
      (s.withEnc (enc.adjustWindowSize id data s.targetWindowSize).1)
      (final (serverReadData handler packet s)) := by
  unfold serverReadData
  refine reaches_bind (run_lift hid s) (reaches_bind (run_lift hext s) ?_)
  refine reaches_bind (run_lift hdata s) (reaches_bind (run_get s) ?_)
  have hrun := run_onCommon henc
    (f := fun enc => .ok (enc.adjustWindowSize id data s.targetWindowSize).swap) rfl
  exact reaches_bind hrun (afterData_moves (fun _ _ => trivial) handler _ id _ _ _)

/-- The server takes a packet of the traffic in as `receive` does. -/
theorem serverReadAuthenticated_receives (handler : Handler) {id : UInt32}
    (htraffic : Traffic id packet) (henc : s.common.encrypted = some enc)
    (hreceive : enc.receive s.targetWindowSize packet = .ok enc') :
    Relation.ReflTransGen (Over (Busy fun _ => True)) (s.withEnc enc')
      (final (serverReadAuthenticated handler packet s)) := by
  cases htraffic with
  | @data bytes hlen =>
    obtain ⟨hid, hdata⟩ := dataPacket_reads id hlen
    rw [receive_data _ _ _ hlen] at hreceive
    cases hreceive
    exact serverReadData_reaches handler hid rfl hdata henc
  | @extendedData ext bytes hlen =>
    obtain ⟨hid, hext, hdata⟩ := extendedDataPacket_reads id ext hlen
    rw [receive_extendedData _ _ _ _ hlen] at hreceive
    cases hreceive
    have hread : readExt (extendedDataPacket id ext bytes) ⟨extendedDataPacket id ext bytes, 5⟩ =
        .ok (some ext, ⟨extendedDataPacket id ext bytes, 9⟩) := by
      have hhead : (extendedDataPacket id ext bytes).head? = some msg.CHANNEL_EXTENDED_DATA := rfl
      have hne : ¬ some msg.CHANNEL_EXTENDED_DATA = some msg.CHANNEL_DATA := by decide
      unfold readExt
      rw [hhead, if_neg hne, hext]
      rfl
    exact serverReadData_reaches handler hid hread hdata henc
  | adjust amount =>
    obtain ⟨hid, hamount⟩ := adjustPacket_reads id amount
    rw [receive_adjust] at hreceive
    cases hgrants : enc.adjustRecipientWindow id amount with
    | error e =>
      rw [hgrants] at hreceive
      cases hreceive
    | ok res =>
      obtain ⟨value, enc1⟩ := res
      rw [hgrants] at hreceive
      cases hreceive
      change Relation.ReflTransGen _ _ (final (serverReadWindowAdjust handler _ s))
      refine reaches_bind (run_lift hid s) (reaches_bind (run_lift hamount s) ?_)
      have hrun := run_onCommon henc (f := (·.adjustRecipientWindow id amount)) hgrants
      exact reaches_bind hrun (finish_moves (fun _ _ => trivial) handler _ _)

end Server

namespace Client

variable {s : Session} {enc enc' : Encrypted} {packet : Bytes}

/-- Data are taken off the window, then the handler has its turn. -/
theorem clientReceiveData_reaches (app : Application) (id : UInt32) (data : Bytes)
    (callback : Callback) (henc : s.common.encrypted = some enc) :
    Relation.ReflTransGen (Over (Busy fun _ => True))
      (s.withEnc (enc.adjustWindowSize id data s.common.config.windowSize).1)
      (final (clientReceiveData app id data callback s)) := by
  unfold clientReceiveData
  have hrun := run_onCommon henc
    (f := fun enc => .ok (enc.adjustWindowSize id data s.common.config.windowSize).swap) rfl
  refine reaches_bind (run_get s) (reaches_bind hrun ?_)
  exact afterData_moves (fun _ _ => trivial) app callback id _ _ _

/-- The client takes a packet of the traffic in as `receive` does. -/
theorem clientReadAuthenticated_receives (app : Application) {id : UInt32}
    (htraffic : Traffic id packet) (henc : s.common.encrypted = some enc)
    (hreceive : enc.receive s.common.config.windowSize packet = .ok enc') :
    Relation.ReflTransGen (Over (Busy fun _ => True)) (s.withEnc enc')
      (final (clientReadAuthenticated app packet s)) := by
  cases htraffic with
  | @data bytes hlen =>
    obtain ⟨hid, hdata⟩ := dataPacket_reads id hlen
    rw [receive_data _ _ _ hlen] at hreceive
    cases hreceive
    change Relation.ReflTransGen _ _ (final (clientReadData app _ s))
    refine reaches_bind (run_lift hid s) (reaches_bind (run_lift hdata s) ?_)
    exact clientReceiveData_reaches app id bytes _ henc
  | @extendedData ext bytes hlen =>
    obtain ⟨hid, hext, hdata⟩ := extendedDataPacket_reads id ext hlen
    rw [receive_extendedData _ _ _ _ hlen] at hreceive
    cases hreceive
    change Relation.ReflTransGen _ _ (final (clientReadExtendedData app _ s))
    refine reaches_bind (run_lift hid s) (reaches_bind (run_lift hext s) ?_)
    exact reaches_bind (run_lift hdata s) (clientReceiveData_reaches app id bytes _ henc)
  | adjust amount =>
    obtain ⟨hid, hamount⟩ := adjustPacket_reads id amount
    rw [receive_adjust] at hreceive
    cases hgrants : enc.adjustRecipientWindow id amount with
    | error e =>
      rw [hgrants] at hreceive
      cases hreceive
    | ok res =>
      obtain ⟨value, enc1⟩ := res
      rw [hgrants] at hreceive
      cases hreceive
      change Relation.ReflTransGen _ _ (final (clientReadWindowAdjust app _ s))
      have hrun := run_onCommon henc (f := (·.adjustRecipientWindow id amount)) hgrants
      refine reaches_bind (run_lift hid s) (reaches_bind (run_lift hamount s) ?_)
      exact reaches_bind hrun (finish_moves (fun _ _ => trivial) app _ _)

end Client

end

end Thrussh
