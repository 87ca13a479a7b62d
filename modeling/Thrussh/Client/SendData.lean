import Thrussh.Client.Session
import Thrussh.Lib.Source
import Mathlib.Data.Set.Function

/-!
# Sending data through the handle of a channel

`Channel::send_data` reads at most what the window and the maximum packet
size allow, sends what it has read as one message, even when that is
nothing, and ends when a read into a buffer of some size yields nothing. With
its window used up it waits for the next `WindowAdjusted`. Once the receiver
is closed the wait is over at once, with the window still used up: the loop
then reads nothing into an empty buffer, sends nothing, and waits again.
What it has been granted, less what it has yet to read, never changes, so
from the start on this says whether the loop ends.
-/

namespace Thrussh.Client

open Lib

/-- `client::Channel`, the owner's side of a channel. -/
structure ChannelHandle where
  /-- The channel number of its `ChannelSender`. -/
  id : UInt32
  /-- The largest payload of a message. -/
  maxPacketSize : UInt32
  /-- What may still be sent. -/
  windowSize : UInt32
  /-- The messages in the receiver. -/
  queue : List OpenChannelMsg
  /-- Whether the session has dropped the sender of the receiver. -/
  closed : Bool
  /-- History: what it has sent to the session. -/
  sent : List Msg

/-- `Channel::send_data_packet`. The session lives on and takes the message. -/
def ChannelHandle.sendDataPacket (c : ChannelHandle) (ext : Option UInt32) (data : Bytes) :
    ChannelHandle :=
  { c with sent := c.sent ++ [match ext with
      | some ext => .extendedData c.id data ext
      | none => .data c.id data] }

/-- Where a call of `send_data` stands. -/
inductive SendStage where
  | sending
  | waiting
  | returned
  deriving DecidableEq

/-- A call of `Channel::send_data`. -/
structure SendData where
  /-- The handle. -/
  channel : ChannelHandle
  /-- The code of extended data. -/
  ext : Option UInt32
  /-- What is left of the data. -/
  data : Source UInt8
  /-- Where it stands. -/
  stage : SendStage

/-- The loop from its head to the wait. The window has room for what was read. -/
def SendData.send (s : SendData) : SendData :=
  let sendable := min s.channel.windowSize s.channel.maxPacketSize
  let read := s.data.read sendable.toNat
  let window := s.channel.windowSize - UInt32.ofNat read.1.length
  { s with
    channel := { s.channel with windowSize := window }.sendDataPacket s.ext read.1
    data := read.2
    stage :=
      if 0 < sendable ∧ read.1.length = 0 then .returned
      else if 0 < window then .sending
      else .waiting }

/-- One `recv` in the wait for the window. -/
def SendData.recv (s : SendData) : SendData :=
  match s.channel.queue with
  | .msg (.windowAdjusted newSize) :: rest =>
    { s with channel := { s.channel with windowSize := newSize, queue := rest }, stage := .sending }
  | _ :: rest => { s with channel := { s.channel with queue := rest } }
  | [] => if s.channel.closed then { s with stage := .sending } else s

/-- One step of the loops. -/
def SendData.step (s : SendData) : SendData :=
  match s.stage with
  | .sending => s.send
  | .waiting => s.recv
  | .returned => s

/-- A number of steps. -/
def SendData.run (s : SendData) (n : Nat) : SendData := SendData.step^[n] s

/-- A call that has not done anything. -/
def ChannelHandle.sendData (c : ChannelHandle) (ext : Option UInt32) (data : Source UInt8) :
    SendData where
  channel := { c with sent := [] }
  ext := ext
  data := data
  stage := .sending

/-- The data that a message carries. -/
def Msg.payload : Msg → Bytes
  | .data _ body => body
  | .extendedData _ body _ => body
  | _ => []

/-- What a call has sent. -/
def SendData.payload (s : SendData) : Bytes := s.channel.sent.flatMap Msg.payload

/-- What the messages in a receiver set the window to. -/
def totals : List OpenChannelMsg → List UInt32
  | [] => []
  | .msg (.windowAdjusted newSize) :: rest => newSize :: totals rest
  | _ :: rest => totals rest

/-- The same in all. -/
def credits (queue : List OpenChannelMsg) : Nat := ((totals queue).map UInt32.toNat).sum

/-- What a handle may send before its receiver is empty. -/
def ChannelHandle.granted (c : ChannelHandle) : Nat := c.windowSize.toNat + credits c.queue

/-- A call ends when its channel is closed, and otherwise sends its data. -/
structure SendData.Serves (s : SendData) : Prop where
  /-- Once the receiver is closed the call returns. -/
  ends : s.channel.closed = true → ∃ n, (s.run n).stage = .returned
  /-- Otherwise it sends nothing but its data in order, all of it before it returns. -/
  sends : s.channel.closed = false → ∀ n, (s.run n).payload <+: s.data.content ∧
    ((s.run n).stage = .returned → (s.run n).payload = s.data.content)
  /-- And it sends all of it when it is granted that much. -/
  reaches : s.channel.closed = false → s.data.content.length ≤ s.channel.granted →
    ∃ n, (s.run n).payload = s.data.content

/-- The packet size has room for something, and a closed receiver has granted more than the data. -/
structure SendData.Ample (s : SendData) : Prop where
  /-- A closed receiver has granted more than the data. -/
  closed : s.channel.closed = true →
    0 < s.channel.maxPacketSize ∧ s.data.content.length < s.channel.granted
  /-- Data that is granted can be put into packets. -/
  opened : s.channel.closed = false → s.data.content.length ≤ s.channel.granted →
    s.data.content = [] ∨ 0 < s.channel.maxPacketSize

/-! ### One step -/

section
variable {s start : SendData}

/-- What is sendable, as a number. -/
theorem sendable_toNat (s : SendData) :
    (min s.channel.windowSize s.channel.maxPacketSize).toNat =
      min s.channel.windowSize.toNat s.channel.maxPacketSize.toNat :=
  toNat_min _ _

/-- Something is sendable when the window and the packet size have room for something. -/
theorem sendable_pos (s : SendData) :
    0 < min s.channel.windowSize s.channel.maxPacketSize ↔
      0 < s.channel.windowSize ∧ 0 < s.channel.maxPacketSize := by
  have hmin := sendable_toNat s
  simp only [UInt32.lt_iff_toNat_lt, UInt32.toNat_zero]
  omega

/-- The window after a message is the window before without the payload. -/
theorem send_window (s : SendData) :
    s.send.channel.windowSize.toNat +
        (s.data.read (min s.channel.windowSize s.channel.maxPacketSize).toNat).1.length =
      s.channel.windowSize.toNat := by
  have hread := s.data.read_le (min s.channel.windowSize s.channel.maxPacketSize).toNat
  have hmin := sendable_toNat s
  have hbound := s.channel.windowSize.toNat_lt
  set n := (s.data.read (min s.channel.windowSize s.channel.maxPacketSize).toNat).1.length
  have hn : (UInt32.ofNat n).toNat = n := by
    rw [UInt32.toNat_ofNat', Nat.mod_eq_of_lt (by omega)]
  have hle : UInt32.ofNat n ≤ s.channel.windowSize := by
    rw [UInt32.le_iff_toNat_le, hn]
    omega
  have hwindow : s.send.channel.windowSize = s.channel.windowSize - UInt32.ofNat n := rfl
  rw [hwindow, UInt32.toNat_sub_of_le _ _ hle, hn]
  omega

/-- A message carries what was read. -/
theorem send_payload (s : SendData) :
    s.send.payload = s.payload ++
      (s.data.read (min s.channel.windowSize s.channel.maxPacketSize).toNat).1 := by
  simp only [SendData.payload, SendData.send, ChannelHandle.sendDataPacket, List.flatMap_append]
  cases s.ext with
  | none => simp only [List.flatMap_cons, List.flatMap_nil, List.append_nil, Msg.payload]
  | some ext => simp only [List.flatMap_cons, List.flatMap_nil, List.append_nil, Msg.payload]

/-- What a message leaves the call at. -/
theorem send_stage (s : SendData) : s.send.stage =
    if 0 < min s.channel.windowSize s.channel.maxPacketSize ∧
      (s.data.read (min s.channel.windowSize s.channel.maxPacketSize).toNat).1.length = 0
    then .returned else if 0 < s.send.channel.windowSize then .sending else .waiting :=
  rfl

/-- A call waits after a message with its window used up. -/
theorem send_waits (h : s.send.stage = .waiting) : s.send.channel.windowSize = 0 := by
  rw [send_stage] at h
  split at h
  · cases h
  · by_cases hleft : 0 < s.send.channel.windowSize
    · rw [if_pos hleft] at h
      cases h
    · rw [UInt32.lt_iff_toNat_lt, UInt32.toNat_zero] at hleft
      exact UInt32.toNat_inj.mp (by rw [UInt32.toNat_zero]; omega)

/-- What holds at every moment of a call. -/
structure SendData.Sound (start s : SendData) : Prop where
  /-- Only the window, the receiver and the history of the handle change. -/
  maxPacketSize : s.channel.maxPacketSize = start.channel.maxPacketSize
  /-- The call waits with its window used up. -/
  waits : s.stage = .waiting → s.channel.windowSize = 0
  /-- It returns at the end of the data, with a window that is not used up. -/
  returns : s.stage = .returned →
    s.data.content = [] ∧ 0 < s.channel.windowSize ∧ 0 < s.channel.maxPacketSize
  /-- What was sent and what is left make up the data. -/
  carries : s.payload ++ s.data.content = start.payload ++ start.data.content
  /-- What is granted and what was sent change together. -/
  account : s.channel.granted + start.data.content.length =
    start.channel.granted + s.data.content.length
  /-- Without room in a packet nothing is sent. -/
  stuck : start.channel.maxPacketSize = 0 → s.data.content = start.data.content

/-- A message keeps it. -/
theorem SendData.Sound.send (h : SendData.Sound start s) : SendData.Sound start s.send := by
  have hwindow := send_window s
  have hpayload := send_payload s
  have hpos := sendable_pos s
  have hcontent := s.data.read_content (min s.channel.windowSize s.channel.maxPacketSize).toNat
  have hlength := s.data.read_length (min s.channel.windowSize s.channel.maxPacketSize).toNat
  have hnil := s.data.read_eq_nil (min s.channel.windowSize s.channel.maxPacketSize).toNat
  have hle := s.data.read_le (min s.channel.windowSize s.channel.maxPacketSize).toNat
  have hdata : s.send.data =
      (s.data.read (min s.channel.windowSize s.channel.maxPacketSize).toNat).2 := rfl
  have hstage := send_stage s
  rw [← hdata] at hcontent hlength
  set read := (s.data.read (min s.channel.windowSize s.channel.maxPacketSize).toNat).1
  constructor
  · exact h.maxPacketSize
  · exact send_waits
  · intro hreturned
    rw [hstage] at hreturned
    by_cases hend : 0 < min s.channel.windowSize s.channel.maxPacketSize ∧ read.length = 0
    · obtain ⟨hsome, hnone⟩ := hend
      have hread : read = [] := List.length_eq_zero_iff.mp hnone
      have hsize : (min s.channel.windowSize s.channel.maxPacketSize).toNat ≠ 0 := by
        rw [UInt32.lt_iff_toNat_lt, UInt32.toNat_zero] at hsome
        omega
      have hend : s.data.content = [] := (hnil.mp hread).resolve_left hsize
      rw [hend, hread, List.nil_append] at hcontent
      have hroom := hpos.mp hsome
      refine ⟨hcontent, ?_, hroom.2⟩
      have hbefore := hroom.1
      rw [UInt32.lt_iff_toNat_lt, UInt32.toNat_zero] at hbefore ⊢
      omega
    · rw [if_neg hend] at hreturned
      by_cases hleft : 0 < s.send.channel.windowSize
      · rw [if_pos hleft] at hreturned
        cases hreturned
      · rw [if_neg hleft] at hreturned
        cases hreturned
  · rw [hpayload, List.append_assoc, hcontent]
    exact h.carries
  · have haccount := h.account
    have hgranted : s.send.channel.granted =
        s.send.channel.windowSize.toNat + credits s.channel.queue := rfl
    have hbefore : s.channel.granted = s.channel.windowSize.toNat + credits s.channel.queue := rfl
    omega
  · intro hmax
    have hsize : (min s.channel.windowSize s.channel.maxPacketSize).toNat = 0 := by
      rw [sendable_toNat, h.maxPacketSize, hmax, UInt32.toNat_zero]
      omega
    have hread : read = [] := hnil.mpr (.inl hsize)
    rw [hread, List.nil_append] at hcontent
    rw [hcontent]
    exact h.stuck hmax

/-- What a `recv` can do. -/
theorem recv_cases (s : SendData) :
    (s.channel.queue = [] ∧ s.recv = if s.channel.closed then { s with stage := .sending } else s) ∨
    (∃ newSize rest, s.channel.queue = .msg (.windowAdjusted newSize) :: rest ∧
      s.recv = { s with
        channel := { s.channel with windowSize := newSize, queue := rest }, stage := .sending }) ∨
    ∃ m rest, s.channel.queue = m :: rest ∧ totals (m :: rest) = totals rest ∧
      s.recv = { s with channel := { s.channel with queue := rest } } := by
  unfold SendData.recv
  cases s.channel.queue with
  | nil => exact .inl ⟨rfl, rfl⟩
  | cons m rest =>
    cases m with
    | opened id maxPacketSize windowSize => exact .inr (.inr ⟨_, rest, rfl, rfl, rfl⟩)
    | msg m =>
      cases m with
      | windowAdjusted newSize => exact .inr (.inl ⟨newSize, rest, rfl, rfl⟩)
      | _ => exact .inr (.inr ⟨_, rest, rfl, rfl, rfl⟩)

/-- A wait that receives keeps it. -/
theorem SendData.Sound.recv (h : SendData.Sound start s) (hstage : s.stage = .waiting) :
    SendData.Sound start s.recv := by
  have hempty := h.waits hstage
  have haccount := h.account
  have hgranted : s.channel.granted = s.channel.windowSize.toNat + credits s.channel.queue := rfl
  rcases recv_cases s with ⟨-, hrecv⟩ | ⟨newSize, rest, hqueue, hrecv⟩ | ⟨m, rest, hqueue, hm, hrecv⟩
  · rw [hrecv]
    split
    · exact ⟨h.maxPacketSize, nofun, nofun, h.carries, h.account, h.stuck⟩
    · exact h
  · have hcredits : credits s.channel.queue = newSize.toNat + credits rest := by
      rw [hqueue]
      rfl
    have hafter : s.recv.channel.granted = newSize.toNat + credits rest := by
      rw [hrecv]
      rfl
    rw [hempty, UInt32.toNat_zero] at hgranted
    have hkept : s.recv.channel.granted = s.channel.granted := by omega
    rw [← hkept] at haccount
    rw [hrecv] at haccount ⊢
    exact ⟨h.maxPacketSize, nofun, nofun, h.carries, haccount, h.stuck⟩
  · have hafter : s.recv.channel.granted = s.channel.windowSize.toNat + credits rest := by
      rw [hrecv]
      rfl
    have hcredits : credits s.channel.queue = credits rest := by
      rw [hqueue, credits, hm]
      rfl
    have hkept : s.recv.channel.granted = s.channel.granted := by omega
    rw [← hkept] at haccount
    rw [hrecv] at haccount ⊢
    exact ⟨h.maxPacketSize, h.waits, h.returns, h.carries, haccount, h.stuck⟩

/-- Every step keeps it. -/
theorem SendData.Sound.step (h : SendData.Sound start s) : SendData.Sound start s.step := by
  unfold SendData.step
  cases hstage : s.stage with
  | sending => exact h.send
  | waiting => exact h.recv hstage
  | returned => exact h

/-- What is left to do before the call returns or waits for a message: data,
messages, and a turn of the loop. -/
def SendData.work (s : SendData) : Nat :=
  2 * (s.data.content.length + s.channel.queue.length) + if s.stage = .sending then 1 else 0

/-- The call has returned, or its receiver is empty while it waits. -/
def SendData.Rests (s : SendData) : Prop :=
  s.stage = .returned ∨ (s.stage = .waiting ∧ s.channel.queue = [])

/-- A step before that leaves less to do, when packets have room. -/
theorem step_work (hmax : 0 < s.channel.maxPacketSize) (hrests : ¬ s.Rests) :
    s.step.work < s.work := by
  unfold SendData.step
  cases hstage : s.stage with
  | sending =>
    have hwindow := send_window s
    have hpos := sendable_pos s
    have hlength := s.data.read_length (min s.channel.windowSize s.channel.maxPacketSize).toNat
    have hafter := send_stage s
    have hdata : s.send.data =
        (s.data.read (min s.channel.windowSize s.channel.maxPacketSize).toNat).2 := rfl
    have hqueue : s.send.channel.queue = s.channel.queue := rfl
    rw [← hdata] at hlength
    simp only [SendData.work, hstage, hqueue, if_true]
    by_cases hnone :
        (s.data.read (min s.channel.windowSize s.channel.maxPacketSize).toNat).1.length = 0
    · -- an empty read ends the loop, or finds the window used up
      have hleft : s.send.stage ≠ .sending := by
        rw [hafter]
        by_cases hsome : 0 < min s.channel.windowSize s.channel.maxPacketSize
        · rw [if_pos ⟨hsome, hnone⟩]
          decide
        · have hused : ¬ 0 < s.send.channel.windowSize := by
            intro hlt
            have hbefore : 0 < s.channel.windowSize := by
              rw [UInt32.lt_iff_toNat_lt, UInt32.toNat_zero] at hlt ⊢
              omega
            exact hsome (hpos.mpr ⟨hbefore, hmax⟩)
          rw [if_neg fun hboth => hsome hboth.1, if_neg hused]
          decide
      rw [if_neg hleft]
      omega
    · split
      · omega
      · omega
  | waiting =>
    rcases recv_cases s with ⟨hnil, -⟩ | ⟨newSize, rest, hqueue, hrecv⟩ |
      ⟨m, rest, hqueue, -, hrecv⟩
    · exact absurd (.inr ⟨hstage, hnil⟩) hrests
    · simp only [hrecv, SendData.work, hstage, hqueue, List.length_cons, if_true, reduceCtorEq,
        if_false]
      omega
    · simp only [hrecv, SendData.work, hstage, hqueue, List.length_cons, reduceCtorEq, if_false]
      omega
  | returned => exact absurd (.inl hstage) hrests

end

/-! ### A call -/

section
variable {c : ChannelHandle} {ext : Option UInt32} {data : Source UInt8}

/-- A call starts soundly. -/
theorem sound_start : SendData.Sound (c.sendData ext data) (c.sendData ext data) :=
  ⟨rfl, nofun, nofun, rfl, rfl, fun _ => rfl⟩

/-- A call stays sound. -/
theorem sound_run (n : Nat) : SendData.Sound (c.sendData ext data) ((c.sendData ext data).run n) :=
  Set.MapsTo.iterate (s := {s | SendData.Sound (c.sendData ext data) s})
    (fun _ h => SendData.Sound.step h) n sound_start

/-- A call returns or waits for a message at last, when packets have room. -/
theorem run_rests (hmax : 0 < c.maxPacketSize) :
    ∃ n, ((c.sendData ext data).run n).Rests := by
  refine iterate_settles (P := SendData.Sound (c.sendData ext data)) (m := SendData.work)
    (fun s h => h.step) (fun s h hrests => step_work ?_ hrests) sound_start
  rw [h.maxPacketSize]
  exact hmax

/-- A call returns exactly when packets have room and it is granted more than its data. -/
theorem run_returns_iff : (∃ n, ((c.sendData ext data).run n).stage = .returned) ↔
    0 < c.maxPacketSize ∧ data.content.length < c.granted := by
  constructor
  · rintro ⟨n, hreturned⟩
    have hsound : SendData.Sound (c.sendData ext data) ((c.sendData ext data).run n) :=
      sound_run n
    obtain ⟨hend, hwindow, hmax⟩ := hsound.returns hreturned
    have haccount := hsound.account
    rw [hend, List.length_nil, Nat.add_zero] at haccount
    have hgranted : ((c.sendData ext data).run n).channel.granted =
        ((c.sendData ext data).run n).channel.windowSize.toNat +
          credits ((c.sendData ext data).run n).channel.queue := rfl
    have hstart : (c.sendData ext data).channel.granted = c.granted := rfl
    have hdata : (c.sendData ext data).data.content = data.content := rfl
    rw [hsound.maxPacketSize] at hmax
    rw [UInt32.lt_iff_toNat_lt, UInt32.toNat_zero] at hwindow
    rw [hdata, hstart] at haccount
    exact ⟨hmax, by omega⟩
  · rintro ⟨hmax, hgranted⟩
    obtain ⟨n, hrests⟩ : ∃ n, ((c.sendData ext data).run n).Rests := run_rests hmax
    rcases hrests with hreturned | ⟨hwaiting, hempty⟩
    · exact ⟨n, hreturned⟩
    · have hsound : SendData.Sound (c.sendData ext data) ((c.sendData ext data).run n) :=
        sound_run n
      have haccount := hsound.account
      have hnone : ((c.sendData ext data).run n).channel.granted = 0 := by
        simp only [ChannelHandle.granted, hsound.waits hwaiting, hempty, UInt32.toNat_zero]
        rfl
      have hstart : (c.sendData ext data).channel.granted = c.granted := rfl
      have hdata : (c.sendData ext data).data.content = data.content := rfl
      rw [hdata, hstart] at haccount
      omega

/-- Nothing is sent but the data, in order. -/
theorem run_payload (n : Nat) : ((c.sendData ext data).run n).payload ++
    ((c.sendData ext data).run n).data.content = data.content :=
  (sound_run n).carries

/-- When a call has returned it has sent its data. -/
theorem run_returned {n : Nat} (h : ((c.sendData ext data).run n).stage = .returned) :
    ((c.sendData ext data).run n).payload = data.content := by
  have hcarries : ((c.sendData ext data).run n).payload ++
      ((c.sendData ext data).run n).data.content = data.content := run_payload n
  rw [((sound_run n).returns h).1, List.append_nil] at hcarries
  exact hcarries

/-- Data that is granted and can be put into packets is sent. -/
theorem run_reaches (hgranted : data.content.length ≤ c.granted)
    (hroom : data.content = [] ∨ 0 < c.maxPacketSize) :
    ∃ n, ((c.sendData ext data).run n).payload = data.content := by
  rcases hroom with hnil | hmax
  · refine ⟨0, ?_⟩
    rw [hnil]
    rfl
  · obtain ⟨n, hrests⟩ : ∃ n, ((c.sendData ext data).run n).Rests := run_rests hmax
    refine ⟨n, ?_⟩
    rcases hrests with hreturned | ⟨hwaiting, hempty⟩
    · exact run_returned hreturned
    · have hsound : SendData.Sound (c.sendData ext data) ((c.sendData ext data).run n) :=
        sound_run n
      have haccount := hsound.account
      have hcarries : ((c.sendData ext data).run n).payload ++
          ((c.sendData ext data).run n).data.content = data.content := run_payload n
      have hnone : ((c.sendData ext data).run n).channel.granted = 0 := by
        simp only [ChannelHandle.granted, hsound.waits hwaiting, hempty, UInt32.toNat_zero]
        rfl
      have hstart : (c.sendData ext data).channel.granted = c.granted := rfl
      have hdata : (c.sendData ext data).data.content = data.content := rfl
      rw [hdata, hstart] at haccount
      have hleft : ((c.sendData ext data).run n).data.content = [] :=
        List.length_eq_zero_iff.mp (by omega)
      rw [hleft, List.append_nil] at hcarries
      exact hcarries

/-- A call ends on a closed channel, and sends its data on an open one,
exactly when it is granted more than its data before the channel is closed,
and packets have room for data that is granted. -/
theorem sendData_serves_iff :
    (c.sendData ext data).Serves ↔ (c.sendData ext data).Ample := by
  constructor
  · intro h
    constructor
    · intro hclosed
      exact run_returns_iff.mp (h.ends hclosed)
    · intro hopen hgranted
      by_cases hmax : 0 < c.maxPacketSize
      · exact .inr hmax
      · obtain ⟨n, hsent⟩ := h.reaches hopen hgranted
        have hzero : c.maxPacketSize = 0 := by
          rw [UInt32.lt_iff_toNat_lt, UInt32.toNat_zero] at hmax
          exact UInt32.toNat_inj.mp (by rw [UInt32.toNat_zero]; omega)
        -- all of the data is still there, and so is nothing
        have hlengths : ((c.sendData ext data).run n).payload ++
            ((c.sendData ext data).run n).data.content = data.content := run_payload n
        have hcarries := congrArg List.length hlengths
        rw [List.length_append, hsent, (sound_run n).stuck hzero] at hcarries
        have hdata : (c.sendData ext data).data.content = data.content := rfl
        rw [hdata] at hcarries ⊢
        exact .inl (List.length_eq_zero_iff.mp (by omega))
  · intro h
    constructor
    · intro hclosed
      exact run_returns_iff.mpr (h.closed hclosed)
    · intro _ n
      exact ⟨⟨_, run_payload n⟩, run_returned⟩
    · intro hopen hgranted
      exact run_reaches hgranted (h.opened hopen hgranted)

end

/-- One byte, a window for one byte, and a channel that is closed then: the
call sends the byte and goes on for ever. -/
theorem sendData_repeats :
    ¬ (ChannelHandle.sendData ⟨0, 1, 1, [], true, []⟩ none ⟨[[0]], by decide⟩).Serves := by
  intro h
  have hreturns := run_returns_iff.mp (h.ends rfl)
  exact absurd hreturns.2 (by decide)

end Thrussh.Client
