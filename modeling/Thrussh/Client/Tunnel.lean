import Thrussh.Client.Mirror

/-!
# The loop of a tunnel that sends to the channel

`RemoteTunnel::send_to_ssh_loop` copies a stream to a channel. It reads at
most what its window and the packet size less 64 allow, takes an empty read
for the end of the stream, and waits with its window used up for the next
message that `receive_msg_loop` routes to it. An empty read is also what an
empty buffer gives, and the wait knows only `WindowAdjusted`. The window is
set to the total it is told, which is the session's when it was told.
-/

namespace Thrussh.Client

open Lib

/-- Where the loop stands. -/
inductive LoopStage where
  | sending
  | waiting
  | returned
  | panicked
  deriving DecidableEq

/-- `RemoteTunnel::send_to_ssh_loop`, with what it works on. -/
structure SshLoop where
  /-- The channel's number. -/
  channelId : UInt32
  /-- The messages in its receiver. -/
  receiver : List OpenChannelMsg
  /-- Whether the sender of the receiver is gone. -/
  closed : Bool
  /-- What may still be sent. -/
  windowSize : UInt32
  /-- The largest packet of the peer. -/
  maxPacketSize : UInt32
  /-- What is left of the stream. -/
  data : Source UInt8
  /-- Where it stands. -/
  stage : LoopStage
  /-- History: what it has sent to the session. -/
  sent : List Msg

/-- The size of the buffer. -/
def SshLoop.sendable (l : SshLoop) : UInt32 := min l.windowSize (l.maxPacketSize - 64)

/-- What it reads when it goes on. -/
def SshLoop.next (l : SshLoop) : Bytes := (l.data.read l.sendable.toNat).1

/-- The loop from its head to the wait. -/
def SshLoop.send (l : SshLoop) : SshLoop :=
  if l.maxPacketSize < 64 then { l with stage := .panicked } -- `max_packet_size - 64`
  else
    let read := l.data.read l.sendable.toNat
    let window := l.windowSize - UInt32.ofNat read.1.length
    if read.1.length = 0 then
      { l with
        data := read.2, windowSize := window, sent := l.sent ++ [.eof l.channelId]
        stage := .returned }
    else
      { l with
        data := read.2, windowSize := window, sent := l.sent ++ [.data l.channelId read.1]
        stage := if 0 < window then .sending else .waiting }

/-- One `recv` in the wait for the window. -/
def SshLoop.recv (l : SshLoop) : SshLoop :=
  match l.receiver with
  | .msg (.windowAdjusted newSize) :: rest =>
    { l with windowSize := newSize, receiver := rest, stage := .sending }
  | _ :: rest => { l with receiver := rest, stage := .panicked }
  | [] => if l.closed then { l with stage := .sending } else l

/-- One step of the loops. -/
def SshLoop.step (l : SshLoop) : SshLoop :=
  match l.stage with
  | .sending => l.send
  | .waiting => l.recv
  | .returned => l
  | .panicked => l

/-- What the loop has sent. -/
def SshLoop.payload (l : SshLoop) : Bytes := l.sent.flatMap Msg.payload

/-- What `receive_msg_loop` does with a message: what it passes to the loop
that sends to the socket, and to the one that sends to the channel. It panics
on any other. -/
def route : OpenChannelMsg → Option (List OpenChannelMsg × List OpenChannelMsg)
  | .msg (.data data) => some ([.msg (.data data)], [])
  | .msg .eof => some ([.msg .eof], [.msg .eof])
  | .msg (.windowAdjusted newSize) => some ([], [.msg (.windowAdjusted newSize)])
  | _ => none

section
variable [Deps]

/-- A tunnel on its channel, and the session. -/
structure Tunnel where
  /-- The loop that sends to the channel. -/
  loop : SshLoop
  /-- The messages in the receiver of `receive_msg_loop`. -/
  receiver : List OpenChannelMsg
  /-- History: the messages that have arrived there. -/
  arrived : List OpenChannelMsg
  /-- The number of the receiver's sender. -/
  sender : Nat
  /-- How many of the loop's messages the session has served. -/
  taken : Nat
  /-- The session. -/
  session : Session

/-- What happens to them. -/
inductive Tunnel.Deed where
  /-- A step of the loop. -/
  | turn
  /-- `receive_msg_loop` routes the next message. -/
  | route
  /-- `receive_msg_loop` ends, and drops its senders. -/
  | drop
  /-- The session serves the next message of the loop. -/
  | take
  /-- The session serves a CHANNEL_WINDOW_ADJUST for the channel. -/
  | adjust (buf : Bytes)
  /-- Anything else that the session does. -/
  | other (t : Session)

/-- The session goes on, and what it sends to the channel arrives. -/
def Tunnel.hear (m : Tunnel) (t : Session) : Tunnel :=
  let new := heard m.sender (t.sent.drop m.session.sent.length)
  { m with session := t, receiver := m.receiver ++ new, arrived := m.arrived ++ new }

/-- One deed, if it is possible. -/
def Tunnel.step (app : Application) (m : Tunnel) : Tunnel.Deed → Option Tunnel
  | .turn => some { m with loop := m.loop.step }
  | .route =>
    match m.receiver with
    | [] => none
    | x :: rest =>
      if m.loop.closed then none
      else
        match Client.route x with
        | some (_, ssh) => some { m with
            receiver := rest, loop := { m.loop with receiver := m.loop.receiver ++ ssh } }
        | none => some { m with receiver := rest, loop := { m.loop with closed := true } }
  | .drop => some { m with loop := { m.loop with closed := true } }
  | .take =>
    match m.loop.sent[m.taken]? with
    | none => none
    | some message =>
      match serveMessage message m.session with
      | .ok _ t => some (Tunnel.hear { m with taken := m.taken + 1 } t)
      | .error _ _ => none
  | .adjust buf =>
    if (readAdjust m.loop.channelId buf).isSome = true then
      match clientReadWindowAdjust app buf m.session with
      | .ok _ t => some (m.hear t)
      | .error _ _ => none
    else none
  | .other t => some (m.hear t)

/-- A run. -/
def Tunnel.run (app : Application) (m : Tunnel) (deeds : List Tunnel.Deed) : Option Tunnel :=
  deeds.foldlM (Tunnel.step app) m

/-- The totals that the loop has not read. -/
def Tunnel.unread (m : Tunnel) : List UInt32 := totals m.loop.receiver ++ totals m.receiver

/-- How much of what the loop has sent the session has not served. -/
def Tunnel.inFlight (m : Tunnel) : Nat :=
  ((m.loop.sent.drop m.taken).flatMap Msg.payload).length

/-- What the peer grants the channel by a deed. -/
def Tunnel.Deed.grants (id : UInt32) : Tunnel.Deed → Nat
  | .adjust buf => (readAdjust id buf).elim 0 UInt32.toNat
  | _ => 0

/-- The loop reads into a buffer of some size until the stream is at its end,
and receives nothing but totals. -/
def Tunnel.Steady (m : Tunnel) : Tunnel.Deed → Prop
  | .turn => (m.loop.stage = .sending → 64 ≤ m.loop.maxPacketSize ∧
      (0 < m.loop.sendable ∨ m.loop.data.content = [])) ∧
    (m.loop.stage = .waiting → ∀ x rest, m.loop.receiver = x :: rest →
      ∃ newSize, x = .msg (.windowAdjusted newSize))
  | _ => True

/-- The session has served all data before what the peer grants, no data are sent
while a total is unread, and nothing else in the session concerns the sending side. -/
def Tunnel.Punctual (m : Tunnel) : Tunnel.Deed → Prop
  | .turn => m.loop.stage = .sending → m.loop.next ≠ [] → m.unread = []
  | .adjust _ => m.inFlight = 0
  | .other t => Elsewhere m.loop.channelId m.sender m.session t
  | _ => True

/-- A tunnel that has just been started. -/
structure Tunnel.Fresh (m : Tunnel) : Prop where
  /-- The loop starts, with nothing sent and nothing received. -/
  loop : m.loop.stage = .sending ∧ m.loop.sent = [] ∧ m.loop.receiver = []
  /-- Nothing has arrived, and nothing has been served. -/
  empty : m.receiver = [] ∧ m.arrived = [] ∧ m.taken = 0
  /-- The session has the channel, with the same window and nothing queued, and its sender. -/
  entry : m.session.channels m.loop.channelId = some m.sender ∧
    ∃ ch, m.session.entry m.loop.channelId = some ch ∧
      ch.recipientWindowSize = m.loop.windowSize ∧ ch.pendingData = []

/-- `RemoteTunnel::new` and `RemoteTunnel::run`, with the stream of the socket. -/
def Tunnel.given (channel : ChannelHandle) (data : Source UInt8) (sender : Nat)
    (session : Session) : Tunnel :=
  ⟨⟨channel.id, [], false, channel.windowSize, channel.maxPacketSize, data, .sending, []⟩,
    channel.queue, [], sender, 0, session⟩

/-- A loop that copies a stream. -/
structure Tunnel.Copies (content : Bytes) (granted : Nat) (m : Tunnel) : Prop where
  /-- It does not panic. -/
  alive : m.loop.stage ≠ .panicked
  /-- It sends a prefix of the stream. -/
  carries : m.loop.payload <+: content
  /-- It sends EOF behind the whole stream. -/
  ends : ∀ id, .eof id ∈ m.loop.sent → m.loop.payload = content
  /-- It sends no more than its window and the totals it is told. -/
  within : m.loop.payload.length ≤ granted

end

/-! ### The loop -/

section
variable {l : SshLoop}

/-- A read leaves a window that has room for it. -/
theorem next_window (l : SshLoop) :
    (l.windowSize - UInt32.ofNat l.next.length).toNat + l.next.length = l.windowSize.toNat := by
  have hread := l.data.read_le l.sendable.toNat
  have hmin := toNat_min l.windowSize (l.maxPacketSize - 64)
  have hbound := l.windowSize.toNat_lt
  change l.next.length ≤ l.sendable.toNat at hread
  change l.sendable.toNat = _ at hmin
  have hn : (UInt32.ofNat l.next.length).toNat = l.next.length := by
    rw [UInt32.toNat_ofNat', Nat.mod_eq_of_lt (by omega)]
  have hle : UInt32.ofNat l.next.length ≤ l.windowSize := by
    rw [UInt32.le_iff_toNat_le, hn]
    omega
  rw [UInt32.toNat_sub_of_le _ _ hle, hn]
  omega

/-- What the loop does when it goes on: it panics, ends, or sends what it has read. -/
theorem SshLoop.send_cases (l : SshLoop) :
    (l.maxPacketSize < 64 ∧ l.send = { l with stage := .panicked }) ∨
    (64 ≤ l.maxPacketSize ∧ ∃ (data : Source UInt8) (window : UInt32),
      l.next ++ data.content = l.data.content ∧
      window.toNat + l.next.length = l.windowSize.toNat ∧
      ((l.next = [] ∧ l.send = { l with
          data := data, windowSize := window, sent := l.sent ++ [.eof l.channelId]
          stage := .returned }) ∨
        (l.next ≠ [] ∧ l.send = { l with
          data := data, windowSize := window, sent := l.sent ++ [.data l.channelId l.next]
          stage := if 0 < window then .sending else .waiting }))) := by
  by_cases hmax : l.maxPacketSize < 64
  · refine .inl ⟨hmax, ?_⟩
    unfold SshLoop.send
    rw [if_pos hmax]
  · refine .inr ⟨UInt32.not_lt.mp hmax, (l.data.read l.sendable.toNat).2, _,
      l.data.read_content l.sendable.toNat, next_window l, ?_⟩
    unfold SshLoop.send
    rw [if_neg hmax]
    by_cases hnone : l.next = []
    · have hlength : (l.data.read l.sendable.toNat).1.length = 0 := congrArg List.length hnone
      refine .inl ⟨hnone, ?_⟩
      dsimp only
      rw [if_pos hlength]
      rfl
    · have hlength : ¬ (l.data.read l.sendable.toNat).1.length = 0 := fun hzero =>
        hnone (List.length_eq_zero_iff.mp hzero)
      refine .inr ⟨hnone, ?_⟩
      dsimp only
      rw [if_neg hlength]
      rfl

/-- What a `recv` of the loop can do. -/
theorem SshLoop.recv_cases (l : SshLoop) :
    (l.receiver = [] ∧ (l.recv = l ∨ l.recv = { l with stage := .sending })) ∨
    (∃ newSize rest, l.receiver = .msg (.windowAdjusted newSize) :: rest ∧
      l.recv = { l with windowSize := newSize, receiver := rest, stage := .sending }) ∨
    ∃ x rest, l.receiver = x :: rest ∧ (∀ newSize, x ≠ .msg (.windowAdjusted newSize)) ∧
      l.recv = { l with receiver := rest, stage := .panicked } := by
  unfold SshLoop.recv
  cases l.receiver with
  | nil =>
    refine .inl ⟨rfl, ?_⟩
    dsimp only
    by_cases hclosed : l.closed = true
    · rw [if_pos hclosed]
      exact .inr rfl
    · rw [if_neg hclosed]
      exact .inl rfl
  | cons x rest =>
    cases x with
    | opened id maxPacketSize windowSize =>
      exact .inr (.inr ⟨_, rest, rfl, fun _ heq => (by cases heq), rfl⟩)
    | msg m =>
      cases m with
      | windowAdjusted newSize => exact .inr (.inl ⟨newSize, rest, rfl, rfl⟩)
      | _ => exact .inr (.inr ⟨_, rest, rfl, fun _ heq => (by cases heq), rfl⟩)

end

/-- The totals in what is routed to the loop are those of the message. -/
theorem route_totals {x : OpenChannelMsg} {tcp ssh : List OpenChannelMsg}
    (h : route x = some (tcp, ssh)) (rest : List OpenChannelMsg) :
    totals ssh ++ totals rest = totals (x :: rest) := by
  unfold route at h
  split at h
  · cases h
    rfl
  · cases h
    rfl
  · cases h
    rfl
  · cases h

/-- What is not routed is no total. -/
theorem route_none {x : OpenChannelMsg} (h : route x = none) (rest : List OpenChannelMsg) :
    totals (x :: rest) = totals rest := by
  refine totals_none (fun newSize heq => ?_) rest
  rw [heq] at h
  cases h

/-! ### The copy -/

section
variable [Deps] {app : Application} {m m' : Tunnel} {content : Bytes} {start granted balance : Nat}

/-- What holds at every moment of a loop that copies a stream. -/
structure Tunnel.Copying (content : Bytes) (start : Nat) (m : Tunnel) : Prop where
  /-- It does not panic. -/
  alive : m.loop.stage ≠ .panicked
  /-- It waits with its window used up. -/
  waits : m.loop.stage = .waiting → m.loop.windowSize = 0
  /-- What was sent and what is left make up the stream. -/
  carries : m.loop.payload ++ m.loop.data.content = content
  /-- After EOF nothing is left. -/
  ends : ∀ id, .eof id ∈ m.loop.sent → m.loop.data.content = []
  /-- What was sent, what may be sent and the totals that are unread are what the loop
  has been told. -/
  account : m.loop.payload.length + m.loop.windowSize.toNat +
    (m.unread.map UInt32.toNat).sum = start + credits m.arrived

/-- A step of the loop that is steady. -/
theorem Tunnel.Copying.turn (h : m.Copying content start) (hsteady : m.Steady .turn) :
    Tunnel.Copying content start { m with loop := m.loop.step } := by
  unfold SshLoop.step
  cases hstage : m.loop.stage with
  | sending =>
    obtain ⟨hmax, hroom⟩ := hsteady.1 hstage
    have hnil : m.loop.next = [] ↔ m.loop.sendable.toNat = 0 ∨ m.loop.data.content = [] :=
      m.loop.data.read_eq_nil _
    have hcarries := h.carries
    have haccount := h.account
    rcases m.loop.send_cases with ⟨hpanic, -⟩ | ⟨-, data, window, hread, hwindow, hsend⟩
    · exact absurd hmax (UInt32.not_le.mpr hpanic)
    · rcases hsend with ⟨hnone, hsend⟩ | ⟨hsome, hsend⟩
      · -- the read is empty at the end of the stream only
        have hend : m.loop.data.content = [] := by
          rcases hnil.mp hnone with hzero | hend
          · refine hroom.resolve_left fun hpos => ?_
            rw [UInt32.lt_iff_toNat_lt, UInt32.toNat_zero] at hpos
            omega
          · exact hend
        rw [hnone, List.nil_append] at hread
        rw [hnone, List.length_nil, Nat.add_zero] at hwindow
        have hpayload : m.loop.send.payload = m.loop.payload := by
          rw [hsend]
          simp only [SshLoop.payload, List.flatMap_append, List.flatMap_cons, Msg.payload,
            List.flatMap_nil, List.append_nil]
        have hsame : window = m.loop.windowSize := UInt32.toNat_inj.mp hwindow
        dsimp only
        rw [hsend] at hpayload ⊢
        refine ⟨fun heq => (by cases heq), fun heq => (by cases heq), ?_,
          fun _ _ => hread.trans hend, ?_⟩
        · rw [hpayload, hread]
          exact hcarries
        · rw [hpayload, hsame]
          exact haccount
      · have hpayload : m.loop.send.payload = m.loop.payload ++ m.loop.next := by
          rw [hsend]
          simp only [SshLoop.payload, List.flatMap_append, List.flatMap_cons, Msg.payload,
            List.flatMap_nil, List.append_nil]
        dsimp only
        rw [hsend] at hpayload ⊢
        refine ⟨?_, ?_, ?_, ?_, ?_⟩
        · dsimp only
          split
          · decide
          · decide
        · dsimp only
          intro hwaiting
          by_cases hleft : 0 < window
          · rw [if_pos hleft] at hwaiting
            cases hwaiting
          · rw [UInt32.lt_iff_toNat_lt, UInt32.toNat_zero] at hleft
            exact UInt32.toNat_inj.mp (by rw [UInt32.toNat_zero]; omega)
        · rw [hpayload, List.append_assoc, hread]
          exact hcarries
        · intro id hid
          have hbefore : .eof id ∈ m.loop.sent := by
            rcases List.mem_append.mp hid with hold | hnew
            · exact hold
            · cases List.mem_singleton.mp hnew
          rw [h.ends id hbefore] at hread
          exact (List.append_eq_nil_iff.mp hread).2
        · rw [hpayload, List.length_append]
          change m.loop.payload.length + m.loop.next.length + window.toNat +
            (m.unread.map UInt32.toNat).sum = start + credits m.arrived
          omega
  | waiting =>
    have hempty := h.waits hstage
    have haccount := h.account
    rcases m.loop.recv_cases with ⟨-, hrecv | hrecv⟩ | ⟨newSize, rest, hqueue, hrecv⟩ |
      ⟨x, rest, hqueue, hother, -⟩
    · dsimp only
      rw [hrecv]
      exact h
    · dsimp only
      rw [hrecv]
      exact ⟨fun heq => (by cases heq), fun heq => (by cases heq), h.carries, h.ends, h.account⟩
    · have hunread : m.unread = newSize :: (totals rest ++ totals m.receiver) := by
        unfold Tunnel.unread
        rw [hqueue]
        rfl
      rw [hunread, List.map_cons, List.sum_cons, hempty, UInt32.toNat_zero] at haccount
      dsimp only
      rw [hrecv]
      refine ⟨fun heq => (by cases heq), fun heq => (by cases heq), h.carries, h.ends, ?_⟩
      change m.loop.payload.length + newSize.toNat +
        ((totals rest ++ totals m.receiver).map UInt32.toNat).sum = start + credits m.arrived
      omega
    · obtain ⟨newSize, hx⟩ := hsteady.2 hstage x rest hqueue
      exact absurd hx (hother newSize)
  | returned => exact h
  | panicked => exact h

/-- What arrives is behind what has arrived. -/
theorem Tunnel.hear_unread (m : Tunnel) (t : Session) : (m.hear t).unread =
    m.unread ++ totals (heard m.sender (t.sent.drop m.session.sent.length)) := by
  change totals m.loop.receiver ++ totals (m.receiver ++ _) = _
  rw [totals_append, ← List.append_assoc]
  rfl

/-- What arrives is told. -/
theorem Tunnel.Copying.hear (h : m.Copying content start) (t : Session) (taken : Nat) :
    Tunnel.Copying content start (Tunnel.hear { m with taken := taken } t) := by
  have haccount := h.account
  have hunread : (Tunnel.hear { m with taken := taken } t).unread =
      m.unread ++ totals (heard m.sender (t.sent.drop m.session.sent.length)) :=
    Tunnel.hear_unread { m with taken := taken } t
  have harrived : credits (Tunnel.hear { m with taken := taken } t).arrived = credits m.arrived +
      ((totals (heard m.sender (t.sent.drop m.session.sent.length))).map UInt32.toNat).sum := by
    change ((totals (m.arrived ++ _)).map UInt32.toNat).sum = _
    rw [totals_append, List.map_append, List.sum_append]
    rfl
  refine ⟨h.alive, h.waits, h.carries, h.ends, ?_⟩
  rw [hunread, harrived, List.map_append, List.sum_append, ← Nat.add_assoc, ← Nat.add_assoc,
    ← haccount]
  rfl

/-- What is routed is not lost. -/
theorem Tunnel.unread_route {x : OpenChannelMsg} {rest tcp ssh : List OpenChannelMsg}
    (hqueue : m.receiver = x :: rest) (hroute : route x = some (tcp, ssh)) :
    Tunnel.unread { m with
      receiver := rest, loop := { m.loop with receiver := m.loop.receiver ++ ssh } } =
        m.unread := by
  change totals (m.loop.receiver ++ ssh) ++ totals rest =
    totals m.loop.receiver ++ totals m.receiver
  rw [totals_append, List.append_assoc, route_totals hroute, hqueue]

/-- What is not routed is no total. -/
theorem Tunnel.unread_end {x : OpenChannelMsg} {rest : List OpenChannelMsg}
    (hqueue : m.receiver = x :: rest) (hroute : route x = none) :
    Tunnel.unread { m with receiver := rest, loop := { m.loop with closed := true } } =
      m.unread := by
  change totals m.loop.receiver ++ totals rest = totals m.loop.receiver ++ totals m.receiver
  rw [hqueue, route_none hroute]

/-- A deed that is steady. -/
theorem Tunnel.Copying.step (h : m.Copying content start) {deed : Tunnel.Deed}
    (hsteady : m.Steady deed) (hstep : m.step app deed = some m') : m'.Copying content start := by
  cases deed with
  | turn =>
    cases hstep
    exact h.turn hsteady
  | route =>
    simp only [Tunnel.step] at hstep
    split at hstep
    · cases hstep
    · rename_i x rest hqueue
      split at hstep
      · cases hstep
      · split at hstep
        · rename_i tcp ssh hroute
          cases hstep
          exact ⟨h.alive, h.waits, h.carries, h.ends, by
            rw [Tunnel.unread_route hqueue hroute]; exact h.account⟩
        · rename_i hroute
          cases hstep
          exact ⟨h.alive, h.waits, h.carries, h.ends, by
            rw [Tunnel.unread_end hqueue hroute]; exact h.account⟩
  | drop =>
    cases hstep
    exact ⟨h.alive, h.waits, h.carries, h.ends, h.account⟩
  | take =>
    simp only [Tunnel.step] at hstep
    split at hstep
    · cases hstep
    · split at hstep
      · rename_i t hserve
        cases hstep
        exact h.hear t (m.taken + 1)
      · cases hstep
  | adjust buf =>
    simp only [Tunnel.step] at hstep
    split at hstep
    · split at hstep
      · rename_i t hserve
        cases hstep
        exact h.hear t m.taken
      · cases hstep
    · cases hstep
  | other t =>
    cases hstep
    exact h.hear t m.taken

/-- What starts, copies. -/
theorem Tunnel.Fresh.copying (h : m.Fresh) :
    m.Copying m.loop.data.content m.loop.windowSize.toNat := by
  obtain ⟨hstage, hsent, hqueue⟩ := h.loop
  obtain ⟨hreceiver, harrived, -⟩ := h.empty
  have hpayload : m.loop.payload = [] := by
    unfold SshLoop.payload
    rw [hsent]
    rfl
  have hunread : m.unread = [] := by
    unfold Tunnel.unread
    rw [hqueue, hreceiver]
    rfl
  constructor
  · rw [hstage]
    decide
  · rw [hstage]
    intro heq
    cases heq
  · rw [hpayload, List.nil_append]
  · intro id hid
    rw [hsent] at hid
    exact absurd hid List.not_mem_nil
  · rw [hpayload, hunread, harrived, List.length_nil, Nat.zero_add]
    rfl

/-- What a loop that copies has done at every moment. -/
theorem Tunnel.Copying.copies (h : m.Copying content start) :
    m.Copies content (start + credits m.arrived) := by
  have hcarries := h.carries
  have haccount := h.account
  constructor
  · exact h.alive
  · exact ⟨_, hcarries⟩
  · intro id hid
    rw [h.ends id hid, List.append_nil] at hcarries
    exact hcarries
  · omega

/-! ### The credit -/

/-- The loop's window as a credit that the session keeps. -/
def Tunnel.credit (m : Tunnel) (granted balance : Nat) : Credit :=
  ⟨granted, balance, m.loop.windowSize.toNat, m.inFlight, m.loop.payload.length,
    m.unread.map UInt32.toNat⟩

/-- The loop's window is a credit, of which the session keeps the balance. -/
structure Tunnel.Tracks (granted balance : Nat) (m : Tunnel) : Prop where
  /-- The session's window is the balance. -/
  holds : Holds m.loop.channelId m.sender m.session balance
  /-- The session serves what has been sent. -/
  taken : m.taken ≤ m.loop.sent.length
  /-- All of it are data of the channel, and EOF. -/
  own : ∀ message ∈ m.loop.sent, message.Own m.loop.channelId
  /-- The credit is sound. -/
  sound : (m.credit granted balance).Sound

/-- A message of the loop, with what it carries taken off the window. -/
theorem Tunnel.Tracks.send (h : m.Tracks granted balance) {data : Source UInt8} {window : UInt32}
    {stage : LoopStage} {message : Msg} (hown : message.Own m.loop.channelId)
    (hwindow : window.toNat + message.payload.length = m.loop.windowSize.toNat)
    (hheard : message.payload ≠ [] → m.unread = []) :
    Tunnel.Tracks granted balance { m with loop := { m.loop with
      data := data, windowSize := window, sent := m.loop.sent ++ [message], stage := stage } } := by
  set after : Tunnel := { m with loop := { m.loop with
    data := data, windowSize := window, sent := m.loop.sent ++ [message], stage := stage } }
  have hflight : after.inFlight = m.inFlight + message.payload.length := by
    change (((m.loop.sent ++ [message]).drop m.taken).flatMap Msg.payload).length = _
    rw [List.drop_append_of_le_length h.taken, List.flatMap_append, List.length_append,
      List.flatMap_singleton]
    rfl
  have hpayload : after.loop.payload.length = m.loop.payload.length + message.payload.length := by
    change ((m.loop.sent ++ [message]).flatMap Msg.payload).length = _
    rw [List.flatMap_append, List.length_append, List.flatMap_singleton]
    rfl
  have hleft : after.loop.windowSize.toNat =
      m.loop.windowSize.toNat - message.payload.length := by
    change window.toNat = _
    omega
  constructor
  · exact h.holds
  · have htaken := h.taken
    change m.taken ≤ (m.loop.sent ++ [message]).length
    rw [List.length_append]
    omega
  · intro x hx
    rcases List.mem_append.mp hx with hold | hnew
    · exact h.own x hold
    · rw [List.mem_singleton.mp hnew]
      exact hown
  · have hsound := h.sound.spend (n := message.payload.length)
      (by change message.payload.length ≤ m.loop.windowSize.toNat; omega) (fun hne => by
        have hnone := hheard fun hnil => hne (List.length_eq_zero_iff.mpr hnil)
        change m.unread.map UInt32.toNat = []
        rw [hnone]
        rfl)
    unfold Tunnel.credit
    rw [hflight, hpayload, hleft]
    exact hsound

/-- A step of the loop. -/
theorem Tunnel.Tracks.turn (h : m.Tracks granted balance) (hpunctual : m.Punctual .turn) :
    Tunnel.Tracks granted balance { m with loop := m.loop.step } := by
  unfold SshLoop.step
  cases hstage : m.loop.stage with
  | sending =>
    dsimp only
    rcases m.loop.send_cases with ⟨-, hsend⟩ | ⟨-, data, window, -, hwindow, hsend⟩
    · rw [hsend]
      exact ⟨h.holds, h.taken, h.own, h.sound⟩
    · rcases hsend with ⟨hnone, hsend⟩ | ⟨hsome, hsend⟩
      · rw [hnone, List.length_nil] at hwindow
        rw [hsend]
        exact h.send (.inr (.inr rfl)) hwindow fun hne => absurd rfl hne
      · rw [hsend]
        exact h.send (.inl ⟨_, rfl⟩) hwindow fun _ => hpunctual hstage hsome
  | waiting =>
    dsimp only
    rcases m.loop.recv_cases with ⟨-, hrecv | hrecv⟩ | ⟨total, rest, hqueue, hrecv⟩ |
      ⟨x, rest, hqueue, hother, hrecv⟩
    · rw [hrecv]
      exact h
    · rw [hrecv]
      exact ⟨h.holds, h.taken, h.own, h.sound⟩
    · have hunread : m.unread = total :: (totals rest ++ totals m.receiver) := by
        unfold Tunnel.unread
        rw [hqueue]
        rfl
      rw [hrecv]
      refine ⟨h.holds, h.taken, h.own, ?_⟩
      have hsound := h.sound.hear
      simp only [Tunnel.credit, Credit.hear, hunread, List.map_cons] at hsound
      exact hsound
    · have hunread : m.unread = totals rest ++ totals m.receiver := by
        unfold Tunnel.unread
        rw [hqueue, totals_none hother]
      rw [hrecv]
      refine ⟨h.holds, h.taken, h.own, ?_⟩
      have hsound := h.sound
      simp only [Tunnel.credit, hunread] at hsound
      exact hsound
  | returned => exact h
  | panicked => exact h

/-- A message of the loop is served. -/
theorem Tunnel.Tracks.take (h : m.Tracks granted balance) {message : Msg} {t : Session}
    (hnext : m.loop.sent[m.taken]? = some message)
    (hserve : serveMessage message m.session = .ok () t) :
    Tunnel.Tracks granted (balance - message.payload.length)
      (Tunnel.hear { m with taken := m.taken + 1 } t) := by
  obtain ⟨hlt, hget⟩ := List.getElem?_eq_some_iff.mp hnext
  have hown := h.own message (hget ▸ List.getElem_mem hlt)
  have hdrop : m.loop.sent.drop m.taken = message :: m.loop.sent.drop (m.taken + 1) := by
    rw [List.drop_eq_getElem_cons hlt, hget]
  set after := Tunnel.hear { m with taken := m.taken + 1 } t with hafter
  have hflight : m.inFlight = message.payload.length + after.inFlight := by
    change _ = _ + ((m.loop.sent.drop (m.taken + 1)).flatMap Msg.payload).length
    unfold Tunnel.inFlight
    rw [hdrop, List.flatMap_cons, List.length_append]
  have hle : m.inFlight ≤ balance := h.sound.inFlight_le
  obtain ⟨hholds, hsent⟩ := h.holds.take hown (by omega) hserve
  have hunread : after.unread = m.unread := by
    rw [hafter, Tunnel.hear_unread]
    change m.unread ++ totals (heard m.sender (t.sent.drop m.session.sent.length)) = m.unread
    rw [hsent, List.drop_length]
    exact List.append_nil _
  refine ⟨hholds, hlt, h.own, ?_⟩
  have hsound := h.sound.settle (n := message.payload.length)
    (by change message.payload.length ≤ m.inFlight; omega)
  have hrest : m.inFlight - message.payload.length = after.inFlight := by omega
  simp only [Tunnel.credit, Credit.settle, hrest] at hsound
  unfold Tunnel.credit
  rw [hunread]
  exact hsound

/-- What the peer grants is told. -/
theorem Tunnel.Tracks.adjust (hdefault : app.Default) (h : m.Tracks granted balance) {buf : Bytes}
    {amount : UInt32} {t : Session} (hread : readAdjust m.loop.channelId buf = some amount)
    (hidle : m.inFlight = 0) (hserve : clientReadWindowAdjust app buf m.session = .ok () t) :
    Tunnel.Tracks (granted + amount.toNat) (balance + amount.toNat) (m.hear t) := by
  obtain ⟨total, hholds, htold, htotal⟩ := h.holds.adjust hdefault hread hserve
  refine ⟨hholds, h.taken, h.own, ?_⟩
  have hsound := h.sound.grant (n := amount.toNat) hidle
  unfold Tunnel.credit
  rw [Tunnel.hear_unread, htold, List.map_append, List.map_singleton, htotal]
  exact hsound

/-- A deed that is punctual keeps the credit. -/
theorem Tunnel.Tracks.step (hdefault : app.Default) (h : m.Tracks granted balance)
    {deed : Tunnel.Deed} (hpunctual : m.Punctual deed) (hstep : m.step app deed = some m') :
    ∃ balance', m'.Tracks (granted + deed.grants m.loop.channelId) balance' := by
  cases deed with
  | turn =>
    cases hstep
    exact ⟨balance, h.turn hpunctual⟩
  | route =>
    simp only [Tunnel.step] at hstep
    split at hstep
    · cases hstep
    · rename_i x rest hqueue
      split at hstep
      · cases hstep
      · split at hstep
        · rename_i tcp ssh hroute
          cases hstep
          refine ⟨balance, h.holds, h.taken, h.own, ?_⟩
          unfold Tunnel.credit
          rw [Tunnel.unread_route hqueue hroute]
          exact h.sound
        · rename_i hroute
          cases hstep
          refine ⟨balance, h.holds, h.taken, h.own, ?_⟩
          unfold Tunnel.credit
          rw [Tunnel.unread_end hqueue hroute]
          exact h.sound
  | drop =>
    cases hstep
    exact ⟨balance, h.holds, h.taken, h.own, h.sound⟩
  | take =>
    simp only [Tunnel.step] at hstep
    split at hstep
    · cases hstep
    · rename_i message hnext
      split at hstep
      · rename_i t hserve
        cases hstep
        exact ⟨_, h.take hnext hserve⟩
      · cases hstep
  | adjust buf =>
    simp only [Tunnel.step] at hstep
    split at hstep
    · rename_i hsome
      split at hstep
      · rename_i t hserve
        cases hstep
        obtain ⟨amount, hread⟩ := Option.isSome_iff_exists.mp hsome
        have hgrants : (Tunnel.Deed.adjust buf).grants m.loop.channelId = amount.toNat := by
          change (readAdjust m.loop.channelId buf).elim 0 UInt32.toNat = _
          rw [hread]
          rfl
        rw [hgrants]
        exact ⟨_, h.adjust hdefault hread hpunctual hserve⟩
      · cases hstep
    · cases hstep
  | other t =>
    cases hstep
    refine ⟨balance, h.holds.other hpunctual, h.taken, h.own, ?_⟩
    unfold Tunnel.credit
    rw [Tunnel.hear_unread, hpunctual.untold, List.append_nil]
    exact h.sound

/-- What starts has its window as a credit. -/
theorem Tunnel.Fresh.tracks (h : m.Fresh) :
    m.Tracks m.loop.windowSize.toNat m.loop.windowSize.toNat := by
  obtain ⟨-, hsent, hqueue⟩ := h.loop
  obtain ⟨hreceiver, -, htaken⟩ := h.empty
  obtain ⟨hsender, ch, hch, hwindow, hpending⟩ := h.entry
  have hpayload : m.loop.payload.length = 0 := by
    unfold SshLoop.payload
    rw [hsent]
    rfl
  have hflight : m.inFlight = 0 := by
    unfold Tunnel.inFlight
    rw [hsent, List.drop_nil]
    rfl
  have hunread : m.unread = [] := by
    unfold Tunnel.unread
    rw [hqueue, hreceiver]
    rfl
  constructor
  · intro ch' hch'
    obtain rfl : ch = ch' := Option.some.inj (hch.symm.trans hch')
    exact ⟨congrArg UInt32.toNat hwindow, hpending, hsender⟩
  · rw [htaken]
    exact Nat.zero_le _
  · rw [hsent]
    exact fun _ hx => absurd hx List.not_mem_nil
  · unfold Tunnel.credit
    rw [hpayload, hflight, hunread]
    exact ⟨fun _ => rfl, fun _ heq => (by cases heq), rfl⟩

/-- No deed changes which channel it is. -/
theorem Tunnel.step_same {deed : Tunnel.Deed} (h : m.step app deed = some m') :
    m'.loop.channelId = m.loop.channelId := by
  cases deed with
  | turn =>
    cases h
    change (m.loop.step).channelId = m.loop.channelId
    unfold SshLoop.step
    cases m.loop.stage with
    | sending =>
      dsimp only
      rcases m.loop.send_cases with ⟨-, hsend⟩ | ⟨-, data, window, -, -, ⟨-, hsend⟩ | ⟨-, hsend⟩⟩
      · rw [hsend]
      · rw [hsend]
      · rw [hsend]
    | waiting =>
      dsimp only
      rcases m.loop.recv_cases with ⟨-, hrecv | hrecv⟩ | ⟨total, rest, -, hrecv⟩ |
        ⟨x, rest, -, -, hrecv⟩
      · rw [hrecv]
      · rw [hrecv]
      · rw [hrecv]
      · rw [hrecv]
    | returned => rfl
    | panicked => rfl
  | route =>
    simp only [Tunnel.step] at h
    split at h
    · cases h
    · split at h
      · cases h
      · split at h
        · cases h
          rfl
        · cases h
          rfl
  | drop =>
    cases h
    rfl
  | take =>
    simp only [Tunnel.step] at h
    split at h
    · cases h
    · split at h
      · cases h
        rfl
      · cases h
  | adjust buf =>
    simp only [Tunnel.step] at h
    split at h
    · split at h
      · cases h
        rfl
      · cases h
    · cases h
  | other t =>
    cases h
    rfl

/-- The same copy with its stream and its credit evaluated. -/
theorem Tunnel.Copies.exact {content' : Bytes} {granted' : Nat} (h : m.Copies content granted)
    (hcontent : content = content') (hgranted : granted = granted') :
    m.Copies content' granted' := by
  rw [← hcontent, ← hgranted]
  exact h

/-- A turn of the loop that reads. -/
theorem Tunnel.steady_sending (hstage : m.loop.stage = .sending) (hmax : 64 ≤ m.loop.maxPacketSize)
    (hroom : 0 < m.loop.sendable ∨ m.loop.data.content = []) : m.Steady .turn := by
  refine ⟨fun _ => ⟨hmax, hroom⟩, fun hwaiting => ?_⟩
  rw [hstage] at hwaiting
  cases hwaiting

/-- A turn of the loop that receives a total. -/
theorem Tunnel.steady_waiting {newSize : UInt32} {rest : List OpenChannelMsg}
    (hstage : m.loop.stage = .waiting)
    (hqueue : m.loop.receiver = .msg (.windowAdjusted newSize) :: rest) : m.Steady .turn := by
  refine ⟨fun hsending => ?_, fun _ x rest' hcons => ?_⟩
  · rw [hstage] at hsending
    cases hsending
  · rw [hqueue] at hcons
    exact ⟨newSize, (List.cons.inj hcons).1.symm⟩

/-! ### The start -/

/-- A tunnel on a channel that has just been confirmed is fresh. -/
theorem Mirror.Fresh.tunnel {channel : ChannelHandle} {sender : Nat} {s : Session}
    (h : (Mirror.given channel sender s).Fresh) (data : Source UInt8) :
    (Tunnel.given channel data sender s).Fresh :=
  ⟨⟨rfl, rfl, rfl⟩, ⟨h.queue, rfl, rfl⟩, h.entry⟩

/-- The tunnel of a forwarded connection starts with the window of the session. -/
theorem forwarded_fresh {s t : Session} {remoteChannel windowSize maxPacketSize : UInt32}
    {sender : Nat} (data : Source UInt8)
    (h : createForwardedTcpipChannel remoteChannel sender windowSize maxPacketSize s = .ok () t) :
    ∃ id, (Tunnel.given ⟨id, maxPacketSize, windowSize, [], false, []⟩ data sender t).Fresh := by
  obtain ⟨id, hfresh⟩ := createForwardedTcpipChannel_fresh h
  exact ⟨id, hfresh.tunnel data⟩

/-! ### Runs -/

/-- A loop that always reads into a buffer of some size before the end of the
stream, and receives nothing but totals, copies the stream. When besides all data
are served before the peer grants more, and none are sent while a total is unread,
it keeps to what the peer grants. -/
theorem tunnel_copies (hdefault : app.Default) (hfresh : m.Fresh) (deeds : List Tunnel.Deed)
    (hsteady : Always (Tunnel.step app) Tunnel.Steady m deeds) (hrun : m.run app deeds = some m') :
    m'.Copies m.loop.data.content (m.loop.windowSize.toNat + credits m'.arrived) ∧
    (Always (Tunnel.step app) Tunnel.Punctual m deeds → m'.loop.payload.length ≤
      m.loop.windowSize.toNat + (deeds.map (Tunnel.Deed.grants m.loop.channelId)).sum) := by
  constructor
  · have hkept := hsteady.kept (w := fun _ => 0) (n := 0)
      (I := fun _ m₁ => m₁.Copying m.loop.data.content m.loop.windowSize.toNat)
      (fun _ m₁ deed m₂ h hdeed hstep => h.step hdeed hstep) hfresh.copying hrun
    exact hkept.copies
  · intro hpunctual
    have hkept := hpunctual.kept (w := Tunnel.Deed.grants m.loop.channelId)
      (I := fun granted m₁ => m₁.loop.channelId = m.loop.channelId ∧
        ∃ balance, m₁.Tracks granted balance)
      (fun granted m₁ deed m₂ ⟨hid, balance, h⟩ hdeed hstep => by
        have hnext := h.step hdefault hdeed hstep
        rw [hid] at hnext
        exact ⟨(Tunnel.step_same hstep).trans hid, hnext⟩) ⟨rfl, _, hfresh.tracks⟩ hrun
    obtain ⟨-, balance, h⟩ := hkept
    exact h.sound.spent_le

end

end Thrussh.Client

namespace Thrussh.Concrete

open Client Lib

/-- A tunnel for two bytes that come one by one, on a channel with a window. -/
def tunnel (window : UInt32) : @Tunnel deps :=
  letI := deps
  { loop := ⟨2, [], false, window, 100, ⟨[[1], [2]], by decide⟩, .sending, []⟩
    receiver := []
    arrived := []
    sender := 0
    taken := 0
    session := { clientWithChannel window with
      channels := Function.update (fun _ => none) 2 (some 0) } }

/-- A byte is sent and served, the peer grants three bytes, which the loop is told,
and the other byte and EOF are sent. -/
def copied : List (@Client.Tunnel.Deed deps) :=
  [@Client.Tunnel.Deed.turn deps, @Client.Tunnel.Deed.take deps,
    @Client.Tunnel.Deed.adjust deps (adjustPacket 2 3), @Client.Tunnel.Deed.route deps,
    @Client.Tunnel.Deed.turn deps, @Client.Tunnel.Deed.turn deps, @Client.Tunnel.Deed.turn deps]

theorem tunnel_fresh : @Tunnel.Fresh deps (tunnel 1) := by
  refine @Tunnel.Fresh.mk deps _ ⟨rfl, rfl, rfl⟩ ⟨rfl, rfl, rfl⟩
    ⟨by decide +kernel, channel 1, ?_, rfl, rfl⟩
  decide +kernel

/-- On a channel whose window is used up EOF is sent ahead of the stream. -/
theorem tunnel_ends : ∃ m', @Tunnel.run deps plainApplication (tunnel 0)
      [@Client.Tunnel.Deed.turn deps] = some m' ∧
    ∀ granted, ¬ @Tunnel.Copies deps [1, 2] granted m' := by
  refine ⟨_, rfl, fun granted h => ?_⟩
  have hall := @Tunnel.Copies.ends deps _ _ _ h 2 (by decide +kernel)
  exact absurd hall (by decide +kernel)

/-- A run that copies the stream. -/
theorem tunnel_copied : ∃ m', @Tunnel.run deps plainApplication (tunnel 1) copied = some m' ∧
    @Tunnel.Copies deps [1, 2] 4 m' ∧ (@Tunnel.loop deps m').payload.length ≤ 4 := by
  have hsome : (@Tunnel.run deps plainApplication (tunnel 1) copied).isSome = true := by
    decide +kernel
  refine ⟨_, foldlM_getD hsome, ?_⟩
  have hsteady : Always (@Tunnel.step deps plainApplication) (@Tunnel.Steady deps) (tunnel 1)
      copied := by
    refine .cons ?_ (.cons trivial (.cons trivial (.cons trivial
      (.cons ?_ (.cons ?_ (.cons ?_ trivial))))))
    · refine @Tunnel.steady_sending deps _ ?_ ?_ ?_
      all_goals decide +kernel
    · refine @Tunnel.steady_waiting deps _ 3 [] ?_ ?_
      all_goals decide +kernel
    · refine @Tunnel.steady_sending deps _ ?_ ?_ ?_
      all_goals decide +kernel
    · refine @Tunnel.steady_sending deps _ ?_ ?_ ?_
      all_goals decide +kernel
  have hpunctual : Always (@Tunnel.step deps plainApplication) (@Tunnel.Punctual deps) (tunnel 1)
      copied := by
    refine .cons ?_ (.cons trivial (.cons ?_ (.cons trivial
      (.cons ?_ (.cons ?_ (.cons ?_ trivial))))))
    · exact fun _ _ => by decide +kernel
    · change @Tunnel.inFlight deps _ = 0
      decide +kernel
    · exact fun hsending => absurd hsending (by decide +kernel)
    · exact fun _ _ => by decide +kernel
    · exact fun _ _ => by decide +kernel
  have hcopies := @tunnel_copies deps plainApplication (tunnel 1) _ plainApplication_default
    tunnel_fresh copied hsteady (foldlM_getD hsome)
  exact ⟨@Tunnel.Copies.exact deps _ _ _ _ _ hcopies.1 rfl (by decide +kernel),
    Nat.le_trans (hcopies.2 hpunctual) (by decide +kernel)⟩

end Thrussh.Concrete
