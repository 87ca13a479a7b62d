import Mathlib.Algebra.Order.BigOperators.Group.List
import Mathlib.Algebra.Order.Group.Nat
import Thrussh.Window

/-!
# The windows of both endpoints of a channel

Two endpoints of a channel and the packets on their way between them. What
the sender may still send, the payload on its way to the receiver and the
window increments on their way back always add up to what the receiver
still takes, in both directions, whatever the endpoints submit and in
whatever order packets are delivered.
-/

namespace Thrussh

open Lib

section
variable [Deps]

/-- Two endpoints of a channel and the packets on their way between them, the
oldest first. -/
structure Link where
  /-- One endpoint. -/
  a : Encrypted
  /-- The other. -/
  b : Encrypted
  /-- On their way to `b`. -/
  toB : List Bytes
  /-- On their way to `a`. -/
  toA : List Bytes

/-- What an endpoint does. -/
inductive Action where
  /-- It submits something to the channel. -/
  | submit (what : Submission)
  /-- It gets the next packet; `target` is the window it wants to grant. -/
  | deliver (target : UInt32)
  deriving DecidableEq, Repr

/-- The buffers that an action submits are shorter than `2 ^ 32` bytes. -/
def Action.Short : Action → Prop
  | .submit what => what.Short
  | .deliver _ => True

/-- The endpoints. -/
inductive Side where
  | a | b
  deriving DecidableEq, Repr

namespace Link

/-- The link seen from the other side. -/
def flip (l : Link) : Link := ⟨l.b, l.a, l.toA, l.toB⟩

/-- The endpoint `a` has changed: what it has queued is on its way. -/
def update (l : Link) (enc : Encrypted) : Link :=
  { l with a := enc, toB := l.toB ++ enc.emitted.drop l.a.emitted.length }

/-- An action of the endpoint `a`, whose number for the channel is `id`. -/
def act (id : UInt32) (l : Link) : Action → Except Fault Link
  | .submit what => do
    let enc ← l.a.submission id what
    .ok (l.update enc)
  | .deliver target =>
    match l.toA with
    | [] => .ok l
    | packet :: rest => do
      let enc ← l.a.receive target packet
      .ok (update { l with toA := rest } enc)

/-- An action of one endpoint. -/
def step (idA idB : UInt32) (l : Link) : Side × Action → Except Fault Link
  | (.a, action) => l.act idA action
  | (.b, action) => do
    let l ← l.flip.act idB action
    .ok l.flip

/-- A run of actions. -/
def run (idA idB : UInt32) (l : Link) : List (Side × Action) → Except Fault Link
  | [] => .ok l
  | action :: actions => do
    let l ← l.step idA idB action
    l.run idA idB actions

/-- The flow of data from one endpoint to another: what the sender may still
send, the payload on its way and the increments on their way back make up
what the receiver still takes. -/
structure Flows (idA idB : UInt32) (l : Link) (chA chB : Channel) : Prop where
  /-- The sender's channel. -/
  sender : l.a.channels idA = some chA
  /-- The receiver's channel. -/
  receiver : l.b.channels idB = some chB
  /-- The channel is confirmed. -/
  confirmed : chA.confirmed = true
  /-- The sender knows the receiver's number. -/
  recipient : chA.recipientChannel = idB
  /-- Packets can carry data. -/
  packets : 0 < chA.recipientMaximumPacketSize
  /-- The buffers waiting to be sent are short. -/
  short : chA.Short
  /-- Every packet on its way belongs to the channel. -/
  traffic : ∀ p ∈ l.toB, Traffic idB p
  /-- The law of conservation. -/
  conserved : chA.recipientWindowSize.toNat + carried idB l.toB + granted idA l.toA =
    chB.senderWindowSize.toNat

/-- Data flow in both directions. -/
def Balanced (idA idB : UInt32) (l : Link) : Prop :=
  ∃ chA chB, l.Flows idA idB chA chB ∧ l.flip.Flows idB idA chB chA

theorem Balanced.flip {idA idB : UInt32} {l : Link} (h : l.Balanced idA idB) :
    l.flip.Balanced idB idA := by
  obtain ⟨chA, chB, hto, hback⟩ := h
  exact ⟨chB, chA, hback, hto⟩

theorem update_toB (l : Link) {enc : Encrypted} {new : List Bytes}
    (h : enc.emitted = l.a.emitted ++ new) : (l.update enc).toB = l.toB ++ new := by
  simp only [update, h, List.drop_left]

variable {idA idB : UInt32} {l l' : Link}

/-- A submission moves bytes from the window onto the way. -/
theorem Balanced.submit (h : l.Balanced idA idB) {what : Submission} (hshort : what.Short)
    (hact : l.act idA (.submit what) = .ok l') : l'.Balanced idA idB := by
  obtain ⟨chA, chB, hto, hback⟩ := h
  unfold act at hact
  obtain ⟨enc, hsubmission, hl'⟩ := ok_of_bind hact
  cases hl'
  obtain ⟨ch, new, hsends⟩ := submission_sends hto.sender hshort hsubmission
  have htoB := l.update_toB hsends.emitted
  have hrecipient := hto.recipient
  have hkept := hsends.same
  have hwindow := hsends.window
  have hgrants := hsends.grants
  have htraffic := hsends.traffic
  rw [hrecipient] at hwindow hgrants htraffic
  have hconserved := hto.conserved
  have hreverse := hback.conserved
  refine ⟨ch, chB, ?_, ?_⟩
  · refine ⟨hsends.channel, hto.receiver, ?_, ?_, ?_, hsends.short hto.short, ?_, ?_⟩
    · rw [hkept]
      exact hto.confirmed
    · rw [hkept]
      exact hrecipient
    · rw [hkept]
      exact hto.packets
    · rw [htoB]
      exact fun p hp => (List.mem_append.mp hp).elim (hto.traffic p) (htraffic p)
    · rw [htoB, carried_append]
      change _ + _ + granted idA l.toA = _
      omega
  · refine ⟨hback.sender, hsends.channel, hback.confirmed, hback.recipient, hback.packets,
      hback.short, hback.traffic, ?_⟩
    change chB.recipientWindowSize.toNat + carried idA l.toA + granted idB (l.update enc).toB = _
    have hsame : ch.senderWindowSize = chA.senderWindowSize := by rw [hkept]
    rw [htoB, granted_append, hgrants, hsame]
    exact hreverse

/-- A packet of data takes its payload off the way, and what the receiver
grants for it goes onto the way back. -/
theorem Balanced.takes (h : l.Balanced idA idB) {packet data : Bytes} {rest : List Bytes}
    {stream : Option UInt32} (hnext : l.toA = packet :: rest)
    (hdata : readData idA packet = some (stream, data)) (hadjust : readAdjust idA packet = none)
    (target : UInt32) :
    (update { l with toA := rest } (l.a.adjustWindowSize idA data target).1).Balanced idA idB := by
  obtain ⟨chA, chB, hto, hback⟩ := h
  have hcarried : carried idA (packet :: rest) = data.length + carried idA rest := by
    rw [carried_cons]
    simp [carried, hdata]
  have hgranted : granted idA (packet :: rest) = granted idA rest := by
    rw [granted_cons]
    simp [granted, hadjust]
  have hconserved := hto.conserved
  have hreverse : chB.recipientWindowSize.toNat + carried idA l.toA + granted idB l.toB =
    chA.senderWindowSize.toNat := hback.conserved
  rw [hnext, hgranted] at hconserved
  rw [hnext, hcarried] at hreverse
  obtain ⟨ch, new, hchannel, hkept, hemitted, htraffic, hnone, hwindow⟩ :=
    adjustWindowSize_takes data target hto.sender (by omega)
  have htoB := update_toB { l with toA := rest } hemitted
  rw [hto.recipient] at htraffic hnone hwindow
  refine ⟨ch, chB, ?_, ?_⟩
  · refine ⟨hchannel, hto.receiver, ?_, ?_, ?_, ?_, ?_, ?_⟩
    · rw [hkept]
      exact hto.confirmed
    · rw [hkept]
      exact hto.recipient
    · rw [hkept]
      exact hto.packets
    · rw [hkept]
      exact hto.short
    · rw [htoB]
      exact fun p hp => (List.mem_append.mp hp).elim (hto.traffic p) (htraffic p)
    · have hsame : ch.recipientWindowSize = chA.recipientWindowSize := by rw [hkept]
      rw [htoB, carried_append, hnone, hsame]
      exact hconserved
  · refine ⟨hback.sender, hchannel, hback.confirmed, hback.recipient, hback.packets, hback.short,
      fun p hp => hback.traffic p ?_, ?_⟩
    · change p ∈ l.toA
      rw [hnext]
      exact List.mem_cons_of_mem _ hp
    · change chB.recipientWindowSize.toNat + carried idA rest + granted idB (update _ _).toB = _
      rw [htoB, granted_append]
      change _ + carried idA rest + (granted idB l.toB + _) = _
      omega

/-- A window increment goes off the way back into the window, which it never overflows. -/
theorem Balanced.grants (h : l.Balanced idA idB) {amount : UInt32} {rest : List Bytes}
    (hnext : l.toA = adjustPacket idA amount :: rest) :
    ∃ value enc, l.a.adjustRecipientWindow idA amount = .ok (value, enc) ∧
      (update { l with toA := rest } enc).Balanced idA idB := by
  obtain ⟨chA, chB, hto, hback⟩ := h
  have hcarried : carried idA (adjustPacket idA amount :: rest) = carried idA rest := by
    rw [carried_cons]
    simp [carried, readData_adjustPacket]
  have hgranted : granted idA (adjustPacket idA amount :: rest) =
      amount.toNat + granted idA rest := by
    rw [granted_cons]
    simp [granted, readAdjust_adjustPacket]
  have hconserved := hto.conserved
  have hreverse : chB.recipientWindowSize.toNat + carried idA l.toA + granted idB l.toB =
    chA.senderWindowSize.toNat := hback.conserved
  rw [hnext, hgranted] at hconserved
  rw [hnext, hcarried] at hreverse
  have hlt := chB.senderWindowSize.toNat_lt
  obtain ⟨value, ch, hgrants, hkept, hwindow⟩ :=
    adjustRecipientWindow_grants amount hto.sender (by omega)
  have hchannel : (l.a.setChannel idA ch).channels idA = some ch := Function.update_self ..
  have htoB : (update { l with toA := rest } (l.a.setChannel idA ch)).toB = l.toB ++ [] :=
    update_toB _ (List.append_nil _).symm
  rw [List.append_nil] at htoB
  refine ⟨value, _, hgrants, ch, chB, ?_, ?_⟩
  · refine ⟨hchannel, hto.receiver, ?_, ?_, ?_, ?_, ?_, ?_⟩
    · rw [hkept]
      exact hto.confirmed
    · rw [hkept]
      exact hto.recipient
    · rw [hkept]
      exact hto.packets
    · rw [hkept]
      exact hto.short
    · rw [htoB]
      exact hto.traffic
    · rw [htoB]
      change _ + _ + granted idA rest = _
      omega
  · refine ⟨hback.sender, hchannel, hback.confirmed, hback.recipient, hback.packets, hback.short,
      fun p hp => hback.traffic p ?_, ?_⟩
    · change p ∈ l.toA
      rw [hnext]
      exact List.mem_cons_of_mem _ hp
    · change chB.recipientWindowSize.toNat + carried idA rest + granted idB (update _ _).toB = _
      have hsame : ch.senderWindowSize = chA.senderWindowSize := by rw [hkept]
      rw [htoB, hsame]
      exact hreverse

/-- Delivering a packet never fails, and keeps the balance. -/
theorem Balanced.deliver (h : l.Balanced idA idB) (target : UInt32) :
    ∃ l', l.act idA (.deliver target) = .ok l' ∧ l'.Balanced idA idB := by
  unfold act
  cases hnext : l.toA with
  | nil => exact ⟨l, rfl, h⟩
  | cons packet rest =>
    have htraffic : Traffic idA packet := by
      obtain ⟨chA, chB, -, hback⟩ := h
      refine hback.traffic packet ?_
      change packet ∈ l.toA
      rw [hnext]
      exact List.mem_cons_self
    dsimp only
    cases htraffic with
    | data hlen =>
      rw [receive_data _ _ _ hlen]
      exact ⟨_, rfl, h.takes hnext (readData_dataPacket idA hlen)
        (readAdjust_of_head (m := msg.CHANNEL_DATA) rfl (by decide)) target⟩
    | extendedData ext hlen =>
      rw [receive_extendedData _ _ _ _ hlen]
      exact ⟨_, rfl, h.takes hnext (readData_extendedDataPacket idA ext hlen)
        (readAdjust_of_head (m := msg.CHANNEL_EXTENDED_DATA) rfl (by decide)) target⟩
    | adjust amount =>
      obtain ⟨value, enc, hgrants, hbalanced⟩ := h.grants hnext
      rw [receive_adjust, hgrants]
      exact ⟨_, rfl, hbalanced⟩

/-- A channel that both endpoints have confirmed and nobody has used yet. -/
structure Paired (idA idB : UInt32) (l : Link) (chA chB : Channel) : Prop where
  /-- One end. -/
  channelA : l.a.channels idA = some chA
  /-- The other end. -/
  channelB : l.b.channels idB = some chB
  /-- Both are confirmed. -/
  confirmed : chA.confirmed = true ∧ chB.confirmed = true
  /-- Each knows the other's number. -/
  recipients : chA.recipientChannel = idB ∧ chB.recipientChannel = idA
  /-- Packets can carry data. -/
  packets : 0 < chA.recipientMaximumPacketSize ∧ 0 < chB.recipientMaximumPacketSize
  /-- Nothing waits. -/
  pending : chA.pendingData = [] ∧ chB.pendingData = []
  /-- Each may send what the other takes. -/
  windows : chA.recipientWindowSize = chB.senderWindowSize ∧
    chB.recipientWindowSize = chA.senderWindowSize
  /-- Nothing is on its way. -/
  quiet : l.toA = [] ∧ l.toB = []

/-- A new channel is balanced. -/
theorem Paired.balanced {chA chB : Channel} (h : l.Paired idA idB chA chB) :
    l.Balanced idA idB := by
  obtain ⟨htoA, htoB⟩ := h.quiet
  refine ⟨chA, chB, ⟨h.channelA, h.channelB, h.confirmed.1, h.recipients.1, h.packets.1, ?_, ?_, ?_⟩,
    ⟨h.channelB, h.channelA, h.confirmed.2, h.recipients.2, h.packets.2, ?_, ?_, ?_⟩⟩
  · intro entry hentry
    rw [h.pending.1] at hentry
    cases hentry
  · rw [htoB]
    intro p hp
    cases hp
  · rw [htoA, htoB, h.windows.1]
    rfl
  · intro entry hentry
    rw [h.pending.2] at hentry
    cases hentry
  · intro p hp
    change p ∈ l.toA at hp
    rw [htoA] at hp
    cases hp
  · change _ + carried idA l.toA + granted idB l.toB = _
    rw [htoA, htoB, h.windows.2]
    rfl

/-- Every action keeps the balance. -/
theorem Balanced.step (h : l.Balanced idA idB) {side : Side} {action : Action}
    (hshort : action.Short) (hstep : l.step idA idB (side, action) = .ok l') :
    l'.Balanced idA idB := by
  have hact : ∀ {idA idB} {l l' : Link}, l.Balanced idA idB → l.act idA action = .ok l' →
      l'.Balanced idA idB := by
    intro idA idB l l' h hact
    cases action with
    | submit what => exact h.submit hshort hact
    | deliver target =>
      obtain ⟨l1, hdeliver, hl1⟩ := h.deliver target
      rw [hdeliver] at hact
      cases hact
      exact hl1
  cases side with
  | a => exact hact h hstep
  | b =>
    obtain ⟨l1, hflip, hl'⟩ := ok_of_bind hstep
    cases hl'
    exact (hact h.flip hflip).flip

/-- Every run of actions keeps the balance. -/
theorem Balanced.run (h : l.Balanced idA idB) {actions : List (Side × Action)}
    (hshort : ∀ action ∈ actions, action.2.Short) (hrun : l.run idA idB actions = .ok l') :
    l'.Balanced idA idB := by
  induction actions generalizing l with
  | nil =>
    cases hrun
    exact h
  | cons action actions ih =>
    obtain ⟨l1, hstep, hrest⟩ := ok_of_bind hrun
    have hone := h.step (hshort action List.mem_cons_self) hstep
    exact ih hone (fun a ha => hshort a (List.mem_cons_of_mem _ ha)) hrest

/-- A packet is delivered to either side without a failure. -/
theorem Balanced.delivers (h : l.Balanced idA idB) (side : Side) (target : UInt32) :
    ∃ l', l.step idA idB (side, .deliver target) = .ok l' := by
  cases side with
  | a =>
    obtain ⟨l', hdeliver, -⟩ := h.deliver target
    exact ⟨l', hdeliver⟩
  | b =>
    obtain ⟨l', hdeliver, -⟩ := h.flip.deliver target
    exact ⟨l'.flip, by simp only [Link.step, hdeliver]; rfl⟩

/-- Only `flush_pending` fails, and not because of a window. -/
theorem Balanced.submits (h : l.Balanced idA idB) {side : Side} {what : Submission}
    (hshort : what.Short) {e : Fault}
    (hstep : l.step idA idB (side, .submit what) = .error e) :
    e = .panic ∧ what = .flushPending := by
  have hact : ∀ {idA idB} {l : Link}, l.Balanced idA idB → l.act idA (.submit what) = .error e →
      e = .panic ∧ what = .flushPending := by
    intro idA idB l h hact
    obtain ⟨chA, chB, hto, -⟩ := h
    unfold act at hact
    dsimp only at hact
    cases hsubmission : l.a.submission idA what with
    | ok enc =>
      rw [hsubmission] at hact
      cases hact
    | error e' =>
      rw [hsubmission] at hact
      cases hact
      exact submission_fails hto.sender hto.confirmed hto.packets hto.short hshort hsubmission
  cases side with
  | a => exact hact h hstep
  | b =>
    refine hact h.flip ?_
    cases hflip : l.flip.act idB (.submit what) with
    | ok l1 =>
      simp only [Link.step, hflip] at hstep
      cases hstep
    | error e' =>
      simp only [Link.step, hflip] at hstep
      cases hstep
      rfl

end Link

/-- From a confirmed channel that nobody has used yet, every run of two
endpoints conserves the windows in both directions. So no payload is larger
than what its receiver still takes, no increment overflows a window, no
packet fails to be taken in, and no submission takes more off a window than
there is. -/
theorem windows_conserved {idA idB : UInt32} {l l' : Link} {chA chB : Channel}
    (hpaired : l.Paired idA idB chA chB) {actions : List (Side × Action)}
    (hshort : ∀ action ∈ actions, action.2.Short) (hrun : l.run idA idB actions = .ok l') :
    (∃ chA chB, l'.a.channels idA = some chA ∧ l'.b.channels idB = some chB ∧
      chA.recipientWindowSize.toNat + carried idB l'.toB + granted idA l'.toA =
        chB.senderWindowSize.toNat ∧
      chB.recipientWindowSize.toNat + carried idA l'.toA + granted idB l'.toB =
        chA.senderWindowSize.toNat ∧
      (∀ packet ∈ l'.toB, ∀ stream data, readData idB packet = some (stream, data) →
        data.length ≤ chB.senderWindowSize.toNat) ∧
      (∀ packet ∈ l'.toA, ∀ amount, readAdjust idA packet = some amount →
        chA.recipientWindowSize.toNat + amount.toNat < 2 ^ 32) ∧
      ∀ target, chB.senderWindowSize < target / 2 → chB.senderWindowSize ≤ target) ∧
    (∀ side target, ∃ l'', l'.step idA idB (side, .deliver target) = .ok l'') ∧
    ∀ side what e, what.Short → l'.step idA idB (side, .submit what) = .error e →
      e = .panic ∧ what = .flushPending := by
  have hbalanced := hpaired.balanced.run hshort hrun
  refine ⟨?_, hbalanced.delivers, fun side what e hwhat => hbalanced.submits hwhat⟩
  obtain ⟨chA, chB, hto, hback⟩ := hbalanced
  have hconserved := hto.conserved
  have hlt := chB.senderWindowSize.toNat_lt
  refine ⟨chA, chB, hto.sender, hto.receiver, hconserved, hback.conserved, ?_, ?_, ?_⟩
  · intro packet hpacket stream data hdata
    have hle : (readData idB packet).elim 0 (fun d => d.2.length) ≤ carried idB l'.toB :=
      List.le_sum_of_mem (List.mem_map_of_mem hpacket)
    rw [hdata] at hle
    dsimp only [Option.elim] at hle
    omega
  · intro packet hpacket amount hamount
    have hle : (readAdjust idA packet).elim 0 UInt32.toNat ≤ granted idA l'.toA :=
      List.le_sum_of_mem (List.mem_map_of_mem hpacket)
    rw [hamount] at hle
    dsimp only [Option.elim] at hle
    omega
  · intro target htop
    have hhalf := UInt32.lt_iff_toNat_lt.mp htop
    have htwo : (2 : UInt32).toNat = 2 := rfl
    rw [UInt32.toNat_div, htwo] at hhalf
    rw [UInt32.le_iff_toNat_le]
    omega

end

namespace Concrete

/-- One end of a channel: five bytes may be sent, ten are taken. -/
def endA : Channel := ⟨7, 2, 5, 10, 3, 3, true, false, []⟩

/-- The other end. -/
def endB : Channel := ⟨2, 7, 10, 5, 3, 3, true, false, []⟩

/-- A new channel, number 2 of one endpoint and number 7 of the other. -/
def link : @Link deps :=
  letI := deps
  { a := (encrypted .authenticated).setChannel 2 endA
    b := (encrypted .authenticated).setChannel 7 endB
    toB := []
    toA := [] }

/-- One endpoint submits more than the window allows, the other takes what comes, grants
more and sends on its own, and the last byte is on its way in the end. -/
def traffic : List (Side × Action) :=
  [(.a, .submit (.data [1, 2, 3, 4, 5, 6])), (.b, .deliver 8), (.b, .deliver 8),
    (.b, .submit (.extendedData 1 [7, 8])), (.a, .deliver 10), (.a, .submit (.data [9])),
    (.a, .deliver 10), (.a, .submit .flushPending)]

/-- The channel is new. -/
theorem link_paired :
    letI := deps
    link.Paired 2 7 endA endB := by
  let _ := deps
  exact ⟨rfl, rfl, ⟨rfl, rfl⟩, ⟨rfl, rfl⟩, ⟨by decide, by decide⟩, ⟨rfl, rfl⟩, ⟨rfl, rfl⟩,
    ⟨rfl, rfl⟩⟩

/-- The end of that run. -/
def linkEnd : @Link deps :=
  letI := deps
  returned (link.run 2 7 traffic) (by decide +kernel)

end Concrete

/-- A channel whose first data exceed the window. -/
theorem windows_conserved_traffic :
    letI := Concrete.deps
    Concrete.link.run 2 7 Concrete.traffic = .ok Concrete.linkEnd ∧
      Concrete.linkEnd.toB = [dataPacket 7 [6]] ∧
      ∃ chA chB, Concrete.linkEnd.a.channels 2 = some chA ∧
        Concrete.linkEnd.b.channels 7 = some chB ∧
        chA.recipientWindowSize.toNat + carried 7 Concrete.linkEnd.toB +
          granted 2 Concrete.linkEnd.toA = chB.senderWindowSize.toNat := by
  let _ := Concrete.deps
  have hshort : ∀ action ∈ Concrete.traffic, action.2.Short := by
    simp [Concrete.traffic, Action.Short, Submission.Short]
  have hrun : Concrete.link.run 2 7 Concrete.traffic = .ok Concrete.linkEnd :=
    Concrete.returned_spec _ _
  obtain ⟨⟨chA, chB, ha, hb, hconserved, -⟩, -⟩ :=
    windows_conserved Concrete.link_paired hshort hrun
  exact ⟨hrun, by decide +kernel, chA, chB, ha, hb, hconserved⟩

end Thrussh
