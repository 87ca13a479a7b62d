import Thrussh.Api
import Thrussh.Channels
import Thrussh.Turn

/-!
# The table of channels

What the calls on a session do to its channels and to its queue, operation by
operation, and what the dispatcher does with a packet before the handler gets
its turn. A packet of an open session is one step of the dispatcher followed
by operations.
-/

namespace Thrussh

open Lib

/-- Whether a message number is none that the table accounts for: no opening, no
window adjustment, no data and no reply. -/
def PlainHead (m : UInt8) : Prop :=
  m ≠ msg.CHANNEL_OPEN ∧ m ≠ msg.CHANNEL_OPEN_CONFIRMATION ∧ m ≠ msg.CHANNEL_WINDOW_ADJUST ∧
    m ≠ msg.CHANNEL_DATA ∧ m ≠ msg.CHANNEL_EXTENDED_DATA ∧ m ≠ msg.REQUEST_SUCCESS ∧
    m ≠ msg.REQUEST_FAILURE ∧ m ≠ msg.CHANNEL_SUCCESS ∧ m ≠ msg.CHANNEL_FAILURE

instance (m : UInt8) : Decidable (PlainHead m) := inferInstanceAs (Decidable (_ ∧ _))

/-- Whether a packet is plain by its message number. -/
def Plain (body : Bytes) : Prop := ∀ m ∈ body.head?, PlainHead m

theorem PlainHead.plain {m : UInt8} (h : PlainHead m) (rest : Bytes) : Plain (m :: rest) := by
  rintro _ ⟨⟩
  exact h

/-- Whether a message number is that of a reply to a request on a channel. -/
def IsReply (m : UInt8) : Prop := m = msg.CHANNEL_SUCCESS ∨ m = msg.CHANNEL_FAILURE

/-- Whether a packet is a reply that names no channel. -/
def IsBare (body : Bytes) : Prop :=
  body = [msg.REQUEST_SUCCESS] ∨ body = [msg.REQUEST_FAILURE] ∨ body = [msg.CHANNEL_FAILURE]

/-- What the peer has said of a channel when it asks for it. -/
structure Asked where
  /-- The peer's number. -/
  channel : UInt32
  /-- The peer's window. -/
  window : UInt32
  /-- The peer's maximal packet size. -/
  maxPacket : UInt32

/-- The entry of a channel that is accepted, with the window and the packet
size that are granted. -/
def Asked.entry (asked : Asked) (id window maxPacket : UInt32) : Channel :=
  ⟨asked.channel, id, asked.window, window, asked.maxPacket, maxPacket, true, false, []⟩

variable [Deps]

/-- An opening is accepted: the entry is inserted under a new id and confirmed. -/
inductive Accepts (asked : Asked) (window maxPacket : UInt32) :
    Encrypted → UInt32 → Encrypted → Prop where
  | mk {enc enc' : Encrypted} {id : UInt32} (h : enc.newChannelId = .ok (id, enc')) :
    Accepts asked window maxPacket enc id
      ((enc'.insertChannel id (asked.entry id window maxPacket)).push
        (confirmChannelOpenPacket asked.channel id window maxPacket))

/-- An opening that is accepted adds one entry and one packet. -/
theorem Accepts.spec {asked : Asked} {window maxPacket id : UInt32} {enc enc' : Encrypted}
    (h : Accepts asked window maxPacket enc id enc') :
    enc.channels id = none ∧
    enc'.channels = Function.update enc.channels id (some (asked.entry id window maxPacket)) ∧
    enc'.emitted =
      enc.emitted ++ [confirmChannelOpenPacket asked.channel id window maxPacket] := by
  cases h with
  | mk hnew =>
    obtain ⟨hnone, henc⟩ := newChannelId_ok hnew
    rw [henc]
    exact ⟨hnone, rfl, rfl⟩

/-- What the calls on a session do to its channels and to its queue, with the
replies to requests where they are allowed. -/
inductive Operates (replies : Prop) : Encrypted → Encrypted → Prop where
  /-- Neither the channels nor the queue's history change. -/
  | idle {enc enc' : Encrypted} (hchannels : enc'.channels = enc.channels)
    (hemitted : enc'.emitted = enc.emitted) : Operates replies enc enc'
  /-- A plain packet is queued. -/
  | push {enc enc' : Encrypted} {body : Bytes} (h : Plain body)
    (hchannels : enc'.channels = enc.channels) (hemitted : enc'.emitted = enc.emitted ++ [body]) :
    Operates replies enc enc'
  /-- A confirmation is queued. -/
  | confirms (enc : Encrypted) (remote id window maxPacket : UInt32) :
    Operates replies enc (enc.push (confirmChannelOpenPacket remote id window maxPacket))
  /-- Data are submitted. -/
  | data {enc enc' : Encrypted} {id : UInt32} {buf0 : Bytes} (h : enc.data id buf0 = .ok enc') :
    Operates replies enc enc'
  /-- Extended data are submitted. -/
  | extendedData {enc enc' : Encrypted} {id ext : UInt32} {buf0 : Bytes}
    (h : enc.extendedData id ext buf0 = .ok enc') : Operates replies enc enc'
  /-- Pending data are sent. -/
  | flushPending {enc enc' : Encrypted} {id : UInt32} {total : Nat}
    (h : enc.flushPending id = .ok (enc', total)) : Operates replies enc enc'
  /-- A channel is opened. -/
  | opened {enc enc' : Encrypted} {id window maxPacket : UInt32} (typ rest : Bytes)
    (h : enc.newChannel window maxPacket = .ok (id, enc')) :
    Operates replies enc (enc'.push (channelOpenPacket typ id window maxPacket rest))
  /-- A forwarded connection is accepted. -/
  | accepted {enc enc' : Encrypted} {id window maxPacket : UInt32} {asked : Asked}
    (h : Accepts asked window maxPacket enc id enc') : Operates replies enc enc'
  /-- A reply that names no channel is queued. -/
  | answered (enc : Encrypted) {body : Bytes} (h : replies) (hbody : IsBare body) :
    Operates replies enc (enc.push body)
  /-- A request on a channel is answered. -/
  | replied (enc : Encrypted) {id : UInt32} {ch : Channel} {m : UInt8}
    (h : replies) (hch : enc.channels id = some ch) (hwants : ch.wantsReply = true)
    (hm : IsReply m) :
    Operates replies enc ((enc.setChannel id { ch with wantsReply := false }).push
      (m :: be32 ch.recipientChannel))

/-- Operations, one after the other. -/
abbrev Operations (replies : Prop) : Encrypted → Encrypted → Prop :=
  Relation.ReflTransGen (Operates replies)

/-- What the dispatcher does with a packet before the handler gets its turn. -/
inductive Dispatches (buf : Bytes) : Encrypted → Encrypted → Prop where
  /-- Nothing. -/
  | none (enc : Encrypted) : Dispatches buf enc enc
  /-- CHANNEL_OPEN, accepted. -/
  | accepted {enc enc' : Encrypted} {id window maxPacket : UInt32} {asked : Asked} {typ : Bytes}
    {r r1 r2 r3 : Position} (hhead : buf.head? = some msg.CHANNEL_OPEN)
    (htyp : (reader buf 1).readString = .ok (typ, r)) (hchannel : r.readU32 = .ok (asked.channel, r1))
    (hwindow : r1.readU32 = .ok (asked.window, r2)) (hmax : r2.readU32 = .ok (asked.maxPacket, r3))
    (h : Accepts asked window maxPacket enc id enc') : Dispatches buf enc enc'
  /-- CHANNEL_OPEN_CONFIRMATION. -/
  | confirmed {enc : Encrypted} {id : UInt32} {asked : Asked} {ch : Channel}
    {r r1 r2 r3 : Position} (hhead : buf.head? = some msg.CHANNEL_OPEN_CONFIRMATION)
    (hid : (reader buf 1).readU32 = .ok (id, r)) (hchannel : r.readU32 = .ok (asked.channel, r1))
    (hwindow : r1.readU32 = .ok (asked.window, r2)) (hmax : r2.readU32 = .ok (asked.maxPacket, r3))
    (hch : enc.channels id = some ch) :
    Dispatches buf enc (enc.setChannel id { ch with
      recipientChannel := asked.channel, recipientWindowSize := asked.window
      recipientMaximumPacketSize := asked.maxPacket, confirmed := true })
  /-- CHANNEL_CLOSE and CHANNEL_OPEN_FAILURE. -/
  | removed {id : UInt32} {r : Position} (enc : Encrypted)
    (hhead : buf.head? = some msg.CHANNEL_CLOSE ∨ buf.head? = some msg.CHANNEL_OPEN_FAILURE)
    (hid : (reader buf 1).readU32 = .ok (id, r)) : Dispatches buf enc (enc.removeChannel id)
  /-- CHANNEL_DATA and CHANNEL_EXTENDED_DATA. -/
  | received {id target : UInt32} {d : Bytes} {r : Position} (enc : Encrypted)
    (hhead : buf.head? = some msg.CHANNEL_DATA ∨ buf.head? = some msg.CHANNEL_EXTENDED_DATA)
    (hid : (reader buf 1).readU32 = .ok (id, r)) :
    Dispatches buf enc (enc.adjustWindowSize id d target).1
  /-- CHANNEL_WINDOW_ADJUST. -/
  | adjusted {enc enc' : Encrypted} {id amount newSize : UInt32} {r r1 : Position}
    (hhead : buf.head? = some msg.CHANNEL_WINDOW_ADJUST)
    (hid : (reader buf 1).readU32 = .ok (id, r)) (hamount : r.readU32 = .ok (amount, r1))
    (h : enc.adjustRecipientWindow id amount = .ok (newSize, enc')) : Dispatches buf enc enc'
  /-- CHANNEL_REQUEST. -/
  | wanted {enc : Encrypted} {id : UInt32} {req : Bytes} {wants : UInt8} {ch : Channel}
    {r r1 r2 : Position} (hhead : buf.head? = some msg.CHANNEL_REQUEST)
    (hid : (reader buf 1).readU32 = .ok (id, r)) (hreq : r.readString = .ok (req, r1))
    (hwants : r1.readByte = .ok (wants, r2)) (hch : enc.channels id = some ch) :
    Dispatches buf enc (enc.setChannel id { ch with wantsReply := wants ≠ 0 })

/-- Plain packets are queued, and the channels stay. -/
theorem Operations.of_plain {replies : Prop} {enc enc' : Encrypted} {bodies : List Bytes}
    (hbodies : ∀ body ∈ bodies, Plain body) (hchannels : enc'.channels = enc.channels)
    (hemitted : enc'.emitted = enc.emitted ++ bodies) : Operations replies enc enc' := by
  induction bodies generalizing enc with
  | nil => exact .single (.idle hchannels (by rw [hemitted, List.append_nil]))
  | cons body bodies ih =>
    have hpush : Operates replies enc (enc.push body) :=
      .push (hbodies body List.mem_cons_self) rfl rfl
    have hpushed : enc'.emitted = (enc.push body).emitted ++ bodies := by
      rw [hemitted, Encrypted.push, List.append_assoc, List.singleton_append]
    exact .head hpush (ih (fun b hb => hbodies b (List.mem_cons_of_mem _ hb)) hchannels hpushed)

/-- A packet is dispatched, and operations follow. -/
structure Handles (buf : Bytes) (enc enc' : Encrypted) : Prop where
  /-- The dispatcher starts with the same channels and the same queue. -/
  handles : ∃ start mid, start.channels = enc.channels ∧ start.emitted = enc.emitted ∧
    Dispatches buf start mid ∧ Operations True mid enc'

omit [Deps] in
/-- What a sequence of steps does to a part that is there or not. -/
theorem rel_of_steps {α β : Type} {R : β → β → Prop} (f : α → Option β) {s t : α}
    (h : Relation.ReflTransGen (fun s t => Option.Rel R (f s) (f t)) s t) :
    Option.Rel (Relation.ReflTransGen R) (f s) (f t) := by
  induction h with
  | refl =>
    cases f s with
    | none => exact .none
    | some b => exact .some .refl
  | @tail v w _ hstep ih =>
    generalize f s = a at ih ⊢
    generalize f v = b at ih hstep
    generalize f w = c at hstep ⊢
    cases ih with
    | none =>
      cases hstep
      exact .none
    | some hsteps =>
      cases hstep with
      | some h => exact .some (hsteps.tail h)

section
variable {C : Type} {s t : CommonSession C} {replies : Prop}

/-- Sessions that an operation relates. -/
def Operating (replies : Prop) (s t : CommonSession C) : Prop :=
  Option.Rel (Operates replies) s.encrypted t.encrypted

theorem Operating.refl (s : CommonSession C) : Operating replies s s := by
  unfold Operating
  cases s.encrypted with
  | none => exact .none
  | some enc => exact .some (.idle rfl rfl)

/-- A change that leaves `enc`. -/
theorem Operating.of_eq (h : t.encrypted = s.encrypted) : Operating replies s t := by
  have hrefl : Operating replies s s := .refl s
  unfold Operating at hrefl ⊢
  rwa [h]

/-- An operation on `enc`. -/
theorem Operating.replace {enc enc' : Encrypted} (h : s.encrypted = some enc)
    (hoperates : Operates replies enc enc') : Operating replies s { s with encrypted := some enc' } := by
  unfold Operating
  rw [h]
  exact .some hoperates

theorem Operating.modifyEnc (s : CommonSession C) {f : Encrypted → Encrypted}
    (h : ∀ enc, Operates replies enc (f enc)) : Operating replies s (s.modifyEnc f) := by
  unfold Operating CommonSession.modifyEnc
  cases s.encrypted with
  | none => exact .none
  | some enc => exact .some (h enc)

/-- A partial change of `enc` is an operation when every result is one. -/
theorem updateEnc_operating {f : Encrypted → Except Fault Encrypted}
    (h : ∀ enc enc', f enc = .ok enc' → Operates replies enc enc') (s : CommonSession C) :
    Operating replies s (final (updateEnc f s)) := by
  rw [final_updateEnc]
  cases henc : s.encrypted with
  | none => exact .refl s
  | some enc =>
    dsimp only
    cases hf : f enc with
    | error e => exact .refl s
    | ok enc' => exact .replace henc (h enc enc' hf)

/-- A partial change of `enc` that returns a value. -/
theorem withEnc_operating {α : Type} {f : Encrypted → Except Fault (α × Encrypted)}
    (h : ∀ enc a enc', f enc = .ok (a, enc') → Operates replies enc enc') (s : CommonSession C) :
    Operating replies s (final (withEnc f s)) := by
  rw [final_withEnc]
  cases henc : s.encrypted with
  | none => exact .refl s
  | some enc =>
    dsimp only
    cases hf : f enc with
    | error e => exact .refl s
    | ok res => exact .replace henc (h enc res.1 res.2 hf)

/-- Sessions that stand at the same are related by an operation that does nothing. -/
theorem operating_of_standing (h : t.standing.map Prod.snd = s.standing.map Prod.snd) :
    Operating replies s t := by
  have hrel := rel_of_standing h
  unfold Operating
  generalize s.encrypted = a at hrel ⊢
  generalize t.encrypted = b at hrel ⊢
  cases hrel with
  | none => exact .none
  | some hsame => exact .some (.idle hsame.1 hsame.2.1)

/-- A flush is no operation on the table. -/
theorem FlushStep.operating [SessionConfig C] (h : FlushStep s t) : Operating replies s t :=
  operating_of_standing (congrArg _ h.standing_eq)

/-- A session that disconnects queues its DISCONNECT, if it is encrypted. -/
theorem disconnect_operating (s : CommonSession C) (reason : Disconnect)
    (description languageTag : Bytes) :
    Operating replies s (s.disconnect reason description languageTag) := by
  unfold CommonSession.disconnect
  dsimp only
  by_cases hdisconnected : s.disconnected = true
  · rw [if_pos hdisconnected]
    exact .refl s
  · rw [if_neg hdisconnected]
    cases henc : s.encrypted with
    | none => exact .of_eq henc.symm
    | some enc =>
      have hhead : PlainHead msg.DISCONNECT := by decide
      have hoperates : Operates replies enc (enc.push (msg.DISCONNECT :: be32 reason.code ++
          sshString description ++ sshString languageTag)) := .push (hhead.plain _) rfl rfl
      unfold Operating CommonSession.modifyEnc
      simp only [henc, Option.map_some]
      exact .some hoperates

/-- A byte on a channel is a plain packet. -/
theorem byte_operates (enc : Encrypted) (id : UInt32) {m : UInt8} (h : PlainHead m) :
    Operates replies enc (enc.byte id m) := by
  unfold Encrypted.byte
  cases enc.channels id with
  | none => exact .idle rfl rfl
  | some ch => exact .push (h.plain _) rfl rfl

end

end Thrussh
