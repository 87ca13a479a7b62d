import Thrussh.Client.SendData
import Thrussh.Client.Robust
import Thrussh.Lib.Always
import Thrussh.Lib.Credit

/-!
# The window of a channel in two tasks

The owner of a channel keeps a window of its own beside the session's
`recipient_window_size`. Sends are taken off the owner's at once and off the
session's when the session serves the message. A CHANNEL_WINDOW_ADJUST is
added to the session's, and the default handler tells the owner the new
total. `send_data`, which waits with its window used up, sets its window to
the total; `wait` adds the total to it. Both start with the window that a
CHANNEL_OPEN_CONFIRMATION gives, and agree as long as a total is received with
the owner's window used up, and nothing is sent on the old window while the
total is unread.
-/

namespace Thrussh.Client

open Lib

/-- One `recv` of `Channel::wait`. -/
def ChannelHandle.wait (c : ChannelHandle) : Except Fault ChannelHandle :=
  match c.queue with
  | .msg (.windowAdjusted newSize) :: rest =>
    if c.windowSize.toNat + newSize.toNat < 2 ^ 32 then
      .ok { c with windowSize := c.windowSize + newSize, queue := rest }
    else .error .overflow
  | _ :: rest => .ok { c with queue := rest }
  | [] => .ok c

/-- The messages of a sender among those that a session has sent. -/
def heard (sender : Nat) (sent : List (Nat × OpenChannelMsg)) : List OpenChannelMsg :=
  (sent.filter fun m => m.1 = sender).map Prod.snd

/-- `wait_channel_confirmation`, on what has arrived: the handle of the channel. -/
def waitChannelConfirmation : List OpenChannelMsg → Option ChannelHandle
  | .opened id maxPacketSize windowSize :: rest =>
    some ⟨id, maxPacketSize, windowSize, rest, false, []⟩
  | .msg _ :: rest => waitChannelConfirmation rest
  | [] => none

/-- What `send_data` reads when it goes on. -/
def SendData.next (s : SendData) : Bytes :=
  (s.data.read (min s.channel.windowSize s.channel.maxPacketSize).toNat).1

section
variable [Deps]

/-- A channel with its owner in one task and the session in another. -/
structure Mirror where
  /-- The owner's last call of `send_data`, and its handle. -/
  owner : SendData
  /-- The number of the handle's sender. -/
  sender : Nat
  /-- How many of the owner's messages the session has served. -/
  taken : Nat
  /-- The session. -/
  session : Session

/-- What happens to the two. -/
inductive Mirror.Deed where
  /-- The owner calls `send_data`. -/
  | start (ext : Option UInt32) (data : Source UInt8)
  /-- A step of `send_data`. -/
  | turn
  /-- A `recv` of `wait`. -/
  | wait
  /-- The session serves the next message of the owner. -/
  | take
  /-- The session serves a CHANNEL_WINDOW_ADJUST for the channel. -/
  | adjust (buf : Bytes)
  /-- Anything else that the session does. -/
  | other (t : Session)

/-- The channel in the session's table. -/
def Session.entry (s : Session) (id : UInt32) : Option Channel :=
  s.common.encrypted.bind fun enc => enc.channels id

/-- The channel's number. -/
def Mirror.id (m : Mirror) : UInt32 := m.owner.channel.id

/-- The session goes on, and what it sends to the channel arrives. -/
def Mirror.hear (m : Mirror) (t : Session) : Mirror :=
  { m with
    session := t
    owner := { m.owner with channel := { m.owner.channel with
      queue := m.owner.channel.queue ++ heard m.sender (t.sent.drop m.session.sent.length)
      closed := decide (t.channels m.id ≠ some m.sender) } } }

/-- One deed, if it is possible: the owner does one thing at a time, and a
session that fails is gone. -/
def Mirror.step (app : Application) (m : Mirror) : Mirror.Deed → Option Mirror
  | .start ext data =>
    if m.owner.stage = .returned then
      some { m with owner := { m.owner with ext := ext, data := data, stage := .sending } }
    else none
  | .turn => some { m with owner := m.owner.step }
  | .wait =>
    if m.owner.stage = .returned then
      match m.owner.channel.wait with
      | .ok channel => some { m with owner := { m.owner with channel := channel } }
      | .error _ => none
    else none
  | .take =>
    match m.owner.channel.sent[m.taken]? with
    | none => none
    | some message =>
      match serveMessage message m.session with
      | .ok _ t => some (Mirror.hear { m with taken := m.taken + 1 } t)
      | .error _ _ => none
  | .adjust buf =>
    if (readAdjust m.id buf).isSome = true then
      match clientReadWindowAdjust app buf m.session with
      | .ok _ t => some (m.hear t)
      | .error _ _ => none
    else none
  | .other t => some (m.hear t)

/-- A run. -/
def Mirror.run (app : Application) (m : Mirror) (deeds : List Mirror.Deed) : Option Mirror :=
  deeds.foldlM (Mirror.step app) m

/-- The totals that the owner has not read. -/
def Mirror.unread (m : Mirror) : List UInt32 := totals m.owner.channel.queue

/-- The owner's window. -/
def Mirror.window (m : Mirror) : Nat := m.owner.channel.windowSize.toNat

/-- How much of what the owner has sent the session has not served. -/
def Mirror.inFlight (m : Mirror) : Nat :=
  ((m.owner.channel.sent.drop m.taken).flatMap Msg.payload).length

/-- How much the owner has sent. -/
def Mirror.through (m : Mirror) : Nat := m.owner.payload.length

/-- What the peer grants the channel by a deed. -/
def Mirror.Deed.grants (id : UInt32) : Mirror.Deed → Nat
  | .adjust buf => (readAdjust id buf).elim 0 UInt32.toNat
  | _ => 0

/-- What a session does apart from the sending side of a channel: the channel is as
before or gone, and its sender is used for no total. -/
structure Elsewhere (id : UInt32) (sender : Nat) (s t : Session) : Prop where
  /-- The sending side is as it was, or the channel is gone. -/
  entry : ∀ ch', t.entry id = some ch' → t.channels id = s.channels id ∧
    ∃ ch, s.entry id = some ch ∧ ch'.recipientWindowSize = ch.recipientWindowSize ∧
      ch'.pendingData = ch.pendingData
  /-- No total is told. -/
  untold : totals (heard sender (t.sent.drop s.sent.length)) = []

/-- The session has served all data before a CHANNEL_WINDOW_ADJUST. -/
def Mirror.Punctual (m : Mirror) : Mirror.Deed → Prop
  | .adjust _ => m.inFlight = 0
  | _ => True

/-- No data are sent while a total is unread, `wait` receives a total with the
window used up, and nothing else in the session concerns the sending side. -/
def Mirror.Careful (m : Mirror) : Mirror.Deed → Prop
  | .turn => m.owner.stage = .sending → m.owner.next ≠ [] → m.unread = []
  | .wait => ∀ newSize rest, m.owner.channel.queue = .msg (.windowAdjusted newSize) :: rest →
      m.owner.channel.windowSize = 0
  | .other t => Elsewhere m.id m.sender m.session t
  | _ => True

/-- A channel that has just been confirmed. -/
structure Mirror.Fresh (m : Mirror) : Prop where
  /-- Nothing has been sent. -/
  sent : m.owner.channel.sent = []
  /-- Nothing has been served. -/
  taken : m.taken = 0
  /-- No call is under way. -/
  stage : m.owner.stage = .returned
  /-- Nothing has arrived. -/
  queue : m.owner.channel.queue = []
  /-- The session has the channel, with the same window and nothing queued, and its sender. -/
  entry : m.session.channels m.id = some m.sender ∧ ∃ ch, m.session.entry m.id = some ch ∧
    ch.recipientWindowSize = m.owner.channel.windowSize ∧ ch.pendingData = []

/-- A channel whose owner has just been given its handle. -/
def Mirror.given (channel : ChannelHandle) (sender : Nat) (session : Session) : Mirror :=
  ⟨⟨channel, none, ⟨[], by simp⟩, .returned⟩, sender, 0, session⟩

/-- The windows agree, and the owner keeps to what was granted. -/
structure Mirror.Agrees (granted : Nat) (m : Mirror) : Prop where
  /-- With no total unread the owner's window and what is under way are the session's window. -/
  equal : m.unread = [] → ∀ ch, m.session.entry m.id = some ch →
    m.window + m.inFlight = ch.recipientWindowSize.toNat
  /-- The owner has sent no more than was granted. -/
  within : m.through ≤ granted

/-- The session has a channel with a window, with nothing queued and with its sender,
unless the channel is gone. -/
def Holds (id : UInt32) (sender : Nat) (s : Session) (balance : Nat) : Prop :=
  ∀ ch, s.entry id = some ch → ch.recipientWindowSize.toNat = balance ∧ ch.pendingData = [] ∧
    s.channels id = some sender

/-- A message of the owner of a channel that the window accounts for. -/
def Msg.Own (id : UInt32) (message : Msg) : Prop :=
  (∃ body, message = .data id body) ∨ (∃ body ext, message = .extendedData id body ext) ∨
    message = .eof id

/-- The owner's window as a credit that the session keeps. -/
def Mirror.credit (m : Mirror) (granted balance : Nat) : Credit :=
  ⟨granted, balance, m.window, m.inFlight, m.through, m.unread.map UInt32.toNat⟩

/-- The owner's window is a credit, of which the session keeps the balance. -/
structure Mirror.Tracks (granted balance : Nat) (m : Mirror) : Prop where
  /-- The session's window is the balance. -/
  holds : Holds m.id m.sender m.session balance
  /-- `send_data` waits with the window used up. -/
  waits : m.owner.stage = .waiting → m.owner.channel.windowSize = 0
  /-- The session serves what has been sent. -/
  taken : m.taken ≤ m.owner.channel.sent.length
  /-- All of it are data of the channel. -/
  own : ∀ message ∈ m.owner.channel.sent, message.Own m.id
  /-- The credit is sound. -/
  sound : (m.credit granted balance).Sound

end

/-! ### What arrives -/

theorem totals_append (l l' : List OpenChannelMsg) : totals (l ++ l') = totals l ++ totals l' := by
  induction l with
  | nil => rfl
  | cons m l ih =>
    cases m with
    | opened id maxPacketSize windowSize => exact ih
    | msg m =>
      cases m with
      | windowAdjusted newSize => exact congrArg (newSize :: ·) ih
      | _ => exact ih

theorem totals_none {m : OpenChannelMsg} (h : ∀ newSize, m ≠ .msg (.windowAdjusted newSize))
    (rest : List OpenChannelMsg) : totals (m :: rest) = totals rest := by
  cases m with
  | opened id maxPacketSize windowSize => rfl
  | msg m =>
    cases m with
    | windowAdjusted newSize => exact absurd rfl (h newSize)
    | _ => rfl

section
variable [Deps] {s t : Session} {enc : Encrypted} {id : UInt32} {ch : Channel}

/-- Data that fit the window of a channel with nothing queued are sent at once. -/
theorem submit_sends {enc' : Encrypted} {ext : Option UInt32} {packet : Channel → Bytes → Bytes}
    {buf : Bytes} (hch : enc.channels id = some ch) (hpending : ch.pendingData = [])
    (hroom : buf.length ≤ ch.recipientWindowSize.toNat)
    (h : enc.submit id ext packet buf = .ok enc') :
    ∃ ch', enc'.channels id = some ch' ∧ ch'.pendingData = [] ∧
      ch'.recipientWindowSize.toNat + buf.length = ch.recipientWindowSize.toNat := by
  unfold Encrypted.submit at h
  rw [hch] at h
  dsimp only at h
  by_cases hconfirmed : ch.confirmed = true
  · rw [if_pos hconfirmed, if_pos hpending] at h
    obtain ⟨⟨enc₁, ch₁, sent⟩, hsend, hrest⟩ := ok_of_bind h
    obtain ⟨hsent, hsame, hwindow, -⟩ := sendChunks_ok hsend
    have hall : ¬ sent < buf.length := by omega
    rw [if_neg hall] at hrest
    cases hrest
    refine ⟨ch₁, Function.update_self .., ?_, by omega⟩
    rw [hsame]
    exact hpending
  · rw [if_neg hconfirmed] at h
    cases h

/-- The session serves data of the owner by submitting them. -/
theorem submitted_takes {f : Encrypted → Except Fault Encrypted}
    (h : (do assertEncrypted; onCommon (updateEnc f)) s = .ok () t) :
    ∃ enc enc', s.common.encrypted = some enc ∧ f enc = .ok enc' ∧ t = s.withEnc enc' := by
  rw [run_bind] at h
  unfold assertEncrypted at h
  rw [run_bind, run_get] at h
  dsimp only at h
  cases henc : s.common.encrypted with
  | none =>
    rw [henc] at h
    cases h
  | some enc =>
    rw [henc, Option.isSome_some, if_pos rfl, run_pure] at h
    cases hf : f enc with
    | ok enc' =>
      refine ⟨enc, enc', rfl, hf, ?_⟩
      simp only [onCommon, zoom, updateEnc, run_bind, run_get, henc, run_lift hf, run_set] at h
      cases h
      rfl
    | error e =>
      simp only [onCommon, zoom, updateEnc, run_bind, run_get, henc, hf, run_lift_error] at h
      cases h

/-- The session serves data of the owner: they are taken off the window. -/
theorem Holds.submit {f : Encrypted → Except Fault Encrypted} {ext : Option UInt32}
    {packet : Channel → Bytes → Bytes} {buf : Bytes} {sender balance : Nat}
    (h : Holds id sender s balance) (hf : f = fun enc => enc.submit id ext packet buf)
    (hle : buf.length ≤ balance)
    (hserve : (do assertEncrypted; onCommon (updateEnc f)) s = .ok () t) :
    Holds id sender t (balance - buf.length) ∧ t.sent = s.sent := by
  obtain ⟨enc, enc', henc, hdata, rfl⟩ := submitted_takes hserve
  rw [hf] at hdata
  refine ⟨fun ch' hch' => ?_, rfl⟩
  have hafter : enc'.channels id = some ch' := hch'
  have hbefore : s.entry id = enc.channels id := by
    unfold Session.entry
    rw [henc]
    rfl
  cases hch : enc.channels id with
  | none =>
    simp only [Encrypted.submit, hch, Except.ok.injEq] at hdata
    rw [← hdata, hch] at hafter
    cases hafter
  | some ch =>
    obtain ⟨hwindow, hpending, hsender⟩ := h ch (hbefore.trans hch)
    obtain ⟨ch₁, hch₁, hnone, hsum⟩ := submit_sends hch hpending (by omega) hdata
    have hsame : ch₁ = ch' := Option.some.inj (hch₁.symm.trans hafter)
    rw [← hsame]
    exact ⟨by omega, hnone, hsender⟩

/-- The session serves a message of the owner. -/
theorem Holds.take {message : Msg} {sender balance : Nat} (h : Holds id sender s balance)
    (hown : message.Own id) (hle : message.payload.length ≤ balance)
    (hserve : serveMessage message s = .ok () t) :
    Holds id sender t (balance - message.payload.length) ∧ t.sent = s.sent := by
  rcases hown with ⟨body, rfl⟩ | ⟨body, ext, rfl⟩ | rfl
  · exact h.submit (f := fun enc => enc.data id body) rfl hle hserve
  · exact h.submit (f := fun enc => enc.extendedData id ext body) rfl hle hserve
  · change eof id s = .ok () t at hserve
    unfold eof assertEncrypted at hserve
    rw [run_bind, run_bind, run_get] at hserve
    dsimp only at hserve
    cases henc : s.common.encrypted with
    | none =>
      rw [henc] at hserve
      cases hserve
    | some enc =>
      rw [henc, Option.isSome_some, if_pos rfl, run_pure] at hserve
      cases hserve
      refine ⟨fun ch' hch' => h ch' ?_, rfl⟩
      have hsame : (enc.eof id).channels = enc.channels := by
        unfold Encrypted.eof Encrypted.byte
        split
        · rfl
        · rfl
      unfold Session.entry CommonSession.modifyEnc at hch'
      unfold Session.entry
      simp only [henc, Option.map_some, Option.bind_some, hsame] at hch' ⊢
      exact hch'

omit [Deps] in
/-- The packet that grants a channel something is read as such. -/
theorem readAdjust_reads {buf : Bytes} {amount : UInt32} (h : readAdjust id buf = some amount) :
    ∃ r r', (reader buf 1).readU32 = .ok (id, r) ∧ r.readU32 = .ok (amount, r') := by
  unfold readAdjust at h
  split at h
  · split at h
    · rename_i id' r hid
      split at h
      · rename_i heq
        split at h
        · rename_i amount' r' hamount
          rw [heq] at hid
          rw [Option.some.inj h] at hamount
          exact ⟨r, r', hid, hamount⟩
        · cases h
      · cases h
    · cases h
  · cases h

/-- A message to the sender of a channel. -/
theorem sendTo_sends (m : OpenChannelMsg) (s : Session) :
    ∃ t, sendTo id m s = .ok () t ∧ t.common = s.common ∧ t.channels = s.channels ∧
      t.sent = s.sent ++ (s.channels id).toList.map fun sender => (sender, m) := by
  unfold sendTo
  rw [run_modify]
  cases hsender : s.channels id with
  | none => exact ⟨s, rfl, rfl, rfl, (List.append_nil _).symm⟩
  | some sender => exact ⟨_, rfl, rfl, rfl, rfl⟩

/-- With nothing queued the default handler tells the total as it is. -/
theorem flushAdjusted_tells (newSize : UInt32) (henc : s.common.encrypted = some enc)
    (hch : enc.channels id = some ch) (hpending : ch.pendingData = []) :
    ∃ t, flushAdjusted id newSize s = .ok () t ∧ t.entry id = some ch ∧
      t.channels = s.channels ∧ t.sent = s.sent ++ (s.channels id).toList.map fun sender =>
        (sender, .msg (.windowAdjusted newSize)) := by
  have hsame : { ch with pendingData := [] } = ch := by rw [← hpending]
  have hloop : flushPendingLoop ch.pendingData enc ch 0 = .ok (enc.pushAll [], ch, 0) := by
    simp only [hpending, flushPendingLoop, hsame]
    rfl
  have hflush : (enc.flushPending id).map Prod.swap =
      .ok (0, (enc.setChannel id ch).note (.flushPending id [])) := by
    rw [flushPending_of_loop hch hloop]
    rfl
  have hzero : UInt32.ofNat 0 ≤ newSize := by
    rw [UInt32.le_iff_toNat_le]
    exact Nat.zero_le _
  have hrest : newSize - UInt32.ofNat 0 = newSize := by
    apply UInt32.toNat_inj.mp
    rw [UInt32.toNat_sub_of_le _ _ hzero]
    rfl
  obtain ⟨t, hsend, hcommon, hchannels, hsent⟩ := @sendTo_sends _ id
    (.msg (.windowAdjusted newSize))
    (s.withEnc ((enc.setChannel id ch).note (.flushPending id [])))
  refine ⟨t, ?_, ?_, hchannels, hsent⟩
  · unfold flushAdjusted
    rw [run_bind, run_get]
    dsimp only
    rw [henc, Option.isSome_some, if_pos rfl, run_bind,
      run_onCommon (f := fun enc => (enc.flushPending id).map Prod.swap) henc hflush]
    dsimp only
    rw [if_pos hzero, hrest]
    exact hsend
  · unfold Session.entry
    rw [hcommon]
    exact Function.update_self ..

/-- The session serves a CHANNEL_WINDOW_ADJUST: what is granted is added, and
the owner is told the total. -/
theorem clientReadWindowAdjust_tells {app : Application} (hdefault : app.Default) {buf : Bytes}
    {amount : UInt32} (hread : readAdjust id buf = some amount)
    (hpending : ∀ ch, s.entry id = some ch → ch.pendingData = [])
    (h : clientReadWindowAdjust app buf s = .ok () t) :
    ∃ ch total, s.entry id = some ch ∧
      total.toNat = ch.recipientWindowSize.toNat + amount.toNat ∧
      t.entry id = some { ch with recipientWindowSize := total } ∧ t.channels = s.channels ∧
      t.sent = s.sent ++ ((s.channels id).toList.map fun sender =>
        (sender, OpenChannelMsg.msg (.windowAdjusted total))) := by
  obtain ⟨r, r', hid, hamount⟩ := readAdjust_reads hread
  unfold clientReadWindowAdjust at h
  rw [run_bind, run_lift hid] at h
  dsimp only at h
  rw [run_bind, run_lift hamount] at h
  dsimp only at h
  cases henc : s.common.encrypted with
  | none =>
    simp only [onCommon, zoom, withEnc, run_bind, run_get, henc, run_throw] at h
    cases h
  | some enc =>
    have hentry : s.entry id = enc.channels id := by
      unfold Session.entry
      rw [henc]
      rfl
    rw [hentry] at hpending ⊢
    cases hadjust : enc.adjustRecipientWindow id amount with
    | error e =>
      simp only [onCommon, zoom, withEnc, run_bind, run_get, henc, hadjust, run_lift_error] at h
      cases h
    | ok res =>
      cases hch : enc.channels id with
      | none =>
        simp only [Encrypted.adjustRecipientWindow, hch] at hadjust
        cases hadjust
      | some ch =>
        have hnone := hpending ch hch
        have hroom : ch.recipientWindowSize.toNat + amount.toNat < 2 ^ 32 := by
          by_contra hfull
          simp only [Encrypted.adjustRecipientWindow, hch, Channel.addWindow, if_neg hfull, bind,
            Except.bind] at hadjust
          cases hadjust
        obtain ⟨hadd, hsum⟩ := addWindow_room hroom
        simp only [Encrypted.adjustRecipientWindow, hch, hadd, bind, Except.bind,
          Except.ok.injEq] at hadjust
        have hrun := run_onCommon (f := (·.adjustRecipientWindow id amount)) henc (by
          simp only [Encrypted.adjustRecipientWindow, hch, hadd, bind, Except.bind]
          rfl)
        rw [run_bind, hrun] at h
        dsimp only at h
        obtain ⟨u, hcommon, ⟨hchannels, hsent⟩, hfinish⟩ := finish_windowAdjusted hdefault id
          (ch.recipientWindowSize + amount) (s.withEnc (enc.setChannel id
            { ch with recipientWindowSize := ch.recipientWindowSize + amount }))
        have hu : u.common.encrypted = some (enc.setChannel id
            { ch with recipientWindowSize := ch.recipientWindowSize + amount }) := by
          rw [hcommon]
          rfl
        obtain ⟨t', hflushed, hentry', hchannels', hsent'⟩ := flushAdjusted_tells
          (ch.recipientWindowSize + amount) hu (Function.update_self ..) hnone
        rw [hfinish, run_bind, run_bind, hflushed] at h
        cases h
        refine ⟨ch, _, rfl, hsum, hentry', hchannels'.trans hchannels, ?_⟩
        rw [hsent', hsent, hchannels]
        rfl

/-- The session serves what the peer grants: the owner is told the new balance. -/
theorem Holds.adjust {app : Application} (hdefault : app.Default) {buf : Bytes} {amount : UInt32}
    {sender balance : Nat} (h : Holds id sender s balance) (hread : readAdjust id buf = some amount)
    (hserve : clientReadWindowAdjust app buf s = .ok () t) :
    ∃ total, Holds id sender t (balance + amount.toNat) ∧
      totals (heard sender (t.sent.drop s.sent.length)) = [total] ∧
      total.toNat = balance + amount.toNat := by
  obtain ⟨ch, total, hch, hsum, hentry, hchannels, hsent⟩ := clientReadWindowAdjust_tells hdefault
    hread (fun ch hch => (h ch hch).2.1) hserve
  obtain ⟨hwindow, hpending, hsender⟩ := h ch hch
  have htotal : total.toNat = balance + amount.toNat := by omega
  refine ⟨total, fun ch' hch' => ?_, ?_, htotal⟩
  · have hsame : ch' = { ch with recipientWindowSize := total } :=
      Option.some.inj (hch'.symm.trans hentry)
    rw [hsame, hchannels]
    exact ⟨htotal, hpending, hsender⟩
  · rw [hsent, List.drop_left, hsender]
    simp only [Option.toList_some, List.map_cons, List.map_nil, heard, List.filter_cons,
      decide_true, if_true, List.filter_nil, totals]

/-- Something else happens. -/
theorem Holds.other {sender balance : Nat} (h : Holds id sender s balance)
    (hapart : Elsewhere id sender s t) : Holds id sender t balance := by
  intro ch' hch'
  obtain ⟨hchannels, ch, hch, hwindow, hpending⟩ := hapart.entry ch' hch'
  obtain ⟨hbalance, hnone, hsender⟩ := h ch hch
  rw [hwindow, hpending, hchannels]
  exact ⟨hbalance, hnone, hsender⟩

end

/-! ### One deed -/

section
variable [Deps] {app : Application} {m m' : Mirror} {granted balance : Nat}

omit [Deps] in
/-- What `send_data` sends when it goes on. -/
theorem send_sends (s : SendData) : ∃ message : Msg,
    s.send.channel.sent = s.channel.sent ++ [message] ∧ message.payload = s.next ∧
      message.Own s.channel.id := by
  cases hext : s.ext with
  | none =>
    refine ⟨.data s.channel.id s.next, ?_, rfl, .inl ⟨_, rfl⟩⟩
    simp only [SendData.send, ChannelHandle.sendDataPacket, hext, SendData.next]
  | some ext =>
    refine ⟨.extendedData s.channel.id s.next ext, ?_, rfl, .inr (.inl ⟨_, _, rfl⟩)⟩
    simp only [SendData.send, ChannelHandle.sendDataPacket, hext, SendData.next]

/-- No deed changes which channel it is. -/
theorem Mirror.step_same {deed : Mirror.Deed} (h : m.step app deed = some m') :
    m'.id = m.id ∧ m'.sender = m.sender := by
  cases deed with
  | start ext data =>
    simp only [Mirror.step] at h
    split at h
    · cases h
      exact ⟨rfl, rfl⟩
    · cases h
  | turn =>
    cases h
    refine ⟨?_, rfl⟩
    change (m.owner.step).channel.id = m.owner.channel.id
    unfold SendData.step
    cases m.owner.stage with
    | sending => rfl
    | waiting =>
      rcases recv_cases m.owner with ⟨-, hrecv⟩ | ⟨newSize, rest, -, hrecv⟩ | ⟨x, rest, -, -, hrecv⟩
      · dsimp only
        rw [hrecv]
        by_cases hclosed : m.owner.channel.closed = true
        · rw [if_pos hclosed]
        · rw [if_neg hclosed]
      · dsimp only
        rw [hrecv]
      · dsimp only
        rw [hrecv]
    | returned => rfl
  | wait =>
    simp only [Mirror.step] at h
    split at h
    · split at h
      · rename_i channel hwait
        cases h
        refine ⟨?_, rfl⟩
        change channel.id = m.owner.channel.id
        unfold ChannelHandle.wait at hwait
        split at hwait
        · split at hwait
          · cases hwait
            rfl
          · cases hwait
        · cases hwait
          rfl
        · cases hwait
          rfl
      · cases h
    · cases h
  | take =>
    simp only [Mirror.step] at h
    split at h
    · cases h
    · split at h
      · cases h
        exact ⟨rfl, rfl⟩
      · cases h
  | adjust buf =>
    simp only [Mirror.step] at h
    split at h
    · split at h
      · cases h
        exact ⟨rfl, rfl⟩
      · cases h
    · cases h
  | other t =>
    cases h
    exact ⟨rfl, rfl⟩

/-- A total is received: it is the owner's window from then on. -/
theorem Mirror.Tracks.receive (h : m.Tracks granted balance) {total : UInt32}
    {rest : List OpenChannelMsg} {stage : SendStage} (hstage : stage ≠ .waiting)
    (hqueue : m.owner.channel.queue = .msg (.windowAdjusted total) :: rest) :
    Mirror.Tracks granted balance { m with owner := { m.owner with
      channel := { m.owner.channel with windowSize := total, queue := rest }, stage := stage } } := by
  refine ⟨h.holds, fun hwaiting => absurd hwaiting hstage, h.taken, h.own, ?_⟩
  have hsound := h.sound.hear
  have hunread : m.unread = total :: totals rest := by
    unfold Mirror.unread
    rw [hqueue]
    rfl
  simp only [Mirror.credit, Credit.hear, hunread, List.map_cons] at hsound
  exact hsound

/-- A message that is no total is received. -/
theorem Mirror.Tracks.skip (h : m.Tracks granted balance) {x : OpenChannelMsg}
    {rest : List OpenChannelMsg} (hqueue : m.owner.channel.queue = x :: rest)
    (hx : totals (x :: rest) = totals rest) :
    Mirror.Tracks granted balance { m with owner := { m.owner with
      channel := { m.owner.channel with queue := rest } } } := by
  refine ⟨h.holds, h.waits, h.taken, h.own, ?_⟩
  have hsound := h.sound
  have hunread : m.unread = totals rest := by
    unfold Mirror.unread
    rw [hqueue, hx]
  simp only [Mirror.credit, hunread] at hsound
  exact hsound

/-- A message is sent: the owner spends what it carries. -/
theorem Mirror.Tracks.send (h : m.Tracks granted balance)
    (hcareful : m.owner.next ≠ [] → m.unread = []) :
    Mirror.Tracks granted balance { m with owner := m.owner.send } := by
  obtain ⟨message, hsent, hpayload, hown⟩ := send_sends m.owner
  have hwindow := send_window m.owner
  change m.owner.send.channel.windowSize.toNat + m.owner.next.length = m.window at hwindow
  have hdrop : m.owner.send.channel.sent.drop m.taken =
      m.owner.channel.sent.drop m.taken ++ [message] := by
    rw [hsent, List.drop_append_of_le_length h.taken]
  have hflight : Mirror.inFlight { m with owner := m.owner.send } =
      m.inFlight + m.owner.next.length := by
    unfold Mirror.inFlight
    rw [hdrop, List.flatMap_append, List.length_append, List.flatMap_singleton, hpayload]
  have hthrough : Mirror.through { m with owner := m.owner.send } =
      m.through + m.owner.next.length := by
    unfold Mirror.through
    rw [send_payload, List.length_append]
    rfl
  have hleft : Mirror.window { m with owner := m.owner.send } =
      m.window - m.owner.next.length := by
    change m.owner.send.channel.windowSize.toNat = _
    omega
  constructor
  · exact h.holds
  · exact send_waits
  · have htaken := h.taken
    change m.taken ≤ m.owner.send.channel.sent.length
    rw [hsent, List.length_append]
    omega
  · intro x hx
    have hx' : x ∈ m.owner.channel.sent ++ [message] := hsent ▸ hx
    rcases List.mem_append.mp hx' with hold | hnew
    · exact h.own x hold
    · rw [List.mem_singleton.mp hnew]
      exact hown
  · have hsound := h.sound.spend (n := m.owner.next.length)
      (by change m.owner.next.length ≤ m.window; omega) (fun hne => by
        have hnone := hcareful fun hnil => hne (List.length_eq_zero_iff.mpr hnil)
        change m.unread.map UInt32.toNat = []
        rw [hnone]
        rfl)
    unfold Mirror.credit
    rw [hflight, hthrough, hleft]
    exact hsound

/-- A step of `send_data`. -/
theorem Mirror.Tracks.turn (h : m.Tracks granted balance) (hcareful : m.Careful .turn) :
    Mirror.Tracks granted balance { m with owner := m.owner.step } := by
  unfold SendData.step
  cases hstage : m.owner.stage with
  | sending => exact h.send (hcareful hstage)
  | waiting =>
    rcases recv_cases m.owner with ⟨-, hrecv⟩ | ⟨total, rest, hqueue, hrecv⟩ |
      ⟨x, rest, hqueue, hx, hrecv⟩
    · dsimp only
      rw [hrecv]
      by_cases hclosed : m.owner.channel.closed = true
      · rw [if_pos hclosed]
        exact ⟨h.holds, nofun, h.taken, h.own, h.sound⟩
      · rw [if_neg hclosed]
        exact h
    · dsimp only
      rw [hrecv]
      exact h.receive (by decide) hqueue
    · dsimp only
      rw [hrecv]
      exact h.skip hqueue hx
  | returned => exact h

/-- A `recv` of `wait`. -/
theorem Mirror.Tracks.wait (h : m.Tracks granted balance) (hcareful : m.Careful .wait)
    (hstage : m.owner.stage = .returned) {channel : ChannelHandle}
    (hwait : m.owner.channel.wait = .ok channel) :
    Mirror.Tracks granted balance { m with owner := { m.owner with channel := channel } } := by
  unfold ChannelHandle.wait at hwait
  split at hwait
  · rename_i total rest hqueue
    have hempty := hcareful total rest hqueue
    split at hwait
    · cases hwait
      have hsum : m.owner.channel.windowSize + total = total := by
        rw [hempty, UInt32.zero_add]
      rw [hsum]
      have hnot : m.owner.stage ≠ .waiting := by
        rw [hstage]
        decide
      exact h.receive hnot hqueue
    · cases hwait
  · rename_i x rest hother hqueue
    cases hwait
    exact h.skip hqueue (totals_none hother rest)
  · cases hwait
    exact h

/-- What arrives is behind what has arrived. -/
theorem hear_unread (m : Mirror) (t : Session) : (m.hear t).unread =
    m.unread ++ totals (heard m.sender (t.sent.drop m.session.sent.length)) :=
  totals_append _ _

/-- A message of the owner is served. -/
theorem Mirror.Tracks.take (h : m.Tracks granted balance) {message : Msg} {t : Session}
    (hnext : m.owner.channel.sent[m.taken]? = some message)
    (hserve : serveMessage message m.session = .ok () t) :
    Mirror.Tracks granted (balance - message.payload.length)
      (Mirror.hear { m with taken := m.taken + 1 } t) := by
  obtain ⟨hlt, hget⟩ := List.getElem?_eq_some_iff.mp hnext
  have hown := h.own message (hget ▸ List.getElem_mem hlt)
  have hdrop : m.owner.channel.sent.drop m.taken =
      message :: m.owner.channel.sent.drop (m.taken + 1) := by
    rw [List.drop_eq_getElem_cons hlt, hget]
  set after := Mirror.hear { m with taken := m.taken + 1 } t with hafter
  have hflight : m.inFlight = message.payload.length + after.inFlight := by
    change _ = _ + ((m.owner.channel.sent.drop (m.taken + 1)).flatMap Msg.payload).length
    unfold Mirror.inFlight
    rw [hdrop, List.flatMap_cons, List.length_append]
  have hle : m.inFlight ≤ balance := h.sound.inFlight_le
  obtain ⟨hholds, hsent⟩ := h.holds.take hown (by omega) hserve
  have hunread : after.unread = m.unread := by
    rw [hafter, hear_unread]
    change m.unread ++ totals (heard m.sender (t.sent.drop m.session.sent.length)) = m.unread
    rw [hsent, List.drop_length]
    exact List.append_nil _
  refine ⟨hholds, h.waits, hlt, h.own, ?_⟩
  have hsound := h.sound.settle (n := message.payload.length)
    (by change message.payload.length ≤ m.inFlight; omega)
  have hrest : m.inFlight - message.payload.length = after.inFlight := by omega
  simp only [Mirror.credit, Credit.settle, hrest] at hsound
  unfold Mirror.credit
  rw [hunread]
  exact hsound

/-- What the peer grants is told. -/
theorem Mirror.Tracks.adjust (hdefault : app.Default) (h : m.Tracks granted balance) {buf : Bytes}
    {amount : UInt32} {t : Session} (hread : readAdjust m.id buf = some amount)
    (hidle : m.inFlight = 0) (hserve : clientReadWindowAdjust app buf m.session = .ok () t) :
    Mirror.Tracks (granted + amount.toNat) (balance + amount.toNat) (m.hear t) := by
  obtain ⟨total, hholds, htold, htotal⟩ := h.holds.adjust hdefault hread hserve
  refine ⟨hholds, h.waits, h.taken, h.own, ?_⟩
  have hsound := h.sound.grant (n := amount.toNat) hidle
  unfold Mirror.credit
  rw [hear_unread, htold, List.map_append, List.map_singleton, htotal]
  exact hsound

/-- Something else happens. -/
theorem Mirror.Tracks.other (h : m.Tracks granted balance) {t : Session}
    (hapart : Elsewhere m.id m.sender m.session t) :
    Mirror.Tracks granted balance (m.hear t) := by
  refine ⟨h.holds.other hapart, h.waits, h.taken, h.own, ?_⟩
  unfold Mirror.credit
  rw [hear_unread, hapart.untold, List.append_nil]
  exact h.sound

/-- A deed that meets the conditions keeps the credit. -/
theorem Mirror.Tracks.step (hdefault : app.Default) (h : m.Tracks granted balance) {deed : Mirror.Deed}
    (hpunctual : m.Punctual deed) (hcareful : m.Careful deed) (hstep : m.step app deed = some m') :
    ∃ balance', m'.Tracks (granted + deed.grants m.id) balance' := by
  cases deed with
  | start ext data =>
    simp only [Mirror.step] at hstep
    split at hstep
    · cases hstep
      exact ⟨balance, h.holds, nofun, h.taken, h.own, h.sound⟩
    · cases hstep
  | turn =>
    cases hstep
    exact ⟨balance, h.turn hcareful⟩
  | wait =>
    simp only [Mirror.step] at hstep
    split at hstep
    · rename_i hstage
      split at hstep
      · rename_i channel hwait
        cases hstep
        exact ⟨balance, h.wait hcareful hstage hwait⟩
      · cases hstep
    · cases hstep
  | take =>
    simp only [Mirror.step] at hstep
    split at hstep
    · cases hstep
    · rename_i message hnext
      split at hstep
      · rename_i t hserve
        cases hstep
        exact ⟨_, h.take hnext hserve⟩
      · cases hstep
  | adjust buf =>
    simp only [Mirror.step] at hstep
    split at hstep
    · rename_i hsome
      split at hstep
      · rename_i t hserve
        cases hstep
        obtain ⟨amount, hread⟩ := Option.isSome_iff_exists.mp hsome
        have hgrants : (Mirror.Deed.adjust buf).grants m.id = amount.toNat := by
          change (readAdjust m.id buf).elim 0 UInt32.toNat = _
          rw [hread]
          rfl
        rw [hgrants]
        exact ⟨_, h.adjust hdefault hread hpunctual hserve⟩
      · cases hstep
    · cases hstep
  | other t =>
    cases hstep
    exact ⟨balance, h.other hcareful⟩

/-! ### The start -/

/-- The default answer to a confirmation tells the owner. -/
theorem finish_confirmation (hdefault : app.Default) (id maxPacket window : UInt32) (s : Session) :
    ∃ t, finish app (.channelOpenConfirmation id maxPacket window) s = .ok () t ∧
      t.common.encrypted = s.common.encrypted ∧ t.channels = s.channels ∧
      t.sent = s.sent ++ (s.channels id).toList.map fun sender =>
        (sender, .opened id maxPacket window) := by
  have hanswer := hdefault s.common.tick (.channelOpenConfirmation id maxPacket window) s (by simp)
  let u : Session := { s with
    common := { s.common with tick := s.common.tick + 1 }
    callbacks := s.callbacks ++ [(.channelOpenConfirmation id maxPacket window,
      Answer.default (.channelOpenConfirmation id maxPacket window))] }
  obtain ⟨t, hsend, hcommon, hchannels, hsent⟩ := @sendTo_sends _ id
    (.opened id maxPacket window) u
  have hfinish : finish app (.channelOpenConfirmation id maxPacket window) s =
      ((sendTo id (.opened id maxPacket window) >>= fun _ => pure ()) >>= fun _ => pure ()) u := by
    unfold finish
    rw [run_bind]
    unfold ask
    dsimp only
    rw [hanswer]
    rfl
  refine ⟨t, ?_, by rw [hcommon], hchannels, hsent⟩
  rw [hfinish, run_bind, run_bind, hsend]
  rfl

/-- The entry that a CHANNEL_OPEN_CONFIRMATION makes of another. -/
abbrev confirmedEntry (ch : Channel) (recipient window maxPacket : UInt32) : Channel :=
  { ch with
    recipientChannel := recipient, recipientWindowSize := window
    recipientMaximumPacketSize := maxPacket, confirmed := true }

/-- A CHANNEL_OPEN_CONFIRMATION for a channel of the table: the entry takes the window
and the packet size, and the default handler tells the owner the same. -/
theorem clientReadOpenConfirmation_tells {s : Session} {buf : Bytes} {id recipient window
    maxPacket : UInt32} {sender : Nat} {ch : Channel} (hdefault : app.Default)
    (hread : readConfirmation buf = .ok (id, recipient, window, maxPacket))
    (hsender : s.channels id = some sender) (hch : s.entry id = some ch) :
    ∃ t, clientReadOpenConfirmation app buf s = .ok () t ∧
      t.entry id = some (confirmedEntry ch recipient window maxPacket) ∧
      t.channels = s.channels ∧ t.sent = s.sent ++ [(sender, .opened id maxPacket window)] := by
  obtain ⟨⟨id', r⟩, hid, hread⟩ := ok_of_bind hread
  obtain ⟨⟨recipient', r₁⟩, hrecipient, hread⟩ := ok_of_bind hread
  obtain ⟨⟨window', r₂⟩, hwindow, hread⟩ := ok_of_bind hread
  obtain ⟨⟨maxPacket', r₃⟩, hmax, hread⟩ := ok_of_bind hread
  cases hread
  obtain ⟨enc, henc, hentry⟩ := Option.bind_eq_some_iff.mp hch
  let enc' := enc.setChannel id (confirmedEntry ch recipient window maxPacket)
  have hconfirm : ∀ F, F enc = .ok ((), enc') → onCommon (withEnc F) s = .ok () (s.withEnc enc') :=
    fun F hF => run_onCommon henc hF
  obtain ⟨t, hfinish, hencrypted, hchannels, hsent⟩ :=
    finish_confirmation hdefault id maxPacket window (s.withEnc enc')
  refine ⟨t, ?_, ?_, hchannels, ?_⟩
  · unfold clientReadOpenConfirmation
    rw [run_bind, run_lift hid]
    dsimp only
    rw [run_bind, run_lift hrecipient]
    dsimp only
    rw [run_bind, run_lift hwindow]
    dsimp only
    rw [run_bind, run_lift hmax]
    dsimp only
    rw [run_bind, hconfirm _ (by rw [hentry])]
    exact hfinish
  · unfold Session.entry
    rw [hencrypted]
    exact Function.update_self ..
  · rw [hsent]
    change s.sent ++ (s.channels id).toList.map _ = _
    rw [hsender]
    rfl

/-- A handle with the window of an entry on which nothing is pending is fresh. -/
theorem Mirror.given_fresh {s : Session} {id window maxPacket : UInt32} {sender : Nat}
    {ch : Channel} (hsender : s.channels id = some sender) (hch : s.entry id = some ch)
    (hwindow : ch.recipientWindowSize = window) (hnone : ch.pendingData = []) :
    (Mirror.given ⟨id, maxPacket, window, [], false, []⟩ sender s).Fresh :=
  ⟨rfl, rfl, rfl, rfl, hsender, ch, hch, hwindow, hnone⟩

/-- What a CHANNEL_OPEN_CONFIRMATION for a channel that is not confirmed does for the
task that waits for it. -/
def GivesFresh (app : Application) (s : Session) (buf : Bytes) : Prop :=
  ∀ id recipient window maxPacket sender ch,
    readConfirmation buf = .ok (id, recipient, window, maxPacket) →
    s.channels id = some sender → s.entry id = some ch → ch.confirmed = false →
    ∃ t channel, clientReadOpenConfirmation app buf s = .ok () t ∧
      waitChannelConfirmation (heard sender (t.sent.drop s.sent.length)) = some channel ∧
      (Mirror.given channel sender t).Fresh

/-- A confirmation gives the owner a handle with the window of the session. -/
theorem givesFresh_of_sought (hdefault : app.Default) {s : Session} (hsought : s.common.Sought)
    (buf : Bytes) : GivesFresh app s buf := by
  intro id recipient window maxPacket sender ch hread hsender hch hnot
  obtain ⟨t, hserve, hentry, hchannels, hsent⟩ :=
    clientReadOpenConfirmation_tells hdefault hread hsender hch
  have hheard : heard sender (t.sent.drop s.sent.length) = [.opened id maxPacket window] := by
    rw [hsent, List.drop_left]
    simp [heard]
  refine ⟨t, ⟨id, maxPacket, window, [], false, []⟩, hserve, by rw [hheard]; rfl, ?_⟩
  exact Mirror.given_fresh (hchannels ▸ hsender) hentry rfl (hsought id ch hch hnot).2

/-- In every run that confirms no channel twice the owner of a channel starts with
the window of the session. -/
theorem confirmed_fresh (hdefault : app.Default) {config : Config} {sshid : Bytes} {world : World}
    {l : Loop Session} (hl : connectStream config app sshid world = .ok l)
    (events : List (Event Msg)) (honce : Loop.Along (Loop.iterate (driver app)) (fun l e =>
      ∀ p ∈ Loop.given (driver app) l e, ConfirmsOnce p.1 p.2) l events) :
    Loop.Along (Loop.iterate (driver app)) (fun l e =>
      ∀ p ∈ Loop.given (driver app) l e, GivesFresh app p.1 p.2) l events :=
  given_orderly (connect_orderly hl) events honce fun p horderly _ =>
    givesFresh_of_sought hdefault horderly.sought p.2

/-- So does the owner of a forwarded connection. -/
theorem createForwardedTcpipChannel_fresh {s t : Session} {remoteChannel windowSize
    maxPacketSize : UInt32} {sender : Nat}
    (h : createForwardedTcpipChannel remoteChannel sender windowSize maxPacketSize s = .ok () t) :
    ∃ id, (Mirror.given ⟨id, maxPacketSize, windowSize, [], false, []⟩ sender t).Fresh := by
  unfold createForwardedTcpipChannel at h
  rw [run_bind, run_get] at h
  dsimp only at h
  cases henc : s.common.encrypted with
  | none =>
    simp only [onCommon, zoom, withEnc, run_bind, run_get, henc, run_throw] at h
    cases h
  | some enc =>
    cases hnew : enc.newChannelId with
    | error e =>
      simp only [onCommon, zoom, withEnc, run_bind, run_get, henc, hnew, run_lift_error] at h
      cases h
    | ok res =>
      obtain ⟨id, enc'⟩ := res
      rw [run_bind, run_onCommon henc hnew] at h
      cases h
      exact ⟨id, Mirror.given_fresh (Function.update_self ..) (Function.update_self ..) rfl rfl⟩

/-! ### Runs -/

/-- A fresh channel has its window as a credit. -/
theorem Mirror.Fresh.tracks (h : m.Fresh) : m.Tracks m.window m.window := by
  obtain ⟨hsender, ch, hch, hwindow, hpending⟩ := h.entry
  have hflight : m.inFlight = 0 := by
    unfold Mirror.inFlight
    rw [h.sent, List.drop_nil]
    rfl
  have hthrough : m.through = 0 := by
    unfold Mirror.through SendData.payload
    rw [h.sent]
    rfl
  have hunread : m.unread = [] := by
    unfold Mirror.unread
    rw [h.queue]
    rfl
  constructor
  · intro ch' hch'
    obtain rfl : ch = ch' := Option.some.inj (hch.symm.trans hch')
    exact ⟨congrArg UInt32.toNat hwindow, hpending, hsender⟩
  · intro hwaiting
    rw [h.stage] at hwaiting
    cases hwaiting
  · rw [h.taken]
    exact Nat.zero_le _
  · rw [h.sent]
    exact fun _ hx => absurd hx List.not_mem_nil
  · unfold Mirror.credit
    rw [hflight, hthrough, hunread]
    exact ⟨fun _ => rfl, nofun, rfl⟩

/-- A credit that is sound makes the windows agree. -/
theorem Mirror.Tracks.agrees (h : m.Tracks granted balance) : m.Agrees granted := by
  constructor
  · intro hnone ch hch
    rw [(h.holds ch hch).1]
    have hnone' : (m.credit granted balance).unheard = [] := by
      change m.unread.map UInt32.toNat = []
      rw [hnone]
      rfl
    exact h.sound.settled hnone'
  · exact h.sound.spent_le

/-- In a run in which all data are served before a CHANNEL_WINDOW_ADJUST is, no
data are sent while a total is unread, and `wait` receives totals only with the
window used up, the two windows agree, and the owner keeps to what is granted. -/
theorem mirror_agrees (hdefault : app.Default) (hfresh : m.Fresh) (deeds : List Mirror.Deed)
    (hpunctual : Always (Mirror.step app) Mirror.Punctual m deeds)
    (hcareful : Always (Mirror.step app) Mirror.Careful m deeds)
    (hrun : m.run app deeds = some m') :
    m'.Agrees (m.window + (deeds.map (Mirror.Deed.grants m.id)).sum) := by
  have hkept := (hpunctual.and hcareful).kept (w := Mirror.Deed.grants m.id)
    (I := fun granted m₁ => m₁.id = m.id ∧ ∃ balance, m₁.Tracks granted balance)
    (fun granted m₁ deed m₂ ⟨hid, balance, h⟩ ⟨hpunctual, hcareful⟩ hstep => by
      have hsame := (Mirror.step_same hstep).1
      have hnext := h.step hdefault hpunctual hcareful hstep
      rw [hid] at hnext
      exact ⟨hsame.trans hid, hnext⟩) ⟨rfl, _, hfresh.tracks⟩ hrun
  obtain ⟨-, balance, h⟩ := hkept
  exact h.agrees

end

/-- Windows that do not agree. -/
theorem Mirror.not_agrees [Deps] {m : Mirror} {granted : Nat} {ch : Channel} (hnone : m.unread = [])
    (hch : m.session.entry m.id = some ch)
    (hne : m.window + m.inFlight ≠ ch.recipientWindowSize.toNat) : ¬ m.Agrees granted :=
  fun h => hne (h.equal hnone ch hch)

end Thrussh.Client

namespace Thrussh.Concrete

open Client Lib

/-- A channel with a window of one byte that has just been confirmed. -/
def mirror : @Mirror deps :=
  letI := deps
  { owner := ⟨⟨2, 100, 1, [], false, []⟩, none, ⟨[], by simp⟩, .returned⟩
    sender := 0
    taken := 0
    session := { clientWithChannel 1 with channels := Function.update (fun _ => none) 2 (some 0) } }

/-- The peer grants three bytes, and `wait` receives the total. -/
def hasty : List (@Client.Mirror.Deed deps) :=
  [@Client.Mirror.Deed.adjust deps (adjustPacket 2 3), @Client.Mirror.Deed.wait deps]

/-- The owner sends a byte, the session serves it, the peer grants three bytes,
and `send_data` receives the total. -/
def patient : List (@Client.Mirror.Deed deps) :=
  [@Client.Mirror.Deed.start deps none ⟨[[0]], by simp⟩, @Client.Mirror.Deed.turn deps,
    @Client.Mirror.Deed.take deps, @Client.Mirror.Deed.adjust deps (adjustPacket 2 3),
    @Client.Mirror.Deed.turn deps]

theorem mirror_fresh : @Mirror.Fresh deps mirror := by
  refine @Mirror.Fresh.mk deps mirror rfl rfl rfl rfl ⟨by decide +kernel, channel 1, ?_, rfl, rfl⟩
  decide +kernel

/-- An application with the default methods. -/
def plainApplication : @Application deps :=
  letI := deps
  { handler := fun _ callback _ => Answer.default callback
    listening := fun _ _ => true
    awaited := fun _ _ => [] }

theorem plainApplication_default : @Application.Default deps plainApplication :=
  @fun _ _ _ _ => rfl

/-- `wait` adds the total to the window: the owner may send a byte more than the session. -/
theorem mirror_disagrees : ∃ m', @Mirror.run deps plainApplication mirror hasty = some m' ∧
    Always (@Mirror.step deps plainApplication) (@Mirror.Punctual deps) mirror hasty ∧
    ¬ @Mirror.Agrees deps 4 m' := by
  have hsome : (@Mirror.run deps plainApplication mirror hasty).isSome = true := by decide +kernel
  refine ⟨_, foldlM_getD hsome, ?_, ?_⟩
  · refine .cons ?_ (.cons trivial trivial)
    change @Mirror.inFlight deps mirror = 0
    decide +kernel
  · refine @Mirror.not_agrees deps _ 4 (channel 4) ?_ ?_ ?_
    all_goals decide +kernel

/-- A run in which the windows agree. -/
theorem mirror_patient : ∃ m', @Mirror.run deps plainApplication mirror patient = some m' ∧
    @Mirror.Agrees deps 4 m' := by
  have hsome : (@Mirror.run deps plainApplication mirror patient).isSome = true := by
    decide +kernel
  refine ⟨_, foldlM_getD hsome, ?_⟩
  refine @mirror_agrees deps plainApplication mirror _ plainApplication_default mirror_fresh
    patient ?_ ?_ (foldlM_getD hsome)
  · refine .cons trivial (.cons trivial (.cons trivial (.cons ?_ (.cons trivial trivial))))
    change @Mirror.inFlight deps _ = 0
    decide +kernel
  · refine .cons trivial (.cons ?_ (.cons trivial (.cons trivial (.cons ?_ trivial))))
    · exact fun _ _ => by decide +kernel
    · intro hsending
      exact absurd hsending (by decide +kernel)

end Thrussh.Concrete
