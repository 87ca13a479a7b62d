import Thrussh.Reading
import Thrussh.Server.Moves

/-!
# The questions of an authenticated server

What the packets of an authenticated session ask the handler. The calls of a
handler ask nothing, so a packet asks at most the one question of its
branch, after `adjust_window` where the window is topped up: a question that
is read in the packet, so that everything it hands to the handler was there.
-/

namespace Thrussh.Server

open Lib Position

/-- The bytes that the server has read when it asks a question, the message number included. -/
def Callback.size : Callback → Nat
  | .channelClose _ => 5
  | .channelEof _ => 5
  | .channelOpenSession _ => 24
  | .channelOpenX11 _ address _ => 28 + address.length
  | .channelOpenDirectTcpip _ host _ originator _ => 45 + host.length + originator.length
  | .data _ d => 9 + d.length
  | .extendedData _ _ d => 13 + d.length
  | .windowAdjusted _ _ => 9
  | .ptyRequest _ term _ _ _ _ modes => 41 + term.length + 5 * modes.length
  | .x11Request _ _ authProtocol cookie _ => 30 + authProtocol.length + cookie.length
  | .envRequest _ name value => 21 + name.length + value.length
  | .shellRequest _ => 15
  | .execRequest _ command => 18 + command.length
  | .subsystemRequest _ name => 23 + name.length
  | .windowChangeRequest _ _ _ _ _ => 39
  | .signal _ sig => 21 + sig.name.length
  | .tcpipForward address _ => 27 + address.length
  | .cancelTcpipForward address _ => 34 + address.length
  | _ => 0

/-- The questions that the server reads in a packet. -/
inductive InPacket (buf : Bytes) : Callback → Prop where
  /-- CHANNEL_CLOSE. -/
  | channelClose {id : UInt32} {r : Position} (hhead : buf.head? = some msg.CHANNEL_CLOSE)
    (hid : (reader buf 1).readU32 = .ok (id, r)) : InPacket buf (.channelClose id)
  /-- CHANNEL_EOF. -/
  | channelEof {id : UInt32} {r : Position} (hhead : buf.head? = some msg.CHANNEL_EOF)
    (hid : (reader buf 1).readU32 = .ok (id, r)) : InPacket buf (.channelEof id)
  /-- CHANNEL_DATA and CHANNEL_EXTENDED_DATA. -/
  | data {id : UInt32} {ext : Option UInt32} {d : Bytes} {r r1 r2 : Position}
    (hhead : buf.head? = some msg.CHANNEL_EXTENDED_DATA ∨ buf.head? = some msg.CHANNEL_DATA)
    (hid : (reader buf 1).readU32 = .ok (id, r)) (hext : readExt buf r = .ok (ext, r1))
    (hd : r1.readString = .ok (d, r2)) : InPacket buf (dataCallback id ext d)
  /-- Data after which the window is topped up. -/
  | adjustWindow {id current : UInt32} {r : Position}
    (hid : (reader buf 1).readU32 = .ok (id, r)) : InPacket buf (.adjustWindow id current)
  /-- CHANNEL_WINDOW_ADJUST. -/
  | windowAdjusted {id amount newSize : UInt32} {r r1 : Position}
    (hhead : buf.head? = some msg.CHANNEL_WINDOW_ADJUST)
    (hid : (reader buf 1).readU32 = .ok (id, r)) (hamount : r.readU32 = .ok (amount, r1)) :
    InPacket buf (.windowAdjusted id newSize)
  /-- CHANNEL_REQUEST. -/
  | request {id : UInt32} {reqType : Bytes} {wantsReply : UInt8} {r r1 r2 : Position}
    {callback : Callback} (hhead : buf.head? = some msg.CHANNEL_REQUEST)
    (hid : (reader buf 1).readU32 = .ok (id, r)) (hreq : r.readString = .ok (reqType, r1))
    (hwants : r1.readByte = .ok (wantsReply, r2))
    (h : channelRequestCallback id reqType r2 = .ok (some callback)) : InPacket buf callback
  /-- CHANNEL_OPEN of a session. -/
  | openSession {id sender window maxpacket : UInt32} {r r1 r2 r3 : Position}
    (htyp : (reader buf 1).readString = .ok (ascii "session", r))
    (hsender : r.readU32 = .ok (sender, r1)) (hwindow : r1.readU32 = .ok (window, r2))
    (hmax : r2.readU32 = .ok (maxpacket, r3)) : InPacket buf (.channelOpenSession id)
  /-- CHANNEL_OPEN of an X11 channel. -/
  | openX11 {id sender window maxpacket b : UInt32} {a a' : Bytes} {r r1 r2 r3 r4 r5 : Position}
    (htyp : (reader buf 1).readString = .ok (ascii "x11", r))
    (hsender : r.readU32 = .ok (sender, r1)) (hwindow : r1.readU32 = .ok (window, r2))
    (hmax : r2.readU32 = .ok (maxpacket, r3)) (ha : r3.readString = .ok (a, r4))
    (ha' : fromUtf8 a = .ok a') (hb : r4.readU32 = .ok (b, r5)) :
    InPacket buf (.channelOpenX11 id a' b)
  /-- CHANNEL_OPEN of a direct connection. -/
  | openDirectTcpip {id sender window maxpacket b d : UInt32} {a a' c c' : Bytes}
    {r r1 r2 r3 r4 r5 r6 r7 : Position}
    (htyp : (reader buf 1).readString = .ok (ascii "direct-tcpip", r))
    (hsender : r.readU32 = .ok (sender, r1)) (hwindow : r1.readU32 = .ok (window, r2))
    (hmax : r2.readU32 = .ok (maxpacket, r3)) (ha : r3.readString = .ok (a, r4))
    (ha' : fromUtf8 a = .ok a') (hb : r4.readU32 = .ok (b, r5))
    (hc : r5.readString = .ok (c, r6)) (hc' : fromUtf8 c = .ok c')
    (hd : r6.readU32 = .ok (d, r7)) : InPacket buf (.channelOpenDirectTcpip id a' b c' d)
  /-- GLOBAL_REQUEST of a forwarding. -/
  | tcpipForward {a a' : Bytes} {wantsReply : UInt8} {port : UInt32} {r r1 r2 r3 : Position}
    (hreq : (reader buf 1).readString = .ok (ascii "tcpip-forward", r))
    (hwants : r.readByte = .ok (wantsReply, r1)) (ha : r1.readString = .ok (a, r2))
    (ha' : fromUtf8 a = .ok a') (hport : r2.readU32 = .ok (port, r3)) :
    InPacket buf (.tcpipForward a' port)
  /-- GLOBAL_REQUEST of the end of a forwarding. -/
  | cancelTcpipForward {a a' : Bytes} {wantsReply : UInt8} {port : UInt32} {r r1 r2 r3 : Position}
    (hreq : (reader buf 1).readString = .ok (ascii "cancel-tcpip-forward", r))
    (hwants : r.readByte = .ok (wantsReply, r1)) (ha : r1.readString = .ok (a, r2))
    (ha' : fromUtf8 a = .ok a') (hport : r2.readU32 = .ok (port, r3)) :
    InPacket buf (.cancelTcpipForward a' port)

variable [Deps]

/-- Two sessions between which at most questions of a kind were asked. -/
def Asks (Q : Callback → Prop) (s t : Session) : Prop :=
  ∃ asked, t.callbacks = s.callbacks ++ asked ∧ ∀ p ∈ asked, Q p.1

variable {Q : Callback → Prop} {s t : Session}

/-- Nothing is asked. -/
theorem Asks.silent (h : t.callbacks = s.callbacks) : Asks Q s t :=
  ⟨[], by rw [h, List.append_nil], by simp⟩

theorem Asks.trans {u : Session} (h : Asks Q s t) (h' : Asks Q t u) : Asks Q s u := by
  obtain ⟨asked, hasked, hkind⟩ := h
  obtain ⟨asked', hasked', hkind'⟩ := h'
  refine ⟨asked ++ asked', by rw [hasked', hasked, List.append_assoc], fun p hp => ?_⟩
  exact (List.mem_append.mp hp).elim (hkind p) (hkind' p)

/-- Two sessions between which nothing was asked. -/
def Silent (s t : Session) : Prop := t.callbacks = s.callbacks

/-- A program that moves in silence leaves the record of the questions. -/
theorem silent_callbacks {α : Type} {x : M α} (hx : Moves Silent x) (s : Session) :
    (final (x s)).callbacks = s.callbacks :=
  hx.invariant (p := fun t => t.callbacks = s.callbacks) (fun _ _ h h' => h.trans h') rfl

theorem onCommon_silent {α : Type} (x : CommonM Config α) : Moves Silent (onCommon x) := by
  intro s
  refine .single ?_
  unfold Silent onCommon zoom
  cases x s.common <;> rfl

theorem modify_silent {f : Session → Session} (h : ∀ s, (f s).callbacks = s.callbacks) :
    Moves Silent (modify f : M Unit) := Moves.modify fun s => .single (h s)

theorem modifyEnc_silent (f : Encrypted → Encrypted) : Moves Silent (modifyEnc f) :=
  modify_silent fun _ => rfl

theorem push_silent (body : Bytes) : Moves Silent (push body) := modifyEnc_silent _

/-- A call of the handler asks nothing. -/
theorem runCall_silent (call : Call) : Moves Silent (runCall call) := by
  cases call with
  | requestSuccess =>
    refine Moves.get.bind fun s => ?_
    split
    · split
      · exact .bind (modify_silent (f := fun s => { s with
          common := { s.common with wantsReply := false } }) fun _ => rfl) fun _ => push_silent _
      · exact .pure _
    · exact .pure _
  | requestFailure =>
    refine Moves.get.bind fun s => ?_
    split
    · exact .bind (modify_silent (f := fun s => { s with
        common := { s.common with wantsReply := false } }) fun _ => rfl) fun _ => push_silent _
    · exact .pure _
  | channelOpenFailure channel reason description language => exact push_silent _
  | close channel => exact onCommon_silent (modify (·.byte channel msg.CHANNEL_CLOSE))
  | eof channel => exact onCommon_silent (modify (·.byte channel msg.CHANNEL_EOF))
  | data channel d => exact assertEncrypted_moves.bind fun _ => onCommon_silent _
  | extendedData channel extended d => exact assertEncrypted_moves.bind fun _ => onCommon_silent _
  | channelOpenForwardedTcpip a b c d => exact Moves.get.bind fun _ => onCommon_silent _
  | _ => exact onCommon_silent _

/-- A method that is given the session asks its question and no other. -/
theorem finished_callbacks (handler : Handler) (callback : Callback) (s : Session) :
    (final (finished handler callback s)).callbacks =
      s.callbacks ++ [(callback, handler s.common.tick callback s)] := by
  have hrest : ∀ answer : Answer, Moves Silent (do
      answer.calls.forM runCall
      if answer.fail then throw (.error .handler) else pure answer.result : M Bool) := by
    intro answer
    refine (Moves.forM runCall_silent answer.calls).bind fun _ => ?_
    split
    · exact .throw _
    · exact .pure _
  unfold finished
  rw [final_bind]
  exact silent_callbacks (hrest _) _

theorem finish_callbacks (handler : Handler) (callback : Callback) (s : Session) :
    (final (finish handler callback s)).callbacks =
      s.callbacks ++ [(callback, handler s.common.tick callback s)] := by
  have hcallbacks := finished_callbacks handler callback s
  unfold finish
  rw [final_bind]
  cases hrun : finished handler callback s with
  | ok result t =>
    rw [hrun] at hcallbacks
    exact hcallbacks
  | error e t =>
    rw [hrun] at hcallbacks
    exact hcallbacks

theorem serverReplyForward_callbacks (handler : Handler) (callback : Callback) (s : Session) :
    (final (serverReplyForward handler callback s)).callbacks =
      s.callbacks ++ [(callback, handler s.common.tick callback s)] := by
  have hcallbacks := finished_callbacks handler callback s
  unfold serverReplyForward
  rw [final_bind]
  cases hrun : finished handler callback s with
  | ok result t =>
    rw [hrun] at hcallbacks
    dsimp only
    split
    · exact hcallbacks
    · exact hcallbacks
  | error e t =>
    rw [hrun] at hcallbacks
    exact hcallbacks

/-! ### What is asked is in the packet -/

section

/-- A program that moves in silence asks nothing of any kind. -/
theorem asks_of_silent {α : Type} {x : M α} (hx : Moves Silent x) : Moves (Asks Q) x :=
  hx.mono fun _ _ h => .single (.silent h)

theorem finish_asks {callback : Callback} (handler : Handler) (h : Q callback) :
    Moves (Asks Q) (finish handler callback) :=
  fun s => .single ⟨_, finish_callbacks handler callback s, by simpa using h⟩

theorem serverReplyForward_asks {callback : Callback} (handler : Handler) (h : Q callback) :
    Moves (Asks Q) (serverReplyForward handler callback) :=
  fun s => .single ⟨_, serverReplyForward_callbacks handler callback s, by simpa using h⟩

variable (handler : Handler) {buf : Bytes}

theorem serverHandleChannelOpen_asks :
    Moves (Asks (InPacket buf)) (serverHandleChannelOpen handler buf) := by
  refine .lift_bind fun ⟨typ, r⟩ htyp => .lift_bind fun ⟨sender, r1⟩ hsender => ?_
  refine .lift_bind fun ⟨window, r2⟩ hwindow => .lift_bind fun ⟨maxpacket, r3⟩ hmax => ?_
  refine .bind (asks_of_silent (onCommon_silent _)) fun id => Moves.get.bind fun s => ?_
  dsimp only
  have hconfirm : ∀ channel, Moves (Asks (InPacket buf)) (confirmChannelOpen channel) :=
    fun channel => Moves.get.bind fun s => asks_of_silent (modifyEnc_silent _)
  split
  · rename_i hsession
    rw [hsession] at htyp
    exact (hconfirm _).bind fun _ => finish_asks handler (.openSession htyp hsender hwindow hmax)
  · split
    · rename_i hx11
      rw [hx11] at htyp
      refine (hconfirm _).bind fun _ => .lift_bind fun ⟨a, r4⟩ ha => ?_
      refine .lift_bind fun a' ha' => .lift_bind fun ⟨b, r5⟩ hb => ?_
      exact finish_asks handler (.openX11 htyp hsender hwindow hmax ha ha' hb)
    · split
      · rename_i hdirect
        rw [hdirect] at htyp
        refine (hconfirm _).bind fun _ => .lift_bind fun ⟨a, r4⟩ ha => ?_
        refine .lift_bind fun a' ha' => .lift_bind fun ⟨b, r5⟩ hb => ?_
        refine .lift_bind fun ⟨c, r6⟩ hc => .lift_bind fun c' hc' => ?_
        refine .lift_bind fun ⟨d, r7⟩ hd => ?_
        exact finish_asks handler
          (.openDirectTcpip htyp hsender hwindow hmax ha ha' hb hc hc' hd)
      · exact asks_of_silent (push_silent _)

theorem serverReadChannelClose_asks (hhead : buf.head? = some msg.CHANNEL_CLOSE) :
    Moves (Asks (InPacket buf)) (serverReadChannelClose handler buf) := by
  refine .lift_bind fun ⟨channelNum, r⟩ hread => ?_
  refine .bind (asks_of_silent (modifyEnc_silent _)) fun _ => ?_
  exact finish_asks handler (.channelClose hhead hread)

theorem serverReadChannelEof_asks (hhead : buf.head? = some msg.CHANNEL_EOF) :
    Moves (Asks (InPacket buf)) (serverReadChannelEof handler buf) := by
  refine .lift_bind fun ⟨channelNum, r⟩ hread => ?_
  exact finish_asks handler (.channelEof hhead hread)

theorem serverReadData_asks
    (hhead : buf.head? = some msg.CHANNEL_EXTENDED_DATA ∨ buf.head? = some msg.CHANNEL_DATA) :
    Moves (Asks (InPacket buf)) (serverReadData handler buf) := by
  refine .lift_bind fun ⟨channelNum, r⟩ hread => .lift_bind fun ⟨ext, r1⟩ hext => ?_
  refine .lift_bind fun ⟨d, r2⟩ hd => Moves.get.bind fun s => ?_
  have hrest : Moves (Asks (InPacket buf)) (do
      onCommon flush
      finish handler (dataCallback channelNum ext d)) :=
    (asks_of_silent (onCommon_silent _)).bind fun _ =>
      finish_asks handler (.data hhead hread hext hd)
  refine .bind (asks_of_silent (onCommon_silent _)) fun adjusted => ?_
  cases adjusted with
  | false => exact hrest
  | true =>
    have hask : Moves (Asks (InPacket buf)) (ask handler (.adjustWindow channelNum
        s.targetWindowSize)) := fun t => .single ⟨_, rfl, by
          intro p hp
          rw [List.mem_singleton.mp hp]
          exact .adjustWindow hread⟩
    refine hask.bind fun answer => ?_
    by_cases hwindow : answer.window > 0
    · simp only [if_pos hwindow]
      exact .bind (asks_of_silent (modify_silent fun _ => rfl)) fun _ => hrest
    · simp only [if_neg hwindow]
      exact hrest

theorem serverReadWindowAdjust_asks (hhead : buf.head? = some msg.CHANNEL_WINDOW_ADJUST) :
    Moves (Asks (InPacket buf)) (serverReadWindowAdjust handler buf) := by
  refine .lift_bind fun ⟨channelNum, r⟩ hread => .lift_bind fun ⟨amount, r1⟩ hamount => ?_
  refine .bind (asks_of_silent (onCommon_silent _)) fun _ => ?_
  exact finish_asks handler (.windowAdjusted hhead hread hamount)

theorem serverReadChannelRequest_asks (hhead : buf.head? = some msg.CHANNEL_REQUEST) :
    Moves (Asks (InPacket buf)) (serverReadChannelRequest handler buf) := by
  refine .lift_bind fun ⟨channelNum, r⟩ hread => .lift_bind fun ⟨reqType, r1⟩ hreq => ?_
  refine .lift_bind fun ⟨wantsReply, r2⟩ hwants => ?_
  refine .bind (asks_of_silent (modifyEnc_silent _)) fun _ => .lift_bind fun callback h => ?_
  cases callback with
  | some callback => exact finish_asks handler (.request hhead hread hreq hwants h)
  | none => exact asks_of_silent (push_silent _)

theorem serverReadGlobalRequest_asks :
    Moves (Asks (InPacket buf)) (serverReadGlobalRequest handler buf) := by
  refine .lift_bind fun ⟨reqType, r⟩ hreq => .lift_bind fun ⟨wantsReply, r1⟩ hwants => ?_
  refine .bind (asks_of_silent (modify_silent fun _ => rfl)) fun _ => ?_
  dsimp only
  split
  · rename_i hforward
    rw [hforward] at hreq
    refine .lift_bind fun ⟨a, r2⟩ ha => .lift_bind fun a' ha' => .lift_bind fun ⟨port, r3⟩ hp => ?_
    exact serverReplyForward_asks handler (.tcpipForward hreq hwants ha ha' hp)
  · split
    · rename_i hcancel
      rw [hcancel] at hreq
      refine .lift_bind fun ⟨a, r2⟩ ha => .lift_bind fun a' ha' => ?_
      refine .lift_bind fun ⟨port, r3⟩ hp => ?_
      exact serverReplyForward_asks handler (.cancelTcpipForward hreq hwants ha ha' hp)
    · exact asks_of_silent (push_silent _)

/-- What a packet asks the handler is in the packet. -/
theorem serverReadAuthenticated_asks :
    Moves (Asks (InPacket buf)) (serverReadAuthenticated handler buf) := by
  unfold serverReadAuthenticated
  split
  · exact serverHandleChannelOpen_asks handler
  split
  · exact serverReadChannelClose_asks handler ‹_›
  split
  · exact serverReadChannelEof_asks handler ‹_›
  split
  · exact serverReadData_asks handler ‹_›
  split
  · exact serverReadWindowAdjust_asks handler ‹_›
  split
  · exact serverReadChannelRequest_asks handler ‹_›
  split
  · exact serverReadGlobalRequest_asks handler
  · exact .pure _

end

/-- Every question that a packet adds to the record is in the packet. -/
theorem asked_inPacket (handler : Handler) (buf : Bytes) {s : Session}
    {asked : List (Callback × Answer)}
    (h : (final (serverReadAuthenticated handler buf s)).callbacks = s.callbacks ++ asked) :
    ∀ p ∈ asked, InPacket buf p.1 := by
  have hasks := (serverReadAuthenticated_asks handler).invariant (p := Asks (InPacket buf) s)
    (fun _ _ hstep h => h.trans hstep) (.silent rfl)
  obtain ⟨asked', hasked, hkind⟩ := hasks
  rw [h] at hasked
  rw [List.append_cancel_left hasked]
  exact hkind

/-! ### The size of what is asked -/

omit [Deps] in
/-- Every mode that the loop has read took five bytes of the mode string. -/
theorem ptyModes_read {modeString : Bytes} {fuel i i' : Nat} {modes modes' : List (Pty × UInt32)}
    (h : ptyModes modeString fuel i modes = .ok (modes', i')) (hi : 5 * i ≤ modeString.length) :
    5 * i' ≤ modeString.length := by
  induction fuel generalizing i modes with
  | zero =>
    cases h
    exact hi
  | succ fuel ih =>
    unfold ptyModes at h
    cases hdrop : modeString.drop (5 * i) with
    | nil =>
      rw [hdrop] at h
      cases h
      exact hi
    | cons code rest =>
      have hlength := congrArg List.length hdrop
      rw [List.length_drop, List.length_cons] at hlength
      rw [hdrop] at h
      dsimp only at h
      split at h
      · cases h
        exact hi
      · cases hhead : headBe32 rest with
        | none =>
          rw [hhead] at h
          cases h
        | some num =>
          have hfour := length_of_headBe32 hhead
          rw [hhead] at h
          dsimp only at h
          have hnext : 5 * (i + 1) ≤ modeString.length := by omega
          split at h
          · split at h
            · exact ih h hnext
            · cases h
          · exact ih h hnext

omit [Deps] in
theorem readPtyModes_read {modeString : Bytes} {modes : List (Pty × UInt32)}
    (h : readPtyModes modeString = .ok modes) : 5 * modes.length ≤ modeString.length := by
  obtain ⟨⟨all, i⟩, hloop, hrest⟩ := ok_of_bind h
  have hread := ptyModes_read hloop (Nat.zero_le _)
  dsimp only at hrest
  split at hrest
  · cases hrest
    rw [List.length_take]
    omega
  · cases hrest

omit [Deps] in
/-- The question for a channel request was in the request. -/
theorem channelRequestCallback_size {channelNum : UInt32} {reqType : Bytes} {r : Position}
    {callback : Callback} (h : channelRequestCallback channelNum reqType r = .ok (some callback)) :
    callback.size ≤ 10 + reqType.length + r.left := by
  unfold channelRequestCallback at h
  by_cases hpty : reqType = ascii "pty-req"
  · rw [if_pos hpty] at h
    have hlength : reqType.length = 7 := by rw [hpty]; rfl
    obtain ⟨⟨term, r1⟩, hterm, h⟩ := ok_of_bind h
    obtain ⟨term', hterm', h⟩ := ok_of_bind h
    obtain ⟨⟨colWidth, r2⟩, hcol, h⟩ := ok_of_bind h
    obtain ⟨⟨rowHeight, r3⟩, hrow, h⟩ := ok_of_bind h
    obtain ⟨⟨pixWidth, r4⟩, hpixWidth, h⟩ := ok_of_bind h
    obtain ⟨⟨pixHeight, r5⟩, hpixHeight, h⟩ := ok_of_bind h
    obtain ⟨⟨modeString, r6⟩, hmode, h⟩ := ok_of_bind h
    obtain ⟨modes, hmodes, h⟩ := ok_of_bind h
    cases h
    have htermLeft := readString_left hterm
    have hcolLeft := readU32_left hcol
    have hrowLeft := readU32_left hrow
    have hpixWidthLeft := readU32_left hpixWidth
    have hpixHeightLeft := readU32_left hpixHeight
    have hmodeLeft := readString_left hmode
    have hread := readPtyModes_read hmodes
    simp only [Callback.size, fromUtf8_ok hterm']
    omega
  rw [if_neg hpty] at h
  by_cases hx11 : reqType = ascii "x11-req"
  · rw [if_pos hx11] at h
    have hlength : reqType.length = 7 := by rw [hx11]; rfl
    obtain ⟨⟨single, r1⟩, hsingle, h⟩ := ok_of_bind h
    obtain ⟨⟨a, r2⟩, ha, h⟩ := ok_of_bind h
    obtain ⟨a', ha', h⟩ := ok_of_bind h
    obtain ⟨⟨b, r3⟩, hb, h⟩ := ok_of_bind h
    obtain ⟨b', hb', h⟩ := ok_of_bind h
    obtain ⟨⟨screen, r4⟩, hscreen, h⟩ := ok_of_bind h
    cases h
    have hsingleLeft := readByte_left hsingle
    have haLeft := readString_left ha
    have hbLeft := readString_left hb
    have hscreenLeft := readU32_left hscreen
    simp only [Callback.size, fromUtf8_ok ha', fromUtf8_ok hb']
    omega
  rw [if_neg hx11] at h
  by_cases henv : reqType = ascii "env"
  · rw [if_pos henv] at h
    have hlength : reqType.length = 3 := by rw [henv]; rfl
    obtain ⟨⟨a, r1⟩, ha, h⟩ := ok_of_bind h
    obtain ⟨a', ha', h⟩ := ok_of_bind h
    obtain ⟨⟨b, r2⟩, hb, h⟩ := ok_of_bind h
    obtain ⟨b', hb', h⟩ := ok_of_bind h
    cases h
    have haLeft := readString_left ha
    have hbLeft := readString_left hb
    simp only [Callback.size, fromUtf8_ok ha', fromUtf8_ok hb']
    omega
  rw [if_neg henv] at h
  by_cases hshell : reqType = ascii "shell"
  · rw [if_pos hshell] at h
    have hlength : reqType.length = 5 := by rw [hshell]; rfl
    cases h
    simp only [Callback.size]
    omega
  rw [if_neg hshell] at h
  by_cases hexec : reqType = ascii "exec"
  · rw [if_pos hexec] at h
    have hlength : reqType.length = 4 := by rw [hexec]; rfl
    obtain ⟨⟨req, r1⟩, hreq, h⟩ := ok_of_bind h
    cases h
    have hreqLeft := readString_left hreq
    simp only [Callback.size]
    omega
  rw [if_neg hexec] at h
  by_cases hsubsystem : reqType = ascii "subsystem"
  · rw [if_pos hsubsystem] at h
    have hlength : reqType.length = 9 := by rw [hsubsystem]; rfl
    obtain ⟨⟨a, r1⟩, ha, h⟩ := ok_of_bind h
    obtain ⟨a', ha', h⟩ := ok_of_bind h
    cases h
    have haLeft := readString_left ha
    simp only [Callback.size, fromUtf8_ok ha']
    omega
  rw [if_neg hsubsystem] at h
  by_cases hchange : reqType = ascii "window-change"
  · rw [if_pos hchange] at h
    have hlength : reqType.length = 13 := by rw [hchange]; rfl
    obtain ⟨⟨colWidth, r1⟩, hcol, h⟩ := ok_of_bind h
    obtain ⟨⟨rowHeight, r2⟩, hrow, h⟩ := ok_of_bind h
    obtain ⟨⟨pixWidth, r3⟩, hpixWidth, h⟩ := ok_of_bind h
    obtain ⟨⟨pixHeight, r4⟩, hpixHeight, h⟩ := ok_of_bind h
    cases h
    have hcolLeft := readU32_left hcol
    have hrowLeft := readU32_left hrow
    have hpixWidthLeft := readU32_left hpixWidth
    have hpixHeightLeft := readU32_left hpixHeight
    simp only [Callback.size]
    omega
  rw [if_neg hchange] at h
  by_cases hsignal : reqType = ascii "signal"
  · rw [if_pos hsignal] at h
    have hlength : reqType.length = 6 := by rw [hsignal]; rfl
    obtain ⟨⟨zero, r1⟩, hzero, h⟩ := ok_of_bind h
    obtain ⟨⟨name, r2⟩, hname, h⟩ := ok_of_bind h
    obtain ⟨sig, hsig, h⟩ := ok_of_bind h
    cases h
    have hzeroLeft := readByte_left hzero
    have hnameLeft := readString_left hname
    simp only [Callback.size, Sig.fromName_ok hsig]
    omega
  rw [if_neg hsignal] at h
  cases h

omit [Deps] in
/-- A question was in its packet. -/
theorem InPacket.size {buf : Bytes} {callback : Callback} (h : InPacket buf callback) :
    callback.size ≤ buf.length := by
  have hstart : (reader buf 1).left = buf.length - 1 := rfl
  cases h with
  | channelClose hhead hid =>
    have hleft := readU32_left hid
    simp only [Callback.size]
    omega
  | channelEof hhead hid =>
    have hleft := readU32_left hid
    simp only [Callback.size]
    omega
  | data hhead hid hext hd =>
    have hleft := readU32_left hid
    have hdLeft := readString_left hd
    unfold readExt at hext
    split at hext
    · cases hext
      simp only [dataCallback, Callback.size]
      omega
    · obtain ⟨⟨e, r'⟩, he, heq⟩ := ok_of_bind hext
      cases heq
      have heLeft := readU32_left he
      simp only [dataCallback, Callback.size]
      omega
  | adjustWindow hid => simp [Callback.size]
  | windowAdjusted hhead hid hamount =>
    have hleft := readU32_left hid
    have hamountLeft := readU32_left hamount
    simp only [Callback.size]
    omega
  | request hhead hid hreq hwants h =>
    have hleft := readU32_left hid
    have hreqLeft := readString_left hreq
    have hwantsLeft := readByte_left hwants
    have hsize := channelRequestCallback_size h
    omega
  | openSession htyp hsender hwindow hmax =>
    have hlength : (ascii "session").length = 7 := rfl
    have htypLeft := readString_left htyp
    have hsenderLeft := readU32_left hsender
    have hwindowLeft := readU32_left hwindow
    have hmaxLeft := readU32_left hmax
    simp only [Callback.size]
    omega
  | openX11 htyp hsender hwindow hmax ha ha' hb =>
    have hlength : (ascii "x11").length = 3 := rfl
    have htypLeft := readString_left htyp
    have hsenderLeft := readU32_left hsender
    have hwindowLeft := readU32_left hwindow
    have hmaxLeft := readU32_left hmax
    have haLeft := readString_left ha
    have hbLeft := readU32_left hb
    simp only [Callback.size, fromUtf8_ok ha']
    omega
  | openDirectTcpip htyp hsender hwindow hmax ha ha' hb hc hc' hd =>
    have hlength : (ascii "direct-tcpip").length = 12 := rfl
    have htypLeft := readString_left htyp
    have hsenderLeft := readU32_left hsender
    have hwindowLeft := readU32_left hwindow
    have hmaxLeft := readU32_left hmax
    have haLeft := readString_left ha
    have hbLeft := readU32_left hb
    have hcLeft := readString_left hc
    have hdLeft := readU32_left hd
    simp only [Callback.size, fromUtf8_ok ha', fromUtf8_ok hc']
    omega
  | tcpipForward hreq hwants ha ha' hport =>
    have hlength : (ascii "tcpip-forward").length = 13 := rfl
    have hreqLeft := readString_left hreq
    have hwantsLeft := readByte_left hwants
    have haLeft := readString_left ha
    have hportLeft := readU32_left hport
    simp only [Callback.size, fromUtf8_ok ha']
    omega
  | cancelTcpipForward hreq hwants ha ha' hport =>
    have hlength : (ascii "cancel-tcpip-forward").length = 20 := rfl
    have hreqLeft := readString_left hreq
    have hwantsLeft := readByte_left hwants
    have haLeft := readString_left ha
    have hportLeft := readU32_left hport
    simp only [Callback.size, fromUtf8_ok ha']
    omega

/-- Every question that a packet adds to the record is at most as large as the packet. -/
theorem asked_size (handler : Handler) (buf : Bytes) {s : Session}
    {asked : List (Callback × Answer)}
    (h : (final (serverReadAuthenticated handler buf s)).callbacks = s.callbacks ++ asked) :
    ∀ p ∈ asked, p.1.size ≤ buf.length :=
  fun p hp => (asked_inPacket handler buf h p hp).size

end Thrussh.Server
