import Thrussh.Exchanging
import Thrussh.Lib.Yields
import Thrussh.Reading
import Thrussh.Server.Known
import Thrussh.Server.Modes
import Thrussh.Server.Verdicts

/-!
# What the server bears

The packets that a server in an exchange leaves to its stage of the session
are served, or refused with an error, as long as a few things hold of the
packet and of the session it finds. There is an id for a channel that is
opened, a window has room for a grant, a mode string has at most 130 records
and none cut short, and the compressor takes what data are answered with.
The handler supports the authentication that it is asked for, and the calls
that it makes on the session in its turn return.
-/

namespace Thrussh.Server

open Deps Lib

/-- A mode string of at most 130 records, none of which is cut short. -/
def ModesFit (modeString : Bytes) : Prop :=
  ∃ records tail, modeString = recordList records ++ tail ∧ (∀ r ∈ records, r.1 ≠ 0) ∧
    Closed tail ∧ records.length ≤ 130

/-- The modes of a pty-req fit, as far as it can be read. -/
def TerminalFits (buf : Bytes) : Prop :=
  ∀ id term colWidth rowHeight pixWidth pixHeight modeString,
    PtyPacket buf id term colWidth rowHeight pixWidth pixHeight modeString → ModesFit modeString

section
variable [Deps]

/-- Handlers that grant the same windows. -/
def Handler.Agrees (handler other : Handler) : Prop :=
  ∀ n channel window s, other n (.adjustWindow channel window) s =
    handler n (.adjustWindow channel window) s

/-- The calls of the handler's answer to a question return, or return an error. -/
def Handler.Returns (handler : Handler) (callback : Callback) (u : Session) : Prop :=
  Fails Fault.Returned ((handler u.common.tick callback u).calls.forM runCall)
    (u.asked callback (handler u.common.tick callback u))

/-- As far as data can be read, the compressor takes the grant that they are answered with. -/
def AnswerCarried (enc : Encrypted) (buf : Bytes) : Prop :=
  ∀ id r ch amount, (reader buf 1).readU32 = .ok (id, r) → enc.channels id = some ch →
    enc.Carries (msg.CHANNEL_WINDOW_ADJUST :: be32 ch.recipientChannel ++ be32 amount)

/-- What an authenticated server needs to serve a packet. -/
structure Admits (handler : Handler) (s : Session) (enc : Encrypted) (buf : Bytes) : Prop where
  /-- A channel that is opened finds an id. -/
  free : buf.head? = some msg.CHANNEL_OPEN → ∃ id, enc.channels id = none
  /-- A window has room for its grant. -/
  room : buf.head? = some msg.CHANNEL_WINDOW_ADJUST → enc.HasRoom buf
  /-- The modes of a terminal fit. -/
  modes : TerminalFits buf
  /-- The answer to data can be compressed. -/
  carried : buf.head? = some msg.CHANNEL_DATA ∨ buf.head? = some msg.CHANNEL_EXTENDED_DATA →
    AnswerCarried enc buf
  /-- What the handler does in its turn returns. -/
  turn : ∀ callback u, EndsAsking handler.Agrees Server.turn
    (fun other => serverReadAuthenticated other buf) s callback u → handler.Returns callback u

/-- The session as a packet of an authenticated client finds it: compression has started. -/
def Session.compressing (s : Session) : Session :=
  { s with common := s.common.modifyEnc fun enc =>
    match enc.state with
    | .initCompression => { enc with
        compress := enc.serverCompression.initCompress enc.compress, state := .authenticated }
    | _ => enc }

/-- What the server needs to serve a packet in its stage of the session. -/
structure Bears (handler : Handler) (s : Session) (buf : Bytes) : Prop where
  /-- The handler supports the authentication. -/
  supports : Supports handler s buf
  /-- An authenticated session admits the packet. -/
  admits : ∀ enc, s.compressing.common.encrypted = some enc → enc.state = .authenticated →
    Admits handler s.compressing enc buf

variable {handler : Handler} {s : Session} {enc : Encrypted} {buf : Bytes}

/-! ### The handler's turn -/

theorem finished_robust {callback : Callback} (h : handler.Returns callback s) :
    Fails Fault.Returned (finished handler callback) s := by
  refine Fails.bind (fun _ _ h => by cases h) fun answer t ht => ?_
  cases ht
  refine Fails.bind h fun _ _ _ => ?_
  split
  · exact .throw (Fault.returned_error _)
  · exact .pure _

/-- The turn of a handler whose calls return. -/
theorem turn_robust {callback : Callback} (h : handler.Returns callback s) :
    Fails Fault.Returned (turn handler callback) s := by
  have hfinish : Fails Fault.Returned (finish handler callback) s :=
    (finished_robust h).bind fun _ _ _ => .pure _
  have hforward : Fails Fault.Returned (serverReplyForward handler callback) s := by
    refine (finished_robust h).bind fun result _ _ => ?_
    cases result with
    | true => exact .modify _
    | false => exact .modify _
  cases callback with
  | tcpipForward address port => exact hforward
  | cancelTcpipForward address port => exact hforward
  | _ => exact hfinish

/-- A part of `enc` that fails only as it may. -/
theorem withEnc_robust {α : Type} {f : Encrypted → Except Fault (α × Encrypted)}
    (henc : s.common.encrypted = some enc) (hf : Errors Fault.Returned (f enc)) :
    Fails Fault.Returned (onCommon (withEnc f)) s := by
  refine .zoom ?_
  unfold withEnc
  refine .get_bind ?_
  rw [henc]
  refine .lift_bind hf fun ⟨a, enc'⟩ _ => ?_
  exact Fails.bind (fun _ _ h => by cases h) fun _ _ _ => .pure a

/-- Programs of the server that hand the turn to its handler, or return. -/
abbrev HandsTurn (handler : Handler) (x : Handler → M Unit) (s : Session) : Prop :=
  Yields Fault.Returned handler.Agrees turn x s

/-! ### The branches -/

theorem confirmChannelOpen_robust (channel : Channel) (s : Session) :
    Fails Fault.Returned (confirmChannelOpen channel) s := .get_bind (.modify _)

theorem serverHandleChannelOpen_handsOver (henc : s.common.encrypted = some enc)
    (hfree : ∃ id, enc.channels id = none) (buf : Bytes) :
    HandsTurn handler (fun other => serverHandleChannelOpen other buf) s := by
  obtain ⟨id, hid⟩ := hfree
  obtain ⟨found, hfound⟩ := newChannelId_finds enc hid
  refine .lift_bind (readString_errors _) fun ⟨typ, r⟩ _ => ?_
  refine .lift_bind (readU32_errors _) fun ⟨sender, r⟩ _ => ?_
  refine .lift_bind (readU32_errors _) fun ⟨window, r⟩ _ => ?_
  refine .lift_bind (readU32_errors _) fun ⟨maxpacket, r⟩ _ => ?_
  refine .bind (withEnc_robust henc ?_) fun senderChannel t _ => ?_
  · rw [hfound]
    exact .ok _
  refine .get_bind ?_
  dsimp only
  split
  · exact .bind (confirmChannelOpen_robust _ _) fun _ _ _ => .of_turn (Callback.channelOpenSession _)
  · split
    · refine .bind (confirmChannelOpen_robust _ _) fun _ _ _ => ?_
      refine .lift_bind (readString_errors _) fun ⟨a, r⟩ _ => ?_
      refine .lift_bind (fromUtf8_errors _) fun a _ => ?_
      refine .lift_bind (readU32_errors _) fun ⟨b, _⟩ _ => ?_
      exact .of_turn (Callback.channelOpenX11 _ a b)
    · split
      · refine .bind (confirmChannelOpen_robust _ _) fun _ _ _ => ?_
        refine .lift_bind (readString_errors _) fun ⟨a, r⟩ _ => ?_
        refine .lift_bind (fromUtf8_errors _) fun a _ => ?_
        refine .lift_bind (readU32_errors _) fun ⟨b, r⟩ _ => ?_
        refine .lift_bind (readString_errors _) fun ⟨c, r⟩ _ => ?_
        refine .lift_bind (fromUtf8_errors _) fun c _ => ?_
        refine .lift_bind (readU32_errors _) fun ⟨d, _⟩ _ => ?_
        exact .of_turn (Callback.channelOpenDirectTcpip _ a b c d)
      · exact .of_fails (.modify _)

theorem serverReadChannelClose_handsOver (buf : Bytes) :
    HandsTurn handler (fun other => serverReadChannelClose other buf) s := by
  refine .lift_bind (readU32_errors _) fun ⟨channelNum, _⟩ _ => ?_
  refine .modify_bind ?_
  exact .of_turn (Callback.channelClose channelNum)

theorem serverReadChannelEof_handsOver (buf : Bytes) :
    HandsTurn handler (fun other => serverReadChannelEof other buf) s := by
  refine .lift_bind (readU32_errors _) fun ⟨channelNum, _⟩ _ => ?_
  exact .of_turn (Callback.channelEof channelNum)

/-- A grant that its window has room for is told to the handler. -/
theorem serverReadWindowAdjust_handsOver (henc : s.common.encrypted = some enc)
    (h : enc.HasRoom buf) :
    HandsTurn handler (fun other => serverReadWindowAdjust other buf) s := by
  refine .lift_bind (readU32_errors _) fun ⟨id, r⟩ hid => ?_
  refine .lift_bind (readU32_errors _) fun ⟨amount, r'⟩ hamount => ?_
  refine .bind (withEnc_robust henc (adjustRecipientWindow_errors h hid hamount)) fun newValue _ _ => ?_
  exact .of_turn (Callback.windowAdjusted id newValue)

theorem serverReadGlobalRequest_handsOver (buf : Bytes) :
    HandsTurn handler (fun other => serverReadGlobalRequest other buf) s := by
  refine .lift_bind (readString_errors _) fun ⟨reqType, r⟩ _ => ?_
  refine .lift_bind (readByte_errors _) fun ⟨wantsReply, r⟩ _ => ?_
  refine .modify_bind ?_
  dsimp only
  split
  · refine .lift_bind (readString_errors _) fun ⟨address, r⟩ _ => ?_
    refine .lift_bind (fromUtf8_errors _) fun address _ => ?_
    refine .lift_bind (readU32_errors _) fun ⟨port, _⟩ _ => ?_
    exact .of_turn (Callback.tcpipForward address port)
  · split
    · refine .lift_bind (readString_errors _) fun ⟨address, r⟩ _ => ?_
      refine .lift_bind (fromUtf8_errors _) fun address _ => ?_
      refine .lift_bind (readU32_errors _) fun ⟨port, _⟩ _ => ?_
      exact .of_turn (Callback.cancelTcpipForward address port)
    · exact .of_fails (.modify _)

/-! ### Data -/

omit [Deps] in
theorem readExt_errors (buf : Bytes) (r : Position) : Errors Fault.Returned (readExt buf r) := by
  unfold readExt
  split
  · exact .ok _
  · exact (readU32_errors _).bind fun _ _ => .ok _

/-- What data leave in the queue is flushed: nothing, or the grant that answers them. -/
theorem flush_answer_robust {id : UInt32} {r : Position} {data : Bytes} {target : UInt32}
    (henc : s.common.encrypted = some (enc.adjustWindowSize id data target).1)
    (hwrite : enc.write = []) (hcursor : enc.writeCursor = 0)
    (hid : (reader buf 1).readU32 = .ok (id, r)) (h : AnswerCarried enc buf) :
    Fails Fault.Returned (onCommon flush) s := by
  have hflush : ∃ t, flush s.common = .ok () t := by
    cases hch : enc.channels id with
    | none =>
      have hsame : (enc.adjustWindowSize id data target).1 = enc := by
        unfold Encrypted.adjustWindowSize
        rw [hch]
      rw [hsame] at henc
      refine flush_drained fun enc' henc' => ?_
      rw [henc] at henc'
      cases henc'
      exact hwrite
    | some ch =>
      set ch' := if UInt32.ofNat data.length ≤ ch.senderWindowSize then
          { ch with senderWindowSize := ch.senderWindowSize - UInt32.ofNat data.length }
        else ch with hch'
      have hrecipient : ch'.recipientChannel = ch.recipientChannel := by
        rw [hch']
        split <;> rfl
      by_cases hgrant : ch'.senderWindowSize < target / 2
      · set packet := msg.CHANNEL_WINDOW_ADJUST :: be32 ch.recipientChannel ++
          be32 (target - ch'.senderWindowSize) with hpacket
        have hadjust : (enc.adjustWindowSize id data target).1 =
            (enc.push packet).setChannel id { ch' with senderWindowSize := target } := by
          unfold Encrypted.adjustWindowSize
          rw [hch]
          dsimp only
          rw [← hch', if_pos hgrant, hpacket, hrecipient]
        rw [hadjust] at henc
        have hqueue : (enc.push packet).write = frame packet := by
          unfold Encrypted.push pushPacket
          rw [hwrite]
          rfl
        have hshort : packet.length < 2 ^ 32 := by simp [hpacket, length_be32]
        have hcarries : enc.Carries packet := h id r ch _ hid hch
        exact flush_returns henc (encFlush_carries _ _ hqueue hcursor hshort hcarries)
      · have hadjust : (enc.adjustWindowSize id data target).1 = enc.setChannel id ch' := by
          unfold Encrypted.adjustWindowSize
          rw [hch]
          dsimp only
          rw [← hch', if_neg hgrant]
        rw [hadjust] at henc
        refine flush_drained fun enc' henc' => ?_
        rw [henc] at henc'
        cases henc'
        exact hwrite
  obtain ⟨t, ht⟩ := hflush
  refine .zoom fun e v hrun => ?_
  rw [ht] at hrun
  cases hrun

/-- A question that the handlers agree on is answered as by the one of them. -/
theorem ask_bind_handsOver {channel window : UInt32} {f : Answer → Handler → M Unit}
    (h : HandsTurn handler (f (handler s.common.tick (.adjustWindow channel window) s))
      (s.asked (.adjustWindow channel window)
        (handler s.common.tick (.adjustWindow channel window) s))) :
    HandsTurn handler
      (fun other => ask other (.adjustWindow channel window) >>= fun answer => f answer other) s := by
  refine .congr (fun other hother => ?_) h
  rw [run_bind]
  unfold ask
  dsimp only
  rw [hother]
  rfl

theorem serverReadData_handsOver (henc : s.common.encrypted = some enc) (hwrite : enc.write = [])
    (hcursor : enc.writeCursor = 0) (h : AnswerCarried enc buf) :
    HandsTurn handler (fun other => serverReadData other buf) s := by
  refine .lift_bind (readU32_errors _) fun ⟨id, r⟩ hid => ?_
  refine .lift_bind (readExt_errors _ _) fun ⟨ext, r⟩ _ => ?_
  refine .lift_bind (readString_errors _) fun ⟨data, r⟩ _ => ?_
  refine .get_bind ?_
  have hrest : ∀ u : Session,
      u.common.encrypted = some (enc.adjustWindowSize id data s.targetWindowSize).1 →
      HandsTurn handler (fun other => do
        onCommon flush
        finish other (dataCallback id ext data)) u := by
    intro u hu
    refine .bind (flush_answer_robust hu hwrite hcursor hid h) fun _ _ _ => ?_
    cases ext with
    | none => exact .of_turn (Callback.data id data)
    | some ext => exact .of_turn (Callback.extendedData id ext data)
  refine .bind (withEnc_robust henc (.ok _)) fun grants t ht => ?_
  rw [run_onCommon henc rfl] at ht
  cases ht
  cases (enc.adjustWindowSize id data s.targetWindowSize).2 with
  | true =>
    simp only [if_true]
    refine ask_bind_handsOver ?_
    split
    · exact .modify_bind (hrest _ rfl)
    · exact hrest _ rfl
  | false =>
    simp only [Bool.false_eq_true, if_false]
    exact hrest _ rfl

/-! ### Requests on channels -/

omit [Deps] in
/-- Modes that fit are read. -/
theorem readPtyModes_errors {modeString : Bytes} (h : ModesFit modeString) :
    Errors Fault.Returned (readPtyModes modeString) := by
  obtain ⟨records, tail, rfl, hne, hclosed, hlength⟩ := h
  rcases readPtyModes_records hne (.inl hclosed) with ⟨-, -, hread⟩ | ⟨hnot, -⟩
  · rw [hread]
    exact .ok _
  · exact absurd ⟨hclosed, hlength⟩ hnot

omit [Deps] in
/-- No request type is read so that it goes wrong, if the modes of a terminal fit. -/
theorem channelRequestCallback_errors (channelNum : UInt32) {reqType : Bytes} {r : Position}
    (h : reqType = ascii "pty-req" → ∀ term r₄ colWidth r₅ rowHeight r₆ pixWidth r₇ pixHeight r₈
      modeString r₉, r.readString = .ok (term, r₄) → fromUtf8 term = .ok term →
      r₄.readU32 = .ok (colWidth, r₅) → r₅.readU32 = .ok (rowHeight, r₆) →
      r₆.readU32 = .ok (pixWidth, r₇) → r₇.readU32 = .ok (pixHeight, r₈) →
      r₈.readString = .ok (modeString, r₉) → ModesFit modeString) :
    Errors Fault.Returned (channelRequestCallback channelNum reqType r) := by
  unfold channelRequestCallback
  split
  · next hreq =>
    refine (readString_errors _).bind fun ⟨term, r₄⟩ hterm => ?_
    refine (fromUtf8_errors _).bind fun term' hutf8 => ?_
    obtain rfl := Position.fromUtf8_ok hutf8
    refine (readU32_errors _).bind fun ⟨colWidth, r₅⟩ hcol => ?_
    refine (readU32_errors _).bind fun ⟨rowHeight, r₆⟩ hrow => ?_
    refine (readU32_errors _).bind fun ⟨pixWidth, r₇⟩ hwidth => ?_
    refine (readU32_errors _).bind fun ⟨pixHeight, r₈⟩ hheight => ?_
    refine (readString_errors _).bind fun ⟨modeString, r₉⟩ hmodes => ?_
    have hfits := h hreq _ _ _ _ _ _ _ _ _ _ _ _ hterm hutf8 hcol hrow hwidth hheight hmodes
    exact (readPtyModes_errors hfits).bind fun _ _ => .ok _
  split
  · refine (readByte_errors _).bind fun ⟨single, r⟩ _ => ?_
    refine (readString_errors _).bind fun ⟨protocol, r⟩ _ => ?_
    refine (fromUtf8_errors _).bind fun protocol _ => ?_
    refine (readString_errors _).bind fun ⟨cookie, r⟩ _ => ?_
    refine (fromUtf8_errors _).bind fun cookie _ => ?_
    exact (readU32_errors _).bind fun _ _ => .ok _
  split
  · refine (readString_errors _).bind fun ⟨name, r⟩ _ => ?_
    refine (fromUtf8_errors _).bind fun name _ => ?_
    refine (readString_errors _).bind fun ⟨value, r⟩ _ => ?_
    exact (fromUtf8_errors _).bind fun _ _ => .ok _
  split
  · exact .ok _
  split
  · exact (readString_errors _).bind fun _ _ => .ok _
  split
  · refine (readString_errors _).bind fun ⟨name, r⟩ _ => ?_
    exact (fromUtf8_errors _).bind fun _ _ => .ok _
  split
  · refine (readU32_errors _).bind fun ⟨colWidth, r⟩ _ => ?_
    refine (readU32_errors _).bind fun ⟨rowHeight, r⟩ _ => ?_
    refine (readU32_errors _).bind fun ⟨pixWidth, r⟩ _ => ?_
    exact (readU32_errors _).bind fun _ _ => .ok _
  split
  · refine (readByte_errors _).bind fun ⟨zero, r⟩ _ => ?_
    refine (readString_errors _).bind fun ⟨name, r⟩ _ => ?_
    exact (Sig.fromName_errors name).bind fun _ _ => .ok _
  · exact .ok _

/-- What a request asks the handler is no forwarding. -/
theorem channelRequestCallback_turn {channelNum : UInt32} {reqType : Bytes} {r : Position}
    {callback : Callback} (h : channelRequestCallback channelNum reqType r = .ok (some callback))
    (handler : Handler) : finish handler callback = turn handler callback := by
  have hchannel := (channelRequestCallback_channel h).1
  cases callback with
  | tcpipForward address port => cases hchannel
  | cancelTcpipForward address port => cases hchannel
  | _ => rfl

theorem serverReadChannelRequest_handsOver (hhead : buf.head? = some msg.CHANNEL_REQUEST)
    (h : TerminalFits buf) :
    HandsTurn handler (fun other => serverReadChannelRequest other buf) s := by
  refine .lift_bind (readU32_errors _) fun ⟨id, r₁⟩ hid => ?_
  refine .lift_bind (readString_errors _) fun ⟨reqType, r₂⟩ hreq => ?_
  refine .lift_bind (readByte_errors _) fun ⟨want, r₃⟩ hwant => ?_
  refine .modify_bind ?_
  refine .lift_bind (channelRequestCallback_errors id fun hpty => ?_) fun callback hcallback => ?_
  · rintro term r₄ colWidth r₅ rowHeight r₆ pixWidth r₇ pixHeight r₈ modeString r₉ hterm hutf8 hcol
      hrow hwidth hheight hmodes
    subst hpty
    exact h id term colWidth rowHeight pixWidth pixHeight modeString ⟨hhead, r₁, r₂, r₃, want, hid,
      hreq, hwant, r₄, r₅, r₆, r₇, r₈, r₉, hterm, hutf8, hcol, hrow, hwidth, hheight, hmodes⟩
  · cases callback with
    | none => exact .of_fails (.modify _)
    | some callback =>
      exact .asks fun other _ =>
        congrFun (channelRequestCallback_turn hcallback other) _

/-! ### The stages -/

/-- An authenticated server hands the turn to its handler, or returns. -/
theorem serverReadAuthenticated_handsOver (henc : s.common.encrypted = some enc)
    (hwrite : enc.write = []) (hcursor : enc.writeCursor = 0)
    (hfree : buf.head? = some msg.CHANNEL_OPEN → ∃ id, enc.channels id = none)
    (hroom : buf.head? = some msg.CHANNEL_WINDOW_ADJUST → enc.HasRoom buf)
    (hmodes : TerminalFits buf)
    (hcarried : buf.head? = some msg.CHANNEL_DATA ∨ buf.head? = some msg.CHANNEL_EXTENDED_DATA →
      AnswerCarried enc buf) :
    HandsTurn handler (fun other => serverReadAuthenticated other buf) s := by
  unfold serverReadAuthenticated
  refine .ite (fun h => serverHandleChannelOpen_handsOver henc (hfree h) buf) fun _ => ?_
  refine .ite (fun _ => serverReadChannelClose_handsOver buf) fun _ => ?_
  refine .ite (fun _ => serverReadChannelEof_handsOver buf) fun _ => ?_
  refine .ite (fun h => serverReadData_handsOver henc hwrite hcursor (hcarried h.symm)) fun _ => ?_
  refine .ite (fun h => serverReadWindowAdjust_handsOver henc (hroom h)) fun _ => ?_
  refine .ite (fun h => serverReadChannelRequest_handsOver h hmodes) fun _ => ?_
  refine .ite (fun _ => serverReadGlobalRequest_handsOver buf) fun _ => ?_
  exact .of_fails (.pure _)

/-- What an authenticated server admits is served, or refused with an error. -/
theorem Admits.robust (h : Admits handler s enc buf) (henc : s.common.encrypted = some enc)
    (hwrite : enc.write = []) (hcursor : enc.writeCursor = 0) :
    Fails Fault.Returned (serverReadAuthenticated handler buf) s := by
  have hhands : HandsTurn handler (fun other => serverReadAuthenticated other buf) s :=
    serverReadAuthenticated_handsOver henc hwrite hcursor h.free h.room h.modes h.carried
  exact hhands.fails (fun _ _ _ _ => rfl) fun callback u hasks => turn_robust (h.turn callback u hasks)

omit [Deps] in
theorem readSignature_errors (r : Position) : Errors Fault.Returned (readSignature r) := by
  unfold readSignature
  refine (readString_errors _).bind fun ⟨signature, r⟩ _ => ?_
  refine (readString_errors _).bind fun ⟨name, r⟩ _ => ?_
  exact (readString_errors _).bind fun _ _ => .ok _

omit [Deps] in
theorem readRequestHead_errors (buf : Bytes) : Errors Fault.Returned (readRequestHead buf) := by
  unfold readRequestHead
  refine (readString_errors _).bind fun ⟨user, r⟩ _ => ?_
  refine (fromUtf8_errors _).bind fun user _ => ?_
  refine (readString_errors _).bind fun ⟨serviceName, r⟩ _ => ?_
  refine (readString_errors _).bind fun ⟨method, r⟩ _ => ?_
  dsimp only
  split
  · exact .ok _
  · exact .error (Fault.returned_error _)

theorem readPublickeyInquiry_errors (buf user : Bytes) (r : Position) :
    Errors Fault.Returned (readPublickeyInquiry buf user r) := by
  have hread : Errors Fault.Returned (readPublickey r) := by
    unfold readPublickey
    refine (readByte_errors _).bind fun ⟨isReal, r⟩ _ => ?_
    refine (readString_errors _).bind fun ⟨algo, r⟩ _ => ?_
    exact (readString_errors _).bind fun _ _ => .ok _
  unfold readPublickeyInquiry
  refine hread.bind fun ⟨isReal, algo, key, r⟩ _ => ?_
  dsimp only
  split
  · split
    · exact (readSignature_errors _).bind fun _ _ => .ok _
    · exact .ok _
  · exact .ok _
  · exact .error (Fault.returned_error _)

/-- A packet of the authentication is read, or refused with an error. -/
theorem readInquiry_errors (current : Option CurrentRequest) (buf : Bytes) :
    Errors Fault.Returned (readInquiry current buf) := by
  unfold readInquiry
  split
  · unfold readRequest
    refine (readRequestHead_errors buf).bind fun ⟨user, method, r⟩ _ => ?_
    dsimp only
    split
    · unfold readPassword
      refine (readByte_errors _).bind fun ⟨change, r⟩ _ => ?_
      refine (readString_errors _).bind fun ⟨password, r⟩ _ => ?_
      exact (fromUtf8_errors _).bind fun _ _ => .ok _
    split
    · exact readPublickeyInquiry_errors buf user r
    split
    · unfold readInteractive
      refine (readString_errors _).bind fun ⟨language, r⟩ _ => ?_
      refine (readString_errors _).bind fun ⟨submethods, r⟩ _ => ?_
      exact (fromUtf8_errors _).bind fun _ _ => .ok _
    · exact .ok _
  · unfold readResponse
    split
    · exact (readU32_errors _).bind fun _ _ => .ok _
    · exact .ok _

/-- A packet in the dialogue that the handler supports is answered, or refused
with an error. -/
theorem dialogue_robust {auth : AuthRequest} (henc : s.common.encrypted = some enc)
    (hstate : enc.state = .waitingAuthRequest auth) (hout : ¬ s.common.InExchange buf)
    (h : Supports handler s buf) : Fails Fault.Returned (serverReadState handler buf) s := by
  by_cases hinquires : Inquires buf
  · obtain ⟨v, hv, hvstate, -⟩ := view_some henc
    obtain ⟨-, -, hvuser, -⟩ := view_shows hv
    have htreated := serverReadState_treated handler hv (hvstate.trans hstate) hinquires
    rw [← hvuser] at htreated
    have hdialogue : s.dialogue = some ⟨s.common.authUser, auth⟩ := by
      unfold Session.dialogue Session.state
      rw [henc, Option.map_some, hstate]
    intro e t hrun
    generalize hread : readInquiry auth.current buf = inquiry at htreated
    rw [hrun] at htreated
    cases htreated with
    | unread ht => exact readInquiry_errors _ _ e hread
    | failed hq hfail ht => exact Fault.returned_error _
    | @stuck inquiry q _ hq hfail ho ht =>
      obtain ⟨hinteractive, hunsupported⟩ := outcome_eq_none_iff.mp ho
      rcases h _ inquiry q ⟨hdialogue, hout, hinquires, hread⟩ hinteractive hq with hfails | hsupported
      · rw [hfail] at hfails
        cases hfails
      · exact absurd hunsupported hsupported
  · obtain ⟨hrequest, hresponse⟩ := not_or.mp hinquires
    have hrun : serverReadState handler buf s = .ok () s := by
      unfold serverReadState getEnc
      simp only [run_bind, run_get, henc, run_pure, hstate, if_neg hrequest, if_neg hresponse]
    intro e t hfail
    rw [hrun] at hfail
    cases hfail

/-- A session whose service is requested serves every packet. -/
theorem service_robust {sent accepted : Bool} (henc : s.common.encrypted = some enc)
    (hstate : enc.state = .waitingServiceRequest sent accepted) :
    Fails Fault.Returned (serverReadState handler buf) s := by
  have hget : getEnc s = .ok enc s := by simp only [getEnc, run_bind, run_get, henc, run_pure]
  unfold serverReadState
  refine Fails.bind (fun _ _ hfail => ?_) fun enc' t ht => ?_
  · rw [hget] at hfail
    cases hfail
  rw [hget] at ht
  cases ht
  rw [hstate]
  dsimp only
  by_cases hhead : buf.head? = some msg.SERVICE_REQUEST
  · rw [if_pos hhead]
    refine .lift_bind (readString_errors _) fun res _ => ?_
    obtain ⟨request, r⟩ := res
    dsimp only
    by_cases hauth : request = sshUserauth
    · rw [if_pos hauth]
      refine .get_bind ?_
      refine Fails.bind (fun e t h => ?_) fun _ _ _ => .modify _
      unfold serverAcceptService at h
      cases hbanner : s.common.config.authBanner with
      | none =>
        rw [hbanner] at h
        cases h
      | some banner =>
        rw [hbanner] at h
        cases h
    · rw [if_neg hauth]
      exact .pure _
  · rw [if_neg hhead]
    exact .pure _

/-- What the server bears in its stage of the session is served, or refused
with an error. -/
theorem Bears.robust (h : Bears handler s buf) (henc : s.common.encrypted = some enc)
    (hwrite : enc.write = []) (hcursor : enc.writeCursor = 0)
    (hout : ¬ s.common.InExchange buf) : Fails Fault.Returned (serverReadState handler buf) s := by
  cases hstate : enc.state with
  | waitingServiceRequest sent accepted => exact service_robust henc hstate
  | waitingAuthRequest auth => exact dialogue_robust henc hstate hout h.supports
  | initCompression =>
    set enc' : Encrypted := { enc with
      compress := enc.serverCompression.initCompress enc.compress, state := .authenticated }
      with henc'
    have hopened : s.compressing.common.encrypted = some enc' := by
      simp only [Session.compressing, CommonSession.modifyEnc, henc, Option.map_some, hstate, henc']
    have hrun : serverReadState handler buf s =
        serverReadAuthenticated handler buf s.compressing := by
      unfold serverReadState getEnc
      simp only [run_bind, run_get, henc, run_pure, hstate, modifyEnc, run_modify]
      congr 1
      simp only [Session.compressing, CommonSession.modifyEnc, henc, Option.map_some, hstate]
    intro e t hfail
    rw [hrun] at hfail
    exact (h.admits enc' hopened rfl).robust hopened hwrite hcursor e t hfail
  | authenticated =>
    have hsame : s.compressing = s := by
      have hencrypted : s.compressing.common.encrypted = s.common.encrypted := by
        simp only [Session.compressing, CommonSession.modifyEnc, henc, Option.map_some, hstate]
      unfold Session.compressing CommonSession.modifyEnc at hencrypted ⊢
      dsimp only at hencrypted
      rw [hencrypted]
    have hrun : serverReadState handler buf s = serverReadAuthenticated handler buf s := by
      unfold serverReadState getEnc
      simp only [run_bind, run_get, henc, run_pure, hstate]
    have hadmits := h.admits enc (by rw [hsame]; exact henc) hstate
    rw [hsame] at hadmits
    intro e t hfail
    rw [hrun] at hfail
    exact hadmits.robust henc hwrite hcursor e t hfail

end

end Thrussh.Server
