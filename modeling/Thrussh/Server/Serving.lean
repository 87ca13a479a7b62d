import Thrussh.Channels
import Thrussh.Client.Session
import Thrussh.Server.Questions

/-!
# Packets that an authenticated server serves

A packet is served with a question: nothing fails on the way, the handler
gets its turn with that question, and with no other. The requests on a
channel, the requests for a forwarding and the openings, written with
arguments that the formats can carry, are served with these arguments.
-/

namespace Thrussh.Server

open Lib Position

variable [Deps]

/-- The handler's turn with a question. -/
def turn (handler : Handler) (callback : Callback) : M Unit :=
  match callback with
  | .tcpipForward .. => serverReplyForward handler callback
  | .cancelTcpipForward .. => serverReplyForward handler callback
  | _ => finish handler callback

theorem turn_callbacks (handler : Handler) (callback : Callback) (s : Session) :
    (final (turn handler callback s)).callbacks =
      s.callbacks ++ [(callback, handler s.common.tick callback s)] := by
  cases callback with
  | tcpipForward address port => exact serverReplyForward_callbacks handler _ s
  | cancelTcpipForward address port => exact serverReplyForward_callbacks handler _ s
  | _ => exact finish_callbacks handler _ s

/-- The turn of a handler that only returns ends well. -/
theorem turn_returns {handler : Handler} {callback : Callback} {s : Session}
    (hcalls : (handler s.common.tick callback s).calls = [])
    (hfail : (handler s.common.tick callback s).fail = false) :
    ∃ t, turn handler callback s = .ok () t := by
  have hfinished : ∃ result t, finished handler callback s = .ok result t := by
    unfold finished
    rw [run_bind]
    unfold ask
    dsimp only
    rw [hcalls, hfail]
    exact ⟨_, _, rfl⟩
  obtain ⟨result, t, hrun⟩ := hfinished
  have hforward : ∃ t, serverReplyForward handler callback s = .ok () t := by
    unfold serverReplyForward
    rw [run_bind, hrun]
    dsimp only
    cases result with
    | true => exact ⟨_, rfl⟩
    | false => exact ⟨_, rfl⟩
  have hfinish : ∃ t, finish handler callback s = .ok () t := by
    unfold finish
    rw [run_bind, hrun]
    exact ⟨_, rfl⟩
  cases callback with
  | tcpipForward address port => exact hforward
  | cancelTcpipForward address port => exact hforward
  | _ => exact hfinish

/-- An authenticated server serves a packet by giving the handler its turn
with one question, from the session `u`. -/
structure Serves (handler : Handler) (t : Session) (packet : Bytes) (callback : Callback)
    (u : Session) : Prop where
  /-- Nothing fails before or after the turn. -/
  turn : serverReadAuthenticated handler packet t = turn handler callback u
  /-- The question is asked, and no other. -/
  asked : (final (serverReadAuthenticated handler packet t)).callbacks =
    t.callbacks ++ [(callback, handler u.common.tick callback u)]
  /-- A handler that only returns gets no error. -/
  returns : (handler u.common.tick callback u).calls = [] →
    (handler u.common.tick callback u).fail = false →
    ∃ v, serverReadAuthenticated handler packet t = .ok () v

theorem Serves.of_turn {handler : Handler} {t u : Session} {packet : Bytes} {callback : Callback}
    (hcallbacks : u.callbacks = t.callbacks)
    (hturn : serverReadAuthenticated handler packet t = Server.turn handler callback u) :
    Serves handler t packet callback u := by
  refine ⟨hturn, ?_, fun hcalls hfail => ?_⟩
  · rw [hturn, turn_callbacks, hcallbacks]
  · rw [hturn]
    exact turn_returns hcalls hfail

/-- The question was in the packet. -/
theorem Serves.size {handler : Handler} {t u : Session} {packet : Bytes} {callback : Callback}
    (h : Serves handler t packet callback u) : callback.size ≤ packet.length :=
  asked_size handler packet h.asked _ (List.mem_singleton.mpr rfl)

/-! ### What the server reads in the packets -/

omit [Deps] in
theorem fromUtf8_of_valid {x : Bytes} (h : utf8Valid x) : fromUtf8 x = .ok x := if_pos h

omit [Deps] in
theorem length_modeList (modes : List (Pty × UInt32)) :
    (Client.modeList modes).length = 5 * modes.length := by
  simp [Client.modeList, List.length_flatMap, Nat.mul_comm]

omit [Deps] in
/-- The modes behind those already read. -/
theorem drop_modeList (done todo : List (Pty × UInt32)) :
    (Client.modeList (done ++ todo) ++ [0]).drop (5 * done.length) =
      Client.modeList todo ++ [0] := by
  rw [Client.modeList, List.flatMap_append, List.append_assoc]
  exact drop_append_length (length_modeList done) _

omit [Deps] in
/-- The loop over a mode list, behind the modes already read. -/
theorem ptyModes_modeList (done todo : List (Pty × UInt32)) {fuel : Nat}
    (hfuel : todo.length < fuel) (hshort : done.length + todo.length ≤ 130)
    (hend : ∀ m ∈ todo, m.1 ≠ Pty.ttyOpEnd) :
    ptyModes (Client.modeList (done ++ todo) ++ [0]) fuel done.length
        (done ++ List.replicate (130 - done.length) (Pty.ttyOpEnd, 0)) =
      .ok (done ++ todo ++ List.replicate (130 - (done ++ todo).length) (Pty.ttyOpEnd, 0),
        (done ++ todo).length) := by
  induction todo generalizing done fuel with
  | nil =>
    cases fuel with
    | zero => cases hfuel
    | succ fuel =>
      unfold ptyModes
      rw [drop_modeList]
      simp [Client.modeList]
  | cons m todo ih =>
    cases fuel with
    | zero => cases hfuel
    | succ fuel =>
      obtain ⟨⟨code, hstandard⟩, value⟩ := m
      have hne : code ≠ 0 := by
        intro hzero
        subst hzero
        exact hend _ List.mem_cons_self rfl
      have hmode : Pty.fromU8 code = some ⟨code, hstandard⟩ := by
        unfold Pty.fromU8
        rw [if_neg hne, dif_pos hstandard]
      have hhead : headBe32 (be32 value ++ (Client.modeList todo ++ [0])) = some value :=
        headBe32_append value _
      have hcons : Client.modeList ((⟨code, hstandard⟩, value) :: todo) ++ [0] =
          code :: (be32 value ++ (Client.modeList todo ++ [0])) := by
        simp [Client.modeList]
      have hroom : 130 - done.length = (130 - (done.length + 1)) + 1 := by
        rw [List.length_cons] at hshort
        omega
      have hset : (done ++ List.replicate (130 - done.length) (Pty.ttyOpEnd, (0 : UInt32))).set
            done.length (⟨code, hstandard⟩, value) =
          (done ++ [(⟨code, hstandard⟩, value)]) ++
            List.replicate (130 - (done.length + 1)) (Pty.ttyOpEnd, 0) := by
        rw [hroom, List.replicate_succ]
        simp
      have hin : done.length <
          (done ++ List.replicate (130 - done.length) (Pty.ttyOpEnd, (0 : UInt32))).length := by
        rw [List.length_append, List.length_replicate]
        omega
      unfold ptyModes
      rw [drop_modeList, hcons]
      simp only [if_neg hne, hhead, hmode, if_pos hin, hset]
      have hless : todo.length < fuel := Nat.lt_of_succ_lt_succ hfuel
      have hnext := ih (done ++ [(⟨code, hstandard⟩, value)]) hless (by simp at hshort ⊢; omega)
        fun m hm => hend m (List.mem_cons_of_mem _ hm)
      simpa using hnext

omit [Deps] in
/-- The terminal modes are read back. -/
theorem readPtyModes_modeList {modes : List (Pty × UInt32)} (hshort : modes.length ≤ 130)
    (hend : ∀ m ∈ modes, m.1 ≠ Pty.ttyOpEnd) :
    readPtyModes (Client.modeList modes ++ [0]) = .ok modes := by
  have hlength : (Client.modeList modes ++ [0]).length = 5 * modes.length + 1 := by
    rw [List.length_append, length_modeList, List.length_singleton]
  have hfuel : modes.length < (Client.modeList modes ++ [0]).length + 1 := by omega
  have hloop := ptyModes_modeList [] modes hfuel (by simpa using hshort) hend
  unfold readPtyModes
  simp only [List.nil_append, List.length_nil, Nat.sub_zero] at hloop
  simp only [hloop, bind, Except.bind]
  rw [if_pos (by simp), List.take_left]

section
variable {r : Position} {id : UInt32}

omit [Deps] in
/-- A UTF-8 string of a packet is read back. -/
theorem readStr_before {x rest : Bytes} (h : r.Before (sshString x ++ rest))
    (hx : x.length < 2 ^ 32) (hvalid : utf8Valid x) :
    ∃ r', r.readString = .ok (x, r') ∧ fromUtf8 x = .ok x ∧ r'.Before rest := by
  obtain ⟨r', hread, hr'⟩ := h.readString hx
  exact ⟨r', hread, fromUtf8_of_valid hvalid, hr'⟩

omit [Deps] in
theorem reads_ptyRequest {term : Bytes} {colWidth rowHeight pixWidth pixHeight : UInt32}
    {modes : List (Pty × UInt32)} (h : r.Before (sshString term ++ (be32 colWidth ++
      (be32 rowHeight ++ (be32 pixWidth ++ (be32 pixHeight ++
        sshString (Client.modeList modes ++ [0])))))))
    (hlength : term.length < 2 ^ 32) (hvalid : utf8Valid term) (hshort : modes.length ≤ 130)
    (hend : ∀ m ∈ modes, m.1 ≠ Pty.ttyOpEnd) :
    channelRequestCallback id (ascii "pty-req") r =
      .ok (some (.ptyRequest id term colWidth rowHeight pixWidth pixHeight modes)) := by
  have hmodes : (Client.modeList modes ++ [0]).length < 2 ^ 32 := by
    rw [List.length_append, length_modeList, List.length_singleton]
    omega
  obtain ⟨r1, hterm, hutf8, hr1⟩ := readStr_before h hlength hvalid
  obtain ⟨r2, hcol, hr2⟩ := hr1.readU32
  obtain ⟨r3, hrow, hr3⟩ := hr2.readU32
  obtain ⟨r4, hpixWidth, hr4⟩ := hr3.readU32
  obtain ⟨r5, hpixHeight, hr5⟩ := hr4.readU32
  obtain ⟨r6, hmode⟩ := hr5.readString_last hmodes
  unfold channelRequestCallback
  rw [if_pos rfl]
  simp only [hterm, hutf8, hcol, hrow, hpixWidth, hpixHeight, hmode,
    readPtyModes_modeList hshort hend, bind, Except.bind]

omit [Deps] in
theorem reads_x11Request {single : Bool} {protocol cookie : Bytes} {screen : UInt32}
    (h : r.Before (flagByte single :: (sshString protocol ++ (sshString cookie ++ be32 screen))))
    (hprotocol : protocol.length < 2 ^ 32 ∧ utf8Valid protocol)
    (hcookie : cookie.length < 2 ^ 32 ∧ utf8Valid cookie) :
    channelRequestCallback id (ascii "x11-req") r =
      .ok (some (.x11Request id single protocol cookie screen)) := by
  have hflag : (decide (flagByte single ≠ 0)) = single := by cases single <;> rfl
  obtain ⟨r1, hsingle, hr1⟩ := h.readByte
  obtain ⟨r2, hread, hutf8, hr2⟩ := readStr_before hr1 hprotocol.1 hprotocol.2
  obtain ⟨r3, hread', hutf8', hr3⟩ := readStr_before hr2 hcookie.1 hcookie.2
  obtain ⟨r4, hscreen⟩ := hr3.readU32_last
  unfold channelRequestCallback
  rw [if_neg (by decide), if_pos rfl]
  simp only [hsingle, hread, hutf8, hread', hutf8', hscreen, bind, Except.bind, hflag]

omit [Deps] in
theorem reads_envRequest {name value : Bytes} (h : r.Before (sshString name ++ sshString value))
    (hname : name.length < 2 ^ 32 ∧ utf8Valid name)
    (hvalue : value.length < 2 ^ 32 ∧ utf8Valid value) :
    channelRequestCallback id (ascii "env") r = .ok (some (.envRequest id name value)) := by
  obtain ⟨r1, hread, hutf8, hr1⟩ := readStr_before h hname.1 hname.2
  obtain ⟨r2, hread'⟩ := hr1.readString_last hvalue.1
  unfold channelRequestCallback
  rw [if_neg (by decide), if_neg (by decide), if_pos rfl]
  simp only [hread, hutf8, hread', fromUtf8_of_valid hvalue.2, bind, Except.bind]

omit [Deps] in
theorem reads_shellRequest :
    channelRequestCallback id (ascii "shell") r = .ok (some (.shellRequest id)) := by
  unfold channelRequestCallback
  rw [if_neg (by decide), if_neg (by decide), if_neg (by decide), if_pos rfl]

omit [Deps] in
theorem reads_execRequest {command : Bytes} (h : r.Before (sshString command))
    (hlength : command.length < 2 ^ 32) :
    channelRequestCallback id (ascii "exec") r = .ok (some (.execRequest id command)) := by
  obtain ⟨r1, hread⟩ := h.readString_last hlength
  unfold channelRequestCallback
  rw [if_neg (by decide), if_neg (by decide), if_neg (by decide), if_neg (by decide), if_pos rfl]
  simp only [hread, bind, Except.bind]

omit [Deps] in
theorem reads_subsystemRequest {name : Bytes} (h : r.Before (sshString name))
    (hname : name.length < 2 ^ 32 ∧ utf8Valid name) :
    channelRequestCallback id (ascii "subsystem") r = .ok (some (.subsystemRequest id name)) := by
  obtain ⟨r1, hread⟩ := h.readString_last hname.1
  unfold channelRequestCallback
  rw [if_neg (by decide), if_neg (by decide), if_neg (by decide), if_neg (by decide),
    if_neg (by decide), if_pos rfl]
  simp only [hread, fromUtf8_of_valid hname.2, bind, Except.bind]

omit [Deps] in
theorem reads_windowChangeRequest {colWidth rowHeight pixWidth pixHeight : UInt32}
    (h : r.Before (be32 colWidth ++ (be32 rowHeight ++ (be32 pixWidth ++ be32 pixHeight)))) :
    channelRequestCallback id (ascii "window-change") r =
      .ok (some (.windowChangeRequest id colWidth rowHeight pixWidth pixHeight)) := by
  obtain ⟨r1, hcol, hr1⟩ := h.readU32
  obtain ⟨r2, hrow, hr2⟩ := hr1.readU32
  obtain ⟨r3, hpixWidth, hr3⟩ := hr2.readU32
  obtain ⟨r4, hpixHeight⟩ := hr3.readU32_last
  unfold channelRequestCallback
  rw [if_neg (by decide), if_neg (by decide), if_neg (by decide), if_neg (by decide),
    if_neg (by decide), if_neg (by decide), if_pos rfl]
  simp only [hcol, hrow, hpixWidth, hpixHeight, bind, Except.bind]

end

/-- A CHANNEL_REQUEST whose question the server reads is served with it. -/
theorem channelRequest_serves (handler : Handler) (t : Session) (id : UInt32) (want : UInt8)
    {name rest : Bytes} {callback : Callback} (hname : name.length < 2 ^ 32)
    (hread : ∀ r : Position, r.Before rest → channelRequestCallback id name r = .ok (some callback))
    (hturn : turn handler callback = finish handler callback) :
    ∃ u, Serves handler t (channelRequest id name (want :: rest)) callback u := by
  have hstart : (reader (channelRequest id name (want :: rest)) 1).Before
      (be32 id ++ (sshString name ++ (want :: rest))) := by
    have hbefore := before_reader msg.CHANNEL_REQUEST (be32 id ++ (sshString name ++ (want :: rest)))
    simpa [channelRequest] using hbefore
  obtain ⟨r1, hid, hr1⟩ := hstart.readU32
  obtain ⟨r2, hreq, hr2⟩ := hr1.readString hname
  obtain ⟨r3, hwants, hr3⟩ := hr2.readByte
  have hserved : serverReadAuthenticated handler (channelRequest id name (want :: rest)) t =
    serverReadChannelRequest handler (channelRequest id name (want :: rest)) t := rfl
  have hrun : ∃ u : Session, u.callbacks = t.callbacks ∧
      serverReadChannelRequest handler (channelRequest id name (want :: rest)) t =
        turn handler callback u := by
    unfold serverReadChannelRequest
    rw [run_bind, run_lift hid]
    dsimp only
    rw [run_bind, run_lift hreq]
    dsimp only
    rw [run_bind, run_lift hwants]
    dsimp only
    unfold modifyEnc
    rw [run_bind, run_modify]
    dsimp only
    rw [run_bind, run_lift (hread r3 hr3), hturn]
    refine ⟨_, ?_, rfl⟩
    rfl
  obtain ⟨u, hcallbacks, hturn'⟩ := hrun
  exact ⟨u, .of_turn hcallbacks (hserved.trans hturn')⟩

/-- A GLOBAL_REQUEST for a forwarding is served with its question. -/
theorem forwardRequest_serves (handler : Handler) (t : Session) (want : UInt8) {name address : Bytes}
    {port : UInt32} {callback : Callback} (hname : name.length < 2 ^ 32)
    (haddress : address.length < 2 ^ 32 ∧ utf8Valid address)
    (hcase : name = ascii "tcpip-forward" ∧ callback = .tcpipForward address port ∨
      name = ascii "cancel-tcpip-forward" ∧ callback = .cancelTcpipForward address port) :
    ∃ u, Serves handler t
      (msg.GLOBAL_REQUEST :: sshString name ++ want :: sshString address ++ be32 port) callback u := by
  set packet := msg.GLOBAL_REQUEST :: sshString name ++ want :: sshString address ++ be32 port
    with hpacket
  have hstart : (reader packet 1).Before
      (sshString name ++ (want :: (sshString address ++ be32 port))) := by
    have hbefore := before_reader msg.GLOBAL_REQUEST
      (sshString name ++ (want :: (sshString address ++ be32 port)))
    simpa [hpacket] using hbefore
  obtain ⟨r1, hreq, hr1⟩ := hstart.readString hname
  obtain ⟨r2, hwants, hr2⟩ := hr1.readByte
  obtain ⟨r3, hread, hutf8, hr3⟩ := readStr_before hr2 haddress.1 haddress.2
  obtain ⟨r4, hport⟩ := hr3.readU32_last
  have hserved : serverReadAuthenticated handler packet t =
    serverReadGlobalRequest handler packet t := rfl
  have hrun : ∃ u : Session, u.callbacks = t.callbacks ∧
      serverReadGlobalRequest handler packet t = turn handler callback u := by
    unfold serverReadGlobalRequest
    rw [run_bind, run_lift hreq]
    dsimp only
    rw [run_bind, run_lift hwants]
    dsimp only
    rw [run_bind, run_modify]
    dsimp only
    rcases hcase with ⟨rfl, rfl⟩ | ⟨rfl, rfl⟩
    · rw [if_pos rfl, run_bind, run_lift hread]
      dsimp only
      rw [run_bind, run_lift hutf8]
      dsimp only
      rw [run_bind, run_lift hport]
      refine ⟨_, ?_, rfl⟩
      rfl
    · rw [if_neg (by decide), if_pos rfl, run_bind, run_lift hread]
      dsimp only
      rw [run_bind, run_lift hutf8]
      dsimp only
      rw [run_bind, run_lift hport]
      refine ⟨_, ?_, rfl⟩
      rfl
  obtain ⟨u, hcallbacks, hturn⟩ := hrun
  exact ⟨u, .of_turn hcallbacks (hserved.trans hturn)⟩

/-- The entry that a server keeps for a channel that its peer has opened. -/
def entryFor (config : Config) (id sender window maxpacket : UInt32) : Channel :=
  ⟨sender, id, window, config.windowSize, maxpacket, config.maximumPacketSize, true, false, []⟩

/-- A CHANNEL_OPEN is served with its question, under a new id, with the
sender's id, window and packet size on record. -/
theorem channelOpen_serves (handler : Handler) {t : Session} {enc : Encrypted}
    (henc : t.common.encrypted = some enc) {free : UInt32} (hfree : enc.channels free = none)
    {typ rest : Bytes} (sender window maxpacket : UInt32) {question : UInt32 → Callback}
    (hcase : (typ = ascii "session" ∧ question = .channelOpenSession) ∨
      (∃ a port, typ = ascii "x11" ∧ rest = sshString a ++ be32 port ∧ a.length < 2 ^ 32 ∧
        utf8Valid a ∧ question = fun id => .channelOpenX11 id a port) ∨
      ∃ a port c port', typ = ascii "direct-tcpip" ∧
        rest = sshString a ++ (be32 port ++ (sshString c ++ be32 port')) ∧ a.length < 2 ^ 32 ∧
        utf8Valid a ∧ c.length < 2 ^ 32 ∧ utf8Valid c ∧
        question = fun id => .channelOpenDirectTcpip id a port c port') :
    ∃ id u, enc.channels id = none ∧ Serves handler t
      (channelOpenPacket typ sender window maxpacket rest) (question id) u ∧
      (u.common.encrypted.bind fun e => e.channels id) =
        some (entryFor t.common.config id sender window maxpacket) := by
  set packet := channelOpenPacket typ sender window maxpacket rest with hpacket
  have htyp : typ.length < 2 ^ 32 := by
    rcases hcase with ⟨rfl, -⟩ | ⟨_, _, rfl, -⟩ | ⟨_, _, _, _, rfl, -⟩
    · decide
    · decide
    · decide
  have hstart : (reader packet 1).Before
      (sshString typ ++ (be32 sender ++ (be32 window ++ (be32 maxpacket ++ rest)))) := by
    have hbefore := before_reader msg.CHANNEL_OPEN
      (sshString typ ++ (be32 sender ++ (be32 window ++ (be32 maxpacket ++ rest))))
    simpa [hpacket, channelOpenPacket] using hbefore
  obtain ⟨r1, hread, hr1⟩ := hstart.readString htyp
  obtain ⟨r2, hsender, hr2⟩ := hr1.readU32
  obtain ⟨r3, hwindow, hr3⟩ := hr2.readU32
  obtain ⟨r4, hmax, hr4⟩ := hr3.readU32
  obtain ⟨id, hid⟩ := newChannelId_finds enc hfree
  have hnone := (newChannelId_ok hid).1
  have hserved : serverReadAuthenticated handler packet t =
    serverHandleChannelOpen handler packet t := rfl
  have hrun : ∃ u : Session, u.callbacks = t.callbacks ∧
      (u.common.encrypted.bind fun e => e.channels id) =
        some (entryFor t.common.config id sender window maxpacket) ∧
      serverHandleChannelOpen handler packet t = turn handler (question id) u := by
    unfold serverHandleChannelOpen
    rw [run_bind, run_lift hread]
    dsimp only
    rw [run_bind, run_lift hsender]
    dsimp only
    rw [run_bind, run_lift hwindow]
    dsimp only
    rw [run_bind, run_lift hmax]
    dsimp only
    rw [run_bind, run_onCommon henc hid]
    dsimp only
    rw [run_bind, run_get]
    dsimp only
    have hentry : ∀ e : Encrypted, ((some (e.insertChannel id
        (entryFor t.common.config id sender window maxpacket))).bind fun e => e.channels id) =
          some (entryFor t.common.config id sender window maxpacket) :=
      fun e => Function.update_self ..
    have hconfirm : ∀ (channel : Channel) (v : Session), confirmChannelOpen channel v =
        .ok () { v with common := v.common.modifyEnc (fun e =>
          (e.push (confirmChannelOpenPacket channel.recipientChannel channel.senderChannel
            v.common.config.windowSize v.common.config.maximumPacketSize)).insertChannel
              channel.senderChannel channel) } := fun _ _ => rfl
    rcases hcase with ⟨rfl, rfl⟩ | ⟨a, port, rfl, rfl, ha, hvalid, rfl⟩ |
      ⟨a, port, c, port', rfl, rfl, ha, hvalid, hc, hvalid', rfl⟩
    · rw [if_pos rfl, run_bind]
      refine ⟨_, ?_, ?_, rfl⟩
      · rfl
      · exact hentry _
    · obtain ⟨r5, ha', hutf8, hr5⟩ := readStr_before hr4 ha hvalid
      obtain ⟨r6, hport⟩ := hr5.readU32_last
      rw [if_neg (by decide), if_pos rfl, run_bind, hconfirm]
      dsimp only
      rw [run_bind, run_lift ha']
      dsimp only
      rw [run_bind, run_lift hutf8]
      dsimp only
      rw [run_bind, run_lift hport]
      refine ⟨_, ?_, ?_, rfl⟩
      · rfl
      · exact hentry _
    · obtain ⟨r5, ha', hutf8, hr5⟩ := readStr_before hr4 ha hvalid
      obtain ⟨r6, hport, hr6⟩ := hr5.readU32
      obtain ⟨r7, hc', hutf8', hr7⟩ := readStr_before hr6 hc hvalid'
      obtain ⟨r8, hport'⟩ := hr7.readU32_last
      rw [if_neg (by decide), if_neg (by decide), if_pos rfl, run_bind, hconfirm]
      dsimp only
      rw [run_bind, run_lift ha']
      dsimp only
      rw [run_bind, run_lift hutf8]
      dsimp only
      rw [run_bind, run_lift hport]
      dsimp only
      rw [run_bind, run_lift hc']
      dsimp only
      rw [run_bind, run_lift hutf8']
      dsimp only
      rw [run_bind, run_lift hport']
      refine ⟨_, ?_, ?_, rfl⟩
      · rfl
      · exact hentry _
  obtain ⟨u, hcallbacks, hentry, hturn⟩ := hrun
  exact ⟨id, u, hnone, .of_turn hcallbacks (hserved.trans hturn), hentry⟩

end Thrussh.Server
