import Thrussh.Client.Moves
import Thrussh.Reading
import Thrussh.Utf8

/-!
# Packets that an authenticated client serves

A packet is served with a question: the handler gets its turn with that
question and with no other. The packets that this crate's server writes for
its requests and for a forwarded connection are served with their
arguments, if the formats can carry these.
-/

namespace Thrussh.Client

open Lib Position

variable [Deps]

/-! ### The calls of a handler ask nothing -/

/-- Two sessions between which nothing was asked. -/
def Silent (s t : Session) : Prop := t.callbacks = s.callbacks

theorem onCommon_silent {α : Type} (x : CommonM Config α) : Moves Silent (onCommon x) := by
  intro s
  refine .single ?_
  unfold Silent onCommon zoom
  cases x s.common <;> rfl

theorem modify_silent {f : Session → Session} (h : ∀ s, (f s).callbacks = s.callbacks) :
    Moves Silent (modify f : M Unit) := Moves.modify fun s => .single (h s)

theorem modifyEnc_silent (f : Encrypted → Encrypted) : Moves Silent (modifyEnc f) :=
  modify_silent fun _ => rfl

theorem push_silent (body : Bytes) : Moves Silent (push body) := modifyEnc_silent _

theorem request_silent (channel : UInt32) (name rest : Bytes) :
    Moves Silent (request channel name rest) := modifyEnc_silent _

theorem openChannel_silent (typ rest : Bytes) : Moves Silent (openChannel typ rest) := by
  refine Moves.get.bind fun s => ?_
  dsimp only
  split
  · exact onCommon_silent _
  · exact .pure _

theorem sendTo_silent (channel : UInt32) (m : OpenChannelMsg) : Moves Silent (sendTo channel m) :=
  modify_silent fun s => by split <;> rfl

theorem flushAdjusted_silent (channel newSize : UInt32) :
    Moves Silent (flushAdjusted channel newSize) := by
  refine Moves.get.bind fun s => ?_
  split
  · refine (onCommon_silent _).bind fun size => ?_
    split
    · exact sendTo_silent channel _
    · exact .throw _
  · exact sendTo_silent channel _

theorem createForwardedTcpipChannel_silent (remoteChannel : UInt32) (sender : Nat)
    (windowSize maxPacketSize : UInt32) :
    Moves Silent (createForwardedTcpipChannel remoteChannel sender windowSize maxPacketSize) := by
  refine Moves.get.bind fun s => ?_
  refine (onCommon_silent _).bind fun id => ?_
  refine (modify_silent ?_).bind fun _ => ?_
  · exact fun _ => rfl
  refine (modifyEnc_silent _).bind fun _ => ?_
  exact Moves.get.bind fun _ => push_silent _

/-- A call of the handler asks nothing. -/
theorem runCall_silent (call : Call) : Moves Silent (runCall call) := by
  cases call with
  | channelOpenSession => exact (openChannel_silent _ _).bind fun _ => .pure _
  | channelOpenX11 address port => exact (openChannel_silent _ _).bind fun _ => .pure _
  | channelOpenDirectTcpip host port address port' =>
    exact (openChannel_silent _ _).bind fun _ => .pure _
  | tcpipForward want address port => exact push_silent _
  | cancelTcpipForward want address port => exact push_silent _
  | data channel d => exact assertEncrypted_moves.bind fun _ => onCommon_silent _
  | eof channel => exact assertEncrypted_moves.bind fun _ => modifyEnc_silent _
  | extendedData channel ext d => exact assertEncrypted_moves.bind fun _ => onCommon_silent _
  | disconnect reason description language =>
    exact onCommon_silent (modify (·.disconnect reason description language))
  | confirmChannelOpen remote id => exact Moves.get.bind fun _ => push_silent _
  | sendTo channel m => exact sendTo_silent channel m
  | forget channel => exact modify_silent fun _ => rfl
  | sendReply reply => exact modify_silent fun _ => rfl
  | flushAdjusted channel newSize => exact flushAdjusted_silent channel newSize
  | createForwardedTcpipChannel remote sender window max =>
    exact createForwardedTcpipChannel_silent remote sender window max
  | _ => exact request_silent _ _ _

/-! ### A packet that is served -/

/-- A method that is given the session asks its question and no other. -/
theorem finish_callbacks (app : Application) (callback : Callback) (s : Session) :
    (final (finish app callback s)).callbacks =
      s.callbacks ++ [(callback, app.handler s.common.tick callback s)] := by
  have hrest : ∀ answer : Answer, Moves Silent (do
      answer.calls.forM runCall
      if answer.fail then throw (.error .handler) else pure () : M Unit) := by
    intro answer
    refine (Moves.forM runCall_silent answer.calls).bind fun _ => ?_
    split
    · exact .throw _
    · exact .pure _
  have hsilent : ∀ answer : Answer, ∀ u : Session, (final ((do
      answer.calls.forM runCall
      if answer.fail then throw (.error .handler) else pure () : M Unit) u)).callbacks =
        u.callbacks :=
    fun answer u => (hrest answer).invariant (p := fun t => t.callbacks = u.callbacks)
      (fun _ _ h h' => h.trans h') rfl
  unfold finish
  rw [final_bind]
  exact hsilent _ _

/-- The turn of a handler that only returns ends well. -/
theorem finish_returns {app : Application} {callback : Callback} {s : Session}
    (hcalls : (app.handler s.common.tick callback s).calls = [])
    (hfail : (app.handler s.common.tick callback s).fail = false) :
    ∃ t, finish app callback s = .ok () t := by
  unfold finish
  rw [run_bind]
  unfold ask
  dsimp only
  rw [hcalls, hfail]
  exact ⟨_, rfl⟩

/-- An authenticated client serves a packet by giving the handler its turn
with one question. -/
structure Serves (app : Application) (c : Session) (packet : Bytes) (callback : Callback) :
    Prop where
  /-- Nothing fails before or after the turn. -/
  turn : clientReadAuthenticated app packet c = finish app callback c
  /-- The question is asked, and no other. -/
  asked : (final (clientReadAuthenticated app packet c)).callbacks =
    c.callbacks ++ [(callback, app.handler c.common.tick callback c)]
  /-- A handler that only returns gets no error. -/
  returns : (app.handler c.common.tick callback c).calls = [] →
    (app.handler c.common.tick callback c).fail = false →
    ∃ d, clientReadAuthenticated app packet c = .ok () d

theorem Serves.of_turn {app : Application} {c : Session} {packet : Bytes} {callback : Callback}
    (hturn : clientReadAuthenticated app packet c = finish app callback c) :
    Serves app c packet callback := by
  refine ⟨hturn, ?_, fun hcalls hfail => ?_⟩
  · rw [hturn]
    exact finish_callbacks app callback c
  · rw [hturn]
    exact finish_returns hcalls hfail

/-! ### What the client reads in the packets -/

omit [Deps] in
/-- A signal whose name is read back as itself: a custom name is UTF-8 and
no standard one. -/
def Named : Sig → Prop
  | .custom name => utf8Valid name ∧ ∀ sig ∈ Sig.standard, sig.name ≠ name
  | _ => True

omit [Deps] in
theorem fromName_name {sig : Sig} (h : Named sig) : Sig.fromName sig.name = .ok sig := by
  cases sig with
  | custom name =>
    have hnone : Sig.standard.find? (·.name = name) = none := by
      rw [List.find?_eq_none]
      intro sig hsig
      simpa using h.2 sig hsig
    have hvalid : fromUtf8 name = .ok name := if_pos h.1
    have hname : (Sig.custom name).name = name := rfl
    rw [hname]
    unfold Sig.fromName
    rw [hnone]
    simp only [hvalid, bind, Except.bind]
  | _ => rfl

section
variable {r : Position} {id : UInt32}

omit [Deps] in
theorem reads_xonXoff {clientCanDo : Bool} (h : r.Before [0, flagByte clientCanDo]) :
    channelRequestCallback id (ascii "xon-xoff") r = .ok (some (.xonXoff id clientCanDo)) := by
  have hflag : decide (flagByte clientCanDo ≠ 0) = clientCanDo := by cases clientCanDo <;> rfl
  obtain ⟨r1, hzero, hr1⟩ := h.readByte
  obtain ⟨r2, hcan, -⟩ := hr1.readByte
  unfold channelRequestCallback
  rw [if_neg (by decide), if_pos rfl]
  simp only [hzero, hcan, bind, Except.bind, hflag]

omit [Deps] in
theorem reads_exitStatus {exitStatus : UInt32} (h : r.Before (0 :: be32 exitStatus)) :
    channelRequestCallback id (ascii "exit-status") r = .ok (some (.exitStatus id exitStatus)) := by
  obtain ⟨r1, hzero, hr1⟩ := h.readByte
  obtain ⟨r2, hstatus⟩ := hr1.readU32_last
  unfold channelRequestCallback
  rw [if_neg (by decide), if_neg (by decide), if_pos rfl]
  simp only [hzero, hstatus, bind, Except.bind]

omit [Deps] in
theorem reads_exitSignal {sig : Sig} {coreDumped : Bool} {message language : Bytes}
    (h : r.Before (0 :: (sshString sig.name ++ (flagByte coreDumped ::
      (sshString message ++ sshString language))))) (hsig : sig.name.length < 2 ^ 32 ∧ Named sig)
    (hmessage : message.length < 2 ^ 32 ∧ utf8Valid message)
    (hlanguage : language.length < 2 ^ 32 ∧ utf8Valid language) :
    channelRequestCallback id (ascii "exit-signal") r =
      .ok (some (.exitSignal id sig coreDumped message language)) := by
  have hflag : decide (flagByte coreDumped ≠ 0) = coreDumped := by cases coreDumped <;> rfl
  have hutf8 : fromUtf8 message = .ok message := if_pos hmessage.2
  have hutf8' : fromUtf8 language = .ok language := if_pos hlanguage.2
  obtain ⟨r1, hzero, hr1⟩ := h.readByte
  obtain ⟨r2, hname, hr2⟩ := hr1.readString hsig.1
  obtain ⟨r3, hcore, hr3⟩ := hr2.readByte
  obtain ⟨r4, hread, hr4⟩ := hr3.readString hmessage.1
  obtain ⟨r5, hread'⟩ := hr4.readString_last hlanguage.1
  unfold channelRequestCallback
  rw [if_neg (by decide), if_neg (by decide), if_neg (by decide), if_pos rfl]
  simp only [hzero, hname, fromName_name hsig.2, hcore, hread, hutf8, hread', hutf8', bind,
    Except.bind, hflag]

end

/-- A CHANNEL_REQUEST whose question the client reads is served with it. -/
theorem channelRequest_serves (app : Application) (c : Session) (id : UInt32) {name rest : Bytes}
    {callback : Callback} (hname : name.length < 2 ^ 32)
    (hread : ∀ r : Position, r.Before rest →
      channelRequestCallback id name r = .ok (some callback)) :
    Serves app c (channelRequest id name rest) callback := by
  have hstart : (reader (channelRequest id name rest) 1).Before
      (be32 id ++ (sshString name ++ rest)) := by
    have hbefore := before_reader msg.CHANNEL_REQUEST (be32 id ++ (sshString name ++ rest))
    simpa [channelRequest] using hbefore
  obtain ⟨r1, hid, hr1⟩ := hstart.readU32
  obtain ⟨r2, hreq, hr2⟩ := hr1.readString hname
  have hserved : clientReadAuthenticated app (channelRequest id name rest) c =
    clientReadChannelRequest app (channelRequest id name rest) c := rfl
  refine .of_turn (hserved.trans ?_)
  unfold clientReadChannelRequest
  rw [run_bind, run_lift hid]
  dsimp only
  rw [run_bind, run_lift hreq]
  dsimp only
  rw [run_bind, run_lift (hread r2 hr2)]

/-- The opening of a forwarded connection is served, with the server's id,
window and packet size. -/
theorem forwarded_serves (app : Application) (c : Session) (id window maxpacket port port' : UInt32)
    {address originator : Bytes} (haddress : address.length < 2 ^ 32 ∧ utf8Valid address)
    (horiginator : originator.length < 2 ^ 32 ∧ utf8Valid originator) :
    Serves app c (channelOpenPacket (ascii "forwarded-tcpip") id window maxpacket
        (sshString address ++ be32 port ++ sshString originator ++ be32 port'))
      (.channelOpenForwardedTcpipClient id address port originator port' window maxpacket) := by
  set packet := channelOpenPacket (ascii "forwarded-tcpip") id window maxpacket
    (sshString address ++ be32 port ++ sshString originator ++ be32 port') with hpacket
  have hstart : (reader packet 1).Before (sshString (ascii "forwarded-tcpip") ++ (be32 id ++
      (be32 window ++ (be32 maxpacket ++ (sshString address ++ (be32 port ++
        (sshString originator ++ be32 port'))))))) := by
    have hbefore := before_reader msg.CHANNEL_OPEN (sshString (ascii "forwarded-tcpip") ++
      (be32 id ++ (be32 window ++ (be32 maxpacket ++ (sshString address ++ (be32 port ++
        (sshString originator ++ be32 port')))))))
    simpa [hpacket, channelOpenPacket] using hbefore
  have htyp : (ascii "forwarded-tcpip").length < 2 ^ 32 := by decide
  obtain ⟨r1, hread, hr1⟩ := hstart.readString htyp
  obtain ⟨r2, hid, hr2⟩ := hr1.readU32
  obtain ⟨r3, hwindow, hr3⟩ := hr2.readU32
  obtain ⟨r4, hmax, hr4⟩ := hr3.readU32
  obtain ⟨r5, haddress', hr5⟩ := hr4.readString haddress.1
  obtain ⟨r6, hport, hr6⟩ := hr5.readU32
  obtain ⟨r7, horiginator', hr7⟩ := hr6.readString horiginator.1
  obtain ⟨r8, hport'⟩ := hr7.readU32_last
  have hserved : clientReadAuthenticated app packet c = clientHandleChannelOpen app packet c := rfl
  refine .of_turn (hserved.trans ?_)
  unfold clientHandleChannelOpen
  rw [run_bind, run_lift hread]
  dsimp only
  rw [run_bind, run_lift hid]
  dsimp only
  rw [run_bind, run_lift hwindow]
  dsimp only
  rw [run_bind, run_lift hmax]
  dsimp only
  rw [if_pos rfl]
  unfold clientHandleForwarded
  rw [run_bind, run_lift haddress']
  dsimp only
  rw [run_bind, run_lift hport]
  dsimp only
  rw [run_bind, run_lift horiginator']
  dsimp only
  rw [run_bind, run_lift hport']
  dsimp only
  rw [fromUtf8Lossy_of_valid haddress.2, fromUtf8Lossy_of_valid horiginator.2]

/-! ### What was in a packet that is served -/

section
variable {app : Application} {c : Session} {packet : Bytes} {asked : List (Callback × Answer)}

/-- A question that is put behind a value is put where there is one. -/
theorem asked_of_lift {α : Type} {x : Except Fault α} {f : α → M Unit} (hasked : asked ≠ [])
    (h : (final ((lift x >>= f) c)).callbacks = c.callbacks ++ asked) :
    ∃ a, x = .ok a ∧ (final (f a c)).callbacks = c.callbacks ++ asked := by
  cases x with
  | ok a => exact ⟨a, rfl, h⟩
  | error e =>
    have hnone : c.callbacks = c.callbacks ++ asked := h
    have hnil : asked = [] := List.self_eq_append_right.mp hnone
    exact absurd hnil hasked

/-- The question of a turn is the one that is asked. -/
theorem asked_of_finish {callback callback' : Callback} {answer : Answer}
    (h : (final (finish app callback c)).callbacks = c.callbacks ++ [(callback', answer)]) :
    callback' = callback := by
  rw [finish_callbacks] at h
  have hsame := List.append_cancel_left h
  simp only [List.cons.injEq, Prod.mk.injEq] at hsame
  exact hsame.1.1.symm

omit [Deps] in
/-- The strings of an `exit-signal` were in the packet. -/
theorem exitSignal_left {req : Bytes} {r : Position} {id id' : UInt32} {sig : Sig} {core : Bool}
    {message language : Bytes} (h : channelRequestCallback id' req r =
      .ok (some (.exitSignal id sig core message language))) :
    req = ascii "exit-signal" ∧ 14 + sig.name.length + message.length + language.length ≤ r.left := by
  unfold channelRequestCallback at h
  split at h
  · obtain ⟨⟨a, r1⟩, -, h⟩ := ok_of_bind h
    obtain ⟨a', -, h⟩ := ok_of_bind h
    obtain ⟨⟨b, r2⟩, -, h⟩ := ok_of_bind h
    obtain ⟨⟨b', r3⟩, -, h⟩ := ok_of_bind h
    obtain ⟨b'', -, h⟩ := ok_of_bind h
    obtain ⟨⟨d, r4⟩, -, h⟩ := ok_of_bind h
    cases h
  split at h
  · obtain ⟨⟨zero, r1⟩, -, h⟩ := ok_of_bind h
    obtain ⟨⟨can, r2⟩, -, h⟩ := ok_of_bind h
    cases h
  split at h
  · obtain ⟨⟨zero, r1⟩, -, h⟩ := ok_of_bind h
    obtain ⟨⟨status, r2⟩, -, h⟩ := ok_of_bind h
    cases h
  split at h
  · rename_i hreq
    obtain ⟨⟨zero, r1⟩, hzero, h⟩ := ok_of_bind h
    obtain ⟨⟨name, r2⟩, hname, h⟩ := ok_of_bind h
    obtain ⟨sig', hsig, h⟩ := ok_of_bind h
    obtain ⟨⟨core', r3⟩, hcore, h⟩ := ok_of_bind h
    obtain ⟨⟨message', r4⟩, hmessage, h⟩ := ok_of_bind h
    obtain ⟨message'', hutf8, h⟩ := ok_of_bind h
    obtain ⟨⟨language', r5⟩, hlanguage, h⟩ := ok_of_bind h
    obtain ⟨language'', hutf8', h⟩ := ok_of_bind h
    cases h
    have hleft1 := readByte_left hzero
    have hleft2 := readString_left hname
    have hleft3 := readByte_left hcore
    have hleft4 := readString_left hmessage
    have hleft5 := readString_left hlanguage
    rw [Sig.fromName_ok hsig, fromUtf8_ok hutf8, fromUtf8_ok hutf8']
    refine ⟨hreq, ?_⟩
    omega
  · cases h

/-- So a request that ends in this question is as long as its strings ask for. -/
theorem asked_exitSignal {id : UInt32} {sig : Sig} {core : Bool} {message language : Bytes}
    {answer : Answer} (hhead : packet = [] ∨ packet.head? = some msg.CHANNEL_REQUEST)
    (h : (final (clientReadAuthenticated app packet c)).callbacks =
      c.callbacks ++ [(.exitSignal id sig core message language, answer)]) :
    34 + sig.name.length + message.length + language.length ≤ packet.length := by
  rcases hhead with rfl | hhead
  · have hnone : c.callbacks = c.callbacks ++
        [(.exitSignal id sig core message language, answer)] := h
    cases List.self_eq_append_right.mp hnone
  have hserved : clientReadAuthenticated app packet c = clientReadChannelRequest app packet c := by
    unfold clientReadAuthenticated
    rw [hhead]
    rfl
  rw [hserved] at h
  unfold clientReadChannelRequest at h
  obtain ⟨⟨num, r1⟩, hnum, h⟩ := asked_of_lift (List.cons_ne_nil _ _) h
  obtain ⟨⟨req, r2⟩, hreq, h⟩ := asked_of_lift (List.cons_ne_nil _ _) h
  obtain ⟨callback, hcallback, h⟩ := asked_of_lift (List.cons_ne_nil _ _) h
  cases callback with
  | none =>
    have hnone : c.callbacks = c.callbacks ++
        [(.exitSignal id sig core message language, answer)] := h
    cases List.self_eq_append_right.mp hnone
  | some callback =>
    cases asked_of_finish h
    obtain ⟨rfl, hleft⟩ := exitSignal_left hcallback
    have hleft1 := readU32_left hnum
    have hleft2 := readString_left hreq
    have hsize : (ascii "exit-signal").length = 11 := by decide
    have hpacket : (reader packet 1).left = packet.length - 1 := rfl
    omega

omit [Deps] in
/-- A short string is read as a whole. -/
theorem within_short {r r' : Position} {x y rest : Bytes} (h : r.Within (sshString x ++ rest))
    (hshort : x.length < 2 ^ 32) (hread : r.readString = .ok (y, r')) : y = x ∧ r'.Within rest := by
  obtain ⟨hy, hwithin⟩ := h.readString hread
  have hmod : (UInt32.ofNat x.length).toNat = x.length := by
    rw [UInt32.toNat_ofNat']
    omega
  refine ⟨?_, hwithin hshort⟩
  rw [hy, hmod, List.take_length]

omit [Deps] in
/-- A string whose lossy decoding is the one that was written is read as a whole. -/
theorem within_lossy {r r' : Position} {x y rest : Bytes} (h : r.Within (sshString x ++ rest))
    (hvalid : utf8Valid x) (hread : r.readString = .ok (y, r')) (hx : x = fromUtf8Lossy y) :
    y = x ∧ r'.Within rest := by
  obtain ⟨hy, -⟩ := h.readString hread
  have hlength := length_fromUtf8Lossy_take hvalid (UInt32.ofNat x.length).toNat
  rw [← hy, ← hx, UInt32.toNat_ofNat'] at hlength
  have hshort : x.length < 2 ^ 32 := by omega
  exact within_short h hshort hread

/-- The opening of a forwarded connection that is served from a part of its
packet is served from all of it. -/
theorem asked_forwarded {id id' window window' maxpacket maxpacket' port port' : UInt32}
    {address originator : Bytes} {answer : Answer} {q q' : UInt32}
    (hcut : packet <+: channelOpenPacket (ascii "forwarded-tcpip") id window maxpacket
      (sshString address ++ be32 port ++ sshString originator ++ be32 port'))
    (haddress : utf8Valid address) (horiginator : utf8Valid originator)
    (h : (final (clientReadAuthenticated app packet c)).callbacks = c.callbacks ++
      [(.channelOpenForwardedTcpipClient id' address q originator q' window' maxpacket', answer)]) :
    48 + address.length + originator.length ≤ packet.length := by
  cases packet with
  | nil =>
    have hnone : c.callbacks = c.callbacks ++ _ := h
    cases List.self_eq_append_right.mp hnone
  | cons m rest =>
    obtain ⟨hm, hrest⟩ : m = msg.CHANNEL_OPEN ∧ rest <+: sshString (ascii "forwarded-tcpip") ++
        (be32 id ++ (be32 window ++ (be32 maxpacket ++ (sshString address ++ (be32 port ++
          (sshString originator ++ be32 port')))))) := by
      simpa [channelOpenPacket] using hcut
    subst hm
    have hstart : (reader (msg.CHANNEL_OPEN :: rest) 1).Within (sshString (ascii "forwarded-tcpip") ++
        (be32 id ++ (be32 window ++ (be32 maxpacket ++ (sshString address ++ (be32 port ++
          (sshString originator ++ be32 port'))))))) :=
      ⟨Nat.le_add_left 1 _, hrest⟩
    have hserved : clientReadAuthenticated app (msg.CHANNEL_OPEN :: rest) c =
      clientHandleChannelOpen app (msg.CHANNEL_OPEN :: rest) c := rfl
    rw [hserved] at h
    unfold clientHandleChannelOpen at h
    obtain ⟨⟨typ, r1⟩, htyp, h⟩ := asked_of_lift (List.cons_ne_nil _ _) h
    obtain ⟨⟨sender, r2⟩, hsender, h⟩ := asked_of_lift (List.cons_ne_nil _ _) h
    obtain ⟨⟨win, r3⟩, hwin, h⟩ := asked_of_lift (List.cons_ne_nil _ _) h
    obtain ⟨⟨max, r4⟩, hmax, h⟩ := asked_of_lift (List.cons_ne_nil _ _) h
    have hsize : (ascii "forwarded-tcpip").length = 15 := by decide
    have hshort : (ascii "forwarded-tcpip").length < 2 ^ 32 := by decide
    obtain ⟨rfl, hr1⟩ := within_short hstart hshort htyp
    obtain ⟨rfl, hr2⟩ := hr1.readU32 hsender
    obtain ⟨rfl, hr3⟩ := hr2.readU32 hwin
    obtain ⟨rfl, hr4⟩ := hr3.readU32 hmax
    dsimp only at h
    rw [if_pos rfl] at h
    unfold clientHandleForwarded at h
    obtain ⟨⟨a, r5⟩, ha, h⟩ := asked_of_lift (List.cons_ne_nil _ _) h
    obtain ⟨⟨b, r6⟩, hb, h⟩ := asked_of_lift (List.cons_ne_nil _ _) h
    obtain ⟨⟨o, r7⟩, ho, h⟩ := asked_of_lift (List.cons_ne_nil _ _) h
    obtain ⟨⟨d, r8⟩, hd, h⟩ := asked_of_lift (List.cons_ne_nil _ _) h
    have hsame := asked_of_finish h
    simp only [Callback.channelOpenForwardedTcpipClient.injEq] at hsame
    obtain ⟨-, haddress', -, horiginator', -⟩ := hsame
    obtain ⟨rfl, hr5⟩ := within_lossy hr4 haddress ha haddress'
    obtain ⟨rfl, hr6⟩ := hr5.readU32 hb
    obtain ⟨rfl, hr7⟩ := within_lossy hr6 horiginator ho horiginator'
    have hleft1 := readString_left htyp
    have hleft2 := readU32_left hsender
    have hleft3 := readU32_left hwin
    have hleft4 := readU32_left hmax
    have hleft5 := readString_left ha
    have hleft6 := readU32_left hb
    have hleft7 := readString_left ho
    have hleft8 := readU32_left hd
    have hpacket : (reader (msg.CHANNEL_OPEN :: rest) 1).left = rest.length := rfl
    rw [List.length_cons]
    omega

end

end Thrussh.Client
