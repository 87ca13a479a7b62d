import Thrussh.Client.Serving
import Thrussh.Roles

/-!
# Channels that the client tells its application about

The questions of a packet about a channel name the channel of the packet.
Most branches of the dispatcher do not look it up, and an OPEN_CONFIRMATION
is looked up with another error. While every packet that they serve names a
channel of the table, the application hears of no other, and a packet for
another one fails with WrongChannel or is ignored.
-/

namespace Thrussh.Client

open Deps Lib Position

/-- The channel that a question is about, where the peer has named it. -/
def Callback.channel : Callback → Option UInt32
  | .channelOpenConfirmation id _ _ => some id
  | .channelSuccess id => some id
  | .channelClose id => some id
  | .channelEof id => some id
  | .channelOpenFailure id _ _ _ => some id
  | .channelOpenForwardedTcpip id _ _ _ _ => some id
  | .data id _ => some id
  | .extendedData id _ _ => some id
  | .xonXoff id _ => some id
  | .exitStatus id _ => some id
  | .exitSignal id _ _ _ _ => some id
  | .windowAdjusted id _ => some id
  | _ => none

/-- The questions about a channel that the client reads in a packet. -/
inductive InPacket (buf : Bytes) : Callback → Prop where
  /-- CHANNEL_OPEN_CONFIRMATION. -/
  | confirmation {id other window maxPacket : UInt32} {r r1 r2 r3 : Position}
    (hhead : buf.head? = some msg.CHANNEL_OPEN_CONFIRMATION)
    (hid : (reader buf 1).readU32 = .ok (id, r)) (hother : r.readU32 = .ok (other, r1))
    (hwindow : r1.readU32 = .ok (window, r2)) (hmax : r2.readU32 = .ok (maxPacket, r3)) :
    InPacket buf (.channelOpenConfirmation id maxPacket window)
  /-- CHANNEL_CLOSE. -/
  | close {id : UInt32} {r : Position} (hhead : buf.head? = some msg.CHANNEL_CLOSE)
    (hid : (reader buf 1).readU32 = .ok (id, r)) : InPacket buf (.channelClose id)
  /-- CHANNEL_EOF. -/
  | eof {id : UInt32} {r : Position} (hhead : buf.head? = some msg.CHANNEL_EOF)
    (hid : (reader buf 1).readU32 = .ok (id, r)) : InPacket buf (.channelEof id)
  /-- CHANNEL_OPEN_FAILURE. -/
  | openFailure {id code : UInt32} {reason : ChannelOpenFailure}
    {descr descr' language language' : Bytes} {r r1 r2 r3 : Position}
    (hhead : buf.head? = some msg.CHANNEL_OPEN_FAILURE)
    (hid : (reader buf 1).readU32 = .ok (id, r)) (hcode : r.readU32 = .ok (code, r1))
    (hreason : ChannelOpenFailure.fromU32 code = some reason)
    (hdescr : r1.readString = .ok (descr, r2)) (hdescr' : fromUtf8 descr = .ok descr')
    (hlanguage : r2.readString = .ok (language, r3))
    (hlanguage' : fromUtf8 language = .ok language') :
    InPacket buf (.channelOpenFailure id reason descr' language')
  /-- CHANNEL_DATA. -/
  | data {id : UInt32} {d : Bytes} {r r1 : Position} (hhead : buf.head? = some msg.CHANNEL_DATA)
    (hid : (reader buf 1).readU32 = .ok (id, r)) (hd : r.readString = .ok (d, r1)) :
    InPacket buf (.data id d)
  /-- CHANNEL_EXTENDED_DATA. -/
  | extendedData {id code : UInt32} {d : Bytes} {r r1 r2 : Position}
    (hhead : buf.head? = some msg.CHANNEL_EXTENDED_DATA)
    (hid : (reader buf 1).readU32 = .ok (id, r)) (hcode : r.readU32 = .ok (code, r1))
    (hd : r1.readString = .ok (d, r2)) : InPacket buf (.extendedData id code d)
  /-- Data after which the window is topped up. -/
  | adjustWindow {id current : UInt32} : InPacket buf (.adjustWindow id current)
  /-- CHANNEL_REQUEST. -/
  | request {id : UInt32} {req : Bytes} {r r1 : Position} {callback : Callback}
    (hhead : buf.head? = some msg.CHANNEL_REQUEST) (hid : (reader buf 1).readU32 = .ok (id, r))
    (hreq : r.readString = .ok (req, r1))
    (h : channelRequestCallback id req r1 = .ok (some callback)) : InPacket buf callback
  /-- CHANNEL_WINDOW_ADJUST. -/
  | windowAdjusted {id amount newSize : UInt32} {r r1 : Position}
    (hhead : buf.head? = some msg.CHANNEL_WINDOW_ADJUST)
    (hid : (reader buf 1).readU32 = .ok (id, r)) (hamount : r.readU32 = .ok (amount, r1)) :
    InPacket buf (.windowAdjusted id newSize)
  /-- CHANNEL_SUCCESS. -/
  | success {id : UInt32} {r : Position} (hhead : buf.head? = some msg.CHANNEL_SUCCESS)
    (hid : (reader buf 1).readU32 = .ok (id, r)) : InPacket buf (.channelSuccess id)
  /-- A question that is not about a channel of the table. -/
  | other {callback : Callback} (h : callback.channel = none) : InPacket buf callback

/-- Whether a packet is a readable request of an unknown type on a channel. -/
def UnknownRequest (buf : Bytes) (id : UInt32) : Prop :=
  buf.head? = some msg.CHANNEL_REQUEST ∧ ∃ r req r1,
    (reader buf 1).readU32 = .ok (id, r) ∧ r.readString = .ok (req, r1) ∧
    channelRequestCallback id req r1 = .ok none

/-- Whether a readable packet is about a channel. -/
inductive About (buf : Bytes) (id : UInt32) : Prop where
  /-- The application is to be told of the channel. -/
  | question {callback : Callback} (h : InPacket buf callback) (hid : callback.channel = some id)
  /-- A request of an unknown type. -/
  | unknown (h : UnknownRequest buf id)
  /-- A CHANNEL_FAILURE, which the client does not serve. -/
  | unserved {r : Position} (hhead : buf.head? = some msg.CHANNEL_FAILURE)
    (hid : (reader buf 1).readU32 = .ok (id, r))

/-- Whether a packet is about a channel that its branch does not look up, or
looks up with another error than WrongChannel. -/
def Trusts (buf : Bytes) (id : UInt32) : Prop :=
  buf.head? ≠ some msg.CHANNEL_WINDOW_ADJUST ∧
    ∃ callback, InPacket buf callback ∧ callback.channel = some id

/-- The question for a channel request is about its channel. -/
theorem channelRequestCallback_channel {id : UInt32} {req : Bytes} {r : Position}
    {callback : Callback} (h : channelRequestCallback id req r = .ok (some callback)) :
    callback.channel = some id := by
  unfold channelRequestCallback at h
  split at h
  · obtain ⟨_, -, h⟩ := ok_of_bind h
    obtain ⟨_, -, h⟩ := ok_of_bind h
    obtain ⟨_, -, h⟩ := ok_of_bind h
    obtain ⟨_, -, h⟩ := ok_of_bind h
    obtain ⟨_, -, h⟩ := ok_of_bind h
    obtain ⟨_, -, h⟩ := ok_of_bind h
    cases h
    rfl
  split at h
  · obtain ⟨_, -, h⟩ := ok_of_bind h
    obtain ⟨_, -, h⟩ := ok_of_bind h
    cases h
    rfl
  split at h
  · obtain ⟨_, -, h⟩ := ok_of_bind h
    obtain ⟨_, -, h⟩ := ok_of_bind h
    cases h
    rfl
  split at h
  · obtain ⟨_, -, h⟩ := ok_of_bind h
    obtain ⟨_, -, h⟩ := ok_of_bind h
    obtain ⟨_, -, h⟩ := ok_of_bind h
    obtain ⟨_, -, h⟩ := ok_of_bind h
    obtain ⟨_, -, h⟩ := ok_of_bind h
    obtain ⟨_, -, h⟩ := ok_of_bind h
    obtain ⟨_, -, h⟩ := ok_of_bind h
    obtain ⟨_, -, h⟩ := ok_of_bind h
    cases h
    rfl
  cases h

/-- Only CHANNEL_WINDOW_ADJUST has questions that its branch asks after such a lookup. -/
theorem InPacket.windowAdjust {buf : Bytes} {callback : Callback} {id : UInt32}
    (hhead : buf.head? = some msg.CHANNEL_WINDOW_ADJUST) (h : InPacket buf callback)
    (hid : callback.channel = some id) :
    ∃ r amount r1, (reader buf 1).readU32 = .ok (id, r) ∧ r.readU32 = .ok (amount, r1) := by
  have hne : ∀ {m : UInt8}, m ≠ msg.CHANNEL_WINDOW_ADJUST → buf.head? ≠ some m := by
    intro m hm hsome
    rw [hhead] at hsome
    exact hm (Option.some.inj hsome).symm
  cases h with
  | confirmation hhead' hread hother hwindow hmax => exact absurd hhead' (hne (by decide))
  | close hhead' hread => exact absurd hhead' (hne (by decide))
  | eof hhead' hread => exact absurd hhead' (hne (by decide))
  | openFailure hhead' hread hcode hreason hdescr hdescr' hlanguage hlanguage' =>
    exact absurd hhead' (hne (by decide))
  | data hhead' hread hd => exact absurd hhead' (hne (by decide))
  | extendedData hhead' hread hcode hd => exact absurd hhead' (hne (by decide))
  | adjustWindow => cases hid
  | request hhead' hread hreq h => exact absurd hhead' (hne (by decide))
  | windowAdjusted hhead' hread hamount => cases hid; exact ⟨_, _, _, hread, hamount⟩
  | success hhead' hread => exact absurd hhead' (hne (by decide))
  | other h => rw [h] at hid; cases hid

section
variable [Deps]

/-- Two sessions between which at most questions of a kind were asked. -/
def Poses (Q : Callback → Prop) (s t : Session) : Prop :=
  ∃ asked, t.callbacks = s.callbacks ++ asked ∧ ∀ p ∈ asked, Q p.1

section
variable {Q : Callback → Prop} {s t : Session} {buf : Bytes}

/-- Nothing is asked. -/
theorem Poses.silent (h : t.callbacks = s.callbacks) : Poses Q s t :=
  ⟨[], by rw [h, List.append_nil], by simp⟩

theorem Poses.trans {u : Session} (h : Poses Q s t) (h' : Poses Q t u) : Poses Q s u := by
  obtain ⟨asked, hasked, hkind⟩ := h
  obtain ⟨asked', hasked', hkind'⟩ := h'
  refine ⟨asked ++ asked', by rw [hasked', hasked, List.append_assoc], fun p hp => ?_⟩
  exact (List.mem_append.mp hp).elim (hkind p) (hkind' p)

/-- What a program asks from a session on. -/
theorem poses_final {α : Type} {x : M α} (hx : Moves (Poses Q) x) (s : Session) :
    Poses Q s (final (x s)) :=
  hx.invariant (p := Poses Q s) (fun _ _ hstep h => h.trans hstep) (.silent rfl)

/-- A program that moves in silence asks nothing of any kind. -/
theorem poses_of_silent {α : Type} {x : M α} (hx : Moves Silent x) : Moves (Poses Q) x :=
  hx.mono fun _ _ h => .single (.silent h)

theorem finish_poses {callback : Callback} (app : Application) (h : Q callback) :
    Moves (Poses Q) (finish app callback) :=
  fun s => .single ⟨_, finish_callbacks app callback s, by simpa using h⟩

theorem ask_poses {callback : Callback} (app : Application) (h : Q callback) :
    Moves (Poses Q) (ask app callback) :=
  fun _ => .single ⟨_, rfl, by simpa using h⟩

/-! ### What a packet about a channel asks -/

variable (app : Application)

theorem clientReadOpenConfirmation_poses
    (hhead : buf.head? = some msg.CHANNEL_OPEN_CONFIRMATION) :
    Moves (Poses (InPacket buf)) (clientReadOpenConfirmation app buf) := by
  refine .lift_bind fun ⟨id, r⟩ hid => .lift_bind fun ⟨other, r1⟩ hother => ?_
  refine .lift_bind fun ⟨window, r2⟩ hwindow => .lift_bind fun ⟨maxPacket, r3⟩ hmax => ?_
  refine .bind (poses_of_silent (onCommon_silent _)) fun _ => ?_
  exact finish_poses app (.confirmation hhead hid hother hwindow hmax)

theorem clientReadOpenFailure_poses (hhead : buf.head? = some msg.CHANNEL_OPEN_FAILURE) :
    Moves (Poses (InPacket buf)) (clientReadOpenFailure app buf) := by
  refine .lift_bind fun ⟨id, r⟩ hid => .lift_bind fun ⟨code, r1⟩ hcode => ?_
  dsimp only
  cases hreason : ChannelOpenFailure.fromU32 code with
  | none => exact .throw _
  | some reason =>
    refine .lift_bind fun ⟨descr, r2⟩ hdescr => .lift_bind fun descr' hdescr' => ?_
    refine .lift_bind fun ⟨language, r3⟩ hlanguage => .lift_bind fun language' hlanguage' => ?_
    refine .bind (poses_of_silent (modifyEnc_silent _)) fun _ => ?_
    exact finish_poses app
      (.openFailure hhead hid hcode hreason hdescr hdescr' hlanguage hlanguage')

theorem clientReceiveData_poses (id : UInt32) (data : Bytes) {callback : Callback}
    (h : InPacket buf callback) :
    Moves (Poses (InPacket buf)) (clientReceiveData app id data callback) := by
  refine Moves.get.bind fun s => ?_
  refine .bind (poses_of_silent (onCommon_silent _)) fun adjusted => ?_
  cases adjusted with
  | false => exact finish_poses app h
  | true =>
    refine .bind (ask_poses app .adjustWindow) fun answer => ?_
    by_cases hwindow : answer.window > 0
    · simp only [if_pos hwindow]
      refine .bind (poses_of_silent (modify_silent ?_)) fun _ => finish_poses app h
      exact fun _ => rfl
    · simp only [if_neg hwindow]
      exact finish_poses app h

theorem clientHandleChannelOpen_poses :
    Moves (Poses (InPacket buf)) (clientHandleChannelOpen app buf) := by
  refine .bind (.lift _) fun ⟨typ, r⟩ => .bind (.lift _) fun ⟨sender, r⟩ => ?_
  refine .bind (.lift _) fun ⟨window, r⟩ => .bind (.lift _) fun ⟨maxpacket, r⟩ => ?_
  dsimp only
  split
  · refine .bind (.lift _) fun ⟨address, r⟩ => .bind (.lift _) fun ⟨port, r⟩ => ?_
    refine .bind (.lift _) fun ⟨origAddr, r⟩ => .bind (.lift _) fun ⟨origPort, r⟩ => ?_
    exact finish_poses app (.other rfl)
  · exact poses_of_silent (push_silent _)

/-- What a packet of an authenticated session asks is read in the packet. -/
theorem clientReadAuthenticated_poses :
    Moves (Poses (InPacket buf)) (clientReadAuthenticated app buf) := by
  unfold clientReadAuthenticated
  by_cases hconfirmation : buf.head? = some msg.CHANNEL_OPEN_CONFIRMATION
  · rw [if_pos hconfirmation]
    exact clientReadOpenConfirmation_poses app hconfirmation
  rw [if_neg hconfirmation]
  by_cases hclose : buf.head? = some msg.CHANNEL_CLOSE
  · rw [if_pos hclose]
    refine .lift_bind fun ⟨id, r⟩ hid => .bind (poses_of_silent (modifyEnc_silent _)) fun _ => ?_
    exact finish_poses app (.close hclose hid)
  rw [if_neg hclose]
  by_cases heof : buf.head? = some msg.CHANNEL_EOF
  · rw [if_pos heof]
    exact .lift_bind fun ⟨id, r⟩ hid => finish_poses app (.eof heof hid)
  rw [if_neg heof]
  by_cases hfailure : buf.head? = some msg.CHANNEL_OPEN_FAILURE
  · rw [if_pos hfailure]
    exact clientReadOpenFailure_poses app hfailure
  rw [if_neg hfailure]
  by_cases hdata : buf.head? = some msg.CHANNEL_DATA
  · rw [if_pos hdata]
    refine .lift_bind fun ⟨id, r⟩ hid => .lift_bind fun ⟨d, r1⟩ hd => ?_
    exact clientReceiveData_poses app id d (.data hdata hid hd)
  rw [if_neg hdata]
  by_cases hextended : buf.head? = some msg.CHANNEL_EXTENDED_DATA
  · rw [if_pos hextended]
    refine .lift_bind fun ⟨id, r⟩ hid => .lift_bind fun ⟨code, r1⟩ hcode => ?_
    refine .lift_bind fun ⟨d, r2⟩ hd => ?_
    exact clientReceiveData_poses app id d (.extendedData hextended hid hcode hd)
  rw [if_neg hextended]
  by_cases hrequest : buf.head? = some msg.CHANNEL_REQUEST
  · rw [if_pos hrequest]
    refine .lift_bind fun ⟨id, r⟩ hid => .lift_bind fun ⟨req, r1⟩ hreq => ?_
    refine .lift_bind fun callback h => ?_
    cases callback with
    | some callback => exact finish_poses app (.request hrequest hid hreq h)
    | none => exact .pure _
  rw [if_neg hrequest]
  by_cases hadjust : buf.head? = some msg.CHANNEL_WINDOW_ADJUST
  · rw [if_pos hadjust]
    refine .lift_bind fun ⟨id, r⟩ hid => .lift_bind fun ⟨amount, r1⟩ hamount => ?_
    refine .bind (poses_of_silent (onCommon_silent _)) fun _ => ?_
    exact finish_poses app (.windowAdjusted hadjust hid hamount)
  rw [if_neg hadjust]
  by_cases hglobal : buf.head? = some msg.GLOBAL_REQUEST
  · rw [if_pos hglobal]
    exact .bind (.lift _) fun _ => .pure _
  rw [if_neg hglobal]
  by_cases hsuccess : buf.head? = some msg.CHANNEL_SUCCESS
  · rw [if_pos hsuccess]
    exact .lift_bind fun ⟨id, r⟩ hid => finish_poses app (.success hsuccess hid)
  rw [if_neg hsuccess]
  by_cases hopen : buf.head? = some msg.CHANNEL_OPEN
  · rw [if_pos hopen]
    exact clientHandleChannelOpen_poses app
  rw [if_neg hopen]
  exact .pure _

/-! ### What the other packets ask -/

/-- A question that is about no channel. -/
def Apart (callback : Callback) : Prop := callback.channel = none

/-- A step of the session that asks nothing. -/
theorem step_silent {α : Type} {x : M α} (h : ∀ s, (final (x s)).callbacks = s.callbacks) :
    Moves Silent x := fun s => .single (h s)

theorem sendReply_silent (reply : Reply) : Moves Silent (sendReply app reply) :=
  step_silent fun s => by
    unfold sendReply
    split
    · rfl
    · rfl

theorem setAuthMethod_silent (method : Option Method) : Moves Silent (setAuthMethod method) :=
  modify_silent fun _ => rfl

theorem clientAwaitSignature_silent (key : PublicKey) :
    Moves Silent (clientAwaitSignature app key) := by
  refine getEnc_moves.bind fun enc => Moves.get.bind fun s => ?_
  refine .bind (modify_silent fun _ => rfl) fun _ => ?_
  refine .bind (sendReply_silent app _) fun _ => ?_
  refine .bind (step_silent fun _ => rfl) fun messages => .bind (.lift _) fun data => ?_
  refine .bind (modify_silent fun _ => rfl) fun _ => ?_
  split
  · exact .bind (.lift _) fun body => modifyEnc_silent _
  · exact .pure _

theorem clientReadPkOk_silent : Moves Silent (clientReadPkOk app) := by
  refine .bind (modifyEnc_silent _) fun _ => Moves.get.bind fun s => getEnc_moves.bind fun enc => ?_
  refine .bind (setAuthMethod_silent none) fun _ => ?_
  split
  · exact .bind (.lift _) fun packet => push_silent _
  · exact clientAwaitSignature_silent app _
  · exact .pure _

theorem clientReadServiceAccept_silent : Moves Silent (clientReadServiceAccept buf) := by
  unfold clientReadServiceAccept
  split
  · refine .bind (.lift _) fun ⟨service, r⟩ => ?_
    dsimp only
    split
    · refine .bind (modifyEnc_silent _) fun _ => Moves.get.bind fun s => ?_
      cases s.common.authMethod with
      | none => exact .pure _
      | some method => exact (push_silent _).bind fun _ => modifyEnc_silent _
    · exact .pure _
  · exact .throw _

/-- In the dialogue at most a banner is shown. -/
theorem clientReadWaitingAuth_poses : Moves (Poses Apart) (clientReadWaitingAuth app buf) := by
  unfold clientReadWaitingAuth
  split
  · exact poses_of_silent ((sendReply_silent app _).bind fun _ => modifyEnc_silent _)
  · split
    · refine .bind (.lift _) fun ⟨banner, r⟩ => ?_
      dsimp only
      split
      · exact finish_poses app rfl
      · exact .pure _
    · split
      · refine poses_of_silent (.bind (.lift _) fun ⟨methods, r⟩ => ?_)
        refine .bind (modifyEnc_silent _) fun _ => .bind (setAuthMethod_silent none) fun _ => ?_
        refine .bind (sendReply_silent app _) fun _ => ?_
        split
        · exact .throw _
        · exact .pure _
      · split
        · exact poses_of_silent (clientReadPkOk_silent app)
        · exact .throw _

theorem serverKeyCheck_poses (k : KexDhDone) (rekey : Bool) :
    Moves (Poses Apart) (serverKeyCheck app k rekey buf) := by
  refine .bind (.lift _) fun ⟨blob, r⟩ => .bind (.lift _) fun pubkey => ?_
  cases rekey with
  | true => exact .lift _
  | false =>
    refine .bind ?_ fun checked => ?_
    · refine .bind (ask_poses app rfl) fun answer => ?_
      split
      · exact .throw _
      · exact .pure _
    · cases checked with
      | true => exact .lift _
      | false => exact .throw _

theorem runClientParse_silent (k : KexInit) : Moves Silent (runClientParse k buf) :=
  Moves.get.bind fun _ => .bind (onCommon_silent _) fun _ => onCommon_silent _

theorem sealPacket_silent (origin : Origin) (payload : Bytes) :
    Moves Silent (sealPacket origin payload) :=
  Moves.get.bind fun _ => onCommon_silent _

theorem clientReadKexInit_silent : Moves Silent (clientReadKexInit buf) := by
  refine getEnc_moves.bind fun enc => .bind (modifyEnc_silent _) fun _ => ?_
  split
  · refine (runClientParse_silent _).bind fun kex => .bind (modifyEnc_silent _) fun _ => ?_
    exact onCommon_silent _
  · split
    · refine .bind (modifyEnc_silent _) fun _ => Moves.get.bind fun s => .bind (.lift _) fun algo => ?_
      exact (runClientParse_silent _).bind fun kex => modifyEnc_silent _
    · exact .pure _

theorem clientReadRekey_poses (k : KexDhDone) :
    Moves (Poses Apart) (clientReadRekey app k buf) := by
  refine .bind (poses_of_silent (modifyEnc_silent _)) fun _ => ?_
  split
  · exact poses_of_silent (modifyEnc_silent _)
  · split
    · refine (serverKeyCheck_poses app k true).bind fun kex => poses_of_silent ?_
      refine .bind (modifyEnc_silent _) fun _ => (sealPacket_silent _ _).bind fun _ => ?_
      exact onCommon_silent _
    · exact .throw _

theorem clientInstall_silent (newkeys : NewKeys) : Moves Silent (clientInstall newkeys) := by
  refine .bind (modify_silent fun _ => rfl) fun _ => .bind (onCommon_silent _) fun now => ?_
  exact .bind (modifyEnc_silent _) fun _ => modify_silent fun _ => rfl

theorem installFirst_silent (newkeys : NewKeys) : Moves Silent (installFirst newkeys) := by
  refine Moves.get.bind fun s => .bind (onCommon_silent _) fun now => ?_
  refine .bind (modify_silent fun _ => rfl) fun _ => ?_
  split
  · exact sealPacket_silent _ _
  · exact .pure _

/-- A packet of the first exchange asks at most about the server's key. -/
theorem reply_first_poses {k : Kex} (hk : s.common.kex = some k) :
    Poses Apart s (final (reply app buf s)) := by
  have htake : Moves Silent takeKex := modify_silent fun _ => rfl
  have hset : ∀ kex, Moves Silent (setKex kex) := fun kex => modify_silent fun _ => rfl
  unfold reply
  rw [run_bind, run_get]
  dsimp only
  rw [hk]
  refine poses_final ?_ s
  cases k with
  | kexInit k =>
    refine (poses_of_silent htake).bind fun _ => ?_
    split
    · refine poses_of_silent ((runClientParse_silent k).bind fun kex => ?_)
      exact (hset _).bind fun _ => onCommon_silent _
    · exact .pure _
  | kexDh k => exact .pure _
  | kexDhDone k =>
    refine (poses_of_silent htake).bind fun _ => ?_
    split
    · exact poses_of_silent (hset _)
    · split
      · refine (serverKeyCheck_poses app k false).bind fun kex => poses_of_silent ?_
        exact (hset _).bind fun _ => (sealPacket_silent _ _).bind fun _ => onCommon_silent _
      · exact .throw _
  | newKeys k =>
    refine (poses_of_silent htake).bind fun _ => ?_
    split
    · exact poses_of_silent (installFirst_silent k)
    · exact .throw _

/-- A packet of a key exchange asks at most about the server's key. -/
theorem reply_exchange_poses (hs : s.common.Sound) (hin : s.common.InExchange buf) :
    Poses Apart s (final (reply app buf s)) := by
  cases hk : s.common.kex with
  | some k => exact reply_first_poses app hk
  | none =>
    have hrun : reply app buf s = clientReadEncrypted app buf s := by
      simp only [reply, run_bind, run_get, hk]
    rw [hrun]
    by_cases hhead : buf.head? = some msg.KEXINIT
    · have hkexinit : clientReadEncrypted app buf = clientReadKexInit buf := by
        unfold clientReadEncrypted
        rw [if_pos hhead]
      rw [hkexinit]
      exact poses_final (poses_of_silent clientReadKexInit_silent) s
    cases henc : s.common.encrypted with
    | none =>
      simp only [clientReadEncrypted, if_neg hhead, run_bind, run_get, henc]
      exact .silent rfl
    | some enc =>
      have hlate : s.common.phase = .dh ∨ s.common.phase = .newKeys := by
        simpa only [CommonSession.InExchange, henc, reduceCtorEq, hhead, false_or] using hin
      simp only [clientReadEncrypted, if_neg hhead, run_bind, run_get, henc]
      cases hrekey : enc.rekey with
      | none =>
        simp only [CommonSession.phase, henc, Encrypted.phase, hrekey] at hlate
        split at hlate <;> simp at hlate
      | some kex =>
        have hexchanging : s.common.exchanging = some kex := (exchanging_some henc).trans hrekey
        have hfits := hs.fits kex hexchanging
        rw [phase_of_exchanging hexchanging] at hlate
        cases kex with
        | kexInit k => simp [Kex.phase] at hlate
        | kexDh k => exact hfits.elim
        | kexDhDone k => exact poses_final (clientReadRekey_poses app k) s
        | newKeys k =>
          refine poses_final (poses_of_silent (.bind (modifyEnc_silent _) fun _ => ?_)) s
          split
          · exact clientInstall_silent k
          · exact .throw _

/-! ### Channels of the table -/

/-- A session of the client whose authentication is over. -/
def Session.Settled (s : Session) : Prop :=
  ∃ enc, s.common.encrypted = some enc ∧ enc.state = .authenticated

/-- What serving a packet does about channels: the application is asked only
about those in the table, and a packet about another one fails or is ignored. -/
structure TellsKnown (s : Session) (buf : Bytes) : Prop where
  /-- The questions are about channels of the table. -/
  asks : Poses (fun callback => ∀ id, callback.channel = some id → s.common.Knows id) s
    (final (reply app buf s))
  /-- A packet about a channel that is not in the table. -/
  unknown : s.Settled → ¬ s.common.InExchange buf → ∀ id, About buf id → ¬ s.common.Knows id →
    (∃ t, reply app buf s = .error (.error .wrongChannel) t) ∨ reply app buf s = .ok () s

/-- Whether a packet whose branch trusts the channel it names, names one of the table. -/
def NamesKnown (s : Session) (buf : Bytes) : Prop :=
  s.Settled → ¬ s.common.InExchange buf → ∀ id, Trusts buf id → s.common.Knows id

/-- The packets of an authenticated session are served by one function. -/
theorem clientReadState_settled (h : s.Settled) :
    clientReadState app buf s = clientReadAuthenticated app buf s := by
  obtain ⟨enc, henc, hstate⟩ := h
  simp only [clientReadState, run_bind, run_get, henc, hstate]

/-- A window adjustment for a channel that is not in the table fails. -/
theorem windowAdjust_wrongChannel {id amount : UInt32} {r r1 : Position} (hsettled : s.Settled)
    (hhead : buf.head? = some msg.CHANNEL_WINDOW_ADJUST)
    (hid : (reader buf 1).readU32 = .ok (id, r)) (hamount : r.readU32 = .ok (amount, r1))
    (hunknown : ¬ s.common.Knows id) :
    clientReadAuthenticated app buf s = .error (.error .wrongChannel) s := by
  obtain ⟨enc, henc, -⟩ := hsettled
  have hnone : enc.channels id = none := by
    cases hch : enc.channels id with
    | none => rfl
    | some ch => exact absurd ⟨enc, ch, henc, hch⟩ hunknown
  have hserved : clientReadAuthenticated app buf s = clientReadWindowAdjust app buf s := by
    unfold clientReadAuthenticated
    rw [hhead]
    rfl
  have hfails : enc.adjustRecipientWindow id amount = .error (.error .wrongChannel) := by
    simp only [Encrypted.adjustRecipientWindow, hnone]
  rw [hserved]
  unfold clientReadWindowAdjust
  rw [run_bind, run_lift hid]
  dsimp only
  rw [run_bind, run_lift hamount]
  dsimp only
  simp only [run_bind, onCommon, zoom, withEnc, run_get, henc, hfails, run_lift_error]

/-- A request of an unknown type is ignored. -/
theorem unknownRequest_ignored {id : UInt32} (h : UnknownRequest buf id) :
    clientReadAuthenticated app buf s = .ok () s := by
  obtain ⟨hhead, r, req, r1, hid, hreq, hnone⟩ := h
  have hserved : clientReadAuthenticated app buf s = clientReadChannelRequest app buf s := by
    unfold clientReadAuthenticated
    rw [hhead]
    rfl
  rw [hserved]
  unfold clientReadChannelRequest
  rw [run_bind, run_lift hid]
  dsimp only
  rw [run_bind, run_lift hreq]
  dsimp only
  rw [run_bind, run_lift hnone]
  rfl

/-- A CHANNEL_FAILURE is ignored. -/
theorem channelFailure_ignored (hhead : buf.head? = some msg.CHANNEL_FAILURE) :
    clientReadAuthenticated app buf s = .ok () s := by
  unfold clientReadAuthenticated
  rw [hhead]
  rfl

/-- The application is told of channels only when a packet of a settled session
is served, and only what the packet says. -/
theorem reply_poses (hsound : s.common.Sound) :
    Poses (fun callback => callback.channel = none ∨
      s.Settled ∧ ¬ s.common.InExchange buf ∧ InPacket buf callback) s
      (final (reply app buf s)) := by
  have hapart : ∀ {t : Session}, Poses Apart s t → Poses (fun callback => callback.channel = none ∨
      s.Settled ∧ ¬ s.common.InExchange buf ∧ InPacket buf callback) s t := by
    rintro t ⟨asked, hasked, hkind⟩
    exact ⟨asked, hasked, fun p hp => .inl (hkind p hp)⟩
  by_cases hin : s.common.InExchange buf
  · exact hapart (reply_exchange_poses app hsound hin)
  cases henc : s.common.encrypted with
  | none => exact absurd (.inl henc) hin
  | some enc =>
    rw [reply_state app hsound hin]
    cases hstate : enc.state with
    | waitingServiceRequest sent accepted =>
      have hrun : clientReadState app buf s = clientReadServiceAccept buf s := by
        simp only [clientReadState, run_bind, run_get, henc, hstate]
      rw [hrun]
      exact hapart (poses_final (poses_of_silent clientReadServiceAccept_silent) s)
    | waitingAuthRequest auth =>
      have hrun : clientReadState app buf s = clientReadWaitingAuth app buf s := by
        simp only [clientReadState, run_bind, run_get, henc, hstate]
      rw [hrun]
      exact hapart (poses_final (clientReadWaitingAuth_poses app) s)
    | initCompression =>
      have hrun : clientReadState app buf s = .error .panic s := by
        simp only [clientReadState, run_bind, run_get, henc, hstate, run_throw]
      rw [hrun]
      exact .silent rfl
    | authenticated =>
      have hsettled : s.Settled := ⟨enc, henc, hstate⟩
      rw [clientReadState_settled app hsettled]
      obtain ⟨asked, hasked, hkind⟩ := poses_final (clientReadAuthenticated_poses app) s
      exact ⟨asked, hasked, fun p hp => .inr ⟨hsettled, hin, hkind p hp⟩⟩

/-- A packet that trusts only channels of the table tells the application of no other. -/
theorem tellsKnown_of_namesKnown (hsound : s.common.Sound) (h : NamesKnown s buf) :
    TellsKnown app s buf := by
  constructor
  · have hposes : Poses (fun callback => callback.channel = none ∨
        s.Settled ∧ ¬ s.common.InExchange buf ∧ InPacket buf callback) s
        (final (reply app buf s)) := reply_poses app hsound
    obtain ⟨asked, hasked, hkind⟩ := hposes
    refine ⟨asked, hasked, fun p hp id hid => ?_⟩
    rcases hkind p hp with hnone | ⟨hsettled, hin, hpacket⟩
    · rw [hnone] at hid
      cases hid
    by_cases hhead : buf.head? = some msg.CHANNEL_WINDOW_ADJUST
    · -- the branch looks the channel up before it asks
      by_contra hunknown
      obtain ⟨r, amount, r1, hread, hamount⟩ := hpacket.windowAdjust hhead hid
      rw [reply_state app hsound hin, clientReadState_settled app hsettled,
        windowAdjust_wrongChannel app hsettled hhead hread hamount hunknown, final_error,
        List.self_eq_append_right] at hasked
      rw [hasked] at hp
      cases hp
    · exact h hsettled hin id ⟨hhead, p.1, hpacket, hid⟩
  · intro hsettled hin id habout hunknown
    rw [reply_state app hsound hin, clientReadState_settled app hsettled]
    cases habout with
    | question hquestion hid =>
      by_cases hhead : buf.head? = some msg.CHANNEL_WINDOW_ADJUST
      · obtain ⟨r, amount, r1, hread, hamount⟩ := hquestion.windowAdjust hhead hid
        exact .inl ⟨s, windowAdjust_wrongChannel app hsettled hhead hread hamount hunknown⟩
      · exact absurd (h hsettled hin id ⟨hhead, _, hquestion, hid⟩) hunknown
    | unknown hrequest => exact .inr (unknownRequest_ignored app hrequest)
    | unserved hhead hread => exact .inr (channelFailure_ignored app hhead)

end

end

end Thrussh.Client
