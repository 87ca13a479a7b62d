import Thrussh.Server.Run
import Thrussh.Turn

/-!
# How the server's programs move a session

Every program of the server that serves a packet outside the key exchange,
or a local message, moves its session by quiet steps, flushes and steps of
the authentication. Callbacks are only added.
-/

namespace Thrussh.Server

open Deps Lib

variable [Deps]

/-- Two sessions whose common parts are related, the later one with more callbacks. -/
structure Over (q : CommonSession Config → CommonSession Config → Prop) (s t : Session) : Prop where
  /-- The common parts are related. -/
  common : q s.common t.common
  /-- Callbacks are added. -/
  callbacks : s.callbacks <+: t.callbacks

variable {P : Bytes → Prop} {q : CommonSession Config → CommonSession Config → Prop}

/-- A program on the common part moves the session when it is one quiet step. -/
theorem onCommon_quiet [Quietly P q] {α : Type} {x : CommonM Config α}
    (h : ∀ s, Quiet P s (final (x s))) : Moves (Over q) (onCommon x) :=
  Moves.zoom (q := q) (fun s => .single (Quietly.quiet (h s)))
    (fun _ _ _ h => .single ⟨h, List.prefix_rfl⟩) fun _ => rfl

/-- A flush moves the session. -/
theorem flush_moves [Calling P q] : Moves (Over q) (onCommon flush) :=
  Moves.zoom (q := q) (fun _ => .single Calling.call)
    (fun _ _ _ h => .single ⟨h, List.prefix_rfl⟩) fun _ => rfl

/-- A quiet change of the session. -/
theorem modify_quiet [Quietly P q] {f : Session → Session}
    (h : ∀ s, Quiet P s.common (f s).common) (hcallbacks : ∀ s, (f s).callbacks = s.callbacks) :
    Moves (Over q) (modify f : M Unit) :=
  Moves.modify fun s => .single
    ⟨Quietly.quiet (h s), by simp only [hcallbacks, List.prefix_rfl]⟩

/-- A quiet change of `enc`. -/
theorem modifyEnc_quiet [Quietly P q] {f : Encrypted → Encrypted}
    (h : ∀ enc, QuietEnc P enc (f enc)) : Moves (Over q) (modifyEnc f) :=
  modify_quiet (fun s => .modifyEnc s.common h) fun _ => rfl

/-- A change of the stage. -/
theorem modifyEnc_staged [Staging P q] {f : Encrypted → Encrypted}
    (h : ∀ enc, StagedEnc enc (f enc)) : Moves (Over q) (modifyEnc f) :=
  Moves.modify fun s => .single ⟨Staging.staged (.modifyEnc s.common h), List.prefix_rfl⟩

theorem getEnc_moves {r : Session → Session → Prop} : Moves r getEnc := by
  refine Moves.get.bind fun s => ?_
  cases s.common.encrypted with
  | none => exact .throw _
  | some enc => exact .pure _

theorem assertEncrypted_moves {r : Session → Session → Prop} : Moves r assertEncrypted := by
  refine Moves.get.bind fun s => ?_
  split
  · exact .pure _
  · exact .throw _

theorem ask_moves [Quietly P q] (handler : Handler) (callback : Callback) :
    Moves (Over q) (ask handler callback) :=
  fun s => .single ⟨Quietly.quiet (.fields s.common _ _ _), List.prefix_append _ _⟩

theorem askAuth_moves [Quietly P q] (handler : Handler) (callback : Callback) :
    Moves (Over q) (askAuth handler callback) := by
  refine (ask_moves handler callback).bind fun answer => ?_
  split
  · exact .throw _
  · exact .pure _

theorem getAuth_moves {r : Session → Session → Prop} : Moves r getAuth := by
  refine getEnc_moves.bind fun enc => ?_
  split
  · exact .pure _
  · exact .throw _

theorem setAuthUser_moves [Staging P q] (user : Bytes) : Moves (Over q) (setAuthUser user) :=
  Moves.modify fun s => .single ⟨Staging.staged (.request s.common user _), List.prefix_rfl⟩

theorem modifyAuth_moves [Staging P q] (f : AuthRequest → AuthRequest) :
    Moves (Over q) (modifyAuth f) := by
  refine modifyEnc_staged fun enc => ?_
  split
  · exact ⟨rfl, fun h => ⟨h.server, h.client, h.compress, h.decompress⟩⟩
  · exact ⟨rfl, id⟩

theorem setState_moves [Staging P q] (state : EncryptedState) :
    Moves (Over q) (modifyEnc fun enc => { enc with state := state }) :=
  modifyEnc_staged fun _ => ⟨rfl, fun h => ⟨h.server, h.client, h.compress, h.decompress⟩⟩

theorem initDecompress_moves [Staging P q] : Moves (Over q) initDecompress := by
  refine modifyEnc_staged fun enc => ?_
  split
  · refine ⟨rfl, fun h => ⟨h.server, h.client, h.compress, ?_⟩⟩
    simp only [h.client, Compression.initDecompress]
  · exact ⟨rfl, id⟩

section
variable (hP : ∀ body : Bytes, ConnectionPacket body → P body)

include hP

section
variable [Quietly P q]

theorem push_moves {m : UInt8} {rest : Bytes} (h : OfConnection m ∧ Dataless m) :
    Moves (Over q) (push (m :: rest)) :=
  modifyEnc_quiet fun enc => push_quiet hP enc h

/-! ### Calls on the session -/

theorem requestSuccess_moves : Moves (Over q) requestSuccess := by
  refine Moves.get.bind fun s => ?_
  split
  · split
    · refine .bind (modify_quiet (fun s => .fields s.common _ _ _) fun _ => rfl) fun _ => ?_
      exact push_moves hP (by decide)
    · exact .pure _
  · exact .pure _

theorem requestFailure_moves : Moves (Over q) requestFailure := by
  refine Moves.get.bind fun s => ?_
  split
  · refine .bind (modify_quiet (fun s => .fields s.common _ _ _) fun _ => rfl) fun _ => ?_
    exact push_moves hP (by decide)
  · exact .pure _

theorem channelReply_moves {m : UInt8} (hm : OfConnection m ∧ Dataless m) (channel : UInt32) :
    Moves (Over q) (channelReply m channel) := by
  refine onCommon_quiet (updateEnc_quiet fun enc enc' h => ?_)
  cases hch : enc.channels channel with
  | none =>
    rw [hch] at h
    cases h
    exact .refl enc
  | some ch =>
    rw [hch] at h
    dsimp only at h
    split at h
    · split at h
      · cases h
        refine .trans ?_ (push_quiet hP _ hm)
        exact .setChannel enc hch rfl
      · cases h
        exact .refl enc
    · cases h

theorem confirmedRequest_moves (channel : UInt32) (name rest : Bytes) :
    Moves (Over q) (confirmedRequest channel name rest) := by
  refine onCommon_quiet (updateEnc_quiet fun enc enc' h => ?_)
  cases hch : enc.channels channel with
  | none =>
    rw [hch] at h
    cases h
    exact .refl enc
  | some ch =>
    rw [hch] at h
    dsimp only at h
    split at h
    · cases h
      exact push_quiet hP enc (m := msg.CHANNEL_REQUEST) (by decide)
    · cases h

theorem data_moves (channel : UInt32) (d : Bytes) : Moves (Over q) (data channel d) :=
  assertEncrypted_moves.bind fun _ => onCommon_quiet (updateEnc_quiet fun _ _ h => data_quiet hP h)

theorem extendedData_moves (channel extended : UInt32) (d : Bytes) :
    Moves (Over q) (extendedData channel extended d) :=
  assertEncrypted_moves.bind fun _ =>
    onCommon_quiet (updateEnc_quiet fun _ _ h => extendedData_quiet hP h)

/-- `CommonSession::byte` is one quiet step. -/
theorem byte_moves (channel : UInt32) {m : UInt8} (hm : OfConnection m) :
    Moves (Over q) (onCommon (modify (·.byte channel m))) :=
  onCommon_quiet fun s => .modifyEnc s fun enc => byte_quiet hP enc channel hm

theorem eof_moves (channel : UInt32) : Moves (Over q) (eof channel) :=
  onCommon_quiet fun s => .modifyEnc s fun enc => eof_quiet hP enc channel

theorem channelOpenForwardedTcpip_moves (connectedAddress : Bytes) (connectedPort : UInt32)
    (originatorAddress : Bytes) (originatorPort : UInt32) :
    Moves (Over q) (channelOpenForwardedTcpip connectedAddress connectedPort originatorAddress
      originatorPort) := by
  refine Moves.get.bind fun s => onCommon_quiet (updateEnc_quiet fun enc enc' h => ?_)
  split at h
  · simp only [bind, Except.bind] at h
    split at h
    · cases h
    · rename_i res hnew
      cases h
      exact (newChannel_quiet hnew).trans (push_quiet hP _ (m := msg.CHANNEL_OPEN) (by decide))
  · cases h
    exact .refl enc

theorem confirmChannelOpen_moves {channel : Channel} (h : channel.pendingData = []) :
    Moves (Over q) (confirmChannelOpen channel) := by
  refine Moves.get.bind fun s => modifyEnc_quiet fun enc => ?_
  exact (push_quiet hP enc (m := msg.CHANNEL_OPEN_CONFIRMATION) (by decide)).trans
    (.insertChannel _ _ h)

/-- Every local message moves the session. -/
theorem message_moves (m : Option (UInt32 × ChannelMsg)) : Moves (Over q) (message m) := by
  cases m with
  | none => exact .pure _
  | some p =>
    obtain ⟨id, m⟩ := p
    cases m with
    | data d => exact (data_moves hP id d).bind fun _ => .pure _
    | extendedData d ext => exact (extendedData_moves hP id ext d).bind fun _ => .pure _
    | eof => exact (eof_moves hP id).bind fun _ => .pure _
    | xonXoff clientCanDo => exact (confirmedRequest_moves hP id _ _).bind fun _ => .pure _
    | exitStatus exitStatus => exact (confirmedRequest_moves hP id _ _).bind fun _ => .pure _
    | exitSignal signalName coreDumped errorMessage langTag =>
      exact (confirmedRequest_moves hP id _ _).bind fun _ => .pure _
    | windowAdjusted newSize => exact .bind (.pure _) fun _ => .pure _
    | success => exact .bind (.pure _) fun _ => .pure _

end

section
variable [Calling P q]

/-- Every call a handler can make moves the session. -/
theorem runCall_moves (call : Call) : Moves (Over q) (runCall call) := by
  cases call with
  | flush => exact flush_moves
  | flushPending channel =>
    refine onCommon_quiet (updateEnc_quiet fun enc enc' h => ?_)
    simp only [bind, Except.bind] at h
    split at h
    · cases h
    · rename_i res hflush
      cases h
      exact flushPending_quiet hP hflush
  | disconnect reason description languageTag =>
    refine onCommon_quiet fun s => .disconnect s reason description languageTag fun body hbody => ?_
    exact hP body ⟨msg.DISCONNECT, hbody, by decide⟩
  | requestSuccess => exact requestSuccess_moves hP
  | requestFailure => exact requestFailure_moves hP
  | channelSuccess channel => exact channelReply_moves hP (by decide) channel
  | channelFailure channel => exact channelReply_moves hP (by decide) channel
  | channelOpenFailure channel reason description language =>
    exact push_moves hP (m := msg.CHANNEL_OPEN_FAILURE) (by decide)
  | close channel => exact byte_moves hP channel (by decide)
  | eof channel => exact eof_moves hP channel
  | data channel d => exact data_moves hP channel d
  | extendedData channel extended d => exact extendedData_moves hP channel extended d
  | xonXoffRequest channel clientCanDo => exact confirmedRequest_moves hP channel _ _
  | exitStatusRequest channel exitStatus => exact confirmedRequest_moves hP channel _ _
  | exitSignalRequest channel signal coreDumped errorMessage languageTag =>
    exact confirmedRequest_moves hP channel _ _
  | channelOpenForwardedTcpip connectedAddress connectedPort originatorAddress originatorPort =>
    exact channelOpenForwardedTcpip_moves hP _ _ _ _

/-- A method of the handler moves the session by the calls it makes. -/
theorem finished_moves (handler : Handler) (callback : Callback) :
    Moves (Over q) (finished handler callback) := by
  refine (ask_moves handler callback).bind fun answer => ?_
  refine (Moves.forM (runCall_moves hP) answer.calls).bind fun _ => ?_
  split
  · exact .throw _
  · exact .pure _

theorem finish_moves (handler : Handler) (callback : Callback) :
    Moves (Over q) (finish handler callback) :=
  (finished_moves hP handler callback).bind fun _ => .pure _

/-! ### Packets of an authenticated session -/

theorem serverHandleChannelOpen_moves (handler : Handler) (buf : Bytes) :
    Moves (Over q) (serverHandleChannelOpen handler buf) := by
  refine .bind (.lift _) fun ⟨typ, r⟩ => .bind (.lift _) fun ⟨sender, r⟩ => ?_
  refine .bind (.lift _) fun ⟨window, r⟩ => .bind (.lift _) fun ⟨maxpacket, r⟩ => ?_
  refine .bind (onCommon_quiet (withEnc_quiet fun _ _ _ h => newChannelId_quiet h)) fun id => ?_
  refine Moves.get.bind fun s => ?_
  dsimp only
  split
  · exact (confirmChannelOpen_moves hP rfl).bind fun _ => finish_moves hP handler _
  · split
    · refine (confirmChannelOpen_moves hP rfl).bind fun _ => .bind (.lift _) fun ⟨a, r⟩ => ?_
      refine .bind (.lift _) fun a => .bind (.lift _) fun ⟨b, r⟩ => ?_
      exact finish_moves hP handler _
    · split
      · refine (confirmChannelOpen_moves hP rfl).bind fun _ => .bind (.lift _) fun ⟨a, r⟩ => ?_
        refine .bind (.lift _) fun a => .bind (.lift _) fun ⟨b, r⟩ => ?_
        refine .bind (.lift _) fun ⟨c, r⟩ => .bind (.lift _) fun c => ?_
        exact .bind (.lift _) fun ⟨d, r⟩ => finish_moves hP handler _
      · exact push_moves hP (m := msg.CHANNEL_OPEN_FAILURE) (by decide)

theorem serverReadChannelClose_moves (handler : Handler) (buf : Bytes) :
    Moves (Over q) (serverReadChannelClose handler buf) := by
  refine .bind (.lift _) fun ⟨channelNum, r⟩ => ?_
  exact (modifyEnc_quiet fun enc => .removeChannel enc _).bind fun _ => finish_moves hP handler _

theorem serverReadChannelEof_moves (handler : Handler) (buf : Bytes) :
    Moves (Over q) (serverReadChannelEof handler buf) :=
  .bind (.lift _) fun ⟨_, _⟩ => finish_moves hP handler _

/-- What the server does with data once they are taken off the window. -/
theorem afterData_moves (handler : Handler) (callback : Callback) (channelNum target : UInt32)
    (adjusted : Bool) : Moves (Over q) (do
      if adjusted then do
        let answer ← ask handler (.adjustWindow channelNum target)
        if answer.window > 0 then modify fun s => { s with targetWindowSize := answer.window }
        else pure ()
      else pure ()
      onCommon flush
      finish handler callback) := by
  have hrest : Moves (Over q) (do onCommon flush; finish handler callback) :=
    flush_moves.bind fun _ => finish_moves hP handler _
  cases adjusted with
  | false => exact hrest
  | true =>
    refine .bind (ask_moves handler _) fun answer => ?_
    by_cases hwindow : answer.window > 0
    · simp only [if_pos hwindow]
      exact .bind (modify_quiet (fun s => .refl s.common) fun _ => rfl) fun _ => hrest
    · simp only [if_neg hwindow]
      exact hrest

theorem serverReadData_moves (handler : Handler) (buf : Bytes) :
    Moves (Over q) (serverReadData handler buf) := by
  refine .bind (.lift _) fun ⟨channelNum, r⟩ => .bind (.lift _) fun ⟨ext, r⟩ => ?_
  refine .bind (.lift _) fun ⟨data, r⟩ => Moves.get.bind fun s => ?_
  refine .bind (onCommon_quiet (withEnc_quiet fun enc a enc' h => ?_)) fun adjusted => ?_
  · cases h
    exact adjustWindowSize_quiet hP enc _ _ _
  · exact afterData_moves hP handler _ channelNum _ adjusted

theorem serverReadWindowAdjust_moves (handler : Handler) (buf : Bytes) :
    Moves (Over q) (serverReadWindowAdjust handler buf) := by
  refine .bind (.lift _) fun ⟨channelNum, r⟩ => .bind (.lift _) fun ⟨amount, r⟩ => ?_
  refine .bind (onCommon_quiet (withEnc_quiet fun _ _ _ h => adjustRecipientWindow_quiet h))
    fun _ => ?_
  exact finish_moves hP handler _

theorem serverReadChannelRequest_moves (handler : Handler) (buf : Bytes) :
    Moves (Over q) (serverReadChannelRequest handler buf) := by
  refine .bind (.lift _) fun ⟨channelNum, r⟩ => .bind (.lift _) fun ⟨reqType, r⟩ => ?_
  refine .bind (.lift _) fun ⟨wantsReply, r⟩ => ?_
  refine .bind (modifyEnc_quiet fun enc => ?_) fun _ => .bind (.lift _) fun callback => ?_
  · split
    · rename_i ch hch
      exact .setChannel enc hch rfl
    · exact .refl enc
  · cases callback with
    | some callback => exact finish_moves hP handler _
    | none => exact push_moves hP (by decide)

theorem serverReplyForward_moves (handler : Handler) (callback : Callback) :
    Moves (Over q) (serverReplyForward handler callback) := by
  refine (finished_moves hP handler callback).bind fun result => ?_
  split
  · exact push_moves hP (by decide)
  · exact push_moves hP (by decide)

theorem serverReadGlobalRequest_moves (handler : Handler) (buf : Bytes) :
    Moves (Over q) (serverReadGlobalRequest handler buf) := by
  refine .bind (.lift _) fun ⟨reqType, r⟩ => .bind (.lift _) fun ⟨wantsReply, r⟩ => ?_
  refine .bind (modify_quiet (fun s => .fields s.common _ _ _) fun _ => rfl) fun _ => ?_
  dsimp only
  split
  · refine .bind (.lift _) fun ⟨address, r⟩ => .bind (.lift _) fun address => ?_
    exact .bind (.lift _) fun ⟨port, r⟩ => serverReplyForward_moves hP handler _
  · split
    · refine .bind (.lift _) fun ⟨address, r⟩ => .bind (.lift _) fun address => ?_
      exact .bind (.lift _) fun ⟨port, r⟩ => serverReplyForward_moves hP handler _
    · exact push_moves hP (by decide)

/-- Every packet of an authenticated session moves it as its handler can. -/
theorem serverReadAuthenticated_moves (handler : Handler) (buf : Bytes) :
    Moves (Over q) (serverReadAuthenticated handler buf) := by
  unfold serverReadAuthenticated
  by_cases hopen : buf.head? = some msg.CHANNEL_OPEN
  · rw [if_pos hopen]
    exact serverHandleChannelOpen_moves hP handler buf
  rw [if_neg hopen]
  by_cases hclose : buf.head? = some msg.CHANNEL_CLOSE
  · rw [if_pos hclose]
    exact serverReadChannelClose_moves hP handler buf
  rw [if_neg hclose]
  by_cases heof : buf.head? = some msg.CHANNEL_EOF
  · rw [if_pos heof]
    exact serverReadChannelEof_moves hP handler buf
  rw [if_neg heof]
  by_cases hdata : buf.head? = some msg.CHANNEL_EXTENDED_DATA ∨ buf.head? = some msg.CHANNEL_DATA
  · rw [if_pos hdata]
    exact serverReadData_moves hP handler buf
  rw [if_neg hdata]
  by_cases hadjust : buf.head? = some msg.CHANNEL_WINDOW_ADJUST
  · rw [if_pos hadjust]
    exact serverReadWindowAdjust_moves hP handler buf
  rw [if_neg hadjust]
  by_cases hrequest : buf.head? = some msg.CHANNEL_REQUEST
  · rw [if_pos hrequest]
    exact serverReadChannelRequest_moves hP handler buf
  rw [if_neg hrequest]
  by_cases hglobal : buf.head? = some msg.GLOBAL_REQUEST
  · rw [if_pos hglobal]
    exact serverReadGlobalRequest_moves hP handler buf
  rw [if_neg hglobal]
  exact .pure _

end

end

/-! ### Packets of the authentication -/

section
variable (hP : ∀ body : Bytes, Ordinary body → P body)

include hP

section
variable [Staging P q]

theorem pushAuth_moves {m : UInt8} {rest : Bytes}
    (h : (¬ OfExchange m ∧ m ≠ msg.SERVICE_REQUEST) ∧ Dataless m) :
    Moves (Over q) (push (m :: rest)) :=
  modifyEnc_quiet fun enc =>
    .push enc (hP _ (ordinary_cons.mpr h.1)) (by rintro _ ⟨⟩; exact h.2)

theorem serverAcceptService_moves (banner : Option Bytes) (methods : MethodSet) :
    Moves (Over q) (serverAcceptService banner methods) := by
  refine .bind (pushAuth_moves hP (m := msg.SERVICE_ACCEPT) (by decide)) fun _ => ?_
  cases banner with
  | some banner =>
    exact .bind (pushAuth_moves hP (m := msg.USERAUTH_BANNER) (by decide)) fun _ => .pure _
  | none => exact .bind (.pure _) fun _ => .pure _

theorem rejectAuthRequest_moves : Moves (Over q) rejectAuthRequest := by
  refine getAuth_moves.bind fun auth => ?_
  refine .bind ((pushAuth_moves hP (m := msg.USERAUTH_FAILURE) (by decide))) fun _ => ?_
  exact modifyAuth_moves _

theorem serverAuthRequestSuccess_moves : Moves (Over q) serverAuthRequestSuccess :=
  pushAuth_moves hP (by decide)

theorem acceptAuthRequest_moves : Moves (Over q) acceptAuthRequest :=
  (serverAuthRequestSuccess_moves hP).bind fun _ => setState_moves _

theorem replyUserauthInfoResponse_moves (auth : Auth) :
    Moves (Over q) (replyUserauthInfoResponse auth) := by
  cases auth with
  | accept => exact (serverAuthRequestSuccess_moves hP).bind fun _ => .pure _
  | reject =>
    refine (modifyAuth_moves _).bind fun _ => ?_
    exact (rejectAuthRequest_moves hP).bind fun _ => .pure _
  | partialAccept name instructions prompts =>
    exact (pushAuth_moves hP (m := msg.USERAUTH_INFO_REQUEST) (by decide)).bind
      fun _ => .pure _
  | unsupportedMethod => exact .throw _

theorem readUserauthInfoResponse_moves (handler : Handler) (b : Bytes) :
    Moves (Over q) (readUserauthInfoResponse handler b) := by
  refine getAuth_moves.bind fun auth => ?_
  split
  · refine .bind (.lift _) fun ⟨n, r⟩ => Moves.get.bind fun s => ?_
    refine (askAuth_moves handler _).bind fun auth => ?_
    exact replyUserauthInfoResponse_moves hP auth
  · exact (rejectAuthRequest_moves hP).bind fun _ => .pure _

theorem serverReadSignedRequest_moves (handler : Handler) (buf user : Bytes) (pubkey : PublicKey)
    (r : Position) : Moves (Over q) (serverReadSignedRequest handler buf user pubkey r) := by
  refine getAuth_moves.bind fun auth => ?_
  refine .bind (.lift _) fun ⟨signature, _⟩ => .bind (.lift _) fun ⟨_, s⟩ => ?_
  refine .bind (.lift _) fun ⟨sig, s⟩ => Moves.get.bind fun session => ?_
  have hrest : ∀ isValid : Bool, Moves (Over q) (if isValid then do
      let enc ← getEnc
      if verifyClientAuth pubkey (sshString enc.sessionId.toList ++ buf.take r.position) sig then
        acceptAuthRequest
      else rejectAuthRequest
    else rejectAuthRequest) := by
    intro isValid
    split
    · refine getEnc_moves.bind fun enc => ?_
      split
      · exact acceptAuthRequest_moves hP
      · exact rejectAuthRequest_moves hP
    · exact rejectAuthRequest_moves hP
  dsimp only
  split
  · exact .bind (.pure _) hrest
  · split
    · refine (setAuthUser_moves user).bind fun _ => ?_
      refine (askAuth_moves handler _).bind fun auth => ?_
      exact .bind (.pure _) hrest
    · exact .bind (.pure _) hrest

theorem serverReadProbe_moves (handler : Handler) (user pubkeyAlgo pubkeyKey : Bytes)
    (pubkey : PublicKey) :
    Moves (Over q) (serverReadProbe handler user pubkeyAlgo pubkeyKey pubkey) := by
  refine (setAuthUser_moves user).bind fun _ => ?_
  refine (askAuth_moves handler _).bind fun auth => ?_
  split
  · refine .bind ((pushAuth_moves hP (m := msg.USERAUTH_PK_OK) (by decide))) fun _ => ?_
    exact modifyAuth_moves _
  · refine (modifyAuth_moves _).bind fun _ => (setAuthUser_moves _).bind fun _ => ?_
    exact rejectAuthRequest_moves hP

theorem serverReadAuthRequestPk_moves (handler : Handler) (buf user : Bytes) (r : Position) :
    Moves (Over q) (serverReadAuthRequestPk handler buf user r) := by
  refine .bind (.lift _) fun ⟨isReal, r⟩ => .bind (.lift _) fun ⟨pubkeyAlgo, r⟩ => ?_
  refine .bind (.lift _) fun ⟨pubkeyKey, r⟩ => ?_
  dsimp only
  split
  · split
    · exact serverReadSignedRequest_moves hP handler buf user _ _
    · exact serverReadProbe_moves hP handler user _ _ _
  · exact rejectAuthRequest_moves hP
  · exact .throw _

theorem serverReadPassword_moves (handler : Handler) (user : Bytes) (r : Position) :
    Moves (Over q) (serverReadPassword handler user r) := by
  refine (setAuthUser_moves user).bind fun _ => .bind (.lift _) fun ⟨_, r⟩ => ?_
  refine .bind (.lift _) fun ⟨password, r⟩ => .bind (.lift _) fun password => ?_
  refine (askAuth_moves handler _).bind fun auth => ?_
  split
  · exact acceptAuthRequest_moves hP
  · refine (setAuthUser_moves _).bind fun _ => (modifyAuth_moves _).bind fun _ => ?_
    exact rejectAuthRequest_moves hP

theorem serverReadKeyboardInteractive_moves (handler : Handler) (user : Bytes) (r : Position) :
    Moves (Over q) (serverReadKeyboardInteractive handler user r) := by
  refine (setAuthUser_moves user).bind fun _ => .bind (.lift _) fun ⟨_, r⟩ => ?_
  refine .bind (.lift _) fun ⟨submethods, r⟩ => .bind (.lift _) fun submethods => ?_
  refine (modifyAuth_moves _).bind fun _ => ?_
  refine (askAuth_moves handler _).bind fun auth => ?_
  refine (replyUserauthInfoResponse_moves hP auth).bind fun accepted => ?_
  split
  · exact setState_moves _
  · exact .pure _

theorem serverReadAuthRequest_moves (handler : Handler) (buf : Bytes) :
    Moves (Over q) (serverReadAuthRequest handler buf) := by
  refine .bind (.lift _) fun ⟨user, r⟩ => .bind (.lift _) fun user => ?_
  refine .bind (.lift _) fun ⟨serviceName, r⟩ => .bind (.lift _) fun ⟨method, r⟩ => ?_
  dsimp only
  split
  · split
    · exact serverReadPassword_moves hP handler user r
    · split
      · exact serverReadAuthRequestPk_moves hP handler buf user r
      · split
        · exact serverReadKeyboardInteractive_moves hP handler user r
        · exact rejectAuthRequest_moves hP
  · exact .throw _

end

/-- Every packet outside the key exchange moves the session. -/
theorem serverReadState_moves [Staging P q] [Calling P q] (handler : Handler) (buf : Bytes) :
    Moves (Over q) (serverReadState handler buf) := by
  refine getEnc_moves.bind fun enc => ?_
  cases enc.state with
  | waitingServiceRequest sent accepted =>
    dsimp only
    split
    · refine .bind (.lift _) fun ⟨request, r⟩ => ?_
      dsimp only
      split
      · refine Moves.get.bind fun s => ?_
        refine (serverAcceptService_moves hP _ _).bind fun auth => ?_
        exact setState_moves _
      · exact .pure _
    · exact .pure _
  | waitingAuthRequest auth =>
    dsimp only
    split
    · exact (serverReadAuthRequest_moves hP handler buf).bind fun _ => initDecompress_moves
    · split
      · refine (readUserauthInfoResponse_moves hP handler buf).bind fun accepted => ?_
        split
        · exact initDecompress_moves
        · exact .pure _
      · exact .pure _
  | initCompression =>
    refine .bind (modifyEnc_staged fun enc => ?_) fun _ => ?_
    · refine ⟨rfl, fun h => ⟨h.server, h.client, ?_, h.decompress⟩⟩
      simp only [h.server, Compression.initCompress]
    · exact serverReadAuthenticated_moves (of_connection hP) handler buf
  | authenticated => exact serverReadAuthenticated_moves (of_connection hP) handler buf

end

end Thrussh.Server
