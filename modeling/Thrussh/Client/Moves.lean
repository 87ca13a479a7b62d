import Thrussh.Client.Run
import Thrussh.Turn

/-!
# How the client's programs move a session

Every program of the client that serves a packet outside the key exchange
moves its session by quiet steps and steps of the authentication. A local
message may besides seal the service request. `P` must also hold of
the signed requests that the application hands back.
-/

namespace Thrussh.Client

open Deps Lib

variable [Deps]

/-- Two sessions whose common parts are related. -/
def Over (q : CommonSession Config → CommonSession Config → Prop) (s t : Session) : Prop :=
  q s.common t.common

variable {P : Bytes → Prop} {q : CommonSession Config → CommonSession Config → Prop}

/-- A program on the common part moves the session when it is one quiet step. -/
theorem onCommon_quiet [Quietly P q] {α : Type} {x : CommonM Config α}
    (h : ∀ s, Quiet P s (final (x s))) : Moves (Over q) (onCommon x) :=
  Moves.zoom (q := q) (fun s => .single (Quietly.quiet (h s))) (fun _ _ _ h => .single h)
    fun _ => rfl

/-- A quiet change of the session. -/
theorem modify_quiet [Quietly P q] {f : Session → Session}
    (h : ∀ s, Quiet P s.common (f s).common) : Moves (Over q) (modify f : M Unit) :=
  Moves.modify fun s => .single (Quietly.quiet (h s))

/-- A quiet change of `enc`. -/
theorem modifyEnc_quiet [Quietly P q] {f : Encrypted → Encrypted}
    (h : ∀ enc, QuietEnc P enc (f enc)) : Moves (Over q) (modifyEnc f) :=
  modify_quiet fun s => .modifyEnc s.common h

/-- A change of the stage. -/
theorem modifyEnc_staged [Staging P q] {f : Encrypted → Encrypted}
    (h : ∀ enc, StagedEnc enc (f enc)) : Moves (Over q) (modifyEnc f) :=
  Moves.modify fun s => .single (Staging.staged (.modifyEnc s.common h))

theorem getEnc_moves {r : Session → Session → Prop} : Moves r getEnc := by
  refine Moves.get.bind fun s => ?_
  cases s.common.encrypted with
  | none => exact .throw _
  | some enc => exact .pure _

theorem assertEncrypted_moves {r : Session → Session → Prop} : Moves r assertEncrypted := by
  refine Moves.get.bind fun s => ?_
  split
  · exact .pure _
  · exact .throw _

theorem ask_moves [Quietly P q] (app : Application) (callback : Callback) :
    Moves (Over q) (ask app callback) :=
  fun s => .single (Quietly.quiet (.fields s.common _ _ _))

theorem sendReply_moves [Quietly P q] (app : Application) (reply : Reply) :
    Moves (Over q) (sendReply app reply) := by
  intro s
  unfold sendReply
  split
  · exact .single (Quietly.quiet (.fields s.common _ _ _))
  · exact .single (Quietly.quiet (.fields s.common _ _ _))

/-- A change of the senders and of the messages sent leaves the common part. -/
theorem modify_senders [Quietly P q] {f : Session → Session} (h : ∀ s, (f s).common = s.common) :
    Moves (Over q) (modify f : M Unit) :=
  modify_quiet fun s => by
    rw [h]
    exact .refl s.common

theorem sendTo_moves [Quietly P q] (channel : UInt32) (m : OpenChannelMsg) :
    Moves (Over q) (sendTo channel m) :=
  modify_senders fun s => by
    split
    · rfl
    · rfl

theorem setState_moves [Staging P q] (state : EncryptedState) :
    Moves (Over q) (modifyEnc fun enc => { enc with state := state }) :=
  modifyEnc_staged fun _ => ⟨rfl, fun h => ⟨h.server, h.client, h.compress, h.decompress⟩⟩

theorem setAuthMethod_moves [Staging P q] (method : Option Method) :
    Moves (Over q) (setAuthMethod method) :=
  Moves.modify fun s => .single (Staging.staged (.request s.common s.common.authUser method))

theorem insertChannel_moves [Quietly P q] (id : Except Error UInt32) (sender : Nat) :
    Moves (Over q) (insertChannel id sender) := by
  cases id with
  | ok id => exact modify_senders fun _ => rfl
  | error e => exact .throw _

/-- A signed request that the client made itself starts as the request to be signed. -/
theorem signaturePacket_head {sessionId : Bytes32} {user packet : Bytes} {key : KeyPair}
    (h : signaturePacket sessionId user key = .ok packet) :
    packet.head? = some msg.USERAUTH_REQUEST := by
  simp only [signaturePacket, clientMakeToSign] at h
  split at h
  · cases h
    rw [List.append_assoc, List.drop_left]
    rfl
  · cases h

omit [Deps] in
/-- What the wait for a signature returns is among the messages. -/
theorem awaitSigned_mem {messages : List Msg} {data : Bytes}
    (h : awaitSigned messages = .ok data) : .signed data ∈ messages := by
  induction messages with
  | nil => cases h
  | cons m messages ih =>
    cases m with
    | signed d =>
      cases h
      exact List.mem_cons_self
    | _ => exact List.mem_cons_of_mem _ (ih h)

section
variable (hP : ∀ body : Bytes, ConnectionPacket body → P body)

include hP

section
variable [Quietly P q]

theorem push_moves {m : UInt8} {rest : Bytes} (h : OfConnection m ∧ Dataless m) :
    Moves (Over q) (push (m :: rest)) :=
  modifyEnc_quiet fun _ => push_quiet hP _ h

/-! ### Calls on the session -/

theorem openChannel_moves (typ rest : Bytes) : Moves (Over q) (openChannel typ rest) := by
  refine Moves.get.bind fun s => ?_
  dsimp only
  split
  · refine onCommon_quiet (withEnc_quiet fun enc a enc' h => ?_)
    split at h
    · simp only [bind, Except.bind] at h
      split at h
      · cases h
      · rename_i res hnew
        cases h
        exact (newChannel_quiet hnew).trans (push_quiet hP _ (m := msg.CHANNEL_OPEN) (by decide))
    · cases h
      exact .refl enc
  · exact .pure _

theorem request_moves (channel : UInt32) (name rest : Bytes) :
    Moves (Over q) (request channel name rest) := by
  refine modifyEnc_quiet fun enc => ?_
  split
  · exact push_quiet hP enc (m := msg.CHANNEL_REQUEST) (by decide)
  · exact .refl enc

theorem forwardRequest_moves (name : Bytes) (wantReply : Bool) (address : Bytes) (port : UInt32) :
    Moves (Over q) (forwardRequest name wantReply address port) :=
  push_moves hP (m := msg.GLOBAL_REQUEST) (by decide)

theorem data_moves (channel : UInt32) (d : Bytes) : Moves (Over q) (data channel d) :=
  assertEncrypted_moves.bind fun _ => onCommon_quiet (updateEnc_quiet fun _ _ h => data_quiet hP h)

theorem extendedData_moves (channel ext : UInt32) (d : Bytes) :
    Moves (Over q) (extendedData channel ext d) :=
  assertEncrypted_moves.bind fun _ =>
    onCommon_quiet (updateEnc_quiet fun _ _ h => extendedData_quiet hP h)

theorem eof_moves (channel : UInt32) : Moves (Over q) (eof channel) :=
  assertEncrypted_moves.bind fun _ =>
    modifyEnc_quiet fun enc => eof_quiet hP enc channel

theorem disconnect_moves (reason : Disconnect) (description languageTag : Bytes) :
    Moves (Over q) (disconnect reason description languageTag) := by
  refine onCommon_quiet fun s => .disconnect s reason description languageTag fun body hbody => ?_
  exact hP body ⟨msg.DISCONNECT, hbody, by decide⟩

theorem confirmChannelOpen_moves (remoteChannelNo localChannelNo : UInt32) :
    Moves (Over q) (confirmChannelOpen remoteChannelNo localChannelNo) :=
  Moves.get.bind fun _ => push_moves hP (m := msg.CHANNEL_OPEN_CONFIRMATION) (by decide)

theorem createForwardedTcpipChannel_moves (remoteChannel : UInt32) (sender : Nat)
    (windowSize maxPacketSize : UInt32) :
    Moves (Over q) (createForwardedTcpipChannel remoteChannel sender windowSize maxPacketSize) := by
  refine Moves.get.bind fun s => ?_
  refine .bind (onCommon_quiet (withEnc_quiet fun _ _ _ h => newChannelId_quiet h)) fun id => ?_
  refine .bind (modify_senders fun _ => rfl) fun _ => ?_
  refine .bind (modifyEnc_quiet fun enc => .insertChannel enc id rfl) fun _ => ?_
  exact confirmChannelOpen_moves hP remoteChannel id

theorem flushAdjusted_moves (channel newSize : UInt32) :
    Moves (Over q) (flushAdjusted channel newSize) := by
  refine Moves.get.bind fun s => ?_
  split
  · refine .bind (onCommon_quiet (withEnc_quiet fun enc a enc' h => ?_)) fun size => ?_
    · cases hflush : enc.flushPending channel with
      | error e =>
        rw [hflush] at h
        cases h
      | ok res =>
        rw [hflush] at h
        cases h
        exact flushPending_quiet hP hflush
    · split
      · exact sendTo_moves channel _
      · exact .throw _
  · exact sendTo_moves channel _

/-- Everything a handler can do moves the session. -/
theorem runCall_moves (call : Call) : Moves (Over q) (runCall call) := by
  cases call with
  | channelOpenSession => exact (openChannel_moves hP _ _).bind fun _ => .pure _
  | channelOpenX11 originatorAddress originatorPort =>
    exact (openChannel_moves hP _ _).bind fun _ => .pure _
  | channelOpenDirectTcpip hostToConnect portToConnect originatorAddress originatorPort =>
    exact (openChannel_moves hP _ _).bind fun _ => .pure _
  | requestPty channel wantReply term colWidth rowHeight pixWidth pixHeight terminalModes =>
    exact request_moves hP channel _ _
  | requestX11 channel wantReply singleConnection protocol cookie x11ScreenNumber =>
    exact request_moves hP channel _ _
  | setEnv channel wantReply variableName variableValue => exact request_moves hP channel _ _
  | requestShell wantReply channel => exact request_moves hP channel _ _
  | exec channel wantReply command => exact request_moves hP channel _ _
  | signal channel sig => exact request_moves hP channel _ _
  | requestSubsystem wantReply channel name => exact request_moves hP channel _ _
  | windowChange channel colWidth rowHeight pixWidth pixHeight => exact request_moves hP channel _ _
  | tcpipForward wantReply address port => exact forwardRequest_moves hP _ wantReply address port
  | cancelTcpipForward wantReply address port =>
    exact forwardRequest_moves hP _ wantReply address port
  | data channel d => exact data_moves hP channel d
  | eof channel => exact eof_moves hP channel
  | extendedData channel ext d => exact extendedData_moves hP channel ext d
  | disconnect reason description languageTag =>
    exact disconnect_moves hP reason description languageTag
  | confirmChannelOpen remoteChannelNo localChannelNo =>
    exact confirmChannelOpen_moves hP remoteChannelNo localChannelNo
  | sendTo channel m => exact sendTo_moves channel m
  | forget channel => exact modify_senders fun _ => rfl
  | sendReply reply => exact modify_senders fun _ => rfl
  | flushAdjusted channel newSize => exact flushAdjusted_moves hP channel newSize
  | createForwardedTcpipChannel remoteChannel sender windowSize maxPacketSize =>
    exact createForwardedTcpipChannel_moves hP remoteChannel sender windowSize maxPacketSize

/-- A method of the handler moves the session by what it does with it. -/
theorem finish_moves (app : Application) (callback : Callback) :
    Moves (Over q) (finish app callback) := by
  refine (ask_moves app callback).bind fun answer => ?_
  refine (Moves.forM (runCall_moves hP) answer.calls).bind fun _ => ?_
  split
  · exact .throw _
  · exact .pure _

/-! ### Packets of an authenticated session -/

theorem clientReadOpenConfirmation_moves (app : Application) (buf : Bytes) :
    Moves (Over q) (clientReadOpenConfirmation app buf) := by
  refine .bind (.lift _) fun ⟨idSend, r⟩ => .bind (.lift _) fun ⟨idRecv, r⟩ => ?_
  refine .bind (.lift _) fun ⟨window, r⟩ => .bind (.lift _) fun ⟨maxPacket, r⟩ => ?_
  refine .bind (onCommon_quiet (withEnc_quiet fun enc a enc' h => ?_)) fun _ => ?_
  · split at h
    · rename_i ch hch
      cases h
      exact .setChannel enc hch rfl
    · cases h
  · exact finish_moves hP app _

theorem clientReadChannelClose_moves (app : Application) (buf : Bytes) :
    Moves (Over q) (clientReadChannelClose app buf) := by
  refine .bind (.lift _) fun ⟨channelNum, r⟩ => ?_
  exact .bind (modifyEnc_quiet fun enc => .removeChannel enc _) fun _ => finish_moves hP app _

theorem clientReadChannel_moves (app : Application) (callback : UInt32 → Callback) (buf : Bytes) :
    Moves (Over q) (clientReadChannel app callback buf) :=
  .bind (.lift _) fun ⟨_, _⟩ => finish_moves hP app _

theorem clientReadOpenFailure_moves (app : Application) (buf : Bytes) :
    Moves (Over q) (clientReadOpenFailure app buf) := by
  refine .bind (.lift _) fun ⟨channelNum, r⟩ => .bind (.lift _) fun ⟨code, r⟩ => ?_
  dsimp only
  cases ChannelOpenFailure.fromU32 code with
  | none => exact .throw _
  | some reasonCode =>
    refine .bind (.lift _) fun ⟨descr, r⟩ => .bind (.lift _) fun descr => ?_
    refine .bind (.lift _) fun ⟨language, r⟩ => .bind (.lift _) fun language => ?_
    exact .bind (modifyEnc_quiet fun enc => .removeChannel enc _) fun _ => finish_moves hP app _

/-- What the client does with data once they are taken off the window. -/
theorem afterData_moves (app : Application) (callback : Callback) (channelNum target : UInt32)
    (adjusted : Bool) : Moves (Over q) (do
      if adjusted then do
        let answer ← ask app (.adjustWindow channelNum target)
        if answer.window > 0 then modify fun s => { s with targetWindowSize := answer.window }
        else pure ()
      else pure ()
      finish app callback) := by
  cases adjusted with
  | false => exact finish_moves hP app callback
  | true =>
    refine .bind (ask_moves app _) fun answer => ?_
    by_cases hwindow : answer.window > 0
    · simp only [if_pos hwindow]
      exact .bind (modify_senders fun _ => rfl) fun _ => finish_moves hP app callback
    · simp only [if_neg hwindow]
      exact finish_moves hP app callback

theorem clientReceiveData_moves (app : Application) (channelNum : UInt32) (data : Bytes)
    (callback : Callback) : Moves (Over q) (clientReceiveData app channelNum data callback) := by
  refine Moves.get.bind fun s => ?_
  refine .bind (onCommon_quiet (withEnc_quiet fun enc a enc' h => ?_)) fun adjusted => ?_
  · cases h
    exact adjustWindowSize_quiet hP enc _ _ _
  · exact afterData_moves hP app callback channelNum _ adjusted

theorem clientReadData_moves (app : Application) (buf : Bytes) :
    Moves (Over q) (clientReadData app buf) := by
  refine .bind (.lift _) fun ⟨channelNum, r⟩ => .bind (.lift _) fun ⟨data, r⟩ => ?_
  exact clientReceiveData_moves hP app channelNum data _

theorem clientReadExtendedData_moves (app : Application) (buf : Bytes) :
    Moves (Over q) (clientReadExtendedData app buf) := by
  refine .bind (.lift _) fun ⟨channelNum, r⟩ => .bind (.lift _) fun ⟨extendedCode, r⟩ => ?_
  exact .bind (.lift _) fun ⟨data, r⟩ => clientReceiveData_moves hP app channelNum data _

theorem clientReadChannelRequest_moves (app : Application) (buf : Bytes) :
    Moves (Over q) (clientReadChannelRequest app buf) := by
  refine .bind (.lift _) fun ⟨channelNum, r⟩ => .bind (.lift _) fun ⟨req, r⟩ => ?_
  refine .bind (.lift _) fun callback => ?_
  cases callback with
  | some callback => exact finish_moves hP app callback
  | none => exact .pure _

theorem clientReadWindowAdjust_moves (app : Application) (buf : Bytes) :
    Moves (Over q) (clientReadWindowAdjust app buf) := by
  refine .bind (.lift _) fun ⟨channelNum, r⟩ => .bind (.lift _) fun ⟨amount, r⟩ => ?_
  refine .bind (onCommon_quiet (withEnc_quiet fun _ _ _ h => adjustRecipientWindow_quiet h))
    fun _ => ?_
  exact finish_moves hP app _

theorem clientHandleChannelOpen_moves (app : Application) (buf : Bytes) :
    Moves (Over q) (clientHandleChannelOpen app buf) := by
  refine .bind (.lift _) fun ⟨typ, r⟩ => .bind (.lift _) fun ⟨senderChannel, r⟩ => ?_
  refine .bind (.lift _) fun ⟨window, r⟩ => .bind (.lift _) fun ⟨maxpacket, r⟩ => ?_
  dsimp only
  split
  · refine .bind (.lift _) fun ⟨address, r⟩ => .bind (.lift _) fun ⟨port, r⟩ => ?_
    refine .bind (.lift _) fun ⟨origAddr, r⟩ => .bind (.lift _) fun ⟨origPort, r⟩ => ?_
    exact finish_moves hP app _
  · exact push_moves hP (m := msg.CHANNEL_OPEN_FAILURE) (by decide)

/-- Every packet of an authenticated session moves it as its handler can. -/
theorem clientReadAuthenticated_moves (app : Application) (buf : Bytes) :
    Moves (Over q) (clientReadAuthenticated app buf) := by
  unfold clientReadAuthenticated
  by_cases hconfirmation : buf.head? = some msg.CHANNEL_OPEN_CONFIRMATION
  · rw [if_pos hconfirmation]
    exact clientReadOpenConfirmation_moves hP app buf
  rw [if_neg hconfirmation]
  by_cases hclose : buf.head? = some msg.CHANNEL_CLOSE
  · rw [if_pos hclose]
    exact clientReadChannelClose_moves hP app buf
  rw [if_neg hclose]
  by_cases heof : buf.head? = some msg.CHANNEL_EOF
  · rw [if_pos heof]
    exact clientReadChannel_moves hP app _ buf
  rw [if_neg heof]
  by_cases hfailure : buf.head? = some msg.CHANNEL_OPEN_FAILURE
  · rw [if_pos hfailure]
    exact clientReadOpenFailure_moves hP app buf
  rw [if_neg hfailure]
  by_cases hdata : buf.head? = some msg.CHANNEL_DATA
  · rw [if_pos hdata]
    exact clientReadData_moves hP app buf
  rw [if_neg hdata]
  by_cases hextended : buf.head? = some msg.CHANNEL_EXTENDED_DATA
  · rw [if_pos hextended]
    exact clientReadExtendedData_moves hP app buf
  rw [if_neg hextended]
  by_cases hrequest : buf.head? = some msg.CHANNEL_REQUEST
  · rw [if_pos hrequest]
    exact clientReadChannelRequest_moves hP app buf
  rw [if_neg hrequest]
  by_cases hadjust : buf.head? = some msg.CHANNEL_WINDOW_ADJUST
  · rw [if_pos hadjust]
    exact clientReadWindowAdjust_moves hP app buf
  rw [if_neg hadjust]
  by_cases hglobal : buf.head? = some msg.GLOBAL_REQUEST
  · rw [if_pos hglobal]
    exact .bind (.lift _) fun _ => .pure _
  rw [if_neg hglobal]
  by_cases hsuccess : buf.head? = some msg.CHANNEL_SUCCESS
  · rw [if_pos hsuccess]
    exact clientReadChannel_moves hP app _ buf
  rw [if_neg hsuccess]
  by_cases hopen : buf.head? = some msg.CHANNEL_OPEN
  · rw [if_pos hopen]
    exact clientHandleChannelOpen_moves hP app buf
  rw [if_neg hopen]
  exact .pure _

end

end

/-! ### Packets of the authentication -/

section
variable (hP : ∀ body : Bytes, Ordinary body → P body)

include hP

theorem pushAuth_moves [Quietly P q] {m : UInt8} {rest : Bytes}
    (h : (¬ OfExchange m ∧ m ≠ msg.SERVICE_REQUEST) ∧ Dataless m) :
    Moves (Over q) (push (m :: rest)) :=
  modifyEnc_quiet fun enc =>
    .push enc (hP _ (ordinary_cons.mpr h.1)) (by rintro _ ⟨⟩; exact h.2)

/-- A request to authenticate is no packet of an exchange. -/
theorem authRequestPacket_moves [Quietly P q] (user : Bytes) (method : Method) :
    Moves (Over q) (push (authRequestPacket user method)) := by
  cases method with
  | password password => exact pushAuth_moves hP (by decide)
  | publicKey key => exact pushAuth_moves hP (by decide)
  | futurePublicKey key => exact pushAuth_moves hP (by decide)

theorem clientReadServiceAccept_moves [Staging P q] (buf : Bytes) :
    Moves (Over q) (clientReadServiceAccept buf) := by
  unfold clientReadServiceAccept
  split
  · refine .bind (.lift _) fun ⟨service, r⟩ => ?_
    dsimp only
    split
    · refine .bind (modifyEnc_staged fun enc => ?_) fun _ => Moves.get.bind fun s => ?_
      · split
        · exact ⟨rfl, fun h => ⟨h.server, h.client, h.compress, h.decompress⟩⟩
        · exact ⟨rfl, id⟩
      · cases s.common.authMethod with
        | none => exact .pure _
        | some method =>
          exact (authRequestPacket_moves hP _ method).bind fun _ => setState_moves _
    · exact .pure _
  · exact .throw _

end

section
variable (hP : ∀ body : Bytes, Ordinary body → P body) {app : Application}
  (hsigned : ∀ tick s data, .signed data ∈ app.awaited tick s → P (data.drop 36))

include hP hsigned

omit hP in
theorem clientAwaitSignature_moves [Quietly P q] (key : PublicKey) :
    Moves (Over q) (clientAwaitSignature app key) := by
  refine getEnc_moves.bind fun enc => Moves.get.bind fun s => ?_
  refine .bind (modify_quiet fun s => .fields s.common _ _ _) fun _ => ?_
  refine .bind (sendReply_moves app _) fun _ => ?_
  refine .bind_ok (fun s => .single (Quietly.quiet (.fields s.common _ _ _)))
    fun s messages t hm => ?_
  cases hm
  refine .lift_bind fun data hdata => ?_
  have hcovered := hsigned _ _ data (awaitSigned_mem hdata)
  refine .bind (modify_quiet fun s => .fields s.common _ _ _) fun _ => ?_
  split
  · refine .lift_bind fun body hbody => modifyEnc_quiet fun enc => .pushSigned enc ?_
    -- the prefix of a buffer to sign, a session id as a string, has 36 bytes
    have hprefix : (sshString enc.sessionId.toList).length = 36 := by simp
    simp only [length_sshString, Vector.length_toList, slice] at hbody
    split at hbody
    · simp only [List.take_length, Except.ok.injEq] at hbody
      rw [← hbody]
      exact hcovered
    · cases hbody
  · exact .pure _

theorem clientReadPkOk_moves [Staging P q] : Moves (Over q) (clientReadPkOk app) := by
  refine .bind (modifyEnc_staged fun enc => ?_) fun _ => Moves.get.bind fun s => ?_
  · split
    · split
      · exact ⟨rfl, fun h => ⟨h.server, h.client, h.compress, h.decompress⟩⟩
      · exact ⟨rfl, id⟩
    · exact ⟨rfl, id⟩
  · refine getEnc_moves.bind fun enc => ?_
    refine .bind (setAuthMethod_moves _) fun _ => ?_
    split
    · refine .lift_bind fun packet hpacket => (modifyEnc_quiet fun enc => .push enc ?_ ?_)
      · have hhead := signaturePacket_head hpacket
        refine hP packet ⟨?_, fun hservice => ?_⟩
        · rintro ⟨m, hm, hexchange⟩
          cases Option.mem_unique hhead hm
          exact absurd hexchange (by decide)
        · cases Option.mem_unique hhead hservice
      · rw [signaturePacket_head hpacket]
        rintro _ ⟨⟩
        decide
    · exact (clientAwaitSignature_moves hsigned _)
    · exact .pure _

theorem clientReadWaitingAuth_moves [Staging P q] (buf : Bytes) :
    Moves (Over q) (clientReadWaitingAuth app buf) := by
  unfold clientReadWaitingAuth
  by_cases hsuccess : buf.head? = some msg.USERAUTH_SUCCESS
  · rw [if_pos hsuccess]
    refine (sendReply_moves app _).bind fun _ => modifyEnc_staged fun enc => ?_
    refine ⟨rfl, fun h => ⟨h.server, h.client, h.compress, ?_⟩⟩
    simp only [h.server, Compression.initDecompress]
  rw [if_neg hsuccess]
  by_cases hbanner : buf.head? = some msg.USERAUTH_BANNER
  · rw [if_pos hbanner]
    refine .bind (.lift _) fun ⟨banner, r⟩ => ?_
    dsimp only
    split
    · exact finish_moves (of_connection hP) app _
    · exact .pure _
  rw [if_neg hbanner]
  by_cases hfailure : buf.head? = some msg.USERAUTH_FAILURE
  · rw [if_pos hfailure]
    refine .bind (.lift _) fun ⟨remainingMethods, r⟩ => ?_
    refine .bind (modifyEnc_staged fun enc => ?_) fun _ => ?_
    · split
      · exact ⟨rfl, fun h => ⟨h.server, h.client, h.compress, h.decompress⟩⟩
      · exact ⟨rfl, id⟩
    · refine .bind (setAuthMethod_moves _) fun _ => ?_
      refine (sendReply_moves app _).bind fun _ => ?_
      split
      · exact .throw _
      · exact .pure _
  rw [if_neg hfailure]
  by_cases hpkOk : buf.head? = some msg.USERAUTH_PK_OK
  · rw [if_pos hpkOk]
    exact clientReadPkOk_moves hP hsigned
  rw [if_neg hpkOk]
  exact .throw _

/-- Every packet outside the key exchange moves the session. -/
theorem clientReadState_moves [Staging P q] (buf : Bytes) :
    Moves (Over q) (clientReadState app buf) := by
  refine Moves.get.bind fun s => ?_
  cases s.common.encrypted with
  | none => exact .pure _
  | some enc =>
    cases hstate : enc.state with
    | waitingServiceRequest sent accepted =>
      simp only [hstate]
      exact clientReadServiceAccept_moves hP buf
    | waitingAuthRequest auth =>
      simp only [hstate]
      exact clientReadWaitingAuth_moves hP hsigned buf
    | initCompression =>
      simp only [hstate]
      exact .throw _
    | authenticated =>
      simp only [hstate]
      exact (clientReadAuthenticated_moves (of_connection hP) app buf)

end

/-! ### Local messages -/

/-- Sealing a packet succeeds, or panics and leaves the session as it was. -/
theorem sealPacket_cases (origin : Origin) (payload : Bytes) (s : Session) :
    sealPacket origin payload s = .ok () { s with common := { s.common with
        writeBuffer := s.common.writeBuffer.sealed s.common.cipher origin payload } } ∨
      sealPacket origin payload s = .error .panic s := by
  simp only [sealPacket, run_bind, run_get, onCommon, withWriteBuffer, zoom]
  rcases write_cases s.common.cipher origin payload s.common.writeBuffer with h | h
  · exact .inl (by rw [h])
  · exact .inr (by rw [h])

/-- A relation that also contains the sealing of the service request. -/
class Requesting (P : outParam (Bytes → Prop)) (q : CommonSession Config → CommonSession Config → Prop) :
    Prop extends Staging P q where
  /-- The service request is sealed. -/
  request (s : CommonSession Config) : q s { s with
    writeBuffer := s.writeBuffer.sealed s.cipher .service serviceRequest }

instance : Requesting P (Local P) where
  request _ := .service (by decide) rfl

/-- The direct service request seals one packet at most. -/
theorem requestService_moves [Requesting P q] : Moves (Over q) requestService := by
  refine Moves.get.bind fun s => ?_
  cases s.common.encrypted with
  | none => exact .pure _
  | some enc =>
    dsimp only
    split
    · refine .bind (fun s => ?_) fun _ => (setState_moves _)
      rcases sealPacket_cases .service serviceRequest s with h | h
      · rw [h]
        exact .single (Requesting.request s.common)
      · rw [h]
        exact .refl
    · exact .pure _

section
variable (hP : ∀ body : Bytes, Ordinary body → P body)

include hP

theorem writeAuthRequestIfNeeded_moves [Requesting P q] (user : Bytes) (meth : Method) :
    Moves (Over q) (writeAuthRequestIfNeeded user meth) := by
  have hlast : Moves (Over q) (modify fun s : Session => { s with common := { s.common with
      authUser := user, authMethod := some meth } } : M Unit) := by
    exact Moves.modify fun s => .single (Staging.staged (.request s.common user (some meth)))
  refine requestService_moves.bind fun _ => Moves.get.bind fun s => ?_
  cases s.common.encrypted with
  | none => exact hlast
  | some enc =>
    dsimp only
    split
    · refine .bind (((authRequestPacket_moves hP user meth))) fun _ => ?_
      exact hlast
    · exact hlast

end

/-- A message that is no request to authenticate moves the session quietly. -/
theorem serveMessage_quiet [Quietly P q] (hP : ∀ body : Bytes, ConnectionPacket body → P body)
    (m : Msg) (hm : ∀ user method, m ≠ .authenticate user method) :
    Moves (Over q) (serveMessage m) := by
  cases m with
  | authenticate user method => exact absurd rfl (hm user method)
  | signed data => exact .pure _
  | channelOpenSession sender =>
    exact (openChannel_moves hP _ _).bind fun id => insertChannel_moves id sender
  | channelOpenX11 originatorAddress originatorPort sender =>
    exact (openChannel_moves hP _ _).bind fun id => insertChannel_moves id sender
  | channelOpenDirectTcpip hostToConnect portToConnect originatorAddress originatorPort sender =>
    exact (openChannel_moves hP _ _).bind fun id => insertChannel_moves id sender
  | tcpipForward wantReply address port => exact forwardRequest_moves hP _ _ _ _
  | cancelTcpipForward wantReply address port => exact forwardRequest_moves hP _ _ _ _
  | disconnect reason description languageTag => exact disconnect_moves hP _ _ _
  | data id d => exact data_moves hP id d
  | extendedData id d ext => exact extendedData_moves hP id ext d
  | eof id => exact eof_moves hP id
  | requestPty id wantReply term colWidth rowHeight pixWidth pixHeight terminalModes =>
    exact request_moves hP id _ _
  | requestShell id wantReply => exact request_moves hP id _ _
  | exec id wantReply command => exact request_moves hP id _ _
  | signal id sig => exact request_moves hP id _ _
  | requestSubsystem id wantReply name => exact request_moves hP id _ _
  | requestX11 id wantReply singleConnection protocol cookie x11ScreenNumber =>
    exact request_moves hP id _ _
  | setEnv id wantReply variableName variableValue => exact request_moves hP id _ _
  | windowChange id colWidth rowHeight pixWidth pixHeight => exact request_moves hP id _ _

section
variable (hP : ∀ body : Bytes, Ordinary body → P body)

include hP

/-- Every message moves the session. -/
theorem serveMessage_moves [Requesting P q] (m : Msg) : Moves (Over q) (serveMessage m) := by
  by_cases hm : ∃ user method, m = .authenticate user method
  · obtain ⟨user, method, rfl⟩ := hm
    exact writeAuthRequestIfNeeded_moves hP user method
  · exact serveMessage_quiet (of_connection hP) m fun user method h => hm ⟨user, method, h⟩

/-- Every local message moves the session; without senders it disconnects. -/
theorem message_moves [Requesting P q] (m : Option Msg) : Moves (Over q) (message m) := by
  cases m with
  | some m => exact (serveMessage_moves hP m).bind fun _ => .pure _
  | none =>
    refine .bind (((modify_quiet fun s => ?_))) fun _ => .pure _
    exact ⟨rfl, fun _ => rfl, fun _ => rfl, (Quiet.refl s.common).encrypted⟩

end

end Thrussh.Client
