import Thrussh.Client.Known
import Thrussh.Table

/-!
# The client's table of channels

The calls of a handler, and the messages of the handle, operate on the
channels and on the queue. A packet that an authenticated session serves is
dispatched, and operations follow; any other packet comes to operations.
-/

namespace Thrussh.Client

open Deps Lib

variable [Deps]

/-- Two sessions that an operation relates. -/
def Operated (replies : Prop) (s t : Session) : Prop := Operating replies s.common t.common

variable {replies : Prop}

/-! ### Calls on the session -/

theorem onCommon_operated {α : Type} {x : CommonM Config α}
    (h : ∀ s, Operating replies s (final (x s))) : Moves (Operated replies) (onCommon x) :=
  Moves.zoom (q := Operating replies) (fun s => .single (h s)) (fun _ _ _ h => .single h) fun _ => rfl

/-- A change that leaves `enc`. -/
theorem modify_operated {f : Session → Session}
    (h : ∀ s, (f s).common.encrypted = s.common.encrypted) :
    Moves (Operated replies) (modify f : M Unit) :=
  Moves.modify fun s => .single (.of_eq (h s))

theorem modifyEnc_operated {f : Encrypted → Encrypted} (h : ∀ enc, Operates replies enc (f enc)) :
    Moves (Operated replies) (modifyEnc f) :=
  Moves.modify fun s => .single (.modifyEnc s.common h)

theorem push_operated {m : UInt8} {rest : Bytes} (h : PlainHead m) :
    Moves (Operated replies) (push (m :: rest)) :=
  modifyEnc_operated fun enc => .push (h.plain rest) rfl rfl

theorem flush_operated : Moves (Operated replies) (onCommon flush) :=
  onCommon_operated fun s => (flush_final s).operating

theorem ask_operated (app : Application) (callback : Callback) :
    Moves (Operated replies) (ask app callback) :=
  fun _ => .single (.of_eq rfl)

theorem sendReply_operated (app : Application) (reply : Reply) :
    Moves (Operated replies) (sendReply app reply) := by
  intro s
  unfold sendReply
  split
  · exact .single (.of_eq rfl)
  · exact .single (.of_eq rfl)

theorem sendTo_operated (channel : UInt32) (m : OpenChannelMsg) :
    Moves (Operated replies) (sendTo channel m) :=
  modify_operated fun s => by
    split
    · rfl
    · rfl

/-- A channel is opened, or the opening is refused. -/
theorem openChannel_operated (typ rest : Bytes) :
    Moves (Operated replies) (openChannel typ rest) := by
  refine Moves.get.bind fun s => ?_
  dsimp only
  split
  · refine onCommon_operated (withEnc_operating fun enc a enc' h => ?_)
    split at h
    · obtain ⟨⟨id, enc₁⟩, hnew, hrest⟩ := ok_of_bind h
      cases hrest
      exact .opened typ rest hnew
    · cases h
      exact .idle rfl rfl
  · exact .pure _

theorem request_operated (channel : UInt32) (name rest : Bytes) :
    Moves (Operated replies) (request channel name rest) := by
  refine modifyEnc_operated fun enc => ?_
  have hhead : PlainHead msg.CHANNEL_REQUEST := by decide
  split
  · exact .push (hhead.plain _) rfl rfl
  · exact .idle rfl rfl

theorem forwardRequest_operated (name : Bytes) (wantReply : Bool) (address : Bytes)
    (port : UInt32) : Moves (Operated replies) (forwardRequest name wantReply address port) :=
  push_operated (m := msg.GLOBAL_REQUEST) (by decide)

theorem data_operated (channel : UInt32) (d : Bytes) : Moves (Operated replies) (data channel d) :=
  assertEncrypted_moves.bind fun _ =>
    onCommon_operated (updateEnc_operating fun _ _ h => .data h)

theorem extendedData_operated (channel ext : UInt32) (d : Bytes) :
    Moves (Operated replies) (extendedData channel ext d) :=
  assertEncrypted_moves.bind fun _ =>
    onCommon_operated (updateEnc_operating fun _ _ h => .extendedData h)

theorem eof_operated (channel : UInt32) : Moves (Operated replies) (eof channel) :=
  assertEncrypted_moves.bind fun _ =>
    modifyEnc_operated fun enc => byte_operates enc channel (by decide)

theorem disconnect_operated (reason : Disconnect) (description languageTag : Bytes) :
    Moves (Operated replies) (disconnect reason description languageTag) :=
  onCommon_operated fun s => disconnect_operating s reason description languageTag

theorem confirmChannelOpen_operated (remoteChannelNo localChannelNo : UInt32) :
    Moves (Operated replies) (confirmChannelOpen remoteChannelNo localChannelNo) :=
  Moves.get.bind fun s => modifyEnc_operated fun enc =>
    .confirms enc remoteChannelNo localChannelNo s.common.config.windowSize
      s.common.config.maximumPacketSize

/-- A forwarded connection is accepted. -/
theorem createForwardedTcpipChannel_operated (remoteChannel : UInt32) (sender : Nat)
    (windowSize maxPacketSize : UInt32) :
    Moves (Operated replies)
      (createForwardedTcpipChannel remoteChannel sender windowSize maxPacketSize) := by
  intro s
  refine .single ?_
  unfold createForwardedTcpipChannel
  cases henc : s.common.encrypted with
  | none =>
    simp only [onCommon, zoom, withEnc, run_bind, run_get, henc]
    exact .of_eq rfl
  | some enc =>
    cases hnew : enc.newChannelId with
    | error e =>
      simp only [onCommon, zoom, withEnc, run_bind, run_get, henc, hnew, run_lift_error]
      exact .of_eq rfl
    | ok res =>
      obtain ⟨id, enc'⟩ := res
      rw [run_bind, run_get]
      dsimp only
      rw [run_bind, run_onCommon henc hnew]
      let asked : Asked := ⟨remoteChannel, windowSize, maxPacketSize⟩
      have haccepts := @Accepts.mk _ asked s.common.config.windowSize
        s.common.config.maximumPacketSize _ _ _ hnew
      unfold Operated Operating
      rw [henc]
      exact .some (.accepted haccepts)

/-- The default `window_adjusted` sends what waits. -/
theorem flushAdjusted_operated (channel newSize : UInt32) :
    Moves (Operated replies) (flushAdjusted channel newSize) := by
  refine Moves.get.bind fun s => ?_
  split
  · refine .bind (onCommon_operated (withEnc_operating fun enc a enc' h => ?_)) fun size => ?_
    · cases hflush : enc.flushPending channel with
      | error e =>
        rw [hflush] at h
        cases h
      | ok res =>
        rw [hflush] at h
        cases h
        exact .flushPending hflush
    · split
      · exact sendTo_operated channel _
      · exact .throw _
  · exact sendTo_operated channel _

/-- Everything a handler can do operates on the table. -/
theorem runCall_operated (call : Call) : Moves (Operated replies) (runCall call) := by
  cases call with
  | channelOpenSession => exact (openChannel_operated _ _).bind fun _ => .pure _
  | channelOpenX11 originatorAddress originatorPort =>
    exact (openChannel_operated _ _).bind fun _ => .pure _
  | channelOpenDirectTcpip hostToConnect portToConnect originatorAddress originatorPort =>
    exact (openChannel_operated _ _).bind fun _ => .pure _
  | requestPty channel wantReply term colWidth rowHeight pixWidth pixHeight terminalModes =>
    exact request_operated channel _ _
  | requestX11 channel wantReply singleConnection protocol cookie x11ScreenNumber =>
    exact request_operated channel _ _
  | setEnv channel wantReply variableName variableValue => exact request_operated channel _ _
  | requestShell wantReply channel => exact request_operated channel _ _
  | exec channel wantReply command => exact request_operated channel _ _
  | signal channel sig => exact request_operated channel _ _
  | requestSubsystem wantReply channel name => exact request_operated channel _ _
  | windowChange channel colWidth rowHeight pixWidth pixHeight =>
    exact request_operated channel _ _
  | tcpipForward wantReply address port => exact forwardRequest_operated _ wantReply address port
  | cancelTcpipForward wantReply address port =>
    exact forwardRequest_operated _ wantReply address port
  | data channel d => exact data_operated channel d
  | eof channel => exact eof_operated channel
  | extendedData channel ext d => exact extendedData_operated channel ext d
  | disconnect reason description languageTag =>
    exact disconnect_operated reason description languageTag
  | confirmChannelOpen remoteChannelNo localChannelNo =>
    exact confirmChannelOpen_operated remoteChannelNo localChannelNo
  | sendTo channel m => exact sendTo_operated channel m
  | forget channel => exact modify_operated fun _ => rfl
  | sendReply reply => exact modify_operated fun _ => rfl
  | flushAdjusted channel newSize => exact flushAdjusted_operated channel newSize
  | createForwardedTcpipChannel remoteChannel sender windowSize maxPacketSize =>
    exact createForwardedTcpipChannel_operated remoteChannel sender windowSize maxPacketSize

/-- A method of the handler operates on the table by the calls it makes. -/
theorem finish_operated (app : Application) (callback : Callback) :
    Moves (Operated replies) (finish app callback) := by
  refine (ask_operated app callback).bind fun answer => ?_
  refine (Moves.forM runCall_operated answer.calls).bind fun _ => ?_
  split
  · exact .throw _
  · exact .pure _

/-- The channel of a message is noted. -/
theorem insertChannel_operated (id : Except Error UInt32) (sender : Nat) :
    Moves (Operated replies) (insertChannel id sender) := by
  cases id with
  | ok id => exact modify_operated fun _ => rfl
  | error e => exact .throw _

/-- A change of the stage is no operation on the table. -/
theorem setState_operated (state : EncryptedState) :
    Moves (Operated replies) (modifyEnc fun enc => { enc with state := state }) :=
  modifyEnc_operated fun _ => .idle rfl rfl

theorem authRequestPacket_operated (user : Bytes) (method : Method) :
    Moves (Operated replies) (push (authRequestPacket user method)) := by
  have hhead : PlainHead msg.USERAUTH_REQUEST := by decide
  cases method with
  | password password => exact push_operated hhead
  | publicKey key => exact push_operated hhead
  | futurePublicKey key => exact push_operated hhead

theorem requestService_operated : Moves (Operated replies) requestService := by
  have hseal : Moves (Operated replies) (sealPacket .service serviceRequest) := by
    intro s
    rw [sealPacket_ok .service (by decide) s]
    exact .single (.of_eq rfl)
  refine Moves.get.bind fun s => ?_
  cases s.common.encrypted with
  | none => exact .pure _
  | some enc =>
    cases hstate : enc.state with
    | waitingServiceRequest sent accepted =>
      simp only [hstate]
      cases sent with
      | false => exact hseal.bind fun _ => setState_operated _
      | true => exact .pure _
    | _ =>
      simp only [hstate]
      exact .pure _

theorem writeAuthRequestIfNeeded_operated (user : Bytes) (meth : Method) :
    Moves (Operated replies) (writeAuthRequestIfNeeded user meth) := by
  have hlast : Moves (Operated replies) (modify fun s : Session => { s with
      common := { s.common with authUser := user, authMethod := some meth } } : M Unit) :=
    modify_operated fun _ => rfl
  refine requestService_operated.bind fun _ => Moves.get.bind fun s => ?_
  cases s.common.encrypted with
  | none => exact hlast
  | some enc =>
    dsimp only
    split
    · exact (authRequestPacket_operated user meth).bind fun _ => hlast
    · exact hlast

/-- A message of the handle operates on the table. -/
theorem serveMessage_operated (m : Msg) : Moves (Operated replies) (serveMessage m) := by
  cases m with
  | authenticate user method => exact writeAuthRequestIfNeeded_operated user method
  | signed data => exact .pure _
  | channelOpenSession sender =>
    exact (openChannel_operated _ _).bind fun id => insertChannel_operated id sender
  | channelOpenX11 originatorAddress originatorPort sender =>
    exact (openChannel_operated _ _).bind fun id => insertChannel_operated id sender
  | channelOpenDirectTcpip hostToConnect portToConnect originatorAddress originatorPort sender =>
    exact (openChannel_operated _ _).bind fun id => insertChannel_operated id sender
  | tcpipForward wantReply address port => exact forwardRequest_operated _ wantReply address port
  | cancelTcpipForward wantReply address port =>
    exact forwardRequest_operated _ wantReply address port
  | disconnect reason description languageTag =>
    exact disconnect_operated reason description languageTag
  | data id d => exact data_operated id d
  | extendedData id d ext => exact extendedData_operated id ext d
  | eof id => exact eof_operated id
  | requestPty id wantReply term colWidth rowHeight pixWidth pixHeight terminalModes =>
    exact request_operated id _ _
  | requestShell id wantReply => exact request_operated id _ _
  | exec id wantReply command => exact request_operated id _ _
  | signal id sig => exact request_operated id _ _
  | requestSubsystem id wantReply name => exact request_operated id _ _
  | requestX11 id wantReply singleConnection protocol cookie x11ScreenNumber =>
    exact request_operated id _ _
  | setEnv id wantReply variableName variableValue => exact request_operated id _ _
  | windowChange id colWidth rowHeight pixWidth pixHeight => exact request_operated id _ _

theorem message_operated (m : Option Msg) : Moves (Operated replies) (message m) := by
  cases m with
  | none => exact .bind (modify_operated fun _ => rfl) fun _ => .pure _
  | some m => exact (serveMessage_operated m).bind fun _ => .pure _

/-! ### Packets of an authenticated session -/

/-- Two sessions between which a packet is served. -/
def Serving (buf : Bytes) (s t : Session) : Prop :=
  Option.Rel (Handles buf) s.common.encrypted t.common.encrypted

section
variable {app : Application} {s t u : Session} {buf : Bytes} {enc mid : Encrypted}

/-- What operates on the session operates on `enc`. -/
theorem operations_of_operated (h : Relation.ReflTransGen (Operated replies) s t) :
    Option.Rel (Operations replies) s.common.encrypted t.common.encrypted :=
  rel_of_steps (fun u : Session => u.common.encrypted) h

/-- A step of the dispatcher, and operations. -/
theorem Serving.dispatch (henc : s.common.encrypted = some enc)
    (hmid : t.common.encrypted = some mid) (h : Dispatches buf enc mid)
    (hrest : Relation.ReflTransGen (Operated True) t u) : Serving buf s u := by
  have hoperations := operations_of_operated hrest
  unfold Serving
  rw [henc]
  rw [hmid] at hoperations
  generalize u.common.encrypted = c at hoperations ⊢
  cases hoperations with
  | some hoperations => exact .some ⟨enc, mid, rfl, rfl, h, hoperations⟩

/-- Operations alone. -/
theorem Serving.operations (henc : s.common.encrypted = some enc)
    (h : Relation.ReflTransGen (Operated True) s t) : Serving buf s t :=
  .dispatch henc henc (.none enc) h

/-- What a program of operations makes of a session whose packet is dispatched. -/
theorem serving_ends {α : Type} {x : M α} (henc : s.common.encrypted = some enc)
    (hmid : t.common.encrypted = some mid) (h : Dispatches buf enc mid)
    (hx : Moves (Operated True) x) :
    Ends x t (fun _ u => Serving buf s u) (Serving buf s) :=
  .of_final (.dispatch henc hmid h (hx t))

theorem clientReadOpenConfirmation_serving
    (hhead : buf.head? = some msg.CHANNEL_OPEN_CONFIRMATION)
    (henc : s.common.encrypted = some enc) :
    Ends (clientReadOpenConfirmation app buf) s (fun _ t => Serving buf s t) (Serving buf s) := by
  have hsame : Serving buf s s := .operations henc .refl
  refine .lift_bind hsame fun ⟨id, r⟩ hid => .lift_bind hsame fun ⟨recv, r₁⟩ hrecv => ?_
  refine .lift_bind hsame fun ⟨window, r₂⟩ hwindow => ?_
  refine .lift_bind hsame fun ⟨maxPacket, r₃⟩ hmax => ?_
  let asked : Asked := ⟨recv, window, maxPacket⟩
  refine .bind (m := fun _ t => ∃ mid, t.common.encrypted = some mid ∧ Dispatches buf enc mid) ?_
    fun _ t ht => ?_
  · unfold Ends
    cases hch : enc.channels id with
    | none =>
      simp only [onCommon, zoom, withEnc, run_bind, run_get, henc, hch, run_lift_error]
      exact hsame
    | some ch =>
      simp only [onCommon, zoom, withEnc, run_bind, run_get, henc, hch, run_lift_ok]
      have hconfirmed := @Dispatches.confirmed _ _ _ _ asked _ _ _ _ _ hhead hid hrecv hwindow hmax hch
      exact ⟨_, rfl, hconfirmed⟩
  · obtain ⟨mid, hmid, hdispatches⟩ := ht
    exact serving_ends henc hmid hdispatches (finish_operated app _)

theorem clientReadChannelClose_serving (hhead : buf.head? = some msg.CHANNEL_CLOSE)
    (henc : s.common.encrypted = some enc) :
    Ends (clientReadChannelClose app buf) s (fun _ t => Serving buf s t) (Serving buf s) := by
  have hsame : Serving buf s s := .operations henc .refl
  refine .lift_bind hsame fun ⟨id, r⟩ hid => ?_
  refine .bind (m := fun _ t => t.common.encrypted = some (enc.removeChannel id)) (.modify ?_)
    fun _ t ht => ?_
  · simp only [CommonSession.modifyEnc, henc, Option.map_some]
  · exact serving_ends henc ht (.removed enc (.inl hhead) hid) (finish_operated app _)

theorem clientReadOpenFailure_serving (hhead : buf.head? = some msg.CHANNEL_OPEN_FAILURE)
    (henc : s.common.encrypted = some enc) :
    Ends (clientReadOpenFailure app buf) s (fun _ t => Serving buf s t) (Serving buf s) := by
  have hsame : Serving buf s s := .operations henc .refl
  refine .lift_bind hsame fun ⟨id, r⟩ hid => .lift_bind hsame fun ⟨code, r₁⟩ hcode => ?_
  dsimp only
  cases ChannelOpenFailure.fromU32 code with
  | none => exact hsame
  | some reasonCode =>
    refine .lift_bind hsame fun ⟨descr, r₂⟩ hdescr => .lift_bind hsame fun descr _ => ?_
    refine .lift_bind hsame fun ⟨language, r₃⟩ _ => .lift_bind hsame fun language _ => ?_
    refine .bind (m := fun _ t => t.common.encrypted = some (enc.removeChannel id)) (.modify ?_)
      fun _ t ht => ?_
    · simp only [CommonSession.modifyEnc, henc, Option.map_some]
    · exact serving_ends henc ht (.removed enc (.inr hhead) hid) (finish_operated app _)

/-- What the client does with data once they are taken off the window. -/
theorem afterData_operated (app : Application) (callback : Callback) (channelNum target : UInt32)
    (adjusted : Bool) : Moves (Operated True) (do
      if adjusted then do
        let answer ← ask app (.adjustWindow channelNum target)
        if answer.window > 0 then modify fun s => { s with targetWindowSize := answer.window }
        else pure ()
      else pure ()
      finish app callback) := by
  cases adjusted with
  | false => exact finish_operated app callback
  | true =>
    refine .bind (ask_operated app _) fun answer => ?_
    by_cases hwindow : answer.window > 0
    · simp only [if_pos hwindow]
      exact .bind (modify_operated fun _ => rfl) fun _ => finish_operated app callback
    · simp only [if_neg hwindow]
      exact finish_operated app callback

theorem clientReceiveData_serving {id : UInt32} {r : Position}
    (hhead : buf.head? = some msg.CHANNEL_DATA ∨ buf.head? = some msg.CHANNEL_EXTENDED_DATA)
    (hid : (reader buf 1).readU32 = .ok (id, r)) (henc : s.common.encrypted = some enc)
    (d : Bytes) (callback : Callback) :
    Ends (clientReceiveData app id d callback) s (fun _ t => Serving buf s t) (Serving buf s) := by
  refine .get_bind ?_
  have hrun := run_onCommon
    (f := fun enc => .ok (enc.adjustWindowSize id d s.common.config.windowSize).swap) henc rfl
  refine .bind (m := fun _ t => t.common.encrypted =
    some (enc.adjustWindowSize id d s.common.config.windowSize).1) ?_ fun adjusted t ht => ?_
  · unfold Ends
    rw [hrun]
    rfl
  · exact serving_ends henc ht (.received enc hhead hid)
      (afterData_operated app callback id _ adjusted)

theorem clientReadData_serving (hhead : buf.head? = some msg.CHANNEL_DATA)
    (henc : s.common.encrypted = some enc) :
    Ends (clientReadData app buf) s (fun _ t => Serving buf s t) (Serving buf s) := by
  have hsame : Serving buf s s := .operations henc .refl
  refine .lift_bind hsame fun ⟨id, r⟩ hid => .lift_bind hsame fun ⟨d, r₁⟩ _ => ?_
  exact clientReceiveData_serving (.inl hhead) hid henc d _

theorem clientReadExtendedData_serving (hhead : buf.head? = some msg.CHANNEL_EXTENDED_DATA)
    (henc : s.common.encrypted = some enc) :
    Ends (clientReadExtendedData app buf) s (fun _ t => Serving buf s t) (Serving buf s) := by
  have hsame : Serving buf s s := .operations henc .refl
  refine .lift_bind hsame fun ⟨id, r⟩ hid => .lift_bind hsame fun ⟨ext, r₁⟩ _ => ?_
  refine .lift_bind hsame fun ⟨d, r₂⟩ _ => ?_
  exact clientReceiveData_serving (.inr hhead) hid henc d _

theorem clientReadWindowAdjust_serving (hhead : buf.head? = some msg.CHANNEL_WINDOW_ADJUST)
    (henc : s.common.encrypted = some enc) :
    Ends (clientReadWindowAdjust app buf) s (fun _ t => Serving buf s t) (Serving buf s) := by
  have hsame : Serving buf s s := .operations henc .refl
  refine .lift_bind hsame fun ⟨id, r⟩ hid => .lift_bind hsame fun ⟨amount, r₁⟩ hamount => ?_
  refine .bind (m := fun newSize t => ∃ enc', t.common.encrypted = some enc' ∧
    enc.adjustRecipientWindow id amount = .ok (newSize, enc')) ?_ fun newSize t ht => ?_
  · unfold Ends
    cases hadjust : enc.adjustRecipientWindow id amount with
    | ok res =>
      rw [run_onCommon henc hadjust]
      exact ⟨res.2, rfl, rfl⟩
    | error e =>
      simp only [onCommon, zoom, withEnc, run_bind, run_get, henc, hadjust, run_lift_error]
      exact hsame
  · obtain ⟨enc', ht, hadjust⟩ := ht
    exact serving_ends henc ht (.adjusted hhead hid hamount hadjust) (finish_operated app _)

theorem clientReadChannelRequest_operated (app : Application) (buf : Bytes) :
    Moves (Operated True) (clientReadChannelRequest app buf) := by
  refine .bind (.lift _) fun ⟨channelNum, r⟩ => .bind (.lift _) fun ⟨req, r⟩ => ?_
  refine .bind (.lift _) fun callback => ?_
  cases callback with
  | some callback => exact finish_operated app callback
  | none => exact .pure _

theorem clientHandleChannelOpen_operated (app : Application) (buf : Bytes) :
    Moves (Operated True) (clientHandleChannelOpen app buf) := by
  refine .bind (.lift _) fun ⟨typ, r⟩ => .bind (.lift _) fun ⟨senderChannel, r⟩ => ?_
  refine .bind (.lift _) fun ⟨window, r⟩ => .bind (.lift _) fun ⟨maxpacket, r⟩ => ?_
  dsimp only
  split
  · refine .bind (.lift _) fun ⟨address, r⟩ => .bind (.lift _) fun ⟨port, r⟩ => ?_
    refine .bind (.lift _) fun ⟨origAddr, r⟩ => .bind (.lift _) fun ⟨origPort, r⟩ => ?_
    exact finish_operated app _
  · exact push_operated (m := msg.CHANNEL_OPEN_FAILURE) (by decide)

/-- A packet that an authenticated session serves. -/
theorem clientReadAuthenticated_serving (app : Application) (buf : Bytes)
    (henc : s.common.encrypted = some enc) :
    Ends (clientReadAuthenticated app buf) s (fun _ t => Serving buf s t) (Serving buf s) := by
  have hother : ∀ {x : M Unit}, Moves (Operated True) x →
      Ends x s (fun _ t => Serving buf s t) (Serving buf s) :=
    fun hx => serving_ends henc henc (.none enc) hx
  have hchannel : ∀ callback, Moves (Operated True) (clientReadChannel app callback buf) :=
    fun callback => .bind (.lift _) fun ⟨_, _⟩ => finish_operated app _
  unfold clientReadAuthenticated
  by_cases hconfirmation : buf.head? = some msg.CHANNEL_OPEN_CONFIRMATION
  · rw [if_pos hconfirmation]
    exact clientReadOpenConfirmation_serving hconfirmation henc
  rw [if_neg hconfirmation]
  by_cases hclose : buf.head? = some msg.CHANNEL_CLOSE
  · rw [if_pos hclose]
    exact clientReadChannelClose_serving hclose henc
  rw [if_neg hclose]
  by_cases heof : buf.head? = some msg.CHANNEL_EOF
  · rw [if_pos heof]
    exact hother (hchannel _)
  rw [if_neg heof]
  by_cases hfailure : buf.head? = some msg.CHANNEL_OPEN_FAILURE
  · rw [if_pos hfailure]
    exact clientReadOpenFailure_serving hfailure henc
  rw [if_neg hfailure]
  by_cases hdata : buf.head? = some msg.CHANNEL_DATA
  · rw [if_pos hdata]
    exact clientReadData_serving hdata henc
  rw [if_neg hdata]
  by_cases hextended : buf.head? = some msg.CHANNEL_EXTENDED_DATA
  · rw [if_pos hextended]
    exact clientReadExtendedData_serving hextended henc
  rw [if_neg hextended]
  by_cases hrequest : buf.head? = some msg.CHANNEL_REQUEST
  · rw [if_pos hrequest]
    exact hother (clientReadChannelRequest_operated app buf)
  rw [if_neg hrequest]
  by_cases hadjust : buf.head? = some msg.CHANNEL_WINDOW_ADJUST
  · rw [if_pos hadjust]
    exact clientReadWindowAdjust_serving hadjust henc
  rw [if_neg hadjust]
  by_cases hglobal : buf.head? = some msg.GLOBAL_REQUEST
  · rw [if_pos hglobal]
    exact hother (.bind (.lift _) fun _ => .pure _)
  rw [if_neg hglobal]
  by_cases hsuccess : buf.head? = some msg.CHANNEL_SUCCESS
  · rw [if_pos hsuccess]
    exact hother (hchannel _)
  rw [if_neg hsuccess]
  by_cases hopen : buf.head? = some msg.CHANNEL_OPEN
  · rw [if_pos hopen]
    exact hother (clientHandleChannelOpen_operated app buf)
  rw [if_neg hopen]
  exact hother (.pure _)

/-- A packet that a settled session serves outside a key exchange. -/
theorem reply_serving (app : Application) (hsound : s.common.Sound) (hsettled : s.Settled)
    (hout : ¬ s.common.InExchange buf) :
    Ends (reply app buf) s (fun _ t => Serving buf s t) (Serving buf s) := by
  have hrun : reply app buf s = clientReadAuthenticated app buf s := by
    rw [reply_state app hsound hout, clientReadState_settled app hsettled]
  obtain ⟨enc, henc, -⟩ := hsettled
  exact .congr hrun (clientReadAuthenticated_serving app buf henc)

/-! ### Other packets -/

/-- What a packet that is not dispatched does: an operation, or packets that
may have been signed elsewhere are queued. -/
inductive Works (enc enc' : Encrypted) : Prop where
  /-- An operation. -/
  | operates (h : Operates True enc enc')
  /-- Packets are queued. -/
  | queues (hchannels : enc'.channels = enc.channels) (hemitted : enc.emitted <+: enc'.emitted)

/-- Two sessions between which the authentication goes on. -/
def Worked (s t : Session) : Prop := Option.Rel Works s.common.encrypted t.common.encrypted

theorem Operated.worked (h : Operated True s t) : Worked s t := by
  unfold Operated Operating at h
  unfold Worked
  generalize s.common.encrypted = a at h ⊢
  generalize t.common.encrypted = b at h ⊢
  cases h with
  | none => exact .none
  | some h => exact .some (.operates h)

theorem moves_worked {α : Type} {x : M α} (h : Moves (Operated True) x) : Moves Worked x :=
  h.mono fun _ _ h => .single h.worked

/-- A change that leaves the channels, and takes nothing from the history of the queue. -/
theorem queue_worked {f : Encrypted → Encrypted} (hchannels : ∀ enc, (f enc).channels = enc.channels)
    (hemitted : ∀ enc, enc.emitted <+: (f enc).emitted) : Moves Worked (modifyEnc f) := by
  refine Moves.modify fun s => .single ?_
  unfold Worked
  simp only [CommonSession.modifyEnc]
  cases s.common.encrypted with
  | none => exact .none
  | some enc => exact .some (.queues (hchannels enc) (hemitted enc))

/-- Any packet is queued. -/
theorem push_worked (body : Bytes) : Moves Worked (push body) :=
  queue_worked (fun _ => rfl) fun _ => List.prefix_append _ _

/-- A change of the stage, or of a part that is not seen. -/
theorem modifyEnc_worked {f : Encrypted → Encrypted} (hchannels : ∀ enc, (f enc).channels = enc.channels)
    (hemitted : ∀ enc, (f enc).emitted = enc.emitted) : Moves Worked (modifyEnc f) :=
  moves_worked (modifyEnc_operated fun enc => .idle (hchannels enc) (hemitted enc))

theorem clientReadServiceAccept_worked (buf : Bytes) : Moves Worked (clientReadServiceAccept buf) := by
  unfold clientReadServiceAccept
  split
  · refine .bind (.lift _) fun ⟨service, r⟩ => ?_
    dsimp only
    split
    · refine .bind (modifyEnc_worked (fun enc => ?_) fun enc => ?_) fun _ => ?_
      · split <;> rfl
      · split <;> rfl
      · refine Moves.get.bind fun s => ?_
        split
        · refine .bind (push_worked _) fun _ => ?_
          exact modifyEnc_worked (fun _ => rfl) fun _ => rfl
        · exact .pure _
    · exact .pure _
  · exact .throw _

theorem clientAwaitSignature_worked (app : Application) (key : PublicKey) :
    Moves Worked (clientAwaitSignature app key) := by
  have hbuffer : ∀ buffer, Moves Worked (setBuffer buffer) :=
    fun _ => moves_worked (modify_operated fun _ => rfl)
  refine getEnc_moves.bind fun enc => Moves.get.bind fun s => ?_
  refine .bind (hbuffer _) fun _ => .bind (moves_worked (sendReply_operated app _)) fun _ => ?_
  refine .bind (fun s => .single ?_) fun messages => .bind (.lift _) fun data => ?_
  · exact Operated.worked (.of_eq rfl)
  · refine .bind (hbuffer _) fun _ => ?_
    split
    · refine .bind (.lift _) fun body => ?_
      exact queue_worked (fun _ => rfl) fun _ => List.prefix_append _ _
    · exact .pure _

theorem clientReadPkOk_worked (app : Application) : Moves Worked (clientReadPkOk app) := by
  refine .bind (modifyEnc_worked (fun enc => ?_) fun enc => ?_) fun _ => ?_
  · split
    · split <;> rfl
    · rfl
  · split
    · split <;> rfl
    · rfl
  · refine Moves.get.bind fun s => getEnc_moves.bind fun enc => ?_
    refine .bind (moves_worked (modify_operated fun _ => rfl)) fun _ => ?_
    split
    · exact .bind (.lift _) fun packet => push_worked packet
    · exact clientAwaitSignature_worked app _
    · exact .pure _

theorem clientReadWaitingAuth_worked (app : Application) (buf : Bytes) :
    Moves Worked (clientReadWaitingAuth app buf) := by
  unfold clientReadWaitingAuth
  by_cases hsuccess : buf.head? = some msg.USERAUTH_SUCCESS
  · rw [if_pos hsuccess]
    refine .bind (moves_worked (sendReply_operated app _)) fun _ => ?_
    exact modifyEnc_worked (fun _ => rfl) fun _ => rfl
  rw [if_neg hsuccess]
  by_cases hbanner : buf.head? = some msg.USERAUTH_BANNER
  · rw [if_pos hbanner]
    refine .bind (.lift _) fun ⟨banner, r⟩ => ?_
    dsimp only
    split
    · exact moves_worked (finish_operated app _)
    · exact .pure _
  rw [if_neg hbanner]
  by_cases hfailure : buf.head? = some msg.USERAUTH_FAILURE
  · rw [if_pos hfailure]
    refine .bind (.lift _) fun ⟨remainingMethods, r⟩ => ?_
    refine .bind (modifyEnc_worked (fun enc => ?_) fun enc => ?_) fun _ => ?_
    · split <;> rfl
    · split <;> rfl
    · refine .bind (moves_worked (modify_operated fun _ => rfl)) fun _ => ?_
      refine .bind (moves_worked (sendReply_operated app _)) fun _ => ?_
      split
      · exact .throw _
      · exact .pure _
  rw [if_neg hfailure]
  by_cases hpkOk : buf.head? = some msg.USERAUTH_PK_OK
  · rw [if_pos hpkOk]
    exact clientReadPkOk_worked app
  · rw [if_neg hpkOk]
    exact .throw _

/-- What becomes of a session whose packet is not dispatched: its channels are
worked on, or it is encrypted now, without a channel. -/
inductive Undispatched (s t : Session) : Prop where
  /-- Operations, and packets that are queued. -/
  | works (h : Relation.ReflTransGen Worked s t)
  /-- The first key exchange is over. -/
  | started (hs : s.common.encrypted = none) (enc : Encrypted) (ht : t.common.encrypted = some enc)
    (hchannels : enc.channels = fun _ => none) (hemitted : enc.emitted = [])

/-- Sessions that stand at the same. -/
theorem worked_of_standing (h : t.common.standing = s.common.standing) : Worked s t := by
  unfold CommonSession.standing at h
  unfold Worked
  cases hs : s.common.encrypted with
  | none =>
    rw [hs, Option.map_none, Option.map_eq_none_iff] at h
    rw [h]
    exact .none
  | some enc =>
    rw [hs, Option.map_some] at h
    obtain ⟨enc', ht, hsame⟩ := Option.map_eq_some_iff.mp h
    rw [ht]
    have hchannels : enc'.channels = enc.channels := congrArg (fun x => x.2.2.1) hsame
    have hemitted : enc'.emitted = enc.emitted := congrArg (fun x => x.2.1) hsame
    exact .some (.operates (.idle hchannels hemitted))

theorem Undispatched.of_standing (h : t.common.standing = s.common.standing) :
    Undispatched s t :=
  .works (.single (worked_of_standing h))

/-- A step behind it that leaves what the session stands at. -/
theorem Undispatched.stays (h : Undispatched s t) (hu : u.common.standing = t.common.standing) :
    Undispatched s u := by
  cases h with
  | works h => exact .works (h.tail (worked_of_standing hu))
  | started hs enc ht hchannels hemitted =>
    unfold CommonSession.standing at hu
    rw [ht, Option.map_some] at hu
    obtain ⟨enc', hu', hsame⟩ := Option.map_eq_some_iff.mp hu
    refine .started hs enc' hu' ?_ ?_
    · exact (congrArg (fun x => x.2.2.1) hsame).trans hchannels
    · exact (congrArg (fun x => x.2.1) hsame).trans hemitted

/-- What a key exchange leaves of the table. -/
theorem exchanged_undispatched (h : Exchanged s.common buf t.common) : Undispatched s t := by
  generalize hc : t.common = c at h
  cases h with
  | skip h => exact .of_standing (by rw [hc])
  | answer hk hhead hread =>
    exact .of_standing (by rw [hc]; exact (setExchanging_standing _ _).1)
  | guess hk hhead hguess =>
    exact .of_standing (by rw [hc]; exact (setExchanging_standing _ _).1)
  | finish hk hguess hhead hchecks =>
    exact .of_standing (by rw [hc]; exact (setExchanging_standing _ _).1)
  | first henc hk hhead => exact .started henc _ (by rw [hc]; rfl) rfl rfl
  | install henc hrekey hhead =>
    refine .of_standing ?_
    rw [hc]
    simp only [CommonSession.newkeys, CommonSession.standing, henc, Option.map_some]
    rfl
  | drop henc hrekey hphase hhead =>
    refine .of_standing ?_
    rw [hc]
    simp only [CommonSession.standing, henc, Option.map_some]
    rfl

/-- A packet that is not dispatched. -/
theorem reply_undispatched (app : Application) (hsound : s.common.Sound)
    (h : ¬ (s.Settled ∧ ¬ s.common.InExchange buf)) :
    Ends (reply app buf) s (fun _ t => Undispatched s t) (Undispatched s) := by
  by_cases hin : s.common.InExchange buf
  · rcases reply_replied app hsound hin with ⟨u, hexchanged, hreply | hreply⟩ |
      ⟨e, u, packets, hreply, hseals⟩
    · unfold Ends
      rw [hreply]
      exact exchanged_undispatched hexchanged
    · refine .of_final ?_
      rw [hreply]
      refine (exchanged_undispatched hexchanged).stays ?_
      have hfinal : (final (onCommon flush u)).common = final (flush u.common) := by
        simp only [onCommon, zoom]
        cases flush u.common <;> rfl
      rw [hfinal]
      exact (flush_final u.common).standing_eq
    · unfold Ends
      rw [hreply]
      exact .of_standing hseals.standing_eq
  · refine .of_final ?_
    rw [reply_state app hsound hin]
    cases henc : s.common.encrypted with
    | none => exact absurd (.inl henc) hin
    | some enc =>
      simp only [clientReadState, run_bind, run_get, henc]
      cases hstate : enc.state with
      | waitingServiceRequest sent accepted => exact .works (clientReadServiceAccept_worked buf s)
      | waitingAuthRequest auth => exact .works (clientReadWaitingAuth_worked app buf s)
      | initCompression => exact .works .refl
      | authenticated => exact absurd ⟨⟨enc, henc, hstate⟩, hin⟩ h

end

end Thrussh.Client
