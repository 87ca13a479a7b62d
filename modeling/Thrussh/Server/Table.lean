import Thrussh.Server.Known
import Thrussh.Table

/-!
# The server's table of channels

The calls of a handler, and the local messages, operate on the channels and
on the queue. A packet that an authenticated session serves is dispatched, and
operations follow; any other packet comes to operations.
-/

namespace Thrussh.Server

open Deps Lib

variable [Deps]

/-- Two sessions that an operation relates. -/
def Operated (replies : Prop) (s t : Session) : Prop := Operating replies s.common t.common

/-- Whether a call replies to a request. -/
def Call.replies : Call → Bool
  | .requestSuccess => true
  | .requestFailure => true
  | .channelSuccess _ => true
  | .channelFailure _ => true
  | _ => false

variable {replies : Prop}

/-! ### Calls on the session -/

theorem onCommon_operated {α : Type} {x : CommonM Config α}
    (h : ∀ s, Operating replies s (final (x s))) : Moves (Operated replies) (onCommon x) :=
  Moves.zoom (q := Operating replies) (fun s => .single (h s)) (fun _ _ _ h => .single h) fun _ => rfl

/-- A change that leaves `enc`. -/
theorem modify_operated {f : Session → Session}
    (h : ∀ s, (f s).common.encrypted = s.common.encrypted) :
    Moves (Operated replies) (modify f : M Unit) :=
  Moves.modify fun s => .single (.of_eq (h s))

theorem modifyEnc_operated {f : Encrypted → Encrypted} (h : ∀ enc, Operates replies enc (f enc)) :
    Moves (Operated replies) (modifyEnc f) :=
  Moves.modify fun s => .single (.modifyEnc s.common h)

theorem push_operated {m : UInt8} {rest : Bytes} (h : PlainHead m) :
    Moves (Operated replies) (push (m :: rest)) :=
  modifyEnc_operated fun enc => .push (h.plain rest) rfl rfl

theorem flush_operated : Moves (Operated replies) (onCommon flush) :=
  onCommon_operated fun s => (flush_final s).operating

theorem ask_operated (handler : Handler) (callback : Callback) :
    Moves (Operated replies) (ask handler callback) :=
  fun _ => .single (.of_eq rfl)

theorem answer_operated {body : Bytes} (h : replies) (hbody : IsBare body) :
    Moves (Operated replies) (push body) :=
  modifyEnc_operated fun enc => .answered enc h hbody

theorem requestSuccess_operated (h : replies) : Moves (Operated replies) requestSuccess := by
  refine Moves.get.bind fun s => ?_
  split
  · split
    · refine .bind (modify_operated fun _ => rfl) fun _ => ?_
      exact answer_operated h (.inl rfl)
    · exact .pure _
  · exact .pure _

theorem requestFailure_operated (h : replies) : Moves (Operated replies) requestFailure := by
  refine Moves.get.bind fun s => ?_
  split
  · refine .bind (modify_operated fun _ => rfl) fun _ => ?_
    exact answer_operated h (.inr (.inl rfl))
  · exact .pure _

theorem channelReply_operated {m : UInt8} (hr : replies) (hm : IsReply m) (channel : UInt32) :
    Moves (Operated replies) (channelReply m channel) := by
  refine onCommon_operated (updateEnc_operating fun enc enc' h => ?_)
  cases hch : enc.channels channel with
  | none =>
    rw [hch] at h
    cases h
    exact .idle rfl rfl
  | some ch =>
    rw [hch] at h
    dsimp only at h
    by_cases hconfirmed : ch.confirmed = true
    · rw [if_pos hconfirmed] at h
      by_cases hwants : ch.wantsReply = true
      · rw [if_pos hwants] at h
        cases h
        exact .replied enc hr hch hwants hm
      · rw [if_neg hwants] at h
        cases h
        exact .idle rfl rfl
    · rw [if_neg hconfirmed] at h
      cases h

theorem confirmedRequest_operated (channel : UInt32) (name rest : Bytes) :
    Moves (Operated replies) (confirmedRequest channel name rest) := by
  refine onCommon_operated (updateEnc_operating fun enc enc' h => ?_)
  cases hch : enc.channels channel with
  | none =>
    rw [hch] at h
    cases h
    exact .idle rfl rfl
  | some ch =>
    rw [hch] at h
    dsimp only at h
    by_cases hconfirmed : ch.confirmed = true
    · rw [if_pos hconfirmed] at h
      cases h
      have hhead : PlainHead msg.CHANNEL_REQUEST := by decide
      exact .push (hhead.plain _) rfl rfl
    · rw [if_neg hconfirmed] at h
      cases h

theorem data_operated (channel : UInt32) (d : Bytes) : Moves (Operated replies) (data channel d) :=
  assertEncrypted_moves.bind fun _ =>
    onCommon_operated (updateEnc_operating fun _ _ h => .data h)

theorem extendedData_operated (channel extended : UInt32) (d : Bytes) :
    Moves (Operated replies) (extendedData channel extended d) :=
  assertEncrypted_moves.bind fun _ =>
    onCommon_operated (updateEnc_operating fun _ _ h => .extendedData h)

theorem byte_operated (channel : UInt32) {m : UInt8} (h : PlainHead m) :
    Moves (Operated replies) (onCommon (modify (·.byte channel m))) :=
  onCommon_operated fun s => .modifyEnc s fun enc => byte_operates enc channel h

theorem channelOpenForwardedTcpip_operated (connectedAddress : Bytes) (connectedPort : UInt32)
    (originatorAddress : Bytes) (originatorPort : UInt32) :
    Moves (Operated replies) (channelOpenForwardedTcpip connectedAddress connectedPort originatorAddress
      originatorPort) := by
  refine Moves.get.bind fun s => onCommon_operated (updateEnc_operating fun enc enc' h => ?_)
  split at h
  · obtain ⟨⟨id, enc₁⟩, hnew, hrest⟩ := ok_of_bind h
    cases hrest
    exact .opened _ _ hnew
  · cases h
    exact .idle rfl rfl

/-- Every call of a handler operates on the table. -/
theorem runCall_operated {call : Call} (h : call.replies = true → replies) :
    Moves (Operated replies) (runCall call) := by
  cases call with
  | flush => exact flush_operated
  | flushPending channel =>
    refine onCommon_operated (updateEnc_operating fun enc enc' h => ?_)
    obtain ⟨⟨enc₁, total⟩, hflush, hrest⟩ := ok_of_bind h
    cases hrest
    exact .flushPending hflush
  | disconnect reason description languageTag =>
    exact onCommon_operated fun s => disconnect_operating s reason description languageTag
  | requestSuccess => exact requestSuccess_operated (h rfl)
  | requestFailure => exact requestFailure_operated (h rfl)
  | channelSuccess channel => exact channelReply_operated (h rfl) (.inl rfl) channel
  | channelFailure channel => exact channelReply_operated (h rfl) (.inr rfl) channel
  | channelOpenFailure channel reason description language =>
    exact push_operated (m := msg.CHANNEL_OPEN_FAILURE) (by decide)
  | close channel => exact byte_operated channel (by decide)
  | eof channel => exact byte_operated channel (by decide)
  | data channel d => exact data_operated channel d
  | extendedData channel extended d => exact extendedData_operated channel extended d
  | xonXoffRequest channel clientCanDo => exact confirmedRequest_operated channel _ _
  | exitStatusRequest channel exitStatus => exact confirmedRequest_operated channel _ _
  | exitSignalRequest channel signal coreDumped errorMessage languageTag =>
    exact confirmedRequest_operated channel _ _
  | channelOpenForwardedTcpip connectedAddress connectedPort originatorAddress originatorPort =>
    exact channelOpenForwardedTcpip_operated _ _ _ _

/-- A method of the handler operates on the table by the calls it makes. -/
theorem finished_operates {handler : Handler} {callback : Callback}
    (h : ∀ n s, ∀ call ∈ (handler n callback s).calls, call.replies = true → replies) :
    Moves (Operated replies) (finished handler callback) := by
  refine (ask_operated handler callback).bind_ok fun s answer t hask => ?_
  have hanswer : handler s.common.tick callback s = answer := by
    unfold ask at hask
    cases hask
    rfl
  rw [← hanswer]
  have hcalls : Moves (Operated replies) ((handler s.common.tick callback s).calls.forM runCall) :=
    .forM_mem fun call hcall => runCall_operated (h _ s call hcall)
  refine hcalls.bind fun _ => ?_
  split
  · exact .throw _
  · exact .pure _

theorem finished_operated (handler : Handler) (callback : Callback) :
    Moves (Operated True) (finished handler callback) :=
  finished_operates fun _ _ _ _ _ => trivial

theorem finish_operated (handler : Handler) (callback : Callback) :
    Moves (Operated True) (finish handler callback) :=
  (finished_operated handler callback).bind fun _ => .pure _

/-- A local message operates on the table. -/
theorem message_operated (m : Option (UInt32 × ChannelMsg)) : Moves (Operated replies) (message m) := by
  cases m with
  | none => exact .pure _
  | some p =>
    obtain ⟨id, m⟩ := p
    cases m with
    | data d => exact (data_operated id d).bind fun _ => .pure _
    | extendedData d ext => exact (extendedData_operated id ext d).bind fun _ => .pure _
    | eof =>
      exact (byte_operated id (by decide)).bind fun _ => .pure _
    | xonXoff clientCanDo => exact (confirmedRequest_operated id _ _).bind fun _ => .pure _
    | exitStatus exitStatus => exact (confirmedRequest_operated id _ _).bind fun _ => .pure _
    | exitSignal signalName coreDumped errorMessage langTag =>
      exact (confirmedRequest_operated id _ _).bind fun _ => .pure _
    | windowAdjusted newSize => exact .bind (.pure _) fun _ => .pure _
    | success => exact .bind (.pure _) fun _ => .pure _

/-! ### Packets of an authenticated session -/

/-- Two sessions between which a packet is served. -/
def Serving (buf : Bytes) (s t : Session) : Prop :=
  Option.Rel (Handles buf) s.common.encrypted t.common.encrypted

section
variable {handler : Handler} {s t u : Session} {buf : Bytes} {enc mid : Encrypted}

/-- What operates on the session operates on `enc`. -/
theorem operations_of_operated (h : Relation.ReflTransGen (Operated replies) s t) :
    Option.Rel (Operations replies) s.common.encrypted t.common.encrypted :=
  rel_of_steps (fun u : Session => u.common.encrypted) h

/-- A step of the dispatcher, and operations. -/
theorem Serving.dispatch (henc : s.common.encrypted = some enc)
    (hmid : t.common.encrypted = some mid) (h : Dispatches buf enc mid)
    (hrest : Relation.ReflTransGen (Operated True) t u) : Serving buf s u := by
  have hoperations := operations_of_operated hrest
  unfold Serving
  rw [henc]
  rw [hmid] at hoperations
  generalize u.common.encrypted = c at hoperations ⊢
  cases hoperations with
  | some hoperations => exact .some ⟨enc, mid, rfl, rfl, h, hoperations⟩

/-- Operations alone. -/
theorem Serving.operations (henc : s.common.encrypted = some enc)
    (h : Relation.ReflTransGen (Operated True) s t) : Serving buf s t :=
  .dispatch henc henc (.none enc) h

/-- What a program of operations makes of a session whose packet is dispatched. -/
theorem serving_ends {α : Type} {x : M α} (henc : s.common.encrypted = some enc)
    (hmid : t.common.encrypted = some mid) (h : Dispatches buf enc mid) (hx : Moves (Operated True) x) :
    Ends x t (fun _ u => Serving buf s u) (Serving buf s) :=
  .of_final (.dispatch henc hmid h (hx t))

theorem serverReadChannelClose_serving (hhead : buf.head? = some msg.CHANNEL_CLOSE)
    (henc : s.common.encrypted = some enc) :
    Ends (serverReadChannelClose handler buf) s (fun _ t => Serving buf s t) (Serving buf s) := by
  have hsame : Serving buf s s := .operations henc .refl
  refine .lift_bind hsame fun ⟨id, r⟩ hid => ?_
  refine .bind (m := fun _ t => t.common.encrypted = some (enc.removeChannel id)) (.modify ?_)
    fun _ t ht => ?_
  · simp only [CommonSession.modifyEnc, henc, Option.map_some]
  · exact serving_ends henc ht (.removed enc (.inl hhead) hid) (finish_operated handler _)

/-- What the server does with data once they are taken off the window. -/
theorem afterData_operated (handler : Handler) (callback : Callback) (channelNum target : UInt32)
    (adjusted : Bool) : Moves (Operated True) (do
      if adjusted then do
        let answer ← ask handler (.adjustWindow channelNum target)
        if answer.window > 0 then modify fun s => { s with targetWindowSize := answer.window }
        else pure ()
      else pure ()
      onCommon flush
      finish handler callback) := by
  have hrest : Moves (Operated True) (do onCommon flush; finish handler callback) :=
    flush_operated.bind fun _ => finish_operated handler _
  cases adjusted with
  | false => exact hrest
  | true =>
    refine .bind (ask_operated handler _) fun answer => ?_
    by_cases hwindow : answer.window > 0
    · simp only [if_pos hwindow]
      exact .bind (modify_operated fun _ => rfl) fun _ => hrest
    · simp only [if_neg hwindow]
      exact hrest

theorem serverReadData_serving
    (hhead : buf.head? = some msg.CHANNEL_DATA ∨ buf.head? = some msg.CHANNEL_EXTENDED_DATA)
    (henc : s.common.encrypted = some enc) :
    Ends (serverReadData handler buf) s (fun _ t => Serving buf s t) (Serving buf s) := by
  have hsame : Serving buf s s := .operations henc .refl
  refine .lift_bind hsame fun ⟨id, r⟩ hid => .lift_bind hsame fun ⟨ext, r₁⟩ hext => ?_
  refine .lift_bind hsame fun ⟨d, r₂⟩ hd => .get_bind ?_
  have hrun := run_onCommon (f := fun enc => .ok (enc.adjustWindowSize id d s.targetWindowSize).swap)
    henc rfl
  refine .bind (m := fun _ t => t.common.encrypted =
    some (enc.adjustWindowSize id d s.targetWindowSize).1) ?_ fun adjusted t ht => ?_
  · unfold Ends
    rw [hrun]
    rfl
  · exact serving_ends henc ht (.received enc hhead hid) (afterData_operated handler _ id _ adjusted)

theorem serverReadWindowAdjust_serving (hhead : buf.head? = some msg.CHANNEL_WINDOW_ADJUST)
    (henc : s.common.encrypted = some enc) :
    Ends (serverReadWindowAdjust handler buf) s (fun _ t => Serving buf s t) (Serving buf s) := by
  have hsame : Serving buf s s := .operations henc .refl
  refine .lift_bind hsame fun ⟨id, r⟩ hid => .lift_bind hsame fun ⟨amount, r₁⟩ hamount => ?_
  refine .bind (m := fun newSize t => ∃ enc', t.common.encrypted = some enc' ∧
    enc.adjustRecipientWindow id amount = .ok (newSize, enc')) ?_ fun newSize t ht => ?_
  · unfold Ends
    cases hadjust : enc.adjustRecipientWindow id amount with
    | ok res =>
      rw [run_onCommon henc hadjust]
      exact ⟨res.2, rfl, rfl⟩
    | error e =>
      simp only [onCommon, zoom, withEnc, run_bind, run_get, henc, hadjust, run_lift_error]
      exact hsame
  · obtain ⟨enc', ht, hadjust⟩ := ht
    exact serving_ends henc ht (.adjusted hhead hid hamount hadjust) (finish_operated handler _)

theorem serverReadChannelRequest_serving (hhead : buf.head? = some msg.CHANNEL_REQUEST)
    (henc : s.common.encrypted = some enc) :
    Ends (serverReadChannelRequest handler buf) s (fun _ t => Serving buf s t)
      (Serving buf s) := by
  have hsame : Serving buf s s := .operations henc .refl
  refine .lift_bind hsame fun ⟨id, r⟩ hid => .lift_bind hsame fun ⟨req, r₁⟩ hreq => ?_
  refine .lift_bind hsame fun ⟨wants, r₂⟩ hwants => ?_
  refine .bind (m := fun _ t => ∃ enc', t.common.encrypted = some enc' ∧
    Dispatches buf enc enc') (.modify ?_) fun _ t ht => ?_
  · simp only [CommonSession.modifyEnc, henc, Option.map_some]
    refine ⟨_, rfl, ?_⟩
    cases hch : enc.channels id with
    | none => exact .none enc
    | some ch => exact .wanted hhead hid hreq hwants hch
  · obtain ⟨enc', ht, hdispatches⟩ := ht
    refine serving_ends henc ht hdispatches ?_
    refine .bind (.lift _) fun callback => ?_
    cases callback with
    | some callback => exact finish_operated handler _
    | none => exact answer_operated trivial (.inr (.inr rfl))

theorem serverReplyForward_operated (handler : Handler) (callback : Callback) :
    Moves (Operated True) (serverReplyForward handler callback) := by
  refine (finished_operated handler callback).bind fun result => ?_
  split
  · exact answer_operated trivial (.inl rfl)
  · exact answer_operated trivial (.inr (.inl rfl))

theorem serverReadGlobalRequest_operated (handler : Handler) (buf : Bytes) :
    Moves (Operated True) (serverReadGlobalRequest handler buf) := by
  refine .bind (.lift _) fun ⟨reqType, r⟩ => .bind (.lift _) fun ⟨wantsReply, r⟩ => ?_
  refine .bind (modify_operated fun _ => rfl) fun _ => ?_
  dsimp only
  split
  · refine .bind (.lift _) fun ⟨address, r⟩ => .bind (.lift _) fun address => ?_
    exact .bind (.lift _) fun ⟨port, r⟩ => serverReplyForward_operated handler _
  · split
    · refine .bind (.lift _) fun ⟨address, r⟩ => .bind (.lift _) fun address => ?_
      exact .bind (.lift _) fun ⟨port, r⟩ => serverReplyForward_operated handler _
    · exact answer_operated trivial (.inr (.inl rfl))

/-- An opening that is accepted. -/
theorem confirmChannelOpen_accepts {id : UInt32} (asked : Asked) {enc₁ : Encrypted}
    (hid : enc.newChannelId = .ok (id, enc₁)) (hmid : t.common.encrypted = some enc₁) :
    ∃ u, confirmChannelOpen (asked.entry id t.common.config.windowSize
        t.common.config.maximumPacketSize) t = .ok () u ∧ ∃ enc₂, u.common.encrypted = some enc₂ ∧
      Accepts asked t.common.config.windowSize t.common.config.maximumPacketSize enc id enc₂ := by
  refine ⟨_, rfl, _, ?_, .mk hid⟩
  simp only [CommonSession.modifyEnc, hmid, Option.map_some]
  rfl

theorem serverHandleChannelOpen_serving (hhead : buf.head? = some msg.CHANNEL_OPEN)
    (henc : s.common.encrypted = some enc) :
    Ends (serverHandleChannelOpen handler buf) s (fun _ t => Serving buf s t)
      (Serving buf s) := by
  have hsame : Serving buf s s := .operations henc .refl
  refine .lift_bind hsame fun res₀ htyp => .lift_bind hsame fun res₁ hsender => ?_
  refine .lift_bind hsame fun res₂ hwindow => .lift_bind hsame fun res₃ hmax => ?_
  obtain ⟨typ, r⟩ := res₀
  obtain ⟨sender, r₁⟩ := res₁
  obtain ⟨window, r₂⟩ := res₂
  obtain ⟨maxpacket, r₃⟩ := res₃
  refine .bind (m := fun id t => t.common.config = s.common.config ∧ ∃ enc₁,
    t.common.encrypted = some enc₁ ∧ enc.newChannelId = .ok (id, enc₁)) ?_ fun id t ht => ?_
  · unfold Ends
    cases hnew : enc.newChannelId with
    | ok res =>
      rw [run_onCommon henc hnew]
      exact ⟨rfl, res.2, rfl, rfl⟩
    | error e =>
      simp only [onCommon, zoom, withEnc, run_bind, run_get, henc, hnew, run_lift_error]
      exact hsame
  obtain ⟨hconfig, enc₁, ht, hnew⟩ := ht
  refine .get_bind ?_
  let asked : Asked := ⟨sender, window, maxpacket⟩
  obtain ⟨u, hrun, enc₂, hu, haccepts⟩ := confirmChannelOpen_accepts asked hnew ht
  have hdispatches : Dispatches buf enc enc₂ :=
    .accepted hhead htyp hsender hwindow hmax haccepts
  have hopened : ∀ {x : M Unit}, Moves (Operated True) x →
      Ends (do confirmChannelOpen (asked.entry id t.common.config.windowSize
        t.common.config.maximumPacketSize); x) t
        (fun _ t => Serving buf s t) (Serving buf s) := by
    intro x hx
    refine .bind (m := fun _ v => v = u) ?_ fun _ v hv => ?_
    · unfold Ends
      rw [hrun]
    · rw [hv]
      exact serving_ends henc hu hdispatches hx
  dsimp only
  split
  · exact hopened (finish_operated handler _)
  split
  · refine hopened (.bind (.lift _) fun a => .bind (.lift _) fun _ => ?_)
    exact .bind (.lift _) fun b => finish_operated handler _
  split
  · refine hopened (.bind (.lift _) fun a => .bind (.lift _) fun _ => ?_)
    refine .bind (.lift _) fun b => .bind (.lift _) fun c => .bind (.lift _) fun _ => ?_
    exact .bind (.lift _) fun d => finish_operated handler _
  · have hstep : Operated True s t := by
      obtain ⟨-, henc₁⟩ := newChannelId_ok hnew
      unfold Operated Operating
      rw [henc, ht, henc₁]
      exact .some (.idle rfl rfl)
    have hpush : Moves (Operated True) (push (channelOpenFailurePacket sender 3
        (ascii "Unknown channel type") (ascii "en"))) :=
      push_operated (m := msg.CHANNEL_OPEN_FAILURE) (by decide)
    exact .of_final (.operations henc (.trans (.single hstep) (hpush t)))

/-- A packet that an authenticated session serves. -/
theorem serverReadAuthenticated_serving (handler : Handler) (buf : Bytes)
    (henc : s.common.encrypted = some enc) :
    Ends (serverReadAuthenticated handler buf) s (fun _ t => Serving buf s t)
      (Serving buf s) := by
  unfold serverReadAuthenticated
  by_cases hopen : buf.head? = some msg.CHANNEL_OPEN
  · rw [if_pos hopen]
    exact serverHandleChannelOpen_serving hopen henc
  rw [if_neg hopen]
  by_cases hclose : buf.head? = some msg.CHANNEL_CLOSE
  · rw [if_pos hclose]
    exact serverReadChannelClose_serving hclose henc
  rw [if_neg hclose]
  by_cases heof : buf.head? = some msg.CHANNEL_EOF
  · rw [if_pos heof]
    refine serving_ends henc henc (.none enc) ?_
    exact .bind (.lift _) fun ⟨_, _⟩ => finish_operated handler _
  rw [if_neg heof]
  by_cases hdata : buf.head? = some msg.CHANNEL_EXTENDED_DATA ∨ buf.head? = some msg.CHANNEL_DATA
  · rw [if_pos hdata]
    exact serverReadData_serving hdata.symm henc
  rw [if_neg hdata]
  by_cases hadjust : buf.head? = some msg.CHANNEL_WINDOW_ADJUST
  · rw [if_pos hadjust]
    exact serverReadWindowAdjust_serving hadjust henc
  rw [if_neg hadjust]
  by_cases hrequest : buf.head? = some msg.CHANNEL_REQUEST
  · rw [if_pos hrequest]
    exact serverReadChannelRequest_serving hrequest henc
  rw [if_neg hrequest]
  by_cases hglobal : buf.head? = some msg.GLOBAL_REQUEST
  · rw [if_pos hglobal]
    exact serving_ends henc henc (.none enc) (serverReadGlobalRequest_operated handler buf)
  rw [if_neg hglobal]
  exact serving_ends henc henc (.none enc) (.pure _)

/-- A packet that a settled session serves outside a key exchange. -/
theorem reply_serving (handler : Handler) (hsettled : s.Settled)
    (hout : ¬ s.common.InExchange buf) :
    Ends (reply handler buf) s (fun _ t => Serving buf s t) (Serving buf s) := by
  obtain ⟨v, hrun, hv, hvsettled⟩ := serverReadState_settled handler buf hsettled
  obtain ⟨enc, henc⟩ := encrypted_of_settled hsettled
  obtain ⟨start, hstart⟩ := encrypted_of_settled hvsettled
  have hstanding := hv.standing
  simp only [CommonSession.standing, henc, hstart, Option.map_some, Option.some.injEq] at hstanding
  have hchannels : start.channels = enc.channels := congrArg (fun x => x.2.1) hstanding
  have hemitted : start.emitted = enc.emitted := congrArg Prod.fst hstanding
  have hserves : ∀ {t : Session}, Serving buf v t → Serving buf s t := by
    intro t ht
    unfold Serving at ht ⊢
    rw [hstart] at ht
    rw [henc]
    generalize t.common.encrypted = c at ht ⊢
    cases ht with
    | some ht =>
      obtain ⟨start', mid, hchannels', hemitted', hdispatches, hoperations⟩ := ht.handles
      exact .some ⟨start', mid, hchannels'.trans hchannels, hemitted'.trans hemitted,
        hdispatches, hoperations⟩
  have hends := (serverReadAuthenticated_serving handler buf hstart).mono (fun _ _ => hserves)
    fun _ => hserves
  refine .congr (reply_state handler hout) ?_
  unfold Ends at hends ⊢
  rw [hrun]
  exact hends

/-! ### Other packets -/

/-- What a step of the dialogue adds to the queue, and no more. -/
structure Adds (v w : View) : Prop where
  /-- Packets of the authentication are queued. -/
  emitted : ∃ bodies, w.emitted = v.emitted ++ bodies ∧ ∀ body ∈ bodies, ¬ Connects body
  /-- No channel changes. -/
  channels : w.channels = v.channels

omit [Deps] in
/-- A packet that is none of the connection protocol is plain. -/
theorem plain_of_not_connects {body : Bytes} (h : ¬ Connects body) : Plain body := by
  intro m hm
  have hne : ∀ n : UInt8, msg.GLOBAL_REQUEST ≤ n → m ≠ n := by
    intro n hn hmn
    exact h ⟨m, hm, by rw [hmn]; exact hn⟩
  exact ⟨hne _ (by decide), hne _ (by decide), hne _ (by decide), hne _ (by decide),
    hne _ (by decide), hne _ (by decide), hne _ (by decide), hne _ (by decide), hne _ (by decide)⟩

theorem Told.adds {v w : View} {bodies : List Bytes} (h : Told v w bodies)
    (hbodies : ∀ body ∈ bodies, ¬ Connects body) : Adds v w :=
  ⟨⟨bodies, h.emitted, hbodies⟩, h.channels⟩

theorem Requested.adds {v w : View} {auth : AuthRequest} (h : Requested v auth buf w) :
    Adds v w := by
  cases h with
  | rejected htold hstate => exact htold.adds (not_connects (by decide))
  | prompted htold hstate => exact htold.adds (not_connects (by decide))
  | probed hkey haccepts hw =>
    subst hw
    exact ⟨⟨_, rfl, not_connects (m := msg.USERAUTH_PK_OK) (by decide)⟩, rfl⟩
  | other hother hcallback haccepts hasked htold hstate =>
    exact htold.adds (not_connects (by decide))
  | vouched hreq hsent huser hverified hw =>
    subst hw
    exact ⟨⟨_, rfl, not_connects (by decide)⟩, rfl⟩
  | asked hreq haccepts hverified hw =>
    subst hw
    exact ⟨⟨_, rfl, not_connects (by decide)⟩, rfl⟩

theorem Answered.adds {v w : View} {auth : AuthRequest} (h : Answered handler s v auth buf w) :
    Adds v w := by
  cases h with
  | ignored hw =>
    subst hw
    exact ⟨⟨[], (List.append_nil _).symm, by simp⟩, rfl⟩
  | @requested u hhead hrequested hw =>
    obtain ⟨⟨bodies, hemitted, hbodies⟩, hchannels⟩ := hrequested.adds
    subst hw
    exact ⟨⟨bodies, by rw [View.opened_emitted, hemitted], hbodies⟩,
      by rw [View.opened_channels, hchannels]⟩
  | rejected htold hstate => exact htold.adds (not_connects (by decide))
  | prompted htold hcurrent hstate => exact htold.adds (not_connects (by decide))
  | accepted haccepts hcurrent hcallback hanswer hasked htold hstate =>
    exact htold.adds (not_connects (by decide))

/-- What a step of the dialogue adds are operations. -/
theorem Adds.operations {v w : View} (h : Adds v w) (hs : s.view = some v) (ht : t.view = some w) :
    Option.Rel (Operations True) s.common.encrypted t.common.encrypted := by
  obtain ⟨enc, henc, rfl⟩ := Option.map_eq_some_iff.mp hs
  obtain ⟨enc', henc', rfl⟩ := Option.map_eq_some_iff.mp ht
  obtain ⟨⟨bodies, hemitted, hbodies⟩, hchannels⟩ := h
  rw [henc, henc']
  exact .some (.of_plain (fun body hbody => plain_of_not_connects (hbodies body hbody)) hchannels
    hemitted)

/-- What becomes of a session whose packet is not dispatched: operations, or
the session is encrypted now, without a channel. -/
inductive Undispatched (s t : Session) : Prop where
  /-- Operations. -/
  | operations (h : Option.Rel (Operations True) s.common.encrypted t.common.encrypted)
  /-- The first key exchange is over. -/
  | started (hs : s.common.encrypted = none) (ht : t.common.standing = some started)

theorem Undispatched.of_standing (h : t.common.standing = s.common.standing) :
    Undispatched s t := by
  refine .operations ?_
  unfold CommonSession.standing at h
  cases hs : s.common.encrypted with
  | none =>
    rw [hs, Option.map_none, Option.map_eq_none_iff] at h
    rw [h]
    exact .none
  | some enc =>
    rw [hs, Option.map_some] at h
    obtain ⟨enc', ht, hsame⟩ := Option.map_eq_some_iff.mp h
    rw [ht]
    exact .some (.single (.idle (congrArg (fun x => x.2.2.1) hsame) (congrArg (fun x => x.2.1) hsame)))

/-- A packet that is not dispatched. -/
theorem reply_undispatched (handler : Handler) (hsound : s.common.Sound)
    (h : ¬ (s.Settled ∧ ¬ s.common.InExchange buf)) :
    Ends (reply handler buf) s (fun _ t => Undispatched s t) (Undispatched s) := by
  by_cases hin : s.common.InExchange buf
  · have hstands : ∀ {t}, Stands s t → Undispatched s t := by
      intro t ht
      rcases ht.standing with hstanding | ⟨hnone, hstanding⟩
      · exact .of_standing hstanding
      · exact .started hnone hstanding
    exact (reply_stands handler hsound hin).mono (fun _ _ => hstands) fun _ => hstands
  refine .congr (reply_state handler hin) ?_
  cases henc : s.common.encrypted with
  | none => exact absurd (.inl henc) hin
  | some enc =>
    obtain ⟨v, hv, hvstate, -⟩ := view_some henc
    have hshown := (view_shows hv).1
    rw [hvstate] at hshown
    have hadds : ∀ {t w}, t.view = some w → Adds v w → Undispatched s t :=
      fun ht hw => .operations (hw.operations hv ht)
    have hsame : ∀ {t}, t.view = some v → Undispatched s t :=
      fun ht => hadds ht ((Told.refl v).adds (by simp))
    cases hcase : enc.state with
    | waitingServiceRequest sent accepted =>
      refine (serverReadState_service handler buf hv (hvstate.trans hcase)).mono
        (fun _ t ht => ?_) fun _ => hsame
      rcases ht with ht | ⟨methods, banner, ht⟩
      · exact hsame ht
      · exact hadds ht ⟨⟨servicePackets banner, rfl, servicePackets_not_connects banner⟩, rfl⟩
    | waitingAuthRequest auth =>
      exact (serverReadState_answered handler buf hv (hvstate.trans hcase)).mono
        (fun _ t ⟨w, ht, hw⟩ => hadds ht hw.adds)
        fun t ⟨w, _, ht, hw, _⟩ => hadds ht (hw.adds (by simp))
    | initCompression => exact absurd ⟨.inl (by rw [hshown, hcase]), hin⟩ h
    | authenticated => exact absurd ⟨.inr (by rw [hshown, hcase]), hin⟩ h

end

end Thrussh.Server
