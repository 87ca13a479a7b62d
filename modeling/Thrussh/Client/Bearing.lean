import Thrussh.Client.Authentic
import Thrussh.Client.Robust
import Thrussh.Lib.Yields

/-!
# What the client bears

The packets that a client in an exchange leaves to its stage of the session
are served, or refused with an error, as long as a few things hold of the
packet and of the session it finds. The reason of a failed opening is known,
a window has room for a grant, an application that has a signer waited for
sends a signed request, and what the handler does with the session in its
turn returns.
-/

namespace Thrussh.Client

open Deps Lib

section
variable [Deps]

/-- An application with another handler. -/
def Application.handled (app : Application) (handler : Nat → Callback → Session → Answer) :
    Application :=
  { app with handler := handler }

/-- Handlers that grant the same windows. -/
def Application.Agrees (app : Application) (handler : Nat → Callback → Session → Answer) : Prop :=
  ∀ n channel window s, handler n (.adjustWindow channel window) s =
    app.handler n (.adjustWindow channel window) s

/-- The session once a question is answered. -/
def Session.asked (s : Session) (callback : Callback) (answer : Answer) : Session :=
  { s with
    common := { s.common with tick := s.common.tick + 1 }
    callbacks := s.callbacks ++ [(callback, answer)] }

/-- What the handler does with the session when it answers a question returns,
or returns an error. -/
def Application.Returns (app : Application) (callback : Callback) (u : Session) : Prop :=
  Fails Fault.Returned ((app.handler u.common.tick callback u).calls.forM runCall)
    (u.asked callback (app.handler u.common.tick callback u))

/-- Among the messages that arrive there is a signed request, longer than the
session id in front of it. -/
def SendsSigned (messages : List Msg) : Prop :=
  ∃ data, awaitSigned messages = .ok data ∧ 36 ≤ data.length

/-- What the client needs to serve a packet in its stage of the session. -/
structure Bears (app : Application) (s : Session) (enc : Encrypted) (buf : Bytes) : Prop where
  /-- A signature that is waited for arrives. -/
  signed : ∀ auth key, enc.state = .waitingAuthRequest auth → buf.head? = some msg.USERAUTH_PK_OK →
    s.common.authMethod = some (.futurePublicKey key) →
    ∀ u : Session, u.common.tick = s.common.tick + 1 → SendsSigned (app.awaited u.common.tick u)
  /-- The reason of a failed opening is known. -/
  reason : enc.state = .authenticated → buf.head? = some msg.CHANNEL_OPEN_FAILURE → ReasonKnown buf
  /-- A window has room for its grant. -/
  room : enc.state = .authenticated → buf.head? = some msg.CHANNEL_WINDOW_ADJUST → enc.HasRoom buf
  /-- What the handler does in its turn returns. -/
  turn : ∀ callback u, EndsAsking app.Agrees (fun handler => finish (app.handled handler))
    (fun handler => clientReadState (app.handled handler) buf) s callback u →
      app.Returns callback u

variable {app : Application} {s : Session} {enc : Encrypted} {buf : Bytes}

/-! ### The handler's turn -/

/-- The turn of a handler whose calls return. -/
theorem finish_robust_of_returns {callback : Callback} (h : app.Returns callback s) :
    Fails Fault.Returned (finish app callback) s := by
  refine Fails.bind (fun _ _ h => by cases h) fun answer t ht => ?_
  cases ht
  refine Fails.bind h fun _ _ _ => ?_
  split
  · exact .throw (Fault.returned_error _)
  · exact .pure _

/-- Programs of the client that hand the turn to its handler, or return. -/
abbrev HandsTurn (app : Application)
    (x : (Nat → Callback → Session → Answer) → M Unit) (s : Session) : Prop :=
  Yields Fault.Returned app.Agrees (fun handler => finish (app.handled handler)) x s

theorem finish_handsOver (callback : Callback) :
    HandsTurn app (fun handler => finish (app.handled handler) callback) s := .of_turn callback

/-! ### The branches -/

theorem clientReadOpenConfirmation_handsOver (henc : s.common.encrypted = some enc) (buf : Bytes) :
    HandsTurn app (fun handler => clientReadOpenConfirmation (app.handled handler) buf) s := by
  refine .lift_bind (readU32_errors _) fun ⟨idSend, r⟩ _ => ?_
  refine .lift_bind (readU32_errors _) fun ⟨idRecv, r⟩ _ => ?_
  refine .lift_bind (readU32_errors _) fun ⟨window, r⟩ _ => ?_
  refine .lift_bind (readU32_errors _) fun ⟨maxPacket, r⟩ _ => ?_
  refine .bind (withEnc_robust henc ?_) fun _ _ _ => finish_handsOver _
  split
  · exact .ok _
  · exact .error (Fault.returned_error _)

theorem clientReadChannelClose_handsOver (buf : Bytes) :
    HandsTurn app (fun handler => clientReadChannelClose (app.handled handler) buf) s := by
  refine .lift_bind (readU32_errors _) fun ⟨channelNum, r⟩ _ => ?_
  exact .modify_bind (finish_handsOver _)

theorem clientReadChannel_handsOver (callback : UInt32 → Callback) (buf : Bytes) :
    HandsTurn app (fun handler => clientReadChannel (app.handled handler) callback buf) s :=
  .lift_bind (readU32_errors _) fun ⟨_, _⟩ _ => finish_handsOver _

/-- A failure whose reason is known is told to the handler. -/
theorem clientReadOpenFailure_handsOver (h : ReasonKnown buf) :
    HandsTurn app (fun handler => clientReadOpenFailure (app.handled handler) buf) s := by
  refine .lift_bind (readU32_errors _) fun ⟨channelNum, r⟩ hid => ?_
  refine .lift_bind (readU32_errors _) fun ⟨code, r'⟩ hcode => ?_
  have hknown := h channelNum r code r' hid hcode
  dsimp only
  cases hreason : ChannelOpenFailure.fromU32 code with
  | none => exact absurd hreason hknown
  | some reasonCode =>
    refine .lift_bind (readString_errors _) fun ⟨descr, r⟩ _ => ?_
    refine .lift_bind (fromUtf8_errors _) fun descr _ => ?_
    refine .lift_bind (readString_errors _) fun ⟨language, r⟩ _ => ?_
    refine .lift_bind (fromUtf8_errors _) fun language _ => ?_
    exact .modify_bind (finish_handsOver _)

/-- A question that the handlers agree on is answered as by the one of them. -/
theorem ask_bind_handsOver {channel window : UInt32}
    {f : Answer → (Nat → Callback → Session → Answer) → M Unit}
    (h : HandsTurn app (f (app.handler s.common.tick (.adjustWindow channel window) s))
      (s.asked (.adjustWindow channel window)
        (app.handler s.common.tick (.adjustWindow channel window) s))) :
    HandsTurn app (fun handler => ask (app.handled handler) (.adjustWindow channel window) >>=
      fun answer => f answer handler) s := by
  refine .congr (fun handler hagrees => ?_) h
  rw [run_bind]
  unfold ask Application.handled
  dsimp only
  rw [hagrees]
  rfl

/-- Data of any size are taken off the window. -/
theorem clientReceiveData_handsOver (henc : s.common.encrypted = some enc) (id : UInt32)
    (data : Bytes) (callback : Callback) :
    HandsTurn app (fun handler => clientReceiveData (app.handled handler) id data callback) s := by
  refine .get_bind ?_
  refine .bind (withEnc_robust henc (.ok _)) fun grants t ht => ?_
  cases grants with
  | true =>
    simp only [if_true]
    refine ask_bind_handsOver ?_
    split
    · exact .modify_bind (finish_handsOver _)
    · exact finish_handsOver _
  | false =>
    simp only [Bool.false_eq_true, if_false]
    exact finish_handsOver _

theorem clientReadData_handsOver (henc : s.common.encrypted = some enc) (buf : Bytes) :
    HandsTurn app (fun handler => clientReadData (app.handled handler) buf) s := by
  refine .lift_bind (readU32_errors _) fun ⟨channelNum, r⟩ _ => ?_
  refine .lift_bind (readString_errors _) fun ⟨data, r⟩ _ => ?_
  exact clientReceiveData_handsOver henc channelNum data _

theorem clientReadExtendedData_handsOver (henc : s.common.encrypted = some enc) (buf : Bytes) :
    HandsTurn app (fun handler => clientReadExtendedData (app.handled handler) buf) s := by
  refine .lift_bind (readU32_errors _) fun ⟨channelNum, r⟩ _ => ?_
  refine .lift_bind (readU32_errors _) fun ⟨extendedCode, r⟩ _ => ?_
  refine .lift_bind (readString_errors _) fun ⟨data, r⟩ _ => ?_
  exact clientReceiveData_handsOver henc channelNum data _

theorem clientReadChannelRequest_handsOver (buf : Bytes) :
    HandsTurn app (fun handler => clientReadChannelRequest (app.handled handler) buf) s := by
  refine .lift_bind (readU32_errors _) fun ⟨channelNum, r⟩ _ => ?_
  refine .lift_bind (readString_errors _) fun ⟨req, r⟩ _ => ?_
  refine .lift_bind (channelRequestCallback_errors channelNum req r) fun callback _ => ?_
  cases callback with
  | none => exact .of_fails (.pure _)
  | some callback => exact finish_handsOver callback

/-- A grant that its window has room for is told to the handler. -/
theorem clientReadWindowAdjust_handsOver (henc : s.common.encrypted = some enc)
    (h : enc.HasRoom buf) :
    HandsTurn app (fun handler => clientReadWindowAdjust (app.handled handler) buf) s := by
  refine .lift_bind (readU32_errors _) fun ⟨id, r⟩ hid => ?_
  refine .lift_bind (readU32_errors _) fun ⟨amount, r'⟩ hamount => ?_
  refine .bind (withEnc_robust henc (adjustRecipientWindow_errors h hid hamount)) fun _ _ _ => ?_
  exact finish_handsOver _

theorem clientHandleChannelOpen_handsOver (buf : Bytes) :
    HandsTurn app (fun handler => clientHandleChannelOpen (app.handled handler) buf) s := by
  refine .lift_bind (readString_errors _) fun ⟨typ, r⟩ _ => ?_
  refine .lift_bind (readU32_errors _) fun ⟨senderChannel, r⟩ _ => ?_
  refine .lift_bind (readU32_errors _) fun ⟨window, r⟩ _ => ?_
  refine .lift_bind (readU32_errors _) fun ⟨maxpacket, r⟩ _ => ?_
  dsimp only
  split
  · refine .lift_bind (readString_errors _) fun ⟨address, r⟩ _ => ?_
    refine .lift_bind (readU32_errors _) fun ⟨port, r⟩ _ => ?_
    refine .lift_bind (readString_errors _) fun ⟨origAddr, r⟩ _ => ?_
    refine .lift_bind (readU32_errors _) fun ⟨origPort, r⟩ _ => ?_
    exact finish_handsOver _
  · exact .of_fails (.modify _)

/-- An authenticated client hands the turn to its handler, or returns. -/
theorem clientReadAuthenticated_handsOver (henc : s.common.encrypted = some enc)
    (hreason : buf.head? = some msg.CHANNEL_OPEN_FAILURE → ReasonKnown buf)
    (hroom : buf.head? = some msg.CHANNEL_WINDOW_ADJUST → enc.HasRoom buf) :
    HandsTurn app (fun handler => clientReadAuthenticated (app.handled handler) buf) s := by
  unfold clientReadAuthenticated
  refine .ite (fun _ => clientReadOpenConfirmation_handsOver henc buf) fun _ => ?_
  refine .ite (fun _ => clientReadChannelClose_handsOver buf) fun _ => ?_
  refine .ite (fun _ => clientReadChannel_handsOver _ buf) fun _ => ?_
  refine .ite (fun h => clientReadOpenFailure_handsOver (hreason h)) fun _ => ?_
  refine .ite (fun _ => clientReadData_handsOver henc buf) fun _ => ?_
  refine .ite (fun _ => clientReadExtendedData_handsOver henc buf) fun _ => ?_
  refine .ite (fun _ => clientReadChannelRequest_handsOver buf) fun _ => ?_
  refine .ite (fun h => clientReadWindowAdjust_handsOver henc (hroom h)) fun _ => ?_
  refine .ite (fun _ => ?_) fun _ => ?_
  · exact .lift_bind (readString_errors _) fun _ _ => .of_fails (.pure _)
  refine .ite (fun _ => clientReadChannel_handsOver _ buf) fun _ => ?_
  refine .ite (fun _ => clientHandleChannelOpen_handsOver buf) fun _ => ?_
  exact .of_fails (.pure _)

/-! ### The stages -/

/-- A reply to the handle is sent, or refused with an error. -/
theorem sendReply_robust (app : Application) (reply : Reply) (s : Session) :
    Fails Fault.Returned (sendReply app reply) s := by
  intro e t h
  unfold sendReply at h
  split at h
  · cases h
  · cases h
    exact Fault.returned_error _

/-- A service that is accepted is answered with the request that waits. -/
theorem clientReadServiceAccept_robust (buf : Bytes) (s : Session) :
    Fails Fault.Returned (clientReadServiceAccept buf) s := by
  unfold clientReadServiceAccept
  split
  · refine .lift_bind (readString_errors _) fun ⟨service, r⟩ _ => ?_
    dsimp only
    split
    · refine .modify_bind (.get_bind ?_)
      split
      · exact .modify_bind (.modify _)
      · exact .pure _
    · exact .pure _
  · exact .throw (Fault.returned_error _)

/-- A failed request ends the session if no method is left. -/
theorem clientReadAuthFailure_robust (app : Application) (buf : Bytes) (s : Session) :
    Fails Fault.Returned (clientReadAuthFailure app buf) s := by
  unfold clientReadAuthFailure
  refine .lift_bind (readString_errors _) fun ⟨remainingMethods, r⟩ _ => ?_
  refine .modify_bind (.modify_bind ?_)
  refine (sendReply_robust app _ _).bind fun _ t _ => ?_
  split
  · exact .throw (Fault.returned_error _)
  · exact .pure _

/-- An encrypted session finds its `enc`. -/
theorem getEnc_bind {α : Type} (henc : s.common.encrypted = some enc) {f : Encrypted → M α}
    (h : Fails Fault.Returned (f enc) s) : Fails Fault.Returned (getEnc >>= f) s := by
  have hget : getEnc s = .ok enc s := by
    simp only [getEnc, run_bind, run_get, henc, run_pure]
  refine Fails.bind (fun _ _ hfail => ?_) fun enc' t ht => ?_
  · rw [hget] at hfail
    cases hfail
  · rw [hget] at ht
    cases ht
    exact h

/-- A signature that arrives is sent on. -/
theorem clientAwaitSignature_robust (app : Application) (key : PublicKey)
    (henc : s.common.encrypted = some enc)
    (h : ∀ u : Session, u.common.tick = s.common.tick + 1 → SendsSigned (app.awaited u.common.tick u)) :
    Fails Fault.Returned (clientAwaitSignature app key) s := by
  refine getEnc_bind henc (.get_bind (.modify_bind ?_))
  have hstart : (sshString enc.sessionId.toList).length = 36 := by
    simp only [length_sshString, Vector.length_toList]
  refine (sendReply_robust app _ _).bind fun _ t ht => ?_
  have htick : t.common.tick = s.common.tick + 1 := by
    unfold sendReply at ht
    split at ht
    · cases ht
      rfl
    · cases ht
  obtain ⟨data, hdata, hlength⟩ := h t htick
  refine Fails.bind (fun _ _ h => by cases h) fun messages v hv => ?_
  cases hv
  refine .lift_bind (by rw [hdata]; exact .ok _) fun data' hdata' => ?_
  rw [hdata] at hdata'
  cases hdata'
  refine .modify_bind ?_
  split
  · refine .lift_bind ?_ fun _ _ => .modify _
    rw [hstart]
    unfold slice
    rw [if_pos ⟨hlength, Nat.le_refl _⟩]
    exact .ok _
  · exact .pure _

/-- A key that the server would take is signed with. -/
theorem clientReadPkOk_robust (app : Application) (henc : s.common.encrypted = some enc)
    (h : ∀ key, s.common.authMethod = some (.futurePublicKey key) →
      ∀ u : Session, u.common.tick = s.common.tick + 1 → SendsSigned (app.awaited u.common.tick u)) :
    Fails Fault.Returned (clientReadPkOk app) s := by
  refine .modify_bind (.get_bind ?_)
  have hpresent : ∀ F, (s.common.modifyEnc F).encrypted = some (F enc) := by
    intro F
    unfold CommonSession.modifyEnc
    rw [henc]
    rfl
  refine getEnc_bind (hpresent _) (.modify_bind ?_)
  dsimp only
  split
  · refine .lift_bind ?_ fun _ _ => .modify _
    unfold signaturePacket
    dsimp only
    split
    · exact .ok _
    · exact .error (Fault.returned_error _)
  · next key hkey => exact clientAwaitSignature_robust app key (hpresent _) (h key hkey)
  · exact .pure _

/-- What the client bears in its stage of the session is served, or refused
with an error. -/
theorem Bears.robust (h : Bears app s enc buf) (henc : s.common.encrypted = some enc)
    (hsettled : enc.state ≠ .initCompression) :
    Fails Fault.Returned (clientReadState app buf) s := by
  have hhands : HandsTurn app (fun handler => clientReadState (app.handled handler) buf) s := by
    cases hstate : enc.state with
    | waitingServiceRequest sent accepted =>
      have hrun : ∀ app' : Application,
          clientReadState app' buf s = clientReadServiceAccept buf s := by
        intro app'
        unfold clientReadState
        simp only [run_bind, run_get, henc, hstate]
      refine .congr (fun handler _ => hrun (app.handled handler)) ?_
      exact .of_fails (clientReadServiceAccept_robust buf s)
    | waitingAuthRequest auth =>
      have hrun : ∀ app' : Application,
          clientReadState app' buf s = clientReadWaitingAuth app' buf s := by
        intro app'
        unfold clientReadState
        simp only [run_bind, run_get, henc, hstate]
      refine .congr (y := fun handler => clientReadWaitingAuth (app.handled handler) buf)
        (fun handler _ => hrun (app.handled handler)) ?_
      unfold clientReadWaitingAuth
      refine .ite (fun _ => ?_) fun _ => ?_
      · refine .ends fun handler _ => ?_
        exact (sendReply_robust _ _ _).bind fun _ _ _ => .modify _
      refine .ite (fun _ => ?_) fun _ => ?_
      · refine .lift_bind (readString_errors _) fun ⟨banner, r⟩ _ => ?_
        dsimp only
        cases fromUtf8 banner with
        | ok banner => exact finish_handsOver _
        | error e => exact .of_fails (.pure _)
      refine .ite (fun _ => ?_) fun _ => ?_
      · exact .ends fun handler _ => clientReadAuthFailure_robust _ buf s
      refine .ite (fun hhead => ?_) fun _ => ?_
      · exact .ends fun handler _ => clientReadPkOk_robust _ henc fun key hkey u hu =>
          h.signed auth key hstate hhead hkey u hu
      · exact .of_fails (.throw (Fault.returned_error _))
    | initCompression => exact absurd hstate hsettled
    | authenticated =>
      refine .congr (fun handler _ => clientReadState_settled _ ⟨enc, henc, hstate⟩) ?_
      exact clientReadAuthenticated_handsOver henc (h.reason hstate) (h.room hstate)
  have hself : app.handled app.handler = app := rfl
  have hfails := hhands.fails (fun _ _ _ _ => rfl) fun callback u hasks =>
    finish_robust_of_returns (h.turn callback u hasks)
  rw [hself] at hfails
  exact hfails

/-! ### Sessions between two events -/

/-- Authentication is not over without compression having started. -/
def Awake (s : Session) : Prop :=
  ∀ enc, s.common.encrypted = some enc → enc.state ≠ .initCompression

/-- Every turn ends with a session that has settled. -/
theorem driver_awake (app : Application) :
    (driver app).Cycles (fun (acted : Unit) _ => acted) (fun _ => Awake) (fun _ _ => True)
      fun _ _ => True := by
  refine ⟨fun _ _ _ => trivial, fun _ _ _ => trivial, fun _ s enc decompress henc hs => ?_,
    fun _ _ _ _ => ?_, fun _ _ _ _ _ _ _ => ?_, fun _ _ _ => ?_, fun _ s _ => ?_⟩
  · rintro enc' henc'
    cases henc'
    exact hs enc henc
  · exact .of_forall (fun _ _ => trivial) fun _ => trivial
  · exact .of_forall (fun _ _ => trivial) fun _ => trivial
  · exact .of_forall (fun _ _ => trivial) fun _ => trivial
  · intro enc' henc'
    simp only [driver, settle, CommonSession.modifyEnc, Option.map_eq_some_iff] at henc'
    obtain ⟨enc, -, rfl⟩ := henc'
    cases hstate : enc.state with
    | initCompression => simp
    | _ => simp [hstate]

/-- No packet finds the client between the end of the authentication and the
start of compression. -/
theorem given_awake {config : Config} {sshid : Bytes} {world : World} {l : Loop Session}
    (hl : connectStream config app sshid world = .ok l) (events : List (Event Msg))
    {e : Event Msg} {p : Session × Bytes}
    (hp : p ∈ Loop.given (driver app) (l.run (driver app) events) e) : Awake p.1 := by
  obtain ⟨s, output, -, -, hnone, rfl⟩ := connectStream_known app hl
  have hclear := Loop.start_follows (driver_clear app) (h := false) (fun _ => hnone) output
  have hstart : Loop.Kept Awake (fun _ => True) (Loop.start (driver app) s output) := by
    refine ⟨fun hrunning enc henc => ?_, trivial⟩
    rw [hclear.running hrunning rfl] at henc
    cases henc
  have hrun := Loop.run_cycles (driver_awake app) (h := ()) hstart events
  exact Loop.given_cycles (driver_awake app) (h := ()) hrun hp

end

end Thrussh.Client
