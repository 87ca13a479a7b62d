import Thrussh.Keeps
import Thrussh.Roles

/-!
# The authentication dialogue

What the server's programs make of the part of a session that the
authentication is about, its `View`: one lemma for each step of the dialogue,
and from these one for each packet. A packet that is served while a request
is awaited queues one answer; it queues USERAUTH_SUCCESS when the dialogue
ends, and also when an info response is accepted, which does not end it.
-/

namespace Thrussh.Server

open Deps Lib

/-- Whether a question to the handler is part of the authentication. -/
def Callback.authenticates : Callback → Bool
  | .authPassword _ _ => true
  | .authPublickey _ _ => true
  | .authKeyboardInteractive _ _ _ => true
  | _ => false

/-- An answer that accepts. -/
def Answer.accepts (answer : Answer) : Prop := answer.fail = false ∧ answer.auth = .accept

section
variable [Deps]

/-- The stage of the session. -/
def Session.state (s : Session) : Option EncryptedState := s.common.encrypted.map (·.state)

/-- The user, the method and the reader behind them in a USERAUTH_REQUEST for
the connection service. -/
def readRequestHead (buf : Bytes) : Except Fault (Bytes × Bytes × Position) := do
  let (user, r) ← (reader buf 1).readString
  let user ← fromUtf8 user
  let (serviceName, r) ← r.readString
  let (method, r) ← r.readString
  if serviceName = sshConnection then .ok (user, method, r) else .error (.error .inconsistent)

/-- A publickey request that carries a signature. -/
structure SignedRequest where
  /-- The user who authenticates. -/
  user : Bytes
  /-- The key presented. -/
  pubkey : PublicKey
  /-- The payload up to the signature. -/
  init : Bytes
  /-- The signature. -/
  sig : Bytes

/-- The signature that ends a request. -/
def readSignature (r : Position) : Except Fault Bytes := do
  let (signature, _) ← r.readString
  let (_, s) ← (reader signature 0).readString
  let (sig, _) ← s.readString
  .ok sig

/-- The fields of a publickey request: whether it is signed, the algorithm and the key. -/
def readPublickey (r : Position) : Except Fault (UInt8 × Bytes × Bytes × Position) := do
  let (isReal, r) ← r.readByte
  let (pubkeyAlgo, r) ← r.readString
  let (pubkeyKey, r) ← r.readString
  .ok (isReal, pubkeyAlgo, pubkeyKey, r)

/-- Whether a payload is a USERAUTH_REQUEST of the publickey method. -/
def isPublickeyRequest (buf : Bytes) : Bool :=
  match readRequestHead buf with
  | .ok (_, method, _) => buf.head? = some msg.USERAUTH_REQUEST && method = ascii "publickey"
  | .error _ => false

/-- The signed publickey request in a payload. -/
def readSignedRequest (buf : Bytes) : Except Fault SignedRequest := do
  let (user, _, r) ← readRequestHead buf
  let (isReal, pubkeyAlgo, pubkeyKey, r) ← readPublickey r
  let sig ← readSignature r
  match publicKeyParse pubkeyAlgo pubkeyKey with
  | .ok pubkey =>
    if isReal ≠ 0 then .ok ⟨user, pubkey, buf.take r.position, sig⟩
    else .error (.error .inconsistent)
  | .error e => .error (.error e)

/-- Whether the signature of a request is one of its key over a session id and the request. -/
def SignedRequest.verified (req : SignedRequest) (sessionId : Bytes32) : Bool :=
  verifyClientAuth req.pubkey (sshString sessionId.toList ++ req.init) req.sig

/-- What the authentication is about. -/
structure View where
  /-- The stage. -/
  state : EncryptedState
  /-- The session id. -/
  sessionId : Bytes32
  /-- The recorded user. -/
  authUser : Bytes
  /-- The questions put to the handler. -/
  callbacks : List (Callback × Answer)
  /-- Every packet ever queued. -/
  emitted : List Bytes
  /-- The channel table. -/
  channels : UInt32 → Option Channel
  /-- The negotiated compression from client to server. -/
  clientCompression : Compression
  /-- The active decompressor. -/
  decompress : Decompress

/-- The view of an encrypted session. -/
def Session.view (s : Session) : Option View :=
  s.common.encrypted.map fun enc => ⟨enc.state, enc.sessionId, s.common.authUser, s.callbacks,
    enc.emitted, enc.channels, enc.clientCompression, enc.decompress⟩

/-- Every packet ever queued on a session. -/
def Session.emitted (s : Session) : List Bytes := s.common.emitted

/-- What serving packets in the dialogue adds to a view: answers, and questions
about the authentication. -/
structure Told (v w : View) (bodies : List Bytes) : Prop where
  /-- The answers are queued. -/
  emitted : w.emitted = v.emitted ++ bodies
  /-- The questions are added. -/
  asked : ∃ asked, w.callbacks = v.callbacks ++ asked ∧ ∀ p ∈ asked, p.1.authenticates = true
  /-- No channel changes. -/
  channels : w.channels = v.channels
  /-- The session id stays. -/
  sessionId : w.sessionId = v.sessionId
  /-- Decompression does not start yet. -/
  compression : w.clientCompression = v.clientCompression ∧ w.decompress = v.decompress

/-- A request that fails has queued nothing. -/
def Untold (v : View) (t : Session) : Prop :=
  ∃ w auth, t.view = some w ∧ Told v w [] ∧ w.state = .waitingAuthRequest auth

namespace Told

variable {v w : View}

theorem refl (v : View) : Told v v [] :=
  ⟨by simp, ⟨[], by simp, by simp⟩, rfl, rfl, rfl, rfl⟩

theorem authUser (v : View) (user : Bytes) : Told v { v with authUser := user } [] :=
  ⟨by simp, ⟨[], by simp, by simp⟩, rfl, rfl, rfl, rfl⟩

/-- One question, and answers. -/
theorem asks {callback : Callback} {answer : Answer} {bodies : List Bytes}
    (hcallback : callback.authenticates = true) (hemitted : w.emitted = v.emitted ++ bodies)
    (hcallbacks : w.callbacks = v.callbacks ++ [(callback, answer)])
    (hchannels : w.channels = v.channels) (hid : w.sessionId = v.sessionId)
    (hcompression : w.clientCompression = v.clientCompression ∧ w.decompress = v.decompress) :
    Told v w bodies :=
  ⟨hemitted, ⟨_, hcallbacks, by simpa using hcallback⟩, hchannels, hid, hcompression⟩

end Told

section
variable {s : Session} {v : View} {auth : AuthRequest} {fails : Session → Prop}

/-- An encrypted session has a view. -/
theorem view_some {enc : Encrypted} (henc : s.common.encrypted = some enc) :
    ∃ v, s.view = some v ∧ v.state = enc.state ∧ v.sessionId = enc.sessionId := by
  have hsome : s.view.isSome = true := by simp only [Session.view, henc, Option.map_some]; rfl
  obtain ⟨v, hv⟩ := Option.isSome_iff_exists.mp hsome
  refine ⟨v, hv, ?_⟩
  simp only [Session.view, henc, Option.map_some, Option.some.injEq] at hv
  rw [← hv]
  exact ⟨rfl, rfl⟩

/-- What a view shows of the session. -/
theorem view_shows (h : s.view = some v) : s.state = some v.state ∧ s.emitted = v.emitted ∧
    s.common.authUser = v.authUser ∧ s.callbacks = v.callbacks := by
  obtain ⟨enc, henc, rfl⟩ := Option.map_eq_some_iff.mp h
  refine ⟨?_, ?_, rfl, rfl⟩
  · simp only [Session.state, henc, Option.map_some]
  · exact emitted_some henc

/-- A change of `enc`, seen in the view. -/
theorem modifyEnc_view {f : Encrypted → Encrypted} {w : View} (h : s.view = some v)
    (hf : ∀ enc, s.common.encrypted = some enc →
      Session.view { s with common := { s.common with encrypted := some (f enc) } } = some w) :
    Ends (modifyEnc f) s (fun _ t => t.view = some w) fails := by
  obtain ⟨enc, henc, -⟩ := Option.map_eq_some_iff.mp h
  refine Ends.modify ?_
  simp only [CommonSession.modifyEnc, henc, Option.map_some]
  exact hf enc henc

theorem push_view (body : Bytes) (h : s.view = some v) :
    Ends (push body) s (fun _ t => t.view = some { v with emitted := v.emitted ++ [body] })
      fails := by
  refine modifyEnc_view h fun enc henc => ?_
  simp only [Session.view, henc, Option.map_some, Option.some.injEq] at h
  subst h
  rfl

theorem setState_view (state : EncryptedState) (h : s.view = some v) :
    Ends (modifyEnc fun enc => { enc with state := state }) s
      (fun _ t => t.view = some { v with state := state }) fails := by
  refine modifyEnc_view h fun enc henc => ?_
  simp only [Session.view, henc, Option.map_some, Option.some.injEq] at h
  subst h
  rfl

theorem modifyAuth_view (f : AuthRequest → AuthRequest) (h : s.view = some v)
    (hstate : v.state = .waitingAuthRequest auth) :
    Ends (modifyAuth f) s
      (fun _ t => t.view = some { v with state := .waitingAuthRequest (f auth) }) fails := by
  refine modifyEnc_view h fun enc henc => ?_
  simp only [Session.view, henc, Option.map_some, Option.some.injEq] at h
  subst h
  dsimp only at hstate
  rw [hstate]
  rfl

theorem setAuthUser_view (user : Bytes) (h : s.view = some v) :
    Ends (setAuthUser user) s (fun _ t => t.view = some { v with authUser := user }) fails := by
  obtain ⟨enc, henc, rfl⟩ := Option.map_eq_some_iff.mp h
  refine Ends.modify ?_
  simp only [Session.view, henc, Option.map_some]

/-- Decompression starts when the dialogue has ended. -/
def View.opened (v : View) : View :=
  match v.state with
  | .initCompression => { v with decompress := v.clientCompression.initDecompress v.decompress }
  | _ => v

theorem initDecompress_view (h : s.view = some v) :
    Ends initDecompress s (fun _ t => t.view = some v.opened) fails := by
  refine modifyEnc_view h fun enc henc => ?_
  simp only [Session.view, henc, Option.map_some, Option.some.injEq] at h
  subst h
  unfold View.opened
  cases hstate : enc.state with
  | initCompression => simp only [Session.view, Option.map_some]
  | authenticated => simp only [Session.view, hstate, Option.map_some]
  | waitingAuthRequest auth => simp only [Session.view, hstate, Option.map_some]
  | waitingServiceRequest sent accepted => simp only [Session.view, hstate, Option.map_some]

theorem getEnc_view {α : Type} {f : Encrypted → M α} {post : α → Session → Prop}
    (h : s.view = some v)
    (hf : ∀ enc, s.common.encrypted = some enc → enc.state = v.state →
      enc.sessionId = v.sessionId → Ends (f enc) s post fails) :
    Ends (getEnc >>= f) s post fails := by
  obtain ⟨enc, henc, rfl⟩ := Option.map_eq_some_iff.mp h
  have hrun : getEnc s = .ok enc s := by simp only [getEnc, run_bind, run_get, henc, run_pure]
  unfold Ends
  rw [run_bind, hrun]
  exact hf enc henc rfl rfl

theorem getAuth_view {α : Type} {f : AuthRequest → M α} {post : α → Session → Prop}
    (h : s.view = some v) (hstate : v.state = .waitingAuthRequest auth)
    (hf : Ends (f auth) s post fails) : Ends (getAuth >>= f) s post fails := by
  obtain ⟨enc, henc, rfl⟩ := Option.map_eq_some_iff.mp h
  have hrun : getAuth s = .ok auth s := by
    dsimp only at hstate
    simp only [getAuth, getEnc, run_bind, run_get, henc, run_pure, hstate]
  unfold Ends
  rw [run_bind, hrun]
  exact hf

/-- A question is put to the handler, which answers or fails. -/
theorem askAuth_view (handler : Handler) (callback : Callback) (h : s.view = some v)
    (hfails : ∀ t, t.view = some { v with
      callbacks := v.callbacks ++ [(callback, handler s.common.tick callback s)] } → fails t) :
    Ends (askAuth handler callback) s (fun verdict t => ∃ answer,
      answer = handler s.common.tick callback s ∧ answer.fail = false ∧ answer.auth = verdict ∧
        t.view = some { v with callbacks := v.callbacks ++ [(callback, answer)] }) fails := by
  obtain ⟨enc, henc, rfl⟩ := Option.map_eq_some_iff.mp h
  unfold Ends
  simp only [askAuth, run_bind, ask]
  by_cases hfail : (handler s.common.tick callback s).fail = true
  · simp only [hfail, if_true, run_throw]
    refine hfails _ ?_
    simp only [Session.view, henc, Option.map_some]
  · simp only [Bool.not_eq_true] at hfail
    simp only [hfail, Bool.false_eq_true, if_false, run_pure, Session.view, henc, Option.map_some]
    exact ⟨_, rfl, hfail, rfl, rfl⟩

/-- The answer to a request that is rejected. -/
def failurePacket (auth : AuthRequest) : Bytes :=
  msg.USERAUTH_FAILURE :: nameList auth.methods.names ++ [flagByte auth.partialSuccess]

/-- The dialogue after a request was rejected. -/
def afterReject (auth : AuthRequest) : AuthRequest :=
  { auth with current := none, rejectionCount := auth.rejectionCount + 1 }

theorem rejectAuthRequest_view (h : s.view = some v)
    (hstate : v.state = .waitingAuthRequest auth) :
    Ends rejectAuthRequest s (fun _ t => t.view = some { v with
      state := .waitingAuthRequest (afterReject auth)
      emitted := v.emitted ++ [failurePacket auth] }) fails := by
  refine getAuth_view h hstate ((push_view _ h).bind fun _ t ht => ?_)
  exact modifyAuth_view _ ht hstate

theorem acceptAuthRequest_view (h : s.view = some v) :
    Ends acceptAuthRequest s (fun _ t => t.view = some { v with
      state := .initCompression, emitted := v.emitted ++ [[msg.USERAUTH_SUCCESS]] }) fails :=
  (push_view _ h).bind fun _ _ ht => setState_view _ ht

/-- The prompts of a dialogue that goes on. -/
def infoRequestPacket (name instructions : Bytes) (prompts : List (Bytes × Bool)) : Bytes :=
  msg.USERAUTH_INFO_REQUEST :: sshString name ++ sshString instructions ++ sshString [] ++
    be32 (UInt32.ofNat prompts.length) ++ promptList prompts

/-- The four verdicts on an info response, of which the last one panics. -/
theorem replyUserauthInfoResponse_view (verdict : Auth) (h : s.view = some v)
    (hstate : v.state = .waitingAuthRequest auth) (hfails : fails s) :
    Ends (replyUserauthInfoResponse verdict) s (fun accepted t =>
      match verdict with
      | .accept => accepted = true ∧
          t.view = some { v with emitted := v.emitted ++ [[msg.USERAUTH_SUCCESS]] }
      | .reject => accepted = false ∧ t.view = some { v with
          state := .waitingAuthRequest (afterReject { auth with partialSuccess := false })
          emitted := v.emitted ++ [failurePacket { auth with partialSuccess := false }] }
      | .partialAccept name instructions prompts => accepted = false ∧ t.view = some { v with
          emitted := v.emitted ++ [infoRequestPacket name instructions prompts] }
      | .unsupportedMethod => False) fails := by
  cases verdict with
  | accept => exact (push_view _ h).bind fun _ t ht => Ends.pure ⟨rfl, ht⟩
  | reject =>
    refine (modifyAuth_view _ h hstate).bind fun _ t ht => ?_
    exact (rejectAuthRequest_view ht rfl).bind fun _ u hu => Ends.pure ⟨rfl, hu⟩
  | partialAccept name instructions prompts =>
    exact (push_view _ h).bind fun _ t ht => Ends.pure ⟨rfl, ht⟩
  | unsupportedMethod => exact Ends.throw _ hfails

end

omit [Deps] in
/-- A key for which USERAUTH_PK_OK was sent is recorded. -/
theorem current_of_sentPkOk {current : Option CurrentRequest} (h : sentPkOk current = true) :
    ∃ key algo, current = some (.publicKey key algo true) := by
  unfold sentPkOk at h
  split at h
  · rename_i key algo sent
    rw [h]
    exact ⟨key, algo, rfl⟩
  · cases h

/-- What a USERAUTH_REQUEST makes of a session, if it is served. -/
inductive Requested (v : View) (auth : AuthRequest) (buf : Bytes) (w : View) : Prop where
  /-- A request that is rejected. -/
  | rejected {auth' : AuthRequest} (htold : Told v w [failurePacket auth'])
    (hstate : w.state = .waitingAuthRequest (afterReject auth'))
  /-- A dialogue with prompts that goes on. -/
  | prompted {submethods name instructions : Bytes} {prompts : List (Bytes × Bool)}
    (htold : Told v w [infoRequestPacket name instructions prompts])
    (hstate : w.state = .waitingAuthRequest
      { auth with current := some (.keyboardInteractive submethods) })
  /-- A probe that the handler accepts. -/
  | probed {user key algo : Bytes} {pubkey : PublicKey} {answer : Answer}
    (hkey : publicKeyParse algo key = .ok pubkey) (haccepts : answer.accepts)
    (hw : w = { v with
      state := .waitingAuthRequest { auth with current := some (.publicKey key algo true) }
      authUser := user
      callbacks := v.callbacks ++ [(.authPublickey user pubkey, answer)]
      emitted := v.emitted ++ [msg.USERAUTH_PK_OK :: sshString algo ++ sshString key] })
  /-- Another method that succeeds. -/
  | other {callback : Callback} {answer : Answer} (hother : isPublickeyRequest buf = false)
    (hcallback : callback.authenticates = true) (haccepts : answer.accepts)
    (hasked : w.callbacks = v.callbacks ++ [(callback, answer)])
    (htold : Told v w [[msg.USERAUTH_SUCCESS]]) (hstate : w.state = .initCompression)
  /-- A signed request that the recorded key vouches for. -/
  | vouched {req : SignedRequest} (hreq : readSignedRequest buf = .ok req)
    (hsent : sentPkOk auth.current = true) (huser : req.user = v.authUser)
    (hverified : req.verified v.sessionId = true)
    (hw : w = { v with
      state := .initCompression, emitted := v.emitted ++ [[msg.USERAUTH_SUCCESS]] })
  /-- A signed request that the handler accepts. -/
  | asked {req : SignedRequest} {answer : Answer} (hreq : readSignedRequest buf = .ok req)
    (haccepts : answer.accepts) (hverified : req.verified v.sessionId = true)
    (hw : w = { v with
      state := .initCompression, authUser := req.user
      callbacks := v.callbacks ++ [(.authPublickey req.user req.pubkey, answer)]
      emitted := v.emitted ++ [[msg.USERAUTH_SUCCESS]] })

section
variable {s : Session} {v : View} {auth : AuthRequest} {buf : Bytes}

/-- A rejected request, after what was asked about it. -/
theorem reject_requested {w : View} {auth' : AuthRequest} (h : s.view = some w)
    (htold : Told v w []) (hstate : w.state = .waitingAuthRequest auth') :
    Ends rejectAuthRequest s
      (fun _ t => ∃ u, t.view = some u ∧ Requested v auth buf u) (Untold v) := by
  refine (rejectAuthRequest_view h hstate : Ends _ _ _ (Untold v)).mono (fun _ t ht => ?_) fun _ h => h
  have hemitted := htold.emitted
  rw [List.append_nil] at hemitted
  refine ⟨_, ht, .rejected ⟨?_, htold.asked, htold.channels, htold.sessionId,
    htold.compression⟩ rfl⟩
  dsimp only
  rw [hemitted]

theorem serverReadPassword_requested (handler : Handler) (hother : isPublickeyRequest buf = false)
    (user : Bytes) (r : Position) (h : s.view = some v)
    (hstate : v.state = .waitingAuthRequest auth) :
    Ends (serverReadPassword handler user r) s
      (fun _ t => ∃ w, t.view = some w ∧ Requested v auth buf w) (Untold v) := by
  refine (setAuthUser_view user h).bind fun _ t ht => ?_
  have hquiet : Untold v t := ⟨_, auth, ht, .authUser v user, hstate⟩
  refine Ends.lift_bind hquiet fun ⟨_, r⟩ _ => Ends.lift_bind hquiet fun ⟨password, r⟩ _ => ?_
  refine Ends.lift_bind hquiet fun password _ => ?_
  refine (askAuth_view handler _ ht fun u hu => ?_).bind
    fun verdict u ⟨answer, _, hfail, hverdict, hu⟩ => ?_
  · exact ⟨_, auth, hu, .asks rfl (by simp) rfl rfl rfl ⟨rfl, rfl⟩, hstate⟩
  split
  · rename_i haccept
    refine (acceptAuthRequest_view hu).mono (fun _ w hw => ⟨_, hw, ?_⟩) fun _ h => h
    exact .other hother rfl ⟨hfail, hverdict.trans haccept⟩ rfl
      (.asks rfl rfl rfl rfl rfl ⟨rfl, rfl⟩) rfl
  · refine (setAuthUser_view [] hu).bind fun _ w hw => ?_
    refine (modifyAuth_view _ hw hstate).bind fun _ x hx => ?_
    exact reject_requested hx (.asks rfl (by simp) rfl rfl rfl ⟨rfl, rfl⟩) rfl

theorem serverReadKeyboardInteractive_requested (handler : Handler)
    (hother : isPublickeyRequest buf = false) (user : Bytes) (r : Position)
    (h : s.view = some v) (hstate : v.state = .waitingAuthRequest auth) :
    Ends (serverReadKeyboardInteractive handler user r) s
      (fun _ t => ∃ w, t.view = some w ∧ Requested v auth buf w) (Untold v) := by
  refine (setAuthUser_view user h).bind fun _ t ht => ?_
  have hquiet : Untold v t := ⟨_, auth, ht, .authUser v user, hstate⟩
  refine Ends.lift_bind hquiet fun ⟨_, r⟩ _ => Ends.lift_bind hquiet fun ⟨submethods, r⟩ _ => ?_
  refine Ends.lift_bind hquiet fun submethods _ => ?_
  refine (modifyAuth_view _ ht hstate).bind fun _ u hu => ?_
  refine (askAuth_view handler _ hu fun w hw => ?_).bind
    fun verdict w ⟨answer, _, hfail, hverdict, hw⟩ => ?_
  · exact ⟨_, _, hw, .asks rfl (by simp) rfl rfl rfl ⟨rfl, rfl⟩, rfl⟩
  refine (replyUserauthInfoResponse_view verdict hw rfl ?_).bind fun accepted x hx => ?_
  · exact ⟨_, _, hw, .asks rfl (by simp) rfl rfl rfl ⟨rfl, rfl⟩, rfl⟩
  cases verdict with
  | accept =>
    obtain ⟨rfl, hx⟩ := hx
    rw [if_pos rfl]
    refine (setState_view .initCompression hx).mono (fun _ y hy => ⟨_, hy, ?_⟩) fun _ h => h
    exact .other hother rfl ⟨hfail, hverdict⟩ rfl (.asks rfl rfl rfl rfl rfl ⟨rfl, rfl⟩) rfl
  | reject =>
    obtain ⟨rfl, hx⟩ := hx
    exact Ends.pure ⟨_, hx, .rejected (.asks rfl rfl rfl rfl rfl ⟨rfl, rfl⟩) rfl⟩
  | partialAccept name instructions prompts =>
    obtain ⟨rfl, hx⟩ := hx
    exact Ends.pure ⟨_, hx, .prompted (.asks rfl rfl rfl rfl rfl ⟨rfl, rfl⟩) rfl⟩
  | unsupportedMethod => exact hx.elim

theorem serverReadProbe_requested (handler : Handler) {user algo key : Bytes}
    {pubkey : PublicKey} (hkey : publicKeyParse algo key = .ok pubkey) (h : s.view = some v)
    (hstate : v.state = .waitingAuthRequest auth) :
    Ends (serverReadProbe handler user algo key pubkey) s
      (fun _ t => ∃ w, t.view = some w ∧ Requested v auth buf w) (Untold v) := by
  refine (setAuthUser_view user h).bind fun _ t ht => ?_
  refine (askAuth_view handler _ ht fun u hu => ?_).bind
    fun verdict u ⟨answer, _, hfail, hverdict, hu⟩ => ?_
  · exact ⟨_, auth, hu, .asks rfl (by simp) rfl rfl rfl ⟨rfl, rfl⟩, hstate⟩
  split
  · rename_i haccept
    refine (push_view _ hu).bind fun _ w hw => ?_
    refine (modifyAuth_view _ hw hstate).mono (fun _ x hx => ⟨_, hx, ?_⟩) fun _ h => h
    exact .probed hkey ⟨hfail, hverdict.trans haccept⟩ rfl
  · refine (modifyAuth_view _ hu hstate).bind fun _ w hw => ?_
    refine (setAuthUser_view [] hw).bind fun _ x hx => ?_
    exact reject_requested hx (.asks rfl (by simp) rfl rfl rfl ⟨rfl, rfl⟩) rfl

/-- The signed request, once its signature has been read. -/
theorem serverReadSignedRequest_requested (handler : Handler) {pubkey : PublicKey} {r : Position}
    {user : Bytes}
    (hreq : ∀ sig, readSignature r = .ok sig →
      readSignedRequest buf = .ok ⟨user, pubkey, buf.take r.position, sig⟩)
    (h : s.view = some v) (hstate : v.state = .waitingAuthRequest auth) :
    Ends (serverReadSignedRequest handler buf user pubkey r) s
      (fun _ t => ∃ w, t.view = some w ∧ Requested v auth buf w) (Untold v) := by
  have hquiet : Untold v s := ⟨v, auth, h, .refl v, hstate⟩
  refine getAuth_view h hstate ?_
  refine Ends.lift_bind hquiet fun ⟨signature, r'⟩ hsignature => ?_
  refine Ends.lift_bind hquiet fun ⟨algo, q⟩ halgo => ?_
  refine Ends.lift_bind hquiet fun ⟨sig, q'⟩ hsig => ?_
  have hreq := hreq sig (by
    simp only [readSignature, bind, Except.bind, hsignature, halgo, hsig])
  refine Ends.get_bind ?_
  -- the verdict on the user and key decides whether the signature counts
  have hjudged : ∀ (isValid : Bool) (t : Session) (w : View), t.view = some w → Told v w [] →
      w.state = .waitingAuthRequest auth →
      (isValid = true → verifyClientAuth pubkey
          (sshString v.sessionId.toList ++ buf.take r.position) sig = true →
        Requested v auth buf { w with
          state := .initCompression, emitted := w.emitted ++ [[msg.USERAUTH_SUCCESS]] }) →
      Ends (if isValid then do
          let enc ← getEnc
          if verifyClientAuth pubkey (sshString enc.sessionId.toList ++ buf.take r.position) sig
          then acceptAuthRequest
          else rejectAuthRequest
        else rejectAuthRequest : M Unit) t
        (fun _ u => ∃ x, u.view = some x ∧ Requested v auth buf x) (Untold v) := by
    intro isValid t w ht htold hw haccepted
    by_cases hvalid : isValid = true
    · rw [if_pos hvalid]
      refine getEnc_view ht fun enc _ _ hid => ?_
      rw [hid, htold.sessionId]
      split
      · rename_i hverify
        exact (acceptAuthRequest_view ht).mono
          (fun _ u hu => ⟨_, hu, haccepted hvalid hverify⟩) fun _ h => h
      · exact reject_requested ht htold hw
    · rw [if_neg hvalid]
      exact reject_requested ht htold hw
  have huser : s.common.authUser = v.authUser := by
    obtain ⟨enc, henc, rfl⟩ := Option.map_eq_some_iff.mp h
    rfl
  rw [huser]
  dsimp only
  split
  · rename_i hrecorded
    have hvalid : Ends (pure true : M Bool) s (fun _ t => t.view = some v) (Untold v) := h
    refine hvalid.bind fun isValid t ht => ?_
    exact hjudged isValid t v ht (.refl v) hstate fun _ hverify =>
      .vouched hreq hrecorded.1 hrecorded.2 hverify rfl
  · split
    · refine (setAuthUser_view user h).bind fun _ t ht => ?_
      refine (askAuth_view handler _ ht fun u hu => ?_).bind
        fun verdict u ⟨answer, _, hfail, hverdict, hu⟩ => ?_
      · exact ⟨_, auth, hu, .asks rfl (by simp) rfl rfl rfl ⟨rfl, rfl⟩, hstate⟩
      have hvalid : Ends (pure (verdict = .accept) : M Bool) u
          (fun isValid t => (isValid = true → verdict = .accept) ∧ t = u) (Untold v) :=
        ⟨fun hvalid => by simpa using hvalid, rfl⟩
      refine hvalid.bind fun isValid t ⟨haccept, ht⟩ => ?_
      rw [ht]
      refine hjudged isValid u _ hu (.asks rfl (by simp) rfl rfl rfl ⟨rfl, rfl⟩) hstate ?_
      exact fun hvalid hverify =>
        .asked hreq ⟨hfail, hverdict.trans (haccept hvalid)⟩ hverify rfl
    · have hvalid : Ends (pure false : M Bool) s
        (fun isValid t => isValid = false ∧ t.view = some v) (Untold v) := ⟨rfl, h⟩
      refine hvalid.bind fun isValid t ⟨hnot, ht⟩ => ?_
      refine hjudged isValid t v ht (.refl v) hstate fun hvalid' => ?_
      rw [hnot] at hvalid'
      cases hvalid'

/-- A USERAUTH_REQUEST is served in one of the ways of `Requested`. -/
theorem serverReadAuthRequest_requested (handler : Handler) (h : s.view = some v)
    (hstate : v.state = .waitingAuthRequest auth) :
    Ends (serverReadAuthRequest handler buf) s
      (fun _ t => ∃ w, t.view = some w ∧ Requested v auth buf w) (Untold v) := by
  have hquiet : Untold v s := ⟨v, auth, h, .refl v, hstate⟩
  refine Ends.lift_bind hquiet fun ⟨name, r₁⟩ hname => ?_
  refine Ends.lift_bind hquiet fun user huser => ?_
  refine Ends.lift_bind hquiet fun ⟨service, r₂⟩ hservice => ?_
  refine Ends.lift_bind hquiet fun ⟨method, r₃⟩ hmethod => ?_
  dsimp only at huser hservice hmethod ⊢
  by_cases hconnection : service = sshConnection
  · have hread : readRequestHead buf = .ok (user, method, r₃) := by
      simp only [readRequestHead, bind, Except.bind, hname, huser, hservice, hmethod,
        if_pos hconnection]
    have hother : method ≠ ascii "publickey" → isPublickeyRequest buf = false := by
      intro hne
      simp only [isPublickeyRequest, hread, hne, decide_false, Bool.and_false]
    rw [if_pos hconnection]
    by_cases hpassword : method = ascii "password"
    · rw [if_pos hpassword]
      exact serverReadPassword_requested handler
        (hother (by rw [hpassword]; decide)) user r₃ h hstate
    rw [if_neg hpassword]
    by_cases hpublickey : method = ascii "publickey"
    · rw [if_pos hpublickey]
      refine Ends.lift_bind hquiet fun ⟨isReal, r₄⟩ hreal => ?_
      refine Ends.lift_bind hquiet fun ⟨algo, r₅⟩ halgo => ?_
      refine Ends.lift_bind hquiet fun ⟨key, r₆⟩ hkey => ?_
      dsimp only at halgo hkey ⊢
      have hpk : readPublickey r₃ = .ok (isReal, algo, key, r₆) := by
        simp only [readPublickey, bind, Except.bind, hreal, halgo, hkey]
      split
      · rename_i pubkey hparse
        split
        · rename_i hsigned
          refine serverReadSignedRequest_requested handler (fun sig hsig => ?_) h hstate
          simp only [readSignedRequest, bind, Except.bind, hread, hpk, hsig, hparse, ne_eq, hsigned,
            not_false_eq_true, if_true]
        · exact serverReadProbe_requested handler hparse h hstate
      · exact reject_requested h (.refl v) hstate
      · exact Ends.throw _ hquiet
    rw [if_neg hpublickey]
    by_cases hkeyboard : method = ascii "keyboard-interactive"
    · rw [if_pos hkeyboard]
      exact serverReadKeyboardInteractive_requested handler (hother hpublickey) user r₃ h hstate
    rw [if_neg hkeyboard]
    exact reject_requested h (.refl v) hstate
  · rw [if_neg hconnection]
    exact Ends.throw _ hquiet

end

/-- Whether the handler is asked about an info response, and accepts it. -/
def AcceptsResponse (handler : Handler) (s : Session) (buf : Bytes) : Prop :=
  ∃ enc auth submethods n r, s.common.encrypted = some enc ∧
    enc.state = .waitingAuthRequest auth ∧
    auth.current = some (.keyboardInteractive submethods) ∧
    buf.head? = some msg.USERAUTH_INFO_RESPONSE ∧ (reader buf 1).readU32 = .ok (n, r) ∧
    (handler s.common.tick
      (.authKeyboardInteractive s.common.authUser submethods (some (r, n))) s).accepts

/-- What a packet makes of a session that awaits a request, if it is served. -/
inductive Answered (handler : Handler) (s : Session) (v : View) (auth : AuthRequest) (buf : Bytes)
    (w : View) : Prop where
  /-- A packet of another type. -/
  | ignored (hw : w = v)
  /-- A USERAUTH_REQUEST. -/
  | requested {u : View} (hhead : buf.head? = some msg.USERAUTH_REQUEST)
    (hrequested : Requested v auth buf u) (hw : w = u.opened)
  /-- An info response that is rejected. -/
  | rejected {auth' : AuthRequest} (htold : Told v w [failurePacket auth'])
    (hstate : w.state = .waitingAuthRequest (afterReject auth'))
  /-- An info response after which the dialogue goes on. -/
  | prompted {submethods name instructions : Bytes} {prompts : List (Bytes × Bool)}
    (htold : Told v w [infoRequestPacket name instructions prompts])
    (hcurrent : auth.current = some (.keyboardInteractive submethods))
    (hstate : w.state = .waitingAuthRequest auth)
  /-- An info response that is accepted, after which the dialogue goes on, too. -/
  | accepted {submethods : Bytes} {callback : Callback} {answer : Answer}
    (haccepts : AcceptsResponse handler s buf)
    (hcurrent : auth.current = some (.keyboardInteractive submethods))
    (hcallback : callback.authenticates = true) (hanswer : answer.accepts)
    (hasked : w.callbacks = v.callbacks ++ [(callback, answer)])
    (htold : Told v w [[msg.USERAUTH_SUCCESS]]) (hstate : w.state = .waitingAuthRequest auth)

section
variable {s : Session} {v : View} {auth : AuthRequest} {buf : Bytes}

/-- Where the dialogue has not ended, decompression does not start. -/
theorem View.opened_eq {w : View} (h : w.state ≠ .initCompression) : w.opened = w := by
  unfold View.opened
  split
  · rename_i hstate
    exact absurd hstate h
  · rfl

@[simp] theorem View.opened_state (v : View) : v.opened.state = v.state := by
  unfold View.opened
  split <;> rfl

@[simp] theorem View.opened_callbacks (v : View) : v.opened.callbacks = v.callbacks := by
  unfold View.opened
  split <;> rfl

@[simp] theorem View.opened_emitted (v : View) : v.opened.emitted = v.emitted := by
  unfold View.opened
  split <;> rfl

@[simp] theorem View.opened_channels (v : View) : v.opened.channels = v.channels := by
  unfold View.opened
  split <;> rfl

theorem readUserauthInfoResponse_answered (handler : Handler) (h : s.view = some v)
    (hstate : v.state = .waitingAuthRequest auth)
    (hhead : buf.head? = some msg.USERAUTH_INFO_RESPONSE) :
    Ends (readUserauthInfoResponse handler buf) s
      (fun _ t => ∃ w, t.view = some w ∧ w.state ≠ .initCompression ∧
        Answered handler s v auth buf w) (Untold v) := by
  have hquiet : Untold v s := ⟨v, auth, h, .refl v, hstate⟩
  obtain ⟨enc, henc, hv⟩ := Option.map_eq_some_iff.mp h
  refine getAuth_view h hstate ?_
  split
  · rename_i submethods hcurrent
    refine Ends.lift_bind hquiet fun ⟨n, r⟩ hn => Ends.get_bind ?_
    refine (askAuth_view handler _ h fun t ht => ?_).bind
      fun verdict t ⟨answer, hanswer, hfail, hverdict, ht⟩ => ?_
    · exact ⟨_, auth, ht, .asks rfl (by simp) rfl rfl rfl ⟨rfl, rfl⟩, hstate⟩
    refine (replyUserauthInfoResponse_view verdict ht hstate ?_).mono
      (fun accepted u hu => ?_) fun _ h => h
    · exact ⟨_, auth, ht, .asks rfl (by simp) rfl rfl rfl ⟨rfl, rfl⟩, hstate⟩
    cases verdict with
    | accept =>
      obtain ⟨-, hu⟩ := hu
      refine ⟨_, hu, by simp [hstate], .accepted ?_ hcurrent rfl ⟨hfail, hverdict⟩ rfl
        (.asks rfl rfl rfl rfl rfl ⟨rfl, rfl⟩) hstate⟩
      refine ⟨enc, auth, submethods, n, r, henc, ?_, hcurrent, hhead, hn, ?_⟩
      · rw [← hstate, ← hv]
      · rw [← hanswer]
        exact ⟨hfail, hverdict⟩
    | reject =>
      obtain ⟨-, hu⟩ := hu
      exact ⟨_, hu, by simp, .rejected (.asks rfl rfl rfl rfl rfl ⟨rfl, rfl⟩) rfl⟩
    | partialAccept name instructions prompts =>
      obtain ⟨-, hu⟩ := hu
      exact ⟨_, hu, by simp [hstate],
        .prompted (.asks rfl rfl rfl rfl rfl ⟨rfl, rfl⟩) hcurrent hstate⟩
    | unsupportedMethod => exact hu.elim
  · refine (rejectAuthRequest_view h hstate).bind fun _ t ht => Ends.pure ⟨_, ht, by simp, ?_⟩
    exact .rejected ⟨rfl, ⟨[], by simp, by simp⟩, rfl, rfl, rfl, rfl⟩ rfl

/-- A USERAUTH_REQUEST that finds the session waiting for it is served in one of
the ways of `Requested`, and starts decompression if it ends the dialogue. -/
theorem serverReadState_requested (handler : Handler) (h : s.view = some v)
    (hstate : v.state = .waitingAuthRequest auth)
    (hhead : buf.head? = some msg.USERAUTH_REQUEST) :
    Ends (serverReadState handler buf) s
      (fun _ t => ∃ u, t.view = some u.opened ∧ Requested v auth buf u) (Untold v) := by
  refine getEnc_view h fun enc _ henc _ => ?_
  rw [henc, hstate]
  dsimp only
  rw [if_pos hhead]
  refine (serverReadAuthRequest_requested handler h hstate).bind fun _ t ⟨u, ht, hu⟩ => ?_
  exact (initDecompress_view ht).mono (fun _ _ hw => ⟨u, hw, hu⟩) fun _ h => h

/-- A packet that finds the session waiting for a request is served in one of
the ways of `Answered`. -/
theorem serverReadState_answered (handler : Handler) (buf : Bytes) (h : s.view = some v)
    (hstate : v.state = .waitingAuthRequest auth) :
    Ends (serverReadState handler buf) s
      (fun _ t => ∃ w, t.view = some w ∧ Answered handler s v auth buf w) (Untold v) := by
  by_cases hrequest : buf.head? = some msg.USERAUTH_REQUEST
  · exact (serverReadState_requested handler h hstate hrequest).mono
      (fun _ _ ⟨u, ht, hu⟩ => ⟨u.opened, ht, .requested hrequest hu rfl⟩) fun _ h => h
  refine getEnc_view h fun enc _ henc _ => ?_
  rw [henc, hstate]
  dsimp only
  rw [if_neg hrequest]
  by_cases hresponse : buf.head? = some msg.USERAUTH_INFO_RESPONSE
  · rw [if_pos hresponse]
    refine (readUserauthInfoResponse_answered handler h hstate hresponse).bind
      fun accepted t ⟨w, ht, hw, hanswered⟩ => ?_
    split
    · refine (initDecompress_view ht).mono (fun _ _ hu => ⟨_, hu, ?_⟩) fun _ h => h
      rw [View.opened_eq hw]
      exact hanswered
    · exact Ends.pure ⟨w, ht, hanswered⟩
  rw [if_neg hresponse]
  exact Ends.pure ⟨v, h, .ignored rfl⟩

/-- The answers to a service request. -/
def servicePackets (banner : Option Bytes) : List Bytes :=
  (msg.SERVICE_ACCEPT :: sshString sshUserauth) ::
    (banner.map fun banner => msg.USERAUTH_BANNER :: sshString banner ++ sshString []).toList

/-- A packet that finds the session waiting for a service request begins the
dialogue, or is ignored. -/
theorem serverReadState_service (handler : Handler) (buf : Bytes) {sent accepted : Bool} (h : s.view = some v)
    (hstate : v.state = .waitingServiceRequest sent accepted) :
    Ends (serverReadState handler buf) s
      (fun _ t => t.view = some v ∨ ∃ methods banner, t.view = some { v with
        state := .waitingAuthRequest ⟨methods, false, none, 0⟩
        emitted := v.emitted ++ servicePackets banner })
      (fun t => t.view = some v) := by
  refine getEnc_view h fun enc _ henc _ => ?_
  rw [henc, hstate]
  dsimp only
  split
  · refine Ends.lift_bind h fun ⟨request, r⟩ _ => ?_
    dsimp only
    split
    · refine Ends.get_bind ?_
      have haccept : ∀ banner methods, Ends (serverAcceptService banner methods) s
          (fun request t => request = ⟨methods, false, none, 0⟩ ∧ t.view = some { v with
            emitted := v.emitted ++ servicePackets banner }) (fun t => t.view = some v) := by
        intro banner methods
        refine (push_view _ h).bind fun _ t ht => ?_
        cases banner with
        | none => exact ⟨rfl, ht⟩
        | some banner =>
          refine (push_view _ ht).bind fun _ u hu => Ends.pure ⟨rfl, ?_⟩
          rw [hu]
          simp [servicePackets]
      refine (haccept _ _).bind fun request t ⟨hrequest, ht⟩ => ?_
      rw [hrequest]
      exact (setState_view _ ht).mono (fun _ u hu => .inr ⟨_, _, hu⟩) fun _ h => h
    · exact Ends.pure (.inl h)
  · exact Ends.pure (.inl h)

/-- An info response that the handler accepts is answered, and the dialogue goes on. -/
theorem serverReadState_accepted {handler : Handler} (haccepts : AcceptsResponse handler s buf) :
    ∃ t auth, serverReadState handler buf s = .ok () t ∧
      t.state = some (.waitingAuthRequest auth) ∧
      t.emitted = s.emitted ++ [[msg.USERAUTH_SUCCESS]] := by
  obtain ⟨enc, auth, submethods, n, r, henc, hstate, hcurrent, hhead, hn, hanswer⟩ := haccepts
  have hnot : ¬ buf.head? = some msg.USERAUTH_REQUEST := by
    rw [hhead]
    decide
  obtain ⟨hfail, hverdict⟩ := hanswer
  simp only [serverReadState, run_bind, getEnc, run_get, henc, run_pure, hstate, if_neg hnot,
    if_pos hhead, readUserauthInfoResponse, getAuth, hcurrent, hn, run_lift_ok, askAuth, ask,
    hfail, Bool.false_eq_true, if_false, hverdict, replyUserauthInfoResponse,
    serverAuthRequestSuccess, push, modifyEnc, run_modify, if_true, initDecompress]
  refine ⟨_, auth, rfl, ?_, ?_⟩
  · simp only [Session.state, CommonSession.modifyEnc, Option.map_some, Encrypted.push, hstate]
  · rw [Session.emitted, Session.emitted, emitted_some henc]
    simp only [CommonSession.emitted, CommonSession.standing, CommonSession.modifyEnc,
      Option.map_some, Encrypted.push, hstate]
    rfl

end

/-- What a session that has just been encrypted stands at. -/
def started : EncryptedState × List Bytes × (UInt32 → Option Channel) × List Deed :=
  (.waitingServiceRequest false false, [], fun _ => none, [])

/-- What a packet of a key exchange leaves of a session: it stands at what it
stood at, or is encrypted now. -/
structure Stands (s t : Session) : Prop where
  /-- The user stays. -/
  authUser : t.common.authUser = s.common.authUser
  /-- The handler is not asked. -/
  callbacks : t.callbacks = s.callbacks
  /-- What the session stands at. -/
  standing : t.common.standing = s.common.standing ∨
    s.common.encrypted = none ∧ t.common.standing = some started

theorem state_of_started {t : Session} (h : t.common.standing = some started) :
    t.state = some (.waitingServiceRequest false false) := by
  have hmap := congrArg (Option.map Prod.fst) h
  simp only [CommonSession.standing, Option.map_map] at hmap
  exact hmap

section
variable {s t : CommonSession Config} {buf : Bytes}

/-- A key exchange leaves what a session stands at, or starts the session. -/
theorem Exchanged.standing_eq (h : Exchanged s buf t) : t.authUser = s.authUser ∧
    (t.standing = s.standing ∨ s.encrypted = none ∧ t.standing = some started) := by
  cases h with
  | skip h => exact ⟨rfl, .inl rfl⟩
  | answer hk hhead hread hkey =>
    exact ⟨(setExchanging_standing _ _).2.1, .inl (setExchanging_standing _ _).1⟩
  | serve henc hrekey hex hhead hread hkey =>
    refine ⟨rfl, .inl ?_⟩
    simp only [CommonSession.standing, henc, Option.map_some]
    rfl
  | guess hk hhead hguess =>
    exact ⟨(setExchanging_standing _ _).2.1, .inl (setExchanging_standing _ _).1⟩
  | finish hk hreplies =>
    exact ⟨(setExchanging_standing _ _).2.1, .inl (setExchanging_standing _ _).1⟩
  | first henc hk hhead => exact ⟨rfl, .inr ⟨henc, rfl⟩⟩
  | install henc hrekey hhead =>
    refine ⟨rfl, .inl ?_⟩
    simp only [CommonSession.newkeys, CommonSession.standing, henc, Option.map_some]
    rfl
  | drop henc hrekey hphase hhead =>
    refine ⟨rfl, .inl ?_⟩
    simp only [CommonSession.standing, henc, Option.map_some]
    rfl

end

/-- A packet of a key exchange leaves what the session stands at, or starts it. -/
theorem reply_stands (handler : Handler) {s : Session} (hs : s.common.Sound) {buf : Bytes}
    (hin : s.common.InExchange buf) :
    Ends (reply handler buf) s (fun _ t => Stands s t) (Stands s) := by
  rcases reply_replied handler hs hin with ⟨u, hexchanged, hreply | hreply⟩ |
    ⟨e, u, packets, hreply, hseals⟩
  · unfold Ends
    rw [hreply]
    exact ⟨hexchanged.standing_eq.1, rfl, hexchanged.standing_eq.2⟩
  · have hflush := flush_final u
    have hstands : Stands s { s with common := final (flush u) } := by
      refine ⟨hflush.authUser_eq.trans hexchanged.standing_eq.1, rfl, ?_⟩
      rw [hflush.standing_eq]
      exact hexchanged.standing_eq.2
    unfold Ends
    rw [hreply]
    simp only [onCommon, zoom]
    cases hresult : flush u with
    | ok a v =>
      rw [hresult] at hstands
      exact hstands
    | error e v =>
      rw [hresult] at hstands
      exact hstands
  · unfold Ends
    rw [hreply]
    exact ⟨by rw [hseals.same], rfl, .inl hseals.standing_eq⟩

end

end Thrussh.Server
