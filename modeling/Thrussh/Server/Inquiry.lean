import Thrussh.Server.Publickey

/-!
# The dialogue as an automaton

An abstract view of the authentication: a dialogue remembers a user and the
state of the requests, a packet makes an inquiry, an inquiry puts at most one
question to the handler, and the verdict decides the outcome. A session that
awaits a request treats every packet of the authentication as the automaton
does.
-/

namespace Thrussh.Server

open Deps Lib

/-- What a dialogue remembers between two packets. -/
structure Dialogue where
  /-- The recorded user. -/
  authUser : Bytes
  /-- The state of the requests. -/
  request : AuthRequest

/-- What a packet of the authentication asks for. -/
inductive Inquiry where
  /-- A password request. -/
  | password (user password : Bytes)
  /-- A publickey request with a signature. -/
  | signed (req : SignedRequest)
  /-- A publickey request without a signature. -/
  | probe (user algo key : Bytes) (pubkey : PublicKey)
  /-- A keyboard-interactive request. -/
  | interactive (user submethods : Bytes)
  /-- A response in a keyboard-interactive dialogue. -/
  | response (submethods : Bytes) (n : UInt32) (r : Position)
  /-- A request by another method or with a key that cannot be read, and a
  response outside of a keyboard-interactive dialogue. -/
  | refused

/-- What an inquiry comes to. -/
inductive Outcome where
  /-- A packet is queued, and the dialogue goes on. -/
  | goes (packet : Bytes) (d : Dialogue)
  /-- USERAUTH_SUCCESS is queued, and the dialogue ends. -/
  | ends (authUser : Bytes)

/-- The packet that is queued. -/
def Outcome.packet : Outcome → Bytes
  | .goes packet _ => packet
  | .ends _ => [msg.USERAUTH_SUCCESS]

/-- The stage after the packet. -/
def Outcome.state : Outcome → EncryptedState
  | .goes _ d => .waitingAuthRequest d.request
  | .ends _ => .initCompression

/-- The user that is recorded after the packet. -/
def Outcome.authUser : Outcome → Bytes
  | .goes _ d => d.authUser
  | .ends user => user

/-- A rejection, which ends the current request. -/
def Dialogue.reject (d : Dialogue) : Outcome :=
  .goes (failurePacket d.request) ⟨d.authUser, afterReject d.request⟩

/-- Whether the recorded probe answers for a signed request. -/
def Dialogue.vouches (d : Dialogue) (req : SignedRequest) : Prop :=
  sentPkOk d.request.current = true ∧ req.user = d.authUser

instance (d : Dialogue) (req : SignedRequest) : Decidable (d.vouches req) :=
  inferInstanceAs (Decidable (_ ∧ _))

/-- What is recorded when the question is put. -/
def Inquiry.noted (d : Dialogue) : Inquiry → Dialogue
  | .password user _ => { d with authUser := user }
  | .signed req => if ¬ d.vouches req ∧ d.authUser = [] then { d with authUser := req.user } else d
  | .probe user _ _ _ => { d with authUser := user }
  | .interactive user submethods =>
    ⟨user, { d.request with current := some (.keyboardInteractive submethods) }⟩
  | .response _ _ _ => d
  | .refused => d

/-- The question that an inquiry puts to the handler. -/
def Inquiry.question (d : Dialogue) : Inquiry → Option Callback
  | .password user secret => some (.authPassword user secret)
  | .signed req =>
    if ¬ d.vouches req ∧ d.authUser = [] then some (.authPublickey req.user req.pubkey) else none
  | .probe user _ _ pubkey => some (.authPublickey user pubkey)
  | .interactive user submethods => some (.authKeyboardInteractive user submethods none)
  | .response submethods n r => some (.authKeyboardInteractive d.authUser submethods (some (r, n)))
  | .refused => none

/-- The dialogue after a verdict that denies the current request. -/
def Dialogue.denied (d : Dialogue) (authUser : Bytes) : Dialogue :=
  ⟨authUser, { d.request with partialSuccess := false }⟩

/-- What a verdict on a keyboard-interactive request comes to; the last one panics. -/
def Dialogue.respond (d : Dialogue) (accepted : Outcome) : Auth → Option Outcome
  | .accept => some accepted
  | .reject => some (d.denied d.authUser).reject
  | .partialAccept name instructions prompts =>
    some (.goes (infoRequestPacket name instructions prompts) d)
  | .unsupportedMethod => none

/-- What a signed request comes to, whose user and key are valid or not. -/
def Dialogue.judge [Deps] (id : Bytes32) (d : Dialogue) (isValid : Bool) (req : SignedRequest) :
    Outcome :=
  if isValid = true ∧ req.verified id = true then .ends d.authUser else d.reject

/-- What an inquiry comes to, given the verdict on its question. -/
def Inquiry.outcome [Deps] (id : Bytes32) (d : Dialogue) (verdict : Option Auth) :
    Inquiry → Option Outcome
  | .password user _ =>
    if verdict = some .accept then some (.ends user)
    else some { d.denied [] with request := { (d.denied []).request with
      methods := { d.request.methods with password := false } } }.reject
  | .signed req =>
    some (((Inquiry.signed req).noted d).judge id (d.vouches req ∨ verdict = some .accept) req)
  | .probe user algo key _ =>
    if verdict = some .accept then
      some (.goes (msg.USERAUTH_PK_OK :: sshString algo ++ sshString key)
        ⟨user, { d.request with current := some (.publicKey key algo true) }⟩)
    else some (d.denied []).reject
  | .interactive user submethods =>
    verdict.bind (((Inquiry.interactive user submethods).noted d).respond (.ends user))
  | .response _ _ _ => verdict.bind (d.respond (.goes [msg.USERAUTH_SUCCESS] d))
  | .refused => some d.reject

/-- Whether an inquiry is part of a keyboard-interactive dialogue. -/
def Inquiry.isInteractive : Inquiry → Bool
  | .interactive _ _ => true
  | .response _ _ _ => true
  | _ => false

/-- Only the verdict on a keyboard-interactive request can be missing. -/
theorem outcome_eq_none_iff [Deps] {id : Bytes32} {d : Dialogue} {verdict : Auth}
    {inquiry : Inquiry} : inquiry.outcome id d (some verdict) = none ↔
      inquiry.isInteractive = true ∧ verdict = .unsupportedMethod := by
  have hrespond : ∀ (d : Dialogue) (o : Outcome),
      d.respond o verdict = none ↔ verdict = .unsupportedMethod := by
    intro d o
    cases verdict <;> simp [Dialogue.respond]
  cases inquiry with
  | password user secret => simp [Inquiry.outcome, Inquiry.isInteractive, ite_eq_iff]
  | signed req => simp [Inquiry.outcome, Inquiry.isInteractive]
  | probe user algo key pubkey => simp [Inquiry.outcome, Inquiry.isInteractive, ite_eq_iff]
  | interactive user submethods => simp [Inquiry.outcome, Inquiry.isInteractive, hrespond]
  | response submethods n r => simp [Inquiry.outcome, Inquiry.isInteractive, hrespond]
  | refused => simp [Inquiry.outcome, Inquiry.isInteractive]

/-- A password request, behind the method. -/
def readPassword (user : Bytes) (r : Position) : Except Fault Inquiry := do
  let (_, r) ← r.readByte
  let (password, _) ← r.readString
  let password ← fromUtf8 password
  .ok (.password user password)

/-- A keyboard-interactive request, behind the method. -/
def readInteractive (user : Bytes) (r : Position) : Except Fault Inquiry := do
  let (_, r) ← r.readString
  let (submethods, _) ← r.readString
  let submethods ← fromUtf8 submethods
  .ok (.interactive user submethods)

/-- A response, if it finds a keyboard-interactive dialogue. -/
def readResponse (current : Option CurrentRequest) (buf : Bytes) : Except Fault Inquiry :=
  match current with
  | some (.keyboardInteractive submethods) => do
    let (n, r) ← (reader buf 1).readU32
    .ok (.response submethods n r)
  | _ => .ok .refused

section
variable [Deps]

/-- A publickey request, behind the method. -/
def readPublickeyInquiry (buf user : Bytes) (r : Position) : Except Fault Inquiry := do
  let (isReal, algo, key, r) ← readPublickey r
  match publicKeyParse algo key with
  | .ok pubkey =>
    if isReal ≠ 0 then do
      let sig ← readSignature r
      .ok (.signed ⟨user, pubkey, buf.take r.position, sig⟩)
    else .ok (.probe user algo key pubkey)
  | .error .couldNotReadKey => .ok .refused
  | .error e => .error (.error e)

/-- A USERAUTH_REQUEST for the connection service. -/
def readRequest (buf : Bytes) : Except Fault Inquiry := do
  let (user, method, r) ← readRequestHead buf
  if method = ascii "password" then readPassword user r
  else if method = ascii "publickey" then readPublickeyInquiry buf user r
  else if method = ascii "keyboard-interactive" then readInteractive user r
  else .ok .refused

/-- The inquiry in a packet of the authentication. -/
def readInquiry (current : Option CurrentRequest) (buf : Bytes) : Except Fault Inquiry :=
  if buf.head? = some msg.USERAUTH_REQUEST then readRequest buf else readResponse current buf

/-- Whether a packet is one of the authentication. -/
def Inquires (buf : Bytes) : Prop :=
  buf.head? = some msg.USERAUTH_REQUEST ∨ buf.head? = some msg.USERAUTH_INFO_RESPONSE

/-- What a session that awaits a request remembers. -/
def Session.dialogue (s : Session) : Option Dialogue :=
  match s.state with
  | some (.waitingAuthRequest auth) => some ⟨s.common.authUser, auth⟩
  | _ => none

/-- The session in which a question is put: what it records is noted. -/
def Session.noting (s : Session) (d : Dialogue) : Session :=
  { s with common := { s.common with
      authUser := d.authUser
      encrypted := s.common.encrypted.map fun enc =>
        { enc with state := .waitingAuthRequest d.request } } }

/-- What the handler answers when a question is put in a dialogue. -/
def Handler.answer (handler : Handler) (s : Session) (d : Dialogue) (q : Callback) : Answer :=
  handler s.common.tick q (s.noting d)

/-- What an outcome makes of a session, with what was asked. -/
structure Became (s t : Session) (asked : List (Callback × Answer)) (o : Outcome) : Prop where
  /-- The stage. -/
  state : t.state = some o.state
  /-- The recorded user. -/
  authUser : t.common.authUser = o.authUser
  /-- What was asked. -/
  callbacks : t.callbacks = s.callbacks ++ asked
  /-- One packet is queued. -/
  emitted : t.emitted = s.emitted ++ [o.packet]

/-- A failing packet queues nothing. -/
structure Failed (s t : Session) (asked : List (Callback × Answer)) : Prop where
  /-- What was asked. -/
  callbacks : t.callbacks = s.callbacks ++ asked
  /-- Nothing is queued. -/
  emitted : t.emitted = s.emitted

/-- How the inquiry in a packet is treated, and how the program ends that treats it. -/
inductive Treated (handler : Handler) (s : Session) (id : Bytes32) (d : Dialogue) :
    Except Fault Inquiry → EStateM.Result Fault Session Unit → Prop where
  /-- The packet cannot be read. -/
  | unread {e : Fault} {t : Session} (ht : Failed s t []) :
    Treated handler s id d (.error e) (.error e t)
  /-- The handler is not asked. -/
  | untold {inquiry : Inquiry} {o : Outcome} {t : Session} (hq : inquiry.question d = none)
    (ho : inquiry.outcome id d none = some o) (ht : Became s t [] o) :
    Treated handler s id d (.ok inquiry) (.ok () t)
  /-- The handler is asked and fails. -/
  | failed {inquiry : Inquiry} {q : Callback} {t : Session} (hq : inquiry.question d = some q)
    (hfail : (handler.answer s (inquiry.noted d) q).fail = true)
    (ht : Failed s t [(q, handler.answer s (inquiry.noted d) q)]) :
    Treated handler s id d (.ok inquiry) (.error (.error .handler) t)
  /-- The handler is asked, and its verdict panics. -/
  | stuck {inquiry : Inquiry} {q : Callback} {t : Session} (hq : inquiry.question d = some q)
    (hfail : (handler.answer s (inquiry.noted d) q).fail = false)
    (ho : inquiry.outcome id d (some (handler.answer s (inquiry.noted d) q).auth) = none)
    (ht : Failed s t [(q, handler.answer s (inquiry.noted d) q)]) :
    Treated handler s id d (.ok inquiry) (.error .panic t)
  /-- The handler is asked and gives a verdict. -/
  | told {inquiry : Inquiry} {q : Callback} {o : Outcome} {t : Session}
    (hq : inquiry.question d = some q)
    (hfail : (handler.answer s (inquiry.noted d) q).fail = false)
    (ho : inquiry.outcome id d (some (handler.answer s (inquiry.noted d) q).auth) = some o)
    (ht : Became s t [(q, handler.answer s (inquiry.noted d) q)] o) :
    Treated handler s id d (.ok inquiry) (.ok () t)

section
variable {handler : Handler} {s t : Session} {id : Bytes32} {d : Dialogue} {v w : View}
  {auth : AuthRequest} {inquiry : Inquiry}

theorem noting_view (h : s.view = some v) (d : Dialogue) : (s.noting d).view = some { v with
    state := .waitingAuthRequest d.request, authUser := d.authUser } := by
  obtain ⟨enc, henc, rfl⟩ := Option.map_eq_some_iff.mp h
  simp only [Session.view, Session.noting, henc, Option.map_some]

theorem noting_failed (s : Session) (d : Dialogue) : Failed s (s.noting d) [] := by
  constructor
  · exact (List.append_nil _).symm
  · unfold Session.emitted CommonSession.emitted CommonSession.standing Session.noting
    cases s.common.encrypted with
    | none => rfl
    | some enc => rfl

/-- A session notes what it remembers already. -/
theorem noting_self (h : s.view = some v) (hstate : v.state = .waitingAuthRequest auth)
    (user : Bytes) :
    s.noting ⟨user, auth⟩ = { s with common := { s.common with authUser := user } } := by
  obtain ⟨enc, henc, rfl⟩ := Option.map_eq_some_iff.mp h
  unfold Session.noting
  rw [henc, Option.map_some, ← hstate]
  simp only [henc]

theorem setAuthUser_bind {α : Type} (h : s.view = some v)
    (hstate : v.state = .waitingAuthRequest auth) (user : Bytes) (f : Unit → M α) :
    (setAuthUser user >>= f) s = f () (s.noting ⟨user, auth⟩) := by
  rw [noting_self h hstate]
  rfl

theorem modifyAuth_bind {α : Type} (g : AuthRequest → AuthRequest) (f : Unit → M α) :
    (modifyAuth g >>= f) (s.noting d) = f () (s.noting ⟨d.authUser, g d.request⟩) := by
  rw [run_bind]
  unfold modifyAuth modifyEnc Session.noting
  rw [run_modify]
  cases henc : s.common.encrypted with
  | none => simp only [CommonSession.modifyEnc, Option.map_none]
  | some enc => simp only [CommonSession.modifyEnc, Option.map_some]

/-- What a session has become is seen in its view. -/
theorem became_of_view {asked : List (Callback × Answer)} {o : Outcome} (h : s.view = some v)
    (ht : t.view = some w) (hstate : w.state = o.state) (huser : w.authUser = o.authUser)
    (hasked : w.callbacks = v.callbacks ++ asked)
    (hemitted : w.emitted = v.emitted ++ [o.packet]) : Became s t asked o := by
  obtain ⟨-, hsemitted, -, hscallbacks⟩ := view_shows h
  obtain ⟨htstate, htemitted, htuser, htcallbacks⟩ := view_shows ht
  constructor
  · rw [htstate, hstate]
  · rw [htuser, huser]
  · rw [htcallbacks, hscallbacks, hasked]
  · rw [htemitted, hsemitted, hemitted]

/-- A field is read before anything is queued or asked. -/
theorem Treated.lift_bind {α : Type} {x : Except Fault α} {k : α → Except Fault Inquiry}
    {f : α → M Unit} (ht : Failed s t [])
    (h : ∀ a, x = .ok a → Treated handler s id d (k a) (f a t)) :
    Treated handler s id d (x >>= k) ((lift x >>= f) t) := by
  cases x with
  | error e => exact .unread ht
  | ok a => exact h a rfl

/-- An inquiry without a question. -/
theorem Treated.of_untold {o : Outcome} {f : M Unit} (hq : inquiry.question d = none)
    (ho : inquiry.outcome id d none = some o)
    (h : Ends f t (fun _ u => Became s u [] o) fun _ => False) :
    Treated handler s id d (.ok inquiry) (f t) := by
  unfold Ends at h
  cases hrun : f t with
  | error e u =>
    rw [hrun] at h
    exact h.elim
  | ok a u =>
    rw [hrun] at h
    exact .untold hq ho h

/-- A question and its answer are recorded. -/
def Session.asked (s : Session) (q : Callback) (answer : Answer) : Session :=
  { s with
    common := { s.common with tick := s.common.tick + 1 }
    callbacks := s.callbacks ++ [(q, answer)] }

theorem asked_view (h : s.view = some v) (q : Callback) (answer : Answer) :
    (s.asked q answer).view = some { v with callbacks := v.callbacks ++ [(q, answer)] } := by
  obtain ⟨enc, henc, rfl⟩ := Option.map_eq_some_iff.mp h
  simp only [Session.view, Session.asked, henc, Option.map_some]

/-- A handler fails, or gives its verdict. -/
theorem askAuth_bind {α : Type} {q : Callback} {answer : Answer}
    (h : handler s.common.tick q s = answer) (f : Auth → M α) :
    (askAuth handler q >>= f) s =
      if answer.fail then .error (.error .handler) (s.asked q answer)
      else f answer.auth (s.asked q answer) := by
  simp only [askAuth, run_bind, ask, h]
  by_cases hfail : answer.fail = true
  · simp only [if_pos hfail, run_throw]
    rfl
  · simp only [if_neg hfail, run_pure]
    rfl

/-- An inquiry with a question that is put when what it records is noted. -/
theorem Treated.asks (inquiry : Inquiry) {q : Callback} {f : Auth → M Unit} (h : s.view = some v)
    (hq : inquiry.question d = some q)
    (hstuck : ∀ verdict t, inquiry.outcome id d (some verdict) = none →
      f verdict t = .error .panic t)
    (htold : ∀ answer o t, inquiry.outcome id d (some answer.auth) = some o →
      t.view = some { v with
        state := .waitingAuthRequest (inquiry.noted d).request
        authUser := (inquiry.noted d).authUser
        callbacks := v.callbacks ++ [(q, answer)] } →
      Ends (f answer.auth) t (fun _ u => Became s u [(q, answer)] o) fun _ => False) :
    Treated handler s id d (.ok inquiry)
      ((askAuth handler q >>= f) (s.noting (inquiry.noted d))) := by
  have hanswer : handler (s.noting (inquiry.noted d)).common.tick q (s.noting (inquiry.noted d)) =
      handler.answer s (inquiry.noted d) q := rfl
  have hview := asked_view (noting_view h (inquiry.noted d)) q
    (handler.answer s (inquiry.noted d) q)
  have hfailed : Failed s ((s.noting (inquiry.noted d)).asked q
      (handler.answer s (inquiry.noted d) q)) [(q, handler.answer s (inquiry.noted d) q)] :=
    ⟨rfl, (noting_failed s _).emitted⟩
  rw [askAuth_bind hanswer]
  by_cases hfail : (handler.answer s (inquiry.noted d) q).fail = true
  · rw [if_pos hfail]
    exact .failed hq hfail hfailed
  · rw [if_neg hfail]
    simp only [Bool.not_eq_true] at hfail
    cases ho : inquiry.outcome id d (some (handler.answer s (inquiry.noted d) q).auth) with
    | none =>
      rw [hstuck _ _ ho]
      exact .stuck hq hfail ho hfailed
    | some o =>
      have hends := htold _ o _ ho hview
      unfold Ends at hends
      cases hrun : f (handler.answer s (inquiry.noted d) q).auth
          ((s.noting (inquiry.noted d)).asked q (handler.answer s (inquiry.noted d) q)) with
      | error e u =>
        rw [hrun] at hends
        exact hends.elim
      | ok a u =>
        rw [hrun] at hends
        exact .told hq hfail ho hends

/-- A rejection, with the dialogue that it ends. -/
theorem reject_became {asked : List (Callback × Answer)} (h : s.view = some v)
    (ht : t.view = some w) (hstate : w.state = .waitingAuthRequest d.request)
    (huser : w.authUser = d.authUser) (hasked : w.callbacks = v.callbacks ++ asked)
    (hemitted : w.emitted = v.emitted) :
    Ends rejectAuthRequest t (fun _ u => Became s u asked d.reject) fun _ => False := by
  refine (rejectAuthRequest_view ht hstate).mono (fun _ u hu => ?_) fun _ h => h
  refine became_of_view h hu rfl huser hasked ?_
  rw [hemitted]
  rfl

/-- An acceptance. -/
theorem accept_became {asked : List (Callback × Answer)} {user : Bytes} (h : s.view = some v)
    (ht : t.view = some w) (huser : w.authUser = user)
    (hasked : w.callbacks = v.callbacks ++ asked) (hemitted : w.emitted = v.emitted) :
    Ends acceptAuthRequest t (fun _ u => Became s u asked (.ends user)) fun _ => False := by
  refine (acceptAuthRequest_view ht).mono (fun _ u hu => ?_) fun _ h => h
  refine became_of_view h hu rfl huser hasked ?_
  rw [hemitted]
  rfl

theorem serverReadPassword_treated (handler : Handler) (h : s.view = some v)
    (hstate : v.state = .waitingAuthRequest auth) (user : Bytes) (r : Position) :
    Treated handler s id ⟨v.authUser, auth⟩ (readPassword user r)
      (serverReadPassword handler user r s) := by
  unfold serverReadPassword readPassword
  rw [setAuthUser_bind h hstate]
  have hfailed := noting_failed s ⟨user, auth⟩
  refine .lift_bind hfailed fun ⟨_, r⟩ _ => .lift_bind hfailed fun ⟨secret, r⟩ _ => ?_
  refine .lift_bind hfailed fun secret _ => ?_
  refine .asks _ h rfl (fun verdict t ho => ?_) fun answer o t ho ht => ?_
  · cases (outcome_eq_none_iff.mp ho).1
  · simp only [Inquiry.outcome, Option.some.injEq] at ho
    by_cases haccept : answer.auth = .accept
    · rw [if_pos haccept] at ho ⊢
      cases ho
      exact accept_became h ht rfl rfl rfl
    · rw [if_neg haccept] at ho ⊢
      cases ho
      refine (setAuthUser_view [] ht).bind fun _ u hu => ?_
      refine (modifyAuth_view _ hu rfl).bind fun _ x hx => ?_
      exact reject_became h hx rfl rfl rfl rfl

theorem serverReadProbe_treated (handler : Handler) (h : s.view = some v)
    (hstate : v.state = .waitingAuthRequest auth) (user algo key : Bytes) (pubkey : PublicKey) :
    Treated handler s id ⟨v.authUser, auth⟩ (.ok (.probe user algo key pubkey))
      (serverReadProbe handler user algo key pubkey s) := by
  unfold serverReadProbe
  rw [setAuthUser_bind h hstate]
  refine .asks _ h rfl (fun verdict t ho => ?_) fun answer o t ho ht => ?_
  · cases (outcome_eq_none_iff.mp ho).1
  · simp only [Inquiry.outcome, Option.some.injEq] at ho
    by_cases haccept : answer.auth = .accept
    · rw [if_pos haccept] at ho ⊢
      cases ho
      refine (push_view _ ht).bind fun _ u hu => ?_
      refine (modifyAuth_view _ hu rfl).mono (fun _ x hx => ?_) fun _ h => h
      exact became_of_view h hx rfl rfl rfl rfl
    · rw [if_neg haccept] at ho ⊢
      cases ho
      refine (modifyAuth_view _ ht rfl).bind fun _ u hu => ?_
      refine (setAuthUser_view [] hu).bind fun _ x hx => ?_
      exact reject_became h hx rfl rfl rfl rfl

theorem getAuth_bind {α : Type} (h : s.view = some v) (hstate : v.state = .waitingAuthRequest auth)
    (f : AuthRequest → M α) : (getAuth >>= f) s = f auth s := by
  obtain ⟨enc, henc, rfl⟩ := Option.map_eq_some_iff.mp h
  dsimp only at hstate
  simp only [run_bind, getAuth, getEnc, run_get, henc, run_pure, hstate]

/-- The signature counts if the user and key are accepted. -/
theorem verify_became {asked : List (Callback × Answer)} (h : s.view = some v) (isValid : Bool)
    (req : SignedRequest) (ht : t.view = some w) (hid : w.sessionId = id)
    (hstate : w.state = .waitingAuthRequest d.request) (huser : w.authUser = d.authUser)
    (hasked : w.callbacks = v.callbacks ++ asked) (hemitted : w.emitted = v.emitted) :
    Ends (if isValid then do
        let enc ← getEnc
        if verifyClientAuth req.pubkey (sshString enc.sessionId.toList ++ req.init) req.sig
        then acceptAuthRequest
        else rejectAuthRequest
      else rejectAuthRequest : M Unit) t
      (fun _ u => Became s u asked (d.judge id isValid req)) fun _ => False := by
  unfold Dialogue.judge
  by_cases hvalid : isValid = true
  · rw [if_pos hvalid]
    refine getEnc_view ht fun enc _ _ hencid => ?_
    rw [hencid, hid]
    have hiff : req.verified id =
        verifyClientAuth req.pubkey (sshString id.toList ++ req.init) req.sig := rfl
    rw [← hiff]
    by_cases hverified : req.verified id = true
    · rw [if_pos hverified, if_pos ⟨hvalid, hverified⟩]
      exact accept_became h ht huser hasked hemitted
    · rw [if_neg hverified, if_neg fun hboth => hverified hboth.2]
      exact reject_became h ht hstate huser hasked hemitted
  · rw [if_neg hvalid, if_neg fun hboth => hvalid hboth.1]
    exact reject_became h ht hstate huser hasked hemitted

theorem serverReadSignedRequest_treated (handler : Handler) (buf : Bytes) (h : s.view = some v)
    (hstate : v.state = .waitingAuthRequest auth) (user : Bytes) (pubkey : PublicKey)
    (r : Position) :
    Treated handler s v.sessionId ⟨v.authUser, auth⟩ (do
        let sig ← readSignature r
        .ok (.signed ⟨user, pubkey, buf.take r.position, sig⟩))
      (serverReadSignedRequest handler buf user pubkey r s) := by
  have hfailed : Failed s s [] := ⟨(List.append_nil _).symm, rfl⟩
  have hok : ∀ {α β : Type} (a : α) (f : α → Except Fault β), (Except.ok a >>= f) = f a :=
    fun _ _ => rfl
  obtain ⟨-, -, huser, -⟩ := view_shows h
  unfold serverReadSignedRequest readSignature
  rw [getAuth_bind h hstate]
  simp only [bind_assoc, hok]
  refine .lift_bind hfailed fun ⟨signature, r'⟩ _ => .lift_bind hfailed fun ⟨algo, q⟩ _ => ?_
  refine .lift_bind hfailed fun ⟨sig, q'⟩ _ => ?_
  rw [run_bind, run_get]
  dsimp only
  rw [huser]
  generalize hreq : (⟨user, pubkey, buf.take r.position, sig⟩ : SignedRequest) = req
  have hjudged : ∀ {t : Session} {w : View} {d : Dialogue} {asked : List (Callback × Answer)}
      (isValid : Bool), t.view = some w → w.sessionId = v.sessionId →
      w.state = .waitingAuthRequest d.request → w.authUser = d.authUser →
      w.callbacks = v.callbacks ++ asked → w.emitted = v.emitted →
      Ends (if isValid then do
          let enc ← getEnc
          if verifyClientAuth pubkey (sshString enc.sessionId.toList ++ buf.take r.position) sig
          then acceptAuthRequest
          else rejectAuthRequest
        else rejectAuthRequest : M Unit) t
        (fun _ u => Became s u asked (d.judge v.sessionId isValid req)) fun _ => False := by
    rw [← hreq]
    exact fun isValid ht hid hstate huser hasked hemitted =>
      verify_became h isValid ⟨user, pubkey, buf.take r.position, sig⟩ ht hid hstate huser hasked
        hemitted
  have huser' : req.user = user := by rw [← hreq]
  have hpubkey : req.pubkey = pubkey := by rw [← hreq]
  by_cases hvouches : sentPkOk auth.current = true ∧ user = v.authUser
  · -- the record of the probe answers for the user and key
    have hd : Dialogue.vouches ⟨v.authUser, auth⟩ req := by
      rw [← huser'] at hvouches
      exact hvouches
    have hnoted : (Inquiry.signed req).noted ⟨v.authUser, auth⟩ = ⟨v.authUser, auth⟩ := by
      simp only [Inquiry.noted, hd, not_true_eq_false, false_and, if_false]
    rw [if_pos hvouches, pure_bind]
    refine .of_untold (o := Dialogue.judge v.sessionId ⟨v.authUser, auth⟩ true req) ?_ ?_ ?_
    · simp only [Inquiry.question, hd, not_true_eq_false, false_and, if_false]
    · simp only [Inquiry.outcome, hnoted, hd, true_or, decide_true]
    · exact hjudged true h rfl hstate rfl (List.append_nil _).symm rfl
  · have hd : ¬ Dialogue.vouches ⟨v.authUser, auth⟩ req := by
      rw [← huser'] at hvouches
      exact hvouches
    rw [if_neg hvouches]
    by_cases hempty : v.authUser = []
    · have hlength : v.authUser.length = 0 := by rw [hempty]; rfl
      have hnoted : (Inquiry.signed req).noted ⟨v.authUser, auth⟩ = ⟨user, auth⟩ := by
        rw [Inquiry.noted, if_pos ⟨hd, hempty⟩, huser']
      rw [if_pos hlength, setAuthUser_bind h hstate, ← hnoted]
      simp only [pure_bind]
      refine .asks _ h ?_ (fun verdict t ho => ?_) fun answer o t ho ht => ?_
      · rw [Inquiry.question, if_pos ⟨hd, hempty⟩, huser', hpubkey]
      · cases (outcome_eq_none_iff.mp ho).1
      · rw [hnoted] at ht
        simp only [Inquiry.outcome, hnoted, hd, false_or, Option.some.injEq] at ho
        rw [← ho]
        exact hjudged (decide (answer.auth = .accept)) ht rfl rfl rfl rfl rfl
    · have hlength : ¬ v.authUser.length = 0 := fun h => hempty (List.length_eq_zero_iff.mp h)
      have hnoted : (Inquiry.signed req).noted ⟨v.authUser, auth⟩ = ⟨v.authUser, auth⟩ := by
        rw [Inquiry.noted, if_neg fun hboth => hempty hboth.2]
      rw [if_neg hlength, pure_bind]
      refine .of_untold (o := Dialogue.judge v.sessionId ⟨v.authUser, auth⟩ false req) ?_ ?_ ?_
      · rw [Inquiry.question, if_neg fun hboth => hempty hboth.2]
      · simp only [Inquiry.outcome, hnoted, hd, false_or, reduceCtorEq, decide_false]
      · exact hjudged false h rfl hstate rfl (List.append_nil _).symm rfl

/-- The verdict on a keyboard-interactive request, and what follows on an acceptance. -/
theorem respond_became {asked : List (Callback × Answer)} {verdict : Auth} {o accepted : Outcome}
    {f : Bool → M Unit} (h : s.view = some v) (ht : t.view = some w)
    (ho : d.respond accepted verdict = some o)
    (hstate : w.state = .waitingAuthRequest d.request) (huser : w.authUser = d.authUser)
    (hasked : w.callbacks = v.callbacks ++ asked) (hemitted : w.emitted = v.emitted)
    (hfalse : ∀ u, f false u = .ok () u)
    (htrue : ∀ u, u.view = some { w with emitted := w.emitted ++ [[msg.USERAUTH_SUCCESS]] } →
      Ends (f true) u (fun _ x => Became s x asked accepted) fun _ => False) :
    Ends (replyUserauthInfoResponse verdict >>= f) t (fun _ u => Became s u asked o)
      fun _ => False := by
  have hdone : ∀ u, Became s u asked o → Ends (f false) u (fun _ x => Became s x asked o)
      fun _ => False := by
    intro u hu
    unfold Ends
    rw [hfalse u]
    exact hu
  cases verdict with
  | accept =>
    cases ho
    rw [replyUserauthInfoResponse, bind_assoc]
    refine (push_view _ ht).bind fun _ u hu => ?_
    rw [pure_bind]
    exact htrue u hu
  | reject =>
    cases ho
    rw [replyUserauthInfoResponse, bind_assoc]
    refine (modifyAuth_view _ ht hstate).bind fun _ u hu => ?_
    rw [bind_assoc]
    refine (reject_became (d := d.denied d.authUser) h hu rfl huser hasked hemitted).bind
      fun _ x hx => ?_
    rw [pure_bind]
    exact hdone x hx
  | partialAccept name instructions prompts =>
    cases ho
    rw [replyUserauthInfoResponse, bind_assoc]
    refine (push_view _ ht).bind fun _ u hu => ?_
    rw [pure_bind]
    exact hdone u (became_of_view h hu hstate huser hasked (by rw [hemitted]; rfl))
  | unsupportedMethod => cases ho

theorem serverReadKeyboardInteractive_treated (handler : Handler) (h : s.view = some v)
    (hstate : v.state = .waitingAuthRequest auth) (user : Bytes) (r : Position) :
    Treated handler s id ⟨v.authUser, auth⟩ (readInteractive user r)
      (serverReadKeyboardInteractive handler user r s) := by
  unfold serverReadKeyboardInteractive readInteractive
  rw [setAuthUser_bind h hstate]
  have hfailed := noting_failed s ⟨user, auth⟩
  refine .lift_bind hfailed fun ⟨_, r⟩ _ => .lift_bind hfailed fun ⟨submethods, r⟩ _ => ?_
  refine .lift_bind hfailed fun submethods _ => ?_
  rw [modifyAuth_bind]
  refine .asks (.interactive user submethods) h rfl (fun verdict t ho => ?_)
    fun answer o t ho ht => ?_
  · rw [(outcome_eq_none_iff.mp ho).2]
    rfl
  · refine respond_became h ht ho rfl rfl rfl rfl (fun u => rfl) fun u hu => ?_
    rw [if_pos rfl]
    exact (setState_view .initCompression hu).mono
      (fun _ x hx => became_of_view h hx rfl rfl rfl rfl) fun _ h => h

theorem serverReadAuthRequestPk_treated (handler : Handler) (buf : Bytes) (h : s.view = some v)
    (hstate : v.state = .waitingAuthRequest auth) (user : Bytes) (r : Position) :
    Treated handler s v.sessionId ⟨v.authUser, auth⟩ (readPublickeyInquiry buf user r)
      (serverReadAuthRequestPk handler buf user r s) := by
  have hfailed : Failed s s [] := ⟨(List.append_nil _).symm, rfl⟩
  have hok : ∀ {α β : Type} (a : α) (f : α → Except Fault β), (Except.ok a >>= f) = f a :=
    fun _ _ => rfl
  unfold serverReadAuthRequestPk readPublickeyInquiry readPublickey
  simp only [bind_assoc, hok]
  refine .lift_bind hfailed fun res₁ _ => .lift_bind hfailed fun res₂ _ => ?_
  refine .lift_bind hfailed fun res₃ _ => ?_
  obtain ⟨isReal, r₁⟩ := res₁
  obtain ⟨algo, r₂⟩ := res₂
  obtain ⟨key, r₃⟩ := res₃
  dsimp only
  cases publicKeyParse algo key with
  | ok pubkey =>
    dsimp only
    by_cases hreal : isReal ≠ 0
    · rw [if_pos hreal, if_pos hreal]
      exact serverReadSignedRequest_treated handler buf h hstate user pubkey r₃
    · rw [if_neg hreal, if_neg hreal]
      exact serverReadProbe_treated handler h hstate user algo key pubkey
  | error e =>
    cases e with
    | couldNotReadKey =>
      exact .of_untold rfl rfl
        (reject_became h h hstate rfl (List.append_nil _).symm rfl)
    | _ => exact .unread hfailed

/-- A USERAUTH_REQUEST is treated as the inquiry in it. -/
theorem serverReadAuthRequest_treated (handler : Handler) (buf : Bytes) (h : s.view = some v)
    (hstate : v.state = .waitingAuthRequest auth) :
    Treated handler s v.sessionId ⟨v.authUser, auth⟩ (readRequest buf)
      (serverReadAuthRequest handler buf s) := by
  have hfailed : Failed s s [] := ⟨(List.append_nil _).symm, rfl⟩
  have hok : ∀ {α β : Type} (a : α) (f : α → Except Fault β), (Except.ok a >>= f) = f a :=
    fun _ _ => rfl
  unfold serverReadAuthRequest readRequest readRequestHead
  simp only [bind_assoc]
  refine .lift_bind hfailed fun ⟨name, r₁⟩ _ => .lift_bind hfailed fun user _ => ?_
  refine .lift_bind hfailed fun ⟨service, r₂⟩ _ => .lift_bind hfailed fun ⟨method, r₃⟩ _ => ?_
  dsimp only
  by_cases hconnection : service = sshConnection
  · rw [if_pos hconnection, if_pos hconnection, hok]
    dsimp only
    by_cases hpassword : method = ascii "password"
    · rw [if_pos hpassword, if_pos hpassword]
      exact serverReadPassword_treated handler h hstate user r₃
    rw [if_neg hpassword, if_neg hpassword]
    by_cases hpublickey : method = ascii "publickey"
    · rw [if_pos hpublickey, if_pos hpublickey]
      exact serverReadAuthRequestPk_treated handler buf h hstate user r₃
    rw [if_neg hpublickey, if_neg hpublickey]
    by_cases hkeyboard : method = ascii "keyboard-interactive"
    · rw [if_pos hkeyboard, if_pos hkeyboard]
      exact serverReadKeyboardInteractive_treated handler h hstate user r₃
    rw [if_neg hkeyboard, if_neg hkeyboard]
    exact .of_untold rfl rfl (reject_became h h hstate rfl (List.append_nil _).symm rfl)
  · rw [if_neg hconnection, if_neg hconnection]
    exact .unread hfailed

/-- Decompression is no part of what a session has become. -/
theorem initDecompress_became {asked : List (Callback × Answer)} {o : Outcome}
    (h : Became s t asked o) :
    Ends initDecompress t (fun _ u => Became s u asked o) fun _ => False := by
  cases henc : t.common.encrypted with
  | none =>
    have hstate := h.state
    simp only [Session.state, henc, Option.map_none] at hstate
    cases hstate
  | some enc =>
    obtain ⟨w, ht, -⟩ := view_some henc
    refine (initDecompress_view ht).mono (fun _ u hu => ?_) fun _ h => h
    obtain ⟨htstate, htemitted, htuser, htcallbacks⟩ := view_shows ht
    obtain ⟨hustate, huemitted, huuser, hucallbacks⟩ := view_shows hu
    have hopened : w.opened.authUser = w.authUser := by
      unfold View.opened
      split <;> rfl
    constructor
    · rw [hustate, View.opened_state, ← htstate, h.state]
    · rw [huuser, hopened, ← htuser, h.authUser]
    · rw [hucallbacks, View.opened_callbacks, ← htcallbacks, h.callbacks]
    · rw [huemitted, View.opened_emitted, ← htemitted, h.emitted]

/-- What follows a treated inquiry and keeps what it has become. -/
theorem Treated.bind {x f : M Unit} {inquiry : Except Fault Inquiry}
    (h : Treated handler s id d inquiry (x s))
    (hf : ∀ t asked o, Became s t asked o →
      Ends f t (fun _ u => Became s u asked o) fun _ => False) :
    Treated handler s id d inquiry ((x >>= fun _ => f) s) := by
  rw [run_bind]
  cases hx : x s with
  | error e t =>
    rw [hx] at h
    cases h with
    | unread ht => exact .unread ht
    | failed hq hfail ht => exact .failed hq hfail ht
    | stuck hq hfail ho ht => exact .stuck hq hfail ho ht
  | ok a t =>
    rw [hx] at h
    cases h with
    | untold hq ho ht => exact .of_untold hq ho (hf t _ _ ht)
    | told hq hfail ho ht =>
      have hends := hf t _ _ ht
      unfold Ends at hends
      dsimp only
      cases hrun : f t with
      | error e u =>
        rw [hrun] at hends
        exact hends.elim
      | ok b u =>
        rw [hrun] at hends
        exact .told hq hfail ho hends

/-- A session that awaits a request treats a packet of the authentication as
the inquiry in it. -/
theorem serverReadState_treated (handler : Handler) {buf : Bytes} (h : s.view = some v)
    (hstate : v.state = .waitingAuthRequest auth) (hinquires : Inquires buf) :
    Treated handler s v.sessionId ⟨v.authUser, auth⟩ (readInquiry auth.current buf)
      (serverReadState handler buf s) := by
  have hfailed : Failed s s [] := ⟨(List.append_nil _).symm, rfl⟩
  obtain ⟨enc, henc, rfl⟩ := Option.map_eq_some_iff.mp h
  dsimp only at hstate ⊢
  have hrun : serverReadState handler buf s =
      (if buf.head? = some msg.USERAUTH_REQUEST then do
        serverReadAuthRequest handler buf
        initDecompress
      else if buf.head? = some msg.USERAUTH_INFO_RESPONSE then do
        if ← readUserauthInfoResponse handler buf then initDecompress else pure ()
      else pure () : M Unit) s := by
    unfold serverReadState getEnc
    simp only [run_bind, run_get, henc, run_pure, hstate]
  rw [hrun]
  unfold readInquiry
  by_cases hrequest : buf.head? = some msg.USERAUTH_REQUEST
  · rw [if_pos hrequest, if_pos hrequest]
    exact (serverReadAuthRequest_treated handler buf h hstate).bind
      fun t asked o ht => initDecompress_became ht
  · have hresponse := hinquires.resolve_left hrequest
    rw [if_neg hrequest, if_neg hrequest, if_pos hresponse]
    have hrefused : Treated handler s enc.sessionId ⟨s.common.authUser, auth⟩ (.ok .refused)
        (((do rejectAuthRequest; pure false : M Bool) >>= fun accepted =>
          if accepted then initDecompress else pure ()) s) := by
      refine .of_untold (o := Dialogue.reject ⟨s.common.authUser, auth⟩) rfl rfl ?_
      rw [bind_assoc]
      refine (reject_became (d := ⟨s.common.authUser, auth⟩) h h hstate rfl
        (List.append_nil _).symm rfl).bind fun _ t ht => ?_
      rw [pure_bind]
      exact ht
    unfold readUserauthInfoResponse readResponse
    rw [bind_assoc, getAuth_bind h hstate]
    cases auth.current with
    | none => exact hrefused
    | some current =>
      cases current with
      | publicKey key algo sent => exact hrefused
      | keyboardInteractive submethods =>
        dsimp only
        rw [bind_assoc]
        refine .lift_bind hfailed fun ⟨n, r⟩ _ => ?_
        have hself : s.noting ⟨s.common.authUser, auth⟩ = s := noting_self h hstate _
        rw [bind_assoc, run_bind, run_get]
        dsimp only
        rw [bind_assoc]
        have hasks : Treated handler s enc.sessionId ⟨s.common.authUser, auth⟩
            (.ok (.response submethods n r)) ((askAuth handler
              (.authKeyboardInteractive s.common.authUser submethods (some (r, n))) >>=
                fun verdict => do
                  if ← replyUserauthInfoResponse verdict then initDecompress else pure ())
              (s.noting ⟨s.common.authUser, auth⟩)) := by
          refine .asks (.response submethods n r) h rfl (fun verdict t ho => ?_)
            fun answer o t ho ht => ?_
          · rw [(outcome_eq_none_iff.mp ho).2]
            rfl
          · refine respond_became h ht ho rfl rfl rfl rfl (fun u => rfl) fun u hu => ?_
            rw [if_pos rfl]
            exact initDecompress_became (became_of_view h hu rfl rfl rfl rfl)
        rw [hself] at hasks
        exact hasks

end

end

end Thrussh.Server
