import Thrussh.Server.Inquiry

/-!
# What the authentication answers

A packet of the authentication that can be read is answered with one packet,
unless the handler calls a keyboard-interactive request unsupported: that
verdict panics. A signed request of a user and a key that the handler accepts
succeeds only while no other user is recorded.
-/

namespace Thrussh.Server

open Deps Lib

section
variable [Deps]

/-- Whether a packet answers a request of the authentication. -/
def IsAnswer (packet : Bytes) : Prop :=
  packet.head? = some msg.USERAUTH_SUCCESS ∨ packet.head? = some msg.USERAUTH_FAILURE ∨
    packet.head? = some msg.USERAUTH_PK_OK ∨ packet.head? = some msg.USERAUTH_INFO_REQUEST

/-- Whether a success rests on an acceptance: of the question that was asked
last, or of the probe that is on record. -/
def RestsOnAccept (s t : Session) : Prop :=
  (∃ q answer, t.callbacks = s.callbacks ++ [(q, answer)] ∧ answer.accepts) ∨
    t.callbacks = s.callbacks ∧ ∃ auth key algo pubkey answer,
      s.state = some (.waitingAuthRequest auth) ∧
      auth.current = some (.publicKey key algo true) ∧ publicKeyParse algo key = .ok pubkey ∧
      (.authPublickey s.common.authUser pubkey, answer) ∈ s.callbacks ∧ answer.accepts

/-- A packet of the authentication that can be read, for a session that awaits it. -/
structure Addressed (s : Session) (buf : Bytes) (d : Dialogue) (inquiry : Inquiry) : Prop where
  /-- The session awaits a request. -/
  dialogue : s.dialogue = some d
  /-- The packet belongs to no key exchange. -/
  served : ¬ s.common.InExchange buf
  /-- It is one of the authentication. -/
  inquires : Inquires buf
  /-- It can be read. -/
  reads : readInquiry d.request.current buf = .ok inquiry

/-- Whether a packet of the authentication is answered with one packet, and
with a success only after an acceptance. A handler that fails gives no verdict. -/
def AnswersOnce (handler : Handler) (s : Session) (buf : Bytes) : Prop :=
  ∀ d inquiry, Addressed s buf d inquiry →
    (∃ t packet, reply handler buf s = .ok () t ∧ t.emitted = s.emitted ++ [packet] ∧
      IsAnswer packet ∧ (packet.head? = some msg.USERAUTH_SUCCESS → RestsOnAccept s t)) ∨
    ∃ t q answer, reply handler buf s = .error (.error .handler) t ∧
      t.callbacks = s.callbacks ++ [(q, answer)] ∧ answer.fail = true

/-- Whether the handler supports what a packet of the authentication asks for. -/
def Supports (handler : Handler) (s : Session) (buf : Bytes) : Prop :=
  ∀ d inquiry q, Addressed s buf d inquiry → inquiry.isInteractive = true →
    inquiry.question d = some q →
    (handler.answer s (inquiry.noted d) q).fail = true ∨
      (handler.answer s (inquiry.noted d) q).auth ≠ .unsupportedMethod

section
variable {handler : Handler} {s : Session} {buf : Bytes} {d : Dialogue} {inquiry : Inquiry}

/-- Every outcome is one answer. -/
theorem outcome_isAnswer {id : Bytes32} {verdict : Option Auth} {o : Outcome}
    (h : inquiry.outcome id d verdict = some o) : IsAnswer o.packet := by
  have hreject : ∀ d : Dialogue, IsAnswer d.reject.packet := fun _ => .inr (.inl rfl)
  have hends : ∀ user, IsAnswer (Outcome.ends user).packet := fun _ => .inl rfl
  have hrespond : ∀ (d : Dialogue) (accepted : Outcome), IsAnswer accepted.packet →
      ∀ verdict, d.respond accepted verdict = some o → IsAnswer o.packet := by
    intro d accepted haccepted verdict ho
    cases verdict with
    | accept => cases ho; exact haccepted
    | reject => cases ho; exact hreject _
    | partialAccept name instructions prompts => cases ho; exact .inr (.inr (.inr rfl))
    | unsupportedMethod => cases ho
  cases inquiry with
  | password user secret =>
    simp only [Inquiry.outcome] at h
    split at h
    · cases h; exact hends _
    · cases h; exact hreject _
  | signed req =>
    simp only [Inquiry.outcome, Dialogue.judge, Option.some.injEq] at h
    rw [← h]
    split
    · exact hends _
    · exact hreject _
  | probe user algo key pubkey =>
    simp only [Inquiry.outcome] at h
    split at h
    · cases h; exact .inr (.inr (.inl rfl))
    · cases h; exact hreject _
  | interactive user submethods =>
    obtain ⟨verdict, -, ho⟩ := Option.bind_eq_some_iff.mp h
    exact hrespond _ _ (hends _) verdict ho
  | response submethods n r =>
    obtain ⟨verdict, -, ho⟩ := Option.bind_eq_some_iff.mp h
    exact hrespond _ _ (.inl rfl) verdict ho
  | refused => cases h; exact hreject _

/-- A success needs the verdict that accepts, or a probe that answers for the request. -/
theorem outcome_success {id : Bytes32} {verdict : Option Auth} {o : Outcome}
    (h : inquiry.outcome id d verdict = some o)
    (hsuccess : o.packet.head? = some msg.USERAUTH_SUCCESS) :
    verdict = some .accept ∨ ∃ req, inquiry = .signed req ∧ d.vouches req := by
  have hreject : ∀ d : Dialogue, d.reject.packet.head? ≠ some msg.USERAUTH_SUCCESS := by
    intro d hhead
    simp only [Dialogue.reject, Outcome.packet, failurePacket, List.cons_append, List.head?_cons,
      Option.some.injEq] at hhead
    revert hhead
    decide
  have hrespond : ∀ (d : Dialogue) (accepted : Outcome) (verdict : Auth),
      d.respond accepted verdict = some o → verdict = .accept := by
    intro d accepted verdict ho
    cases verdict with
    | accept => rfl
    | reject => cases ho; exact absurd hsuccess (hreject _)
    | partialAccept name instructions prompts =>
      cases ho
      exact absurd hsuccess (by simp [Outcome.packet, infoRequestPacket]; decide)
    | unsupportedMethod => cases ho
  cases inquiry with
  | password user secret =>
    by_cases haccept : verdict = some .accept
    · exact .inl haccept
    · rw [Inquiry.outcome, if_neg haccept] at h
      cases h
      exact absurd hsuccess (hreject _)
  | signed req =>
    by_cases hvalid : d.vouches req ∨ verdict = some .accept
    · exact hvalid.symm.imp_right fun hvouches => ⟨req, rfl, hvouches⟩
    · simp only [Inquiry.outcome, hvalid, Dialogue.judge, decide_false, Bool.false_eq_true,
        false_and, if_false, Option.some.injEq] at h
      rw [← h] at hsuccess
      exact absurd hsuccess (hreject _)
  | probe user algo key pubkey =>
    by_cases haccept : verdict = some .accept
    · exact .inl haccept
    · rw [Inquiry.outcome, if_neg haccept] at h
      cases h
      exact absurd hsuccess (hreject _)
  | interactive user submethods =>
    obtain ⟨verdict, rfl, ho⟩ := Option.bind_eq_some_iff.mp h
    exact .inl (by rw [hrespond _ _ verdict ho])
  | response submethods n r =>
    obtain ⟨verdict, rfl, ho⟩ := Option.bind_eq_some_iff.mp h
    exact .inl (by rw [hrespond _ _ verdict ho])
  | refused =>
    cases h
    exact absurd hsuccess (hreject _)

/-- A packet of the authentication is treated as the inquiry in it. -/
theorem Addressed.treated (handler : Handler) (h : Addressed s buf d inquiry) :
    ∃ id, (∀ enc ∈ s.common.encrypted, enc.sessionId = id) ∧
      Treated handler s id d (.ok inquiry) (reply handler buf s) := by
  have hdialogue := h.dialogue
  unfold Session.dialogue at hdialogue
  split at hdialogue
  · rename_i auth hstate
    cases hdialogue
    obtain ⟨enc, henc, hauth⟩ := Option.map_eq_some_iff.mp hstate
    obtain ⟨v, hv, hvstate, hvid⟩ := view_some henc
    obtain ⟨-, -, hvuser, -⟩ := view_shows hv
    have htreated := serverReadState_treated handler hv (hvstate.trans hauth) h.inquires
    rw [← hvuser] at htreated
    rw [reply_state handler h.served]
    have hreads := h.reads
    dsimp only at hreads
    rw [hreads] at htreated
    refine ⟨v.sessionId, fun enc' henc' => ?_, htreated⟩
    rw [henc, Option.mem_some_iff] at henc'
    rw [← henc', hvid]
  · cases hdialogue

/-- A packet that the handler supports is answered. -/
theorem answersOnce_of_supports (hrecorded : Recorded s) (h : Supports handler s buf) :
    AnswersOnce handler s buf := by
  intro d inquiry haddressed
  obtain ⟨id, -, htreated⟩ := haddressed.treated handler
  have hanswered : ∀ {t asked o}, Became s t asked o → ∀ verdict,
      inquiry.outcome id d verdict = some o →
      (verdict = some .accept → ∃ q answer, asked = [(q, answer)] ∧ answer.accepts) →
      (inquiry.question d = none → asked = []) →
      t.emitted = s.emitted ++ [o.packet] ∧ IsAnswer o.packet ∧
        (o.packet.head? = some msg.USERAUTH_SUCCESS → RestsOnAccept s t) := by
    intro t asked o ht verdict ho haccept hquestion
    refine ⟨ht.emitted, outcome_isAnswer ho, fun hsuccess => ?_⟩
    rcases outcome_success ho hsuccess with hverdict | ⟨req, rfl, hvouches⟩
    · obtain ⟨q, answer, rfl, haccepts⟩ := haccept hverdict
      exact .inl ⟨q, answer, ht.callbacks, haccepts⟩
    · have hnone : (Inquiry.signed req).question d = none := by
        rw [Inquiry.question, if_neg fun hboth => hboth.1 hvouches]
      have hcallbacks := ht.callbacks
      rw [hquestion hnone, List.append_nil] at hcallbacks
      have hdialogue := haddressed.dialogue
      unfold Session.dialogue at hdialogue
      split at hdialogue
      · rename_i auth hstate
        cases hdialogue
        obtain ⟨key, algo, hcurrent⟩ := current_of_sentPkOk hvouches.1
        obtain ⟨pubkey, answer, hparse, haccepts, hmem⟩ :=
          hrecorded auth key algo true hstate hcurrent
        exact .inr ⟨hcallbacks, auth, key, algo, pubkey, answer, hstate, hcurrent, hparse, hmem,
          haccepts⟩
      · cases hdialogue
  generalize reply handler buf s = result at htreated
  cases htreated with
  | @untold _ o t hq ho ht =>
    obtain ⟨hemitted, hanswer, hrests⟩ := hanswered ht none ho (by simp) fun _ => rfl
    exact .inl ⟨t, o.packet, rfl, hemitted, hanswer, hrests⟩
  | @failed _ q t hq hfail ht => exact .inr ⟨t, q, _, rfl, ht.callbacks, hfail⟩
  | stuck hq hfail ho ht =>
    obtain ⟨hinteractive, hunsupported⟩ := outcome_eq_none_iff.mp ho
    rcases h d inquiry _ haddressed hinteractive hq with hfails | hsupported
    · rw [hfail] at hfails
      cases hfails
    · exact absurd hunsupported hsupported
  | @told _ q o t hq hfail ho ht =>
    obtain ⟨hemitted, hanswer, hrests⟩ := hanswered ht _ ho
      (fun haccept => ⟨q, _, rfl, hfail, Option.some.inj haccept⟩) fun hnone => by
        rw [hq] at hnone
        cases hnone
    exact .inl ⟨t, o.packet, rfl, hemitted, hanswer, hrests⟩

/-- A packet that is answered is one that the handler supports. -/
theorem supports_of_answersOnce (h : AnswersOnce handler s buf) : Supports handler s buf := by
  intro d inquiry q haddressed hinteractive hq
  obtain ⟨id, -, htreated⟩ := haddressed.treated handler
  by_cases hfail : (handler.answer s (inquiry.noted d) q).fail = true
  · exact .inl hfail
  refine .inr fun hunsupported => ?_
  have hnone : inquiry.outcome id d (some (handler.answer s (inquiry.noted d) q).auth) = none :=
    outcome_eq_none_iff.mpr ⟨hinteractive, hunsupported⟩
  have hends := h d inquiry haddressed
  generalize reply handler buf s = result at htreated hends
  cases htreated with
  | untold hq' ho ht =>
    rw [hq] at hq'
    cases hq'
  | failed hq' hfail' ht =>
    rw [hq] at hq'
    cases hq'
    exact hfail hfail'
  | stuck hq' hfail' ho ht =>
    rcases hends with ⟨t, packet, hrun, -⟩ | ⟨t, q, answer, hrun, -⟩
    · cases hrun
    · cases hrun
  | told hq' hfail' ho ht =>
    rw [hq] at hq'
    cases hq'
    rw [hnone] at ho
    cases ho

/-- In every state that a run of the server reaches, a packet of the
authentication is answered with one packet if and only if the handler does not
call a keyboard-interactive request unsupported. -/
theorem answersOnce_iff (config : Config) (handler : Handler) (sshid : Bytes) (world : World)
    (l : Loop Session) (hl : runStream config handler sshid world = .ok l)
    (events : List (Event (UInt32 × ChannelMsg))) (e : Event (UInt32 × ChannelMsg)) (s : Session)
    (buf : Bytes)
    (hgiven : (s, buf) ∈ Loop.given (driver handler) (l.run (driver handler) events) e) :
    AnswersOnce handler s buf ↔ Supports handler s buf := by
  obtain ⟨s₀, output, hs₀, rfl⟩ := runStream_start hl
  have hkeeps := driver_keeps handler
  have hrecorded : Recorded s₀ := Recorded.of_state fun auth => by
    simp [Session.state, hs₀.encrypted]
  have hstart := Loop.start_kept hkeeps ⟨hs₀.sound, hrecorded⟩ output
  have hkept := Loop.given_kept hkeeps (Loop.run_kept hkeeps hstart events) hgiven
  exact ⟨supports_of_answersOnce, answersOnce_of_supports hkept.2⟩

/-- A signed publickey request is an inquiry. -/
theorem readInquiry_signed {req : SignedRequest} (current : Option CurrentRequest)
    (hpublickey : isPublickeyRequest buf = true) (hreq : readSignedRequest buf = .ok req) :
    readInquiry current buf = .ok (.signed req) := by
  have hhead := head_of_publickey hpublickey
  obtain ⟨⟨user, method, r⟩, hrequest, hbody⟩ := ok_of_bind hreq
  obtain ⟨⟨isReal, algo, key, r'⟩, hpk, hsigned⟩ := ok_of_bind hbody
  obtain ⟨sig, hsignature, hjudged⟩ := ok_of_bind hsigned
  have hmethod : method = ascii "publickey" := by
    simp only [isPublickeyRequest, hrequest, Bool.and_eq_true, decide_eq_true_eq] at hpublickey
    exact hpublickey.2
  have hpassword : ¬ method = ascii "password" := by
    rw [hmethod]
    decide
  unfold readInquiry readRequest readPublickeyInquiry
  rw [if_pos hhead]
  simp only [hrequest, hpk, bind, Except.bind, if_neg hpassword, if_pos hmethod]
  cases hparse : publicKeyParse algo key with
  | error e =>
    rw [hparse] at hjudged
    cases hjudged
  | ok pubkey =>
    simp only [hparse] at hjudged ⊢
    by_cases hreal : isReal ≠ 0
    · rw [if_pos hreal] at hjudged ⊢
      cases hjudged
      simp only [hsignature]
    · rw [if_neg hreal] at hjudged
      cases hjudged

/-- A signed publickey request that deserves a success: the signature is valid,
and the handler accepts the user and the key whenever it is asked. -/
structure Entitled (handler : Handler) (s : Session) (buf : Bytes) (req : SignedRequest) :
    Prop where
  /-- The packet belongs to no key exchange. -/
  served : ¬ s.common.InExchange buf
  /-- It is a publickey request. -/
  publickey : isPublickeyRequest buf = true
  /-- It carries a signature. -/
  reads : readSignedRequest buf = .ok req
  /-- The signature is valid. -/
  verified : ∀ enc ∈ s.common.encrypted, req.verified enc.sessionId = true
  /-- The handler accepts. -/
  accepts : ∀ tick t, (handler tick (.authPublickey req.user req.pubkey) t).accepts

/-- Whether a packet is answered by USERAUTH_SUCCESS. -/
def Succeeds (handler : Handler) (s : Session) (buf : Bytes) : Prop :=
  ∃ t, reply handler buf s = .ok () t ∧ t.emitted = s.emitted ++ [[msg.USERAUTH_SUCCESS]]

/-- A signed request that deserves a success succeeds if and only if no user is
recorded, or a probe of its user is on record. -/
theorem succeeds_iff {req : SignedRequest} (hdialogue : s.dialogue = some d)
    (h : Entitled handler s buf req) :
    Succeeds handler s buf ↔ d.authUser = [] ∨ d.vouches req := by
  have haddressed : Addressed s buf d (.signed req) :=
    ⟨hdialogue, h.served, .inl (head_of_publickey h.publickey),
      readInquiry_signed _ h.publickey h.reads⟩
  obtain ⟨id, hid, htreated⟩ := haddressed.treated handler
  have hverified : req.verified id = true := by
    unfold Session.dialogue Session.state at hdialogue
    cases henc : s.common.encrypted with
    | none =>
      rw [henc] at hdialogue
      cases hdialogue
    | some enc =>
      rw [← hid enc henc]
      exact h.verified enc henc
  have hsucceeds : ∀ {t asked o}, Became s t asked o →
      (t.emitted = s.emitted ++ [[msg.USERAUTH_SUCCESS]] ↔ o.packet = [msg.USERAUTH_SUCCESS]) := by
    intro t asked o ht
    rw [ht.emitted, List.append_right_inj, List.cons.injEq, and_iff_left rfl]
  have hreject : ∀ d : Dialogue, d.reject.packet ≠ [msg.USERAUTH_SUCCESS] := by
    intro d heq
    have hhead := congrArg List.head? heq
    simp only [Dialogue.reject, Outcome.packet, failurePacket, List.cons_append, List.head?_cons,
      Option.some.injEq] at hhead
    revert hhead
    decide
  unfold Succeeds
  generalize reply handler buf s = result at htreated
  cases htreated with
  | @untold _ o t hq ho ht =>
    have hempty : d.vouches req ∨ d.authUser ≠ [] := by
      by_contra hnot
      rw [not_or, not_not] at hnot
      rw [Inquiry.question, if_pos hnot] at hq
      cases hq
    simp only [Inquiry.outcome, Dialogue.judge, hverified, and_true, reduceCtorEq, or_false,
      decide_eq_true_eq, Option.some.injEq] at ho
    constructor
    · rintro ⟨u, hu, hemitted⟩
      cases hu
      rw [hsucceeds ht, ← ho] at hemitted
      split at hemitted
      · rename_i hvouches
        exact .inr hvouches
      · exact absurd hemitted (hreject _)
    · intro hcase
      have hvouches : d.vouches req := by
        rcases hcase with hnone | hvouches
        · exact hempty.resolve_right fun hsome => hsome hnone
        · exact hvouches
      refine ⟨t, rfl, (hsucceeds ht).mpr ?_⟩
      rw [← ho, if_pos hvouches]
      rfl
  | @failed _ q t hq hfail ht =>
    simp only [Inquiry.question, Option.ite_none_right_eq_some, Option.some.injEq] at hq
    have haccepts := (h.accepts s.common.tick (s.noting ((Inquiry.signed req).noted d))).1
    rw [hq.2] at haccepts
    exact absurd hfail (by
      unfold Handler.answer
      rw [haccepts]
      decide)
  | stuck hq hfail ho ht => cases (outcome_eq_none_iff.mp ho).1
  | @told _ q o t hq hfail ho ht =>
    simp only [Inquiry.question, Option.ite_none_right_eq_some, Option.some.injEq] at hq
    have haccepts := (h.accepts s.common.tick (s.noting ((Inquiry.signed req).noted d))).2
    rw [hq.2] at haccepts
    have hverdict : (handler.answer s ((Inquiry.signed req).noted d) q).auth = .accept := haccepts
    simp only [Inquiry.outcome, Dialogue.judge, hverdict, or_true, decide_true, hverified, and_self,
      if_true, Option.some.injEq] at ho
    constructor
    · exact fun _ => .inl hq.1.2
    · intro _
      refine ⟨t, rfl, (hsucceeds ht).mpr ?_⟩
      rw [← ho]
      rfl

end

end

/-- A run in which a keyboard-interactive request is judged. -/
theorem answersOnce_iff_request :
    letI := Concrete.deps
    ∃ p ∈ Loop.given (driver Concrete.prompting)
        (Concrete.server.run (driver Concrete.prompting)
          (Concrete.authenticating ++ [.arrive (Concrete.sealed Concrete.interactiveRequest)]))
        .read,
      AnswersOnce Concrete.prompting p.1 p.2 ↔ Supports Concrete.prompting p.1 p.2 := by
  let _ := Concrete.deps
  have hsome : (Loop.given (driver Concrete.prompting)
      (Concrete.server.run (driver Concrete.prompting)
        (Concrete.authenticating ++ [.arrive (Concrete.sealed Concrete.interactiveRequest)]))
      .read).isSome = true := by
    decide +kernel
  obtain ⟨⟨s, buf⟩, hp⟩ := Option.isSome_iff_exists.mp hsome
  exact ⟨(s, buf), hp, answersOnce_iff Concrete.serverConfig Concrete.prompting
    Concrete.clientConfig.clientId Concrete.world Concrete.server (Concrete.runStream_eq _) _ .read
    s buf hp⟩

/-- A handler that calls keyboard-interactive unsupported: the request can be
read, and the server panics. -/
theorem interactive_panics :
    letI := Concrete.deps
    let l := Concrete.server.run (driver Concrete.unsupporting)
      (Concrete.authenticating ++ [.arrive (Concrete.sealed Concrete.interactiveRequest)])
    runStream Concrete.serverConfig Concrete.unsupporting Concrete.clientConfig.clientId
      Concrete.world = .ok Concrete.server ∧
    ((Loop.given (driver Concrete.unsupporting) l .read).map fun p =>
      (p.1.dialogue.isSome, (readInquiry none p.2).toOption.isSome,
        match reply Concrete.unsupporting p.2 p.1 with
        | .ok .. => none
        | .error e _ => some e)) = some (true, true, some Fault.panic) :=
  ⟨Concrete.runStream_eq _, by decide +kernel⟩

/-- A signed request on a fresh session. -/
theorem succeeds_iff_fresh :
    letI := Concrete.deps
    ∃ s d req, s.dialogue = some d ∧
      Entitled (Concrete.accepting [1]) s (Concrete.publickeyRequest [1] true) req ∧
      (Succeeds (Concrete.accepting [1]) s (Concrete.publickeyRequest [1] true) ↔
        d.authUser = [] ∨ d.vouches req) := by
  let _ := Concrete.deps
  have hreq : readSignedRequest (Concrete.publickeyRequest [1] true) =
      .ok ⟨ascii "root", .ed25519 (Concrete.digest [1]),
        (Concrete.publickeyRequest [1] true).take 61, []⟩ := by
    rfl
  have hdialogue : (Concrete.serverSession (.waitingAuthRequest ⟨.all, false, none, 0⟩)).dialogue =
      some ⟨(Concrete.serverSession (.waitingAuthRequest ⟨.all, false, none, 0⟩)).common.authUser,
        ⟨.all, false, none, 0⟩⟩ := by
    simp only [Session.dialogue, Session.state, Concrete.serverSession, Concrete.encrypted,
      Option.map_some]
  have hentitled : Entitled (Concrete.accepting [1])
      (Concrete.serverSession (.waitingAuthRequest ⟨.all, false, none, 0⟩))
      (Concrete.publickeyRequest [1] true) _ :=
    ⟨by decide +kernel, by decide +kernel, hreq, fun _ _ => rfl, fun _ _ => ⟨rfl, rfl⟩⟩
  exact ⟨_, _, _, hdialogue, hentitled, succeeds_iff hdialogue hentitled⟩

/-- A rejected keyboard-interactive request leaves its user on record: a valid
signed request of the same user, with a key that the handler accepts, is rejected
after it. On its own it succeeds. -/
theorem entitled_rejected :
    letI := Concrete.deps
    let run := fun events => Concrete.server.run (driver (Concrete.accepting [1]))
      (Concrete.authenticating ++ events)
    let request := [.arrive (Concrete.sealed Concrete.interactiveRequest), .read]
    let signed := [.arrive (Concrete.sealed (Concrete.publickeyRequest [1] true)), .read]
    runStream Concrete.serverConfig (Concrete.accepting [1]) Concrete.clientConfig.clientId
      Concrete.world = .ok Concrete.server ∧
    (readSignedRequest (Concrete.publickeyRequest [1] true)).toOption.map
      (fun req => (req.user, req.pubkey)) =
        some (ascii "root", .ed25519 (Concrete.digest [1])) ∧
    (∀ tick t, (Concrete.accepting [1] tick
      (.authPublickey (ascii "root") (.ed25519 (Concrete.digest [1]))) t).accepts) ∧
    (run signed).session.emitted.getLast? = some [msg.USERAUTH_SUCCESS] ∧
    ((run (request ++ signed)).session.emitted.getLast?.map (·.head?)) =
      some (some msg.USERAUTH_FAILURE) ∧
    (run (request ++ signed)).session.callbacks.map (·.1) =
      [.authKeyboardInteractive (ascii "root") [] none] :=
  ⟨Concrete.runStream_eq _, by decide +kernel, fun _ _ => ⟨rfl, rfl⟩, by decide +kernel⟩

end Thrussh.Server
