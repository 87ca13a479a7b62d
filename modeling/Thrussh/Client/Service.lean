import Thrussh.Concrete
import Thrussh.Keeps
import Thrussh.Roles

/-!
# The client's request to authenticate

The request is written when the service has been accepted and the
application has asked for it, by whichever of the two comes last. Only the
program that serves SERVICE_ACCEPT also moves the session on: a client whose
application asks late goes on waiting for the service.
-/

namespace Thrussh.Client

open Deps Lib

/-- What a run of the client has to do with its authentication. -/
inductive Happening where
  /-- The application asks for it. -/
  | asked (user : Bytes) (method : Method)
  /-- The server accepts the service. -/
  | accepted
  /-- A packet is served in the dialogue. -/
  | answered
  deriving DecidableEq

/-- Whether a packet accepts the service. -/
def acceptsService (buf : Bytes) : Bool :=
  buf.head? = some msg.SERVICE_ACCEPT &&
    match (reader buf 1).readString with
    | .ok (service, _) => service = ascii "ssh-userauth"
    | .error _ => false

/-- What a session knows of its authentication. -/
structure Asking where
  /-- The stage, once the session is encrypted. -/
  state : Option EncryptedState
  /-- The user. -/
  user : Bytes
  /-- The method. -/
  method : Option Method
  /-- The requests ever queued. -/
  requests : List Bytes
  deriving DecidableEq

section
variable [Deps]

/-- What is left to do when some of the two have happened. -/
def Asking.Stands (a : Asking) : List Happening → Prop
  | [] => (a.state = none ∨ ∃ sent, a.state = some (.waitingServiceRequest sent false)) ∧
      a.method = none ∧ a.requests = []
  | [.asked user method] =>
      (a.state = none ∨ ∃ sent, a.state = some (.waitingServiceRequest sent false)) ∧
      a.user = user ∧ a.method = some method ∧ a.requests = []
  | [.accepted] => (∃ sent, a.state = some (.waitingServiceRequest sent true)) ∧
      a.method = none ∧ a.requests = []
  | [.asked user method, .accepted] => (∃ auth, a.state = some (.waitingAuthRequest auth)) ∧
      a.requests = [authRequestPacket user method]
  | [.accepted, .asked user method] =>
      (∃ sent, a.state = some (.waitingServiceRequest sent true)) ∧
      a.requests = [authRequestPacket user method]
  | _ => True

/-- What a session knows of its authentication. -/
def asking (s : CommonSession Config) : Asking :=
  ⟨s.encrypted.map (·.state), s.authUser, s.authMethod,
    s.emitted.filter fun b => b.head? = some msg.USERAUTH_REQUEST⟩

/-- What an act has to do with the authentication. -/
def noted (h : List Happening) : Act Session Msg → List Happening
  | .message _ (some (.authenticate user method)) => h ++ [.asked user method]
  | .message _ _ => h
  | .reply s buf =>
    if s.common.InExchange buf then h
    else match (asking s.common).state with
      | some (.waitingServiceRequest _ _) => if acceptsService buf then h ++ [.accepted] else h
      | some (.waitingAuthRequest _) => h ++ [.answered]
      | _ => h

section
variable {s t : CommonSession Config}

theorem asking_of_standing (hstanding : t.standing = s.standing)
    (huser : t.authUser = s.authUser) (hmethod : t.authMethod = s.authMethod) :
    asking t = asking s := by
  have hemitted : t.emitted = s.emitted := by
    unfold CommonSession.emitted
    rw [hstanding]
  unfold asking
  rw [state_of_standing hstanding, huser, hmethod, hemitted]

/-- A flush leaves what a session knows of its authentication. -/
theorem flush_asking (h : FlushStep s t) : asking t = asking s :=
  asking_of_standing h.standing_eq h.authUser_eq h.authMethod_eq

omit [Deps] in
/-- No packet of the connection protocol is a request to authenticate. -/
theorem filter_connection {bodies : List Bytes} (h : ∀ b ∈ bodies, ConnectionPacket b) :
    bodies.filter (fun b => b.head? = some msg.USERAUTH_REQUEST) = [] := by
  refine List.filter_eq_nil_iff.mpr fun b hb hhead => ?_
  obtain ⟨m, hm, hconnection⟩ := h b hb
  rw [Option.mem_def.mp hm] at hhead
  obtain rfl : m = msg.USERAUTH_REQUEST := by simpa using hhead
  exact absurd hconnection (by decide)

/-- A quiet step of the connection protocol leaves it. -/
theorem quiet_asking (h : Quiet ConnectionPacket s t) : asking t = asking s := by
  obtain ⟨bodies, hbodies, hemitted⟩ := (Busy.quiet h).emits
  unfold asking
  rw [h.state_eq, hemitted, List.filter_append, filter_connection hbodies, List.append_nil, h.same]

/-- A packet of a key exchange leaves it, or starts the session. -/
theorem exchanged_asking {buf : Bytes} (h : Exchanged s buf t) : asking t = asking s ∨
    s.encrypted = none ∧
      asking t = { asking s with state := some (.waitingServiceRequest true false) } := by
  cases h with
  | skip h => exact .inl rfl
  | answer hk hhead hread =>
    obtain ⟨hstanding, huser, hmethod⟩ := setExchanging_standing _ _
    exact .inl (asking_of_standing hstanding huser hmethod)
  | guess hk hhead hguess =>
    obtain ⟨hstanding, huser, hmethod⟩ := setExchanging_standing _ _
    exact .inl (asking_of_standing hstanding huser hmethod)
  | finish hk hguess hhead hchecks =>
    obtain ⟨hstanding, huser, hmethod⟩ := setExchanging_standing _ _
    exact .inl (asking_of_standing hstanding huser hmethod)
  | first henc hk hhead =>
    refine .inr ⟨henc, ?_⟩
    unfold asking
    rw [emitted_none henc]
    rfl
  | install henc hrekey hhead =>
    refine .inl (asking_of_standing ?_ rfl rfl)
    simp only [CommonSession.newkeys, CommonSession.standing, henc, Option.map_some]
    rfl
  | drop henc hrekey hphase hhead =>
    refine .inl (asking_of_standing ?_ rfl rfl)
    simp only [CommonSession.standing, henc, Option.map_some]
    rfl

end

/-- What serving a packet of a key exchange makes of it. -/
def Asks (s t : Session) : Prop := asking t.common = asking s.common ∨
  s.common.encrypted = none ∧ asking t.common =
    { asking s.common with state := some (.waitingServiceRequest true false) }

/-- A flush of the session leaves it. -/
theorem onCommon_flush_asking (s : Session) :
    Ends (onCommon flush) s (fun _ t => asking t.common = asking s.common)
      fun t => asking t.common = asking s.common := by
  have hflush := flush_final s.common
  unfold Ends
  simp only [onCommon, zoom]
  cases hresult : flush s.common with
  | ok u t =>
    rw [hresult] at hflush
    exact flush_asking hflush
  | error e t =>
    rw [hresult] at hflush
    exact flush_asking hflush

theorem reply_asks (app : Application) {s : Session} (hs : s.common.Sound) {buf : Bytes}
    (hin : s.common.InExchange buf) :
    Ends (reply app buf) s (fun _ t => Asks s t) (Asks s) := by
  rcases reply_replied app hs hin with ⟨u, hexchanged, hreply | hreply⟩ |
    ⟨e, u, packets, hreply, hseals⟩
  · unfold Ends
    rw [hreply]
    exact exchanged_asking hexchanged
  · have hflush := onCommon_flush_asking u
    unfold Ends at hflush ⊢
    rw [hreply]
    have hasks : ∀ t : Session, asking t.common = asking u.common → Asks s t := fun t ht => by
      unfold Asks
      rw [ht]
      exact exchanged_asking hexchanged
    cases hresult : onCommon flush u with
    | ok a v =>
      rw [hresult] at hflush
      exact hasks v hflush
    | error e v =>
      rw [hresult] at hflush
      exact hasks v hflush
  · unfold Ends
    rw [hreply]
    exact .inl (asking_of_standing hseals.standing_eq (by rw [hseals.same]) (by rw [hseals.same]))

/-- What the acceptance of the service makes of it. -/
def Asking.accept (a : Asking) (sent : Bool) : Asking :=
  match a.method with
  | none => { a with state := some (.waitingServiceRequest sent true) }
  | some method => { a with
      state := some (.waitingAuthRequest ⟨.all, false, none, 0⟩)
      requests := a.requests ++ [authRequestPacket a.user method] }

/-- Every request is one. -/
theorem head_authRequestPacket (user : Bytes) (method : Method) :
    (authRequestPacket user method).head? = some msg.USERAUTH_REQUEST := by
  cases method <;> rfl

/-- Queueing a request. -/
theorem filter_request (emitted : List Bytes) (user : Bytes) (method : Method) :
    (emitted ++ [authRequestPacket user method]).filter
        (fun b => b.head? = some msg.USERAUTH_REQUEST) =
      emitted.filter (fun b => b.head? = some msg.USERAUTH_REQUEST) ++
        [authRequestPacket user method] := by
  rw [List.filter_append, List.filter_singleton, head_authRequestPacket]
  simp

section
variable {s : Session} {enc : Encrypted} {sent accepted : Bool}

/-- The acceptance of the service is served; any other packet is not. -/
theorem clientReadServiceAccept_ends (henc : s.common.encrypted = some enc)
    (hstate : enc.state = .waitingServiceRequest sent accepted) (buf : Bytes) :
    Ends (clientReadServiceAccept buf) s
      (fun _ t => asking t.common =
        if acceptsService buf then (asking s.common).accept sent else asking s.common)
      fun t => acceptsService buf = false ∧ t = s := by
  unfold clientReadServiceAccept acceptsService
  by_cases hhead : buf.head? = some msg.SERVICE_ACCEPT
  · rw [if_pos hhead]
    cases hservice : (reader buf 1).readString with
    | error e =>
      unfold Ends
      simp only [run_bind, run_lift_error, Bool.and_false, true_and]
    | ok res =>
      obtain ⟨service, r⟩ := res
      unfold Ends
      simp only [run_bind, run_lift_ok]
      by_cases hname : service = ascii "ssh-userauth"
      · simp only [if_pos hname, run_bind, modifyEnc, run_modify, run_get,
          CommonSession.modifyEnc, henc, hstate, Option.map_some]
        cases hmethod : s.common.authMethod with
        | none =>
          simp only [hhead, hname, decide_true, Bool.and_self, if_true]
          unfold Asking.accept asking
          rw [hmethod, emitted_some henc]
          rfl
        | some method =>
          simp only [run_bind, push, modifyEnc, run_modify, CommonSession.modifyEnc,
            Option.map_some, hhead, hname, decide_true, Bool.and_self, if_true]
          unfold Asking.accept asking
          rw [hmethod, emitted_some henc]
          dsimp only
          rw [← filter_request]
          rfl
      · simp only [hname, decide_false, Bool.and_false, Bool.false_eq_true, if_false]
        exact rfl
  · rw [if_neg hhead]
    exact ⟨by simp [hhead], rfl⟩

/-- What asking for authentication makes of it, while the service is awaited. -/
theorem writeAuthRequestIfNeeded_ends (henc : s.common.encrypted = some enc)
    (hstate : enc.state = .waitingServiceRequest sent accepted) (user : Bytes) (method : Method) :
    Ends (writeAuthRequestIfNeeded user method) s
      (fun _ t => asking t.common = ⟨some (.waitingServiceRequest true accepted), user, some method,
        (asking s.common).requests ++
          if accepted then [authRequestPacket user method] else []⟩)
      fun _ => False := by
  have hservice : serviceRequest.length < 2 ^ 32 - 17 := by decide
  unfold writeAuthRequestIfNeeded requestService Ends
  simp only [run_bind, run_get, henc, hstate]
  cases sent with
  | false =>
    simp only [run_bind, sealPacket_ok .service hservice, modifyEnc, run_modify,
      CommonSession.modifyEnc, henc, Option.map_some, EncryptedState.isWaiting]
    cases accepted with
    | false =>
      unfold asking
      rw [emitted_some henc]
      simp only [Bool.false_eq_true, if_false, List.append_nil]
      rfl
    | true =>
      unfold asking
      rw [emitted_some henc]
      simp only [push, modifyEnc, CommonSession.modifyEnc, if_true]
      rw [← filter_request]
      rfl
  | true =>
    simp only [run_pure, henc, hstate, EncryptedState.isWaiting]
    cases accepted with
    | false =>
      unfold asking
      rw [emitted_some henc]
      simp only [run_modify, henc, hstate, Bool.false_eq_true, if_false, List.append_nil,
        Option.map_some]
      rfl
    | true =>
      unfold asking
      rw [emitted_some henc]
      simp only [push, modifyEnc, run_bind, run_modify, CommonSession.modifyEnc, henc,
        Option.map_some, if_true]
      rw [← filter_request]
      simp only [Encrypted.push, hstate]
      rfl

/-- Asking before the session is encrypted only notes the request. -/
theorem writeAuthRequestIfNeeded_none (henc : s.common.encrypted = none) (user : Bytes)
    (method : Method) :
    Ends (writeAuthRequestIfNeeded user method) s
      (fun _ t => asking t.common = ⟨none, user, some method, []⟩) fun _ => False := by
  unfold writeAuthRequestIfNeeded requestService Ends
  simp only [run_bind, run_get, henc, run_pure, run_modify]
  unfold asking
  simp only [Option.map_none]
  rw [emitted_none (by exact rfl)]
  rfl

end

/-- What a session stands at depends only on what it knows. -/
theorem asking_inflate (s : CommonSession Config) {enc : Encrypted} (decompress : Decompress)
    (henc : s.encrypted = some enc) :
    asking { s with encrypted := some { enc with decompress := decompress } } = asking s := by
  refine asking_of_standing ?_ rfl rfl
  simp only [CommonSession.standing, henc, Option.map_some]
  rfl

/-- Settling leaves a session that has not been authenticated just now. -/
theorem settle_asking {s : Session} (h : (asking s.common).state ≠ some .initCompression) :
    asking (settle s).common = asking s.common := by
  refine asking_of_standing ?_ rfl rfl
  unfold asking at h
  cases henc : s.common.encrypted with
  | none => simp only [settle, CommonSession.standing, CommonSession.modifyEnc, henc]; rfl
  | some enc =>
    rw [henc, Option.map_some] at h
    simp only [settle, CommonSession.standing, CommonSession.modifyEnc, henc, Option.map_some]
    split
    · rename_i hstate
      exact absurd (congrArg some hstate) h
    · rfl

section
variable {a : Asking} {h : List Happening}

/-- The first exchange starts the session. -/
theorem Asking.Stands.start (hstands : a.Stands h) (hstate : a.state = none) :
    Asking.Stands { a with state := some (.waitingServiceRequest true false) } h := by
  unfold Asking.Stands at hstands ⊢
  split at hstands
  · exact ⟨.inr ⟨true, rfl⟩, hstands.2⟩
  · exact ⟨.inr ⟨true, rfl⟩, hstands.2⟩
  · simp [hstate] at hstands
  · simp [hstate] at hstands
  · simp [hstate] at hstands
  · exact trivial

/-- Nothing is left to do once something else has happened. -/
theorem Asking.stands_other (hempty : h ≠ []) (hasked : ∀ user method, h ≠ [.asked user method])
    (haccepted : h ≠ [.accepted]) (hearly : ∀ user method, h ≠ [.asked user method, .accepted])
    (hlate : ∀ user method, h ≠ [.accepted, .asked user method]) : a.Stands h := by
  unfold Asking.Stands
  split
  · exact absurd rfl hempty
  · exact absurd rfl (hasked _ _)
  · exact absurd rfl haccepted
  · exact absurd rfl (hearly _ _)
  · exact absurd rfl (hlate _ _)
  · exact trivial

/-- Nothing is left to do once more has happened than the two. -/
theorem Asking.stands_append (x : Happening) (hempty : h ≠ [])
    (hasked : ∀ user method, h ≠ [.asked user method]) (haccepted : h ≠ [.accepted]) :
    a.Stands (h ++ [x]) := by
  have hsplit : ∀ l z, h ++ [x] = l ++ [z] → h = l := fun l z heq =>
    (List.append_inj' heq rfl).1
  refine Asking.stands_other (by simp) (fun user method heq => ?_) (fun heq => ?_)
    (fun user method heq => ?_) fun user method heq => ?_
  · exact hempty (hsplit [] _ heq)
  · exact hempty (hsplit [] _ heq)
  · exact hasked _ _ (hsplit [_] _ heq)
  · exact haccepted (hsplit [_] _ heq)

/-- The service is accepted. -/
theorem Asking.Stands.accept (hstands : a.Stands h) (sent : Bool) :
    (a.accept sent).Stands (h ++ [.accepted]) := by
  unfold Asking.Stands at hstands
  split at hstands
  · obtain ⟨-, hmethod, hrequests⟩ := hstands
    simp only [Asking.accept, hmethod, List.nil_append, Asking.Stands]
    exact ⟨⟨sent, rfl⟩, trivial, hrequests⟩
  · obtain ⟨-, huser, hmethod, hrequests⟩ := hstands
    simp only [Asking.accept, hmethod, List.cons_append, List.nil_append, Asking.Stands, hrequests,
      huser]
    exact ⟨⟨_, rfl⟩, trivial⟩
  · exact trivial
  · exact trivial
  · exact trivial
  · exact Asking.stands_append _ ‹_› ‹_› ‹_›

/-- The application asks while the service is awaited. -/
theorem Asking.Stands.ask {sent accepted : Bool} (hstands : a.Stands h)
    (hstate : a.state = some (.waitingServiceRequest sent accepted)) (user : Bytes)
    (method : Method) :
    Asking.Stands ⟨some (.waitingServiceRequest true accepted), user, some method,
      a.requests ++ if accepted then [authRequestPacket user method] else []⟩
      (h ++ [.asked user method]) := by
  unfold Asking.Stands at hstands
  split at hstands
  · obtain ⟨hnone | ⟨sent', hsome⟩, -, hrequests⟩ := hstands
    · rw [hnone] at hstate
      cases hstate
    · rw [hsome] at hstate
      cases hstate
      exact ⟨.inr ⟨true, rfl⟩, rfl, rfl, by simp [hrequests]⟩
  · exact trivial
  · obtain ⟨⟨sent', hsome⟩, -, hrequests⟩ := hstands
    rw [hsome] at hstate
    cases hstate
    exact ⟨⟨true, rfl⟩, by simp [hrequests]⟩
  · exact trivial
  · exact trivial
  · exact Asking.stands_append _ ‹_› ‹_› ‹_›

/-- The application asks before the session is encrypted. -/
theorem Asking.Stands.ask_none (hstands : a.Stands h) (hstate : a.state = none) (user : Bytes)
    (method : Method) : Asking.Stands ⟨none, user, some method, []⟩ (h ++ [.asked user method]) := by
  unfold Asking.Stands at hstands
  split at hstands
  · exact ⟨.inl rfl, rfl, rfl, rfl⟩
  · exact trivial
  · simp [hstate] at hstands
  · simp [hstate] at hstands
  · simp [hstate] at hstands
  · exact Asking.stands_append _ ‹_› ‹_› ‹_›

/-- Nothing is left to do once the dialogue goes on. -/
theorem Asking.Stands.later (hstands : a.Stands h) (hnone : a.state ≠ none)
    (hwaiting : ∀ sent accepted, a.state ≠ some (.waitingServiceRequest sent accepted))
    (a' : Asking) (x : Happening) : a'.Stands (h ++ [x]) := by
  unfold Asking.Stands at hstands
  split at hstands
  · exact absurd hstands.1 (by simp [hnone, hwaiting])
  · exact absurd hstands.1 (by simp [hnone, hwaiting])
  · obtain ⟨⟨sent, hsome⟩, -⟩ := hstands
    exact absurd hsome (hwaiting sent true)
  · exact trivial
  · exact trivial
  · exact Asking.stands_append _ ‹_› ‹_› ‹_›

/-- Nothing is left to do once the dialogue is over. -/
theorem Asking.Stands.over (hstands : a.Stands h)
    (hstate : a.state = some .initCompression ∨ a.state = some .authenticated) (a' : Asking) :
    a'.Stands h := by
  unfold Asking.Stands at hstands
  split at hstands
  · rcases hstate with hstate | hstate <;> simp [hstate] at hstands
  · rcases hstate with hstate | hstate <;> simp [hstate] at hstands
  · rcases hstate with hstate | hstate <;> simp [hstate] at hstands
  · rcases hstate with hstate | hstate <;> simp [hstate] at hstands
  · rcases hstate with hstate | hstate <;> simp [hstate] at hstands
  · exact Asking.stands_other ‹_› ‹_› ‹_› ‹_› ‹_›

end

section
variable (app : Application) {s : Session} {h : List Happening}

/-- A packet leaves what is left to do. -/
theorem reply_stands (hs : s.common.Sound) (hstands : (asking s.common).Stands h) (buf : Bytes) :
    Ends (reply app buf) s (fun _ t => (asking t.common).Stands (noted h (.reply s buf)))
      fun t => (asking t.common).Stands (noted h (.reply s buf)) := by
  by_cases hin : s.common.InExchange buf
  · have hnoted : noted h (.reply s buf) = h := by simp only [noted, if_pos hin]
    have hkeeps : ∀ t, Asks s t → (asking t.common).Stands h := by
      rintro t (hsame | ⟨hnone, hstarted⟩)
      · rw [hsame]
        exact hstands
      · rw [hstarted]
        refine hstands.start ?_
        simp only [asking, hnone, Option.map_none]
    rw [hnoted]
    exact (reply_asks app hs hin).mono (fun _ => hkeeps) hkeeps
  · refine .congr (reply_state app hs hin) ?_
    cases henc : s.common.encrypted with
    | none => exact absurd (Or.inl henc) hin
    | some enc =>
      have hstate : (asking s.common).state = some enc.state := by
        simp only [asking, henc, Option.map_some]
      simp only [noted, if_neg hin, hstate]
      cases hstage : enc.state with
      | waitingServiceRequest sent accepted =>
        refine .congr (y := clientReadServiceAccept buf)
          (by simp only [clientReadState, run_bind, run_get, henc, hstage]) ?_
        refine (clientReadServiceAccept_ends henc hstage buf).mono (fun _ t ht => ?_)
          fun t ⟨hnot, ht⟩ => ?_
        · rw [ht]
          by_cases haccepts : acceptsService buf = true
          · simp only [if_pos haccepts]
            exact hstands.accept sent
          · simp only [if_neg haccepts]
            exact hstands
        · rw [ht]
          simp only [hnot, Bool.false_eq_true, if_false]
          exact hstands
      | waitingAuthRequest auth =>
        rw [hstage] at hstate
        have hlater : ∀ t : Session, (asking t.common).Stands (h ++ [.answered]) := fun t =>
          hstands.later (by simp [hstate]) (by simp [hstate]) _ _
        exact .of_forall (fun _ => hlater) hlater
      | initCompression =>
        rw [hstage] at hstate
        exact .of_forall (fun _ _ => hstands.over (.inl hstate) _) fun _ =>
          hstands.over (.inl hstate) _
      | authenticated =>
        rw [hstage] at hstate
        exact .of_forall (fun _ _ => hstands.over (.inr hstate) _) fun _ =>
          hstands.over (.inr hstate) _

/-- A local message leaves what is left to do. -/
theorem message_stands (hstands : (asking s.common).Stands h) (m : Option Msg) :
    Ends (message m) s (fun _ t => (asking t.common).Stands (noted h (.message s m)))
      fun t => (asking t.common).Stands (noted h (.message s m)) := by
  cases m with
  | none => exact hstands
  | some m =>
    by_cases hm : ∃ user method, m = .authenticate user method
    · obtain ⟨user, method, rfl⟩ := hm
      have hasked : Ends (writeAuthRequestIfNeeded user method) s
          (fun _ t => (asking t.common).Stands (h ++ [.asked user method]))
          fun t => (asking t.common).Stands (h ++ [.asked user method]) := by
        cases henc : s.common.encrypted with
        | none =>
          have hstate : (asking s.common).state = none := by
            simp only [asking, henc, Option.map_none]
          refine (writeAuthRequestIfNeeded_none henc user method).mono (fun _ t ht => ?_)
            fun _ => False.elim
          rw [ht]
          exact hstands.ask_none hstate user method
        | some enc =>
          have hstate : (asking s.common).state = some enc.state := by
            simp only [asking, henc, Option.map_some]
          by_cases hwaiting : ∃ sent accepted, enc.state = .waitingServiceRequest sent accepted
          · obtain ⟨sent, accepted, hstage⟩ := hwaiting
            rw [hstage] at hstate
            refine (writeAuthRequestIfNeeded_ends henc hstage user method).mono (fun _ t ht => ?_)
              fun _ => False.elim
            rw [ht]
            exact hstands.ask hstate user method
          · have hlater : ∀ t : Session,
                (asking t.common).Stands (h ++ [.asked user method]) := fun t =>
              hstands.later (by simp [hstate]) (fun sent accepted heq =>
                hwaiting ⟨sent, accepted, Option.some.inj (hstate.symm.trans heq)⟩) _ _
            exact .of_forall (fun _ => hlater) hlater
      exact hasked.bind fun _ _ ht => ht
    · have hnoted : noted h (.message s (some m)) = h := by
        cases m with
        | authenticate user method => exact absurd ⟨user, method, rfl⟩ hm
        | _ => rfl
      have hquiet : Moves (Over (Quiet ConnectionPacket)) (serveMessage m) :=
        serveMessage_quiet (fun _ => id) m fun user method heq => hm ⟨user, method, heq⟩
      rw [hnoted]
      refine Ends.bind (Ends.of_moves (p := fun t => (asking t.common).Stands h) hquiet
        (fun t u hstep ht => ?_) hstands) fun _ _ ht => ht
      rw [quiet_asking hstep]
      exact ht

/-- Every program of the client leaves what is left to do. -/
theorem driver_follows : (driver app).Follows noted
    (fun h s => s.common.Sound ∧ (asking s.common).Stands h)
    fun h s => (asking s.common).Stands h := by
  have hkeeps := (driver_behaves (P := fun _ => True) (fun _ _ => trivial) app
    fun _ _ _ _ => trivial).keeps_sound
  refine ⟨fun h s hs => hs.2, fun h s enc decompress henc hs => ?_, fun h s buf hs => ?_,
    fun h s m _ hs _ _ => ?_, fun h s hs => ?_, fun h s hs => ?_⟩
  · refine ⟨hkeeps.inflate s enc decompress henc hs.1, ?_⟩
    change (asking { s.common with
      encrypted := some { enc with decompress := decompress } }).Stands h
    rw [asking_inflate s.common decompress henc]
    exact hs.2
  · exact ((hkeeps.reply s buf hs.1).and (reply_stands app hs.1 hs.2 buf)).mono
      (fun _ _ ht => ht) fun _ ht => ht.2
  · exact ((hkeeps.message s m hs.1).and (message_stands hs.2 m)).mono
      (fun _ _ ht => ht) fun _ ht => ht.2
  · refine ((hkeeps.flush s hs.1).and (onCommon_flush_asking s)).mono (fun _ t ht => ⟨ht.1, ?_⟩)
      fun t ht => ?_
    · change (asking t.common).Stands h
      rw [ht.2]
      exact hs.2
    · rw [ht.2]
      exact hs.2
  · refine ⟨hkeeps.settle s hs.1, ?_⟩
    by_cases hinit : (asking s.common).state = some .initCompression
    · exact hs.2.over (.inl hinit) _
    · change (asking (settle s).common).Stands h
      rw [settle_asking hinit]
      exact hs.2

omit [Deps] in
/-- The methods that a USERAUTH_FAILURE says can go on, as far as the client knows them. -/
def offered (buf : Bytes) : MethodSet :=
  match (reader buf 1).readString with
  | .ok (methods, _) => (methods.splitOn 44).foldl MethodSet.insertName .empty
  | .error _ => .empty

/-- What is reported of the server's answer. -/
def report (buf : Bytes) : Reply :=
  if buf.head? = some msg.USERAUTH_SUCCESS then .authSuccess else .authFailure

/-- Whether a session reports the server's answer to its handle, and goes on without an error. -/
def Reports (app : Application) (s : Session) (buf : Bytes) : Prop :=
  ∃ t, reply app buf s = .ok () t ∧ t.replies = s.replies ++ [report buf]

/-- A session in the dialogue reports an answer, if a failure leaves it a method. -/
theorem reports_of_waiting (hs : s.common.Sound) {auth : AuthRequest}
    (hstate : (asking s.common).state = some (.waitingAuthRequest auth)) {buf : Bytes}
    (hin : ¬ s.common.InExchange buf) (hlistening : ∀ t, app.listening s.common.tick t = true)
    (hanswer : buf.head? = some msg.USERAUTH_SUCCESS ∨ buf.head? = some msg.USERAUTH_FAILURE) :
    Reports app s buf ↔ (buf.head? = some msg.USERAUTH_FAILURE → offered buf ≠ .empty) := by
  cases henc : s.common.encrypted with
  | none =>
    simp only [asking, henc, Option.map_none] at hstate
    cases hstate
  | some enc =>
    have hstage : enc.state = .waitingAuthRequest auth := by
      simp only [asking, henc, Option.map_some] at hstate
      exact Option.some.inj hstate
    unfold Reports
    rw [reply_state app hs hin]
    simp only [clientReadState, run_bind, run_get, henc, hstage, clientReadWaitingAuth]
    rcases hanswer with hhead | hhead
    · have hfailure : ¬ buf.head? = some msg.USERAUTH_FAILURE := by rw [hhead]; decide
      simp only [if_pos hhead, run_bind, sendReply, hlistening, if_true, modifyEnc, run_modify]
      refine iff_of_true ⟨_, rfl, ?_⟩ fun hhead => absurd hhead hfailure
      rw [report, if_pos hhead]
    · have hsuccess : ¬ buf.head? = some msg.USERAUTH_SUCCESS := by rw [hhead]; decide
      have hbanner : ¬ buf.head? = some msg.USERAUTH_BANNER := by rw [hhead]; decide
      simp only [if_neg hsuccess, if_neg hbanner, if_pos hhead, clientReadAuthFailure, run_bind]
      cases hmethods : (reader buf 1).readString with
      | error e =>
        have hnone : offered buf = .empty := by rw [offered, hmethods]
        refine iff_of_false ?_ fun hsome => hsome hhead hnone
        rintro ⟨t, hrun, -⟩
        simp only [run_lift_error] at hrun
        cases hrun
      | ok res =>
        obtain ⟨methods, r⟩ := res
        have hoffered : offered buf =
            (methods.splitOn 44).foldl MethodSet.insertName .empty := by
          rw [offered, hmethods]
        simp only [run_lift_ok, modifyEnc, setAuthMethod, run_modify, sendReply,
          CommonSession.modifyEnc, hhead, forall_const, ← hoffered]
        rw [if_pos (hlistening _)]
        by_cases hempty : offered buf = .empty
        · simp only [if_pos hempty]
          refine iff_of_false ?_ fun hsome => hsome hempty
          rintro ⟨t, hrun, -⟩
          cases hrun
        · simp only [if_neg hempty]
          refine iff_of_true ⟨_, rfl, ?_⟩ hempty
          rw [report, if_neg hsuccess]

/-- A client that has queued its one request, waits for the answer, and
reports the one that follows. -/
structure Ready (app : Application) (user : Bytes) (method : Method) (l : Loop Session)
    (buf : Bytes) : Prop where
  /-- It waits for the answer. -/
  waiting : ∃ auth, (asking l.session.common).state = some (.waitingAuthRequest auth)
  /-- It has queued one request. -/
  request : (asking l.session.common).requests = [authRequestPacket user method]
  /-- It reports the answer. -/
  reports : l.stage = .running → Reports app l.session buf

/-- In every run of the client in which the application has asked once and the
server has accepted the service once, and for every answer that follows, the
client is ready if and only if the application was first and the answer is no
failure that leaves the client no method. -/
theorem authenticate_ready_iff (config : Config) (app : Application) (sshid : Bytes)
    (world : World) (l : Loop Session) (hl : connectStream config app sshid world = .ok l)
    (events : List (Event Msg)) (user : Bytes) (method : Method)
    (hboth : Loop.history (driver app) noted [] l events = [.asked user method, .accepted] ∨
      Loop.history (driver app) noted [] l events = [.accepted, .asked user method])
    (buf : Bytes)
    (hanswer : buf.head? = some msg.USERAUTH_SUCCESS ∨ buf.head? = some msg.USERAUTH_FAILURE)
    (hin : ¬ (l.run (driver app) events).session.common.InExchange buf)
    (hlistening : ∀ t, app.listening (l.run (driver app) events).session.common.tick t = true) :
    Ready app user method (l.run (driver app) events) buf ↔
      Loop.history (driver app) noted [] l events = [.asked user method, .accepted] ∧
      ((l.run (driver app) events).stage = .running →
        buf.head? = some msg.USERAUTH_FAILURE → offered buf ≠ .empty) := by
  obtain ⟨s, output, hs, rfl⟩ := connectStream_start hl
  have hstands : (asking s.common).Stands [] := by
    refine ⟨.inl ?_, hs.authMethod, ?_⟩
    · simp only [asking, hs.encrypted, Option.map_none]
    · simp only [asking, emitted_none hs.encrypted, List.filter_nil]
  have hkept := Loop.run_follows (driver_follows app)
    (Loop.start_follows (driver_follows app) ⟨hs.sound, hstands⟩ output) events
  rcases hboth with hearly | hlate
  · rw [hearly] at hkept ⊢
    have hreports : (Loop.run (driver app) (Loop.start (driver app) s output) events).stage =
        .running → _ := fun hrunning =>
      have ⟨hsound, hstate, _⟩ := hkept.running hrunning
      reports_of_waiting app hsound hstate.choose_spec hin hlistening hanswer
    constructor
    · intro hready
      exact ⟨rfl, fun hrunning => (hreports hrunning).mp (hready.reports hrunning)⟩
    · rintro ⟨-, hleft⟩
      exact ⟨hkept.ended.1, hkept.ended.2, fun hrunning =>
        (hreports hrunning).mpr (hleft hrunning)⟩
  · rw [hlate] at hkept ⊢
    refine iff_of_false (fun hready => ?_) (by simp)
    obtain ⟨auth, hwaiting⟩ := hready.waiting
    obtain ⟨⟨sent, hstate⟩, -⟩ := hkept.ended
    rw [hstate] at hwaiting
    cases hwaiting

end

end

/-- The server accepts the service. -/
def accepts {M : Type} : List (Event M) :=
  [.arrive (Concrete.sealed (msg.SERVICE_ACCEPT :: sshString (ascii "ssh-userauth"))), .read]

/-- An application that asks before the service is accepted. -/
def early : List (Event Msg) :=
  Concrete.answers ++ [.message (some (.authenticate [1] (.password [2]))) 0] ++ accepts

/-- An application that asks when the service has been accepted. -/
def late : List (Event Msg) :=
  Concrete.answers ++ accepts ++ [.message (some (.authenticate [1] (.password [2]))) 0]

/-- A failure that leaves other methods. -/
def failure (methods : Bytes) : Bytes := msg.USERAUTH_FAILURE :: sshString methods ++ [0]

/-- An application that asks early is told of a success, and of a failure that leaves it a method. -/
theorem authenticate_ready_iff_early :
    letI := Concrete.deps
    Ready Concrete.application [1] (.password [2])
      (Concrete.client.run (driver Concrete.application) early) [msg.USERAUTH_SUCCESS] ∧
    Ready Concrete.application [1] (.password [2])
      (Concrete.client.run (driver Concrete.application) early) (failure (ascii "publickey")) := by
  have hiff := @authenticate_ready_iff Concrete.deps Concrete.clientConfig Concrete.application
    Concrete.serverConfig.serverId Concrete.world Concrete.client Concrete.connectStream_eq
    early [1] (.password [2]) (.inl (by decide +kernel))
  constructor
  · refine (hiff [msg.USERAUTH_SUCCESS] (.inl rfl) (by decide +kernel) fun _ => rfl).mpr ?_
    exact ⟨by decide +kernel, fun _ hhead => by cases hhead⟩
  · refine (hiff (failure (ascii "publickey")) (.inr rfl) (by decide +kernel) fun _ => rfl).mpr ?_
    exact ⟨by decide +kernel, fun _ _ => by decide +kernel⟩

/-- An application that asks after the service is accepted: its request is
queued, the client goes on waiting for the service, and fails at the answer. -/
theorem authenticate_late_fails :
    letI := Concrete.deps
    Loop.history (driver Concrete.application) noted [] Concrete.client late =
        [.accepted, .asked [1] (.password [2])] ∧
      asking (Concrete.client.run (driver Concrete.application) late).session.common =
        ⟨some (.waitingServiceRequest true true), [1], some (.password [2]),
          [authRequestPacket [1] (.password [2])]⟩ ∧
      ¬ Ready Concrete.application [1] (.password [2])
        (Concrete.client.run (driver Concrete.application) late) [msg.USERAUTH_SUCCESS] ∧
      (Concrete.client.run (driver Concrete.application) (late ++
          [.arrive (Concrete.sealed [msg.USERAUTH_SUCCESS]), .read])).stage =
        .finished (.error (.error .inconsistent)) := by
  refine ⟨by decide +kernel, by decide +kernel, fun hready => ?_, by decide +kernel⟩
  obtain ⟨auth, hstate⟩ := @Ready.waiting Concrete.deps _ _ _ _ _ hready
  have hwaiting : letI := Concrete.deps
      (asking (Concrete.client.run (driver Concrete.application) late).session.common).state =
        some (.waitingServiceRequest true true) := by
    decide +kernel
  rw [hwaiting] at hstate
  cases hstate

end Thrussh.Client
