import Thrussh.Concrete
import Thrussh.Server.Course

/-!
# To whom a dialogue belongs

What an authentication in progress has on record was put there by the request
that was served last: a probe that the handler has accepted for the recorded
user, or a keyboard-interactive request of that user, for whom every response
is judged.
-/

namespace Thrussh.Server

open Deps Lib

section
variable [Deps]

/-- The USERAUTH_REQUEST that was served last. -/
def lastRequest (last : Option Bytes) : Act Session (UInt32 × ChannelMsg) → Option Bytes
  | .reply s buf =>
    if s.Inquired buf ∧ buf.head? = some msg.USERAUTH_REQUEST then some buf else last
  | .message _ _ => last

/-- What is in progress belongs to the recorded user, by the last request. -/
structure Bound (last : Option Bytes) (s : Session) : Prop where
  /-- A probe that was answered was the recorded user's, and the handler has
  accepted that user with that key. -/
  probe : ∀ d key algo, s.dialogue = some d → d.request.current = some (.publicKey key algo true) →
    ∃ request pubkey answer, last = some request ∧
      readRequest request = .ok (.probe d.authUser algo key pubkey) ∧
      (.authPublickey d.authUser pubkey, answer) ∈ s.callbacks ∧ answer.accepts
  /-- A keyboard-interactive dialogue was begun by the recorded user. -/
  interactive : ∀ d submethods, s.dialogue = some d →
    d.request.current = some (.keyboardInteractive submethods) →
    ∃ request, last = some request ∧
      readRequest request = .ok (.interactive d.authUser submethods)

/-- A response is judged for the user of the last request, and nothing else is asked. -/
structure Judged (handler : Handler) (last : Option Bytes) (s : Session) (buf : Bytes) : Prop where
  /-- The question of a response that can be read. -/
  asked : ∀ d submethods n r, s.dialogue = some d →
    readInquiry d.request.current buf = .ok (.response submethods n r) →
    ∃ request user answer, last = some request ∧
      readRequest request = .ok (.interactive user submethods) ∧
      (final (reply handler buf s)).callbacks =
        s.callbacks ++ [(.authKeyboardInteractive user submethods (some (r, n)), answer)]
  /-- Any other response asks nothing. -/
  silent : (∀ d submethods n r, s.dialogue = some d →
      readInquiry d.request.current buf ≠ .ok (.response submethods n r)) →
    (final (reply handler buf s)).callbacks = s.callbacks

section
variable {handler : Handler} {s t : Session} {buf : Bytes} {last : Option Bytes} {d d' : Dialogue}
  {inquiry : Inquiry}

/-- What an inquiry leaves in progress: nothing, what an accepted probe or a
keyboard-interactive request begins, or what a response finds. -/
inductive InProgress (verdict : Option Auth) (d d' : Dialogue) : Inquiry → Prop where
  /-- Nothing is in progress. -/
  | rejected {inquiry : Inquiry} (h : d'.request.current = none) : InProgress verdict d d' inquiry
  /-- A probe is accepted. -/
  | probe {user algo key : Bytes} {pubkey : PublicKey} (hverdict : verdict = some .accept)
    (h : d'.request.current = some (.publicKey key algo true)) (huser : d'.authUser = user) :
    InProgress verdict d d' (.probe user algo key pubkey)
  /-- A keyboard-interactive dialogue begins. -/
  | interactive {user submethods : Bytes}
    (h : d'.request.current = some (.keyboardInteractive submethods))
    (huser : d'.authUser = user) : InProgress verdict d d' (.interactive user submethods)
  /-- A keyboard-interactive dialogue goes on. -/
  | response {submethods : Bytes} {n : UInt32} {r : Position} (h : d' = d) :
    InProgress verdict d d' (.response submethods n r)

/-- What a dialogue that goes on has in progress. -/
theorem outcome_inProgress {id : Bytes32} {verdict : Option Auth} {packet : Bytes}
    (h : inquiry.outcome id d verdict = some (.goes packet d')) :
    InProgress verdict d d' inquiry := by
  have hreject : ∀ {d₁ : Dialogue}, d₁.reject = .goes packet d' → d'.request.current = none := by
    rintro d₁ ⟨⟩
    rfl
  cases inquiry with
  | password user secret =>
    simp only [Inquiry.outcome] at h
    split at h
    · cases h
    · exact .rejected (hreject (Option.some.inj h))
  | signed req =>
    simp only [Inquiry.outcome, Dialogue.judge, Option.some.injEq] at h
    split at h
    · cases h
    · exact .rejected (hreject h)
  | probe user algo key pubkey =>
    simp only [Inquiry.outcome] at h
    split at h
    · rename_i haccept
      cases h
      exact .probe haccept rfl rfl
    · exact .rejected (hreject (Option.some.inj h))
  | interactive user submethods =>
    obtain ⟨verdict, -, ho⟩ := Option.bind_eq_some_iff.mp h
    cases verdict with
    | accept => cases ho
    | reject => exact .rejected (hreject (Option.some.inj ho))
    | partialAccept name instructions prompts => cases ho; exact .interactive rfl rfl
    | unsupportedMethod => cases ho
  | response submethods n r =>
    obtain ⟨verdict, -, ho⟩ := Option.bind_eq_some_iff.mp h
    cases verdict with
    | accept => cases ho; exact .response rfl
    | reject => exact .rejected (hreject (Option.some.inj ho))
    | partialAccept name instructions prompts => cases ho; exact .response rfl
    | unsupportedMethod => cases ho
  | refused => exact .rejected (hreject (Option.some.inj h))

/-- What leaves the dialogue aside leaves it to its user. -/
theorem Aside.bound (h : Aside s t) (hs : Bound last s) : Bound last t := by
  obtain ⟨asked, hcallbacks, -⟩ := h.asks
  rcases h.dialogue with hsame | ⟨-, methods, hbegins⟩
  · refine ⟨fun d key algo hd hcurrent => ?_, fun d submethods hd hcurrent => ?_⟩
    · rw [hsame] at hd
      obtain ⟨request, pubkey, answer, hlast, hread, hmem, haccepts⟩ :=
        hs.probe d key algo hd hcurrent
      refine ⟨request, pubkey, answer, hlast, hread, ?_, haccepts⟩
      rw [hcallbacks]
      exact List.mem_append_left _ hmem
    · rw [hsame] at hd
      exact hs.interactive d submethods hd hcurrent
  · refine ⟨fun d key algo hd hcurrent => ?_, fun d submethods hd hcurrent => ?_⟩
    · rw [hbegins] at hd
      cases hd
      cases hcurrent
    · rw [hbegins] at hd
      cases hd
      cases hcurrent

/-- A response is read only in a keyboard-interactive dialogue, and in no USERAUTH_REQUEST. -/
theorem readInquiry_response {submethods : Bytes} {n : UInt32} {r : Position}
    (h : readInquiry d.request.current buf = .ok (.response submethods n r)) :
    buf.head? ≠ some msg.USERAUTH_REQUEST ∧
      d.request.current = some (.keyboardInteractive submethods) := by
  unfold readInquiry at h
  split at h
  · exfalso
    unfold readRequest at h
    obtain ⟨⟨user, method, r₁⟩, -, h⟩ := ok_of_bind h
    dsimp only at h
    split at h
    · obtain ⟨_, -, h⟩ := ok_of_bind h
      obtain ⟨_, -, h⟩ := ok_of_bind h
      obtain ⟨_, -, h⟩ := ok_of_bind h
      cases h
    split at h
    · obtain ⟨⟨isReal, algo, key, r₂⟩, -, h⟩ := ok_of_bind h
      dsimp only at h
      split at h
      · split at h
        · obtain ⟨_, -, h⟩ := ok_of_bind h
          cases h
        · cases h
      · cases h
      · cases h
    split at h
    · obtain ⟨_, -, h⟩ := ok_of_bind h
      obtain ⟨_, -, h⟩ := ok_of_bind h
      obtain ⟨_, -, h⟩ := ok_of_bind h
      cases h
    · cases h
  · rename_i hhead
    refine ⟨hhead, ?_⟩
    unfold readResponse at h
    split at h
    · rename_i current hcurrent
      obtain ⟨_, -, h⟩ := ok_of_bind h
      cases h
      exact hcurrent
    · cases h

/-- A probe and a keyboard-interactive request are read in a USERAUTH_REQUEST. -/
theorem readInquiry_request (h : readInquiry d.request.current buf = .ok inquiry)
    (hresponse : ∀ submethods n r, inquiry ≠ .response submethods n r)
    (hrefused : inquiry ≠ .refused) :
    buf.head? = some msg.USERAUTH_REQUEST ∧ readRequest buf = .ok inquiry := by
  unfold readInquiry at h
  split at h
  · exact ⟨‹_›, h⟩
  · exfalso
    unfold readResponse at h
    split at h
    · obtain ⟨_, -, h⟩ := ok_of_bind h
      cases h
      exact hresponse _ _ _ rfl
    · cases h
      exact hrefused rfl

/-- What an inquiry comes to belongs to its user. -/
theorem Became.bound {asked : List (Callback × Answer)} {o : Outcome} {id : Bytes32}
    {verdict : Option Auth} (ht : Became s t asked o) (hd : s.dialogue = some d)
    (hinquired : s.Inquired buf) (hread : readInquiry d.request.current buf = .ok inquiry)
    (ho : inquiry.outcome id d verdict = some o) (hs : Bound last s)
    (haccepts : verdict = some .accept → ∀ q, inquiry.question d = some q →
      ∃ answer, (q, answer) ∈ asked ∧ answer.accepts) :
    Bound (lastRequest last (.reply s buf)) t := by
  have hdialogue : ∀ d₁, t.dialogue = some d₁ → ∃ packet d',
      o = .goes packet d' ∧ d₁ = d' := by
    intro d₁ hd₁
    obtain ⟨hstate, huser⟩ := state_of_dialogue hd₁
    rw [ht.state] at hstate
    cases o with
    | ends user => cases hstate
    | goes packet d' =>
      have hrequest : d'.request = d₁.request := by
        simpa only [Outcome.state, Option.some.injEq, EncryptedState.waitingAuthRequest.injEq]
          using hstate
      have hauth : d'.authUser = d₁.authUser := by
        rw [huser, ht.authUser]
        rfl
      exact ⟨packet, d', rfl, by cases d'; cases d₁; simp_all⟩
  have hlast : buf.head? = some msg.USERAUTH_REQUEST →
      lastRequest last (.reply s buf) = some buf := by
    intro hhead
    simp only [lastRequest, if_pos (And.intro hinquired hhead)]
  constructor
  · intro d₁ key algo hd₁ hcurrent
    obtain ⟨packet, d', rfl, rfl⟩ := hdialogue d₁ hd₁
    cases outcome_inProgress ho with
    | rejected h => rw [h] at hcurrent; cases hcurrent
    | @probe user algo' key' pubkey hverdict h huser =>
      rw [h] at hcurrent
      cases hcurrent
      obtain ⟨hhead, hrequest⟩ := readInquiry_request hread (by simp) (by simp)
      obtain ⟨answer, hmem, haccept⟩ := haccepts hverdict _ rfl
      refine ⟨buf, pubkey, answer, hlast hhead, by rw [huser]; exact hrequest, ?_, haccept⟩
      rw [ht.callbacks, huser]
      exact List.mem_append_right _ hmem
    | interactive h huser => rw [h] at hcurrent; cases hcurrent
    | response h =>
      subst h
      rw [(readInquiry_response hread).2] at hcurrent
      cases hcurrent
  · intro d₁ submethods hd₁ hcurrent
    obtain ⟨packet, d', rfl, rfl⟩ := hdialogue d₁ hd₁
    cases outcome_inProgress ho with
    | rejected h => rw [h] at hcurrent; cases hcurrent
    | probe hverdict h huser => rw [h] at hcurrent; cases hcurrent
    | interactive h huser =>
      rw [h] at hcurrent
      cases hcurrent
      obtain ⟨hhead, hrequest⟩ := readInquiry_request hread (by simp) (by simp)
      exact ⟨buf, hlast hhead, by rw [huser]; exact hrequest⟩
    | response h =>
      subst h
      obtain ⟨hhead, -⟩ := readInquiry_response hread
      have hsame : lastRequest last (.reply s buf) = last := by
        simp only [lastRequest, if_neg fun hboth : s.Inquired buf ∧ _ => hhead hboth.2]
      rw [hsame]
      exact hs.interactive _ submethods hd hcurrent

/-- A packet leaves what is in progress to its user. -/
theorem reply_bound (handler : Handler) (hsound : s.common.Sound) (hs : Bound last s) :
    Ends (reply handler buf) s (fun _ t => Bound (lastRequest last (.reply s buf)) t)
      fun _ => True := by
  by_cases hinquired : s.Inquired buf
  · obtain ⟨d, hd⟩ := Option.isSome_iff_exists.mp hinquired.1
    obtain ⟨id, -, htreated⟩ := reply_treated handler hinquired hd
    unfold Ends
    cases hread : readInquiry d.request.current buf with
    | error e =>
      rw [hread] at htreated
      generalize reply handler buf s = result at htreated
      cases htreated with
      | unread ht => exact trivial
    | ok inquiry =>
      rw [hread] at htreated
      generalize reply handler buf s = result at htreated
      cases htreated with
      | untold hq ho ht =>
        exact ht.bound hd hinquired hread ho hs fun hnone => by cases hnone
      | failed hq hfail ht => exact trivial
      | stuck hq hfail ho ht => exact trivial
      | told hq hfail ho ht =>
        refine ht.bound hd hinquired hread ho hs fun hverdict q hq' => ?_
        rw [hq] at hq'
        cases hq'
        exact ⟨_, List.mem_singleton_self _, ⟨hfail, Option.some.inj hverdict⟩⟩
  · have hsame : lastRequest last (.reply s buf) = last := by
      simp only [lastRequest, if_neg fun hboth : s.Inquired buf ∧ _ => hinquired hboth.1]
    rw [hsame]
    exact (reply_aside handler hsound hinquired).mono (fun _ t ht => ht.bound hs)
      fun _ _ => trivial

/-- A response is judged for the user to whom the dialogue belongs. -/
theorem judged_of_bound (handler : Handler) (hs : Bound last s) (hinquired : s.Inquired buf)
    (hhead : buf.head? ≠ some msg.USERAUTH_REQUEST) : Judged handler last s buf := by
  obtain ⟨d, hd⟩ := Option.isSome_iff_exists.mp hinquired.1
  obtain ⟨id, -, htreated⟩ := reply_treated handler hinquired hd
  constructor
  · intro d₁ submethods n r hd₁ hread
    rw [hd] at hd₁
    cases hd₁
    obtain ⟨request, hlast, hrequest⟩ :=
      hs.interactive d submethods hd (readInquiry_response hread).2
    rw [hread] at htreated
    refine ⟨request, d.authUser, ?_⟩
    generalize reply handler buf s = result at htreated ⊢
    cases htreated with
    | untold hq ho ht => cases hq
    | failed hq hfail ht => cases hq; exact ⟨_, hlast, hrequest, ht.callbacks⟩
    | stuck hq hfail ho ht => cases hq; exact ⟨_, hlast, hrequest, ht.callbacks⟩
    | told hq hfail ho ht => cases hq; exact ⟨_, hlast, hrequest, ht.callbacks⟩
  · intro hnot
    have hread : readInquiry d.request.current buf = readResponse d.request.current buf := by
      unfold readInquiry
      rw [if_neg hhead]
    have hnone : ∀ inquiry, readInquiry d.request.current buf = .ok inquiry →
        inquiry.question d = none := by
      intro inquiry hok
      have hresponse := hok
      rw [hread] at hresponse
      unfold readResponse at hresponse
      split at hresponse
      · obtain ⟨_, -, hresponse⟩ := ok_of_bind hresponse
        cases hresponse
        exact absurd hok (hnot d _ _ _ hd)
      · cases hresponse
        rfl
    generalize hinquiry : readInquiry d.request.current buf = x at htreated hnone
    generalize reply handler buf s = result at htreated ⊢
    cases htreated with
    | unread ht => rw [final_error, ht.callbacks, List.append_nil]
    | untold hq ho ht => rw [final_ok, ht.callbacks, List.append_nil]
    | failed hq hfail ht => rw [hnone _ rfl] at hq; cases hq
    | stuck hq hfail ho ht => rw [hnone _ rfl] at hq; cases hq
    | told hq hfail ho ht => rw [hnone _ rfl] at hq; cases hq

end

/-- Every program of the server leaves what is in progress to its user. -/
theorem driver_bound (handler : Handler) : (driver handler).Follows lastRequest
    (fun last s => s.common.Sound ∧ Bound last s) fun _ _ => True := by
  have hsound := (driver_behaves (P := fun _ => True) (fun _ _ => trivial) handler).keeps_sound
  refine ⟨fun _ _ _ => trivial, fun last s enc decompress henc hs => ?_, fun last s buf hs => ?_,
    fun last s m enc hs henc hrekey => ?_, fun last s hs => ?_, fun last s hs => hs⟩
  · exact ⟨hsound.inflate s enc decompress henc hs.1,
      (inflate_aside handler decompress henc).bound hs.2⟩
  · exact ((hsound.reply s buf hs.1).and (reply_bound handler hs.1 hs.2)).mono
      (fun _ _ ht => ht) fun _ _ => trivial
  · exact ((hsound.message s m hs.1).and (message_aside m s)).mono
      (fun _ t ht => ⟨ht.1, ht.2.bound hs.2⟩) fun _ _ => trivial
  · exact ((hsound.flush s hs.1).and (flush_aside s)).mono
      (fun _ t ht => ⟨ht.1, (clearWrite_aside handler t).bound (ht.2.bound hs.2)⟩)
      fun _ _ => trivial

/-- In every state of every run of the server, what is in progress belongs to
the recorded user, by the last request, and every response that is served then
is judged for the user who began the dialogue. -/
theorem current_bound (config : Config) (handler : Handler) (sshid : Bytes) (world : World)
    (l : Loop Session) (hl : runStream config handler sshid world = .ok l)
    (events : List (Event (UInt32 × ChannelMsg))) :
    ((l.run (driver handler) events).stage = .running →
      Bound (Loop.history (driver handler) lastRequest none l events)
        (l.run (driver handler) events).session) ∧
    ∀ e, ∀ p ∈ Loop.given (driver handler) (l.run (driver handler) events) e,
      p.1.Inquired p.2 → p.2.head? ≠ some msg.USERAUTH_REQUEST →
        Judged handler (Loop.history (driver handler) lastRequest none l events) p.1 p.2 := by
  obtain ⟨s, output, hs, rfl⟩ := runStream_start hl
  have hnone : s.dialogue = none := by
    simp only [Session.dialogue, Session.state, hs.encrypted, Option.map_none]
  have hbound : Bound none s := by
    refine ⟨fun d key algo hd => ?_, fun d submethods hd => ?_⟩
    · rw [hnone] at hd; cases hd
    · rw [hnone] at hd; cases hd
  have hkept := Loop.run_follows (driver_bound handler)
    (Loop.start_follows (driver_bound handler) ⟨hs.sound, hbound⟩ output) events
  refine ⟨fun hrunning => (hkept.running hrunning).2, fun e p hp hinquired hhead => ?_⟩
  have hgiven := Loop.given_follows (driver_bound handler) hkept hp
  exact judged_of_bound handler hgiven.2 hinquired hhead

end

/-- A keyboard-interactive dialogue whose response has arrived. -/
theorem current_bound_interactive :
    letI := Concrete.deps
    let l := Concrete.server.run (driver Concrete.prompting) Concrete.interactive
    let last := Loop.history (driver Concrete.prompting) lastRequest none Concrete.server
      Concrete.interactive
    Bound last l.session ∧ ∃ p ∈ Loop.given (driver Concrete.prompting) l .read,
      Judged Concrete.prompting last p.1 p.2 := by
  let _ := Concrete.deps
  have hbound := current_bound Concrete.serverConfig Concrete.prompting
    Concrete.clientConfig.clientId Concrete.world Concrete.server (Concrete.runStream_eq _)
    Concrete.interactive
  refine ⟨hbound.1 (by decide +kernel), ?_⟩
  have hresponse : (Loop.given (driver Concrete.prompting)
      (Concrete.server.run (driver Concrete.prompting) Concrete.interactive) .read).any
        (fun p => p.1.Inquired p.2 ∧ p.2.head? ≠ some msg.USERAUTH_REQUEST) = true := by
    decide +kernel
  obtain ⟨p, hp, hinquired⟩ := (Option.any_eq_true _ _).mp hresponse
  rw [decide_eq_true_eq] at hinquired
  exact ⟨p, hp, hbound.2 .read p hp hinquired.1 hinquired.2⟩

end Thrussh.Server
