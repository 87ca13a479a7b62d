import Thrussh.Server.Publickey

/-!
# The end of the dialogue

A packet that is served queues USERAUTH_SUCCESS when it ends the dialogue,
and starts decompression then, in all methods but one: an info response that
the handler accepts is answered with USERAUTH_SUCCESS, while the session goes
on waiting for a request.
-/

namespace Thrussh.Server

open Deps Lib

section
variable [Deps]

/-- Whether a step queues USERAUTH_SUCCESS. -/
def QueuesSuccess (s t : Session) : Prop :=
  ∃ bodies, t.emitted = s.emitted ++ bodies ∧ [msg.USERAUTH_SUCCESS] ∈ bodies

/-- Whether a step ends the dialogue and starts decompression. -/
def EndsDialogue (s t : Session) : Prop :=
  (∃ auth, s.state = some (.waitingAuthRequest auth)) ∧ t.state = some .initCompression ∧
    ∃ enc enc', s.common.encrypted = some enc ∧ t.common.encrypted = some enc' ∧
      enc'.decompress = enc.clientCompression.initDecompress enc.decompress

/-- Whether what an event gives to `reply` queues USERAUTH_SUCCESS exactly if it ends the dialogue. -/
def EventAgrees (handler : Handler) (l : Loop Session) (e : Event (UInt32 × ChannelMsg)) : Prop :=
  ∀ p ∈ Loop.given (driver handler) l e,
    (QueuesSuccess p.1 (final (reply handler p.2 p.1)) ↔
      EndsDialogue p.1 (final (reply handler p.2 p.1)))

/-- Whether what an event gives to `reply` is no info response that the handler accepts. -/
def EventUnaccepted (handler : Handler) (l : Loop Session) (e : Event (UInt32 × ChannelMsg)) :
    Prop :=
  ∀ p ∈ Loop.given (driver handler) l e,
    p.1.common.InExchange p.2 ∨ ¬ AcceptsResponse handler p.1 p.2

section
variable {handler : Handler} {s t : Session} {buf : Bytes}

/-- A step that queues no USERAUTH_SUCCESS. -/
theorem not_queues {l : List Bytes} (hemitted : t.emitted = s.emitted ++ l)
    (hnone : [msg.USERAUTH_SUCCESS] ∉ l) : ¬ QueuesSuccess s t := by
  rintro ⟨bodies', hemitted', hmem⟩
  rw [hemitted] at hemitted'
  rw [List.append_cancel_left hemitted'] at hnone
  exact hnone hmem

/-- A step that does not lead to the end of the dialogue. -/
theorem not_ends (h : t.state ≠ some .initCompression ∨
    ∀ auth, s.state ≠ some (.waitingAuthRequest auth)) : ¬ EndsDialogue s t := by
  rintro ⟨⟨auth, hauth⟩, hstate, -⟩
  rcases h with h | h
  · exact h hstate
  · exact h auth hauth

/-- A packet of a key exchange has nothing to do with the dialogue. -/
theorem neither_of_stands (h : Stands s t) : ¬ QueuesSuccess s t ∧ ¬ EndsDialogue s t := by
  rcases h.standing with hstanding | ⟨hnone, hstanding⟩
  · have hstate : t.state = s.state := state_of_standing hstanding
    have hemitted : t.emitted = s.emitted := by
      unfold Session.emitted CommonSession.emitted
      rw [hstanding]
    refine ⟨not_queues (l := []) (by simp [hemitted]) (by simp), not_ends ?_⟩
    rw [hstate]
    by_cases hinit : s.state = some .initCompression
    · exact .inr fun auth => by simp [hinit]
    · exact .inl hinit
  · have hs : s.emitted = [] := emitted_none hnone
    have ht : t.emitted = [] := by
      unfold Session.emitted CommonSession.emitted
      rw [hstanding]
      rfl
    refine ⟨not_queues (l := []) (by simp [hs, ht]) (by simp), not_ends (.inl ?_)⟩
    simp [state_of_started hstanding]

/-- What is queued by quiet steps and flushes. -/
theorem emits_of_moves {P : Bytes → Prop} {α : Type} {x : M α}
    (hx : Moves (Over (Busy P)) x) (s : Session) :
    ∃ bodies, (∀ b ∈ bodies, P b) ∧ (final (x s)).emitted = s.emitted ++ bodies := by
  refine hx.invariant (s := s) (p := fun t => ∃ bodies, (∀ b ∈ bodies, P b) ∧
    t.emitted = s.emitted ++ bodies) (fun u v hstep ⟨bodies, hbodies, hu⟩ => ?_)
    ⟨[], by simp, by simp⟩
  obtain ⟨bodies', hbodies', hv⟩ := hstep.common.emits
  refine ⟨bodies ++ bodies', fun b hb => ?_, ?_⟩
  · exact (List.mem_append.mp hb).elim (hbodies b) (hbodies' b)
  · rw [Session.emitted, hv, ← Session.emitted, hu, List.append_assoc]

omit [Deps] in
/-- A packet of the connection protocol is no USERAUTH_SUCCESS. -/
theorem success_not_connection : ¬ ConnectionPacket [msg.USERAUTH_SUCCESS] := by
  rintro ⟨m, hm, hconnection⟩
  cases hm
  exact absurd hconnection (by decide)

/-- An authenticated session queues no USERAUTH_SUCCESS. -/
theorem neither_of_authenticated (handler : Handler)
    (hstate : s.state = some .initCompression ∨ s.state = some .authenticated) (buf : Bytes) :
    ¬ QueuesSuccess s (final (serverReadState handler buf s)) ∧
      ¬ EndsDialogue s (final (serverReadState handler buf s)) := by
  have hmoves := serverReadAuthenticated_moves (q := Busy ConnectionPacket) (fun _ h => h)
    handler buf
  have hnot : ∀ t, (∃ bodies, (∀ b ∈ bodies, ConnectionPacket b) ∧
      t.emitted = s.emitted ++ bodies) → ¬ QueuesSuccess s t := by
    rintro t ⟨bodies, hbodies, hemitted⟩
    exact not_queues hemitted fun hmem => success_not_connection (hbodies _ hmem)
  have hends : ∀ t, ¬ EndsDialogue s t := by
    intro t
    refine not_ends (.inr fun auth => ?_)
    rcases hstate with hstate | hstate
    · simp [hstate]
    · simp [hstate]
  cases henc : s.common.encrypted with
  | none =>
    rcases hstate with hstate | hstate
    · simp [Session.state, henc] at hstate
    · simp [Session.state, henc] at hstate
  | some enc =>
    simp only [Session.state, henc, Option.map_some, Option.some.injEq] at hstate
    refine ⟨hnot _ ?_, hends _⟩
    rcases hstate with hstate | hstate
    · simp only [serverReadState, run_bind, getEnc, run_get, henc, run_pure, hstate, modifyEnc,
        run_modify]
      have hemits := emits_of_moves hmoves { s with common := s.common.modifyEnc fun enc => { enc with
        compress := enc.serverCompression.initCompress enc.compress, state := .authenticated } }
      have hsame : Session.emitted { s with common := s.common.modifyEnc fun enc => { enc with
          compress := enc.serverCompression.initCompress enc.compress
          state := .authenticated } } = s.emitted := by
        rw [Session.emitted, Session.emitted, emitted_some henc]
        simp only [CommonSession.emitted, CommonSession.standing, CommonSession.modifyEnc, henc,
          Option.map_some]
        rfl
      rw [hsame] at hemits
      exact hemits
    · simp only [serverReadState, run_bind, getEnc, run_get, henc, run_pure, hstate]
      exact emits_of_moves hmoves s

section
variable {v w : View} {auth : AuthRequest}

/-- An answer that is no USERAUTH_SUCCESS, with the dialogue going on. -/
theorem neither_of_view {bodies : List Bytes} (hs : s.view = some v) (ht : t.view = some w)
    (hemitted : w.emitted = v.emitted ++ bodies) (hnone : [msg.USERAUTH_SUCCESS] ∉ bodies)
    (hstate : w.state ≠ .initCompression) : ¬ QueuesSuccess s t ∧ ¬ EndsDialogue s t := by
  obtain ⟨htstate, htemitted, -, -⟩ := view_shows ht
  obtain ⟨-, hsemitted, -, -⟩ := view_shows hs
  refine ⟨not_queues (l := bodies) ?_ hnone, not_ends (.inl ?_)⟩
  · rw [htemitted, hsemitted, hemitted]
  · rw [htstate]
    simpa using hstate

/-- USERAUTH_SUCCESS is queued, and the dialogue ends. -/
theorem both_of_view (hs : s.view = some v) (hauth : v.state = .waitingAuthRequest auth)
    (ht : t.view = some w.opened) (htold : Told v w [[msg.USERAUTH_SUCCESS]])
    (hstate : w.state = .initCompression) : QueuesSuccess s t ∧ EndsDialogue s t := by
  obtain ⟨htstate, htemitted, -, -⟩ := view_shows ht
  obtain ⟨hsstate, hsemitted, -, -⟩ := view_shows hs
  refine ⟨⟨_, ?_, List.mem_singleton_self _⟩, ⟨auth, by rw [hsstate, hauth]⟩, ?_, ?_⟩
  · rw [htemitted, hsemitted, View.opened_emitted, htold.emitted]
  · rw [htstate, View.opened_state, hstate]
  · obtain ⟨hnegotiated, hdecompress⟩ := htold.compression
    obtain ⟨enc, henc, rfl⟩ := Option.map_eq_some_iff.mp hs
    obtain ⟨enc', henc', hopened⟩ := Option.map_eq_some_iff.mp ht
    refine ⟨enc, enc', henc, henc', ?_⟩
    have hinit := congrArg View.decompress hopened
    simp only [View.opened, hstate, hnegotiated, hdecompress] at hinit
    exact hinit

omit [Deps] in
theorem success_ne_cons {m : UInt8} {rest : Bytes} (h : m ≠ msg.USERAUTH_SUCCESS) :
    [msg.USERAUTH_SUCCESS] ∉ [m :: rest] := by
  simp only [List.mem_singleton, List.cons.injEq, not_and]
  exact fun heq => absurd heq.symm h

/-- A request is answered with USERAUTH_SUCCESS exactly if it ends the dialogue. -/
theorem Requested.agrees (h : Requested v auth buf w) (hs : s.view = some v)
    (hauth : v.state = .waitingAuthRequest auth) (ht : t.view = some w.opened) :
    QueuesSuccess s t ↔ EndsDialogue s t := by
  have hneither : ∀ body, w.emitted = v.emitted ++ [body] → [msg.USERAUTH_SUCCESS] ∉ [body] →
      w.state ≠ .initCompression → (QueuesSuccess s t ↔ EndsDialogue s t) := by
    intro body hemitted hbody hstate
    rw [View.opened_eq hstate] at ht
    have hnot := neither_of_view hs ht hemitted hbody hstate
    exact iff_of_false hnot.1 hnot.2
  have hboth : Told v w [[msg.USERAUTH_SUCCESS]] → w.state = .initCompression →
      (QueuesSuccess s t ↔ EndsDialogue s t) := by
    intro htold hstate
    have h := both_of_view hs hauth ht htold hstate
    exact iff_of_true h.1 h.2
  cases h with
  | rejected htold hstate =>
    exact hneither _ htold.emitted (success_ne_cons (by decide)) (by simp [hstate])
  | prompted htold hstate =>
    exact hneither _ htold.emitted (success_ne_cons (by decide)) (by simp [hstate])
  | probed hkey haccepts hw =>
    subst hw
    exact hneither _ rfl (success_ne_cons (by decide)) (by simp)
  | other hother hcallback haccepts hasked htold hstate => exact hboth htold hstate
  | vouched hreq hsent huser hverified hw =>
    rw [hw] at hboth
    subst hw
    exact hboth ⟨rfl, ⟨[], by simp, by simp⟩, rfl, rfl, rfl, rfl⟩ rfl
  | asked hreq haccepts hverified hw =>
    subst hw
    exact hboth (.asks rfl rfl rfl rfl rfl ⟨rfl, rfl⟩) rfl

/-- A packet in the dialogue is answered with USERAUTH_SUCCESS exactly if it
ends the dialogue, info responses that are accepted apart. -/
theorem serverReadState_agrees (hs : s.view = some v) (hauth : v.state = .waitingAuthRequest auth)
    (hunaccepted : ¬ AcceptsResponse handler s buf) :
    QueuesSuccess s (final (serverReadState handler buf s)) ↔
      EndsDialogue s (final (serverReadState handler buf s)) := by
  have hends := serverReadState_answered handler buf hs hauth
  have hall : Ends (serverReadState handler buf) s
      (fun _ t => QueuesSuccess s t ↔ EndsDialogue s t)
      (fun t => QueuesSuccess s t ↔ EndsDialogue s t) := by
    refine hends.mono
      (fun _ t ⟨w, ht, hanswered⟩ => ?_) fun t ⟨w, auth', ht, htold, hstate⟩ => ?_
    · have hneither : ∀ bodies, w.emitted = v.emitted ++ bodies →
          [msg.USERAUTH_SUCCESS] ∉ bodies → w.state ≠ .initCompression →
          (QueuesSuccess s t ↔ EndsDialogue s t) := by
        intro bodies hemitted hbodies hstate
        have hnot := neither_of_view hs ht hemitted hbodies hstate
        exact iff_of_false hnot.1 hnot.2
      cases hanswered with
      | ignored hw =>
        exact hneither [] (by rw [hw, List.append_nil]) (by simp) (by simp [hw, hauth])
      | requested hhead hrequested hw =>
        rw [hw] at ht
        exact hrequested.agrees hs hauth ht
      | rejected htold hstate =>
        exact hneither _ htold.emitted (success_ne_cons (by decide)) (by simp [hstate])
      | prompted htold hcurrent hstate =>
        exact hneither _ htold.emitted (success_ne_cons (by decide)) (by simp [hstate])
      | accepted haccepts => exact absurd haccepts hunaccepted
    · have hnot := neither_of_view hs ht htold.emitted (by simp) (by simp [hstate])
      exact iff_of_false hnot.1 hnot.2
  exact hall.final

/-- A service request is not answered with USERAUTH_SUCCESS. -/
theorem neither_of_service (handler : Handler) (buf : Bytes) {sent accepted : Bool} (hs : s.view = some v)
    (hstate : v.state = .waitingServiceRequest sent accepted) :
    ¬ QueuesSuccess s (final (serverReadState handler buf s)) ∧
      ¬ EndsDialogue s (final (serverReadState handler buf s)) := by
  have hends := serverReadState_service handler buf hs hstate
  have hsame : ∀ t, t.view = some v → ¬ QueuesSuccess s t ∧ ¬ EndsDialogue s t := fun t ht =>
    neither_of_view hs ht (List.append_nil _).symm (by simp) (by simp [hstate])
  have hall : Ends (serverReadState handler buf) s
      (fun _ t => ¬ QueuesSuccess s t ∧ ¬ EndsDialogue s t)
      (fun t => ¬ QueuesSuccess s t ∧ ¬ EndsDialogue s t) := by
    refine hends.mono (fun _ t ht => ?_) hsame
    rcases ht with ht | ⟨methods, banner, ht⟩
    · exact hsame t ht
    · refine neither_of_view hs ht rfl ?_ (by simp)
      cases banner with
      | none => exact success_ne_cons (by decide)
      | some banner =>
        simp only [servicePackets, Option.map_some, Option.toList_some, List.mem_cons,
          List.not_mem_nil, or_false, not_or]
        exact ⟨by simp [msg.SERVICE_ACCEPT, msg.USERAUTH_SUCCESS],
          by simp [msg.USERAUTH_BANNER, msg.USERAUTH_SUCCESS]⟩
  exact hall.final

end

/-- A packet queues USERAUTH_SUCCESS exactly if it ends the dialogue, if and
only if it is no info response that the handler accepts. -/
theorem reply_agrees_iff (hs : s.common.Sound) :
    (QueuesSuccess s (final (reply handler buf s)) ↔
        EndsDialogue s (final (reply handler buf s))) ↔
      s.common.InExchange buf ∨ ¬ AcceptsResponse handler s buf := by
  by_cases hin : s.common.InExchange buf
  · have hnot := neither_of_stands (reply_stands handler hs hin).final
    exact iff_of_true (iff_of_false hnot.1 hnot.2) (.inl hin)
  rw [reply_state handler hin, or_iff_right hin]
  constructor
  · intro hagrees haccepts
    obtain ⟨t, auth, hrun, hstate, hemitted⟩ := serverReadState_accepted haccepts
    rw [hrun, final_ok] at hagrees
    have hends := hagrees.mp ⟨_, hemitted, List.mem_singleton_self _⟩
    rw [hends.2.1] at hstate
    cases hstate
  · intro hunaccepted
    obtain ⟨enc, henc⟩ : ∃ enc, s.common.encrypted = some enc := by
      cases henc : s.common.encrypted with
      | none => exact absurd (.inl henc) hin
      | some enc => exact ⟨enc, rfl⟩
    obtain ⟨v, hv, hstate, -⟩ := view_some henc
    have hshown := (view_shows hv).1
    cases hcase : enc.state with
    | waitingServiceRequest sent accepted =>
      have hnot := neither_of_service handler buf hv (hstate.trans hcase)
      exact iff_of_false hnot.1 hnot.2
    | waitingAuthRequest auth =>
      exact serverReadState_agrees hv (hstate.trans hcase) hunaccepted
    | initCompression =>
      rw [hstate, hcase] at hshown
      have hnot := neither_of_authenticated handler (.inl hshown) buf
      exact iff_of_false hnot.1 hnot.2
    | authenticated =>
      rw [hstate, hcase] at hshown
      have hnot := neither_of_authenticated handler (.inr hshown) buf
      exact iff_of_false hnot.1 hnot.2

end

/-- In every run of the server, the packets that queue USERAUTH_SUCCESS are
those that end the dialogue and start decompression, if and only if none of
them is an info response that the handler accepts. -/
theorem success_ends_dialogue_iff (config : Config) (handler : Handler) (sshid : Bytes)
    (world : World) (l : Loop Session) (hl : runStream config handler sshid world = .ok l)
    (events : List (Event (UInt32 × ChannelMsg))) :
    Loop.Along (Loop.iterate (driver handler)) (EventAgrees handler) l events ↔
      Loop.Along (Loop.iterate (driver handler)) (EventUnaccepted handler) l events := by
  obtain ⟨s, output, hs, rfl⟩ := runStream_start hl
  have hd := driver_behaves (P := fun _ => True) (fun _ _ => trivial) handler
  have hkeeps := hd.keeps_sound
  have hstart := Loop.start_kept hkeeps hs.sound output
  refine Loop.along_congr (I := Loop.Kept _ _) (fun _ e h => Loop.iterate_kept hkeeps h e)
    (fun l e h => ?_) hstart events
  refine forall₂_congr fun p hp => ?_
  exact reply_agrees_iff (Loop.given_kept hkeeps h hp)

/-- An event that queues USERAUTH_SUCCESS without an end of the dialogue. -/
theorem not_eventAgrees {handler : Handler} {l : Loop Session} {e : Event (UInt32 × ChannelMsg)}
    {p : Session × Bytes} (hgiven : Loop.given (driver handler) l e = some p)
    (hemitted : (final (reply handler p.2 p.1)).emitted = p.1.emitted ++ [[msg.USERAUTH_SUCCESS]])
    (hstate : (final (reply handler p.2 p.1)).state ≠ some .initCompression) :
    ¬ EventAgrees handler l e := fun hagrees =>
  hstate ((hagrees p hgiven).mp ⟨_, hemitted, List.mem_singleton_self _⟩).2.1

end

/-- A run in which a request for keyboard-interactive authentication is accepted at once. -/
theorem success_ends_dialogue_iff_request :
    letI := Concrete.deps
    Loop.Along (Loop.iterate (driver Concrete.handler)) (EventAgrees Concrete.handler)
        Concrete.server Concrete.interactive ↔
      Loop.Along (Loop.iterate (driver Concrete.handler)) (EventUnaccepted Concrete.handler)
        Concrete.server Concrete.interactive :=
  @success_ends_dialogue_iff Concrete.deps _ _ _ _ _ (Concrete.runStream_eq _) _

/-- A client whose info response is accepted: it is told so, and the server
goes on waiting for a request. -/
theorem success_without_end :
    letI := Concrete.deps
    runStream Concrete.serverConfig Concrete.prompting Concrete.clientConfig.clientId
      Concrete.world = .ok Concrete.server ∧
    ¬ Loop.Along (Loop.iterate (driver Concrete.prompting)) (EventAgrees Concrete.prompting)
      Concrete.server (Concrete.interactive ++ [.read]) := by
  refine ⟨Concrete.runStream_eq _, fun h => ?_⟩
  have hlast := h.of_append.1
  refine @not_eventAgrees Concrete.deps _ _ _ (Option.get _ ?_) (Option.some_get _).symm ?_ ?_ hlast
  · decide +kernel
  · decide +kernel
  · decide +kernel

end Thrussh.Server
