import Thrussh.Server.Gate

/-!
# What lets a client in

Whichever way a dialogue goes, the server queues no USERAUTH_SUCCESS unless its handler
has accepted a question of the authentication before.
-/

namespace Thrussh.Server

open Deps Lib

section
variable [Deps]

/-- Whether the handler has accepted a question of the authentication. -/
def Session.Persuaded (s : Session) : Prop := ∃ p ∈ s.callbacks, Accepted p

/-- No USERAUTH_SUCCESS was queued unless the handler has accepted. -/
def Earned (s : Session) : Prop :=
  (∃ body ∈ s.emitted, body.head? = some msg.USERAUTH_SUCCESS) → s.Persuaded

section
variable {handler : Handler} {s t : Session} {buf : Bytes}

/-- What was accepted stays accepted. -/
theorem Session.Persuaded.grow (h : s.Persuaded) (hcallbacks : s.callbacks <+: t.callbacks) :
    t.Persuaded := by
  obtain ⟨p, hp, haccepted⟩ := h
  exact ⟨p, hcallbacks.subset hp, haccepted⟩

/-- Other packets need no acceptance. -/
theorem Earned.grow {l : List Bytes} (h : Earned s) (hcallbacks : s.callbacks <+: t.callbacks)
    (hemitted : t.emitted = s.emitted ++ l)
    (hl : ∀ body ∈ l, body.head? ≠ some msg.USERAUTH_SUCCESS) : Earned t := by
  rintro ⟨body, hbody, hhead⟩
  rw [hemitted] at hbody
  rcases List.mem_append.mp hbody with hbody | hbody
  · exact (h ⟨body, hbody, hhead⟩).grow hcallbacks
  · exact absurd hhead (hl body hbody)

/-- A step that asks nothing and leaves what the session stands at. -/
theorem Earned.of_standing (h : Earned s) (hcallbacks : t.callbacks = s.callbacks)
    (hstanding : t.common.standing = s.common.standing) : Earned t := by
  refine h.grow (l := []) (hcallbacks ▸ List.prefix_rfl) ?_ (by simp)
  rw [List.append_nil, Session.emitted, Session.emitted, CommonSession.emitted, hstanding]
  rfl

/-- Once the handler has accepted, whatever it does is earned. -/
theorem earned_of_moves {α : Type} {x : M α} (hx : Moves (Over (Busy fun _ => True)) x)
    (h : s.Persuaded) : Ends x s (fun _ t => Earned t) Earned := by
  refine (Ends.of_moves (s := s) (p := fun t => s.callbacks <+: t.callbacks) hx
    (fun _ _ hstep hgrows => hgrows.trans hstep.callbacks) List.prefix_rfl).mono
    (fun _ t ht _ => ?_) fun t ht _ => ?_
  · exact h.grow ht
  · exact h.grow ht

/-- What is added to the dialogue is earned. -/
theorem earned_of_view {v w : View} {l : List Bytes} (hs : s.view = some v) (ht : t.view = some w)
    (h : Earned s) (hemitted : w.emitted = v.emitted ++ l) (hasked : v.callbacks <+: w.callbacks)
    (hl : (∀ body ∈ l, body.head? ≠ some msg.USERAUTH_SUCCESS) ∨ ∃ p ∈ w.callbacks, Accepted p) :
    Earned t := by
  obtain ⟨-, hsemitted, -, hscallbacks⟩ := view_shows hs
  obtain ⟨-, htemitted, -, htcallbacks⟩ := view_shows ht
  rcases hl with hl | haccepted
  · refine h.grow (l := l) ?_ ?_ hl
    · rw [hscallbacks, htcallbacks]
      exact hasked
    · rw [htemitted, hemitted, hsemitted]
  · intro _
    unfold Session.Persuaded
    rwa [htcallbacks]

omit [Deps] in
/-- A packet with another number needs no acceptance. -/
theorem not_success {m : UInt8} {rest : Bytes} (h : m ≠ msg.USERAUTH_SUCCESS) :
    ∀ body ∈ [m :: rest], body.head? ≠ some msg.USERAUTH_SUCCESS := by
  intro body hbody
  rw [List.mem_singleton.mp hbody]
  simpa using h

/-- A request that is served is earned. -/
theorem Requested.earned {v w : View} {auth : AuthRequest} (hrequested : Requested v auth buf w)
    (hs : s.view = some v) (hauth : v.state = .waitingAuthRequest auth)
    (ht : t.view = some w.opened) (hrecorded : Recorded s) (h : Earned s) : Earned t := by
  have hadded : ∀ {bodies : List Bytes}, Told v w bodies →
      ((∀ body ∈ bodies, body.head? ≠ some msg.USERAUTH_SUCCESS) ∨ ∃ p ∈ w.callbacks, Accepted p) →
      Earned t := by
    intro bodies htold hbodies
    obtain ⟨asked, hasked, -⟩ := htold.asked
    refine earned_of_view hs ht h (l := bodies) ?_ ?_ ?_
    · rw [View.opened_emitted]
      exact htold.emitted
    · rw [View.opened_callbacks, hasked]
      exact List.prefix_append _ _
    · rw [View.opened_callbacks]
      exact hbodies
  cases hrequested with
  | rejected htold hstate => exact hadded htold (.inl (not_success (by decide)))
  | prompted htold hstate => exact hadded htold (.inl (not_success (by decide)))
  | probed hkey haccepts hw =>
    subst hw
    exact hadded (.asks rfl rfl rfl rfl rfl ⟨rfl, rfl⟩)
      (.inl (not_success (m := msg.USERAUTH_PK_OK) (by decide)))
  | @other callback answer hother hcallback haccepts hasked htold hstate =>
    refine hadded htold (.inr ⟨(callback, answer), ?_, hcallback, haccepts⟩)
    rw [hasked]
    exact List.mem_append_right _ (List.mem_singleton_self _)
  | @asked req answer hreq haccepts hverified hw =>
    subst hw
    refine hadded (.asks rfl rfl rfl rfl rfl ⟨rfl, rfl⟩)
      (.inr ⟨(.authPublickey req.user req.pubkey, answer), ?_, rfl, haccepts⟩)
    exact List.mem_append_right _ (List.mem_singleton_self _)
  | vouched hreq hsent huser hverified hw =>
    obtain ⟨hstate, -, -, hcallbacks⟩ := view_shows hs
    obtain ⟨key, algo, hcurrent⟩ := current_of_sentPkOk hsent
    obtain ⟨pubkey, answer, -, haccepts, hmem⟩ :=
      hrecorded auth key algo true (by rw [hstate, hauth]) hcurrent
    rw [hcallbacks] at hmem
    subst hw
    exact hadded ⟨rfl, ⟨[], by simp, by simp⟩, rfl, rfl, rfl, rfl⟩ (.inr ⟨_, hmem, rfl, haccepts⟩)

/-- A packet in the dialogue is earned, also when it fails. -/
theorem answered_earned {v : View} {auth : AuthRequest} (hs : s.view = some v)
    (hauth : v.state = .waitingAuthRequest auth) (hrecorded : Recorded s) (h : Earned s) :
    Ends (serverReadState handler buf) s (fun _ t => Earned t) Earned := by
  have hadded : ∀ {t : Session} {w : View} {bodies : List Bytes}, t.view = some w →
      Told v w bodies →
      ((∀ body ∈ bodies, body.head? ≠ some msg.USERAUTH_SUCCESS) ∨ ∃ p ∈ w.callbacks, Accepted p) →
      Earned t := by
    intro t w bodies ht htold hbodies
    obtain ⟨asked, hasked, -⟩ := htold.asked
    refine earned_of_view hs ht h htold.emitted ?_ hbodies
    rw [hasked]
    exact List.prefix_append _ _
  refine (serverReadState_answered handler buf hs hauth).mono
    (fun _ t ⟨w, ht, hanswered⟩ => ?_) fun t ⟨w, auth', ht, htold, hstate⟩ => ?_
  · cases hanswered with
    | ignored hw =>
      rw [hw] at ht
      exact hadded ht (.refl v) (.inl (by simp))
    | requested hhead hrequested hw =>
      rw [hw] at ht
      exact hrequested.earned hs hauth ht hrecorded h
    | rejected htold hstate => exact hadded ht htold (.inl (not_success (by decide)))
    | prompted htold hcurrent hstate => exact hadded ht htold (.inl (not_success (by decide)))
    | @accepted submethods callback answer haccepts hcurrent hcallback hanswer hasked htold hstate =>
      refine hadded ht htold (.inr ⟨(callback, answer), ?_, hcallback, hanswer⟩)
      rw [hasked]
      exact List.mem_append_right _ (List.mem_singleton_self _)
  · exact hadded ht htold (.inl (by simp))

/-- A packet outside the key exchange is earned. -/
theorem serverReadState_earned (handler : Handler) (hrecorded : Recorded s) (hgated : Gated s)
    (h : Earned s) : Ends (serverReadState handler buf) s (fun _ t => Earned t) Earned := by
  have hmoves := serverReadAuthenticated_moves (P := fun _ => True) (q := Busy fun _ => True)
    (fun _ _ => trivial) handler buf
  cases henc : s.common.encrypted with
  | none =>
    unfold Ends
    simp only [serverReadState, getEnc, run_bind, run_get, henc, run_throw]
    exact h
  | some enc =>
    obtain ⟨v, hv, hstate, -⟩ := view_some henc
    have hshown := (view_shows hv).1
    cases hcase : enc.state with
    | waitingServiceRequest sent accepted =>
      have hsame : ∀ t, t.view = some v → Earned t := fun t ht =>
        earned_of_view (l := []) hv ht h (by simp) List.prefix_rfl (.inl (by simp))
      refine (serverReadState_service handler buf hv (hstate.trans hcase)).mono
        (fun _ t ht => ?_) hsame
      rcases ht with ht | ⟨methods, banner, ht⟩
      · exact hsame t ht
      · refine earned_of_view hv ht h rfl List.prefix_rfl (.inl fun body hbody => ?_)
        unfold servicePackets at hbody
        rcases List.mem_cons.mp hbody with hbody | hbody
        · exact not_success (by decide) body (List.mem_singleton.mpr hbody)
        · cases banner with
          | none => cases hbody
          | some banner => exact not_success (m := msg.USERAUTH_BANNER) (by decide) body hbody
    | waitingAuthRequest auth => exact answered_earned hv (hstate.trans hcase) hrecorded h
    | authenticated =>
      rw [hstate, hcase] at hshown
      have hrun : serverReadState handler buf s = serverReadAuthenticated handler buf s := by
        simp only [serverReadState, run_bind, getEnc, run_get, henc, run_pure, hcase]
      unfold Ends
      rw [hrun]
      exact earned_of_moves hmoves (hgated.settled (.inr hshown)).1
    | initCompression =>
      rw [hstate, hcase] at hshown
      have hrun : serverReadState handler buf s = serverReadAuthenticated handler buf
          { s with common := s.common.modifyEnc fun enc => { enc with
            compress := enc.serverCompression.initCompress enc.compress
            state := .authenticated } } := by
        simp only [serverReadState, run_bind, getEnc, run_get, henc, run_pure, hcase, modifyEnc,
          run_modify]
      unfold Ends
      rw [hrun]
      exact earned_of_moves hmoves (hgated.settled (.inl hshown)).1

/-- A packet is earned. -/
theorem reply_earned (handler : Handler) (hs : s.common.Sound) (hrecorded : Recorded s)
    (hgated : Gated s) (h : Earned s) :
    Ends (reply handler buf) s (fun _ t => Earned t) Earned := by
  by_cases hin : s.common.InExchange buf
  · have hstands : ∀ t, Stands s t → Earned t := by
      intro t ht
      rcases ht.standing with hstanding | ⟨hnone, hstanding⟩
      · exact h.of_standing ht.callbacks hstanding
      · refine h.grow (l := []) (ht.callbacks ▸ List.prefix_rfl) ?_ (by simp)
        rw [Session.emitted, Session.emitted, emitted_none hnone]
        unfold CommonSession.emitted
        rw [hstanding]
        rfl
    exact (reply_stands handler hs hin).mono (fun _ => hstands) hstands
  · unfold Ends
    rw [reply_state handler hin]
    exact serverReadState_earned handler hrecorded hgated h

/-- What a local message makes of a session is earned. -/
theorem message_earned (hgated : Gated s) (h : Earned s) (m : Option (UInt32 × ChannelMsg)) :
    Ends (message m) s (fun _ t => Earned t) Earned := by
  by_cases hadmitted : s.Admitted
  · exact earned_of_moves (message_moves (P := fun _ => True) (q := Busy fun _ => True)
      (fun _ _ => trivial) m) hadmitted.1
  · have hsame := message_closed (hgated.closed hadmitted).1 m
    unfold Ends
    cases hrun : message m s with
    | ok a t =>
      rw [hrun, final_ok] at hsame
      rw [hsame]
      exact h
    | error e t =>
      rw [hrun, final_error] at hsame
      rw [hsame]
      exact h

end

/-- The server's loop earns what it queues. -/
theorem driver_keeps_earned (handler : Handler) : (driver handler).Keeps
    (fun s => ((s.common.Sound ∧ Recorded s) ∧ Gated s) ∧ Earned s) fun s =>
      (True ∧ Gated s) ∧ Earned s := by
  have hgated := driver_keeps_gated handler
  refine ⟨fun s h => ⟨⟨trivial, h.1.2⟩, h.2⟩, fun s enc decompress henc h => ⟨?_, ?_⟩,
    fun s buf h => ?_, fun s m h => ?_, fun s h => ?_, fun s h => h⟩
  · exact hgated.inflate s enc decompress henc h.1
  · change s.common.encrypted = some enc at henc
    refine h.2.of_standing rfl ?_
    simp only [CommonSession.standing, driver, henc, Option.map_some]
    rfl
  · exact (hgated.reply s buf h.1).and (reply_earned handler h.1.1.1 h.1.1.2 h.1.2 h.2)
  · exact (hgated.message s m h.1).and (message_earned h.1.2 h.2 m)
  · exact (hgated.flush s h.1).and ((flush_stands s).mono
      (fun _ t ht => h.2.of_standing ht.1 ht.2) fun t ht => h.2.of_standing ht.1 ht.2)

/-- In every run of the server, USERAUTH_SUCCESS is earned. -/
theorem run_earned {config : Config} {handler : Handler} {sshid : Bytes} {world : World}
    {l : Loop Session} (hl : runStream config handler sshid world = .ok l)
    (events : List (Event (UInt32 × ChannelMsg))) :
    Earned (l.run (driver handler) events).session := by
  obtain ⟨s, output, hid, rfl⟩ := runStream_readSshId hl
  have hs := readSshId_initial hid
  have hcallbacks := readSshId_callbacks hid
  have hemitted : s.emitted = [] := emitted_none hs.encrypted
  have hrecorded : Recorded s := Recorded.of_state fun auth => by
    simp [Session.state, hs.encrypted]
  have hgated : Gated s := by
    refine ⟨?_, ?_, fun _ => ⟨?_, ?_, ?_⟩, fun hsettled => ?_⟩
    · simp [hcallbacks, Preceded]
    · simp [hemitted, Preceded]
    · simp [hs.encrypted]
    · simp [hcallbacks]
    · simp [hemitted]
    · simp [Session.Settled, Session.state, hs.encrypted] at hsettled
  have hearned : Earned s := by
    rintro ⟨body, hbody, -⟩
    rw [hemitted] at hbody
    cases hbody
  exact (Loop.run_kept (driver_keeps_earned handler)
    (Loop.start_kept (driver_keeps_earned handler) ⟨⟨⟨hs.sound, hrecorded⟩, hgated⟩, hearned⟩ output)
    events).ended.2

end

end Thrussh.Server
