import Thrussh.Server.Known

/-!
# The course of a dialogue

Between two inquiries a session leaves the dialogue aside: what it remembers
stays, the handler is not asked about the authentication, and no request is
rejected. Only the service request begins a dialogue, with no rejection on
record.
-/

namespace Thrussh.Server

open Deps Lib

variable [Deps]

/-- A session whose dialogue has not begun. -/
def Session.Early (s : Session) : Prop :=
  s.state = none ∨ ∃ sent accepted, s.state = some (.waitingServiceRequest sent accepted)

/-- A packet that a session with a dialogue treats as an inquiry. -/
def Session.Inquired (s : Session) (buf : Bytes) : Prop :=
  s.dialogue.isSome = true ∧ ¬ s.common.InExchange buf ∧ Inquires buf

instance (s : Session) (buf : Bytes) : Decidable (s.Inquired buf) :=
  have : Decidable (Inquires buf) := inferInstanceAs (Decidable (_ ∨ _))
  inferInstanceAs (Decidable (_ ∧ _ ∧ _))

/-- What leaves the dialogue aside. -/
structure Aside (s t : Session) : Prop where
  /-- What is remembered stays, or the dialogue begins. -/
  dialogue : t.dialogue = s.dialogue ∨
    s.Early ∧ ∃ methods, t.dialogue = some ⟨s.common.authUser, ⟨methods, false, none, 0⟩⟩
  /-- A dialogue that has begun is not undone. -/
  early : t.Early → s.Early
  /-- The handler is not asked about the authentication. -/
  asks : Asks (fun callback => callback.authenticates = false) s t
  /-- No request is rejected. -/
  emitted : ∃ packets, t.emitted = s.emitted ++ packets ∧
    ∀ packet ∈ packets, packet.head? ≠ some msg.USERAUTH_FAILURE

section
variable {handler : Handler} {s t : Session} {buf : Bytes}

/-- What is remembered depends on the stage and on the user. -/
theorem dialogue_congr (hstate : t.state = s.state)
    (huser : t.common.authUser = s.common.authUser) : t.dialogue = s.dialogue := by
  unfold Session.dialogue
  rw [hstate, huser]

/-- A session with a dialogue awaits a request. -/
theorem state_of_dialogue {d : Dialogue} (h : s.dialogue = some d) :
    s.state = some (.waitingAuthRequest d.request) ∧ d.authUser = s.common.authUser := by
  unfold Session.dialogue at h
  split at h
  · rename_i auth hstate
    cases h
    exact ⟨hstate, rfl⟩
  · cases h

theorem Session.Early.dialogue (h : s.Early) : s.dialogue = none := by
  unfold Session.dialogue
  rcases h with hstate | ⟨sent, accepted, hstate⟩
  · rw [hstate]
  · rw [hstate]

theorem Session.Settled.dialogue (h : s.Settled) : s.dialogue = none := by
  unfold Session.dialogue
  rcases h with hstate | hstate
  · rw [hstate]
  · rw [hstate]

theorem Session.Settled.not_early (h : s.Settled) : ¬ s.Early := by
  rintro (hnone | ⟨sent, accepted, hwaiting⟩)
  · rcases h with hstate | hstate
    · rw [hstate] at hnone; cases hnone
    · rw [hstate] at hnone; cases hnone
  · rcases h with hstate | hstate
    · rw [hstate] at hwaiting; cases hwaiting
    · rw [hstate] at hwaiting; cases hwaiting

/-- What leaves the stage, the user and the questions and queues nothing. -/
theorem Aside.of_same (hstate : t.state = s.state)
    (huser : t.common.authUser = s.common.authUser) (hcallbacks : t.callbacks = s.callbacks)
    (hemitted : t.emitted = s.emitted) : Aside s t where
  dialogue := .inl (dialogue_congr hstate huser)
  early h := by
    unfold Session.Early at h ⊢
    rwa [← hstate]
  asks := .silent hcallbacks
  emitted := ⟨[], by rw [hemitted, List.append_nil], by simp⟩

/-- What leaves what the session stands at. -/
theorem Aside.of_standing (hstanding : t.common.standing = s.common.standing)
    (huser : t.common.authUser = s.common.authUser) (hcallbacks : t.callbacks = s.callbacks) :
    Aside s t := by
  refine .of_same (state_of_standing hstanding) huser hcallbacks ?_
  unfold Session.emitted CommonSession.emitted
  rw [hstanding]

/-- A packet of a key exchange leaves the dialogue aside. -/
theorem Stands.aside (h : Stands s t) : Aside s t := by
  rcases h.standing with hstanding | ⟨hnone, hstanding⟩
  · exact .of_standing hstanding h.authUser h.callbacks
  · have hearly : s.Early := .inl (by simp only [Session.state, hnone, Option.map_none])
    have hlate : t.Early := .inr ⟨_, _, state_of_started hstanding⟩
    have hemitted : t.emitted = s.emitted := by
      unfold Session.emitted
      rw [emitted_none hnone]
      unfold CommonSession.emitted
      rw [hstanding]
      rfl
    refine ⟨.inl ?_, fun _ => hearly, .silent h.callbacks,
      ⟨[], by rw [hemitted, List.append_nil], by simp⟩⟩
    rw [hearly.dialogue, hlate.dialogue]

/-- What a handler can make of a session, with questions of the connection
protocol at most, leaves the dialogue aside. -/
theorem aside_of_moves {α : Type} {x : M α}
    (hx : Moves (Over (Busy fun body => body.head? ≠ some msg.USERAUTH_FAILURE)) x)
    (hasks : Moves (Asks fun callback => callback.authenticates = false) x) (s : Session) :
    Aside s (final (x s)) := by
  have hmoved := hx.invariant (p := fun t => t.state = s.state ∧
    t.common.authUser = s.common.authUser ∧ ∃ packets, t.emitted = s.emitted ++ packets ∧
      ∀ packet ∈ packets, packet.head? ≠ some msg.USERAUTH_FAILURE) (s := s)
    (fun u v hstep hu => by
      obtain ⟨hstate, huser, packets, hemitted, hpackets⟩ := hu
      obtain ⟨bodies, hbodies, hqueued⟩ := hstep.common.emits
      refine ⟨hstep.common.state_eq.trans hstate, hstep.common.authUser_eq.trans huser,
        packets ++ bodies, ?_, fun packet hpacket => ?_⟩
      · change v.common.emitted = _
        rw [hqueued, ← List.append_assoc, ← hemitted]
        rfl
      · exact (List.mem_append.mp hpacket).elim (hpackets packet) (hbodies packet))
    ⟨rfl, rfl, [], (List.append_nil _).symm, by simp⟩
  obtain ⟨hstate, huser, hemitted⟩ := hmoved
  refine ⟨.inl (dialogue_congr hstate huser), fun hearly => ?_, ?_, hemitted⟩
  · unfold Session.Early at hearly ⊢
    rwa [← hstate]
  · exact hasks.invariant (p := Asks _ s) (fun _ _ hstep h => h.trans hstep) (.silent rfl)

omit [Deps] in
/-- A packet of the connection protocol rejects no request. -/
theorem not_failure {body : Bytes} (h : ConnectionPacket body) :
    body.head? ≠ some msg.USERAUTH_FAILURE := by
  obtain ⟨m, hm, hconnection⟩ := h
  rw [Option.mem_def.mp hm]
  rintro ⟨⟩
  exact absurd hconnection (by decide)

/-- A packet of a settled session leaves the dialogue aside. -/
theorem serverReadState_settled_aside (handler : Handler) (buf : Bytes) (h : s.Settled) :
    Aside s (final (serverReadState handler buf s)) := by
  have hmoves := serverReadAuthenticated_moves
    (q := Busy fun body => body.head? ≠ some msg.USERAUTH_FAILURE) (fun _ h => not_failure h)
    handler buf
  have hasks : Moves (Asks fun callback => callback.authenticates = false)
      (serverReadAuthenticated handler buf) :=
    (serverReadAuthenticated_asks handler).mono fun u v ⟨asked, hasked, hkind⟩ =>
      .single ⟨asked, hasked, fun p hp => (hkind p hp).authenticates⟩
  obtain ⟨u, hrun, hu, hsettled⟩ := serverReadState_settled handler buf h
  have haside := aside_of_moves hmoves hasks u
  rw [hrun]
  have hnone : s.dialogue = none := h.dialogue
  refine ⟨.inl ?_, fun hearly => absurd (haside.early hearly) hsettled.not_early, ?_, ?_⟩
  · rcases haside.dialogue with hsame | ⟨hearly, -⟩
    · rw [hsame, hnone, hsettled.dialogue]
    · exact absurd hearly hsettled.not_early
  · obtain ⟨asked, hasked, hkind⟩ := haside.asks
    exact ⟨asked, by rw [hasked, hu.callbacks], hkind⟩
  · obtain ⟨packets, hemitted, hpackets⟩ := haside.emitted
    exact ⟨packets, by rw [hemitted, hu.emitted], hpackets⟩

/-- A packet outside the dialogue, or of no inquiry, leaves the dialogue aside. -/
theorem reply_aside (handler : Handler) (hs : s.common.Sound) (h : ¬ s.Inquired buf) :
    Ends (reply handler buf) s (fun _ t => Aside s t) (Aside s) := by
  by_cases hin : s.common.InExchange buf
  · exact (reply_stands handler hs hin).mono (fun _ _ ht => ht.aside) fun _ ht => ht.aside
  refine .congr (reply_state handler hin) ?_
  cases henc : s.common.encrypted with
  | none => exact absurd (.inl henc) hin
  | some enc =>
    obtain ⟨v, hv, hvstate, -⟩ := view_some henc
    obtain ⟨hshown, hemitted, huser, hcallbacks⟩ := view_shows hv
    rw [hvstate] at hshown
    have hsettled : s.Settled → Ends (serverReadState handler buf) s (fun _ t => Aside s t)
        (Aside s) := by
      intro hsettled
      have haside := serverReadState_settled_aside handler buf hsettled
      unfold Ends
      cases hrun : serverReadState handler buf s with
      | ok a t => rwa [hrun, final_ok] at haside
      | error e t => rwa [hrun, final_error] at haside
    cases hcase : enc.state with
    | waitingServiceRequest sent accepted =>
      have hearly : s.Early := .inr ⟨sent, accepted, by rw [hshown, hcase]⟩
      have hsame : ∀ t : Session, t.view = some v → Aside s t := by
        intro t ht
        obtain ⟨htstate, htemitted, htuser, htcallbacks⟩ := view_shows ht
        refine .of_same (by rw [htstate, hshown, hvstate]) (by rw [htuser, huser])
          (by rw [htcallbacks, hcallbacks]) (by rw [htemitted, hemitted])
      refine (serverReadState_service handler buf hv (hvstate.trans hcase)).mono
        (fun _ t ht => ?_) hsame
      rcases ht with ht | ⟨methods, banner, ht⟩
      · exact hsame t ht
      · obtain ⟨htstate, htemitted, htuser, htcallbacks⟩ := view_shows ht
        refine ⟨.inr ⟨hearly, methods, ?_⟩, fun _ => hearly, .silent (htcallbacks.trans ?_),
          servicePackets banner, by rw [htemitted, hemitted], ?_⟩
        · unfold Session.dialogue
          rw [htstate, htuser, huser]
        · exact hcallbacks.symm
        · intro packet hpacket
          unfold servicePackets at hpacket
          cases banner with
          | none =>
            rw [List.mem_singleton.mp hpacket]
            decide
          | some banner =>
            rcases List.mem_cons.mp hpacket with hpacket | hpacket
            · rw [hpacket]
              decide
            · rw [List.mem_singleton.mp hpacket]
              simp only [List.cons_append, List.head?_cons]
              decide
    | waitingAuthRequest auth =>
      have hdialogue : s.dialogue.isSome = true := by
        unfold Session.dialogue
        rw [hshown, hcase]
        rfl
      have hrun : serverReadState handler buf s = .ok () s := by
        have hno : ¬ Inquires buf := fun hinquires => h ⟨hdialogue, hin, hinquires⟩
        unfold serverReadState getEnc
        simp only [run_bind, run_get, henc, run_pure, hcase]
        rw [if_neg fun hhead => hno (.inl hhead), if_neg fun hhead => hno (.inr hhead), run_pure]
      unfold Ends
      rw [hrun]
      exact .of_standing rfl rfl rfl
    | initCompression => exact hsettled (.inl (by rw [hshown, hcase]))
    | authenticated => exact hsettled (.inr (by rw [hshown, hcase]))

/-- An inquiry is treated as such. -/
theorem reply_treated (handler : Handler) {d : Dialogue} (h : s.Inquired buf)
    (hd : s.dialogue = some d) :
    ∃ id, s.common.encrypted.map (·.sessionId) = some id ∧
      Treated handler s id d (readInquiry d.request.current buf) (reply handler buf s) := by
  obtain ⟨-, hout, hinquires⟩ := h
  obtain ⟨hstate, huser⟩ := state_of_dialogue hd
  obtain ⟨enc, henc, hauth⟩ := Option.map_eq_some_iff.mp hstate
  obtain ⟨v, hv, hvstate, hvid⟩ := view_some henc
  obtain ⟨-, -, hvuser, -⟩ := view_shows hv
  have htreated := serverReadState_treated handler hv (hvstate.trans hauth) hinquires
  rw [← hvuser, ← huser] at htreated
  rw [reply_state handler hout]
  exact ⟨v.sessionId, by rw [henc, Option.map_some, hvid], htreated⟩

/-- Local messages ask nothing. -/
theorem message_silent (m : Option (UInt32 × ChannelMsg)) : Moves Silent (message m) := by
  cases m with
  | none => exact .pure _
  | some p =>
    obtain ⟨id, m⟩ := p
    cases m with
    | data d =>
      exact (assertEncrypted_moves.bind fun _ => onCommon_silent _).bind fun _ => .pure _
    | extendedData d ext =>
      exact (assertEncrypted_moves.bind fun _ => onCommon_silent _).bind fun _ => .pure _
    | eof => exact (onCommon_silent _).bind fun _ => .pure _
    | xonXoff clientCanDo => exact (onCommon_silent _).bind fun _ => .pure _
    | exitStatus exitStatus => exact (onCommon_silent _).bind fun _ => .pure _
    | exitSignal signalName coreDumped errorMessage langTag =>
      exact (onCommon_silent _).bind fun _ => .pure _
    | windowAdjusted newSize => exact .pure _
    | success => exact .pure _

/-- A local message leaves the dialogue aside. -/
theorem message_aside (m : Option (UInt32 × ChannelMsg)) (s : Session) :
    Ends (message m) s (fun _ t => Aside s t) (Aside s) := by
  have haside := aside_of_moves (message_moves
    (q := Busy fun body => body.head? ≠ some msg.USERAUTH_FAILURE) (fun _ h => not_failure h) m)
    (asks_of_silent (message_silent m)) s
  unfold Ends
  cases hrun : message m s with
  | ok a t => rwa [hrun, final_ok] at haside
  | error e t => rwa [hrun, final_error] at haside

/-- A flush leaves the dialogue aside. -/
theorem flush_aside (s : Session) :
    Ends (onCommon flush) s (fun _ t => Aside s t) (Aside s) := by
  have haside := aside_of_moves (x := onCommon flush) flush_moves
    (asks_of_silent (onCommon_silent _)) s
  unfold Ends
  cases hrun : onCommon flush s with
  | ok a t => rwa [hrun, final_ok] at haside
  | error e t => rwa [hrun, final_error] at haside

/-- Clearing the write buffer leaves the dialogue aside. -/
theorem clearWrite_aside (handler : Handler) (s : Session) :
    Aside s (Loop.clearWrite (driver handler) s) := by
  refine .of_standing ?_ rfl rfl
  rfl

/-- Decompression leaves the dialogue aside. -/
theorem inflate_aside (handler : Handler) {s : Session} {enc : Encrypted} (decompress : Decompress)
    (henc : s.common.encrypted = some enc) :
    Aside s ((driver handler).setCommon { s.common with
      encrypted := some { enc with decompress := decompress } } s) := by
  refine .of_standing ?_ rfl rfl
  simp only [CommonSession.standing, driver, henc, Option.map_some]
  rfl

end

end Thrussh.Server
