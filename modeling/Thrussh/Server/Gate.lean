import Thrussh.Output
import Thrussh.Server.Success

/-!
# The gate of the authentication

Nothing of the connection protocol happens on a server's session before the
handler has accepted a request and USERAUTH_SUCCESS was queued: no channel
is open, no callback of the connection protocol was asked and no packet of
it was queued. A session that has been let in stays so.
-/

namespace Thrussh.Server

open Deps Lib

/-- What satisfies `Q` in a list comes behind something that satisfies `P`. -/
def Preceded {α : Type} (P Q : α → Prop) (l : List α) : Prop :=
  ∀ before x after, l = before ++ x :: after → Q x → ∃ y ∈ before, P y

theorem Preceded.append {α : Type} {P Q : α → Prop} {l m : List α} (h : Preceded P Q l)
    (hnew : (∃ y ∈ l, P y) ∨ ∀ x ∈ m, ¬ Q x) : Preceded P Q (l ++ m) := by
  intro before x after heq hx
  rcases List.append_eq_append_iff.mp heq with ⟨l', hbefore, hm⟩ | ⟨l', hl, hrest⟩
  · -- `x` is new
    have hmem : x ∈ m := by
      rw [hm]
      exact List.mem_append_right _ List.mem_cons_self
    rcases hnew with ⟨y, hy, hP⟩ | hnot
    · exact ⟨y, by rw [hbefore]; exact List.mem_append_left _ hy, hP⟩
    · exact absurd hx (hnot x hmem)
  · cases l' with
    | nil =>
      have hm : m = x :: after := by simpa using hrest.symm
      rcases hnew with ⟨y, hy, hP⟩ | hnot
      · rw [hl, List.append_nil] at hy
        exact ⟨y, hy, hP⟩
      · exact absurd hx (hnot x (by rw [hm]; exact List.mem_cons_self))
    | cons z l' =>
      simp only [List.cons_append, List.cons.injEq] at hrest
      obtain ⟨rfl, -⟩ := hrest
      exact h before x l' hl hx

/-- Whether a packet has a number of the connection protocol. -/
def Connects (body : Bytes) : Prop := ∃ m ∈ body.head?, msg.GLOBAL_REQUEST ≤ m

/-- A question of the authentication that the handler has accepted. -/
def Accepted (p : Callback × Answer) : Prop := p.1.authenticates = true ∧ p.2.accepts

section
variable [Deps]

/-- Whether the handler has accepted a request and USERAUTH_SUCCESS was queued. -/
def Session.Admitted (s : Session) : Prop :=
  (∃ p ∈ s.callbacks, Accepted p) ∧ [msg.USERAUTH_SUCCESS] ∈ s.emitted

/-- Whether the dialogue has ended. -/
def Session.Settled (s : Session) : Prop :=
  s.state = some .initCompression ∨ s.state = some .authenticated

/-- Nothing of the connection protocol happens before the session is admitted. -/
structure Gated (s : Session) : Prop where
  /-- The handler accepts before it is asked about anything else. -/
  callbacks : Preceded Accepted (fun p => p.1.authenticates = false) s.callbacks
  /-- USERAUTH_SUCCESS is queued before any packet of the connection protocol. -/
  packets : Preceded (· = [msg.USERAUTH_SUCCESS]) Connects s.emitted
  /-- Until then there is no channel, callback or packet. -/
  closed : ¬ s.Admitted → (∀ enc ∈ s.common.encrypted, ∀ id, enc.channels id = none) ∧
    (∀ p ∈ s.callbacks, p.1.authenticates = true) ∧ ∀ body ∈ s.emitted, ¬ Connects body
  /-- The dialogue has ended only then. -/
  settled : s.Settled → s.Admitted

section
variable {s t : Session}

theorem Admitted.grow {a : List (Callback × Answer)} {l : List Bytes} (h : s.Admitted)
    (hcallbacks : t.callbacks = s.callbacks ++ a)
    (hemitted : t.emitted = s.emitted ++ l) : t.Admitted := by
  obtain ⟨⟨p, hp, haccepted⟩, hsuccess⟩ := h
  refine ⟨⟨p, ?_, haccepted⟩, ?_⟩
  · rw [hcallbacks]
    exact List.mem_append_left _ hp
  · rw [hemitted]
    exact List.mem_append_left _ hsuccess

/-- What is added to a gated session keeps the gate, if it is part of the
authentication or the session is admitted. -/
theorem Gated.grow {a : List (Callback × Answer)} {l : List Bytes} (h : Gated s)
    (hcallbacks : t.callbacks = s.callbacks ++ a)
    (hemitted : t.emitted = s.emitted ++ l)
    (hcase : s.Admitted ∨ (∀ p ∈ a, p.1.authenticates = true) ∧
      (∀ body ∈ l, ¬ Connects body) ∧
      (¬ s.Admitted → ∀ enc ∈ t.common.encrypted, ∀ id, enc.channels id = none))
    (hsettled : t.Settled → t.Admitted) : Gated t := by
  refine ⟨?_, ?_, fun hnot => ?_, hsettled⟩
  · rw [hcallbacks]
    refine h.callbacks.append ?_
    rcases hcase with hadmitted | ⟨hasked, -, -⟩
    · exact .inl hadmitted.1
    · exact .inr fun p hp => by simp [hasked p hp]
  · rw [hemitted]
    refine h.packets.append ?_
    rcases hcase with hadmitted | ⟨-, hbodies, -⟩
    · exact .inl ⟨_, hadmitted.2, rfl⟩
    · exact .inr hbodies
  · have hnot' : ¬ s.Admitted := fun hadmitted => hnot (Admitted.grow hadmitted hcallbacks hemitted)
    obtain ⟨hasked, hbodies, hchannels⟩ := hcase.resolve_left hnot'
    obtain ⟨-, hold, hsent⟩ := h.closed hnot'
    refine ⟨hchannels hnot', ?_, ?_⟩
    · rw [hcallbacks]
      exact fun p hp => (List.mem_append.mp hp).elim (hold p) (hasked p)
    · rw [hemitted]
      exact fun b hb => (List.mem_append.mp hb).elim (hsent b) (hbodies b)

/-- A step that leaves the questions and what the session stands at keeps the gate. -/
theorem Gated.of_standing (h : Gated s) (hcallbacks : t.callbacks = s.callbacks)
    (hstanding : t.common.standing = s.common.standing) : Gated t := by
  have hemitted : t.emitted = s.emitted := by
    unfold Session.emitted CommonSession.emitted
    rw [hstanding]
  have hstate : t.state = s.state := state_of_standing hstanding
  have hadmitted : t.Admitted ↔ s.Admitted := by
    unfold Session.Admitted
    rw [hcallbacks, hemitted]
  refine h.grow (a := []) (l := []) (by rw [hcallbacks, List.append_nil])
    (by rw [hemitted, List.append_nil]) (.inr ⟨by simp, by simp, fun hnot enc henc id => ?_⟩) ?_
  · have hchannels := (h.closed hnot).1
    cases hs : s.common.encrypted with
    | none =>
      rw [CommonSession.standing, CommonSession.standing, Option.mem_def.mp henc, hs] at hstanding
      cases hstanding
    | some enc' =>
      rw [CommonSession.standing, CommonSession.standing, Option.mem_def.mp henc, hs,
        Option.map_some, Option.map_some, Option.some.injEq] at hstanding
      have hsame : enc.channels = enc'.channels := congrArg (fun p => p.2.2.1) hstanding
      rw [hsame]
      exact hchannels enc' hs id
  · intro hsettled
    refine hadmitted.mpr (h.settled ?_)
    unfold Session.Settled at hsettled ⊢
    rw [← hstate]
    exact hsettled

/-- What is added to the dialogue keeps the gate. -/
theorem gated_of_view {v w : View} {l : List Bytes} (hs : s.view = some v)
    (ht : t.view = some w) (h : Gated s) (hemitted : w.emitted = v.emitted ++ l)
    (hasked : ∃ asked, w.callbacks = v.callbacks ++ asked ∧
      ∀ p ∈ asked, p.1.authenticates = true)
    (hchannels : w.channels = v.channels) (hbodies : ∀ body ∈ l, ¬ Connects body)
    (hsettled : t.Settled → t.Admitted) : Gated t := by
  obtain ⟨-, hsemitted, -, hscallbacks⟩ := view_shows hs
  obtain ⟨-, htemitted, -, htcallbacks⟩ := view_shows ht
  obtain ⟨asked, hasked, hauth⟩ := hasked
  refine h.grow (a := asked) (l := l) ?_ ?_ (.inr ⟨hauth, hbodies, ?_⟩) hsettled
  · rw [htcallbacks, hasked, hscallbacks]
  · rw [htemitted, hemitted, hsemitted]
  · intro hnot enc henc id
    obtain ⟨enc', henc', rfl⟩ := Option.map_eq_some_iff.mp hs
    obtain ⟨enc'', henc'', rfl⟩ := Option.map_eq_some_iff.mp ht
    rw [Option.mem_def, henc'', Option.some.injEq] at henc
    dsimp only at hchannels
    rw [← henc, hchannels]
    exact (h.closed hnot).1 enc' henc' id

/-- What a handler makes of an admitted session keeps the gate and the stage. -/
theorem gated_of_moves {α : Type} {x : M α} (hx : Moves (Over (Busy fun _ => True)) x)
    (h : Gated s) (hadmitted : s.Admitted) :
    Ends x s (fun _ t => Gated t ∧ t.state = s.state) fun t => Gated t ∧ t.state = s.state := by
  refine (Ends.of_moves (s := s) (p := fun t => s.callbacks <+: t.callbacks ∧
    s.emitted <+: t.emitted ∧ t.state = s.state) hx ?_ ⟨List.prefix_rfl, List.prefix_rfl, rfl⟩).mono
    (fun _ t ht => ?_) fun t ht => ?_
  · rintro u v hstep ⟨hcallbacks, hemitted, hstate⟩
    obtain ⟨bodies, -, hbodies⟩ := hstep.common.emits
    refine ⟨hcallbacks.trans hstep.callbacks, hemitted.trans ?_,
      hstep.common.state_eq.trans hstate⟩
    change u.common.emitted <+: v.common.emitted
    rw [hbodies]
    exact List.prefix_append _ _
  all_goals
    obtain ⟨⟨asked, hcallbacks⟩, ⟨bodies, hemitted⟩, hstate⟩ := ht
    exact ⟨h.grow hcallbacks.symm hemitted.symm (.inl hadmitted)
      fun _ => Admitted.grow hadmitted hcallbacks.symm hemitted.symm, hstate⟩

end

omit [Deps] in
/-- Packets of the authentication are none of the connection protocol. -/
theorem not_connects {m : UInt8} {rest : Bytes} (h : ¬ msg.GLOBAL_REQUEST ≤ m) :
    ∀ body ∈ [m :: rest], ¬ Connects body := by
  intro body hbody
  rw [List.mem_singleton.mp hbody]
  rintro ⟨m', hm', hconnects⟩
  cases hm'
  exact h hconnects

omit [Deps] in
/-- The answers to a service request are no packets of the connection protocol. -/
theorem servicePackets_not_connects (banner : Option Bytes) :
    ∀ body ∈ servicePackets banner, ¬ Connects body := by
  intro body hbody
  unfold servicePackets at hbody
  rcases List.mem_cons.mp hbody with hbody | hbody
  · exact not_connects (by decide) body (List.mem_singleton.mpr hbody)
  · cases banner with
    | none => cases hbody
    | some banner => exact not_connects (m := msg.USERAUTH_BANNER) (by decide) body hbody

section
variable {handler : Handler} {s t : Session} {buf : Bytes}

/-- A session that waits has not settled. -/
theorem not_settled {state : EncryptedState} (h : t.state = some state)
    (hinit : state ≠ .initCompression) (hauthenticated : state ≠ .authenticated) :
    ¬ t.Settled := by
  rintro (hstate | hstate)
  · exact hinit (Option.some.inj (h.symm.trans hstate))
  · exact hauthenticated (Option.some.inj (h.symm.trans hstate))

/-- An accepted question and USERAUTH_SUCCESS admit a session. -/
theorem admitted_of_view {v w : View} (ht : t.view = some w.opened)
    (hasked : ∃ p ∈ w.callbacks, Accepted p)
    (hemitted : w.emitted = v.emitted ++ [[msg.USERAUTH_SUCCESS]]) : t.Admitted := by
  obtain ⟨-, htemitted, -, htcallbacks⟩ := view_shows ht
  refine ⟨?_, ?_⟩
  · rw [htcallbacks, View.opened_callbacks]
    exact hasked
  · rw [htemitted, View.opened_emitted, hemitted]
    exact List.mem_append_right _ (List.mem_singleton_self _)

/-- A request that is served keeps the gate. -/
theorem Requested.gated {v w : View} {auth : AuthRequest} (hrequested : Requested v auth buf w)
    (hs : s.view = some v) (hauth : v.state = .waitingAuthRequest auth)
    (ht : t.view = some w.opened) (hrecorded : Recorded s) (h : Gated s) : Gated t := by
  have hgoes : ∀ {body : Bytes} {auth' : AuthRequest}, Told v w [body] →
      (∀ b ∈ [body], ¬ Connects b) → w.state = .waitingAuthRequest auth' → Gated t := by
    intro body auth' htold hbody hstate
    rw [View.opened_eq (by simp [hstate])] at ht
    refine gated_of_view hs ht h htold.emitted htold.asked htold.channels hbody
      fun hsettled => absurd hsettled ?_
    exact not_settled (view_shows ht).1 (by simp [hstate]) (by simp [hstate])
  have hends : Told v w [[msg.USERAUTH_SUCCESS]] → (∃ p ∈ w.callbacks, Accepted p) →
      Gated t := by
    intro htold hasked
    have hemitted : w.opened.emitted = v.emitted ++ [[msg.USERAUTH_SUCCESS]] := by
      rw [View.opened_emitted]
      exact htold.emitted
    refine gated_of_view hs ht h hemitted ?_ ?_ (not_connects (by decide))
      fun _ => admitted_of_view ht hasked htold.emitted
    · rw [View.opened_callbacks]
      exact htold.asked
    · rw [View.opened_channels]
      exact htold.channels
  cases hrequested with
  | rejected htold hstate => exact hgoes htold (not_connects (by decide)) hstate
  | prompted htold hstate => exact hgoes htold (not_connects (by decide)) hstate
  | probed hkey haccepts hw =>
    subst hw
    exact hgoes (.asks rfl rfl rfl rfl rfl ⟨rfl, rfl⟩)
      (not_connects (m := msg.USERAUTH_PK_OK) (by decide)) rfl
  | @other callback answer hother hcallback haccepts hasked htold hstate =>
    have hmem : (callback, answer) ∈ w.callbacks := by
      rw [hasked]
      exact List.mem_append_right _ (List.mem_singleton_self _)
    exact hends htold ⟨_, hmem, hcallback, haccepts⟩
  | @asked req answer hreq haccepts hverified hw =>
    have hmem : (.authPublickey req.user req.pubkey, answer) ∈ w.callbacks := by
      rw [hw]
      exact List.mem_append_right _ (List.mem_singleton_self _)
    refine hends ?_ ⟨_, hmem, rfl, haccepts⟩
    subst hw
    exact .asks rfl rfl rfl rfl rfl ⟨rfl, rfl⟩
  | vouched hreq hsent huser hverified hw =>
    obtain ⟨hstate, -, -, hcallbacks⟩ := view_shows hs
    obtain ⟨key, algo, hcurrent⟩ := current_of_sentPkOk hsent
    obtain ⟨pubkey, answer, -, haccepts, hmem⟩ :=
      hrecorded auth key algo true (by rw [hstate, hauth]) hcurrent
    rw [hcallbacks] at hmem
    subst hw
    exact hends ⟨rfl, ⟨[], by simp, by simp⟩, rfl, rfl, rfl, rfl⟩ ⟨_, hmem, rfl, haccepts⟩

/-- A packet in the dialogue keeps the gate, also when it fails. -/
theorem answered_gated {v : View} {auth : AuthRequest} (hs : s.view = some v)
    (hauth : v.state = .waitingAuthRequest auth) (hrecorded : Recorded s) (h : Gated s) :
    Ends (serverReadState handler buf) s (fun _ t => Gated t) Gated := by
  have hgoes : ∀ {t : Session} {w : View} {bodies : List Bytes} {auth' : AuthRequest},
      t.view = some w → Told v w bodies → (∀ b ∈ bodies, ¬ Connects b) →
      w.state = .waitingAuthRequest auth' → Gated t := by
    intro t w bodies auth' ht htold hbodies hstate
    refine gated_of_view hs ht h htold.emitted htold.asked htold.channels hbodies
      fun hsettled => absurd hsettled ?_
    exact not_settled (view_shows ht).1 (by simp [hstate]) (by simp [hstate])
  refine (serverReadState_answered handler buf hs hauth).mono
    (fun _ t ⟨w, ht, hanswered⟩ => ?_) fun t ⟨w, auth', ht, htold, hstate⟩ => ?_
  · cases hanswered with
    | ignored hw =>
      rw [hw] at ht
      exact hgoes ht (.refl v) (by simp) hauth
    | requested hhead hrequested hw =>
      rw [hw] at ht
      exact hrequested.gated hs hauth ht hrecorded h
    | rejected htold hstate => exact hgoes ht htold (not_connects (by decide)) hstate
    | prompted htold hcurrent hstate =>
      exact hgoes ht htold (not_connects (by decide)) hstate
    | accepted haccepts hcurrent hcallback hanswer hasked htold hstate =>
      exact hgoes ht htold (not_connects (by decide)) hstate
  · exact hgoes ht htold (by simp) hstate

/-- A packet outside the key exchange keeps the gate. -/
theorem serverReadState_gated (handler : Handler) (hrecorded : Recorded s) (h : Gated s) :
    Ends (serverReadState handler buf) s (fun _ t => Gated t) Gated := by
  have hmoves := serverReadAuthenticated_moves (P := fun _ => True) (q := Busy fun _ => True)
    (fun _ _ => trivial) handler buf
  cases henc : s.common.encrypted with
  | none =>
    unfold Ends
    simp only [serverReadState, getEnc, run_bind, run_get, henc, run_throw]
    exact h
  | some enc =>
    obtain ⟨v, hv, hstate, -⟩ := view_some henc
    have hshown := (view_shows hv).1
    cases hcase : enc.state with
    | waitingServiceRequest sent accepted =>
      have hsame : ∀ t, t.view = some v → Gated t := by
        intro t ht
        refine gated_of_view (l := []) hv ht h (by simp) ⟨[], by simp, by simp⟩ rfl (by simp)
          fun hsettled => absurd hsettled ?_
        exact not_settled (view_shows ht).1 (by simp [hstate, hcase]) (by simp [hstate, hcase])
      refine (serverReadState_service handler buf hv (hstate.trans hcase)).mono
        (fun _ t ht => ?_) hsame
      rcases ht with ht | ⟨methods, banner, ht⟩
      · exact hsame t ht
      · refine gated_of_view hv ht h rfl ⟨[], by simp, by simp⟩ rfl
          (servicePackets_not_connects banner) fun hsettled => absurd hsettled ?_
        exact not_settled (view_shows ht).1 (by simp) (by simp)
    | waitingAuthRequest auth =>
      exact answered_gated hv (hstate.trans hcase) hrecorded h
    | authenticated =>
      rw [hstate, hcase] at hshown
      have hrun : serverReadState handler buf s = serverReadAuthenticated handler buf s := by
        simp only [serverReadState, run_bind, getEnc, run_get, henc, run_pure, hcase]
      unfold Ends
      rw [hrun]
      exact (gated_of_moves hmoves h (h.settled (.inr hshown))).mono
        (fun _ _ ht => ht.1) fun _ ht => ht.1
    | initCompression =>
      rw [hstate, hcase] at hshown
      have hadmitted := h.settled (.inl hshown)
      let u : Session := { s with common := s.common.modifyEnc fun enc => { enc with
        compress := enc.serverCompression.initCompress enc.compress, state := .authenticated } }
      have hrun : serverReadState handler buf s = serverReadAuthenticated handler buf u := by
        simp only [serverReadState, run_bind, getEnc, run_get, henc, run_pure, hcase, modifyEnc,
          run_modify]
        rfl
      have hemitted : u.emitted = s.emitted ++ [] := by
        rw [List.append_nil, Session.emitted, Session.emitted, emitted_some henc]
        simp only [u, CommonSession.emitted, CommonSession.standing, CommonSession.modifyEnc, henc,
          Option.map_some]
        rfl
      have hcallbacks : u.callbacks = s.callbacks ++ [] := (List.append_nil _).symm
      have hgated : Gated u := h.grow hcallbacks hemitted (.inl hadmitted)
        fun _ => Admitted.grow hadmitted hcallbacks hemitted
      unfold Ends
      rw [hrun]
      exact (gated_of_moves hmoves hgated (Admitted.grow hadmitted hcallbacks hemitted)).mono
        (fun _ _ ht => ht.1) fun _ ht => ht.1

/-- A packet keeps the gate. -/
theorem reply_gated (handler : Handler) (hs : s.common.Sound) (hrecorded : Recorded s)
    (h : Gated s) : Ends (reply handler buf) s (fun _ t => Gated t) Gated := by
  by_cases hin : s.common.InExchange buf
  · have hstands : ∀ t, Stands s t → Gated t := by
      intro t ht
      rcases ht.standing with hstanding | ⟨hnone, hstanding⟩
      · exact h.of_standing ht.callbacks hstanding
      · have hemitted : t.emitted = s.emitted ++ [] := by
          rw [Session.emitted, Session.emitted, emitted_none hnone]
          unfold CommonSession.emitted
          rw [hstanding]
          rfl
        refine h.grow (by rw [ht.callbacks, List.append_nil]) hemitted
          (.inr ⟨by simp, by simp, fun _ enc henc id => ?_⟩) fun hsettled => absurd hsettled ?_
        · rw [CommonSession.standing, Option.mem_def.mp henc, Option.map_some,
            Option.some.injEq] at hstanding
          have hchannels : enc.channels = fun _ => none := congrArg (fun p => p.2.2.1) hstanding
          rw [hchannels]
        · exact not_settled (state_of_started hstanding) (by simp) (by simp)
    exact (reply_stands handler hs hin).mono (fun _ => hstands) hstands
  · unfold Ends
    rw [reply_state handler hin]
    exact serverReadState_gated handler hrecorded h

/-- Without a channel a local message does nothing. -/
theorem message_closed (h : ∀ enc ∈ s.common.encrypted, ∀ id, enc.channels id = none)
    (m : Option (UInt32 × ChannelMsg)) : final (message m s) = s := by
  have hupdate : ∀ f : Encrypted → Except Fault Encrypted,
      (∀ enc, (∀ id, enc.channels id = none) → f enc = .ok enc) →
      onCommon (updateEnc f) s = .ok () s := by
    intro f hf
    cases henc : s.common.encrypted with
    | none => simp only [onCommon, updateEnc, zoom, run_bind, run_get, henc, run_pure]
    | some enc =>
      have hsame : { s.common with encrypted := some enc } = s.common := by rw [← henc]
      simp only [onCommon, updateEnc, zoom, run_bind, run_get, henc, hf enc (h enc henc),
        run_lift_ok, run_set, hsame]
  have hrequest : ∀ channel name rest, confirmedRequest channel name rest s = .ok () s :=
    fun channel name rest => hupdate _ fun enc hnone => by simp only [hnone]
  have hassert : assertEncrypted s = .ok () s ∨ assertEncrypted s = .error .panic s := by
    simp only [assertEncrypted, run_bind, run_get]
    split
    · exact .inl rfl
    · exact .inr rfl
  cases m with
  | none => rfl
  | some p =>
    obtain ⟨id, m⟩ := p
    cases m with
    | data d =>
      have hdata := hupdate (·.data id d) fun enc hnone => by
        simp only [Encrypted.data, Encrypted.submit, hnone]
      rcases hassert with hrun | hrun
      · simp only [message, data, run_bind, hrun, hdata, run_pure, final_ok]
      · simp only [message, data, run_bind, hrun, final_error]
    | extendedData d ext =>
      have hdata := hupdate (·.extendedData id ext d) fun enc hnone => by
        simp only [Encrypted.extendedData, Encrypted.submit, hnone]
      rcases hassert with hrun | hrun
      · simp only [message, extendedData, run_bind, hrun, hdata, run_pure, final_ok]
      · simp only [message, extendedData, run_bind, hrun, final_error]
    | eof =>
      have hbyte : s.common.byte id msg.CHANNEL_EOF = s.common := by
        unfold CommonSession.byte CommonSession.modifyEnc
        cases henc : s.common.encrypted with
        | none => rw [Option.map_none, ← henc]
        | some enc =>
          simp only [Option.map_some, Encrypted.byte, h enc henc]
          rw [← henc]
      simp only [message, eof, run_bind, onCommon, zoom, run_modify, hbyte, run_pure, final_ok]
    | xonXoff clientCanDo =>
      simp only [message, run_bind, xonXoffRequest, hrequest, run_pure, final_ok]
    | exitStatus exitStatus =>
      simp only [message, run_bind, exitStatusRequest, hrequest, run_pure, final_ok]
    | exitSignal signalName coreDumped errorMessage langTag =>
      simp only [message, run_bind, exitSignalRequest, hrequest, run_pure, final_ok]
    | windowAdjusted newSize => rfl
    | success => rfl

/-- A local message keeps the gate. -/
theorem message_gated (h : Gated s) (m : Option (UInt32 × ChannelMsg)) :
    Ends (message m) s (fun _ t => Gated t) Gated := by
  by_cases hadmitted : s.Admitted
  · have hmoves := message_moves (P := fun _ => True) (q := Busy fun _ => True)
      (fun _ _ => trivial) m
    exact (gated_of_moves hmoves h hadmitted).mono (fun _ _ ht => ht.1) fun _ ht => ht.1
  · have hsame := message_closed (h.closed hadmitted).1 m
    unfold Ends
    cases hrun : message m s with
    | ok a t =>
      rw [hrun, final_ok] at hsame
      rw [hsame]
      exact h
    | error e t =>
      rw [hrun, final_error] at hsame
      rw [hsame]
      exact h

/-- A flush leaves what the session stands at, and asks nothing. -/
theorem flush_stands (s : Session) : Ends (onCommon flush) s
    (fun _ t => t.callbacks = s.callbacks ∧ t.common.standing = s.common.standing)
    fun t => t.callbacks = s.callbacks ∧ t.common.standing = s.common.standing := by
  have hflush := (flush_final s.common).standing_eq
  unfold Ends onCommon zoom
  cases hrun : flush s.common with
  | ok a u =>
    rw [hrun, final_ok] at hflush
    exact ⟨rfl, hflush⟩
  | error e u =>
    rw [hrun, final_error] at hflush
    exact ⟨rfl, hflush⟩

end

/-- The server's loop keeps the gate. -/
theorem driver_keeps_gated (handler : Handler) : (driver handler).Keeps
    (fun s => (s.common.Sound ∧ Recorded s) ∧ Gated s) fun s => True ∧ Gated s := by
  have hrecorded := driver_keeps handler
  refine ⟨fun s h => ⟨trivial, h.2⟩, fun s enc decompress henc h => ⟨?_, ?_⟩, fun s buf h => ?_,
    fun s m h => ?_, fun s h => ?_, fun s h => h⟩
  · exact hrecorded.inflate s enc decompress henc h.1
  · change s.common.encrypted = some enc at henc
    refine h.2.of_standing rfl ?_
    simp only [CommonSession.standing, driver, henc, Option.map_some]
    rfl
  · exact (hrecorded.reply s buf h.1).and (reply_gated handler h.1.1 h.1.2 h.2)
  · exact (hrecorded.message s m h.1).and (message_gated h.2 m)
  · exact (hrecorded.flush s h.1).and ((flush_stands s).mono
      (fun _ t ht => h.2.of_standing ht.1 ht.2) fun t ht => h.2.of_standing ht.1 ht.2)

/-- The stage of a settled session stays one of the two. -/
theorem driver_keeps_settled (handler : Handler) : (driver handler).Keeps
    (fun s => s.common.Sound ∧ s.Settled) fun s => True ∧ s.Settled := by
  have hd := driver_behaves (P := fun _ => True) (fun _ _ => trivial) handler
  have hsound := hd.keeps_sound
  have hsame : ∀ {s t : Session}, s.Settled → t.state = s.state → t.Settled := by
    intro s t h hstate
    unfold Session.Settled
    rw [hstate]
    exact h
  have hmoves : ∀ {α : Type} {x : M α} {s : Session}, Moves (Over (Busy fun _ => True)) x →
      s.Settled → Ends x s (fun _ t => t.Settled) Session.Settled := fun hx h =>
    Ends.of_moves hx (fun _ _ hstep h => hsame h hstep.common.state_eq) h
  refine ⟨fun s h => ⟨trivial, h.2⟩, fun s enc decompress henc h => ⟨?_, ?_⟩, fun s buf h => ?_,
    fun s m h => ?_, fun s h => ?_, fun s h => h⟩
  · exact hsound.inflate s enc decompress henc h.1
  · change s.common.encrypted = some enc at henc
    refine hsame h.2 ?_
    simp only [Session.state, driver, henc, Option.map_some]
  · refine (hsound.reply s buf h.1).and ?_
    change Ends (reply handler buf) s _ _
    by_cases hin : s.common.InExchange buf
    · have hstands : ∀ t, Stands s t → t.Settled := by
        intro t ht
        rcases ht.standing with hstanding | ⟨hnone, -⟩
        · exact hsame h.2 (state_of_standing hstanding)
        · have hsettled := h.2
          simp [Session.Settled, Session.state, hnone] at hsettled
      exact (reply_stands handler h.1 hin).mono (fun _ => hstands) hstands
    · have hauthenticated := serverReadAuthenticated_moves (P := fun _ => True)
        (q := Busy fun _ => True) (fun _ _ => trivial) handler buf
      unfold Ends
      rw [reply_state handler hin]
      cases henc : s.common.encrypted with
      | none => exact absurd (.inl henc) hin
      | some enc =>
        have hsettled := h.2
        simp only [Session.Settled, Session.state, henc, Option.map_some,
          Option.some.injEq] at hsettled
        rcases hsettled with hstate | hstate
        · simp only [serverReadState, run_bind, getEnc, run_get, henc, run_pure, hstate, modifyEnc,
            run_modify]
          refine hmoves hauthenticated (.inr ?_)
          simp only [Session.state, CommonSession.modifyEnc, henc, Option.map_some]
        · simp only [serverReadState, run_bind, getEnc, run_get, henc, run_pure, hstate]
          exact hmoves hauthenticated h.2
  · exact (hsound.message s m h.1).and
      (hmoves (message_moves (fun _ _ => trivial) m) h.2)
  · exact (hsound.flush s h.1).and ((flush_stands s).mono
      (fun _ t ht => hsame h.2 (state_of_standing ht.2))
      fun t ht => hsame h.2 (state_of_standing ht.2))

/-- In every run of the server, nothing of the connection protocol happens
before the handler has accepted a request and USERAUTH_SUCCESS was queued,
`write` holds packets that were queued and no other, and a session whose
dialogue has ended stays so. -/
theorem connection_gated (config : Config) (handler : Handler) (sshid : Bytes) (world : World)
    (l : Loop Session) (hl : runStream config handler sshid world = .ok l)
    (events later : List (Event (UInt32 × ChannelMsg))) :
    Gated (l.run (driver handler) events).session ∧
      (∀ enc ∈ (l.run (driver handler) events).session.common.encrypted, enc.Framed) ∧
      ((l.run (driver handler) events).session.Settled →
        (l.run (driver handler) (events ++ later)).session.Settled) := by
  obtain ⟨s, output, hid, rfl⟩ := runStream_readSshId hl
  have hs := readSshId_initial hid
  have hcallbacks := readSshId_callbacks hid
  have hemitted : s.emitted = [] := emitted_none hs.encrypted
  have hrecorded : Recorded s := Recorded.of_state fun auth => by
    simp [Session.state, hs.encrypted]
  have hgated : Gated s := by
    refine ⟨?_, ?_, fun _ => ⟨?_, ?_, ?_⟩, fun hsettled => ?_⟩
    · simp [hcallbacks, Preceded]
    · simp [hemitted, Preceded]
    · simp [hs.encrypted]
    · simp [hcallbacks]
    · simp [hemitted]
    · simp [Session.Settled, Session.state, hs.encrypted] at hsettled
  have hkept := Loop.run_kept (driver_keeps_gated handler)
    (Loop.start_kept (driver_keeps_gated handler) ⟨⟨hs.sound, hrecorded⟩, hgated⟩ output) events
  have hinLine := Loop.run_inLine (driver_behaves (P := fun _ => True) (fun _ _ => trivial) handler)
    hs output events
  refine ⟨hkept.ended.2, hinLine.framed, fun hsettled => ?_⟩
  have hlater := Loop.run_kept (driver_keeps_settled handler)
    ⟨fun hrunning => ⟨(hkept.running hrunning).1.1, hsettled⟩, trivial, hsettled⟩ later
  have hsplit : (Loop.start (driver handler) s output).run (driver handler) (events ++ later) =
      ((Loop.start (driver handler) s output).run (driver handler) events).run (driver handler)
        later := List.foldl_append
  rw [hsplit]
  exact hlater.ended.2

end

/-- A client that authenticates with a public key. -/
theorem connection_gated_publickey :
    letI := Concrete.deps
    Gated (Concrete.server.run (driver (Concrete.accepting [1])) Concrete.otherKey).session ∧
      (∀ enc ∈ (Concrete.server.run (driver (Concrete.accepting [1]))
        Concrete.otherKey).session.common.encrypted, enc.Framed) ∧
      ((Concrete.server.run (driver (Concrete.accepting [1])) Concrete.otherKey).session.Settled →
        (Concrete.server.run (driver (Concrete.accepting [1]))
          (Concrete.otherKey ++ [.close, .read])).session.Settled) :=
  @connection_gated Concrete.deps _ _ _ _ _ (Concrete.runStream_eq _) _ _

end Thrussh.Server
