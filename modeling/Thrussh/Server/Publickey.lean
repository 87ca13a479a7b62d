import Thrussh.Concrete
import Thrussh.Server.Dialogue

/-!
# Authentication by public key

What a USERAUTH_REQUEST makes of a session, told by the state of the
dialogue, the recorded user and the questions put to the handler. A key that
is recorded with USERAUTH_PK_OK was accepted for the recorded user, in every
run; a signed request relies on that record also when it presents another
key.
-/

namespace Thrussh.Server

open Deps Lib

section
variable [Deps]

/-- The key recorded in the dialogue was accepted by the handler for the recorded user. -/
def Recorded (s : Session) : Prop :=
  ∀ auth key algo sent, s.state = some (.waitingAuthRequest auth) →
    auth.current = some (.publicKey key algo sent) →
    ∃ pubkey answer, publicKeyParse algo key = .ok pubkey ∧ answer.accepts ∧
      (.authPublickey s.common.authUser pubkey, answer) ∈ s.callbacks

section
variable {s t : Session} {auth : AuthRequest} {id : Bytes32} {user : Bytes}
  {callbacks : List (Callback × Answer)} {buf : Bytes}

/-- Steps that leave the dialogue and add callbacks keep what is recorded. -/
theorem Recorded.of_eq (h : Recorded s) (hstate : t.state = s.state)
    (huser : t.common.authUser = s.common.authUser) (hcallbacks : s.callbacks <+: t.callbacks) :
    Recorded t := by
  intro auth key algo sent hauth hcurrent
  rw [hstate] at hauth
  obtain ⟨pubkey, answer, hparse, haccepts, hmem⟩ := h auth key algo sent hauth hcurrent
  exact ⟨pubkey, answer, hparse, haccepts, by rw [huser]; exact hcallbacks.subset hmem⟩

/-- A session outside the dialogue records nothing. -/
theorem Recorded.of_state (h : ∀ auth, t.state ≠ some (.waitingAuthRequest auth)) : Recorded t :=
  fun auth _ _ _ hauth => absurd hauth (h auth)

/-- What is recorded is seen in the view. -/
theorem recorded_of_view {v : View} (ht : t.view = some v)
    (h : ∀ auth key algo sent, v.state = .waitingAuthRequest auth →
      auth.current = some (.publicKey key algo sent) →
      ∃ pubkey answer, publicKeyParse algo key = .ok pubkey ∧ answer.accepts ∧
        (.authPublickey v.authUser pubkey, answer) ∈ v.callbacks) : Recorded t := by
  obtain ⟨hstate, -, huser, hcallbacks⟩ := view_shows ht
  intro auth key algo sent hauth hcurrent
  rw [hstate] at hauth
  rw [huser, hcallbacks]
  exact h auth key algo sent (Option.some.inj hauth) hcurrent

/-- A dialogue without a public key records nothing. -/
theorem recorded_of_current {v : View} {auth : AuthRequest} (ht : t.view = some v)
    (hstate : v.state = .waitingAuthRequest auth)
    (hcurrent : ∀ key algo sent, auth.current ≠ some (.publicKey key algo sent)) : Recorded t := by
  refine recorded_of_view ht fun auth' key algo sent hauth h => ?_
  rw [hstate] at hauth
  cases hauth
  exact absurd h (hcurrent key algo sent)

/-- A packet served in the dialogue records a key only if it was accepted. -/
theorem Answered.recorded {handler : Handler} {v w : View} {auth : AuthRequest} {buf : Bytes}
    (h : Answered handler s v auth buf w) (hs : s.view = some v) (ht : t.view = some w)
    (hrecorded : Recorded s) : Recorded t := by
  have hended : ∀ u : View, t.view = some u.opened → u.state = .initCompression → Recorded t := by
    intro u hu hstate
    refine Recorded.of_state fun auth' => ?_
    rw [(view_shows hu).1]
    simp [View.opened, hstate]
  cases h with
  | ignored hw =>
    rw [hw, ← hs] at ht
    obtain ⟨hstate, -, huser, hcallbacks⟩ := view_shows (ht.trans hs)
    obtain ⟨hstate', -, huser', hcallbacks'⟩ := view_shows hs
    exact hrecorded.of_eq (hstate.trans hstate'.symm) (huser.trans huser'.symm)
      (by simp only [hcallbacks, hcallbacks', List.prefix_rfl])
  | rejected htold hstate => exact recorded_of_current ht hstate (by simp [afterReject])
  | prompted htold hcurrent hstate => exact recorded_of_current ht hstate (by simp [hcurrent])
  | accepted haccepts hcurrent hcallback hanswer hasked htold hstate =>
    exact recorded_of_current ht hstate (by simp [hcurrent])
  | requested hhead hrequested hw =>
    rw [hw] at ht
    cases hrequested with
    | rejected htold hstate =>
      rw [View.opened_eq (by simp [hstate])] at ht
      exact recorded_of_current ht hstate (by simp [afterReject])
    | prompted htold hstate =>
      rw [View.opened_eq (by simp [hstate])] at ht
      exact recorded_of_current ht hstate (by simp)
    | other hother hcallback haccepts hasked htold hstate => exact hended _ ht hstate
    | vouched hreq hsent huser hverified hu => exact hended _ ht (by rw [hu])
    | asked hreq haccepts hverified hu => exact hended _ ht (by rw [hu])
    | probed hkey haccepts hu =>
      rw [hu, View.opened_eq (by simp)] at ht
      refine recorded_of_view ht fun auth' key' algo' sent hauth hcurrent => ?_
      cases hauth
      cases hcurrent
      exact ⟨_, _, hkey, haccepts, List.mem_append_right _ (List.mem_singleton_self _)⟩

end

section
variable {s : Session}

/-- What leaves the dialogue: the stage and the user stay, callbacks are added. -/
structure Leaves (s t : Session) : Prop where
  /-- The stage stays. -/
  state : t.state = s.state
  /-- The recorded user stays. -/
  authUser : t.common.authUser = s.common.authUser
  /-- Callbacks are added. -/
  callbacks : s.callbacks <+: t.callbacks

theorem Leaves.recorded {t : Session} (h : Leaves s t) (hs : Recorded s) : Recorded t :=
  hs.of_eq h.state h.authUser h.callbacks

/-- Handlers and flushes leave the dialogue. -/
theorem leaves_of_moves {α : Type} {x : M α} (hx : Moves (Over (Busy fun _ => True)) x) :
    Returns x s fun _ t => Leaves s t := by
  intro a t hrun
  have hkept := hx.invariant (p := Leaves s) (s := s)
    (fun u v hstep hu => ⟨hstep.common.state_eq.trans hu.state,
      hstep.common.authUser_eq.trans hu.authUser, hu.callbacks.trans hstep.callbacks⟩)
    ⟨rfl, rfl, List.prefix_rfl⟩
  rw [hrun] at hkept
  exact hkept

theorem serverReadState_recorded (handler : Handler) (buf : Bytes) (h : Recorded s) :
    Returns (serverReadState handler buf) s fun _ t => Recorded t := by
  have hauthenticated := serverReadAuthenticated_moves (P := fun _ => True)
    (q := Busy fun _ => True) (fun _ _ => trivial) handler buf
  intro a t hrun
  cases henc : s.common.encrypted with
  | none =>
    simp only [serverReadState, getEnc, run_bind, run_get, henc] at hrun
    cases hrun
  | some enc =>
    obtain ⟨v, hv, hstate, -⟩ := view_some henc
    cases hcase : enc.state with
    | waitingServiceRequest sent accepted =>
      have hends := serverReadState_service handler buf hv (hstate.trans hcase)
      unfold Ends at hends
      rw [hrun] at hends
      have hkept : ∀ methods u, t.view = some u →
          u.state = .waitingAuthRequest ⟨methods, false, none, 0⟩ → Recorded t :=
        fun _ _ ht hu => recorded_of_current ht hu (by simp)
      rcases hends with ht | ⟨methods, banner, ht⟩
      · refine Recorded.of_state fun auth => ?_
        rw [(view_shows ht).1, hstate, hcase]
        simp
      · exact hkept methods _ ht rfl
    | waitingAuthRequest auth =>
      have hends := serverReadState_answered handler buf hv (hstate.trans hcase)
      unfold Ends at hends
      rw [hrun] at hends
      obtain ⟨w, ht, hanswered⟩ := hends
      exact hanswered.recorded hv ht h
    | initCompression =>
      simp only [serverReadState, run_bind, getEnc, run_get, henc, run_pure, hcase, modifyEnc,
        run_modify] at hrun
      refine (leaves_of_moves hauthenticated a t hrun).recorded (Recorded.of_state fun auth => ?_)
      simp [Session.state, CommonSession.modifyEnc, henc]
    | authenticated =>
      simp only [serverReadState, run_bind, getEnc, run_get, henc, run_pure, hcase] at hrun
      exact (leaves_of_moves hauthenticated a t hrun).recorded h

end

/-- A packet of a key exchange leaves the dialogue, or starts the session. -/
theorem reply_exchange (handler : Handler) {s : Session} (hs : s.common.Sound) {buf : Bytes}
    (hin : s.common.InExchange buf) : Returns (reply handler buf) s fun _ t =>
      Leaves s t ∨ t.state = some (.waitingServiceRequest false false) := by
  rw [returns_iff_ends]
  refine (reply_stands handler hs hin).mono (fun _ t ht => ?_) fun _ _ => trivial
  rcases ht.standing with hstanding | ⟨-, hstanding⟩
  · refine .inl ⟨state_of_standing hstanding, ht.authUser, ?_⟩
    simp only [ht.callbacks, List.prefix_rfl]
  · exact .inr (state_of_started hstanding)

theorem reply_recorded (handler : Handler) {s : Session} (hs : s.common.Sound) (h : Recorded s)
    (buf : Bytes) : Returns (reply handler buf) s fun _ t => Recorded t := by
  intro a t hrun
  by_cases hin : s.common.InExchange buf
  · rcases reply_exchange handler hs hin a t hrun with hleaves | hstart
    · exact hleaves.recorded h
    · exact Recorded.of_state fun auth => by simp [hstart]
  · rw [reply_state handler hin] at hrun
    exact serverReadState_recorded handler buf h a t hrun

/-- Decompression leaves the dialogue. -/
theorem inflated_state {handler : Handler} {s t : Session}
    (h : Loop.Inflated (driver handler) s t) :
    t.state = s.state ∧ t.common.authUser = s.common.authUser ∧ t.callbacks = s.callbacks := by
  cases h with
  | clear henc => exact ⟨rfl, rfl, rfl⟩
  | encrypted decompress henc =>
    refine ⟨?_, rfl, rfl⟩
    change s.common.encrypted = _ at henc
    simp only [Session.state, henc]
    rfl

/-- The server's loop keeps what is recorded. -/
theorem driver_keeps (handler : Handler) :
    (driver handler).Keeps (fun s => s.common.Sound ∧ Recorded s) fun _ => True := by
  have hd := driver_behaves (P := fun _ => True) (fun _ _ => trivial) handler
  have hsound := hd.keeps_sound
  have hboth : ∀ {α : Type} {x : M α} {s : Session} {post post' : α → Session → Prop},
      Ends x s post (fun _ => True) → Returns x s post' →
      Ends x s (fun a t => post a t ∧ post' a t) fun _ => True := fun h h' =>
    (h.and (returns_iff_ends.mp h')).mono (fun _ _ h => h) fun _ _ => trivial
  refine ⟨fun _ _ => trivial, ?_, ?_, ?_, ?_, fun s h => h⟩
  · intro s enc decompress henc h
    have hinflated : Loop.Inflated (driver handler) s _ := .encrypted decompress henc
    obtain ⟨hstate, huser, -⟩ := inflated_state hinflated
    exact ⟨hsound.inflate s enc decompress henc h.1, h.2.of_eq hstate huser List.prefix_rfl⟩
  · exact fun s buf h => hboth (hsound.reply s buf h.1) (reply_recorded handler h.1 h.2 buf)
  · intro s m h
    have hmoves := message_moves (P := fun _ => True) (q := Busy fun _ => True)
      (fun _ _ => trivial) m
    exact hboth (hsound.message s m h.1) fun a t hrun =>
      (leaves_of_moves hmoves a t hrun).recorded h.2
  · intro s h
    refine hboth (hsound.flush s h.1) fun a t hrun => ?_
    have ht := leaves_of_moves (x := onCommon flush) flush_moves a t hrun
    exact h.2.of_eq ht.state ht.authUser ht.callbacks

/-- A request that moves the dialogue on to its end was accepted by the handler
for its user and its key: when it was served, or when that key was recorded. -/
def Vouched (s t : Session) (buf : Bytes) : Prop :=
  ∀ enc auth, s.common.encrypted = some enc → enc.state = .waitingAuthRequest auth →
    isPublickeyRequest buf = true → t.state = some .initCompression →
    ∃ req answer, readSignedRequest buf = .ok req ∧ req.verified enc.sessionId = true ∧
      answer.accepts ∧ (t.callbacks = s.callbacks ++ [(.authPublickey req.user req.pubkey, answer)] ∨
        (.authPublickey req.user req.pubkey, answer) ∈ s.callbacks ∧
          ∃ key algo, auth.current = some (.publicKey key algo true) ∧
            publicKeyParse algo key = .ok req.pubkey)

/-- A signed request that relies on the record presents the recorded key. -/
def RecordFits (s : Session) (buf : Bytes) : Prop :=
  ∀ enc auth req key algo, s.common.encrypted = some enc →
    enc.state = .waitingAuthRequest auth → ¬ s.common.InExchange buf →
    isPublickeyRequest buf = true → readSignedRequest buf = .ok req →
    auth.current = some (.publicKey key algo true) → req.user = s.common.authUser →
    req.verified enc.sessionId = true → publicKeyParse algo key = .ok req.pubkey

section
variable {s : Session} {enc : Encrypted} {auth : AuthRequest} {buf : Bytes}

omit [Deps] in
theorem head_of_publickey (h : isPublickeyRequest buf = true) :
    buf.head? = some msg.USERAUTH_REQUEST := by
  unfold isPublickeyRequest at h
  split at h
  · simp only [Bool.and_eq_true, decide_eq_true_eq] at h
    exact h.1
  · cases h

/-- The record suffices: a signed request of the recorded user is accepted,
whatever key it presents. -/
theorem serverReadState_vouched (handler : Handler) (henc : s.common.encrypted = some enc)
    (hstate : enc.state = .waitingAuthRequest auth) (hpublickey : isPublickeyRequest buf = true)
    {req : SignedRequest} (hreq : readSignedRequest buf = .ok req)
    (hsent : sentPkOk auth.current = true) (huser : req.user = s.common.authUser)
    (hverified : req.verified enc.sessionId = true) :
    ∃ t, serverReadState handler buf s = .ok () t ∧ t.state = some .initCompression ∧
      t.callbacks = s.callbacks := by
  have hhead := head_of_publickey hpublickey
  obtain ⟨⟨user, method, r⟩, hrequest, hbody⟩ := ok_of_bind hreq
  obtain ⟨⟨isReal, algo, key, r'⟩, hpk, hsigned⟩ := ok_of_bind hbody
  obtain ⟨sig, hsignature, hjudged⟩ := ok_of_bind hsigned
  have hmethod : method = ascii "publickey" := by
    simp only [isPublickeyRequest, hrequest, Bool.and_eq_true, decide_eq_true_eq] at hpublickey
    exact hpublickey.2
  subst hmethod
  obtain ⟨⟨name, r₁⟩, hname, hrequest₁⟩ := ok_of_bind hrequest
  obtain ⟨user', huser', hrequest₂⟩ := ok_of_bind hrequest₁
  obtain ⟨⟨service, r₂⟩, hservice, hrequest₃⟩ := ok_of_bind hrequest₂
  obtain ⟨⟨method', r₃⟩, hmethod', hrequest₄⟩ := ok_of_bind hrequest₃
  obtain ⟨⟨isReal', r₄⟩, hreal, hpk₁⟩ := ok_of_bind hpk
  obtain ⟨⟨algo', r₅⟩, halgo, hpk₂⟩ := ok_of_bind hpk₁
  obtain ⟨⟨key', r₆⟩, hkey, hpk₃⟩ := ok_of_bind hpk₂
  obtain ⟨⟨signature, r₇⟩, hsig₁, hsignature₁⟩ := ok_of_bind hsignature
  obtain ⟨⟨name', r₈⟩, hsig₂, hsignature₂⟩ := ok_of_bind hsignature₁
  obtain ⟨⟨sig', r₉⟩, hsig₃, hsignature₃⟩ := ok_of_bind hsignature₂
  cases hpk₃
  cases hsignature₃
  dsimp only at hrequest₄ huser' hservice hmethod' halgo hkey hsig₂ hsig₃ hjudged
  split at hrequest₄
  · rename_i hconnection
    cases hrequest₄
    split at hjudged
    · rename_i pubkey hparse
      split at hjudged
      · rename_i hreal'
        cases hjudged
        have hpassword : ¬ ascii "publickey" = ascii "password" := by decide
        dsimp only [SignedRequest.verified] at huser hverified
        simp only [serverReadState, run_bind, getEnc, run_get, henc, run_pure, hstate, if_pos hhead,
          serverReadAuthRequest, hname, huser', hservice, hmethod', run_lift_ok, if_pos hconnection,
          if_neg hpassword, if_true, serverReadAuthRequestPk, hreal, halgo, hkey, hparse,
          if_pos hreal', serverReadSignedRequest, getAuth, hsig₁, hsig₂, hsig₃, hsent, huser,
          true_and, hverified]
        refine ⟨_, rfl, ?_, rfl⟩
        simp only [Session.state, CommonSession.modifyEnc, henc, Option.map_some]
      · cases hjudged
    · cases hjudged
  · cases hrequest₄

end

/-- Whether what an event hands to `reply` is vouched for, should it end the dialogue. -/
def EventVouched (handler : Handler) (l : Loop Session) (e : Event (UInt32 × ChannelMsg)) : Prop :=
  ∀ buf ∈ Loop.handed (driver handler) l e, ∀ s, Loop.Inflated (driver handler) l.session s →
    Returns (reply handler buf) s fun _ t => Vouched s t buf

/-- Whether what an event hands to `reply` relies on the record only with the recorded key. -/
def EventFits (handler : Handler) (l : Loop Session) (e : Event (UInt32 × ChannelMsg)) : Prop :=
  ∀ buf ∈ Loop.handed (driver handler) l e, RecordFits l.session buf

section
variable {handler : Handler} {s : Session} {buf : Bytes}

/-- A request that fits the record is vouched for. -/
theorem vouched_of_fits (hs : s.common.Sound) (hrecorded : Recorded s) (hfits : RecordFits s buf) :
    Returns (reply handler buf) s fun _ t => Vouched s t buf := by
  intro a t hrun enc auth henc hstate hpublickey hdone
  have hsame : s.state = some (.waitingAuthRequest auth) := by
    simp only [Session.state, henc, Option.map_some, hstate]
  by_cases hin : s.common.InExchange buf
  · -- a key exchange does not end the dialogue
    rcases reply_exchange handler hs hin a t hrun with hleaves | hstart
    · rw [hleaves.state, hsame] at hdone
      cases hdone
    · rw [hstart] at hdone
      cases hdone
  · rw [reply_state handler hin] at hrun
    obtain ⟨v, hv, hvstate, hid⟩ := view_some henc
    obtain ⟨-, -, hvuser, hvcallbacks⟩ := view_shows hv
    have hends := serverReadState_requested handler hv (hvstate.trans hstate)
      (head_of_publickey hpublickey)
    unfold Ends at hends
    rw [hrun] at hends
    obtain ⟨u, ht, hrequested⟩ := hends
    obtain ⟨htstate, -, -, htcallbacks⟩ := view_shows ht
    rw [htstate, Option.some.injEq, View.opened_state] at hdone
    rw [View.opened_callbacks] at htcallbacks
    cases hrequested with
    | rejected htold hu => rw [hu] at hdone; cases hdone
    | prompted htold hu => rw [hu] at hdone; cases hdone
    | probed hkey haccepts hu => rw [hu] at hdone; cases hdone
    | other hother => rw [hpublickey] at hother; cases hother
    | asked hreq haccepts hverified hu =>
      rw [hid] at hverified
      refine ⟨_, _, hreq, hverified, haccepts, .inl ?_⟩
      rw [htcallbacks, hu, hvcallbacks]
    | vouched hreq hsent huser hverified hu =>
      rw [← hvuser] at huser
      rw [hid] at hverified
      obtain ⟨key, algo, hcurrent⟩ := current_of_sentPkOk hsent
      have hkey := hfits enc auth _ key algo henc hstate hin hpublickey hreq hcurrent huser hverified
      obtain ⟨pubkey, answer, hparse, haccepts, hmem⟩ := hrecorded auth key algo true hsame hcurrent
      rw [hkey] at hparse
      cases hparse
      rw [← huser] at hmem
      exact ⟨_, answer, hreq, hverified, haccepts, .inr ⟨hmem, key, algo, hcurrent, hkey⟩⟩

/-- A request that is vouched for fits the record. -/
theorem fits_of_vouched (h : Returns (reply handler buf) s fun _ t => Vouched s t buf) :
    RecordFits s buf := by
  intro enc auth req key algo henc hstate hin hpublickey hreq hcurrent huser hverified
  have hsent : sentPkOk auth.current = true := by rw [hcurrent]; rfl
  obtain ⟨t, hrun, hdone, hcallbacks⟩ := serverReadState_vouched handler henc hstate hpublickey
    hreq hsent huser hverified
  rw [← reply_state handler hin] at hrun
  obtain ⟨req', answer, hreq', -, -, hasked | ⟨-, key', algo', hcurrent', hparse⟩⟩ :=
    h () t hrun enc auth henc hstate hpublickey hdone
  · rw [hcallbacks] at hasked
    exact absurd hasked (by simp)
  · rw [hreq] at hreq'
    cases hreq'
    rw [hcurrent] at hcurrent'
    cases hcurrent'
    exact hparse

end

/-- Decompression leaves what a request is judged by. -/
theorem fits_inflated {handler : Handler} {s t : Session}
    (h : Loop.Inflated (driver handler) s t) (buf : Bytes) : RecordFits s buf ↔ RecordFits t buf := by
  cases h with
  | clear henc => exact Iff.rfl
  | encrypted decompress henc =>
    rename_i enc
    change s.common.encrypted = some enc at henc
    have hin : ∀ c : CommonSession Config, c = { s.common with
        encrypted := some { enc with decompress := decompress } } →
        (c.InExchange buf ↔ s.common.InExchange buf) := by
      rintro c rfl
      simp only [CommonSession.InExchange, CommonSession.phase, henc, Encrypted.phase, reduceCtorEq]
    constructor
    · intro h enc' auth req key algo henc' hstate hout
      cases henc'
      exact h enc auth req key algo henc hstate fun h => hout ((hin _ rfl).mpr h)
    · intro h enc' auth req key algo henc' hstate hout
      rw [henc] at henc'
      cases henc'
      exact h { enc with decompress := decompress } auth req key algo rfl hstate fun h => hout ((hin _ rfl).mp h)

/-- Whatever decompresses a packet, some session is given to `reply`. -/
theorem exists_inflated (handler : Handler) (s : Session) :
    ∃ t, Loop.Inflated (driver handler) s t := by
  cases henc : s.common.encrypted with
  | none => exact ⟨s, .clear henc⟩
  | some enc => exact ⟨_, .encrypted enc.decompress henc⟩

/-- One event: a publickey request that ends the dialogue is vouched for if
and only if it fits the record. -/
theorem event_vouched_iff (handler : Handler) {l : Loop Session}
    (hl : Loop.Kept (fun s => s.common.Sound ∧ Recorded s) (fun _ => True) l) (e : Event (UInt32 × ChannelMsg)) :
    EventVouched handler l e ↔ EventFits handler l e := by
  constructor
  · intro h buf hbuf
    obtain ⟨s, hs⟩ := exists_inflated handler l.session
    exact (fits_inflated hs buf).mpr (fits_of_vouched (h buf hbuf s hs))
  · intro h buf hbuf s hs
    obtain ⟨p, hp, -⟩ := Option.mem_map.mp (Loop.handed_eq l e ▸ hbuf)
    obtain ⟨hsound, hrecorded⟩ := hl.running (Loop.given_running hp)
    have hkept : s.common.Sound ∧ Recorded s := by
      cases hs with
      | clear henc => exact ⟨hsound, hrecorded⟩
      | encrypted decompress henc =>
        exact (driver_keeps handler).inflate _ _ decompress henc ⟨hsound, hrecorded⟩
    exact vouched_of_fits hkept.1 hkept.2 ((fits_inflated hs buf).mp (h buf hbuf))

/-- In every run of the server, the publickey requests that end the dialogue
are vouched for by the handler, with their user and their key, if and only
if those that rely on the record of a probe present the key of the probe. -/
theorem publickey_vouched_iff (config : Config) (handler : Handler) (sshid : Bytes) (world : World)
    (l : Loop Session) (hl : runStream config handler sshid world = .ok l)
    (events : List (Event (UInt32 × ChannelMsg))) :
    Loop.Along (Loop.iterate (driver handler)) (EventVouched handler) l events ↔
      Loop.Along (Loop.iterate (driver handler)) (EventFits handler) l events := by
  obtain ⟨s, output, hs, rfl⟩ := runStream_start hl
  have hkeeps := driver_keeps handler
  have hrecorded : Recorded s := Recorded.of_state fun auth => by
    simp [Session.state, hs.encrypted]
  have hstart := Loop.start_kept hkeeps ⟨hs.sound, hrecorded⟩ output
  exact Loop.along_congr (I := Loop.Kept _ _) (fun _ e h => Loop.iterate_kept hkeeps h e)
    (fun _ e h => event_vouched_iff handler h e) hstart events

end

/-- A run in which requests of the authentication are judged. -/
theorem publickey_vouched_iff_request :
    letI := Concrete.deps
    Loop.Along (Loop.iterate (driver Concrete.handler)) (EventVouched Concrete.handler)
        Concrete.server Concrete.otherKey ↔
      Loop.Along (Loop.iterate (driver Concrete.handler)) (EventFits Concrete.handler)
        Concrete.server Concrete.otherKey :=
  @publickey_vouched_iff Concrete.deps _ _ _ _ _ (Concrete.runStream_eq _) _

/-- A handler that accepts one key of `root`, and a client that proposes that
key and then signs with another one: the dialogue ends, and the handler has never been asked
about the key of the signature. -/
theorem publickey_other_key :
    letI := Concrete.deps
    let l := Concrete.server.run (driver (Concrete.accepting [1])) Concrete.otherKey
    runStream Concrete.serverConfig (Concrete.accepting [1]) Concrete.clientConfig.clientId
      Concrete.world = .ok Concrete.server ∧
    (readSignedRequest (Concrete.publickeyRequest [2] true)).toOption.map (·.pubkey) =
      some (.ed25519 (Concrete.digest [2])) ∧
    l.session.state = some .initCompression ∧
    l.session.callbacks.map (·.1) =
      [.authPublickey (ascii "root") (.ed25519 (Concrete.digest [1]))] :=
  ⟨Concrete.runStream_eq _, by decide +kernel⟩

end Thrussh.Server
