import Thrussh.Client.Admission

/-!
# Where the client's requests come from

A request to authenticate that a client queues is one that its application has asked
for: as it is written first, or signed with the key of the request. Only what the
application returns as signed is queued as it is.
-/

namespace Thrussh.Client

open Deps Lib

section
variable [Deps]

/-- What the application has asked to authenticate with, in the course of some acts. -/
def wishes (acts : List (Act Session Msg)) : List (Bytes × Method) :=
  acts.filterMap fun
    | .message _ (some (.authenticate user method)) => some (user, method)
    | _ => none

/-- A request that follows from what the application has asked for. -/
inductive Wished (app : Application) (wanted : List (Bytes × Method)) (body : Bytes) : Prop where
  /-- It is written for the user and the method. -/
  | asked {user : Bytes} {method : Method} (h : (user, method) ∈ wanted)
    (hbody : body = authRequestPacket user method)
  /-- It is signed with the key. -/
  | signed {user : Bytes} {key : KeyPair} {id : Bytes32} (h : (user, .publicKey key) ∈ wanted)
    (hbody : signaturePacket id user key = .ok body)
  /-- The application has returned it. -/
  | returned {tick : Nat} {s : Session} {data : Bytes} (h : .signed data ∈ app.awaited tick s)
    (hbody : body = data.drop 36)

/-- What a session has to do with the requests of its application. -/
structure Voices (app : Application) (wanted : List (Bytes × Method)) (a : Asking) : Prop where
  /-- The method that is noted. -/
  method : ∀ method ∈ a.method, (a.user, method) ∈ wanted
  /-- The requests that are queued. -/
  requests : ∀ body ∈ a.requests, Wished app wanted body

section
variable {app : Application} {wanted wanted' : List (Bytes × Method)} {a : Asking} {s : Session}
  {buf : Bytes}

theorem Wished.mono {body : Bytes} (h : Wished app wanted body) (hwanted : wanted ⊆ wanted') :
    Wished app wanted' body := by
  cases h with
  | asked h hbody => exact .asked (hwanted h) hbody
  | signed h hbody => exact .signed (hwanted h) hbody
  | returned h hbody => exact .returned h hbody

theorem Voices.mono (h : Voices app wanted a) (hwanted : wanted ⊆ wanted') :
    Voices app wanted' a :=
  ⟨fun method hmethod => hwanted (h.method method hmethod),
    fun body hbody => (h.requests body hbody).mono hwanted⟩

/-- The acceptance of the service writes the request that is noted. -/
theorem Voices.accept (h : Voices app wanted a) (sent : Bool) :
    Voices app wanted (a.accept sent) := by
  unfold Asking.accept
  cases hmethod : a.method with
  | none => exact ⟨fun method hm => h.method method (hmethod ▸ hm), h.requests⟩
  | some method =>
    refine ⟨fun method' hm => h.method method' (hmethod ▸ hm), fun body hbody => ?_⟩
    rcases List.mem_append.mp hbody with hbody | hbody
    · exact h.requests body hbody
    · exact .asked (h.method method hmethod) (List.mem_singleton.mp hbody)

/-- A change of `enc` that queues only such requests. -/
theorem Voices.modifyEnc {c : CommonSession Config} {f : Encrypted → Encrypted}
    (h : Voices app wanted (asking c))
    (hf : ∀ enc, ∃ bodies, (f enc).emitted = enc.emitted ++ bodies ∧
      ∀ body ∈ bodies, Wished app wanted body) :
    Voices app wanted (asking (c.modifyEnc f)) := by
  refine ⟨h.method, fun body hbody => ?_⟩
  obtain ⟨hmem, hhead⟩ := List.mem_filter.mp hbody
  cases henc : c.encrypted with
  | none =>
    rw [emitted_none (by simp only [CommonSession.modifyEnc, henc, Option.map_none])] at hmem
    cases hmem
  | some enc =>
    have hnext : (c.modifyEnc f).encrypted = some (f enc) := by
      simp only [CommonSession.modifyEnc, henc, Option.map_some]
    obtain ⟨bodies, hbodies, hwished⟩ := hf enc
    rw [emitted_some hnext, hbodies] at hmem
    rcases List.mem_append.mp hmem with hmem | hmem
    · refine h.requests body (List.mem_filter.mpr ⟨?_, hhead⟩)
      rwa [emitted_some henc]
    · exact hwished body hmem

/-- A session voices what is wanted. -/
def Voiced (app : Application) (wanted : List (Bytes × Method)) (s : Session) : Prop :=
  Voices app wanted (asking s.common)

/-- A step that keeps what a session voices. -/
def Echoes (app : Application) (wanted : List (Bytes × Method)) (s t : Session) : Prop :=
  Voiced app wanted s → Voiced app wanted t

theorem echoes_of_quiet {α : Type} {x : M α} (hx : Moves (Over (Quiet ConnectionPacket)) x) :
    Moves (Echoes app wanted) x :=
  hx.mono fun _ _ hstep => .single fun h => by
    unfold Voiced
    rw [quiet_asking hstep]
    exact h

theorem echoes_modifyEnc {f : Encrypted → Encrypted}
    (hf : ∀ enc, ∃ bodies, (f enc).emitted = enc.emitted ++ bodies ∧
      ∀ body ∈ bodies, Wished app wanted body) :
    Moves (Echoes app wanted) (modifyEnc f) :=
  Moves.modify fun _ => .single fun h => Voices.modifyEnc h hf

/-- A change of `enc` that queues nothing. -/
theorem echoes_same {f : Encrypted → Encrypted} (hf : ∀ enc, (f enc).emitted = enc.emitted) :
    Moves (Echoes app wanted) (modifyEnc f) :=
  echoes_modifyEnc fun enc => ⟨[], by rw [hf, List.append_nil], by simp⟩

/-- A change of `enc` that queues one such request. -/
theorem echoes_one {f : Encrypted → Encrypted} {body : Bytes}
    (hf : ∀ enc, (f enc).emitted = enc.emitted ++ [body]) (h : Wished app wanted body) :
    Moves (Echoes app wanted) (modifyEnc f) :=
  echoes_modifyEnc fun enc => ⟨[body], hf enc, fun b hb => by
    rw [List.mem_singleton.mp hb]
    exact h⟩

theorem echoes_push {body : Bytes} (h : Wished app wanted body) :
    Moves (Echoes app wanted) (push body) :=
  echoes_one (fun _ => rfl) h

theorem echoes_setAuthMethod : Moves (Echoes app wanted) (setAuthMethod none) :=
  Moves.modify fun _ => .single fun h => ⟨fun _ hm => (by cases hm), h.requests⟩

theorem echoes_sendReply (reply : Reply) : Moves (Echoes app wanted) (sendReply app reply) :=
  echoes_of_quiet (sendReply_moves (P := ConnectionPacket) app reply)

/-- The signature that the application returns is queued as it is. -/
theorem clientAwaitSignature_echoes (key : PublicKey) :
    Moves (Echoes app wanted) (clientAwaitSignature app key) := by
  have hbuffer : ∀ buffer, Moves (Echoes app wanted) (setBuffer buffer) := fun buffer =>
    Moves.modify fun _ => .single id
  refine getEnc_moves.bind fun enc => Moves.get.bind fun s => ?_
  refine (hbuffer _).bind fun _ => (echoes_sendReply _).bind fun _ => ?_
  refine .bind_ok (fun s => .single id) fun s messages t hm => ?_
  cases hm
  refine .lift_bind fun data hdata => (hbuffer _).bind fun _ => ?_
  have hsigned := awaitSigned_mem hdata
  split
  · refine .lift_bind fun body hbody => echoes_one (fun _ => rfl) (.returned hsigned ?_)
    -- a session id as a string has 36 bytes
    have hlength : (sshString enc.sessionId.toList).length = 36 := by simp
    simp only [length_sshString, Vector.length_toList, slice] at hbody
    split at hbody
    · simp only [List.take_length, Except.ok.injEq] at hbody
      exact hbody.symm
    · cases hbody
  · exact .pure _

/-- In the dialogue the method that is noted is signed for, or forgotten. -/
theorem clientReadWaitingAuth_voiced (buf : Bytes) (h : Voiced app wanted s) :
    Ends (clientReadWaitingAuth app buf) s (fun _ t => Voiced app wanted t)
      (Voiced app wanted) := by
  have hkeep : ∀ {α : Type} {x : M α} {u : Session}, Moves (Echoes app wanted) x →
      Voiced app wanted u → Ends x u (fun _ t => Voiced app wanted t) (Voiced app wanted) :=
    fun hx hu => Ends.of_moves hx (fun _ _ hstep ht => hstep ht) hu
  unfold clientReadWaitingAuth
  by_cases hsuccess : buf.head? = some msg.USERAUTH_SUCCESS
  · rw [if_pos hsuccess]
    exact hkeep ((echoes_sendReply _).bind fun _ => echoes_same fun enc => rfl) h
  rw [if_neg hsuccess]
  by_cases hbanner : buf.head? = some msg.USERAUTH_BANNER
  · rw [if_pos hbanner]
    refine hkeep (.bind (.lift _) fun ⟨banner, r⟩ => ?_) h
    dsimp only
    split
    · exact echoes_of_quiet (finish_moves (P := ConnectionPacket) (fun _ => id) app _)
    · exact .pure _
  rw [if_neg hbanner]
  by_cases hfailure : buf.head? = some msg.USERAUTH_FAILURE
  · rw [if_pos hfailure]
    refine hkeep (.bind (.lift _) fun ⟨remainingMethods, r⟩ => ?_) h
    refine .bind (echoes_same fun enc => ?_) fun _ => ?_
    · split <;> rfl
    · refine echoes_setAuthMethod.bind fun _ => (echoes_sendReply _).bind fun _ => ?_
      split
      · exact .throw _
      · exact .pure _
  rw [if_neg hfailure]
  by_cases hpkOk : buf.head? = some msg.USERAUTH_PK_OK
  · rw [if_pos hpkOk]
    refine (hkeep (echoes_same fun enc => ?_) h).bind fun _ u hu => ?_
    · split
      · split <;> rfl
      · rfl
    refine Ends.get_bind ?_
    refine hkeep (getEnc_moves.bind fun enc => echoes_setAuthMethod.bind fun _ => ?_) hu
    cases hmethod : u.common.authMethod with
    | none => exact .pure _
    | some method =>
      have hwanted := hu.method method hmethod
      cases method with
      | password password => exact .pure _
      | publicKey key =>
        exact .lift_bind fun packet hpacket => echoes_push (.signed hwanted hpacket)
      | futurePublicKey key => exact clientAwaitSignature_echoes key
  rw [if_neg hpkOk]
  exact hkeep (.throw _) h

/-- A packet keeps what a session voices. -/
theorem reply_voiced (hs : s.common.Sound) (buf : Bytes) (h : Voiced app wanted s) :
    Ends (reply app buf) s (fun _ t => Voiced app wanted t) (Voiced app wanted) := by
  by_cases hin : s.common.InExchange buf
  · have hkeeps : ∀ t, Asks s t → Voiced app wanted t := by
      rintro t (hsame | ⟨-, hstarted⟩)
      · unfold Voiced
        rw [hsame]
        exact h
      · unfold Voiced
        rw [hstarted]
        exact ⟨h.method, h.requests⟩
    exact (reply_asks app hs hin).mono (fun _ => hkeeps) hkeeps
  refine .congr (reply_state app hs hin) ?_
  cases henc : s.common.encrypted with
  | none => exact absurd (Or.inl henc) hin
  | some enc =>
    cases hstage : enc.state with
    | waitingServiceRequest sent accepted =>
      refine .congr (y := clientReadServiceAccept buf)
        (by simp only [clientReadState, run_bind, run_get, henc, hstage]) ?_
      refine (clientReadServiceAccept_ends henc hstage buf).mono (fun _ t ht => ?_)
        fun t ht => ht.2 ▸ h
      unfold Voiced
      rw [ht]
      split
      · exact h.accept sent
      · exact h
    | waitingAuthRequest auth =>
      refine .congr (y := clientReadWaitingAuth app buf)
        (by simp only [clientReadState, run_bind, run_get, henc, hstage]) ?_
      exact clientReadWaitingAuth_voiced buf h
    | initCompression =>
      refine .congr (y := (throw .panic : M Unit))
        (by simp only [clientReadState, run_bind, run_get, henc, hstage]) ?_
      exact h
    | authenticated =>
      refine .congr (y := clientReadAuthenticated app buf)
        (by simp only [clientReadState, run_bind, run_get, henc, hstage]) ?_
      have hmoves : Moves (Echoes app wanted) (clientReadAuthenticated app buf) :=
        echoes_of_quiet
          (clientReadAuthenticated_moves (P := ConnectionPacket) (fun _ => id) app buf)
      exact Ends.of_moves hmoves (fun _ _ hstep ht => hstep ht) h

/-- Asking to authenticate voices what is asked for, and what was wanted before. -/
theorem writeAuthRequestIfNeeded_echoes {user : Bytes} {method : Method}
    (h : (user, method) ∈ wanted) :
    Moves (Echoes app wanted) (writeAuthRequestIfNeeded user method) := by
  refine writeAuthRequestIfNeeded_of (fun s buffer => id)
    (fun accepted => echoes_same fun enc => rfl) (echoes_push (.asked h rfl))
    (Moves.modify fun s => .single fun hvoiced => ?_)
  refine ⟨fun method' hmethod => ?_, hvoiced.requests⟩
  cases hmethod
  exact h

theorem wishes_append (acts : List (Act Session Msg)) (act : Act Session Msg) :
    wishes (acts ++ [act]) = wishes acts ++ wishes [act] := List.filterMap_append

/-- A local message keeps what a session voices, with what it asks for. -/
theorem message_voiced {acts : List (Act Session Msg)} (m : Option Msg)
    (h : Voiced app (wishes acts) s) :
    Ends (message m) s (fun _ t => Voiced app (wishes (acts ++ [.message s m])) t)
      (Voiced app (wishes (acts ++ [.message s m]))) := by
  rw [wishes_append]
  have hmore : Voiced app (wishes acts ++ wishes [.message s m]) s :=
    Voices.mono h (List.subset_append_left _ _)
  refine Ends.of_moves (r := Echoes app (wishes acts ++ wishes [.message s m])) ?_
    (fun _ _ hstep ht => hstep ht) hmore
  cases m with
  | none => exact .bind (Moves.modify fun _ => .single id) fun _ => .pure _
  | some m =>
    refine .bind ?_ fun _ => .pure _
    by_cases hm : ∃ user method, m = .authenticate user method
    · obtain ⟨user, method, rfl⟩ := hm
      exact writeAuthRequestIfNeeded_echoes
        (List.mem_append_right _ (List.mem_singleton_self (user, method)))
    · exact echoes_of_quiet
        (serveMessage_quiet (fun _ => id) m fun user method heq => hm ⟨user, method, heq⟩)

end

/-- Every program of the client voices what its application wants. -/
theorem driver_voiced (app : Application) : (driver app).Follows (fun acts act => acts ++ [act])
    (fun acts s => s.common.Sound ∧ Voiced app (wishes acts) s)
    fun acts s => Voiced app (wishes acts) s := by
  have hkeeps := (driver_behaves (P := fun _ => True) (fun _ _ => trivial) app
    fun _ _ _ _ => trivial).keeps_sound
  refine ⟨fun h s hs => hs.2, fun h s enc decompress henc hs => ⟨?_, ?_⟩, fun h s buf hs => ?_,
    fun h s m enc hs _ _ => ?_, fun h s hs => ?_, fun h s hs => ⟨?_, ?_⟩⟩
  · exact hkeeps.inflate s enc decompress henc hs.1
  · change Voices app (wishes h) (asking { s.common with
      encrypted := some { enc with decompress := decompress } })
    rw [asking_inflate s.common decompress henc]
    exact hs.2
  · have hsame : wishes (h ++ [.reply s buf]) = wishes h := by
      rw [wishes_append]
      exact List.append_nil _
    rw [hsame]
    exact ((hkeeps.reply s buf hs.1).and (reply_voiced hs.1 buf hs.2)).mono
      (fun _ _ ht => ht) fun _ ht => ht.2
  · exact ((hkeeps.message s m hs.1).and (message_voiced m hs.2)).mono
      (fun _ _ ht => ht) fun _ ht => ht.2
  · have hflush : ∀ t : Session, asking t.common = asking s.common →
        Voiced app (wishes h) t := by
      intro t ht
      unfold Voiced
      rw [ht]
      exact hs.2
    exact ((hkeeps.flush s hs.1).and (onCommon_flush_asking s)).mono
      (fun _ t ht => ⟨ht.1, hflush _ ht.2⟩) fun t ht => hflush t ht.2
  · exact hkeeps.settle s hs.1
  · refine Voices.modifyEnc hs.2 fun enc => ⟨[], ?_, by simp⟩
    rw [List.append_nil]
    split <;> rfl

/-- In every run the client queues only requests that its application has asked for. -/
theorem run_voiced {config : Config} {app : Application} {sshid : Bytes} {world : World}
    {l : Loop Session} (hl : connectStream config app sshid world = .ok l)
    (events : List (Event Msg)) :
    Voiced app (wishes (l.acts (driver app) events)) (l.run (driver app) events).session := by
  obtain ⟨s, output, hs, rfl⟩ := connectStream_start hl
  have hvoiced : Voiced app (wishes []) s := by
    refine ⟨fun method hmethod => ?_, fun body hbody => ?_⟩
    · cases hs.authMethod.symm.trans hmethod
    · simp only [asking, emitted_none hs.encrypted, List.filter_nil] at hbody
      cases hbody
  exact (Loop.run_follows (driver_voiced app)
    (Loop.start_follows (driver_voiced app) ⟨hs.sound, hvoiced⟩ output) events).ended

end

end Thrussh.Client
