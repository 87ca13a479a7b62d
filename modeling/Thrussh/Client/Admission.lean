import Thrussh.Client.Authentic
import Thrussh.Client.Service

/-!
# When the client is authenticated

A client takes itself for authenticated only after it has been given a
USERAUTH_SUCCESS: no other packet, no local message and no flush ends its
dialogue.
-/

namespace Thrussh.Client

open Deps Lib

section
variable [Deps]

/-- Whether the dialogue of a client has ended. -/
def Session.Admitted (s : Session) : Prop :=
  (asking s.common).state = some .initCompression ∨ (asking s.common).state = some .authenticated

instance (s : Session) : Decidable s.Admitted := inferInstanceAs (Decidable (_ ∨ _))

/-- A step that does not end the dialogue. -/
def Defers (s t : Session) : Prop := t.Admitted → s.Admitted

section
variable {s t : Session}

theorem Defers.of_state (h : t.common.encrypted.map (·.state) = s.common.encrypted.map (·.state)) :
    Defers s t := by
  intro ht
  unfold Session.Admitted asking at ht ⊢
  rwa [h] at ht

theorem Defers.of_asking (h : asking t.common = asking s.common) : Defers s t := by
  intro ht
  unfold Session.Admitted at ht ⊢
  rwa [h] at ht

/-- A stage before the end of the dialogue. -/
theorem not_admitted {state : EncryptedState} (h : (asking t.common).state = some state)
    (hinit : state ≠ .initCompression) (hauthenticated : state ≠ .authenticated) :
    ¬ t.Admitted := by
  rintro (hstate | hstate)
  · exact hinit (Option.some.inj (h.symm.trans hstate))
  · exact hauthenticated (Option.some.inj (h.symm.trans hstate))

/-- Quiet programs do not end the dialogue. -/
theorem defers_of_quiet {P : Bytes → Prop} {α : Type} {x : M α} (hx : Moves (Over (Quiet P)) x) :
    Moves Defers x :=
  hx.mono fun _ _ h => .single (.of_state h.state_eq)

theorem defers_modify {f : Session → Session}
    (h : ∀ s, (f s).common.encrypted = s.common.encrypted) : Moves Defers (modify f : M Unit) :=
  Moves.modify fun s => .single (.of_state (by rw [h]))

/-- A change of `enc` that does not end the dialogue. -/
theorem defers_modifyEnc {f : Encrypted → Encrypted}
    (h : ∀ enc, (f enc).state = enc.state ∨
      (f enc).state ≠ .initCompression ∧ (f enc).state ≠ .authenticated) :
    Moves Defers (modifyEnc f) := by
  refine Moves.modify fun s => .single ?_
  cases henc : s.common.encrypted with
  | none =>
    refine .of_state ?_
    simp only [CommonSession.modifyEnc, henc, Option.map_none]
  | some enc =>
    rcases h enc with hsame | ⟨hinit, hauthenticated⟩
    · refine .of_state ?_
      simp only [CommonSession.modifyEnc, henc, Option.map_some, hsame]
    · have hstate : (asking (s.common.modifyEnc f)).state = some (f enc).state := by
        simp only [asking, CommonSession.modifyEnc, henc, Option.map_some]
      exact fun ht => absurd ht (not_admitted hstate hinit hauthenticated)

end

variable {app : Application} {s : Session} {buf : Bytes}

/-- In the dialogue only USERAUTH_SUCCESS ends it. -/
theorem clientReadWaitingAuth_defers (hsuccess : buf.head? ≠ some msg.USERAUTH_SUCCESS) :
    Moves Defers (clientReadWaitingAuth app buf) := by
  have hreply : ∀ reply, Moves Defers (sendReply app reply) := fun reply =>
    defers_of_quiet (sendReply_moves (P := fun _ => True) (q := Quiet fun _ => True) app reply)
  have hmethod : ∀ method, Moves Defers (setAuthMethod method) := fun _ =>
    defers_modify fun _ => rfl
  unfold clientReadWaitingAuth
  rw [if_neg hsuccess]
  by_cases hbanner : buf.head? = some msg.USERAUTH_BANNER
  · rw [if_pos hbanner]
    refine .bind (.lift _) fun ⟨banner, r⟩ => ?_
    dsimp only
    split
    · exact defers_of_quiet (finish_moves (P := fun _ => True) (fun _ _ => trivial) app _)
    · exact .pure _
  rw [if_neg hbanner]
  by_cases hfailure : buf.head? = some msg.USERAUTH_FAILURE
  · rw [if_pos hfailure]
    refine .bind (.lift _) fun ⟨remainingMethods, r⟩ => ?_
    refine .bind (defers_modifyEnc fun enc => ?_) fun _ => ?_
    · split
      · exact .inr ⟨by simp, by simp⟩
      · exact .inl rfl
    · refine .bind (hmethod _) fun _ => .bind (hreply _) fun _ => ?_
      split
      · exact .throw _
      · exact .pure _
  rw [if_neg hfailure]
  by_cases hpkOk : buf.head? = some msg.USERAUTH_PK_OK
  · rw [if_pos hpkOk]
    refine .bind (defers_modifyEnc fun enc => ?_) fun _ => Moves.get.bind fun s => ?_
    · split
      · split
        · exact .inr ⟨by simp, by simp⟩
        · exact .inl rfl
      · exact .inl rfl
    · refine getEnc_moves.bind fun enc => .bind (hmethod _) fun _ => ?_
      split
      · exact .lift_bind fun packet _ => defers_modifyEnc fun enc => .inl rfl
      · exact defers_of_quiet (clientAwaitSignature_moves (P := fun _ => True)
          (q := Quiet fun _ => True) (fun _ _ _ _ => trivial) _)
      · exact .pure _
  rw [if_neg hpkOk]
  exact .throw _

/-- A packet ends the dialogue only if it is a USERAUTH_SUCCESS. -/
theorem reply_admits (app : Application) (hs : s.common.Sound) (buf : Bytes) :
    Ends (reply app buf) s
      (fun _ t => t.Admitted → s.Admitted ∨ buf.head? = some msg.USERAUTH_SUCCESS)
      fun t => t.Admitted → s.Admitted ∨ buf.head? = some msg.USERAUTH_SUCCESS := by
  by_cases hin : s.common.InExchange buf
  · have hkeeps : ∀ t, Asks s t → t.Admitted →
        s.Admitted ∨ buf.head? = some msg.USERAUTH_SUCCESS := by
      rintro t (hsame | ⟨-, hstarted⟩) ht
      · exact .inl (Defers.of_asking hsame ht)
      · exact absurd ht (not_admitted (by rw [hstarted]) (by simp) (by simp))
    exact (reply_asks app hs hin).mono (fun _ => hkeeps) hkeeps
  refine .congr (reply_state app hs hin) ?_
  cases henc : s.common.encrypted with
  | none => exact absurd (Or.inl henc) hin
  | some enc =>
    have hstate : (asking s.common).state = some enc.state := by
      simp only [asking, henc, Option.map_some]
    cases hstage : enc.state with
    | waitingServiceRequest sent accepted =>
      rw [hstage] at hstate
      have hwaiting : ¬ s.Admitted := not_admitted hstate (by simp) (by simp)
      refine .congr (y := clientReadServiceAccept buf)
        (by simp only [clientReadState, run_bind, run_get, henc, hstage]) ?_
      refine (clientReadServiceAccept_ends henc hstage buf).mono (fun _ t ht hadmitted => ?_)
        fun t hfailed hadmitted => ?_
      · refine absurd hadmitted ?_
        by_cases haccepts : acceptsService buf = true
        · rw [if_pos haccepts] at ht
          have hnext : (asking t.common).state = some (.waitingServiceRequest sent true) ∨
              (asking t.common).state = some (.waitingAuthRequest ⟨.all, false, none, 0⟩) := by
            rw [ht]
            unfold Asking.accept
            cases (asking s.common).method with
            | none => exact .inl rfl
            | some method => exact .inr rfl
          rcases hnext with hnext | hnext
          · exact not_admitted hnext (by simp) (by simp)
          · exact not_admitted hnext (by simp) (by simp)
        · rw [if_neg haccepts] at ht
          exact fun hadmitted => hwaiting (Defers.of_asking ht hadmitted)
      · obtain ⟨-, ht⟩ := hfailed
        rw [ht] at hadmitted
        exact .inl hadmitted
    | waitingAuthRequest auth =>
      by_cases hsuccess : buf.head? = some msg.USERAUTH_SUCCESS
      · exact .of_forall (fun _ _ _ => .inr hsuccess) fun _ _ => .inr hsuccess
      · refine .congr (y := clientReadWaitingAuth app buf)
          (by simp only [clientReadState, run_bind, run_get, henc, hstage]) ?_
        refine Ends.of_moves (p := fun t => t.Admitted → s.Admitted ∨ buf.head? = _)
          (clientReadWaitingAuth_defers hsuccess) (fun t u hstep ht hu => ht (hstep hu)) .inl
    | initCompression =>
      have hadmitted : s.Admitted := .inl (by rw [hstate, hstage])
      exact .of_forall (fun _ _ _ => .inl hadmitted) fun _ _ => .inl hadmitted
    | authenticated =>
      have hadmitted : s.Admitted := .inr (by rw [hstate, hstage])
      exact .of_forall (fun _ _ _ => .inl hadmitted) fun _ _ => .inl hadmitted

/-- Asking to authenticate seals the service request if it was not sent, queues the request if the
service was accepted, and notes what was asked for. -/
theorem writeAuthRequestIfNeeded_of {R : Session → Session → Prop} {user : Bytes} {method : Method}
    (hseals : ∀ s buffer, R s { s with common := { s.common with writeBuffer := buffer } })
    (hsent : ∀ accepted, Moves R (modifyEnc fun enc =>
      { enc with state := .waitingServiceRequest true accepted }))
    (hpush : Moves R (push (authRequestPacket user method)))
    (hnoted : Moves R (modify fun s : Session => { s with common := { s.common with
      authUser := user, authMethod := some method } } : M Unit)) :
    Moves R (writeAuthRequestIfNeeded user method) := by
  have hservice : Moves R requestService := by
    refine Moves.get.bind fun s => ?_
    cases s.common.encrypted with
    | none => exact .pure _
    | some enc =>
      dsimp only
      split
      · refine .bind (fun s => ?_) fun _ => hsent _
        rcases sealPacket_cases .service serviceRequest s with hseal | hseal
        · rw [hseal]
          exact .single (hseals s _)
        · rw [hseal]
          exact .refl
      · exact .pure _
  refine hservice.bind fun _ => Moves.get.bind fun s => ?_
  cases s.common.encrypted with
  | none => exact hnoted
  | some enc =>
    dsimp only
    split
    · exact hpush.bind fun _ => hnoted
    · exact hnoted

/-- No local message ends the dialogue. -/
theorem message_defers (m : Option Msg) : Moves Defers (message m) := by
  have hserve : ∀ m, Moves Defers (serveMessage m) := by
    intro m
    by_cases hm : ∃ user method, m = .authenticate user method
    · obtain ⟨user, method, rfl⟩ := hm
      exact writeAuthRequestIfNeeded_of (fun s buffer => .of_state rfl)
        (fun accepted => defers_modifyEnc fun enc => .inr ⟨by simp, by simp⟩)
        (defers_modifyEnc fun enc => .inl rfl) (defers_modify fun s => rfl)
    · exact defers_of_quiet (P := ConnectionPacket)
        (serveMessage_quiet (fun _ => id) m fun user method heq => hm ⟨user, method, heq⟩)
  cases m with
  | none =>
    have hleft : Moves Defers (modify fun s : Session => { s with common := { s.common with
        disconnected := true } } : M Unit) := defers_modify fun _ => rfl
    exact hleft.bind fun _ => .pure _
  | some m => exact (hserve m).bind fun _ => .pure _

/-- Whether the client was given a USERAUTH_SUCCESS. -/
def ToldSuccess (acts : List (Act Session Msg)) : Prop :=
  ∃ buf ∈ heard acts, buf.head? = some msg.USERAUTH_SUCCESS

/-- Every program of the client ends the dialogue only after a USERAUTH_SUCCESS, unless it had ended
before. -/
theorem driver_told (app : Application) (before : Prop) :
    (driver app).Follows (fun acts act => acts ++ [act])
      (fun acts s => s.common.Sound ∧ (s.Admitted → before ∨ ToldSuccess acts))
      fun acts s => s.Admitted → before ∨ ToldSuccess acts := by
  have hkeeps := (driver_behaves (P := fun _ => True) (fun _ _ => trivial) app
    fun _ _ _ _ => trivial).keeps_sound
  have hmore : ∀ acts act, before ∨ ToldSuccess acts → before ∨ ToldSuccess (acts ++ [act]) := by
    rintro acts act (hbefore | ⟨buf, hbuf, hhead⟩)
    · exact .inl hbefore
    · refine .inr ⟨buf, ?_, hhead⟩
      rw [heard, List.filterMap_append]
      exact List.mem_append_left _ hbuf
  refine ⟨fun h s hs => hs.2, fun h s enc decompress henc hs => ⟨?_, fun hadmitted => hs.2 ?_⟩,
    fun h s buf hs => ?_, fun h s m enc hs _ _ => ?_, fun h s hs => ?_, fun h s hs => ⟨?_, ?_⟩⟩
  · exact hkeeps.inflate s enc decompress henc hs.1
  · exact Defers.of_asking (asking_inflate s.common decompress henc) hadmitted
  · have htold : ∀ t : Session, (t.Admitted → s.Admitted ∨ buf.head? = some msg.USERAUTH_SUCCESS) →
        t.Admitted → before ∨ ToldSuccess (h ++ [.reply s buf]) := by
      intro t ht hadmitted
      rcases ht hadmitted with hold | hhead
      · exact hmore _ _ (hs.2 hold)
      · exact .inr ⟨buf, by simp [heard], hhead⟩
    exact ((hkeeps.reply s buf hs.1).and (reply_admits app hs.1 buf)).mono
      (fun _ t ht => ⟨ht.1, htold t ht.2⟩) fun t ht => htold t ht.2
  · have hdefers : Ends (message m) s (fun _ t => Defers s t) (Defers s) :=
      Ends.of_moves (message_defers m) (fun t u hstep ht hu => ht (hstep hu)) id
    exact ((hkeeps.message s m hs.1).and hdefers).mono
      (fun _ t ht => ⟨ht.1, fun hadmitted => hmore _ _ (hs.2 (ht.2 hadmitted))⟩)
      fun t ht hadmitted => hmore _ _ (hs.2 (ht.2 hadmitted))
  · exact ((hkeeps.flush s hs.1).and (onCommon_flush_asking s)).mono
      (fun _ t ht => ⟨ht.1, fun hadmitted => hs.2 (Defers.of_asking (t := t) ht.2 hadmitted)⟩)
      fun t ht hadmitted => hs.2 (Defers.of_asking ht.2 hadmitted)
  · exact hkeeps.settle s hs.1
  · intro hadmitted
    by_cases hinit : (asking s.common).state = some .initCompression
    · exact hs.2 (.inl hinit)
    · exact hs.2 (Defers.of_asking (settle_asking hinit) hadmitted)

/-- In the course of every run nothing but a USERAUTH_SUCCESS ends the dialogue of the client: no
other packet, no local message, no timeout and no exchange. -/
theorem told_since {config : Config} {app : Application} {sshid : Bytes} {world : World}
    {l : Loop Session} (hl : connectStream config app sshid world = .ok l)
    (events more : List (Event Msg))
    (hadmitted : ((l.run (driver app) events).run (driver app) more).session.Admitted) :
    (l.run (driver app) events).session.Admitted ∨
      ToldSuccess ((l.run (driver app) events).acts (driver app) more) := by
  obtain ⟨s, output, hsound, -, hnone, rfl⟩ := connectStream_known app hl
  have hkeeps := (driver_behaves (P := fun _ => True) (fun _ _ => trivial) app
    fun _ _ _ _ => trivial).keeps_sound
  have hkept := Loop.run_kept hkeeps (Loop.start_kept hkeeps hsound output) events
  exact (Loop.run_follows (driver_told app _) (h := [])
    ⟨fun hrunning => ⟨hkept.running hrunning, .inl⟩, .inl⟩ more).ended hadmitted

/-- In every run the client is authenticated only after it was given a USERAUTH_SUCCESS. -/
theorem told_of_admitted {config : Config} {app : Application} {sshid : Bytes} {world : World}
    {l : Loop Session} (hl : connectStream config app sshid world = .ok l)
    (events : List (Event Msg)) (hadmitted : (l.run (driver app) events).session.Admitted) :
    ToldSuccess (l.acts (driver app) events) := by
  obtain ⟨s, output, hsound, -, hnone, rfl⟩ := connectStream_known app hl
  have hstart : s.Admitted → False ∨ ToldSuccess [] := by
    intro hadmitted
    rcases hadmitted with hstate | hstate
    · simp [asking, hnone] at hstate
    · simp [asking, hnone] at hstate
  exact ((Loop.run_follows (driver_told app False)
    (Loop.start_follows (driver_told app False) ⟨hsound, hstart⟩ output) events).ended
      hadmitted).resolve_left id

end

end Thrussh.Client
