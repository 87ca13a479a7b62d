import Thrussh.Dispatch
import Thrussh.Server.Course

/-!
# How many requests are rejected

The rejections of a dialogue are counted in its record, and the configured
limit is not compared with the count. While no inquiry finds the limit
reached, no more requests are rejected than the limit allows, and no question
of the authentication follows behind so many.
-/

namespace Thrussh.Server

open Deps Lib

section
variable [Deps]

/-- How many USERAUTH_FAILURE a session has queued. -/
def Session.failures (s : Session) : Nat :=
  s.emitted.countP (·.head? = some msg.USERAUTH_FAILURE)

/-- The rejections of a session, as they are counted. -/
structure Counted (limit : Nat) (s : Session) : Prop where
  /-- The limit is kept. -/
  bounded : s.failures ≤ limit
  /-- No request is rejected before the dialogue. -/
  early : s.Early → s.failures = 0
  /-- Every rejection is on record. -/
  counted : ∀ d, s.dialogue = some d → s.failures ≤ d.request.rejectionCount

/-- Whether an inquiry that can be read finds the limit not yet reached. -/
def Spared (limit : Nat) (s : Session) (buf : Bytes) : Prop :=
  s.Inquired buf → ∀ d inquiry, s.dialogue = some d →
    readInquiry d.request.current buf = .ok inquiry → d.request.rejectionCount < limit

/-- Whether a packet that finds so many requests rejected puts no question of
the authentication to the handler. -/
def Rests (limit : Nat) (handler : Handler) (s : Session) (buf : Bytes) : Prop :=
  limit ≤ s.failures →
    Asks (fun callback => callback.authenticates = false) s (final (reply handler buf s))

section
variable {handler : Handler} {s t : Session} {buf : Bytes} {limit : Nat} {d : Dialogue}
  {inquiry : Inquiry}

/-- A rejection is counted, and no other answer is. -/
theorem outcome_counts {id : Bytes32} {verdict : Option Auth} {packet : Bytes} {d' : Dialogue}
    (h : inquiry.outcome id d verdict = some (.goes packet d')) :
    packet.head? = some msg.USERAUTH_FAILURE ∧
        d'.request.rejectionCount = d.request.rejectionCount + 1 ∨
      packet.head? ≠ some msg.USERAUTH_FAILURE ∧
        d'.request.rejectionCount = d.request.rejectionCount := by
  have hreject : ∀ {d₁ : Dialogue}, d₁.reject = .goes packet d' →
      d₁.request.rejectionCount = d.request.rejectionCount →
      packet.head? = some msg.USERAUTH_FAILURE ∧
        d'.request.rejectionCount = d.request.rejectionCount + 1 := by
    rintro d₁ ⟨⟩ hsame
    exact ⟨rfl, by rw [← hsame]; rfl⟩
  have hrespond : ∀ (d₁ : Dialogue) (accepted : Outcome) (verdict : Auth),
      d₁.request.rejectionCount = d.request.rejectionCount →
      (accepted = .goes packet d' → packet.head? ≠ some msg.USERAUTH_FAILURE ∧
        d'.request.rejectionCount = d.request.rejectionCount) →
      d₁.respond accepted verdict = some (.goes packet d') →
      packet.head? = some msg.USERAUTH_FAILURE ∧
          d'.request.rejectionCount = d.request.rejectionCount + 1 ∨
        packet.head? ≠ some msg.USERAUTH_FAILURE ∧
          d'.request.rejectionCount = d.request.rejectionCount := by
    intro d₁ accepted verdict hsame haccepted ho
    cases verdict with
    | accept => exact .inr (haccepted (Option.some.inj ho))
    | reject => exact .inl (hreject (Option.some.inj ho) hsame)
    | partialAccept name instructions prompts =>
      cases ho
      refine .inr ⟨?_, hsame⟩
      simp only [infoRequestPacket, List.cons_append, List.head?_cons]
      decide
    | unsupportedMethod => cases ho
  cases inquiry with
  | password user secret =>
    simp only [Inquiry.outcome] at h
    split at h
    · cases h
    · exact .inl (hreject (Option.some.inj h) rfl)
  | signed req =>
    simp only [Inquiry.outcome, Dialogue.judge, Option.some.injEq] at h
    split at h
    · cases h
    · refine .inl (hreject h ?_)
      simp only [Inquiry.noted]
      split
      · rfl
      · rfl
  | probe user algo key pubkey =>
    simp only [Inquiry.outcome] at h
    split at h
    · cases h
      refine .inr ⟨?_, rfl⟩
      simp only [List.cons_append, List.head?_cons]
      decide
    · exact .inl (hreject (Option.some.inj h) rfl)
  | interactive user submethods =>
    obtain ⟨verdict, -, ho⟩ := Option.bind_eq_some_iff.mp h
    exact hrespond _ _ verdict (by rfl) (fun hends => by cases hends) ho
  | response submethods n r =>
    obtain ⟨verdict, -, ho⟩ := Option.bind_eq_some_iff.mp h
    refine hrespond _ _ verdict (by rfl) (fun hgoes => ?_) ho
    cases hgoes
    exact ⟨by decide, rfl⟩
  | refused => exact .inl (hreject (Option.some.inj h) rfl)

/-- What leaves the dialogue aside rejects nothing. -/
theorem Aside.failures (h : Aside s t) : t.failures = s.failures := by
  obtain ⟨packets, hemitted, hpackets⟩ := h.emitted
  unfold Session.failures
  have hnone : packets.countP (·.head? = some msg.USERAUTH_FAILURE) = 0 := by
    rw [List.countP_eq_zero]
    intro packet hpacket
    simpa using hpackets packet hpacket
  rw [hemitted, List.countP_append, hnone, Nat.add_zero]

theorem Aside.keeps_counted (h : Aside s t) (hs : Counted limit s) : Counted limit t := by
  have hfailures := h.failures
  refine ⟨by rw [hfailures]; exact hs.bounded, fun hearly => ?_, fun d hd => ?_⟩
  · rw [hfailures]
    exact hs.early (h.early hearly)
  · rw [hfailures]
    rcases h.dialogue with hsame | ⟨hearly, methods, hbegins⟩
    · exact hs.counted d (by rw [← hsame, hd])
    · rw [hs.early hearly]
      exact Nat.zero_le _

/-- What an inquiry comes to below the limit. -/
theorem Became.counted {asked : List (Callback × Answer)} {o : Outcome} {id : Bytes32}
    {verdict : Option Auth} (ht : Became s t asked o) (hd : s.dialogue = some d)
    (ho : inquiry.outcome id d verdict = some o) (hs : Counted limit s)
    (hspared : d.request.rejectionCount < limit) : Counted limit t := by
  have hcounted := hs.counted d hd
  have hbounded := hs.bounded
  have hfailures : t.failures =
      s.failures + if o.packet.head? = some msg.USERAUTH_FAILURE then 1 else 0 := by
    unfold Session.failures
    rw [ht.emitted, List.countP_append, List.countP_singleton]
    simp only [decide_eq_true_eq]
  have hlate : ¬ t.Early := by
    have hstate := ht.state
    rintro (hnone | ⟨sent, accepted, hwaiting⟩)
    · rw [hnone] at hstate; cases hstate
    · rw [hwaiting] at hstate
      cases o <;> cases hstate
  cases o with
  | ends user =>
    have hsuccess : ¬ (Outcome.ends user).packet.head? = some msg.USERAUTH_FAILURE := by
      simp only [Outcome.packet, List.head?_cons]
      decide
    rw [if_neg hsuccess, Nat.add_zero] at hfailures
    refine ⟨by omega, fun hearly => absurd hearly hlate, fun d' hd' => ?_⟩
    have hstate := (state_of_dialogue hd').1
    rw [ht.state] at hstate
    cases hstate
  | goes packet d' =>
    have hdialogue : ∀ d₁, t.dialogue = some d₁ → d₁.request = d'.request := by
      intro d₁ hd₁
      have hstate := (state_of_dialogue hd₁).1
      rw [ht.state] at hstate
      simpa only [Outcome.state, Option.some.injEq, EncryptedState.waitingAuthRequest.injEq]
        using hstate.symm
    have hpacket : (Outcome.goes packet d').packet = packet := rfl
    rw [hpacket] at hfailures
    rcases outcome_counts ho with ⟨hhead, hcount⟩ | ⟨hhead, hcount⟩
    · rw [if_pos hhead] at hfailures
      refine ⟨by omega, fun hearly => absurd hearly hlate, fun d₁ hd₁ => ?_⟩
      rw [hdialogue d₁ hd₁]
      omega
    · rw [if_neg hhead] at hfailures
      refine ⟨by omega, fun hearly => absurd hearly hlate, fun d₁ hd₁ => ?_⟩
      rw [hdialogue d₁ hd₁]
      omega

/-- A packet that is spared keeps the count. -/
theorem reply_counted (handler : Handler) (hsound : s.common.Sound) (hs : Counted limit s)
    (hspared : Spared limit s buf) : Ends (reply handler buf) s (fun _ t => Counted limit t)
      fun t => t.failures ≤ limit := by
  by_cases hinquired : s.Inquired buf
  · obtain ⟨d, hd⟩ := Option.isSome_iff_exists.mp hinquired.1
    obtain ⟨id, -, htreated⟩ := reply_treated handler hinquired hd
    have hfailed : ∀ {t asked}, Failed s t asked → t.failures ≤ limit := by
      intro t asked ht
      have hbounded := hs.bounded
      unfold Session.failures at hbounded ⊢
      rwa [ht.emitted]
    unfold Ends
    cases hread : readInquiry d.request.current buf with
    | error e =>
      rw [hread] at htreated
      generalize reply handler buf s = result at htreated
      cases htreated with
      | unread ht => exact hfailed ht
    | ok inquiry =>
      have hbelow := hspared hinquired d inquiry hd hread
      rw [hread] at htreated
      generalize reply handler buf s = result at htreated
      cases htreated with
      | untold hq ho ht => exact ht.counted hd ho hs hbelow
      | failed hq hfail ht => exact hfailed ht
      | stuck hq hfail ho ht => exact hfailed ht
      | told hq hfail ho ht => exact ht.counted hd ho hs hbelow
  · exact (reply_aside handler hsound hinquired).mono (fun _ t ht => ht.keeps_counted hs)
      fun t ht => (ht.keeps_counted hs).bounded

/-- A packet that is spared puts no question behind the last rejection. -/
theorem rests_of_spared (handler : Handler) (hsound : s.common.Sound) (hs : Counted limit s)
    (hspared : Spared limit s buf) : Rests limit handler s buf := by
  intro hreached
  by_cases hinquired : s.Inquired buf
  · obtain ⟨d, hd⟩ := Option.isSome_iff_exists.mp hinquired.1
    obtain ⟨id, -, htreated⟩ := reply_treated handler hinquired hd
    have hcounted := hs.counted d hd
    cases hread : readInquiry d.request.current buf with
    | error e =>
      rw [hread] at htreated
      generalize reply handler buf s = result at htreated
      cases htreated with
      | unread ht => exact .silent (by rw [final_error, ht.callbacks, List.append_nil])
    | ok inquiry =>
      have hbelow := hspared hinquired d inquiry hd hread
      omega
  · have haside := (reply_aside handler hsound hinquired).final
    exact haside.asks

end

/-- Every program of the server keeps the count as long as the packets are spared. -/
theorem driver_counts (handler : Handler) (limit : Nat) :
    (driver handler).Follows (within (Spared limit))
      (fun h s => h → s.common.Sound ∧ Counted limit s)
      fun h s => h → True ∧ s.failures ≤ limit := by
  have hsound := (driver_behaves (P := fun _ => True) (fun _ _ => trivial) handler).keeps_sound
  refine ⟨fun h s hs hh => ⟨trivial, (hs hh).2.bounded⟩, fun h s enc decompress henc hs hh => ?_,
    fun h s buf hs => ?_, fun h s m enc hs henc hrekey => ?_, fun h s hs => ?_,
    fun h s hs hh => hs hh⟩
  · refine ⟨hsound.inflate s enc decompress henc (hs hh).1, ?_⟩
    exact (inflate_aside handler decompress henc).keeps_counted (hs hh).2
  · by_cases hh : within (Spared limit) h (.reply s buf : Act Session (UInt32 × ChannelMsg))
    · obtain ⟨hh', hspared⟩ := hh
      refine ((hsound.reply s buf (hs hh').1).and
        (reply_counted handler (hs hh').1 (hs hh').2 hspared)).mono (fun _ t ht _ => ht)
          fun t ht _ => ht
    · exact .of_forall (fun _ _ h => absurd h hh) fun _ h => absurd h hh
  · by_cases hh : h
    · refine ((hsound.message s m (hs hh).1).and (message_aside m s)).mono
        (fun _ t ht _ => ⟨ht.1, ht.2.keeps_counted (hs hh).2⟩)
        fun t ht _ => ⟨ht.1, (ht.2.keeps_counted (hs hh).2).bounded⟩
    · exact .of_forall (fun _ _ h => absurd h hh) fun _ h => absurd h hh
  · by_cases hh : h
    · refine ((hsound.flush s (hs hh).1).and (flush_aside s)).mono
        (fun _ t ht _ => ⟨ht.1,
          (clearWrite_aside handler t).keeps_counted (ht.2.keeps_counted (hs hh).2)⟩)
        fun t ht _ => ⟨ht.1, (ht.2.keeps_counted (hs hh).2).bounded⟩
    · exact .of_forall (fun _ _ h => absurd h hh) fun _ h => absurd h hh

/-- In a run in which no inquiry that can be read finds as many requests
rejected as the configuration allows, no more are rejected, and behind so many
no question of the authentication is put to the handler. -/
theorem failures_bounded (config : Config) (handler : Handler) (sshid : Bytes) (world : World)
    (l : Loop Session) (hl : runStream config handler sshid world = .ok l)
    (events : List (Event (UInt32 × ChannelMsg)))
    (hspared : Loop.Along (Loop.iterate (driver handler)) (fun l e =>
      ∀ p ∈ Loop.given (driver handler) l e, Spared config.maxAuthAttempts p.1 p.2) l events) :
    (l.run (driver handler) events).session.failures ≤ config.maxAuthAttempts ∧
      Loop.Along (Loop.iterate (driver handler)) (fun l e =>
        ∀ p ∈ Loop.given (driver handler) l e,
          Rests config.maxAuthAttempts handler p.1 p.2) l events := by
  obtain ⟨s, output, hs, rfl⟩ := runStream_start hl
  have hfollows := driver_counts handler config.maxAuthAttempts
  have hemitted : s.emitted = [] := emitted_none hs.encrypted
  have hnone : s.failures = 0 := by
    unfold Session.failures
    rw [hemitted, List.countP_nil]
  have hcounted : Counted config.maxAuthAttempts s :=
    ⟨by omega, fun _ => hnone, fun d _ => by omega⟩
  have hstart := Loop.start_within hfollows ⟨hs.sound, hcounted⟩ output
  have hstep := fun l e hl h => Loop.iterate_within hfollows (l := l) (e := e) hl h
  constructor
  · exact (hspared.kept hstep hstart).ended.2
  · refine hspared.imp hstep (fun l e hl h p hp => ?_) hstart
    have hgiven := Loop.given_within hfollows hl hp
    exact rests_of_spared handler hgiven.1 hgiven.2 (h p hp)

end

/-- Whether a packet can be seen to be spared. -/
def sparing [Deps] (limit : Nat) (p : Session × Bytes) : Bool :=
  !p.1.Inquired p.2 || p.1.dialogue.all (·.request.rejectionCount < limit)

theorem spared_of_sparing [Deps] {limit : Nat} {p : Session × Bytes}
    (h : sparing limit p = true) : Spared limit p.1 p.2 := by
  intro hinquired d inquiry hd _
  simpa [sparing, hinquired, hd] using h

/-- A strict server and a client whose only request is rejected. -/
theorem failures_bounded_strict :
    letI := Concrete.deps
    let rejected := Concrete.authenticating ++ [.arrive (Concrete.sealed
      Concrete.interactiveRequest), .read]
    (Concrete.strict.run (driver (Concrete.accepting [1])) rejected).session.failures ≤ 1 ∧
      Loop.Along (Loop.iterate (driver (Concrete.accepting [1]))) (fun l e =>
        ∀ p ∈ Loop.given (driver (Concrete.accepting [1])) l e,
          Rests 1 (Concrete.accepting [1]) p.1 p.2) Concrete.strict rejected := by
  let _ := Concrete.deps
  refine failures_bounded Concrete.strictConfig (Concrete.accepting [1])
    Concrete.clientConfig.clientId Concrete.world Concrete.strict (Concrete.strict_eq _) _ ?_
  refine Loop.Along.imp (P := fun l e =>
    (Loop.given (driver (Concrete.accepting [1])) l e).all (sparing 1) = true)
    (I := fun _ => True) (fun _ _ _ _ => trivial) (fun l e _ h p hp => ?_) trivial
    (by decide +kernel)
  have hsparing : sparing 1 p = true := by simpa [Option.mem_def.mp hp] using h
  exact spared_of_sparing hsparing

/-- A strict server rejects three requests of one client, and asks its handler about each. -/
theorem failures_unbounded :
    letI := Concrete.deps
    let request := [.arrive (Concrete.sealed Concrete.interactiveRequest), .read]
    let l := Concrete.strict.run (driver (Concrete.accepting [1]))
      (Concrete.authenticating ++ request ++ request ++ request)
    runStream Concrete.strictConfig (Concrete.accepting [1]) Concrete.clientConfig.clientId
      Concrete.world = .ok Concrete.strict ∧
    Concrete.strictConfig.maxAuthAttempts = 1 ∧ l.session.failures = 3 ∧
    l.session.callbacks.map (·.1) =
      List.replicate 3 (.authKeyboardInteractive (ascii "root") [] none) :=
  ⟨Concrete.strict_eq _, rfl, by decide +kernel, by decide +kernel⟩

end Thrussh.Server
