import Thrussh.Runs

/-!
# The two roles

Both drivers behave as `Driver.Behaves` says, and both loops begin with a
session that has sealed its first KEXINIT and nothing else.
-/

namespace Thrussh

open Lib

variable [Deps]

/-- A session before its first turn. -/
structure CommonSession.Initial {C : Type} (s : CommonSession C) : Prop where
  /-- The first exchange is not over. -/
  encrypted : s.encrypted = none
  /-- The own KEXINIT is sent. -/
  kex : ∃ k, s.kex = some (.kexInit k) ∧ k.sent = true ∧ k.algo = none
  /-- The pair in use is the clear one. -/
  cipher : s.cipher = clearPair
  /-- Nothing has been flushed. -/
  flushes : s.flushes = []
  /-- Nobody has asked to authenticate. -/
  authMethod : s.authMethod = none
  /-- Nothing else is sealed. -/
  writeBuffer : ∃ payload buffer,
    s.writeBuffer = { SSHBuffer.new.sealed clearPair .kexinit payload with buffer := buffer }

namespace CommonSession.Initial

variable {C : Type} {s t : CommonSession C}

theorem phase_eq (h : s.Initial) : s.phase = .waiting := by
  obtain ⟨k, hk, -, -⟩ := h.kex
  simp only [CommonSession.phase, h.encrypted, hk]
  rfl

theorem sound [SessionConfig C] (h : s.Initial) : s.Sound := by
  obtain ⟨k, hk, hsent, halgo⟩ := h.kex
  refine ⟨fun k' hk' => ?_, fun enc henc => ?_, fun henc => ?_⟩
  · rw [exchanging_none h.encrypted, hk] at hk'
    cases hk'
    cases SessionConfig.role C with
    | client => exact ⟨hsent, halgo⟩
    | server => exact ⟨hsent, halgo⟩
  · rw [h.encrypted] at henc
    cases henc
  · rw [h.encrypted] at henc
    cases henc

/-- Quiet steps leave a session initial. -/
theorem quiet {P : Bytes → Prop} (h : s.Initial) (hquiet : Quiet P s t) : t.Initial := by
  obtain ⟨payload, buffer, hbuffer⟩ := h.writeBuffer
  have henc := hquiet.encrypted
  rw [h.encrypted] at henc
  refine ⟨?_, ?_, ?_, ?_, ?_, payload, t.writeBuffer.buffer, ?_⟩
  · generalize t.encrypted = b at henc
    cases henc
    rfl
  · rw [hquiet.same]
    exact h.kex
  · rw [hquiet.same]
    exact h.cipher
  · rw [hquiet.same]
    exact h.flushes
  · rw [hquiet.same]
    exact h.authMethod
  · rw [hquiet.same, hbuffer]

end CommonSession.Initial

namespace Server

/-- Steps of sessions are steps of their common parts. -/
theorem Over.lift {q : CommonSession Config → CommonSession Config → Prop} {s t : Session}
    (h : Relation.ReflTransGen (Over q) s t) : Relation.ReflTransGen q s.common t.common :=
  h.lift Session.common fun _ _ h => h.common

/-- A packet that belongs to no exchange is served by the stage of the session. -/
theorem reply_state (handler : Handler) {s : Session} {buf : Bytes}
    (hout : ¬ s.common.InExchange buf) : reply handler buf s = serverReadState handler buf s := by
  simp only [CommonSession.InExchange, not_or] at hout
  obtain ⟨hnone, hhead, hdh, hnewKeys⟩ := hout
  cases henc : s.common.encrypted with
  | none => exact absurd henc hnone
  | some enc =>
    simp only [CommonSession.phase, henc, Encrypted.phase] at hdh hnewKeys
    simp only [reply, run_bind, run_get, henc, Option.isNone_some, Bool.false_eq_true, if_false,
      serverReadEncrypted, getEnc, run_pure, if_neg hhead]
    cases hrekey : enc.rekey with
    | none => rfl
    | some k =>
      rw [hrekey] at hdh hnewKeys
      cases k with
      | kexInit k => rfl
      | kexDh k => exact absurd rfl hdh
      | kexDhDone k => exact absurd rfl hdh
      | newKeys k => exact absurd rfl hnewKeys

theorem driver_behaves {P : Bytes → Prop}
    (hP : ∀ body : Bytes, Ordinary body → P body) (handler : Handler) :
    (driver handler).Behaves P where
  common_set _ _ := rfl
  exchange s buf hsound hin := by
    rcases reply_replied handler hsound hin with ⟨t, hexchanged, hreply⟩ | ⟨e, t, packets, hreply⟩
    · exact .inl ⟨{ s with common := t }, hexchanged.advance hsound, hexchanged.sound hsound, hreply⟩
    · exact .inr ⟨e, { s with common := t }, packets, hreply⟩
  serve s buf _ hout := by
    change Relation.ReflTransGen (Turn P) s.common (final (reply handler buf s)).common
    rw [reply_state handler hout]
    exact Over.lift (serverReadState_moves hP handler buf s)
  message s m := Over.lift (message_moves (of_connection hP) m s)
  settle s := by
    refine ⟨rfl, ?_⟩
    change Option.Rel StagedEnc s.common.encrypted s.common.encrypted
    cases s.common.encrypted with
    | none => exact .none
    | some enc => exact .some ⟨rfl, id⟩

/-- The session of the server before its first turn. -/
theorem readSshId_initial {config : Config} {sshid : Bytes} {world : World} {s : Session}
    (h : readSshId config sshid world = .ok s) : s.common.Initial := by
  simp only [readSshId, ownWrite_ok] at h
  cases h
  exact ⟨rfl, ⟨_, rfl, rfl, rfl⟩, rfl, rfl, rfl, _, _, rfl⟩

/-- No question has been put to the handler before the first turn. -/
theorem readSshId_callbacks {config : Config} {sshid : Bytes} {world : World} {s : Session}
    (h : readSshId config sshid world = .ok s) : s.callbacks = [] := by
  simp only [readSshId, ownWrite_ok] at h
  cases h
  rfl

/-- Every loop of the server begins with the session of `read_ssh_id`. -/
theorem runStream_readSshId {config : Config} {handler : Handler} {sshid : Bytes} {world : World}
    {l : Loop Session} (h : runStream config handler sshid world = .ok l) :
    ∃ s output, readSshId config sshid world = .ok s ∧
      l = Loop.start (driver handler) s output := by
  unfold runStream at h
  cases hid : readSshId config sshid world with
  | error e =>
    rw [hid] at h
    cases h
  | ok s =>
    rw [hid] at h
    cases h
    exact ⟨s, _, rfl, rfl⟩

/-- Every loop of the server begins with an initial session. -/
theorem runStream_start {config : Config} {handler : Handler} {sshid : Bytes} {world : World}
    {l : Loop Session} (h : runStream config handler sshid world = .ok l) :
    ∃ s output, s.common.Initial ∧ l = Loop.start (driver handler) s output := by
  obtain ⟨s, output, hid, hl⟩ := runStream_readSshId h
  exact ⟨s, output, readSshId_initial hid, hl⟩

end Server

namespace Client

/-- A packet that belongs to no exchange is served by the stage of the session. -/
theorem reply_state (app : Application) {s : Session} (hsound : s.common.Sound) {buf : Bytes}
    (hout : ¬ s.common.InExchange buf) : reply app buf s = clientReadState app buf s := by
  simp only [CommonSession.InExchange, not_or] at hout
  obtain ⟨hnone, hhead, hdh, hnewKeys⟩ := hout
  cases henc : s.common.encrypted with
  | none => exact absurd henc hnone
  | some enc =>
    simp only [CommonSession.phase, henc, Encrypted.phase] at hdh hnewKeys
    simp only [reply, run_bind, run_get, hsound.first (by rw [henc]; rfl), clientReadEncrypted,
      if_neg hhead, henc]
    cases hrekey : enc.rekey with
    | none => rfl
    | some k =>
      rw [hrekey] at hdh hnewKeys
      cases k with
      | kexInit k => rfl
      | kexDh k => exact absurd rfl hdh
      | kexDhDone k => exact absurd rfl hdh
      | newKeys k => exact absurd rfl hnewKeys

theorem settle_staged (s : Session) : Staged s.common (settle s).common := by
  refine .modifyEnc s.common fun enc => ?_
  split
  · refine ⟨rfl, fun h => ⟨h.server, h.client, ?_, h.decompress⟩⟩
    simp only [h.client, Compression.initCompress]
  · exact ⟨rfl, id⟩

theorem driver_behaves {P : Bytes → Prop}
    (hP : ∀ body : Bytes, Ordinary body → P body) (app : Application)
    (hsigned : ∀ tick s data, .signed data ∈ app.awaited tick s → P (data.drop 36)) :
    (driver app).Behaves P where
  common_set _ _ := rfl
  exchange s buf hsound hin := by
    rcases reply_replied app hsound hin with ⟨t, hexchanged, hreply⟩ | ⟨e, t, packets, hreply⟩
    · exact .inl ⟨t, hexchanged.advance hsound, hexchanged.sound hsound, hreply⟩
    · exact .inr ⟨e, t, packets, hreply⟩
  serve s buf hsound hout := by
    change Relation.ReflTransGen (Turn P) s.common (final (reply app buf s)).common
    rw [reply_state app hsound hout]
    exact (clientReadState_moves hP hsigned buf s).lift Session.common fun _ _ h => h
  message s m := (message_moves hP m s).lift Session.common fun _ _ h => h
  settle := settle_staged

/-- The session of the client before its handler has seen it. -/
theorem readSshId_initial {config : Config} {sshid : Bytes} {world : World} {s : Session}
    (h : readSshId config sshid world = .ok s) : s.common.Initial := by
  simp only [readSshId, ownWrite_ok] at h
  cases h
  exact ⟨rfl, ⟨_, rfl, rfl, rfl⟩, rfl, rfl, rfl, _, _, rfl⟩

/-- Every loop of the client begins with the session of `read_ssh_id`, once its
handler has had its turn with it. -/
theorem connectStream_finish {config : Config} {app : Application} {sshid : Bytes}
    {world : World} {l : Loop Session} (h : connectStream config app sshid world = .ok l) :
    ∃ s t output, readSshId config sshid world = .ok s ∧
      finish app .onSessionConnected s = .ok () t ∧ l = Loop.start (driver app) t output := by
  unfold connectStream at h
  cases hid : readSshId config sshid world with
  | error e =>
    rw [hid] at h
    cases h
  | ok s =>
    rw [hid] at h
    cases hfinish : finish app .onSessionConnected s with
    | error e t =>
      simp only [bind, Except.bind, hfinish] at h
      cases h
    | ok u t =>
      simp only [bind, Except.bind, hfinish] at h
      cases h
      exact ⟨s, t, _, rfl, hfinish, rfl⟩

/-- The turn of the handler is quiet. -/
theorem connectStream_readSshId {config : Config} {app : Application} {sshid : Bytes}
    {world : World} {l : Loop Session} (h : connectStream config app sshid world = .ok l) :
    ∃ s t output, readSshId config sshid world = .ok s ∧
      Relation.ReflTransGen (Over (Quiet fun _ => True)) s t ∧
      l = Loop.start (driver app) t output := by
  obtain ⟨s, t, output, hid, hfinish, hl⟩ := connectStream_finish h
  have hmoves : Moves (Over (Quiet fun _ => True)) (finish app .onSessionConnected) :=
    finish_moves (fun _ _ => trivial) app _
  have hmoved := hmoves s
  rw [hfinish] at hmoved
  exact ⟨s, t, output, hid, hmoved, hl⟩

/-- The turn of the handler leaves an initial session. -/
theorem finish_initial {app : Application} {callback : Callback} {s t : Session}
    (hs : s.common.Initial) (h : finish app callback s = .ok () t) : t.common.Initial := by
  have hmoves : Moves (Over (Quiet fun _ => True)) (finish app callback) :=
    finish_moves (fun _ _ => trivial) app _
  have hinitial : (final (finish app callback s)).common.Initial :=
    (hmoves).invariant (p := fun t => t.common.Initial) (fun _ _ hstep hs => hs.quiet hstep) hs
  rw [h] at hinitial
  exact hinitial

/-- Every loop of the client begins with an initial session. -/
theorem connectStream_start {config : Config} {app : Application} {sshid : Bytes} {world : World}
    {l : Loop Session} (h : connectStream config app sshid world = .ok l) :
    ∃ s output, s.common.Initial ∧ l = Loop.start (driver app) s output := by
  obtain ⟨s, t, output, hid, hfinish, hl⟩ := connectStream_finish h
  exact ⟨t, output, finish_initial (readSshId_initial hid) hfinish, hl⟩

end Client

end Thrussh
