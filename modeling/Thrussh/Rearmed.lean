import Thrussh.Rearming
import Thrussh.SessionId

/-!
# When a re-exchange rearms its limits

The client resets both counters with the NEWKEYS of a re-exchange. The server
resets neither: behind its first re-exchange the bytes and the time of the
whole connection count, and every flush may start another one.
-/

namespace Thrussh

open Deps Lib

section
variable [Deps] {C S M : Type} {d : Driver C S M} {acts : List (Act S M)}

theorem installs_of_phase {s : S} (h : (d.common s).phase ≠ .newKeys) (buf : Bytes) :
    d.installs (.reply s buf : Act S M) = false := by
  simp only [Driver.installs, h, decide_false, Bool.false_and]

theorem installs_of_head {buf : Bytes} (h : buf.head? ≠ some msg.NEWKEYS) (s : S) :
    d.installs (.reply s buf : Act S M) = false := by
  simp only [Driver.installs, h, decide_false, Bool.and_false]

/-- Moving an exchange on seals nothing. -/
theorem keeping_setExchanging (s : CommonSession C) (k : Kex) : Keeping s (s.setExchanging k) := by
  cases henc : s.encrypted with
  | none =>
    rw [setExchanging_none henc]
    exact ⟨.of_same rfl rfl, rfl⟩
  | some enc =>
    rw [setExchanging_some henc]
    exact ⟨.of_same rfl rfl, by simp only [CommonSession.rekeyedAt, henc, Option.map_some]⟩

theorem Keeping.trans {s t u : CommonSession C} (h : Keeping s t) (h' : Keeping t u) :
    Keeping s u := ⟨h.counts.trans h'.counts, h'.time.trans h.time⟩

/-- Sealing the packets of an exchange and moving it on. -/
theorem keeping_sealEach (s : CommonSession C) (packets : List (Origin × Bytes)) (tick : Nat)
    (k : Kex) : Keeping s ({ s with
      writeBuffer := s.writeBuffer.sealEach s.cipher packets, tick := tick }.setExchanging k) := by
  have hsealed : Keeping s { s with
      writeBuffer := s.writeBuffer.sealEach s.cipher packets, tick := tick } :=
    ⟨counts_sealEach _ _ _, rfl⟩
  exact hsealed.trans (keeping_setExchanging _ k)

/-- An exchange that goes on installs nothing. -/
theorem installs_of_exchanging {s : S} {k : Kex} (hk : (d.common s).exchanging = some k)
    (h : k.phase ≠ .newKeys) (buf : Bytes) : d.installs (.reply s buf : Act S M) = false := by
  refine installs_of_phase ?_ buf
  rw [phase_of_exchanging hk]
  exact h

/-- A packet that installs nothing and counts what it seals. -/
theorem Tallied.exchanged {s : S} {buf : Bytes} {t : CommonSession C}
    (h : Tallied (d.sealedAt acts) (d.installedAt acts) (d.common s))
    (hnot : d.installs (.reply s buf : Act S M) = false) (hkeeping : Keeping (d.common s) t) :
    Tallied (d.sealedAt (acts ++ [.reply s buf])) (d.installedAt (acts ++ [.reply s buf])) t := by
  obtain ⟨hat, hsealed⟩ := installed_append acts hnot
  rw [hat, hsealed]
  exact h.keep hkeeping

end

/-! ### The server -/

namespace Server

section
variable [Deps] {handler : Handler} {s : Session} {t : CommonSession Config} {buf : Bytes}

/-- A packet of the server's exchange only counts. -/
theorem Exchanged.counts {s : CommonSession Config} (h : Exchanged s buf t) :
    Counts s.writeBuffer t.writeBuffer := by
  cases h with
  | skip h => exact .of_same rfl rfl
  | answer hk hhead hread hkey =>
    exact (keeping_setExchanging { s with tick := s.tick + 1 } _).counts
  | serve henc hrekey hex hhead hread hkey => exact counts_sealEach _ _ _
  | guess hk hhead hguess => exact (keeping_setExchanging { s with tick := s.tick + 1 } _).counts
  | finish hk hreplies => exact (keeping_sealEach s _ _ _).counts
  | first henc hk hhead => exact .of_same rfl rfl
  | install henc hrekey hhead => exact .of_same rfl rfl
  | drop henc hrekey hphase hhead => exact .of_same rfl rfl

/-- A packet that completes no re-exchange leaves the counters in agreement. -/
theorem Exchanged.counted {acts : List (Act Session (UInt32 × ChannelMsg))}
    (h : Exchanged s.common buf t)
    (hnot : (driver handler).completes (.reply s buf) = false)
    (hcounted : Tallied ((driver handler).sealedAt acts) ((driver handler).installedAt acts)
      s.common) :
    Tallied ((driver handler).sealedAt (acts ++ [.reply s buf]))
      ((driver handler).installedAt (acts ++ [.reply s buf])) t := by
  have hticked : ∀ k, Keeping s.common
      ({ s.common with tick := s.common.tick + 1 }.setExchanging k) := by
    intro k
    have htick : Keeping s.common { s.common with tick := s.common.tick + 1 } :=
      ⟨.of_same rfl rfl, rfl⟩
    exact htick.trans (keeping_setExchanging _ k)
  cases h with
  | skip h =>
    refine hcounted.exchanged (installs_of_phase ?_ buf) ⟨.of_same rfl rfl, rfl⟩
    intro hphase
    rcases h with hlost | ⟨-, hwaiting, -⟩
    · cases hphase.symm.trans hlost
    · cases hphase.symm.trans hwaiting
  | answer hk hhead hread hkey =>
    exact hcounted.exchanged (installs_of_exchanging hk (by simp [Kex.phase]) buf) (hticked _)
  | @serve enc ex names key henc hrekey hex hhead hread hkey =>
    have hnotHead : buf.head? ≠ some msg.NEWKEYS := by
      rw [hhead]
      decide
    have htime : s.common.rekeyedAt = some enc.lastRekey := by
      simp only [CommonSession.rekeyedAt, henc, Option.map_some]
    exact hcounted.exchanged (installs_of_head hnotHead s) ⟨counts_sealEach _ _ _, htime.symm⟩
  | guess hk hhead hguess =>
    exact hcounted.exchanged (installs_of_exchanging hk (by simp [Kex.phase]) buf) (hticked _)
  | finish hk hreplies =>
    exact hcounted.exchanged (installs_of_exchanging hk (by simp [Kex.phase]) buf)
      (keeping_sealEach s.common _ _ _)
  | @first newkeys henc hk hhead =>
    have hphase : s.common.phase = .newKeys :=
      phase_of_exchanging ((exchanging_none henc).trans hk)
    have hinstalls : (driver handler).installs (.reply s buf) = true := by
      simp only [Driver.installs, driver, hphase, hhead, decide_true, Bool.and_true]
    rw [installedAt_append hinstalls, sealedAt_append_first henc]
    refine ⟨hcounted.began, hcounted.bytes, fun at' hat => ?_⟩
    cases hat
    rfl
  | @install enc newkeys henc hrekey hhead =>
    have hphase : s.common.phase = .newKeys :=
      phase_of_exchanging ((exchanging_some henc).trans hrekey)
    simp only [Driver.completes, Driver.installs, driver, Act.session, hphase, hhead, henc,
      decide_true, Bool.and_true, Option.isSome_some, Bool.true_eq_false] at hnot
  | @drop enc k henc hrekey hphase hhead =>
    have hnotHead : buf.head? ≠ some msg.NEWKEYS := by
      rw [hhead]
      decide
    have htime : s.common.rekeyedAt = some enc.lastRekey := by
      simp only [CommonSession.rekeyedAt, henc, Option.map_some]
    exact hcounted.exchanged (installs_of_head hnotHead s) ⟨.of_same rfl rfl, htime.symm⟩

/-- The server's turns. -/
theorem driver_courses (handler : Handler) : (driver handler).Courses Exchanged where
  exchange s buf hs hin := by
    rcases reply_replied handler hs hin with ⟨t, hexchanged, hreply⟩ | ⟨e, t, packets, hreply⟩
    · exact .inl ⟨{ s with common := t }, hexchanged, hreply⟩
    · exact .inr ⟨e, { s with common := t }, packets, hreply⟩
  serve s buf _ hout := by
    change Relation.ReflTransGen Small s.common (final (reply handler buf s)).common
    rw [reply_state handler hout]
    exact Over.lift (serverReadState_moves (fun _ _ => trivial) handler buf s)

/-- The server's counter of bytes never goes down. -/
theorem course_counts {act : Act Session (UInt32 × ChannelMsg)}
    (h : (driver handler).Course Exchanged act t) :
    Counts act.session.common.writeBuffer t.writeBuffer := by
  have hsteps : ∀ {u v : CommonSession Config}, Relation.ReflTransGen Small u v →
      Counts u.writeBuffer v.writeBuffer := by
    intro u v huv
    induction huv with
    | refl => exact .of_same rfl rfl
    | tail _ hstep ih => exact ih.trans hstep.keeping.counts
  cases h with
  | exchange hin hexchange hrest => exact hexchange.counts.trans (hsteps hrest)
  | serve hout hrest => exact hsteps hrest
  | message hrest => exact hsteps hrest

/-- The first KEXINIT has been counted. -/
theorem readSshId_counts {config : Config} {sshid : Bytes} {world : World} {s : Session}
    (h : readSshId config sshid world = .ok s) : 0 < s.common.writeBuffer.bytes := by
  simp only [readSshId, ownWrite_ok] at h
  cases h
  change 0 < 0 + (writeKex config.preferred (world.rand 0).cookie).length
  simp only [writeKex, List.length_append, List.length_cons]
  omega

/-- Something has been counted on every session of a run. -/
theorem follows_positive (handler : Handler) :
    (driver handler).Follows (fun _ _ => ())
      (fun _ s => s.common.Sound ∧ 0 < s.common.writeBuffer.bytes) (fun _ _ => True) := by
  have hbehaves := driver_behaves (P := fun _ => True) (fun _ _ => trivial) handler
  refine (driver_courses handler).follows hbehaves outside_keeping _ (fun _ s => 0 < s.writeBuffer.bytes)
    (fun _ act u _ hcourse hpositive => ?_) fun _ s t hkeeping hpositive => ?_
  · obtain ⟨new, -, hbytes⟩ := course_counts hcourse
    change 0 < act.session.common.writeBuffer.bytes at hpositive
    omega
  · obtain ⟨new, -, hbytes⟩ := hkeeping.counts
    omega

/-- No NEWKEYS rearms the server. -/
theorem not_rearms (hs : s.common.Sound) (hpositive : 0 < s.common.writeBuffer.bytes)
    (h : (driver handler).installs (.reply s buf) = true) :
    ¬ (driver handler).Rearms (.reply s buf) := by
  intro hrearms
  have hzero : (final (reply handler buf s)).common.writeBuffer.bytes = 0 := hrearms.1
  have hphase : s.common.phase = .newKeys := by
    simp only [Driver.installs, driver, Bool.and_eq_true] at h
    exact of_decide_eq_true h.1
  have hcounts : Counts s.common.writeBuffer (final (reply handler buf s)).common.writeBuffer := by
    rcases reply_replied handler hs (.inr (.inr (.inr hphase))) with
      ⟨t, hexchanged, hreply | hreply⟩ | ⟨e, t, packets, hreply, hseals⟩
    · rw [hreply, final_ok]
      exact hexchanged.counts
    · have hflush : (final (reply handler buf s)).common = final (flush t) := by
        rw [hreply]
        unfold onCommon zoom
        cases flush t <;> rfl
      rw [hflush]
      exact hexchanged.counts.trans (flush_final t).keeping.counts
    · rw [hreply, final_error]
      exact hseals.keeping.counts
  obtain ⟨new, -, hbytes⟩ := hcounts
  omega

/-- A run of the server respects the limits if and only if no re-exchange is
completed in it. -/
theorem rearming_iff {config : Config} {sshid : Bytes} {world : World} {l : Loop Session}
    (hl : runStream config handler sshid world = .ok l)
    (events : List (Event (UInt32 × ChannelMsg))) :
    l.Rearming (driver handler) Exchanged events ↔
      Loop.Along (Loop.iterate (driver handler)) (fun l e =>
        ∀ act ∈ Loop.acted (driver handler) l e, (driver handler).completes act = false) l events := by
  obtain ⟨s, output, hid, rfl⟩ := runStream_readSshId hl
  have hs := readSshId_initial hid
  have hbehaves := driver_behaves (P := fun _ => True) (fun _ _ => trivial) handler
  constructor
  · intro hrearming
    refine along_of_at fun before e after hevents act hact => ?_
    by_contra hcompletes
    rw [Bool.not_eq_false] at hcompletes
    have hrearms := (hrearming before e after hevents act hact).2 hcompletes
    have hfollows := follows_positive handler
    have hpositive := readSshId_counts hid
    have hstart := Loop.start_follows hfollows (h := ()) ⟨hs.sound, hpositive⟩ output
    have hsession := acted_follows (h := ()) hfollows
      (Loop.run_follows (h := ()) hfollows hstart before) hact
    cases act with
    | message s m => cases hcompletes
    | reply s buf =>
      simp only [Driver.completes, Bool.and_eq_true] at hcompletes
      exact not_rearms hsession.1 hsession.2 hcompletes.1 hrearms
  · intro hnever
    refine (driver_courses handler).rearming hbehaves _
      (fun acts s buf t hexchanged hnot hcounted => hexchanged.counted hnot hcounted)
      (fun act hnot _ hcompletes => ?_) hs output events hnever
    rw [hnot] at hcompletes
    cases hcompletes

end

end Server

/-! ### The client -/

namespace Client

section
variable [Deps] {app : Application} {s : Session} {t : CommonSession Config} {buf : Bytes}

/-- Every packet of the client's exchange leaves the counters in agreement. -/
theorem Exchanged.counted {acts : List (Act Session Msg)} (h : Exchanged s.common buf t)
    (hcounted : Tallied ((driver app).sealedAt acts) ((driver app).installedAt acts) s.common) :
    Tallied ((driver app).sealedAt (acts ++ [.reply s buf]))
      ((driver app).installedAt (acts ++ [.reply s buf])) t := by
  cases h with
  | skip h =>
    refine hcounted.exchanged (installs_of_phase ?_ buf) ⟨.of_same rfl rfl, rfl⟩
    intro hphase
    cases hphase.symm.trans h
  | answer hk hhead hread =>
    exact hcounted.exchanged (installs_of_exchanging hk (by simp [Kex.phase]) buf)
      (keeping_sealEach s.common _ _ _)
  | guess hk hhead hguess =>
    exact hcounted.exchanged (installs_of_exchanging hk (by simp [Kex.phase]) buf)
      (keeping_setExchanging s.common _)
  | finish hk hguess hhead hchecks =>
    exact hcounted.exchanged (installs_of_exchanging hk (by simp [Kex.phase]) buf)
      (keeping_sealEach s.common _ _ _)
  | @first newkeys henc hk hhead =>
    have hphase : s.common.phase = .newKeys :=
      phase_of_exchanging ((exchanging_none henc).trans hk)
    have hinstalls : (driver app).installs (.reply s buf) = true := by
      simp only [Driver.installs, driver, hphase, hhead, decide_true, Bool.and_true]
    rw [installedAt_append hinstalls, sealedAt_append_first henc]
    obtain ⟨new, hhistory, hbytes⟩ := counts_sealEach s.common.writeBuffer
      { newkeys.cipher with epoch := s.common.cipher.epoch + 1 } [(.service, serviceRequest)]
    have hbegan := hcounted.began
    refine ⟨?_, ?_, fun at' hat => ?_⟩
    · rw [hhistory, List.length_append]
      exact Nat.le_add_right_of_le hbegan
    · rw [hbytes, hhistory, List.drop_append_of_le_length hbegan, payloadBytes_append]
      exact congrArg (· + _) hcounted.bytes
    · cases hat
      rfl
  | @install enc newkeys henc hrekey hhead =>
    have hphase : s.common.phase = .newKeys :=
      phase_of_exchanging ((exchanging_some henc).trans hrekey)
    have hinstalls : (driver app).installs (.reply s buf) = true := by
      simp only [Driver.installs, driver, hphase, hhead, decide_true, Bool.and_true]
    have hcompletes : (driver app).completes (.reply s buf) = true := by
      have hsome : ((driver app).common s).encrypted.isSome = true := by
        change s.common.encrypted.isSome = true
        rw [henc]
        rfl
      rw [Driver.completes, hinstalls, Bool.true_and]
      exact hsome
    rw [installedAt_append hinstalls, sealedAt_append hcompletes]
    refine ⟨Nat.le_refl _, ?_, fun at' hat => ?_⟩
    · change 0 = payloadBytes (s.common.writeBuffer.history.drop s.common.writeBuffer.history.length)
      rw [List.drop_length]
      rfl
    · cases hat
      rfl
  | @drop enc k henc hrekey hphase hhead =>
    have hnotHead : buf.head? ≠ some msg.NEWKEYS := by
      rw [hhead]
      decide
    have htime : s.common.rekeyedAt = some enc.lastRekey := by
      simp only [CommonSession.rekeyedAt, henc, Option.map_some]
    exact hcounted.exchanged (installs_of_head hnotHead s) ⟨.of_same rfl rfl, htime.symm⟩

/-- The client's turns. -/
theorem driver_courses (app : Application) : (driver app).Courses Exchanged where
  exchange s buf hs hin := reply_replied app hs hin
  serve s buf hs hout := by
    change Relation.ReflTransGen Small s.common (final (reply app buf s)).common
    rw [reply_state app hs hout]
    exact (clientReadState_moves (fun _ _ => trivial) (fun _ _ _ _ => trivial) buf s).lift
      Session.common fun _ _ h => h

/-- The NEWKEYS of a re-exchange rearms the client. -/
theorem rearms (hs : s.common.Sound) (h : (driver app).completes (.reply s buf) = true) :
    (driver app).Rearms (.reply s buf) := by
  rw [Driver.completes, Bool.and_eq_true] at h
  obtain ⟨hinstalls, hsome⟩ := h
  rw [Driver.installs, Bool.and_eq_true] at hinstalls
  have hphase : s.common.phase = .newKeys := of_decide_eq_true hinstalls.1
  have hhead : buf.head? = some msg.NEWKEYS := of_decide_eq_true hinstalls.2
  have hsome : s.common.encrypted.isSome = true := hsome
  obtain ⟨enc, henc⟩ := Option.isSome_iff_exists.mp hsome
  have hnot : ¬ buf.head? = some msg.KEXINIT := by
    rw [hhead]
    decide
  obtain ⟨newkeys, hrekey⟩ : ∃ newkeys, enc.rekey = some (.newKeys newkeys) := by
    simp only [CommonSession.phase, henc, Encrypted.phase] at hphase
    cases hrekey : enc.rekey with
    | none =>
      rw [hrekey] at hphase
      cases hex : enc.exchange <;> simp [hex] at hphase
    | some k =>
      rw [hrekey] at hphase
      cases k with
      | newKeys newkeys => exact ⟨newkeys, rfl⟩
      | kexInit k => cases hphase
      | kexDh k => cases hphase
      | kexDhDone k => cases hphase
  have hreply : reply app buf s = .ok () { s with
      common := CommonSession.newkeys { s.common with
        encrypted := some
          { enc with rekey := none, lastRekey := s.common.world.clock s.common.tick }
        writeBuffer := { s.common.writeBuffer with bytes := 0 }
        tick := s.common.tick + 1 } newkeys } := by
    simp only [reply, run_bind, run_get, hs.first (by rw [henc]; rfl), clientReadEncrypted,
      if_neg hnot, henc, hrekey, takeRekey, modifyEnc, run_modify, CommonSession.modifyEnc,
      Option.map_some, if_pos hhead, clientInstall, onCommon, now, zoom]
  constructor
  · change (final (reply app buf s)).common.writeBuffer.bytes = 0
    rw [hreply]
    rfl
  · change (final (reply app buf s)).common.rekeyedAt = _
    rw [hreply]
    rfl

/-- Every run of the client respects the limits. -/
theorem run_rearming {config : Config} {sshid : Bytes} {world : World} {l : Loop Session}
    (hl : connectStream config app sshid world = .ok l) (events : List (Event Msg)) :
    l.Rearming (driver app) Exchanged events := by
  obtain ⟨s, output, hs, rfl⟩ := connectStream_start hl
  have hbehaves := driver_behaves (P := fun _ => True) (fun _ _ => trivial) app
    fun _ _ _ _ => trivial
  refine (driver_courses app).rearming hbehaves (fun _ => True)
    (fun acts s buf t hexchanged _ hcounted => hexchanged.counted hcounted)
    (fun act _ hsound hcompletes => ?_) hs output events
    (Loop.Along.of_forall (fun _ _ _ _ => trivial) _ _)
  cases act with
  | message s m => cases hcompletes
  | reply s buf => exact rearms hsound hcompletes

end

end Client

/-! ### Both roles -/

/-- In every run of the client a flush starts a re-exchange only if a limit is
reached under the keys in use, and every NEWKEYS of a re-exchange rearms both
limits. In a run of the server this holds exactly as long as no re-exchange is
completed. -/
theorem limits_rearmed_iff [Deps] :
    (∀ config handler sshid world l, Server.runStream config handler sshid world = .ok l →
      ∀ events, l.Rearming (Server.driver handler) Server.Exchanged events ↔
        Loop.Along (Loop.iterate (Server.driver handler)) (fun l e =>
          ∀ act ∈ Loop.acted (Server.driver handler) l e,
            (Server.driver handler).completes act = false) l events) ∧
    ∀ config app sshid world l, Client.connectStream config app sshid world = .ok l →
      ∀ events, l.Rearming (Client.driver app) Client.Exchanged events :=
  ⟨fun _ _ _ _ _ hl events => Server.rearming_iff hl events,
    fun _ _ _ _ _ hl events => Client.run_rearming hl events⟩

/-- A server and a client behind their first exchange. -/
theorem limits_rearmed_handshake :
    letI := Concrete.deps
    Concrete.server.Rearming (Server.driver Concrete.handler) Server.Exchanged
      Concrete.handshake ∧
    Concrete.client.Rearming (Client.driver Concrete.application) Client.Exchanged
      Concrete.answers := by
  have hlimits := @limits_rearmed_iff Concrete.deps
  have hserver := hlimits.1 Concrete.serverConfig Concrete.handler Concrete.clientConfig.clientId
    Concrete.world Concrete.server (Concrete.runStream_eq _) Concrete.handshake
  have hclient := hlimits.2 Concrete.clientConfig Concrete.application
    Concrete.serverConfig.serverId Concrete.world Concrete.client Concrete.connectStream_eq
    Concrete.answers
  exact ⟨hserver.mpr (by decide +kernel), hclient⟩

/-- A server whose write limit lies between the bytes of one exchange and of two. -/
def Concrete.meteredConfig : Server.Config := { serverConfig with limits := ⟨700, 2 ^ 30, 3600⟩ }

/-- That server's loop before its first turn. -/
def Concrete.metered : @Loop (@Server.Session deps) :=
  letI := deps
  returned (Server.runStream meteredConfig handler clientConfig.clientId world) (by decide +kernel)

theorem Concrete.metered_eq :
    letI := deps
    Server.runStream meteredConfig handler clientConfig.clientId world = .ok metered :=
  returned_spec _ _

/-- Behind the re-exchange of its client the server starts another one at once.
The clock stands still, and its KEXINIT is all that it seals under the new keys. -/
theorem limits_not_rearmed :
    letI := Concrete.deps
    let d := Server.driver Concrete.handler
    let l := Concrete.metered.run d Concrete.rekeying
    let acts := Concrete.metered.acts d Concrete.rekeying
    (l.stage = .running ∧ l.session.common.exchanging.isSome = true ∧
      (acts.filter d.completes).length = 1 ∧
      (l.session.common.writeBuffer.history.drop (d.sealedAt acts)).map (·.payload) =
        [Concrete.kexinit]) ∧
    ¬ ∀ config handler sshid world l, Server.runStream config handler sshid world = .ok l →
      ∀ events, l.Rearming (Server.driver handler) Server.Exchanged events := by
  have hiff := @Server.rearming_iff Concrete.deps Concrete.handler Concrete.meteredConfig
    Concrete.clientConfig.clientId Concrete.world Concrete.metered Concrete.metered_eq
    Concrete.rekeying
  constructor
  · decide +kernel
  · intro hrearming
    have hrun := hrearming Concrete.meteredConfig Concrete.handler Concrete.clientConfig.clientId
      Concrete.world Concrete.metered Concrete.metered_eq Concrete.rekeying
    have hnever := hiff.mp hrun
    have hcompletes : @Loop.Along _ _
        (@Loop.iterate Concrete.deps _ _ _ _ (@Server.driver Concrete.deps Concrete.handler)) (fun l e =>
          ∀ act ∈ @Loop.acted Concrete.deps _ _ _ (@Server.driver Concrete.deps Concrete.handler) l e,
            @Driver.completes Concrete.deps _ _ _
              (@Server.driver Concrete.deps Concrete.handler) act = false)
        Concrete.metered Concrete.rekeying → False := by
      decide +kernel
    exact hcompletes hnever

end Thrussh
