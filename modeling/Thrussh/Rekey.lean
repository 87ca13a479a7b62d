import Thrussh.Concrete
import Thrussh.Roles

/-!
# The records of a re-exchange

`enc.exchange` and `enc.rekey` are moved into each other by the steps of a
re-exchange. Between two events exactly one of them is there, unless a
KEXINIT came too late and dropped the exchange. A re-exchange that the peer
starts is served by the server, and refused by the client.
-/

namespace Thrussh

open Lib

section
variable [Deps] {C : Type}

/-- Exactly one of `exchange` and `rekey` is `Some`. -/
def Encrypted.exactlyOne (enc : Encrypted) : Bool := enc.exchange.isSome ^^ enc.rekey.isSome

/-- A session that is encrypted can still run a re-exchange, or is running one. -/
def CommonSession.NotLost (s : CommonSession C) : Prop :=
  s.encrypted.isSome = true → s.phase ≠ .lost

/-- No KEXINIT comes while a Diffie-Hellman exchange runs or the peer's NEWKEYS is awaited. -/
def noLateKexInit (phase : Phase) (buf : Bytes) : Prop :=
  buf.head? = some msg.KEXINIT → phase ≠ .dh ∧ phase ≠ .newKeys

instance (phase : Phase) (buf : Bytes) : Decidable (noLateKexInit phase buf) :=
  inferInstanceAs (Decidable (_ → _))

theorem NotLost.of_records {s t : CommonSession C} (hs : s.NotLost)
    (h : t.kex = s.kex ∧ Option.Rel (fun e e' => e'.rekey = e.rekey ∧ e'.exchange = e.exchange)
      s.encrypted t.encrypted) : t.NotLost := by
  intro hsome
  rw [phase_of_records h.1 h.2]
  exact hs (by rw [← isSome_of_rel h.2]; exact hsome)

theorem NotLost.of_phase {s : CommonSession C} (h : s.phase ≠ .lost) : s.NotLost := fun _ => h

theorem FlushStep.notLost [SessionConfig C] {s t : CommonSession C} (h : FlushStep s t)
    (hs : s.NotLost) : t.NotLost := by
  cases h with
  | none h => exact hs
  | packets h =>
    refine NotLost.of_records hs ⟨by rw [h.session], ?_⟩
    rw [h.encrypted, h.encrypted_eq]
    exact .some (by rw [h.same]; exact ⟨rfl, rfl⟩)
  | rekey h hwrite hcursor hrekey hex => exact NotLost.of_phase (by
      change Phase.waiting ≠ .lost
      decide)

/-- Without a late KEXINIT no exchange is lost. -/
theorem notLost_invariant [SessionConfig C] (P : Bytes → Prop) :
    Invariant P noLateKexInit (CommonSession.NotLost (C := C)) CommonSession.NotLost
      fun _ => True where
  enter _ h := h
  leave _ _ := trivial
  inflate s enc decompress henc h := by
    refine NotLost.of_records h ⟨rfl, ?_⟩
    rw [henc]
    exact .some ⟨rfl, rfl⟩
  advance s t buf h _ hallowed hadvance := by
    cases hadvance with
    | skip ht => rw [ht]; exact h
    | answer hs ht hseals hpackets => exact NotLost.of_phase (by rw [ht]; decide)
    | serve hs ht hseals => exact NotLost.of_phase (by rw [ht]; decide)
    | guess hs ht hseals => exact NotLost.of_phase (by rw [ht]; decide)
    | finish hs ht hseals hlast => exact NotLost.of_phase (by rw [ht]; decide)
    | install hs ht hinstalls => exact NotLost.of_phase (by rw [ht]; decide)
    | drop henc hbuf hs ht hseals =>
      obtain ⟨hdh, hnewKeys⟩ := hallowed henc hbuf
      rcases hs with hs | hs
      · exact absurd hs hdh
      · exact absurd hs hnewKeys
  seals _ _ _ _ _ _ := trivial
  turn s t h _ _ hturn := by
    cases hturn with
    | busy hbusy =>
      cases hbusy with
      | quiet hquiet => exact NotLost.of_records h hquiet.records
      | flush hflush => exact hflush.notLost h
    | staged hstaged => exact NotLost.of_records h hstaged.records
  message s t enc h _ henc hrekey hlocals := by
    induction hlocals with
    | refl => exact h
    | tail _ hlocal ih =>
      cases hlocal with
      | quiet hquiet => exact NotLost.of_records ih hquiet.records
      | staged hstaged => exact NotLost.of_records ih hstaged.records
      | service hpayload ht =>
        rw [ht]
        exact ih
  flush s t h _ hflush := by
    have hstep := flush_final s
    rw [hflush] at hstep
    exact hstep.notLost h
  settle s t h hstaged := NotLost.of_records h hstaged.records

theorem exactlyOne_of_notLost [SessionConfig C] {s : CommonSession C} (h : s.NotLost)
    (hsound : s.Sound) {enc : Encrypted} (henc : s.encrypted = some enc) :
    enc.exactlyOne = true := by
  have hphase := h (by rw [henc]; rfl)
  simp only [CommonSession.phase, henc, Encrypted.phase] at hphase
  unfold Encrypted.exactlyOne
  cases hrekey : enc.rekey with
  | some k =>
    have hex := hsound.exclusive enc henc (by rw [hrekey]; rfl)
    rw [hex]
    rfl
  | none =>
    rw [hrekey] at hphase
    cases hex : enc.exchange with
    | some ex => rfl
    | none => simp [hex] at hphase

/-- Along the runs of a role in which no KEXINIT comes too late, no exchange is lost. -/
theorem run_exactlyOne [SessionConfig C] {S M : Type} {d : Driver C S M}
    (hd : d.Behaves fun _ => True) {s : S} (hs : (d.common s).Initial) (output : Bytes)
    (events : List (Event M))
    (hallowed : Loop.Along (Loop.iterate d) (Loop.Allows d noLateKexInit)
      (Loop.start d s output) events)
    (halive : ∀ e, ((Loop.start d s output).run d events).stage ≠ .finished (.error e))
    {enc : Encrypted}
    (henc : (d.common ((Loop.start d s output).run d events).session).encrypted = some enc) :
    enc.exactlyOne = true := by
  have hinv := notLost_invariant (C := C) fun _ => True
  have hmid : (d.common s).NotLost := NotLost.of_phase (by rw [hs.phase_eq]; decide)
  have hstart := Loop.start_holds hd hinv hmid hs.sound output
  have hrun := Loop.run_holds hd hinv hstart events hallowed
  have hend := hrun.alive halive
  exact exactlyOne_of_notLost hend.1 hend.2 henc

/-- In every run of either role in which no KEXINIT is served while a
re-exchange is past its `KexInit` step, the session has exactly one of `exchange` and `rekey`
between two events, as long as it has not failed. -/
theorem exactlyOne_of_timely :
    (∀ config handler sshid world l, Server.runStream config handler sshid world = .ok l →
      ∀ events, Loop.Along (Loop.iterate (Server.driver handler))
          (Loop.Allows (Server.driver handler) noLateKexInit) l events →
        (∀ e, (l.run (Server.driver handler) events).stage ≠ .finished (.error e)) →
        ∀ enc, (l.run (Server.driver handler) events).session.common.encrypted = some enc →
          enc.exactlyOne = true) ∧
    (∀ config app sshid world l, Client.connectStream config app sshid world = .ok l →
      ∀ events, Loop.Along (Loop.iterate (Client.driver app))
          (Loop.Allows (Client.driver app) noLateKexInit) l events →
        (∀ e, (l.run (Client.driver app) events).stage ≠ .finished (.error e)) →
        ∀ enc, (l.run (Client.driver app) events).session.common.encrypted = some enc →
          enc.exactlyOne = true) := by
  refine ⟨fun config handler sshid world l hl events hallowed halive enc henc => ?_,
    fun config app sshid world l hl events hallowed halive enc henc => ?_⟩
  · obtain ⟨s, output, hs, rfl⟩ := Server.runStream_start hl
    have hd := Server.driver_behaves (P := fun _ => True) (fun _ _ => trivial) handler
    exact run_exactlyOne hd hs output events hallowed halive henc
  · obtain ⟨s, output, hs, rfl⟩ := Client.connectStream_start hl
    have hd := Client.driver_behaves (P := fun _ => True) (fun _ _ => trivial) app
      fun _ _ _ _ => trivial
    exact run_exactlyOne hd hs output events hallowed halive henc

end

/-- A server through its first exchange and into a re-exchange, and a client in its first. -/
theorem exactlyOne_of_timely_rekey :
    letI := Concrete.deps
    (∀ enc, (Concrete.server.run (Server.driver Concrete.handler) (Concrete.handshake ++
        [.arrive (Concrete.sealed Concrete.kexinit), .read])).session.common.encrypted = some enc →
      enc.exactlyOne = true) ∧
    ∀ enc, (Concrete.client.run (Client.driver Concrete.application)
        [.arrive (Concrete.clear Concrete.kexinit), .read]).session.common.encrypted = some enc →
      enc.exactlyOne = true := by
  obtain ⟨hserver, hclient⟩ := @exactlyOne_of_timely Concrete.deps
  exact ⟨hserver _ _ _ _ _ (Concrete.runStream_eq _) _ (by decide +kernel)
      (Loop.alive_of_running (by decide +kernel)),
    hclient _ _ _ _ _ Concrete.connectStream_eq _ (by decide +kernel)
      (Loop.alive_of_running (by decide +kernel))⟩

/-- A second KEXINIT in a re-exchange: the server goes on with neither of the two records. -/
theorem exactlyOne_late_kexInit :
    letI := Concrete.deps
    (Concrete.server.run (Server.driver Concrete.handler) (Concrete.handshake ++
      [.arrive (Concrete.sealed Concrete.kexinit), .read,
        .arrive (Concrete.sealed Concrete.kexinit), .read])).stage = .running ∧
    (Concrete.server.run (Server.driver Concrete.handler) (Concrete.handshake ++
      [.arrive (Concrete.sealed Concrete.kexinit), .read,
        .arrive (Concrete.sealed Concrete.kexinit), .read])).session.common.encrypted.map
          Encrypted.exactlyOne = some false := by
  decide +kernel

section
variable [Deps]

namespace Server

/-- A re-exchange that the client starts is served: the session goes on to
`KexDh` with the client's KEXINIT and one new KEXINIT of its own, which it has sealed. -/
def Served (handler : Handler) (s : Session) (buf : Bytes) : Prop :=
  ∃ t enc k own, serverReadEncrypted handler buf s = .ok () t ∧
    own = writeKex s.common.config.preferred (s.common.world.rand s.common.tick).cookie ∧
    t.common.encrypted = some enc ∧ enc.rekey = some (.kexDh k) ∧
    k.exchange.clientKexInit = buf ∧ k.exchange.serverKexInit = own ∧
    t.common.writeBuffer = s.common.writeBuffer.sealEach s.common.cipher [(.kexinit, own)]

theorem served_of_idle (handler : Handler) {s : Session} {enc : Encrypted} {ex : Exchange}
    (henc : s.common.encrypted = some enc) (hrekey : enc.rekey = none)
    (hex : enc.exchange = some ex) {buf : Bytes} (hhead : buf.head? = some msg.KEXINIT)
    {names : Names} (hread : readKex .server buf s.common.config.preferred = .ok names)
    {key : Nat} (hkey : findKey s.common.config.keys names.key = some key) :
    Served handler s buf := by
  set own := writeKex s.common.config.preferred (s.common.world.rand s.common.tick).cookie
  set k : KexDh := ⟨{ ex.cleared.withClient buf with serverKexInit := own }, names, key,
    some enc.sessionId⟩
  have hrun : serverReadEncrypted handler buf s = .ok () { s with common := { s.common with
      encrypted := some { enc with exchange := none, rekey := some (.kexDh k) }
      writeBuffer := s.common.writeBuffer.sealEach s.common.cipher [(.kexinit, own)]
      tick := s.common.tick + 1 } } := by
    simp only [serverReadEncrypted, run_bind, getEnc, run_get, henc, run_pure, if_pos hhead,
      serverReadKexInit, takeRekey, setRekey, modifyEnc, run_modify, CommonSession.modifyEnc,
      Option.map_some, hrekey, hex, runServerParse_run, hread, run_lift_ok, hkey,
      serverParse_unsent (k := KexInit.receivedRekey ex names enc.sessionId) rfl _ _ hhead]
    rfl
  exact ⟨_, _, k, own, hrun, rfl, rfl, rfl, rfl, rfl, rfl⟩

end Server

namespace Client

/-- A re-exchange that the server starts is served: the session goes on to
`KexDhDone` with the server's KEXINIT and one new KEXINIT of its own, which
it has sealed together with its ECDH_INIT. -/
def Served (app : Application) (s : Session) (buf : Bytes) : Prop :=
  ∃ t enc k own secret random, clientReadEncrypted app buf s = .ok () t ∧
    own = writeKex s.common.config.preferred random ∧
    t.common.encrypted = some enc ∧ enc.rekey = some (.kexDhDone k) ∧
    k.exchange.serverKexInit = buf ∧ k.exchange.clientKexInit = own ∧
    t.common.writeBuffer = s.common.writeBuffer.sealEach s.common.cipher
      [(.kexinit, own), (.ecdhInit, ecdhInit secret)]

/-- `client_parse` refuses the record that `received_rekey` makes, whose algorithms are known. -/
theorem refused_of_idle (app : Application) {s : Session} {enc : Encrypted} {ex : Exchange}
    (henc : s.common.encrypted = some enc) (hrekey : enc.rekey = none)
    (hex : enc.exchange = some ex) {buf : Bytes} (hhead : buf.head? = some msg.KEXINIT)
    {names : Names} (hread : readKex .client buf s.common.config.preferred = .ok names) :
    ∃ t, clientReadEncrypted app buf s = .error (.error .kex) t := by
  simp only [clientReadEncrypted, if_pos hhead, clientReadKexInit, run_bind, getEnc, run_get, henc,
    run_pure, takeRekey, modifyEnc, run_modify, CommonSession.modifyEnc, Option.map_some, hrekey,
    hex, runClientParse_run, hread, run_lift_ok, clientParse_known (k := KexInit.receivedRekey ex
      names enc.sessionId) rfl]
  exact ⟨_, rfl⟩

theorem not_served_of_idle (app : Application) {s : Session} {enc : Encrypted} {ex : Exchange}
    (henc : s.common.encrypted = some enc) (hrekey : enc.rekey = none)
    (hex : enc.exchange = some ex) {buf : Bytes} (hhead : buf.head? = some msg.KEXINIT)
    {names : Names} (hread : readKex .client buf s.common.config.preferred = .ok names) :
    ¬ Served app s buf := by
  rintro ⟨t, enc', k, own, secret, random, hok, -⟩
  obtain ⟨u, herror⟩ := refused_of_idle app henc hrekey hex hhead hread
  rw [herror] at hok
  cases hok

end Client

/-- A re-exchange that the peer starts is always served by the server, and never by the client. -/
theorem peer_rekey_served :
    (∀ (handler : Server.Handler) (s : Server.Session) enc ex buf names key,
      s.common.encrypted = some enc → enc.rekey = none → enc.exchange = some ex →
      buf.head? = some msg.KEXINIT →
      readKex .server buf s.common.config.preferred = .ok names →
      findKey s.common.config.keys names.key = some key → Server.Served handler s buf) ∧
    ∀ (app : Client.Application) (s : Client.Session) enc ex buf names,
      s.common.encrypted = some enc → enc.rekey = none → enc.exchange = some ex →
      buf.head? = some msg.KEXINIT →
      readKex .client buf s.common.config.preferred = .ok names → ¬ Client.Served app s buf :=
  ⟨fun handler _ _ _ _ _ _ henc hrekey hex hhead hread hkey =>
      Server.served_of_idle handler henc hrekey hex hhead hread hkey,
    fun app _ _ _ _ _ henc hrekey hex hhead hread =>
      Client.not_served_of_idle app henc hrekey hex hhead hread⟩

end

/-- The server's and the client's session behind a first exchange, and a KEXINIT. -/
theorem peer_rekey_served_first :
    letI := Concrete.deps
    Server.Served Concrete.handler
      (Concrete.server.run (Server.driver Concrete.handler) Concrete.handshake).session
      Concrete.kexinit ∧
    ¬ Client.Served Concrete.application
      (Concrete.client.run (Client.driver Concrete.application) Concrete.answers).session
      Concrete.kexinit := by
  obtain ⟨hserver, hclient⟩ := @peer_rekey_served Concrete.deps
  refine ⟨hserver _ _ _ _ _ _ 0 (Option.some_get ?_).symm ?_ (Option.some_get ?_).symm ?_
    (Concrete.returned_spec _ ?_) ?_, hclient _ _ _ _ _ _ (Option.some_get ?_).symm ?_
    (Option.some_get ?_).symm ?_ (Concrete.returned_spec _ ?_)⟩
  all_goals decide +kernel

/-- A client behind its first exchange fails when the server starts a re-exchange. -/
theorem peer_rekey_refused :
    letI := Concrete.deps
    (Concrete.client.run (Client.driver Concrete.application)
      Concrete.answers).session.common.encrypted.map
        (fun enc => (enc.rekey.isSome, enc.exchange.isSome)) = some (false, true) ∧
    (readKex .client Concrete.kexinit Concrete.clientConfig.preferred).toOption.isSome = true ∧
    (Concrete.client.run (Client.driver Concrete.application) (Concrete.answers ++
      [.arrive (Concrete.sealed Concrete.kexinit), .read])).stage =
        .finished (.error (.error .kex)) := by
  decide +kernel

end Thrussh
