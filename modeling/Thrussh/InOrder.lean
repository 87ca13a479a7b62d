import Thrussh.Keyed
import Thrussh.Limited
import Thrussh.Written

/-!
# What the loops dispatch

A loop dispatches the packets of its peer in the order in which they were
sent, without those that it skips before its first exchange is over, as long
as no local message is received while a pending `cipher::read` has taken
bytes. The server's loop goes on behind a read that fails, so for it nothing
that it heeds may stand before the end of the stream.
-/

namespace Thrussh

open Lib

section
variable [Deps]

/-- Whether the loops dispatch a packet: all of those that are sealed, and in
the clear those that are neither empty nor messages of the transport layer. -/
def SentPacket.heeded (p : SentPacket) : Bool := p.key ≠ .clear || Loop.served p.payload

/-- The payloads to be dispatched. -/
def heededPayloads (sent : List SentPacket) : List Bytes :=
  (sent.filter SentPacket.heeded).map SentPacket.payload

omit [Deps] in
theorem heededPayloads_append (before after : List SentPacket) :
    heededPayloads (before ++ after) = heededPayloads before ++ heededPayloads after := by
  rw [heededPayloads, List.filter_append, List.map_append]
  rfl

omit [Deps] in
/-- What is sent first is dispatched first. -/
theorem heededPayloads_take (sent : List SentPacket) (n : Nat) :
    heededPayloads (sent.take n) <+: heededPayloads sent := by
  have hsplit := heededPayloads_append (sent.take n) (sent.drop n)
  rw [List.take_append_drop] at hsplit
  rw [hsplit]
  exact List.prefix_append _ _

namespace Loop

variable {C S M : Type} [SessionConfig C]

/-- A loop that has dispatched the packets that it has read. -/
structure InOrder (sent : List SentPacket) (l : Loop S) : Prop where
  /-- Every one was returned by a read in its turn. -/
  fresh : ∀ p ∈ l.passed, p.fresh = true
  /-- They were sent in this order. -/
  ordered : l.dispatched <+: heededPayloads sent
  /-- A loop that runs has left none out. -/
  running : l.stage = .running →
    l.dispatched = heededPayloads (sent.take l.buffer.history.length)

variable {d : Driver C S M} {sent : List SentPacket} {arrived : Bytes} {l : Loop S}

omit [SessionConfig C] in
/-- The loop heeds a packet that is sealed with the key it opens it with
exactly when it is one to be dispatched. -/
theorem heeds_of_keyed (hkeyed : (d.common l.session).Keyed) {p : SentPacket}
    (hkey : p.key = (d.common l.session).cipher.remoteToLocal) :
    heeds d l p.payload = p.heeded := by
  have hsome : (d.common l.session).encrypted.isSome = decide (p.key ≠ .clear) := by
    rw [hkey, Bool.eq_iff_iff, hkeyed.key, decide_eq_true_iff]
  rw [heeds, hsome]
  rfl

/-- An event that adds nothing, and reads nothing. -/
theorem InOrder.of_none (h : l.InOrder sent) {e : Event M} (hentries : entries d l e = [])
    (hhistory : (l.readBuffer d e).history = l.buffer.history) :
    (l.iterate d e).InOrder sent := by
  have hpassed : (l.iterate d e).passed = l.passed := by
    rw [iterate_passed, hentries, List.append_nil]
  refine ⟨?_, ?_, fun hnext => ?_⟩
  · rw [hpassed]
    exact h.fresh
  · rw [dispatched, hpassed]
    exact h.ordered
  · obtain ⟨hrunning, hread⟩ := iterate_running hnext
    rw [dispatched, hpassed, hread, hhistory]
    exact h.running hrunning

/-- An event that opens the next packet, and passes it on if it is heeded. -/
theorem InOrder.of_next (h : l.InOrder sent) (hrunning : l.stage = .running) {e : Event M}
    {before later : List SentPacket} {p : SentPacket} (r : PacketRecord)
    (hsent : sent = before ++ p :: later) (hcount : l.buffer.history.length = before.length)
    (hentries : entries d l e = if p.heeded then [⟨p.payload, true⟩] else [])
    (hhistory : (l.readBuffer d e).history = l.buffer.history ++ [r]) :
    (l.iterate d e).InOrder sent := by
  have hbefore : sent.take l.buffer.history.length = before := by
    rw [hsent, hcount]
    exact List.take_left' rfl
  have hnow : sent.take (l.buffer.history.length + 1) = before ++ [p] := by
    rw [hsent, hcount, ← List.singleton_append, ← List.append_assoc]
    exact List.take_left' (by simp)
  have hpassed : (l.iterate d e).passed = l.passed ++ entries d l e := iterate_passed d l e
  have hdispatched : (l.iterate d e).dispatched =
      heededPayloads (sent.take (l.buffer.history.length + 1)) := by
    rw [hnow, heededPayloads_append, ← hbefore, ← h.running hrunning, dispatched, hpassed,
      List.map_append, hentries]
    cases hheeded : p.heeded with
    | true => simp [dispatched, heededPayloads, hheeded]
    | false => simp [dispatched, heededPayloads, hheeded]
  refine ⟨?_, ?_, fun hnext => ?_⟩
  · intro q hq
    rw [hpassed, hentries] at hq
    rcases List.mem_append.mp hq with hq | hq
    · exact h.fresh q hq
    · split at hq
      · rw [List.mem_singleton.mp hq]
      · cases hq
  · rw [hdispatched]
    exact heededPayloads_take _ _
  · rw [hdispatched, (iterate_running hnext).2, hhistory, List.length_append,
      List.length_singleton]

/-- One event keeps the order. -/
theorem InOrder.iterate [LawfulSodium] (h : l.InOrder sent) (haligned : l.Aligned sent arrived)
    (hfits : ∀ p ∈ sent, p.key.Fits p.payload)
    (hkeyed : l.stage = .running → (d.common l.session).Keyed) (e : Event M)
    (hstep : InStep d sent l e) (hends : d.checksRead = true ∨ BeforeRead (EndsClean d) l e) :
    (l.iterate d e).InOrder sent := by
  obtain ⟨before, after, hsent, hopened, -, -, -, hreads⟩ := haligned.reads hfits hstep
  have hcount : l.buffer.history.length = before.length := by
    have hlength := congrArg List.length hopened
    simpa [opened] using hlength
  cases e with
  | arrive bytes => exact h.of_none rfl rfl
  | close => exact h.of_none rfl rfl
  | message m taken => exact h.of_none rfl rfl
  | timeout => exact h.of_none rfl rfl
  | read =>
    cases hstage : l.stage with
    | draining => exact h.of_none (by simp [entries, hstage]) (by simp [readBuffer, hstage])
    | finished result => exact h.of_none (by simp [entries, hstage]) (by simp [readBuffer, hstage])
    | running =>
      cases hread : l.nextRead d with
      | pending =>
        exact h.of_none (by simp [entries, hstage, hread]) (by simp [readBuffer, hstage, hread])
      | panic =>
        exact h.of_none (by simp [entries, hstage, hread]) (by simp [readBuffer, hstage, hread])
      | ok n b rest =>
        rw [hread] at hreads
        obtain ⟨p, later, head, rfl, -, hhead, rfl⟩ := hreads.of_ok
        have hkey : p.key = (d.common l.session).cipher.remoteToLocal := by
          refine hstep p ?_
          rw [hsent, hcount, List.getElem?_append_right (Nat.le_refl _), Nat.sub_self]
          rfl
        have hpasses : passesOn d l (l.buffer.opened (d.common l.session).cipher head p.payload) =
            p.heeded := by
          have hlong : 5 ≤ (head ++ p.payload).length := by
            rw [List.length_append]
            omega
          rw [← heeds_of_keyed (hkeyed hstage) hkey, SSHBuffer.opened, passesOn]
          dsimp only
          rw [decide_eq_true hlong, Bool.true_and, List.drop_left' hhead]
        have hdrop : (l.buffer.opened (d.common l.session).cipher head p.payload).buffer.drop 5 =
            p.payload := List.drop_left' hhead
        refine h.of_next hstage
          ⟨(d.common l.session).cipher.epoch, l.buffer.seqn, p.payload, .opened⟩ hsent hcount ?_ ?_
        · simp only [entries, hstage, hread, entry, hpasses, hdrop]
        · simp only [readBuffer, hstage, hread]
          rfl
      | err e b rest =>
        rw [hread] at hreads
        obtain ⟨-, rfl, rfl, bytes, rfl⟩ := hreads.of_err
        refine h.of_none ?_ (by simp [readBuffer, hstage, hread])
        rcases hends with hchecks | hends
        · simp [entries, hstage, hread, hchecks]
        · have hclean := (hends hstage).fails d hread
          simp [entries, hstage, hread, entry, hclean]

/-- A loop has dispatched nothing before its first turn. -/
theorem start_inOrder (s : S) (output : Bytes) (sent : List SentPacket) :
    (start d s output).InOrder sent := by
  have hinbound := start_inbound (d := d) s output
  have hpassed := start_passed d s output
  simp only [inbound, Prod.mk.injEq] at hinbound
  have hdispatched : (start d s output).dispatched = [] := by rw [dispatched, hpassed]; rfl
  refine ⟨by simp [hpassed], ?_, fun _ => ?_⟩
  · rw [hdispatched]
    exact List.nil_prefix
  · rw [hdispatched, hinbound.2.2.2]
    rfl

/-- Every run on well-formed packets that takes nothing from a pending read, and
ends clean unless its reads are checked, keeps the order and the boundaries. -/
theorem InOrder.run [LawfulSodium] {P : Bytes → Prop} (hd : d.Behaves P)
    (h : l.InOrder sent) (haligned : l.Aligned sent arrived)
    (hholds : Holds d CommonSession.Keyed CommonSession.Keyed (fun _ => True) l)
    (hfits : ∀ p ∈ sent, p.key.Fits p.payload) (events : List (Event M))
    (hsent : arrived ++ arrivals events <+: wires 0 sent)
    (hsteps : Along (Loop.iterate d) (InStep d sent) l events)
    (htaken : Along (Loop.iterate d) NothingTaken l events)
    (hends : d.checksRead = true ∨ Along (Loop.iterate d) (BeforeRead (EndsClean d)) l events) :
    (run d l events).InOrder sent := by
  induction events generalizing l arrived with
  | nil => exact h
  | cons e events ih =>
    rw [arrivals_cons, ← List.append_assoc] at hsent
    have hnow : arrived ++ arrivals [e] <+: wires 0 sent := (List.prefix_append _ _).trans hsent
    have hkeyed : l.stage = .running → (d.common l.session).Keyed :=
      fun hrunning => (hholds.running hrunning).1
    exact ih (h.iterate haligned hfits hkeyed e hsteps.1 (hends.imp id fun hends => hends.1))
      (haligned.iterate hfits e hsteps.1 htaken.1 hnow)
      (iterate_holds hd (keyed_invariant P) hholds e fun _ _ _ => trivial) hsent hsteps.2 htaken.2
      (hends.imp id fun hends => hends.2)

end Loop

/-- In every run of either role on a stream of well-formed packets, in which no
local message is received while a pending read has taken bytes, and in the
server's loop nothing that it heeds stands before the end of the stream: what
the loop dispatches is the beginning of what is to be dispatched of the packets
sent, each returned by a read in its turn, what it takes out of its reads is the
beginning of what was sent, no byte is lost as long as the stream is open, and
the stream begins at the boundary of a packet. -/
theorem packets_in_order [LawfulSodium] (sent : List SentPacket)
    (hfits : ∀ p ∈ sent, p.key.Fits p.payload) :
    (∀ config handler sshid world l, Server.runStream config handler sshid world = .ok l →
      ∀ events, arrivals events <+: wires 0 sent →
        Loop.Along (Loop.iterate (Server.driver handler))
          (Loop.InStep (Server.driver handler) sent) l events →
        Loop.Along (Loop.iterate (Server.driver handler)) Loop.NothingTaken l events →
        Loop.Along (Loop.iterate (Server.driver handler))
          (Loop.BeforeRead (Loop.EndsClean (Server.driver handler))) l events →
        (l.run (Server.driver handler) events).InOrder sent ∧
          (l.run (Server.driver handler) events).opened <+: sent.map SentPacket.payload ∧
          (l.run (Server.driver handler) events).Aligned sent (arrivals events)) ∧
    ∀ config app sshid world l, Client.connectStream config app sshid world = .ok l →
      ∀ events, arrivals events <+: wires 0 sent →
        Loop.Along (Loop.iterate (Client.driver app)) (Loop.InStep (Client.driver app) sent) l
          events →
        Loop.Along (Loop.iterate (Client.driver app)) Loop.NothingTaken l events →
        (l.run (Client.driver app) events).InOrder sent ∧
          (l.run (Client.driver app) events).opened <+: sent.map SentPacket.payload ∧
          (l.run (Client.driver app) events).Aligned sent (arrivals events) := by
  refine ⟨fun config handler sshid world l hl events hsent hsteps htaken hends => ?_,
    fun config app sshid world l hl events hsent hsteps htaken => ?_⟩
  · obtain ⟨s, output, hs, rfl⟩ := Server.runStream_start hl
    have hd := Server.driver_behaves (P := fun _ => True) (fun _ _ => trivial) handler
    have haligned : (Loop.start (Server.driver handler) s output).Aligned sent [] :=
      Loop.start_aligned s output sent
    have hholds := Loop.start_holds hd (keyed_invariant _) hs.keyed hs.sound output
    have hrun := haligned.run hfits events hsteps htaken hsent
    exact ⟨(Loop.start_inOrder s output sent).run hd haligned hholds hfits events hsent hsteps
      htaken (.inr hends), hrun.opened_prefix, hrun⟩
  · obtain ⟨s, output, hs, rfl⟩ := Client.connectStream_start hl
    have hd := Client.driver_behaves (P := fun _ => True) (fun _ _ => trivial) app
      fun _ _ _ _ => trivial
    have haligned : (Loop.start (Client.driver app) s output).Aligned sent [] :=
      Loop.start_aligned s output sent
    have hholds := Loop.start_holds hd (keyed_invariant _) hs.keyed hs.sound output
    have hrun := haligned.run hfits events hsteps htaken hsent
    exact ⟨(Loop.start_inOrder s output sent).run hd haligned hholds hfits events hsent hsteps
      htaken (.inl rfl), hrun.opened_prefix, hrun⟩

end

namespace Concrete

/-- The packets of a client that sends one more packet behind its first exchange. -/
def packetsWith (payload : Bytes) : List SentPacket :=
  letI := deps
  [⟨.clear, kexinit⟩, ⟨.clear, msg.KEX_ECDH_INIT :: sshString (zeros 32)⟩, ⟨.clear, [msg.NEWKEYS]⟩,
    ⟨(server.run (Server.driver handler) handshake).session.common.cipher.remoteToLocal, payload⟩]

/-- A sealed packet inside the data of an IGNORE, which is message number 2. -/
def nested : Bytes := 2 :: sshString (sealed [msg.GLOBAL_REQUEST])

/-- The server of the first exchange gets a packet in two parts, and between them its
application's message, for which the pending read of `taken` bytes is dropped. -/
def split (payload : Bytes) (taken : Nat) : List (Event (UInt32 × ChannelMsg)) :=
  handshake ++ [.arrive ((sealed payload).take 10), .message (some (2, .eof)) taken,
    .arrive ((sealed payload).drop 10), .read]

end Concrete

/-- A server whose application sends a message between two parts of a packet, when the pending
read has taken nothing, and whose client then closes the stream, and a client that gets its
server's KEXINIT in two parts. -/
theorem packets_in_order_parts :
    letI := Concrete.deps
    (Concrete.server.run (Server.driver Concrete.handler)
      (Concrete.split [msg.GLOBAL_REQUEST] 0 ++ [.close, .read])).InOrder
        (Concrete.packetsWith [msg.GLOBAL_REQUEST]) ∧
    (Concrete.client.run (Client.driver Concrete.application)
      [.arrive ((Concrete.clear Concrete.kexinit).take 7), .read,
        .arrive ((Concrete.clear Concrete.kexinit).drop 7), .read]).InOrder
      [⟨.clear, Concrete.kexinit⟩] := by
  have hserver := (@packets_in_order Concrete.deps Concrete.lawful
    (Concrete.packetsWith [msg.GLOBAL_REQUEST]) (by decide +kernel)).1
  have hclient := (@packets_in_order Concrete.deps Concrete.lawful
    [⟨.clear, Concrete.kexinit⟩] (by decide +kernel)).2
  exact ⟨(hserver _ _ _ _ _ (Concrete.runStream_eq _) _ (by decide +kernel) (by decide +kernel)
      (by decide +kernel) (by decide +kernel)).1,
    (hclient _ _ _ _ _ Concrete.connectStream_eq _ (by decide +kernel) (by decide +kernel)
      (by decide +kernel)).1⟩

/-- The pending read that a local message drops has taken the head of a packet: the server
dispatches a packet that was never sent. -/
theorem packets_out_of_order :
    letI := Concrete.deps
    (∀ p ∈ Concrete.packetsWith Concrete.nested, p.key.Fits p.payload) ∧
    arrivals (Concrete.split Concrete.nested 10) <+: wires 0 (Concrete.packetsWith Concrete.nested) ∧
    Loop.Along (Loop.iterate (Server.driver Concrete.handler))
      (Loop.InStep (Server.driver Concrete.handler) (Concrete.packetsWith Concrete.nested))
      Concrete.server (Concrete.split Concrete.nested 10) ∧
    (Concrete.server.run (Server.driver Concrete.handler)
      (Concrete.split Concrete.nested 10)).dispatched.getLast? = some [msg.GLOBAL_REQUEST] ∧
    ¬ (Concrete.server.run (Server.driver Concrete.handler)
        (Concrete.split Concrete.nested 10)).dispatched <+:
      (Concrete.packetsWith Concrete.nested).map SentPacket.payload := by
  decide +kernel

end Thrussh
