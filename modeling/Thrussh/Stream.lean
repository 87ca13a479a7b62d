import Thrussh.Packets
import Thrussh.Roles

/-!
# The stream of packets that a loop reads

However the transport splits the bytes of the peer's packets, a loop takes
whole packets off the stream, in order, as long as no local message is
received while `cipher::read` holds a part of a packet: the read that
`select!` then drops takes these bytes with it.
-/

namespace Thrussh

open Lib

/-- A packet that the peer sends: the key it is sealed under, and its payload. -/
structure SentPacket where
  /-- The sealing key. -/
  key : CipherKey
  /-- The payload. -/
  payload : Bytes
  deriving DecidableEq

section
variable [Deps]

/-- The bytes of a list of packets, with sequence numbers from `seqn` on. -/
def wires (seqn : UInt32) : List SentPacket → Bytes
  | [] => []
  | p :: sent => p.key.wire seqn p.payload ++ wires (seqn + 1) sent

theorem wires_append (seqn : UInt32) (before after : List SentPacket) :
    wires seqn (before ++ after) =
      wires seqn before ++ wires (seqn + UInt32.ofNat before.length) after := by
  induction before generalizing seqn with
  | nil => simp [wires]
  | cons p before ih =>
    have hnext : seqn + 1 + UInt32.ofNat before.length =
        seqn + UInt32.ofNat (p :: before).length := by
      rw [List.length_cons, UInt32.ofNat_add, UInt32.add_comm (UInt32.ofNat before.length),
        UInt32.add_assoc]
      rfl
    rw [List.cons_append, wires, wires, ih, hnext, List.append_assoc]

/-- A part of a packet keeps `cipher::read` waiting, until the stream is closed. -/
theorem read_part [LawfulSodium] (pair : CipherPair) (b : SSHBuffer) {payload stream rest : Bytes}
    (hfits : pair.remoteToLocal.Fits payload)
    (hwire : pair.remoteToLocal.wire b.seqn payload = stream ++ rest) (hrest : rest ≠ []) :
    read pair b stream false = .pending ∧
      ∃ buffer, read pair b stream true = .err .unexpectedEof { b with buffer := buffer } [] := by
  obtain ⟨field, cipherbody, tag, hparts, hfield, hbody, htag, hlen, -⟩ :=
    wire_parts pair.remoteToLocal b.seqn payload hfits
  have hpositive : 0 < rest.length := List.length_pos_iff.mpr hrest
  have hwhole : stream.length + rest.length =
      4 + (pair.remoteToLocal.bodyLength payload + pair.remoteToLocal.tagLen) := by
    rw [← List.length_append, ← hwire, hparts]
    simp only [List.length_append, hfield, hbody, htag]
    omega
  by_cases hshort : stream.length < 4
  · simp only [read, if_pos hshort]
    exact ⟨rfl, b.buffer, rfl⟩
  · have hhead : stream.take 4 = field := by
      have htake : (stream ++ rest).take 4 = stream.take 4 :=
        List.take_append_of_le_length (by omega)
      rw [← htake, ← hwire, hparts, List.append_assoc]
      exact List.take_left' hfield
    have hlen' : (UInt32.ofNat (pair.remoteToLocal.bodyLength payload)).toNat =
        pair.remoteToLocal.bodyLength payload := by
      rw [UInt32.toNat_ofNat']
      exact Nat.mod_eq_of_lt hfits
    have hlack : stream.length <
        4 + (pair.remoteToLocal.bodyLength payload + pair.remoteToLocal.tagLen) := by omega
    simp only [read, if_neg hshort, hhead, hlen, hlen', if_pos hlack]
    exact ⟨rfl, _, rfl⟩

/-- What `cipher::read` finds in a stream that begins at the boundary of a packet. -/
inductive ReadsNext (pair : CipherPair) (b : SSHBuffer) (sent : List SentPacket)
    (stream : Bytes) : Bool → ReadResult → Prop where
  /-- The next packet is there. -/
  | packet {p : SentPacket} {later : List SentPacket} {head rest : Bytes} {n : Nat} {eof : Bool}
    (hsent : sent = p :: later) (hstream : stream = p.key.wire b.seqn p.payload ++ rest)
    (hhead : head.length = 5) :
    ReadsNext pair b sent stream eof (.ok n (b.opened pair head p.payload) rest)
  /-- It is not there, and more can come. -/
  | waits : ReadsNext pair b sent stream false .pending
  /-- It is not there, and nothing more can come. -/
  | ends (buffer : Bytes) :
    ReadsNext pair b sent stream true (.err .unexpectedEof { b with buffer := buffer } [])

theorem ReadsNext.of_ok {pair : CipherPair} {b b' : SSHBuffer} {sent : List SentPacket}
    {stream rest : Bytes} {eof : Bool} {n : Nat}
    (h : ReadsNext pair b sent stream eof (.ok n b' rest)) :
    ∃ p later head, sent = p :: later ∧ stream = p.key.wire b.seqn p.payload ++ rest ∧
      head.length = 5 ∧ b' = b.opened pair head p.payload := by
  cases h with
  | packet hsent hstream hhead => exact ⟨_, _, _, hsent, hstream, hhead, rfl⟩

theorem ReadsNext.of_err {pair : CipherPair} {b b' : SSHBuffer} {sent : List SentPacket}
    {stream rest : Bytes} {eof : Bool} {e : Error}
    (h : ReadsNext pair b sent stream eof (.err e b' rest)) :
    eof = true ∧ rest = [] ∧ e = .unexpectedEof ∧ ∃ buffer, b' = { b with buffer := buffer } := by
  cases h with
  | ends buffer => exact ⟨rfl, rfl, rfl, buffer, rfl⟩

/-- A stream of the peer's next packets is read packet by packet. -/
theorem readsNext [LawfulSodium] (pair : CipherPair) (b : SSHBuffer) {sent : List SentPacket}
    {stream : Bytes} (hfits : ∀ p ∈ sent, p.key.Fits p.payload)
    (hkey : ∀ p ∈ sent.head?, p.key = pair.remoteToLocal)
    (hstream : stream <+: wires b.seqn sent) (eof : Bool) :
    ReadsNext pair b sent stream eof (read pair b stream eof) := by
  cases sent with
  | nil =>
    rw [List.prefix_nil.mp hstream]
    cases eof with
    | false => exact .waits
    | true => exact .ends b.buffer
  | cons p later =>
    have hp : p.key = pair.remoteToLocal := hkey p rfl
    have hfit := hfits p List.mem_cons_self
    have hwhole : wires b.seqn (p :: later) =
        p.key.wire b.seqn p.payload ++ wires (b.seqn + 1) later := rfl
    rw [hwhole] at hstream
    rcases List.prefix_or_prefix_of_prefix (List.prefix_append _ _) hstream with hle | hle
    · obtain ⟨rest, hrest⟩ := hle
      rw [hp] at hfit
      obtain ⟨head, hhead, hread⟩ := read_wire pair b _ hfit
      have hnow := hread rest eof
      rw [← hp, hrest] at hnow
      rw [hnow]
      exact .packet rfl hrest.symm hhead
    · obtain ⟨rest, hrest⟩ := hle
      by_cases hnil : rest = []
      · rw [hnil, List.append_nil] at hrest
        rw [hp] at hfit
        obtain ⟨head, hhead, hread⟩ := read_wire pair b _ hfit
        have hnow := hread [] eof
        rw [List.append_nil, ← hp, ← hrest] at hnow
        rw [hnow]
        exact .packet rfl (by rw [List.append_nil, hrest]) hhead
      · rw [hp] at hfit hrest
        obtain ⟨hwaits, buffer, hends⟩ := read_part pair b hfit hrest.symm hnil
        cases eof with
        | false =>
          rw [hwaits]
          exact .waits
        | true =>
          rw [hends]
          exact .ends buffer

/-- The bytes that the transport delivers in a list of events. -/
def arrivals {M : Type} : List (Event M) → Bytes
  | [] => []
  | .arrive bytes :: events => bytes ++ arrivals events
  | _ :: events => arrivals events

namespace Loop

variable {C S M : Type} [SessionConfig C]

omit [Deps] in
/-- The payloads that `cipher::read` has returned. -/
def opened (l : Loop S) : List Bytes := l.buffer.history.map PacketRecord.payload

omit [Deps] in
/-- The payloads that have been passed on. -/
def dispatched (l : Loop S) : List Bytes := l.passed.map Passed.payload

omit [SessionConfig C] in
/-- The peer has sealed the next packet with the key that the session opens it with. -/
def InStep (d : Driver C S M) (sent : List SentPacket) (l : Loop S) (_ : Event M) : Prop :=
  ∀ p ∈ sent[l.buffer.history.length]?, p.key = (d.common l.session).cipher.remoteToLocal

omit [Deps] in
/-- No local message is received while a pending read has taken bytes. -/
def NothingTaken (_ : Loop S) (e : Event M) : Prop :=
  match e with
  | .message _ taken => taken = 0
  | _ => True

omit [SessionConfig C] in
instance (d : Driver C S M) (sent : List SentPacket) (l : Loop S) (e : Event M) :
    Decidable (InStep d sent l e) :=
  inferInstanceAs (Decidable (∀ p ∈ sent[l.buffer.history.length]?, _))

omit [Deps] in
instance : ∀ (l : Loop S) (e : Event M), Decidable (NothingTaken l e)
  | _, .message _ taken => inferInstanceAs (Decidable (taken = 0))
  | _, .arrive _ => .isTrue trivial
  | _, .close => .isTrue trivial
  | _, .read => .isTrue trivial
  | _, .timeout => .isTrue trivial

/-- What a loop knows of the stream it reads. -/
def inbound (l : Loop S) : Bytes × Bool × UInt32 × List PacketRecord :=
  (l.stream, l.eof, l.buffer.seqn, l.buffer.history)

variable (d : Driver C S M)

@[simp] theorem endTurn_inbound (l : Loop S) : (endTurn d l).inbound = l.inbound := by
  unfold endTurn
  split
  · rfl
  · dsimp only
    split <;> rfl

@[simp] theorem serve_inbound (l : Loop S) (buf : Bytes) :
    (serve d l buf).inbound = l.inbound := by
  unfold serve
  split
  · rfl
  · split
    · rfl
    · split
      · rfl
      · split
        · rw [endTurn_inbound]
          rfl
        · rfl

/-- Handling a payload leaves the stream. -/
@[simp] theorem handle_inbound (l : Loop S) (fresh : Bool) :
    (handle d l fresh).inbound = l.inbound := by
  unfold handle
  split
  · rfl
  · dsimp only
    split
    · split
      · rw [serve_inbound]
        rfl
      · rfl
      · rfl
    · rw [serve_inbound]
      split <;> rfl

/-- A loop whose stream begins at the boundary of a packet. -/
structure Aligned (sent : List SentPacket) (arrived : Bytes) (l : Loop S) : Prop where
  /-- What has been opened, and what the stream begins with. -/
  boundary : ∃ before after, sent = before ++ after ∧ l.opened = before.map SentPacket.payload ∧
    l.buffer.seqn = UInt32.ofNat before.length ∧ l.stream <+: wires l.buffer.seqn after ∧
    (l.eof = false → wires 0 before ++ l.stream = arrived)

variable {d} {sent : List SentPacket} {arrived : Bytes} {l l' : Loop S}

omit [SessionConfig C] in
/-- A loop that reads nothing. -/
theorem Aligned.of_same (h : l.Aligned sent arrived) (hinbound : l'.inbound = l.inbound) :
    l'.Aligned sent arrived := by
  simp only [inbound, Prod.mk.injEq] at hinbound
  obtain ⟨hstream, heof, hseqn, hhistory⟩ := hinbound
  have hopened : l'.opened = l.opened := by rw [opened, opened, hhistory]
  constructor
  rw [hstream, heof, hseqn, hopened]
  exact h.boundary

omit [SessionConfig C] in
/-- A loop that takes the next packet off its stream. -/
theorem Aligned.take {pair : CipherPair} {before later : List SentPacket} {p : SentPacket}
    {rest : Bytes}
    (hsent : sent = before ++ p :: later) (hopened : l.opened = before.map SentPacket.payload)
    (hseqn : l.buffer.seqn = UInt32.ofNat before.length)
    (hleads : l.stream <+: wires l.buffer.seqn (p :: later))
    (harrived : l.eof = false → wires 0 before ++ l.stream = arrived)
    (hstream : l.stream = p.key.wire l.buffer.seqn p.payload ++ rest)
    (hinbound : l'.inbound = (rest, l.eof, l.buffer.seqn + 1,
      l.buffer.history ++ [⟨pair.epoch, l.buffer.seqn, p.payload, .opened⟩])) :
    l'.Aligned sent arrived := by
  simp only [inbound, Prod.mk.injEq] at hinbound
  obtain ⟨hstream', heof, hseqn', hhistory⟩ := hinbound
  have hopened' : l'.opened = l.opened ++ [p.payload] := by
    rw [opened, hhistory, List.map_append]
    rfl
  refine ⟨before ++ [p], later, ?_, ?_, ?_, ?_, ?_⟩
  · rw [hsent, List.append_assoc, List.singleton_append]
  · rw [hopened', hopened, List.map_append, List.map_singleton]
  · rw [hseqn', hseqn, List.length_append, List.length_singleton, UInt32.ofNat_add]
    rfl
  · have hcut : p.key.wire l.buffer.seqn p.payload ++ rest <+:
        p.key.wire l.buffer.seqn p.payload ++ wires (l.buffer.seqn + 1) later := by
      rw [← hstream]
      exact hleads
    rw [hstream', hseqn']
    exact (List.prefix_append_right_inj _).mp hcut
  · intro hopen
    rw [heof] at hopen
    rw [← harrived hopen, hstream, hstream', wires_append, List.append_assoc, hseqn]
    simp [wires]

omit [SessionConfig C] in
/-- A failing read at the end of the stream opens nothing. -/
theorem Aligned.ends (h : l.Aligned sent arrived) (hopen : l.eof = true) (arrived' : Bytes)
    (hinbound : l'.inbound = ([], l.eof, l.buffer.seqn, l.buffer.history)) :
    l'.Aligned sent arrived' := by
  simp only [inbound, Prod.mk.injEq] at hinbound
  obtain ⟨hstream, heof, hseqn, hhistory⟩ := hinbound
  obtain ⟨before, after, hsent, hopened, hnumber, -, -⟩ := h.boundary
  refine ⟨before, after, hsent, ?_, ?_, ?_, fun hnot => ?_⟩
  · rw [opened, hhistory]
    exact hopened
  · rw [hseqn, hnumber]
  · rw [hstream]
    exact List.nil_prefix
  · rw [heof, hopen] at hnot
    cases hnot

omit [SessionConfig C] in
/-- What the next read of an aligned loop finds. -/
theorem Aligned.reads [LawfulSodium] (h : l.Aligned sent arrived)
    (hfits : ∀ p ∈ sent, p.key.Fits p.payload) {e : Event M} (hstep : InStep d sent l e) :
    ∃ before after, sent = before ++ after ∧ l.opened = before.map SentPacket.payload ∧
      l.buffer.seqn = UInt32.ofNat before.length ∧ l.stream <+: wires l.buffer.seqn after ∧
      (l.eof = false → wires 0 before ++ l.stream = arrived) ∧
      ReadsNext (d.common l.session).cipher l.buffer after l.stream l.eof (l.nextRead d) := by
  obtain ⟨before, after, hsent, hopened, hseqn, hleads, harrived⟩ := h.boundary
  refine ⟨before, after, hsent, hopened, hseqn, hleads, harrived,
    readsNext _ _ (fun p hp => hfits p ?_) (fun p hp => hstep p ?_) hleads _⟩
  · rw [hsent]
    exact List.mem_append_right _ hp
  · have hlength : l.buffer.history.length = before.length := by
      have hcount := congrArg List.length hopened
      simpa [opened] using hcount
    rw [hsent, hlength, List.getElem?_append_right (Nat.le_refl _), Nat.sub_self, ← List.head?_eq_getElem?]
    exact hp

/-- One event keeps a loop aligned. -/
theorem Aligned.iterate [LawfulSodium] (h : l.Aligned sent arrived)
    (hfits : ∀ p ∈ sent, p.key.Fits p.payload) (e : Event M) (hstep : InStep d sent l e)
    (htaken : NothingTaken l e) (hsent : arrived ++ arrivals [e] <+: wires 0 sent) :
    (iterate d l e).Aligned sent (arrived ++ arrivals [e]) := by
  cases e with
  | arrive bytes =>
    simp only [arrivals, List.append_nil] at hsent ⊢
    unfold Loop.iterate
    dsimp only
    by_cases heof : l.eof = true
    · rw [if_pos heof]
      obtain ⟨before, after, hsplit, hopened, hseqn, hleads, -⟩ := h.boundary
      refine ⟨before, after, hsplit, hopened, hseqn, hleads, fun hnot => ?_⟩
      rw [heof] at hnot
      cases hnot
    · rw [if_neg heof]
      have hopen : l.eof = false := by simpa using heof
      obtain ⟨before, after, hsplit, hopened, hseqn, -, harrived⟩ := h.boundary
      have hbytes := harrived hopen
      refine ⟨before, after, hsplit, hopened, hseqn, ?_, fun _ => ?_⟩
      · rw [← hbytes, hsplit, wires_append, List.append_assoc] at hsent
        have hcut := (List.prefix_append_right_inj _).mp hsent
        rw [hseqn]
        simpa using hcut
      · rw [← hbytes, List.append_assoc]
  | close =>
    simp only [arrivals, List.append_nil]
    obtain ⟨before, after, hsplit, hopened, hseqn, hleads, -⟩ := h.boundary
    exact ⟨before, after, hsplit, hopened, hseqn, hleads, fun hnot => by cases hnot⟩
  | timeout =>
    simp only [arrivals, List.append_nil]
    unfold Loop.iterate
    dsimp only
    split
    · exact h.of_same rfl
    · exact h
  | message m taken =>
    have hzero : taken = 0 := htaken
    subst hzero
    simp only [arrivals, List.append_nil]
    unfold Loop.iterate
    dsimp only
    split
    · unfold turnMessage
      split
      · exact h
      · dsimp only
        split
        · exact h.of_same rfl
        · exact h.of_same rfl
        · exact h.of_same (endTurn_inbound d _)
    · exact h
  | read =>
    simp only [arrivals, List.append_nil]
    obtain ⟨before, after, hsplit, hopened, hseqn, hleads, harrived, hreads⟩ := h.reads hfits hstep
    cases hstage : l.stage with
    | finished result =>
      simp only [Loop.iterate, hstage]
      exact h
    | running =>
      simp only [Loop.iterate, hstage, turnRead]
      cases hread : l.nextRead d with
      | pending => exact h
      | panic => exact h.of_same rfl
      | ok n buffer rest =>
        rw [hread] at hreads
        obtain ⟨p, later, head, rfl, hstream, hhead, rfl⟩ := hreads.of_ok
        dsimp only
        exact .take hsplit hopened hseqn hleads harrived hstream (handle_inbound d _ true)
      | err e buffer rest =>
        rw [hread] at hreads
        obtain ⟨heof, rfl, -, bytes, rfl⟩ := hreads.of_err
        dsimp only
        split
        · exact h.ends heof _ rfl
        · exact h.ends heof _ (handle_inbound d _ false)
    | draining =>
      simp only [Loop.iterate, hstage, drain]
      cases hread : l.nextRead d with
      | pending => exact h
      | panic => exact h.of_same rfl
      | ok n buffer rest =>
        rw [hread] at hreads
        obtain ⟨p, later, head, rfl, hstream, hhead, rfl⟩ := hreads.of_ok
        dsimp only
        split
        · exact .take hsplit hopened hseqn hleads harrived hstream rfl
        · exact .take hsplit hopened hseqn hleads harrived hstream rfl
      | err e buffer rest =>
        rw [hread] at hreads
        obtain ⟨heof, rfl, -, bytes, rfl⟩ := hreads.of_err
        exact h.ends heof _ rfl

omit [Deps] in
theorem arrivals_cons {M : Type} (e : Event M) (events : List (Event M)) :
    arrivals (e :: events) = arrivals [e] ++ arrivals events := by
  cases e <;> simp [arrivals]

/-- Every run that takes nothing from a pending read keeps a loop aligned. -/
theorem Aligned.run [LawfulSodium] (h : l.Aligned sent arrived)
    (hfits : ∀ p ∈ sent, p.key.Fits p.payload) (events : List (Event M))
    (hsteps : Along (Loop.iterate d) (InStep d sent) l events)
    (htaken : Along (Loop.iterate d) NothingTaken l events)
    (hsent : arrived ++ arrivals events <+: wires 0 sent) :
    (run d l events).Aligned sent (arrived ++ arrivals events) := by
  induction events generalizing l arrived with
  | nil =>
    rw [arrivals, List.append_nil]
    exact h
  | cons e events ih =>
    rw [arrivals_cons, ← List.append_assoc] at hsent ⊢
    have hnow : arrived ++ arrivals [e] <+: wires 0 sent :=
      (List.prefix_append _ _).trans hsent
    exact ih (h.iterate hfits e hsteps.1 htaken.1 hnow) hsteps.2 htaken.2 hsent

/-- A loop has read nothing before its first turn. -/
theorem start_inbound (s : S) (output : Bytes) :
    (start d s output).inbound = ([], false, 0, []) := by
  unfold start
  dsimp only
  split
  · rfl
  · split <;> rfl

theorem start_aligned (s : S) (output : Bytes) (sent : List SentPacket) :
    (start d s output).Aligned sent [] := by
  have hinbound := start_inbound (d := d) s output
  simp only [inbound, Prod.mk.injEq] at hinbound
  obtain ⟨hstream, heof, hseqn, hhistory⟩ := hinbound
  refine ⟨[], sent, rfl, ?_, ?_, ?_, fun _ => ?_⟩
  · rw [opened, hhistory]
    rfl
  · rw [hseqn]
    rfl
  · rw [hstream]
    exact List.nil_prefix
  · rw [hstream]
    rfl

omit [SessionConfig C] in
theorem Aligned.opened_prefix (h : l.Aligned sent arrived) :
    l.opened <+: sent.map SentPacket.payload := by
  obtain ⟨before, after, rfl, hopened, -⟩ := h.boundary
  rw [hopened, List.map_append]
  exact List.prefix_append _ _

end Loop

end

end Thrussh
