import Thrussh.Concrete
import Thrussh.Joint
import Thrussh.SshRead
import Thrussh.Tracing

/-!
# A client connected to a server

Each side has read the other's identification line and has sealed its first
KEXINIT: this is where both sides of a connection begin, so both stay joined along every
orderly run. What follows is what a connection promises to both sides: packets are
delivered in order under matching keys, reads never fail, and both sides agree on
the session id and on the record of the last exchange.
-/

namespace Thrussh

open Lib

/-! ### The beginning -/

section
variable [Deps] {C S M C' S' M' : Type} [SessionConfig C] [SessionConfig C']

/-- A session before its first turn: its KEXINIT is sealed and recorded. -/
structure CommonSession.Opens (x : Script C) (payload : Bytes) (s : CommonSession C) : Prop where
  /-- No exchange is over. -/
  initial : s.Initial
  /-- The configuration. -/
  config_eq : s.config = x.config
  /-- The own KEXINIT. -/
  recites : Recites (SessionConfig.role C) (SessionConfig.preferred x.config) 0 payload
  /-- The record. -/
  record : ∃ k, s.kex = some (.kexInit k) ∧ k.exchange = x.record payload ∧ k.sessionId = none
  /-- It is sealed. -/
  buffer : s.writeBuffer = SSHBuffer.new.sealed clearPair .kexinit payload
  /-- The session is on. -/
  disconnected : s.disconnected = false

variable {d : Driver C S M} {x : Script C} {payload line : Bytes} {s : S}

omit [Deps] in
/-- A KEXINIT belongs to an exchange. -/
theorem exchangePacket_of_recites {role : Role} {pref : Preferred} (h : Recites role pref 0 payload) :
    ExchangePacket payload := by
  obtain ⟨cookie, rfl⟩ := h
  exact ⟨msg.KEXINIT, head_writeKex _ _, .inl rfl⟩

/-- Nothing is sealed yet. -/
theorem Transcript.new (x : Script C) : Transcript x ⟨[], [], []⟩ [] .new := by
  refine ⟨rfl, rfl, .nil, ?_, rfl, .nil _ _, ?_, ?_, .nil x⟩
  · intro r hr
    cases hr
  · intro r hr
    cases hr
  · intro r hr
    cases hr

/-- A session stands at the beginning of its first exchange. -/
theorem CommonSession.Opens.standing {s : CommonSession C} (h : s.Opens x payload) :
    Standing x ⟨[], [payload], []⟩ [] s := by
  have hnone := h.initial.encrypted
  have hemitted : s.emitted = [] := emitted_none hnone
  have hsealed : sealedPayloads s.writeBuffer.history = [] := by
    rw [h.buffer]
    exact sealedPayloads_append [] (by simp)
  have htranscript : Transcript x ⟨[], [payload], []⟩ [] s.writeBuffer := by
    rw [h.buffer]
    exact (Transcript.new x).recite (by decide) .kexinit _ (exchangePacket_of_recites h.recites)
      h.recites
  obtain ⟨k, hk, hrecord, hid⟩ := h.record
  refine ⟨htranscript, h.config_eq, h.initial.cipher, ?_, fun _ => rfl, fun enc henc => ?_,
    fun body hbody => ?_, ?_, fun enc henc => ?_, fun _ => hsealed, fun enc henc => ?_⟩
  · exact .waiting ((exchanging_none hnone).trans hk) hrecord hid rfl rfl
  · cases hnone.symm.trans henc
  · rw [hemitted] at hbody
    cases hbody
  · rw [hsealed]
    exact List.nil_prefix
  · cases hnone.symm.trans henc
  · cases hnone.symm.trans henc

/-- Before the first turn the KEXINIT is written. -/
theorem Loop.start_stands (line : Bytes) {E : CommonSession C → Bytes → CommonSession C → Prop}
    (hd : d.Performs x E) (h : (d.common s).Opens x payload) :
    (Loop.start d s line).stage = .running ∧
      (Loop.start d s line).Stands d x line ⟨[], [payload], []⟩ := by
  have hset := hd.behaves.common_set
  have hnone := h.initial.encrypted
  have hflush : flush (d.common s) = .ok () (d.common s) := by
    simp only [flush, run_bind, flushPackets_none hnone]
    rfl
  have hcommon : d.common (Loop.clearWrite d (d.setCommon (d.common s) s)) =
      { d.common s with writeBuffer := (d.common s).writeBuffer.clear } := by
    unfold Loop.clearWrite
    rw [hset, hset]
  have hopen : (d.common (Loop.clearWrite d (d.setCommon (d.common s) s))).disconnected = false := by
    rw [hcommon]
    exact h.disconnected
  have hstart : Loop.start d s line = ⟨Loop.clearWrite d (d.setCommon (d.common s) s), .new, [],
      false, line ++ (d.common s).writeBuffer.buffer, .running, []⟩ := by
    unfold Loop.start zoom
    simp only [hflush, hset, hopen, Bool.false_eq_true, if_false]
  have hstanding := h.standing.cleared
  rw [hstart]
  refine ⟨rfl, ⟨_, rfl, ?_⟩, ?_, ?_, fun enc henc => ?_⟩
  · rw [hcommon]
    exact hstanding
  · rw [hcommon]
    rfl
  · rw [hcommon]
    have hsound := h.initial.sound
    exact ⟨hsound.fits, hsound.exclusive, hsound.first⟩
  · rw [hcommon] at henc
    cases hnone.symm.trans henc

/-- Before its first turn a loop has heard nothing. -/
theorem Loop.start_partner {E : CommonSession C → Bytes → CommonSession C → Prop}
    (hd : d.Performs x E) (h : (d.common s).Opens x payload) (v' : Progress)
    (history' : List PacketRecord) :
    Partner d x line ⟨[], [payload], []⟩
      (d.common (Loop.start d s line).session).writeBuffer.history v' history' []
      (Loop.start d s line) := by
  obtain ⟨-, hstands⟩ := Loop.start_stands line hd h
  have hinbound := Loop.start_inbound (d := d) s line
  simp only [Loop.inbound, Prod.mk.injEq] at hinbound
  obtain ⟨-, heof, -, hhistory⟩ := hinbound
  refine ⟨hstands.told, List.nil_prefix, fun _ => ⟨hstands, rfl, ?_, ?_, heof,
    Loop.start_aligned _ _ _⟩⟩
  · rw [Loop.opened, hhistory]
    rfl
  · rw [hhistory]
    exact .nil

/-- Two loops before their first turns are joined. -/
theorem Joined.start (line line' : Bytes) {E : CommonSession C → Bytes → CommonSession C → Prop}
    {E' : CommonSession C' → Bytes → CommonSession C' → Prop} {d' : Driver C' S' M'} {x' : Script C'}
    {payload' : Bytes} {s' : S'} (hd : d.Performs x E) (hd' : d'.Performs x' E')
    (h : (d.common s).Opens x payload) (h' : (d'.common s').Opens x' payload') :
    Joined d d' x x' line line' ⟨Loop.start d s line, Loop.start d' s' line', 0, 0⟩ :=
  ⟨_, _, _, _, Loop.start_partner hd h _ _, Loop.start_partner hd' h' _ _, Nat.zero_le _,
    Nat.zero_le _⟩

/-! ### What both sides are promised -/

section
variable {d : Driver C S M} {d' : Driver C' S' M'} {x : Script C} {x' : Script C'}
  {line line' : Bytes} {j : Duplex (Loop S) (Loop S')}

/-- The ordinary packets that a running loop has opened are the first that the other side has
queued. -/
theorem Joined.ordinaries (h : Joined d d' x x' line line' j) (hrunning : j.left.stage = .running) :
    Thrussh.ordinaries j.left.opened <+: Thrussh.ordinaries (d'.common j.right.session).emitted := by
  obtain ⟨v, history, v', history', hleft, hright, -, -⟩ := h
  have haligned := (hleft.listens hrunning).aligned
  have hopened := haligned.opened_prefix
  have hsent : (sentUnder (sealingKey v'.past) history').map SentPacket.payload =
      history'.map PacketRecord.payload := by
    rw [sentUnder, List.map_map]
    rfl
  rw [hsent] at hopened
  exact (ordinaries_mono hopened).trans hright.told.queued

/-- No read of a loop that runs fails. -/
theorem Joined.reads [LawfulSodium] (h : Joined d d' x x' line line' j) (hmatches : x.Matches x')
    (hample' : (d'.common j.right.session).Ample) (hrunning : j.left.stage = .running) :
    j.left.nextRead d ≠ .panic ∧ ∀ e b rest, j.left.nextRead d ≠ .err e b rest := by
  obtain ⟨v, history, v', history', hleft, hright, -, -⟩ := h
  obtain ⟨-, after, hreads, -⟩ := (hleft.listens hrunning).reads hmatches hright.told
    ⟨hleft.heard, hright.heard⟩ hample' (.read : Event M)
  constructor
  · intro hpanic
    rw [hpanic] at hreads
    cases hreads
  · intro e b rest herr
    rw [herr] at hreads
    cases hreads.of_err.1

/-- A loop that waits although everything is delivered has opened everything that was sealed. -/
theorem Joined.complete [LawfulSodium] (h : Joined d d' x x' line line' j) (hmatches : x.Matches x')
    (hample' : (d'.common j.right.session).Ample) (hrunning : j.left.stage = .running)
    (hrunning' : j.right.stage = .running)
    (hdelivered : j.toLeft = (j.right.output.drop line'.length).length)
    (hpending : j.left.nextRead d = .pending) :
    j.left.buffer.history.map PacketRecord.label =
      (d'.common j.right.session).writeBuffer.history.map PacketRecord.label := by
  have hlabels := h.labels hrunning
  obtain ⟨v, history, v', history', hleft, hright, -, -⟩ := h
  have hlistens := hleft.listens hrunning
  have htold := (hright.listens hrunning').told
  have hjoins : v.Joins v' := ⟨hleft.heard, hright.heard⟩
  obtain ⟨before, after, hsent, hopened, hseqn, -, harrived⟩ := hlistens.aligned.boundary
  have hbytes := harrived hlistens.eof
  rw [hdelivered, List.take_length, hright.told.bytes_eq, hsent, wires_append, UInt32.zero_add,
    ← hseqn] at hbytes
  have hstream : j.left.stream = wires j.left.buffer.seqn after := List.append_cancel_left hbytes
  have hall : after = [] := by
    cases after with
    | nil => rfl
    | cons p later =>
      -- the whole next packet is there, so the read would not wait
      have hkey := (hlistens.next hmatches hright.told hjoins hsent hopened (p := p) rfl).1
      have hfit := hright.told.fits hample' p (by rw [hsent]; simp)
      rw [hkey] at hfit
      obtain ⟨head, -, hread⟩ := read_wire (d.common j.left.session).cipher j.left.buffer _ hfit
      have hnow := hread (wires (j.left.buffer.seqn + 1) later) j.left.eof
      rw [← hkey] at hnow
      rw [Loop.nextRead, hstream, wires] at hpending
      cases hnow.symm.trans hpending
  refine hlabels.eq_of_length ?_
  rw [hall, List.append_nil] at hsent
  have hcount := congrArg List.length hopened
  rw [← hsent, htold] at hcount
  simpa [Loop.opened, sentUnder] using hcount

/-- It has opened everything that was queued, too. -/
theorem Joined.complete_queue (h : Joined d d' x x' line line' j)
    (hample' : (d'.common j.right.session).Ample) (hrunning' : j.right.stage = .running)
    (hlabels : j.left.buffer.history.map PacketRecord.label =
      (d'.common j.right.session).writeBuffer.history.map PacketRecord.label) :
    Thrussh.ordinaries j.left.opened = Thrussh.ordinaries (d'.common j.right.session).emitted := by
  obtain ⟨v, history, v', history', hleft, hright, -, -⟩ := h
  have hstands := (hright.listens hrunning').stands
  obtain ⟨before, -, hstanding⟩ := hstands.place
  have hpayloads : j.left.opened =
      (d'.common j.right.session).writeBuffer.history.map PacketRecord.payload := by
    have hmap := congrArg (List.map fun label : Nat × UInt32 × Bytes => label.2.2) hlabels
    rw [List.map_map, List.map_map] at hmap
    exact hmap
  rw [hpayloads, hstanding.transcript.ordinaries_eq]
  cases henc : (d'.common j.right.session).encrypted with
  | none => rw [hstanding.inLine.clear henc, emitted_none henc]
  | some enc =>
    have hwrite := hstands.drained enc henc
    have hqueued : enc.queued = [] := by
      unfold Encrypted.queued
      rw [hwrite]
      rfl
    rw [hstanding.queued_eq henc hample'.1, hqueued, List.append_nil]

/-- What two sessions agree on. -/
structure CommonSession.Agrees (s : CommonSession C) (s' : CommonSession C') : Prop where
  /-- The session id. -/
  sessionId : ∀ enc enc', s.encrypted = some enc → s'.encrypted = some enc' →
    enc.sessionId = enc'.sessionId
  /-- Neither is more than one exchange ahead. -/
  ahead : s.cipher.epoch ≤ s'.cipher.epoch + 1
  behind : s'.cipher.epoch ≤ s.cipher.epoch + 1
  /-- After the same number of exchanges, what the one seals with the other opens with. -/
  sealing : s.cipher.epoch = s'.cipher.epoch → s.cipher.localToRemote = s'.cipher.remoteToLocal
  opening : s.cipher.epoch = s'.cipher.epoch → s.cipher.remoteToLocal = s'.cipher.localToRemote
  /-- And the record of the last exchange is the same. -/
  exchange : s.cipher.epoch = s'.cipher.epoch → ∀ enc enc' ex ex', s.encrypted = some enc →
    s'.encrypted = some enc' → enc.exchange = some ex → enc'.exchange = some ex' → ex = ex'

/-- Three packets of an exchange at most have been sent. -/
theorem Script.Place.few_own {v : Progress} {s : CommonSession C} (h : x.Place v s) :
    v.own.length ≤ roundLength := by
  by_cases hphase : s.phase = .newKeys
  · cases h with
    | idle henc hrekey hex hlast hids hown hpeer => simp [hown]
    | waiting hk hrecord hid hown hpeer => simp [hown, roundLength]
    | dh hk hdhphase hdh hown hpeer => exact Nat.le_of_lt hown
    | newKeys hk hdeals hids hown hpeer hdrained => rw [hown]; exact Nat.le_refl _
  · exact Nat.le_of_lt (h.few hphase)

omit [Deps] [SessionConfig C] [SessionConfig C'] in
/-- A side that has heard part of what the other has said is at most one round ahead. -/
theorem past_le {v v' : Progress} (h : v.heard <+: v'.said) (hown : v'.own.length ≤ roundLength) :
    v.past.length ≤ v'.past.length + 1 := by
  have hlength := h.length_le
  rw [Progress.heard, Progress.said, List.length_append, List.length_append, length_flatMap_heard,
    length_flatMap_said] at hlength
  simp only [roundLength] at hlength hown
  omega

/-- How many packets of the exchange in progress a side has sent and heard. -/
theorem Script.Place.lengths {v : Progress} {s : CommonSession C} (h : x.Place v s) :
    (s.phase = .idle ∧ v.own.length = 0 ∧ v.peer.length = 0) ∨
    (v.own.length = 1 ∧ v.peer.length = 0) ∨
    (v.peer.length = 1 ∧ ∃ k, x.dh v.id v.own v.peer k) ∨
    (v.own.length = 3 ∧ v.peer.length = 2) := by
  cases h with
  | idle henc hrekey hex hlast hids hown hpeer =>
    refine .inl ⟨?_, by rw [hown]; rfl, by rw [hpeer]; rfl⟩
    simp [CommonSession.phase, henc, Encrypted.phase, hrekey, hex]
  | waiting hk hrecord hid hown hpeer =>
    exact .inr (.inl ⟨by rw [hown]; rfl, by rw [hpeer]; rfl⟩)
  | dh hk hphase hdh hown hpeer => exact .inr (.inr (.inl ⟨hpeer, _, hdh⟩))
  | newKeys hk hdeals hids hown hpeer hdrained =>
    exact .inr (.inr (.inr ⟨by rw [hown]; rfl, by rw [hpeer]; rfl⟩))

/-- A side has sent at least as much of the exchange in progress as it has heard. -/
theorem Script.Place.peer_le {v : Progress} {s : CommonSession C} (h : x.Place v s)
    (hdh : ∀ id own peer k, x.dh id own peer k → peer.length ≤ own.length) :
    v.peer.length ≤ v.own.length := by
  rcases h.lengths with ⟨-, hown, hpeer⟩ | ⟨hown, hpeer⟩ | ⟨-, k, hk⟩ | ⟨hown, hpeer⟩
  · omega
  · omega
  · exact hdh _ _ _ _ hk
  · omega

/-- A session that keeps the record of its last exchange is at the end of it. -/
theorem Standing.last_eq {v : Progress} {before : Bytes} {s : CommonSession C}
    (h : Standing x v before s) (hsound : s.Sound) {enc : Encrypted} {ex : Exchange}
    (henc : s.encrypted = some enc) (hex : enc.exchange = some ex) :
    v.past.getLast?.map (·.keys.exchange) = some ex := by
  have hrekey : enc.rekey = none := by
    by_contra hnot
    have hnone := hsound.exclusive enc henc (Option.isSome_iff_ne_none.mpr hnot)
    cases hex.symm.trans hnone
  have hnone : s.exchanging = none := (exchanging_some henc).trans hrekey
  have hplace := h.place
  cases hplace with
  | idle henc' hrekey' hex' hlast hids hown hpeer =>
    cases henc.symm.trans henc'
    cases hex.symm.trans hex'
    exact hlast
  | waiting hk hrecord hid hown hpeer => cases hnone.symm.trans hk
  | dh hk hphase hdh hown hpeer => cases hnone.symm.trans hk
  | newKeys hk hdeals hids hown hpeer hdrained => cases hnone.symm.trans hk

/-- Two loops that run agree. -/
theorem Joined.agrees (h : Joined d d' x x' line line' j) (hmatches : x.Matches x')
    (hrunning : j.left.stage = .running) (hrunning' : j.right.stage = .running) :
    (d.common j.left.session).Agrees (d'.common j.right.session) := by
  obtain ⟨v, history, v', history', hleft, hright, -, -⟩ := h
  have hjoins : v.Joins v' := ⟨hleft.heard, hright.heard⟩
  have hstands := (hleft.listens hrunning).stands
  have hstands' := (hright.listens hrunning').stands
  obtain ⟨before, -, hstanding⟩ := hstands.place
  obtain ⟨before', -, hstanding'⟩ := hstands'.place
  have harchive := hstanding.transcript.archive
  have harchive' := hstanding'.transcript.archive
  have hepoch : (d.common j.left.session).cipher.epoch = v.past.length := by
    rw [hstanding.cipher_eq]
    rfl
  have hepoch' : (d'.common j.right.session).cipher.epoch = v'.past.length := by
    rw [hstanding'.cipher_eq]
    rfl
  constructor
  · intro enc enc' henc henc'
    have hid := (hstanding.encrypted enc henc).1
    have hid' := (hstanding'.encrypted enc' henc').1
    rw [Progress.id, List.head?_eq_getElem?] at hid hid'
    obtain ⟨r, hr, hsession⟩ := Option.map_eq_some_iff.mp hid
    obtain ⟨r', hr', hsession'⟩ := Option.map_eq_some_iff.mp hid'
    rw [← hsession, ← hsession']
    exact (hmatches.keys hjoins harchive harchive' hr hr').sessionId
  · rw [hepoch, hepoch']
    exact past_le hjoins.heard hstanding'.place.few_own
  · rw [hepoch, hepoch']
    exact past_le hjoins.said hstanding.place.few_own
  · intro hsame
    rw [hepoch, hepoch'] at hsame
    rw [hstanding.cipher_eq, hstanding'.cipher_eq]
    change sealingKey v.past v.past.length = openingKey v'.past v'.past.length
    rw [hsame]
    exact hmatches.symm.meet hjoins.symm harchive' harchive (Nat.le_refl _) (Nat.le_of_eq hsame.symm)
  · intro hsame
    rw [hepoch, hepoch'] at hsame
    rw [hstanding.cipher_eq, hstanding'.cipher_eq]
    change openingKey v.past v.past.length = sealingKey v'.past v'.past.length
    rw [← hsame]
    exact (hmatches.meet hjoins harchive harchive' (Nat.le_refl _) (Nat.le_of_eq hsame)).symm
  · intro hsame enc enc' ex ex' henc henc' hex hex'
    rw [hepoch, hepoch'] at hsame
    have hlast := hstanding.last_eq hstands.sound henc hex
    have hlast' := hstanding'.last_eq hstands'.sound henc' hex'
    rw [List.getLast?_eq_getElem?] at hlast hlast'
    obtain ⟨r, hr, hrecord⟩ := Option.map_eq_some_iff.mp hlast
    obtain ⟨r', hr', hrecord'⟩ := Option.map_eq_some_iff.mp hlast'
    rw [← hsame] at hr'
    rw [← hrecord, ← hrecord']
    exact (hmatches.keys hjoins harchive harchive' hr hr').exchange

/-- When each side has heard all that the other has said, no exchange is in progress. -/
theorem idle_of_heard {v v' : Progress} {s : CommonSession C} {s' : CommonSession C'}
    (hplace : x.Place v s) (hplace' : x'.Place v' s')
    (hdh : ∀ id own peer k, x.dh id own peer k → own.length = 2)
    (hdh' : ∀ id own peer k, x'.dh id own peer k → peer.length ≤ own.length)
    (hheard : v.heard = v'.said) (hheard' : v'.heard = v.said) :
    s.phase = .idle ∧ s'.phase = .idle ∧ v.past.length = v'.past.length := by
  have hlength := congrArg List.length hheard
  have hlength' := congrArg List.length hheard'
  simp only [Progress.heard, Progress.said, List.length_append, length_flatMap_heard,
    length_flatMap_said, roundLength] at hlength hlength'
  have hle' := hplace'.peer_le hdh'
  -- both have sent as many packets as they have heard, and the client in between is ahead
  rcases hplace.lengths with ⟨hidle, hown, hpeer⟩ | ⟨hown, hpeer⟩ | ⟨hpeer, k, hk⟩ | ⟨hown, hpeer⟩
  · rcases hplace'.lengths with
      ⟨hidle', hown', hpeer'⟩ | ⟨hown', hpeer'⟩ | ⟨hpeer', k', hk'⟩ | ⟨hown', hpeer'⟩
    · exact ⟨hidle, hidle', by omega⟩
    · omega
    · omega
    · omega
  · omega
  · have htwo := hdh _ _ _ _ hk
    omega
  · omega

/-- Two loops that wait although everything is delivered are in no exchange. -/
theorem Joined.settles [LawfulSodium] (h : Joined d d' x x' line line' j) (hmatches : x.Matches x')
    (hdh : ∀ id own peer k, x.dh id own peer k → own.length = 2)
    (hdh' : ∀ id own peer k, x'.dh id own peer k → peer.length ≤ own.length)
    (hample : (d.common j.left.session).Ample) (hample' : (d'.common j.right.session).Ample)
    (hrunning : j.left.stage = .running) (hrunning' : j.right.stage = .running)
    (hdelivered : j.toLeft = (j.right.output.drop line'.length).length)
    (hdelivered' : j.toRight = (j.left.output.drop line.length).length)
    (hpending : j.left.nextRead d = .pending) (hpending' : j.right.nextRead d' = .pending) :
    (d.common j.left.session).phase = .idle ∧ (d'.common j.right.session).phase = .idle ∧
      (d.common j.left.session).cipher.epoch = (d'.common j.right.session).cipher.epoch := by
  have hall := h.complete hmatches hample' hrunning hrunning' hdelivered hpending
  have hall' := h.swap.complete hmatches.symm hample hrunning' hrunning hdelivered' hpending'
  obtain ⟨v, history, v', history', hleft, hright, -, -⟩ := h
  have hlistens := hleft.listens hrunning
  have hlistens' := hright.listens hrunning'
  obtain ⟨before, -, hstanding⟩ := hlistens.stands.place
  obtain ⟨before', -, hstanding'⟩ := hlistens'.stands.place
  have hheard : v.heard = v'.said := by
    rw [← hlistens.heard, ← hstanding'.transcript.said]
    have hmap := congrArg (List.map fun label : Nat × UInt32 × Bytes => label.2.2) hall
    rw [List.map_map, List.map_map] at hmap
    exact congrArg exchanges hmap
  have hheard' : v'.heard = v.said := by
    rw [← hlistens'.heard, ← hstanding.transcript.said]
    have hmap := congrArg (List.map fun label : Nat × UInt32 × Bytes => label.2.2) hall'
    rw [List.map_map, List.map_map] at hmap
    exact congrArg exchanges hmap
  obtain ⟨hidle, hidle', hpast⟩ :=
    idle_of_heard hstanding.place hstanding'.place hdh hdh' hheard hheard'
  refine ⟨hidle, hidle', ?_⟩
  rw [hstanding.cipher_eq, hstanding'.cipher_eq]
  exact hpast

end

end

/-! ### The client and the server -/

section
variable [Deps]

/-- The server before its first turn. -/
theorem Server.runStream_opens {config : Server.Config} {handler : Server.Handler}
    {sshid : Bytes} {world : World} {l : Loop Server.Session} (peerPref : Preferred)
    (hl : Server.runStream config handler sshid world = .ok l) :
    ∃ s payload, l = Loop.start (Server.driver handler) s (config.serverId ++ [13, 10]) ∧
      s.common.Opens (Server.script config sshid peerPref) payload := by
  unfold Server.runStream at hl
  cases hs : Server.readSshId config sshid world with
  | error e =>
    rw [hs] at hl
    cases hl
  | ok s =>
    rw [hs] at hl
    cases hl
    have hinitial := Server.readSshId_initial hs
    simp only [Server.readSshId, ownWrite_ok] at hs
    cases hs
    exact ⟨_, writeKex config.preferred (world.rand 0).cookie, rfl, hinitial, rfl, ⟨_, rfl⟩,
      ⟨_, rfl, rfl, rfl⟩, rfl, rfl⟩

/-- The client before its first turn, if its handler has not disconnected. -/
theorem Client.connectStream_opens {config : Client.Config} {app : Client.Application}
    {sshid : Bytes} {world : World} {s : Client.Session} {l : Loop Client.Session}
    (peerPref : Preferred) (hs : Client.readSshId config sshid world = .ok s)
    (hl : Client.connectStream config app sshid world = .ok l)
    (hstays : (app.greeting s).any Client.Call.leaves = false) :
    ∃ t payload, l = Loop.start (Client.driver app) t (config.clientId ++ [13, 10]) ∧
      t.common.Opens (Client.script config sshid peerPref) payload := by
  obtain ⟨u, t, hcalls, hu, rfl⟩ := Client.connectStream_calls hs hl
  have hinitial := Client.readSshId_initial hs
  have hnone : u.common.encrypted = none := by
    rw [hu]
    exact hinitial.encrypted
  have hcalm : (final ((app.greeting s).forM Client.runCall u)).common = u.common := by
    refine Client.calm_of_moves (p := False) (Moves.forM_mem fun call hcall => ?_) hnone False.elim
    refine Client.runCall_calm fun hleaves => ?_
    rw [List.any_eq_false] at hstays
    exact absurd hleaves (hstays call hcall)
  rw [hcalls, final_ok] at hcalm
  have ht : t.common = { s.common with tick := s.common.tick + 1 } := hcalm.trans hu
  simp only [Client.readSshId, ownWrite_ok] at hs
  cases hs
  refine ⟨t, writeKex config.preferred (world.rand 0).cookie, rfl, ?_⟩
  rw [ht]
  exact ⟨⟨rfl, ⟨_, rfl, rfl, rfl⟩, rfl, rfl, rfl, _, _, rfl⟩, rfl, ⟨_, rfl⟩, ⟨_, rfl, rfl, rfl⟩,
    rfl, rfl⟩

/-- The client on its byte streams. -/
abbrev Client.process (config : Client.Config) (app : Client.Application) :
    Process UInt8 (Loop Client.Session) (Doing Client.Msg) :=
  (Client.driver app).process (config.clientId ++ [13, 10])

/-- The server on its byte streams. -/
abbrev Server.process (config : Server.Config) (handler : Server.Handler) :
    Process UInt8 (Loop Server.Session) (Doing (UInt32 × ChannelMsg)) :=
  (Server.driver handler).process (config.serverId ++ [13, 10])

/-- What both sides do next. -/
abbrev Step : Type := Duplex.Move (Doing Client.Msg) (Doing (UInt32 × ChannelMsg))

/-- Configurations that go together. -/
structure Compatible (clientConfig : Client.Config) (app : Client.Application)
    (serverConfig : Server.Config) : Prop where
  /-- Every host key is read as it is written. -/
  keys : ∀ key ∈ serverConfig.keys, key.Readable
  /-- The application signs no packet of an exchange. -/
  signed : ∀ tick s data, .signed data ∈ app.awaited tick s → Unrelated (data.drop 36)
  /-- The client chooses no compression. -/
  client : Uncompressing .client clientConfig.preferred serverConfig.preferred
  /-- Nor does the server. -/
  server : Uncompressing .server serverConfig.preferred clientConfig.preferred

/-- A reader that has found an identification line, which came in any pieces and with anything
behind it. It may hold bytes from behind the line. -/
def Identified (line : Bytes) (r : SshRead) : Prop :=
  ∃ rest split b t, readSshId ⟨line ++ [13, 10] ++ rest, split, 0⟩ = .ok (b, t) ∧ b.id = line ∧
    r = ⟨some b, t⟩

/-- A client and a server before their first turns: the reader of each has found the other's
identification line. The bytes that a reader holds are the first that arrive at its loop. -/
structure Connected (clientConfig : Client.Config) (app : Client.Application)
    (serverConfig : Server.Config) (handler : Server.Handler) (l : Loop Client.Session)
    (l' : Loop Server.Session) (r r' : SshRead) : Prop where
  /-- The client, whose handler has not disconnected. -/
  client : ∃ world s, Client.readSshId clientConfig serverConfig.serverId world = .ok s ∧
    Client.connectStream clientConfig app serverConfig.serverId world = .ok l ∧
    (app.greeting s).any Client.Call.leaves = false
  /-- The server. -/
  server : ∃ world, Server.runStream serverConfig handler clientConfig.clientId world = .ok l'
  /-- The client's reader. -/
  clientReads : Identified serverConfig.serverId r
  /-- The server's reader. -/
  serverReads : Identified clientConfig.clientId r'

omit [Deps] in
/-- A reader that holds no more than a packet's length serves that, and then all other reads. -/
theorem Identified.delivers {line : Bytes} {r : SshRead} (h : Identified line r)
    (hroom : r.leftover.length ≤ 4) (capacities : List Nat) : r.Delivers (4 :: capacities) := by
  obtain ⟨rest, split, b, t, hread, -, rfl⟩ := h
  refine (delivers_iff (readSshId_counted hread) _).mpr ?_
  rintro capacity ⟨⟩
  exact hroom

section
variable (clientConfig : Client.Config) (app : Client.Application) (serverConfig : Server.Config)
  (handler : Server.Handler) (l : Loop Client.Session) (l' : Loop Server.Session)

/-- Both sides after some moves. -/
def converse (moves : List Step) : Duplex (Loop Client.Session) (Loop Server.Session) :=
  Duplex.run (Client.process clientConfig app) (Server.process serverConfig handler)
    ⟨l, l', 0, 0⟩ moves

/-- Moves that tear no read and seal no packet that is too long. -/
def OrderlyRun (moves : List Step) : Prop :=
  (l.session.common.Ample ∧ l'.session.common.Ample) ∧
    Duplex.Along (Client.process clientConfig app) (Server.process serverConfig handler)
      (Orderly (Client.driver app) (Server.driver handler)) ⟨l, l', 0, 0⟩ moves

instance (moves : List Step) :
    Decidable (OrderlyRun clientConfig app serverConfig handler l l' moves) :=
  inferInstanceAs (Decidable ((_ ∧ _) ∧ Duplex.Along _ _ _ _ _))

variable {clientConfig app serverConfig handler l l'} {r r' : SshRead} {moves : List Step}

theorem OrderlyRun.ample (h : OrderlyRun clientConfig app serverConfig handler l l' moves) :
    (converse clientConfig app serverConfig handler l l' moves).left.session.common.Ample ∧
      (converse clientConfig app serverConfig handler l l' moves).right.session.common.Ample :=
  Duplex.Along.kept (I := fun j => j.left.session.common.Ample ∧ j.right.session.common.Ample)
    (fun _ _ _ hm => ⟨hm.2.1, hm.2.2⟩) h.1 h.2

/-- Both sides begin joined. -/
theorem Connected.start_joined (h : Connected clientConfig app serverConfig handler l l' r r')
    (hcompatible : Compatible clientConfig app serverConfig) :
    Joined (Client.driver app) (Server.driver handler)
      (Client.script clientConfig serverConfig.serverId serverConfig.preferred)
      (Server.script serverConfig clientConfig.clientId clientConfig.preferred)
      (clientConfig.clientId ++ [13, 10]) (serverConfig.serverId ++ [13, 10]) ⟨l, l', 0, 0⟩ := by
  obtain ⟨world, s, hs, hleft, hstays⟩ := h.client
  obtain ⟨world', hright⟩ := h.server
  obtain ⟨t, payload, rfl, hopens⟩ :=
    Client.connectStream_opens serverConfig.preferred hs hleft hstays
  obtain ⟨t', payload', rfl, hopens'⟩ := Server.runStream_opens clientConfig.preferred hright
  exact Joined.start (clientConfig.clientId ++ [13, 10]) (serverConfig.serverId ++ [13, 10])
    (Client.driver_performs app hcompatible.signed serverConfig.serverId hcompatible.client)
    (Server.driver_performs handler clientConfig.clientId hcompatible.server) hopens hopens'

/-- Both sides stay joined. -/
theorem Connected.joined [LawfulSodium] (h : Connected clientConfig app serverConfig handler l l' r r')
    (hcompatible : Compatible clientConfig app serverConfig)
    (horderly : OrderlyRun clientConfig app serverConfig handler l l' moves) :
    Joined (Client.driver app) (Server.driver handler)
      (Client.script clientConfig serverConfig.serverId serverConfig.preferred)
      (Server.script serverConfig clientConfig.clientId clientConfig.preferred)
      (clientConfig.clientId ++ [13, 10]) (serverConfig.serverId ++ [13, 10])
      (converse clientConfig app serverConfig handler l l' moves) :=
  (h.start_joined hcompatible).run
    (Client.driver_performs app hcompatible.signed serverConfig.serverId hcompatible.client)
    (Server.driver_performs handler clientConfig.clientId hcompatible.server)
    (scripts_match clientConfig hcompatible.keys) horderly.2

/-- Between sides whose readers hold no more than a packet's length, along every orderly run: the
readers serve every read behind the lines, while a side runs, no read of its loop fails, and the
packets that it has opened are the first that the other side has sealed: in order, none lost,
none twice, each with the same sequence number and in the same epoch. -/
theorem packets_delivered [LawfulSodium]
    (hconnected : Connected clientConfig app serverConfig handler l l' r r')
    (hroom : r.leftover.length ≤ 4 ∧ r'.leftover.length ≤ 4)
    (hcompatible : Compatible clientConfig app serverConfig)
    (horderly : OrderlyRun clientConfig app serverConfig handler l l' moves) :
    let k := converse clientConfig app serverConfig handler l l' moves
    (∀ capacities, r.Delivers (4 :: capacities) ∧ r'.Delivers (4 :: capacities)) ∧
    (k.left.stage = .running →
      (k.left.nextRead (Client.driver app) ≠ .panic ∧
        ∀ e b rest, k.left.nextRead (Client.driver app) ≠ .err e b rest) ∧
      k.left.buffer.history.map PacketRecord.label <+:
        k.right.session.common.writeBuffer.history.map PacketRecord.label) ∧
    (k.right.stage = .running →
      (k.right.nextRead (Server.driver handler) ≠ .panic ∧
        ∀ e b rest, k.right.nextRead (Server.driver handler) ≠ .err e b rest) ∧
      k.right.buffer.history.map PacketRecord.label <+:
        k.left.session.common.writeBuffer.history.map PacketRecord.label) := by
  intro k
  have hjoined := hconnected.joined hcompatible horderly
  have hmatches := scripts_match clientConfig hcompatible.keys
  obtain ⟨hample, hample'⟩ := horderly.ample
  refine ⟨fun capacities => ⟨?_, ?_⟩, ?_, ?_⟩
  · exact hconnected.clientReads.delivers hroom.1 capacities
  · exact hconnected.serverReads.delivers hroom.2 capacities
  · intro hrunning
    exact ⟨hjoined.reads hmatches hample' hrunning, hjoined.labels hrunning⟩
  · intro hrunning
    exact ⟨hjoined.swap.reads hmatches.symm hample hrunning, hjoined.swap.labels hrunning⟩

/-- What the application signs is only sent from the queue. -/
def SignsOrdinary (app : Client.Application) : Prop :=
  ∀ tick s data, .signed data ∈ app.awaited tick s → Ordinary (data.drop 36)

/-- All that the server has queued is only sent from the queue. -/
theorem Connected.server_queues (h : Connected clientConfig app serverConfig handler l l' r r') :
    let k := converse clientConfig app serverConfig handler l l' moves
    ordinaries k.right.session.common.emitted = k.right.session.common.emitted := by
  intro k
  obtain ⟨world', hright⟩ := h.server
  obtain ⟨s, output, hs, rfl⟩ := Server.runStream_start hright
  refine List.filter_eq_self.mpr fun body hbody => decide_eq_true ?_
  have hswap := congrArg Duplex.left (Duplex.run_swap (Client.process clientConfig app)
    (Server.process serverConfig handler)
    ⟨l, Loop.start (Server.driver handler) s output, 0, 0⟩ moves)
  rw [show k.right = _ from hswap.trans (left_eq_run _ _)] at hbody
  exact Loop.run_queuesOnly (Server.driver_behaves (fun _ h => h) handler) hs output _ body hbody

/-- So is all that the client has queued, if what its application signs is. -/
theorem Connected.client_queues (h : Connected clientConfig app serverConfig handler l l' r r')
    (hsigns : SignsOrdinary app) :
    let k := converse clientConfig app serverConfig handler l l' moves
    ordinaries k.left.session.common.emitted = k.left.session.common.emitted := by
  intro k
  obtain ⟨world, s, -, hleft, -⟩ := h.client
  obtain ⟨t, output, ht, rfl⟩ := Client.connectStream_start hleft
  refine List.filter_eq_self.mpr fun body hbody => decide_eq_true ?_
  have hrun : k.left = _ := left_eq_run _ _
  rw [hrun] at hbody
  exact Loop.run_queuesOnly (Client.driver_behaves (fun _ h => h) app hsigns) ht output _ body hbody

/-- Once everything is delivered, a side that waits for more has opened everything that the other
side has sealed, and so everything that it has queued, if both run. -/
theorem everything_delivered [LawfulSodium]
    (hconnected : Connected clientConfig app serverConfig handler l l' r r')
    (hcompatible : Compatible clientConfig app serverConfig)
    (horderly : OrderlyRun clientConfig app serverConfig handler l l' moves) :
    let k := converse clientConfig app serverConfig handler l l' moves
    k.left.stage = .running → k.right.stage = .running →
    (k.toLeft = ((Server.process serverConfig handler).written k.right).length →
      k.left.nextRead (Client.driver app) = .pending →
      k.left.buffer.history.map PacketRecord.label =
        k.right.session.common.writeBuffer.history.map PacketRecord.label ∧
      ordinaries k.left.opened = k.right.session.common.emitted) ∧
    (k.toRight = ((Client.process clientConfig app).written k.left).length →
      k.right.nextRead (Server.driver handler) = .pending →
      k.right.buffer.history.map PacketRecord.label =
        k.left.session.common.writeBuffer.history.map PacketRecord.label ∧
      ordinaries k.right.opened = ordinaries k.left.session.common.emitted ∧
      (SignsOrdinary app → ordinaries k.right.opened = k.left.session.common.emitted)) := by
  intro k hrunning hrunning'
  have hjoined := hconnected.joined hcompatible horderly
  have hmatches := scripts_match clientConfig hcompatible.keys
  obtain ⟨hample, hample'⟩ := horderly.ample
  constructor
  · intro hdelivered hpending
    have hlabels := hjoined.complete hmatches hample' hrunning hrunning' hdelivered hpending
    have hqueue := hjoined.complete_queue hample' hrunning' hlabels
    exact ⟨hlabels, hqueue.trans hconnected.server_queues⟩
  · intro hdelivered hpending
    have hlabels := hjoined.swap.complete hmatches.symm hample hrunning' hrunning hdelivered hpending
    have hqueue := hjoined.swap.complete_queue hample hrunning hlabels
    exact ⟨hlabels, hqueue, fun hsigns => hqueue.trans (hconnected.client_queues hsigns)⟩

/-- Once everything is delivered and both sides wait for more, no exchange is in progress, and both
sides have completed the same number of them: no order of moves lets an exchange get stuck. -/
theorem exchange_settles [LawfulSodium]
    (hconnected : Connected clientConfig app serverConfig handler l l' r r')
    (hcompatible : Compatible clientConfig app serverConfig)
    (horderly : OrderlyRun clientConfig app serverConfig handler l l' moves) :
    let k := converse clientConfig app serverConfig handler l l' moves
    k.left.stage = .running → k.right.stage = .running →
    k.toLeft = ((Server.process serverConfig handler).written k.right).length →
    k.toRight = ((Client.process clientConfig app).written k.left).length →
    k.left.nextRead (Client.driver app) = .pending →
    k.right.nextRead (Server.driver handler) = .pending →
      k.left.session.common.phase = .idle ∧ k.right.session.common.phase = .idle ∧
      k.left.session.common.cipher.epoch = k.right.session.common.cipher.epoch := by
  intro k hrunning hrunning' hdelivered hdelivered' hpending hpending'
  have hjoined := hconnected.joined hcompatible horderly
  have hmatches := scripts_match clientConfig hcompatible.keys
  obtain ⟨hample, hample'⟩ := horderly.ample
  refine hjoined.settles hmatches ?_ ?_ hample hample' hrunning hrunning' hdelivered hdelivered'
    hpending hpending'
  · rintro id own peer k ⟨clientKexInit, serverKexInit, secret, names, rfl, -⟩
    rfl
  · rintro id own peer k ⟨serverKexInit, clientKexInit, names, key, rfl, rfl, -⟩
    exact Nat.le_refl _

/-- Along every orderly run, while a side runs, the packets that it has opened, other than those of
exchanges and the service request, are the first that the other side has ever queued, whatever
exchanges came in between. -/
theorem queue_delivered [LawfulSodium]
    (hconnected : Connected clientConfig app serverConfig handler l l' r r')
    (hcompatible : Compatible clientConfig app serverConfig)
    (horderly : OrderlyRun clientConfig app serverConfig handler l l' moves) :
    let k := converse clientConfig app serverConfig handler l l' moves
    (k.left.stage = .running → ordinaries k.left.opened <+: k.right.session.common.emitted) ∧
    (k.right.stage = .running →
      ordinaries k.right.opened <+: ordinaries k.left.session.common.emitted ∧
      (SignsOrdinary app → ordinaries k.right.opened <+: k.left.session.common.emitted)) := by
  intro k
  have hjoined := hconnected.joined hcompatible horderly
  constructor
  · intro hrunning
    have hqueue : ordinaries k.left.opened <+: ordinaries k.right.session.common.emitted :=
      hjoined.ordinaries hrunning
    exact hqueue.trans ⟨[], (List.append_nil _).trans hconnected.server_queues⟩
  · intro hrunning
    have hqueue : ordinaries k.right.opened <+: ordinaries k.left.session.common.emitted :=
      hjoined.swap.ordinaries hrunning
    exact ⟨hqueue, fun hsigns =>
      hqueue.trans ⟨[], (List.append_nil _).trans (hconnected.client_queues hsigns)⟩⟩

/-- Along every orderly run, while both sides run, they agree on the session id, neither is more
than one exchange ahead, and after the same number of exchanges each opens with the key that
the other seals with and both keep the same record of the last exchange. -/
theorem sides_agree [LawfulSodium]
    (hconnected : Connected clientConfig app serverConfig handler l l' r r')
    (hcompatible : Compatible clientConfig app serverConfig)
    (horderly : OrderlyRun clientConfig app serverConfig handler l l' moves) :
    let k := converse clientConfig app serverConfig handler l l' moves
    k.left.stage = .running → k.right.stage = .running →
      k.left.session.common.Agrees k.right.session.common := by
  intro k hrunning hrunning'
  have hmatches := scripts_match clientConfig hcompatible.keys
  exact (hconnected.joined hcompatible horderly).agrees hmatches hrunning hrunning'

end

end

namespace Concrete

/-- The client writes to the server, and the server to the client. -/
abbrev toServer : Step := .toRight 5000
abbrev toClient : Step := .toLeft 5000

/-- The server reads, and the client. -/
abbrev serverReads : Step := .right .read
abbrev clientReads : Step := .left .read

/-- The client is sent a message by its handle. -/
abbrev clientSends (m : Client.Msg) : Step := .left (.message (some m) 0)

/-- A client that asks for a re-exchange after every flush. -/
def restlessConfig : Client.Config := { clientConfig with limits := ⟨0, 2 ^ 30, 3600⟩ }

/-- The restless client's loop before its first turn. -/
def restless : @Loop (@Client.Session deps) :=
  letI := deps
  returned (Client.connectStream restlessConfig application serverConfig.serverId world)
    (by decide +kernel)

/-- The first exchange, and the service. -/
def greeting : List Step :=
  [toServer, serverReads, toClient, clientReads, toServer, serverReads, toClient, clientReads,
    clientReads, clientSends (.authenticate (ascii "root") (.password (ascii "secret"))), toServer,
    serverReads, serverReads, toClient, clientReads]

/-- Authentication, a channel and some data. -/
def conversation : List Step :=
  greeting ++ [toServer, serverReads, toClient, clientReads, clientSends (.channelOpenSession 0),
    toServer, serverReads, toClient, clientReads, clientSends (.data 2 [1, 2, 3]), toServer,
    serverReads]

/-- A re-exchange, and the beginning of the next one. -/
def exchanging : List Step :=
  greeting ++ [toServer, serverReads, toClient, clientReads, clientReads, toServer, serverReads,
    serverReads, toClient, clientReads, clientReads, toServer, serverReads, serverReads]

/-- The application signs nothing. -/
theorem application_signs :
    letI := deps
    SignsOrdinary application := by
  let _ := deps
  intro tick s data hdata
  cases hdata

theorem compatible (config : Client.Config) (h : config.preferred = .default) :
    letI := deps
    Compatible config application serverConfig := by
  let _ := deps
  have hchoice : Uncompressing .client .default .default ∧ Uncompressing .server .default .default := by
    decide +kernel
  refine ⟨fun key hkey => ?_, fun tick s data hdata => ?_, ?_, ?_⟩
  · rw [List.mem_singleton.mp hkey]
    refine ⟨by decide +kernel, by decide +kernel, fun pubkey hpubkey => ?_⟩
    have hparse : Deps.parsePublicKey
        (KeyPair.ed25519 (Vector.replicate 32 0) (Vector.replicate 32 0)).blob =
        .ok (.ed25519 (Vector.replicate 32 0)) := by decide +kernel
    cases hparse.symm.trans hpubkey
    rfl
  · cases hdata
  · rw [h]
    exact hchoice.1
  · rw [h]
    exact hchoice.2

/-- An identification line that comes in one piece with the length of the packet behind it. -/
def line (id : Bytes) : Transport := ⟨id ++ [13, 10] ++ clear kexinit, fun _ => id.length + 6, 0⟩

/-- The reader of the side that gets the line. -/
def reader (id : Bytes) : SshRead :=
  match readSshId (line id) with
  | .ok (b, t) => ⟨some b, t⟩
  | .error _ => ⟨none, line id⟩

theorem reader_identified {id : Bytes}
    (h : ((readSshId (line id)).toOption.map fun res => res.1.id) = some id) :
    Identified id (reader id) := by
  unfold reader
  cases hread : readSshId (line id) with
  | error e =>
    rw [hread] at h
    cases h
  | ok res =>
    rw [hread] at h
    exact ⟨clear kexinit, fun _ => id.length + 6, res.1, res.2, hread, Option.some.inj h, rfl⟩

/-- The lines are found, and each reader holds the four bytes of a length. -/
theorem readers :
    (Identified serverConfig.serverId (reader serverConfig.serverId) ∧
      (reader serverConfig.serverId).leftover.length = 4) ∧
    Identified clientConfig.clientId (reader clientConfig.clientId) ∧
      (reader clientConfig.clientId).leftover.length = 4 :=
  ⟨⟨reader_identified (by decide +kernel), by decide +kernel⟩,
    reader_identified (by decide +kernel), by decide +kernel⟩

theorem connected :
    letI := deps
    Connected clientConfig application serverConfig handler client server
      (reader serverConfig.serverId) (reader clientConfig.clientId) := by
  let _ := deps
  exact ⟨⟨world, _, returned_spec _ (by decide +kernel), connectStream_eq, rfl⟩,
    ⟨world, runStream_eq handler⟩, readers.1.1, readers.2.1⟩

theorem connected_restless :
    letI := deps
    Connected restlessConfig application serverConfig handler restless server
      (reader serverConfig.serverId) (reader clientConfig.clientId) := by
  let _ := deps
  exact ⟨⟨world, _, returned_spec _ (by decide +kernel), returned_spec _ _, rfl⟩,
    ⟨world, runStream_eq handler⟩, readers.1.1, readers.2.1⟩

/-- The conversation is orderly, and both sides run and wait at its end. -/
theorem conversation_runs :
    letI := deps
    let k := converse clientConfig application serverConfig handler client server conversation
    OrderlyRun clientConfig application serverConfig handler client server conversation ∧
      k.left.stage = .running ∧ k.right.stage = .running ∧ k.right.buffer.history.length = 7 ∧
      (ordinaries k.right.opened).length = 3 ∧
      (k.toLeft = ((Server.process serverConfig handler).written k.right).length ∧
        k.toRight = ((Client.process clientConfig application).written k.left).length) ∧
      k.left.nextRead (Client.driver application) = .pending ∧
      k.right.nextRead (Server.driver handler) = .pending := by
  decide +kernel

/-- The re-exchange is orderly, both sides run at its end, and the server waits. -/
theorem exchanging_runs :
    letI := deps
    let k := converse restlessConfig application serverConfig handler restless server exchanging
    OrderlyRun restlessConfig application serverConfig handler restless server exchanging ∧
      k.left.stage = .running ∧ k.right.stage = .running ∧ k.right.buffer.history.length = 8 ∧
      (k.left.session.common.cipher.epoch = 2 ∧ k.right.session.common.cipher.epoch = 2) ∧
      k.toRight = ((Client.process restlessConfig application).written k.left).length ∧
      k.right.nextRead (Server.driver handler) = .pending := by
  decide +kernel

end Concrete

/-- A client that authenticates, opens a channel and sends data. -/
theorem packets_delivered_conversation :
    letI := Concrete.deps
    let k := converse Concrete.clientConfig Concrete.application Concrete.serverConfig
      Concrete.handler Concrete.client Concrete.server Concrete.conversation
    (Concrete.reader Concrete.serverConfig.serverId).Delivers [4, 16] ∧
      k.left.buffer.history.map PacketRecord.label <+:
        k.right.session.common.writeBuffer.history.map PacketRecord.label ∧
      k.right.buffer.history.map PacketRecord.label <+:
        k.left.session.common.writeBuffer.history.map PacketRecord.label ∧
      k.right.buffer.history.length = 7 := by
  let _ := Concrete.deps
  obtain ⟨horderly, hclient, hserver, hseven, -⟩ := Concrete.conversation_runs
  have hroom := And.intro (Nat.le_of_eq Concrete.readers.1.2) (Nat.le_of_eq Concrete.readers.2.2)
  obtain ⟨hreads, hleft, hright⟩ := @packets_delivered Concrete.deps _ _ _ _ _ _ _ _ _
    Concrete.lawful Concrete.connected hroom (Concrete.compatible _ rfl) horderly
  exact ⟨(hreads [16]).1, (hleft hclient).2, (hright hserver).2, hseven⟩

/-- A client and a server after a re-exchange. -/
theorem everything_delivered_exchanging :
    letI := Concrete.deps
    let k := converse Concrete.restlessConfig Concrete.application Concrete.serverConfig
      Concrete.handler Concrete.restless Concrete.server Concrete.exchanging
    (k.right.buffer.history.map PacketRecord.label =
        k.left.session.common.writeBuffer.history.map PacketRecord.label ∧
      ordinaries k.right.opened = k.left.session.common.emitted) ∧
      k.right.buffer.history.length = 8 := by
  let _ := Concrete.deps
  obtain ⟨horderly, hclient, hserver, height, -, hdelivered, hpending⟩ := Concrete.exchanging_runs
  have hall := @everything_delivered Concrete.deps _ _ _ _ _ _ _ _ _ Concrete.lawful
    Concrete.connected_restless (Concrete.compatible _ rfl) horderly
  obtain ⟨hlabels, -, hqueue⟩ := (hall hclient hserver).2 hdelivered hpending
  exact ⟨⟨hlabels, hqueue Concrete.application_signs⟩, height⟩

/-- A client that authenticates, opens a channel and sends data. -/
theorem exchange_settles_conversation :
    letI := Concrete.deps
    let k := converse Concrete.clientConfig Concrete.application Concrete.serverConfig
      Concrete.handler Concrete.client Concrete.server Concrete.conversation
    k.left.session.common.phase = .idle ∧ k.right.session.common.phase = .idle ∧
      k.left.session.common.cipher.epoch = k.right.session.common.cipher.epoch := by
  let _ := Concrete.deps
  obtain ⟨horderly, hclient, hserver, -, -, hdelivered, hpending, hpending'⟩ :=
    Concrete.conversation_runs
  exact @exchange_settles Concrete.deps _ _ _ _ _ _ _ _ _ Concrete.lawful Concrete.connected
    (Concrete.compatible _ rfl) horderly hclient hserver hdelivered.1 hdelivered.2 hpending hpending'

/-- A client that authenticates, opens a channel and sends data. -/
theorem queue_delivered_conversation :
    letI := Concrete.deps
    let k := converse Concrete.clientConfig Concrete.application Concrete.serverConfig
      Concrete.handler Concrete.client Concrete.server Concrete.conversation
    ordinaries k.left.opened <+: k.right.session.common.emitted ∧
      ordinaries k.right.opened <+: k.left.session.common.emitted ∧
      (ordinaries k.right.opened).length = 3 := by
  let _ := Concrete.deps
  obtain ⟨horderly, hclient, hserver, -, hthree, -⟩ := Concrete.conversation_runs
  have hdelivered := @queue_delivered Concrete.deps _ _ _ _ _ _ _ _ _ Concrete.lawful
    Concrete.connected (Concrete.compatible _ rfl) horderly
  exact ⟨hdelivered.1 hclient, (hdelivered.2 hserver).2 Concrete.application_signs, hthree⟩

/-- A client and a server after a re-exchange. -/
theorem sides_agree_exchanging :
    letI := Concrete.deps
    let k := converse Concrete.restlessConfig Concrete.application Concrete.serverConfig
      Concrete.handler Concrete.restless Concrete.server Concrete.exchanging
    k.left.session.common.Agrees k.right.session.common ∧
      k.left.session.common.cipher.epoch = 2 ∧ k.right.session.common.cipher.epoch = 2 := by
  let _ := Concrete.deps
  obtain ⟨horderly, hclient, hserver, -, hepochs, -⟩ := Concrete.exchanging_runs
  exact ⟨@sides_agree Concrete.deps _ _ _ _ _ _ _ _ _ Concrete.lawful Concrete.connected_restless
    (Concrete.compatible _ rfl) horderly hclient hserver, hepochs⟩

end Thrussh
