import Thrussh.Exchanging
import Thrussh.Provenance
import Thrussh.Transcript

/-!
# Where a side stands

Between two steps a session is at a place of the exchange in progress: it has
sent and heard the packets that the phase says, its record holds them, and
the pair in use is that of the last round. Steps outside of the exchange keep
this; a flush may begin the next exchange. Nothing is compressed, and no packet
of an exchange is ever queued.
-/

namespace Thrussh

open Lib

variable [Deps] {C : Type}

/-- No packet ever queued is so long that there is no room for its padding. -/
def CommonSession.Roomy (s : CommonSession C) : Prop :=
  ∀ body ∈ s.emitted, body.length < 2 ^ 32 - 17

instance (s : CommonSession C) : Decidable s.Roomy :=
  inferInstanceAs (Decidable (∀ body ∈ s.emitted, _))

theorem CommonSession.Roomy.short {s : CommonSession C} (h : s.Roomy) :
    ∀ body ∈ s.emitted, Short body := by
  intro body hbody
  have hlength := h body hbody
  unfold Short
  omega

theorem CommonSession.Roomy.of_later {s t : CommonSession C} (h : t.Roomy)
    (hemitted : s.emitted <+: t.emitted) : s.Roomy :=
  fun body hbody => h body (hemitted.subset hbody)

/-- What a local message can make a session do. -/
inductive Speaks (P : Bytes → Prop) (s t : CommonSession C) : Prop where
  /-- Packets are queued, or channels change. -/
  | quiet (h : Quiet P s t)
  /-- A step of the authentication. -/
  | staged (h : Staged s t)
  /-- The client's service request is sealed. -/
  | service {payload : Bytes} (hhead : payload.head? = some msg.SERVICE_REQUEST)
    (h : t = { s with writeBuffer := s.writeBuffer.sealed s.cipher .service payload })

instance {P : Bytes → Prop} : Staging P (Speaks P : CommonSession C → CommonSession C → Prop) where
  quiet := .quiet
  staged := .staged

theorem Speaks.local {P : Bytes → Prop} {s t : CommonSession C} (h : Speaks P s t) :
    Local P s t := by
  cases h with
  | quiet h => exact .quiet h
  | staged h => exact .staged h
  | service hhead h => exact .service (List.ne_nil_of_mem (List.mem_of_head? hhead)) h

/-- A local message leaves the phase. -/
theorem Local.phase_eq {P : Bytes → Prop} {s t : CommonSession C} (h : Local P s t) :
    t.phase = s.phase := by
  cases h with
  | quiet h => exact phase_of_records h.records.1 h.records.2
  | staged h => exact phase_of_records h.records.1 h.records.2
  | service hpayload h =>
    rw [h]
    rfl

variable [SessionConfig C]

/-- What has been queued stays so. -/
theorem Turn.emitted_grows {P : Bytes → Prop} {s t : CommonSession C} (h : Turn P s t) :
    s.emitted <+: t.emitted := by
  cases h with
  | busy h =>
    obtain ⟨bodies, -, hemitted⟩ := h.emits
    rw [hemitted]
    exact List.prefix_append _ _
  | staged h => exact h.emitted_eq ▸ List.prefix_refl _

/-- What has been queued stays so, whatever a local message does. -/
theorem Local.emitted_grows {P : Bytes → Prop} {s t : CommonSession C} (h : Local P s t) :
    s.emitted <+: t.emitted := by
  cases h with
  | quiet h =>
    obtain ⟨bodies, -, hemitted⟩ := (Busy.quiet h).emits
    rw [hemitted]
    exact List.prefix_append _ _
  | staged h => exact h.emitted_eq ▸ List.prefix_refl _
  | service hpayload h =>
    rw [h]
    exact List.prefix_refl _

/-- The record of an exchange with the identification lines and the own KEXINIT. -/
def Script.record (x : Script C) (payload : Bytes) : Exchange :=
  match SessionConfig.role C with
  | .client => { Exchange.new with
    clientId := x.clientId, serverId := x.serverId, clientKexInit := payload }
  | .server => { Exchange.new with
    clientId := x.clientId, serverId := x.serverId, serverKexInit := payload }

/-- Where a session is in the exchange in progress. -/
inductive Script.Place (x : Script C) (v : Progress) (s : CommonSession C) : Prop where
  /-- The last exchange is over. -/
  | idle {enc : Encrypted} {ex : Exchange} (henc : s.encrypted = some enc)
    (hrekey : enc.rekey = none) (hex : enc.exchange = some ex)
    (hlast : v.past.getLast?.map (·.keys.exchange) = some ex)
    (hids : ex.clientId = x.clientId ∧ ex.serverId = x.serverId) (hown : v.own = [])
    (hpeer : v.peer = [])
  /-- The own KEXINIT is sent. -/
  | waiting {k : KexInit} {payload : Bytes} (hk : s.exchanging = some (.kexInit k))
    (hrecord : k.exchange = x.record payload) (hid : k.sessionId = v.id)
    (hown : v.own = [payload]) (hpeer : v.peer = [])
  /-- Both KEXINITs are exchanged. -/
  | dh {k : Kex} (hk : s.exchanging = some k) (hphase : k.phase = .dh)
    (hdh : x.dh v.id v.own v.peer k) (hown : v.own.length < roundLength)
    (hpeer : v.peer.length = 1)
  /-- The own NEWKEYS is sent. -/
  | newKeys {round : Round} (hk : s.exchanging = some (.newKeys round.keys))
    (hdeals : x.deals v.id round)
    (hids : round.keys.exchange.clientId = x.clientId ∧
      round.keys.exchange.serverId = x.serverId) (hown : v.own = round.said)
    (hpeer : v.peer = [round.peer.1, round.peer.2]) (hdrained : s.Drained)

/-- Where a side stands: what it has written before, and its session. -/
structure Standing (x : Script C) (v : Progress) (before : Bytes) (s : CommonSession C) : Prop where
  /-- What has been sealed. -/
  transcript : Transcript x v before s.writeBuffer
  /-- The configuration never changes. -/
  config_eq : s.config = x.config
  /-- The pair in use is that of the last round. -/
  cipher_eq : s.cipher = pairOf v.past
  /-- Where the exchange in progress is. -/
  place : x.Place v s
  /-- A session that is not encrypted is in its first exchange. -/
  clear : s.encrypted = none → v.past = []
  /-- An encrypted session has the id of the first exchange, and nothing is compressed. -/
  encrypted : ∀ enc, s.encrypted = some enc → v.id = some enc.sessionId ∧ enc.Uncompressed
  /-- No packet of an exchange has been queued. -/
  unrelated : ∀ body ∈ s.emitted, Unrelated body
  /-- What has been sealed from the queue are the first packets that have been queued. -/
  handed : sealedPayloads s.writeBuffer.history <+: s.emitted
  /-- The queue is in line. -/
  inLine : s.InLine

section
variable {x : Script C} {v : Progress} {before : Bytes} {s t : CommonSession C}

/-- A side in another phase than that of NEWKEYS has not sent its NEWKEYS. -/
theorem Script.Place.few (h : x.Place v s) (hphase : s.phase ≠ .newKeys) :
    v.own.length < roundLength := by
  cases h with
  | idle henc hrekey hex hlast hids hown hpeer => simp [hown]
  | waiting hk hrecord hid hown hpeer => simp [hown, roundLength]
  | dh hk hphase hdh hown hpeer => exact hown
  | newKeys hk hdeals hids hown hpeer hdrained =>
    exact absurd (phase_of_exchanging hk) hphase

/-- The peer's NEWKEYS ends the exchange. -/
theorem Script.Place.peer_few (h : x.Place v s) : v.peer.length < roundLength := by
  cases h with
  | idle henc hrekey hex hlast hids hown hpeer => simp [hpeer]
  | waiting hk hrecord hid hown hpeer => simp [hpeer]
  | dh hk hphase hdh hown hpeer => simp [hpeer, roundLength]
  | newKeys hk hdeals hids hown hpeer hdrained => simp [hpeer, roundLength]

/-- A side has heard something of the exchange exactly in its later phases. -/
theorem Script.Place.hears (h : x.Place v s) :
    s.phase ≠ .lost ∧ (s.phase ≠ .dh ∧ s.phase ≠ .newKeys → v.peer = []) := by
  cases h with
  | idle henc hrekey hex hlast hids hown hpeer =>
    have hphase : s.phase = .idle := by
      simp [CommonSession.phase, henc, Encrypted.phase, hrekey, hex]
    rw [hphase]
    exact ⟨by decide, fun _ => hpeer⟩
  | waiting hk hrecord hid hown hpeer =>
    rw [phase_of_exchanging hk]
    exact ⟨by simp [Kex.phase], fun _ => hpeer⟩
  | dh hk hphase hdh hown hpeer =>
    rw [phase_of_exchanging hk, hphase]
    exact ⟨by decide, fun h => absurd rfl h.1⟩
  | newKeys hk hdeals hids hown hpeer hdrained =>
    rw [phase_of_exchanging hk]
    exact ⟨by simp [Kex.phase], fun h => absurd rfl h.2⟩

/-- Steps that leave the records of the exchange leave the place. -/
theorem Script.Place.of_records (h : x.Place v s) (hkex : t.kex = s.kex)
    (henc : Option.Rel (fun e e' => e'.rekey = e.rekey ∧ e'.exchange = e.exchange)
      s.encrypted t.encrypted) (hdrained : s.phase = .newKeys → s.Drained → t.Drained) :
    x.Place v t := by
  have hexchanging : t.exchanging = s.exchanging := by
    unfold CommonSession.exchanging
    generalize s.encrypted = a at henc
    generalize t.encrypted = b at henc
    cases henc with
    | none => exact hkex
    | some henc => exact henc.1
  cases h with
  | idle henc' hrekey hex hlast hids hown hpeer =>
    rw [henc'] at henc
    cases ht : t.encrypted with
    | none =>
      rw [ht] at henc
      cases henc
    | some enc =>
      rw [ht] at henc
      cases henc with
      | some hsame =>
        exact .idle ht (hsame.1.trans hrekey) (hsame.2.trans hex) hlast hids hown hpeer
  | waiting hk hrecord hid hown hpeer =>
    exact .waiting (hexchanging.trans hk) hrecord hid hown hpeer
  | dh hk hphase hdh hown hpeer => exact .dh (hexchanging.trans hk) hphase hdh hown hpeer
  | newKeys hk hdeals hids hown hpeer hdrained' =>
    exact .newKeys (hexchanging.trans hk) hdeals hids hown hpeer
      (hdrained (phase_of_exchanging hk) hdrained')

namespace Standing

/-- An encrypted session has completed its first exchange. -/
theorem past_ne_nil (h : Standing x v before s) (hsome : s.encrypted.isSome = true) :
    v.past ≠ [] := by
  obtain ⟨enc, henc⟩ := Option.isSome_iff_exists.mp hsome
  have hid := (h.encrypted enc henc).1
  intro hnil
  simp [Progress.id, hnil] at hid

/-- Packets are queued, or channels change. -/
theorem quiet (h : Standing x v before s) (hstep : Quiet Unrelated s t)
    (hsome : s.encrypted.isSome = true) (hphase : s.phase ≠ .newKeys) :
    Standing x v before t := by
  have hbuffer : t.writeBuffer = s.writeBuffer := by
    rw [hstep.same, hstep.output (.inr hsome)]
  obtain ⟨enc, henc⟩ := Option.isSome_iff_exists.mp hsome
  have hrel := hstep.encrypted
  rw [henc] at hrel
  cases ht : t.encrypted with
  | none =>
    rw [ht] at hrel
    cases hrel
  | some enc' =>
    rw [ht] at hrel
    cases hrel with
    | some hrel =>
      obtain ⟨hid, huncompressed⟩ := h.encrypted enc henc
      obtain ⟨bodies, hbodies, -, hemitted⟩ := hrel.pushed
      constructor
      · rw [hbuffer]
        exact h.transcript
      · rw [hstep.same]
        exact h.config_eq
      · rw [hstep.same]
        exact h.cipher_eq
      · exact h.place.of_records hstep.records.1 hstep.records.2 fun hnew => absurd hnew hphase
      · intro hnone
        rw [ht] at hnone
        cases hnone
      · intro enc'' henc''
        cases ht.symm.trans henc''
        rw [hrel.same]
        exact ⟨hid, huncompressed.server, huncompressed.client, huncompressed.compress,
          huncompressed.decompress⟩
      · intro body hbody
        rw [emitted_some ht, hemitted] at hbody
        rcases List.mem_append.mp hbody with hold | hnew
        · exact h.unrelated body (by rwa [emitted_some henc])
        · exact hbodies body hnew
      · rw [hbuffer, emitted_some ht, hemitted, ← emitted_some henc]
        exact h.handed.trans (List.prefix_append _ _)
      · exact h.inLine.quiet hstep

/-- A step of the authentication, or the end of a turn. -/
theorem staged (h : Standing x v before s) (hstep : Staged s t) : Standing x v before t := by
  have hbuffer : t.writeBuffer = s.writeBuffer := by rw [hstep.same]
  have hrel := hstep.encrypted
  have hall : (s.encrypted = none ∧ t.encrypted = none) ∨
      ∃ enc enc', s.encrypted = some enc ∧ t.encrypted = some enc' ∧ StagedEnc enc enc' := by
    generalize s.encrypted = a at hrel
    generalize t.encrypted = b at hrel
    cases hrel with
    | none => exact .inl ⟨rfl, rfl⟩
    | some hrel => exact .inr ⟨_, _, rfl, rfl, hrel⟩
  constructor
  · rw [hbuffer]
    exact h.transcript
  · rw [hstep.same]
    exact h.config_eq
  · rw [hstep.same]
    exact h.cipher_eq
  · refine h.place.of_records hstep.records.1 hstep.records.2 fun _ hdrained enc' ht => ?_
    rcases hall with ⟨-, hnone⟩ | ⟨enc, enc'', hs, ht', hsame⟩
    · cases hnone.symm.trans ht
    · cases ht'.symm.trans ht
      rw [hsame.same]
      exact hdrained enc hs
  · intro hnone
    rcases hall with ⟨hs, -⟩ | ⟨enc, enc', hs, ht, -⟩
    · exact h.clear hs
    · cases ht.symm.trans hnone
  · intro enc'' henc''
    rcases hall with ⟨-, hnone⟩ | ⟨enc, enc', hs, ht, hsame⟩
    · cases hnone.symm.trans henc''
    · cases ht.symm.trans henc''
      obtain ⟨hid, huncompressed⟩ := h.encrypted enc hs
      refine ⟨?_, hsame.uncompressed huncompressed⟩
      rw [hsame.same]
      exact hid
  · intro body hbody
    refine h.unrelated body ?_
    rcases hall with ⟨-, hnone⟩ | ⟨enc, enc', hs, ht, hsame⟩
    · rw [emitted_none hnone] at hbody
      cases hbody
    · rw [emitted_some ht, hsame.same] at hbody
      rwa [emitted_some hs]
  · rw [hbuffer, hstep.emitted_eq]
    exact h.handed
  · exact h.inLine.staged hstep

/-- The service request is sealed at once. -/
theorem sealed (h : Standing x v before s) (hsome : s.encrypted.isSome = true)
    (hphase : s.phase ≠ .newKeys) {payload : Bytes}
    (hhead : payload.head? = some msg.SERVICE_REQUEST) :
    Standing x v before { s with
      writeBuffer := s.writeBuffer.sealed s.cipher .service payload } := by
  have hstep : Local (fun _ => True) s { s with
      writeBuffer := s.writeBuffer.sealed s.cipher .service payload } :=
    .service (List.ne_nil_of_mem (List.mem_of_head? hhead)) rfl
  have hunrelated : Unrelated payload := by
    rintro ⟨m, hm, hexchange⟩
    rw [hhead] at hm
    cases hm
    revert hexchange
    decide
  have htranscript := h.transcript.sealed (h.place.few hphase) .service
    (fun hexchange => absurd hexchange hunrelated) (fun _ => h.past_ne_nil hsome)
    fun hordinary => absurd hhead hordinary.2
  rw [exchanges_other hunrelated, List.append_nil, ← h.cipher_eq] at htranscript
  have hsealed := sealedPayloads_append s.writeBuffer.history
    (r := ⟨s.cipher.epoch, s.writeBuffer.seqn, payload, .service⟩) (by simp)
  refine ⟨htranscript, h.config_eq, h.cipher_eq, ?_, h.clear, h.encrypted, h.unrelated,
    hsealed ▸ h.handed, h.inLine.message hstep⟩
  refine h.place.of_records rfl ?_ fun hnew => absurd hnew hphase
  dsimp only
  cases s.encrypted with
  | none => exact .none
  | some enc => exact .some ⟨rfl, rfl⟩

/-- What has been handed on are the first packets that have been queued, and the next ones
are pending. -/
theorem queued_eq (h : Standing x v before s) {enc : Encrypted} (henc : s.encrypted = some enc)
    (hroomy : s.Roomy) : s.emitted = sealedPayloads s.writeBuffer.history ++ enc.queued := by
  have hshort : ∀ b ∈ enc.emitted, Short b := by
    rw [← emitted_some henc]
    exact hroomy.short
  obtain ⟨handed, pending, hlined⟩ := h.inLine.encrypted enc henc hshort
  have hpending : enc.queued = pending := hlined.walks.unframe_eq (Nat.le_add_left _ _)
  have hemitted : s.emitted = handed ++ pending := (emitted_some henc).trans hlined.emitted
  obtain ⟨rest, hrest⟩ := h.handed
  rw [hemitted] at hrest
  have hsealed := (List.append_inj hrest hlined.sealed.length_eq.symm).1
  rw [hemitted, hsealed, hpending]

/-- The ordinary packets that have been sealed are the first of those that have been queued. -/
theorem ordinaries_leads (h : Standing x v before s) :
    ordinaries (s.writeBuffer.history.map PacketRecord.payload) <+: ordinaries s.emitted := by
  rw [h.transcript.ordinaries_eq]
  exact ordinaries_mono h.handed

/-- A flush hands on the next packets. -/
theorem handed_flushed (h : Standing x v before s) {enc enc' : Encrypted}
    (hstep : PacketsFlushed s t enc enc') (hroomy : s.Roomy) :
    sealedPayloads t.writeBuffer.history <+: t.emitted := by
  have hqueue := h.queued_eq hstep.encrypted hroomy
  obtain ⟨packets, outs, c, hqueued, hcompresses, hsealed⟩ := hstep.packets
  have huncompressed := (h.encrypted enc hstep.encrypted).2
  have houts : outs = packets := hcompresses.eq_of_none huncompressed.compress
  have hemitted : t.emitted = s.emitted := by
    rw [emitted_some hstep.encrypted_eq, emitted_some hstep.encrypted, hstep.same]
  rw [hsealed, sealedPayloads_sealAll, hemitted, hqueue, houts]
  exact (List.prefix_append_right_inj _).mpr hqueued

/-- The queue is flushed. -/
theorem flushed (h : Standing x v before s) {enc enc' : Encrypted}
    (hstep : PacketsFlushed s t enc enc') (hroomy : s.Roomy) : Standing x v before t := by
  have hsome : s.encrypted.isSome = true := by rw [hstep.encrypted]; rfl
  obtain ⟨hid, huncompressed⟩ := h.encrypted enc hstep.encrypted
  obtain ⟨packets, outs, c, hqueued, hcompresses, hsealed⟩ := hstep.packets
  have houts : outs = packets := hcompresses.eq_of_none huncompressed.compress
  have hemitted : t.emitted = s.emitted := by
    rw [emitted_some hstep.encrypted_eq, emitted_some hstep.encrypted, hstep.same]
  have hunrelated : ∀ p ∈ outs, Unrelated p := by
    intro p hp
    rw [houts] at hp
    refine h.unrelated p ?_
    rw [h.queued_eq hstep.encrypted hroomy]
    exact List.mem_append_right _ (hqueued.subset hp)
  have htranscript : Transcript x v before t.writeBuffer := by
    rw [hsealed, h.cipher_eq]
    by_cases hphase : s.phase = .newKeys
    · -- the own NEWKEYS is sent: nothing is queued then
      have hnil : outs = [] := by
        have hplace := h.place
        cases hplace with
        | newKeys hk hdeals hids hown hpeer hdrained =>
          have hwrite := hdrained enc hstep.encrypted
          have hempty : enc.queued = [] := by
            unfold Encrypted.queued
            rw [hwrite]
            rfl
          rw [houts]
          rw [hempty] at hqueued
          exact List.prefix_nil.mp hqueued
        | idle henc hrekey hex hlast hids hown hpeer =>
          simp [CommonSession.phase, henc, Encrypted.phase, hrekey, hex] at hphase
        | waiting hk hrecord hid hown hpeer =>
          cases (phase_of_exchanging hk).symm.trans hphase
        | dh hk hdhphase hdh hown hpeer =>
          cases ((phase_of_exchanging hk).trans hdhphase).symm.trans hphase
      rw [hnil]
      exact h.transcript
    · exact h.transcript.sealAll (h.place.few hphase) hunrelated (h.past_ne_nil hsome)
  constructor
  · exact htranscript
  · rw [hstep.session]
    exact h.config_eq
  · rw [hstep.session]
    exact h.cipher_eq
  · refine h.place.of_records (by rw [hstep.session]) ?_ fun _ hdrained enc'' henc'' => ?_
    · rw [hstep.encrypted, hstep.encrypted_eq, hstep.same]
      exact .some ⟨rfl, rfl⟩
    · cases hstep.encrypted_eq.symm.trans henc''
      rcases hstep.write with hsame | hempty
      · exact hsame.trans (hdrained enc hstep.encrypted)
      · exact hempty
  · intro hnone
    cases hstep.encrypted_eq.symm.trans hnone
  · intro enc'' henc''
    cases hstep.encrypted_eq.symm.trans henc''
    refine ⟨?_, ?_, ?_, hstep.uncompressed huncompressed.compress, ?_⟩
    · rw [hstep.same]
      exact hid
    · rw [hstep.same]
      exact huncompressed.server
    · rw [hstep.same]
      exact huncompressed.client
    · rw [hstep.same]
      exact huncompressed.decompress
  · rw [hemitted]
    exact h.unrelated
  · exact h.handed_flushed hstep hroomy
  · exact h.inLine.flushed hstep

/-- The own KEXINIT begins the next exchange. -/
theorem startRekey (h : Standing x v before s) {enc : Encrypted} {ex : Exchange}
    (henc : s.encrypted = some enc) (hrekey : enc.rekey = none) (hex : enc.exchange = some ex)
    (hflush : (s.startRekey enc ex).InLine) :
    ∃ own, Standing x { v with own := own } before (s.startRekey enc ex) := by
  have hsome : s.encrypted.isSome = true := by rw [henc]; rfl
  have hnone : s.exchanging = none := (exchanging_some henc).trans hrekey
  obtain ⟨hid, huncompressed⟩ := h.encrypted enc henc
  have hemitted : (s.startRekey enc ex).emitted = s.emitted := by
    rw [emitted_some henc]
    rfl
  have hplace := h.place
  cases hplace with
  | waiting hk hrecord hid' hown hpeer => cases hnone.symm.trans hk
  | dh hk hphase hdh hown hpeer => cases hnone.symm.trans hk
  | newKeys hk hdeals hids hown hpeer hdrained => cases hnone.symm.trans hk
  | @idle enc' ex' henc' hrekey' hex' hlast hids hown hpeer =>
    obtain rfl : enc = enc' := Option.some.inj (henc.symm.trans henc')
    obtain rfl : ex = ex' := Option.some.inj (hex.symm.trans hex')
    set payload := writeKex (SessionConfig.preferred s.config) (s.world.rand s.tick).cookie
      with hpayload
    have hexchange : ExchangePacket payload := ⟨msg.KEXINIT, rfl, .inl rfl⟩
    have htranscript := h.transcript.sealed (by simp [hown]) .kexinit
      (fun _ => by
        rw [hown]
        exact ⟨_, by rw [hpayload, h.config_eq]⟩)
      (fun hnot => absurd hexchange hnot) fun hordinary => absurd hexchange hordinary.1
    rw [exchanges_single hexchange, hown, List.nil_append, ← h.cipher_eq] at htranscript
    have hsealed := sealedPayloads_append s.writeBuffer.history
      (r := ⟨s.cipher.epoch, s.writeBuffer.seqn, payload, .kexinit⟩) (by simp)
    refine ⟨[payload], htranscript, h.config_eq, h.cipher_eq, ?_, fun hnot => ?_, fun enc' henc' => ?_,
      ?_, ?_, hflush⟩
    · refine .waiting rfl ?_ hid.symm rfl hpeer
      unfold Script.record
      cases SessionConfig.role C with
      | client => simp only [Exchange.cleared, Exchange.new, hids.1, hids.2, hpayload]
      | server => simp only [Exchange.cleared, Exchange.new, hids.1, hids.2, hpayload]
    · cases hnot
    · cases henc'
      exact ⟨hid, huncompressed.server, huncompressed.client, huncompressed.compress,
        huncompressed.decompress⟩
    · rw [hemitted]
      exact h.unrelated
    · rw [hemitted]
      exact hsealed ▸ h.handed

/-- A flush may begin the next exchange. -/
theorem flush (h : Standing x v before s) (hstep : FlushStep s t) (hroomy : s.Roomy) :
    ∃ own, Standing x { v with own := own } before t := by
  have hline := h.inLine.flush hstep
  cases hstep with
  | none _ => exact ⟨v.own, h⟩
  | packets hpackets => exact ⟨v.own, h.flushed hpackets hroomy⟩
  | @rekey u enc enc' ex hpackets hwrite hcursor hrekey hex =>
    refine (h.flushed hpackets hroomy).startRekey hpackets.encrypted_eq ?_ ?_ hline
    · rw [hpackets.same]
      exact hrekey
    · rw [hpackets.same]
      exact hex

/-- A packet that belongs to no exchange is served. -/
theorem turns (h : Standing x v before s) (hsome : s.encrypted.isSome = true)
    (hphase : s.phase ≠ .dh ∧ s.phase ≠ .newKeys)
    (hsteps : Relation.ReflTransGen (Turn Unrelated) s t) (hroomy : t.Roomy) :
    ∃ own, Standing x { v with own := own } before t := by
  have hall : (t.Roomy → ∃ own, Standing x { v with own := own } before t) ∧
      t.encrypted.isSome = true ∧ t.phase ≠ .dh ∧ t.phase ≠ .newKeys := by
    clear hroomy
    induction hsteps with
    | refl => exact ⟨fun _ => ⟨v.own, h⟩, hsome, hphase⟩
    | @tail u t hsteps hstep ih =>
      obtain ⟨hstanding, hsome, hphase⟩ := ih
      refine ⟨fun hroomy => ?_, hstep.isSome_eq.trans hsome, hstep.phase_ne hphase⟩
      have hbefore := hroomy.of_later hstep.emitted_grows
      obtain ⟨own, hown⟩ := hstanding hbefore
      cases hstep with
      | busy hstep =>
        cases hstep with
        | quiet hstep => exact ⟨own, hown.quiet hstep hsome hphase.2⟩
        | flush hstep => exact hown.flush hstep hbefore
      | staged hstep => exact ⟨own, hown.staged hstep⟩
  exact hall.1 hroomy

/-- A local message is served. -/
theorem speaks (h : Standing x v before s) (hsome : s.encrypted.isSome = true)
    (hphase : s.phase ≠ .newKeys) (hsteps : Relation.ReflTransGen (Speaks Unrelated) s t) :
    Standing x v before t := by
  have hall : Standing x v before t ∧ t.encrypted.isSome = true ∧ t.phase ≠ .newKeys := by
    induction hsteps with
    | refl => exact ⟨h, hsome, hphase⟩
    | @tail u t hsteps hstep ih =>
      obtain ⟨hstanding, hsome, hphase⟩ := ih
      have hlocal := hstep.local
      rw [← hlocal.phase_eq] at hphase
      refine ⟨?_, hlocal.isSome_eq.trans hsome, hphase⟩
      rw [hlocal.phase_eq] at hphase
      cases hstep with
      | quiet hstep => exact hstanding.quiet hstep hsome hphase
      | staged hstep => exact hstanding.staged hstep
      | service hhead hstep =>
        rw [hstep]
        exact hstanding.sealed hsome hphase hhead
  exact hall.1

/-- What is in the buffer is written. -/
theorem cleared (h : Standing x v before s) :
    Standing x v (before ++ s.writeBuffer.buffer)
      { s with writeBuffer := s.writeBuffer.clear } := by
  refine ⟨h.transcript.clear, h.config_eq, h.cipher_eq, ?_, h.clear, h.encrypted, h.unrelated,
    h.handed, ⟨h.inLine.framed, h.inLine.clear, h.inLine.encrypted⟩⟩
  refine h.place.of_records rfl ?_ fun _ hdrained => hdrained
  dsimp only
  cases s.encrypted with
  | none => exact .none
  | some enc => exact .some ⟨rfl, rfl⟩

end Standing

end

end Thrussh
