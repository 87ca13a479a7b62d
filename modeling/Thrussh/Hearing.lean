import Thrussh.Rearming
import Thrussh.Standing

/-!
# What a side makes of what it hears

A packet of the peer is as expected when it is the next packet of the
exchange, or belongs to none once the session is encrypted. Both roles serve
such packets in the same way: they move on in the exchange, and count what
they have heard.
-/

namespace Thrussh

open Lib

variable [Deps] {C S M : Type} [SessionConfig C]

/-- What the peer sends next: a packet of an exchange is the one of its place, and in
the clear there is no other. -/
def Script.Expects (x : Script C) (v : Progress) (buf : Bytes) : Prop :=
  (ExchangePacket buf → Recites (SessionConfig.role C).peer x.peerPref v.peer.length buf) ∧
    (v.past = [] → ExchangePacket buf)

omit [Deps] in
/-- A KEXINIT begins with its number. -/
theorem head_writeKex (pref : Preferred) (cookie : Vector UInt8 16) :
    (writeKex pref cookie).head? = some msg.KEXINIT := rfl

omit [Deps] in
/-- Of the packets of an exchange only the first one is a KEXINIT. -/
theorem Recites.place_eq {role : Role} {pref : Preferred} {n : Nat} {payload : Bytes}
    (h : Recites role pref n payload) (hhead : payload.head? = some msg.KEXINIT) : n = 0 := by
  match n with
  | 0 => rfl
  | 1 =>
    have hdh : payload.head? = some role.peer.dhMessage := h
    rw [hhead] at hdh
    cases role with
    | client => exact absurd hdh (by decide)
    | server => exact absurd hdh (by decide)
  | n + 2 =>
    have hnewKeys : payload = [msg.NEWKEYS] := h
    rw [hnewKeys] at hhead
    exact absurd hhead (by decide)

/-- How the keys of a round follow from what was hashed, for the session id so far. -/
structure Derives (h : Hashing) (id : Option Bytes32) (isServer : Bool) (keys : NewKeys) :
    Prop where
  /-- The record is the one that was hashed. -/
  exchange : keys.exchange = h.exchange
  /-- The first hash is the session id. -/
  sessionId : keys.sessionId = id.getD h.hash
  /-- The pair. -/
  cipher : h.kex.computeKeys (id.getD h.hash) h.hash keys.names.cipher isServer = .ok keys.cipher

section
variable {x : Script C} {v : Progress} {buf : Bytes} {before : Bytes} {s t : CommonSession C}

omit [Deps] in
/-- The first packet of an exchange that is expected is a KEXINIT. -/
theorem Script.Expects.kexInit (h : x.Expects v buf) (hpeer : v.peer = [])
    (hexchange : ExchangePacket buf) : ∃ cookie, buf = writeKex x.peerPref cookie := by
  have hrecites := h.1 hexchange
  rwa [hpeer] at hrecites

omit [Deps] in
/-- A KEXINIT is expected at the beginning of an exchange only. -/
theorem Script.Expects.peer_eq (h : x.Expects v buf) (hhead : buf.head? = some msg.KEXINIT) :
    v.peer = [] := by
  have hrecites := h.1 ⟨msg.KEXINIT, hhead, .inl rfl⟩
  exact List.length_eq_zero_iff.mp (hrecites.place_eq hhead)

/-- A KEXINIT that is expected comes before the last steps of the exchange. -/
theorem Script.Expects.not_late (h : x.Expects v buf) (hplace : x.Place v s)
    (hhead : buf.head? = some msg.KEXINIT) : s.phase ≠ .dh ∧ s.phase ≠ .newKeys := by
  have hnil := h.peer_eq hhead
  cases hplace with
  | idle henc hrekey hex hlast hids hown hpeer =>
    have hphase : s.phase = .idle := by
      simp [CommonSession.phase, henc, Encrypted.phase, hrekey, hex]
    rw [hphase]
    decide
  | waiting hk hrecord hid hown hpeer =>
    rw [phase_of_exchanging hk]
    simp [Kex.phase]
  | dh hk hphase hdh hown hpeer =>
    rw [hnil] at hpeer
    cases hpeer
  | newKeys hk hdeals hids hown hpeer hdrained =>
    rw [hnil] at hpeer
    cases hpeer

/-- Outside of the exchange no packet of one is expected. -/
theorem Script.Expects.exchanges_eq (h : x.Expects v buf) (hplace : x.Place v s)
    (hout : ¬ s.InExchange buf) : exchanges [buf] = [] := by
  simp only [CommonSession.InExchange, not_or] at hout
  obtain ⟨-, hhead, hphase⟩ := hout
  refine exchanges_other fun hexchange => ?_
  obtain ⟨cookie, rfl⟩ := h.kexInit (hplace.hears.2 hphase) hexchange
  exact hhead (head_writeKex _ _)

/-- The own KEXINIT is sent, and nothing is heard. -/
theorem Script.Place.of_kexInit (h : x.Place v s) {k : KexInit}
    (hk : s.exchanging = some (.kexInit k)) :
    ∃ payload, k.exchange = x.record payload ∧ k.sessionId = v.id ∧ v.own = [payload] ∧
      v.peer = [] := by
  cases h with
  | idle henc hrekey hex hlast hids hown hpeer =>
    rw [exchanging_some henc, hrekey] at hk
    cases hk
  | waiting hk' hrecord hid hown hpeer =>
    cases hk.symm.trans hk'
    exact ⟨_, hrecord, hid, hown, hpeer⟩
  | dh hk' hphase hdh hown hpeer =>
    cases hk.symm.trans hk'
    cases hphase
  | newKeys hk' hdeals hids hown hpeer hdrained => cases hk.symm.trans hk'

/-- Both KEXINITs are exchanged. -/
theorem Script.Place.of_dh (h : x.Place v s) {k : Kex} (hk : s.exchanging = some k)
    (hphase : k.phase = .dh) : x.dh v.id v.own v.peer k := by
  cases h with
  | idle henc hrekey hex hlast hids hown hpeer =>
    rw [exchanging_some henc, hrekey] at hk
    cases hk
  | waiting hk' hrecord hid hown hpeer =>
    cases hk.symm.trans hk'
    cases hphase
  | dh hk' hphase' hdh hown hpeer =>
    cases hk.symm.trans hk'
    exact hdh
  | newKeys hk' hdeals hids hown hpeer hdrained =>
    cases hk.symm.trans hk'
    cases hphase

/-- The own NEWKEYS is sent. -/
theorem Script.Place.of_newKeys (h : x.Place v s) {newkeys : NewKeys}
    (hk : s.exchanging = some (.newKeys newkeys)) :
    ∃ round : Round, round.keys = newkeys ∧ x.deals v.id round ∧
      (round.keys.exchange.clientId = x.clientId ∧ round.keys.exchange.serverId = x.serverId) ∧
      v.own = round.said ∧ v.peer = [round.peer.1, round.peer.2] := by
  cases h with
  | idle henc hrekey hex hlast hids hown hpeer =>
    rw [exchanging_some henc, hrekey] at hk
    cases hk
  | waiting hk' hrecord hid hown hpeer => cases hk.symm.trans hk'
  | dh hk' hphase hdh hown hpeer =>
    cases hk.symm.trans hk'
    cases hphase
  | @newKeys round hk' hdeals hids hown hpeer hdrained =>
    cases hk.symm.trans hk'
    exact ⟨round, rfl, hdeals, hids, hown, hpeer⟩

/-- What is expected of a session that waits for a KEXINIT is one. -/
theorem Script.Expects.awaited (h : x.Expects v buf) (hstanding : s.encrypted = none → v.past = [])
    (hhead : s.encrypted.isSome → buf.head? = some msg.KEXINIT) : ExchangePacket buf := by
  cases henc : s.encrypted with
  | none => exact h.2 (hstanding henc)
  | some enc => exact ⟨msg.KEXINIT, hhead (by rw [henc]; rfl), .inl rfl⟩

omit [Deps] in
/-- The last packet of an exchange that is expected is NEWKEYS. -/
theorem Script.Expects.newKeys (h : x.Expects v buf) {first second : Bytes}
    (hpeer : v.peer = [first, second]) (hhead : buf.head? = some msg.NEWKEYS) :
    buf = [msg.NEWKEYS] := by
  have hrecites := h.1 ⟨msg.NEWKEYS, hhead, .inr (.inl rfl)⟩
  rwa [hpeer] at hrecites

omit [Deps] [SessionConfig C] in
/-- One more packet of an exchange is heard. -/
theorem heard_snoc {own : List Bytes} (hexchange : ExchangePacket buf) :
    Progress.heard ⟨v.past, own, v.peer ++ [buf]⟩ = v.heard ++ exchanges [buf] := by
  rw [exchanges_single hexchange]
  simp only [Progress.heard, List.append_assoc]

omit [Deps] [SessionConfig C] in
/-- The last packet of an exchange is heard. -/
theorem heard_complete {round : Round} (hpeer : v.peer = [round.peer.1, round.peer.2]) :
    Progress.heard ⟨v.past ++ [round], [], []⟩ = v.heard ++ exchanges [[msg.NEWKEYS]] := by
  rw [exchanges_single ⟨msg.NEWKEYS, rfl, .inr (.inl rfl)⟩]
  simp only [Progress.heard, hpeer, List.flatMap_append, List.flatMap_singleton, List.append_nil,
    List.append_assoc]
  rfl

omit [SessionConfig C] in
/-- A step of an exchange leaves nothing queued. -/
theorem Seals.drained {packets : List (Origin × Bytes)} (h : Seals s t packets)
    (hdrained : s.Drained) : t.Drained := by
  intro enc' henc'
  have hrel := h.encrypted
  rw [henc'] at hrel
  cases hs : s.encrypted with
  | none =>
    rw [hs] at hrel
    cases hrel
  | some enc =>
    rw [hs] at hrel
    cases hrel with
    | some hsame =>
      rw [hsame]
      exact hdrained enc hs

namespace Standing

/-- A packet of the exchange moves it on. -/
theorem seals (h : Standing x v before s) (packets : List (Origin × Bytes))
    (hseals : Seals s t packets) {own peer : List Bytes}
    (htranscript : Transcript x ⟨v.past, own, peer⟩ before
      (s.writeBuffer.sealEach s.cipher packets))
    (hplace : x.Place ⟨v.past, own, peer⟩ t) : Standing x ⟨v.past, own, peer⟩ before t := by
  have hstanding := hseals.standing_eq
  have hall : (s.encrypted = none ∧ t.encrypted = none) ∨
      ∃ enc enc', s.encrypted = some enc ∧ t.encrypted = some enc' ∧ SameBut enc enc' := by
    have hrel := hseals.encrypted
    generalize s.encrypted = a at hrel
    generalize t.encrypted = b at hrel
    cases hrel with
    | none => exact .inl ⟨rfl, rfl⟩
    | some hrel => exact .inr ⟨_, _, rfl, rfl, hrel⟩
  constructor
  · rw [hseals.same]
    exact htranscript
  · rw [hseals.same]
    exact h.config_eq
  · rw [hseals.same]
    exact h.cipher_eq
  · exact hplace
  · intro hnone
    rcases hall with ⟨hs, -⟩ | ⟨enc, enc', hs, ht, -⟩
    · exact h.clear hs
    · cases ht.symm.trans hnone
  · intro enc'' henc''
    rcases hall with ⟨-, hnone⟩ | ⟨enc, enc', hs, ht, hsame⟩
    · cases hnone.symm.trans henc''
    · cases ht.symm.trans henc''
      obtain ⟨hid, huncompressed⟩ := h.encrypted enc hs
      rw [hsame]
      exact ⟨hid, huncompressed.server, huncompressed.client, huncompressed.compress,
        huncompressed.decompress⟩
  · rw [CommonSession.emitted, hstanding]
    exact h.unrelated
  · have hnone : ∀ p ∈ packets, p.1 ≠ .queued := fun p hp hqueued => by
      have hkex := hseals.isKex p hp
      rw [hqueued] at hkex
      cases hkex
    rw [hseals.same, sealedPayloads_sealEach _ _ hnone, CommonSession.emitted, ← hseals.same, hstanding]
    exact h.handed
  · exact h.inLine.seals hseals

/-- The peer's NEWKEYS completes a round: its keys are in use. -/
theorem complete (h : Standing x v before s) {round : Round} (hdeals : x.deals v.id round)
    (hids : round.keys.exchange.clientId = x.clientId ∧
      round.keys.exchange.serverId = x.serverId) (hown : v.own = round.said) (bytes : Nat)
    (hinstalls : Installs s t bytes []) {enc : Encrypted} (henc : t.encrypted = some enc)
    (hcipher : t.cipher = { round.keys.cipher with epoch := s.cipher.epoch + 1 })
    (hex : enc.exchange = some round.keys.exchange) (hrekey : enc.rekey = none)
    (hid : s.encrypted = none → enc.sessionId = round.keys.sessionId)
    (huncompressed : enc.Uncompressed) : Standing x ⟨v.past ++ [round], [], []⟩ before t := by
  have hbuffer : t.writeBuffer = { s.writeBuffer with bytes := bytes } := by
    rw [hinstalls.same]
    rfl
  have hepoch : s.cipher.epoch = v.past.length := by
    rw [h.cipher_eq]
    rfl
  have hrel := hinstalls.encrypted
  constructor
  · rw [hbuffer]
    exact (h.transcript.complete hown hdeals).count bytes
  · rw [hinstalls.same]
    exact h.config_eq
  · rw [hcipher, hepoch]
    exact (pairOf_append _ _).symm
  · refine .idle henc hrekey hex ?_ hids rfl rfl
    simp only [List.getLast?_append, List.getLast?_singleton, Option.some_or, Option.map_some]
  · intro hnone
    cases henc.symm.trans hnone
  · intro enc' henc'
    cases henc.symm.trans henc'
    refine ⟨?_, huncompressed⟩
    cases hs : s.encrypted with
    | none =>
      rw [hid hs]
      simp only [Progress.id, h.clear hs, List.nil_append, List.head?_cons, Option.map_some]
    | some enc₀ =>
      have hsome : s.encrypted.isSome = true := by rw [hs]; rfl
      have hsession := (h.encrypted enc₀ hs).1
      rw [hs] at hrel
      obtain ⟨enc₁, henc₁, hsame⟩ := hrel
      cases henc.symm.trans henc₁
      rw [id_append (h.past_ne_nil hsome), hsame]
      exact hsession
  · intro body hbody
    cases hs : s.encrypted with
    | none =>
      rw [hs] at hrel
      obtain ⟨enc₁, henc₁, -, -, hemitted, -⟩ := hrel
      rw [emitted_some henc₁, hemitted] at hbody
      cases hbody
    | some enc₀ =>
      rw [hs] at hrel
      obtain ⟨enc₁, henc₁, hsame⟩ := hrel
      refine h.unrelated body ?_
      rw [emitted_some henc₁, hsame] at hbody
      rwa [emitted_some hs]
  · rw [hbuffer]
    cases hs : s.encrypted with
    | none =>
      rw [h.inLine.clear hs]
      exact List.nil_prefix
    | some enc₀ =>
      rw [hs] at hrel
      obtain ⟨enc₁, henc₁, hsame⟩ := hrel
      rw [emitted_some henc₁, hsame, ← emitted_some hs]
      exact h.handed
  · exact h.inLine.installs hinstalls

end Standing

end

/-- What a script and the steps of an exchange are to a role. -/
structure Driver.Performs (d : Driver C S M) (x : Script C)
    (E : CommonSession C → Bytes → CommonSession C → Prop) : Prop where
  /-- What it queues belongs to no exchange. -/
  behaves : d.Behaves Unrelated
  /-- Its turns. -/
  courses : d.Courses E
  /-- A packet of the exchange that is expected. -/
  hears : ∀ v before s buf t, E s buf t → s.Sound → Standing x v before s → s.Drained →
    x.Expects v buf → ∃ v', Standing x v' before t ∧ v'.heard = v.heard ++ exchanges [buf] ∧
      v.past <+: v'.past
  /-- A local message. -/
  speaks : ∀ s m,
    Relation.ReflTransGen (Speaks Unrelated) (d.common s) (d.common (final (d.message m s)))

section
variable {d : Driver C S M} {x : Script C}
  {E : CommonSession C → Bytes → CommonSession C → Prop} {v : Progress} {before buf : Bytes} {s t : S}

/-- Every packet that is expected is served, and heard if it belongs to an exchange. -/
theorem Driver.Performs.reply (hd : d.Performs x E) (hs : (d.common s).Sound)
    (hstanding : Standing x v before (d.common s)) (hdrained : (d.common s).Drained)
    (hexpects : x.Expects v buf) (h : d.reply buf s = .ok () t) (hroomy : (d.common t).Roomy) :
    ∃ v', Standing x v' before (d.common t) ∧ v'.heard = v.heard ++ exchanges [buf] ∧
      v.past <+: v'.past := by
  by_cases hin : (d.common s).InExchange buf
  · rcases hd.courses.exchange s buf hs hin with ⟨u, hu, hreply | hreply⟩ | ⟨e, u, packets, hreply, -⟩
    · cases hreply.symm.trans h
      exact hd.hears v before _ buf _ hu hs hstanding hdrained hexpects
    · obtain ⟨v', hheard, hcount, hpast⟩ := hd.hears v before _ buf _ hu hs hstanding hdrained hexpects
      have hflush : FlushStep (d.common u) (d.common t) := by
        have hrun := hreply.symm.trans h
        have hstep := flush_final (d.common u)
        unfold zoom at hrun
        cases hresult : flush (d.common u) with
        | error e w =>
          rw [hresult] at hrun
          cases hrun
        | ok _ w =>
          rw [hresult] at hrun hstep
          cases hrun
          rw [hd.behaves.common_set]
          exact hstep
      have hbefore : (d.common u).Roomy := by
        have hemitted : (d.common t).emitted = (d.common u).emitted := by
          rw [CommonSession.emitted, CommonSession.emitted, hflush.standing_eq]
        exact hroomy.of_later (hemitted ▸ List.prefix_refl _)
      obtain ⟨own, hown⟩ := hheard.flush hflush hbefore
      exact ⟨_, hown, hcount, hpast⟩
    · cases hreply.symm.trans h
  · have hserved := hd.behaves.serve s buf hs hin
    rw [h, final_ok] at hserved
    simp only [CommonSession.InExchange, not_or] at hin
    obtain ⟨henc, hhead, hphase⟩ := hin
    obtain ⟨own, hown⟩ := hstanding.turns (Option.isSome_iff_ne_none.mpr henc) hphase hserved hroomy
    refine ⟨_, hown, ?_, List.prefix_refl _⟩
    rw [hexpects.exchanges_eq hstanding.place, List.append_nil]
    · rfl
    · simp only [CommonSession.InExchange, not_or]
      exact ⟨henc, hhead, hphase⟩

end

end Thrussh
