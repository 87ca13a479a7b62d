import Thrussh.Client.Moves
import Thrussh.Directions
import Thrussh.Phase

/-!
# The client's steps of a key exchange

What `KexInit::client_parse` and `KexDhDone::server_key_check` return, and
what `reply` makes of a session with a packet of a key exchange: every way
in which it is served, and what it leaves when it fails.
-/

namespace Thrussh

open Deps Lib

variable [Deps]

/-- The client's ECDH_INIT for a secret scalar. -/
def ecdhInit (secret : Bytes32) : Bytes :=
  msg.KEX_ECDH_INIT :: sshString (scalarmultBase secret).toList

/-- The client's record behind both KEXINITs. -/
def Exchange.withServer (ex : Exchange) (buf : Bytes) (secret : Bytes32) : Exchange :=
  { ex with
    serverKexInit := ex.serverKexInit ++ buf
    clientEphemeral := (scalarmultBase secret).toList }

/-- `client_parse` of a KEXINIT, when the own KEXINIT has been sent. -/
theorem clientParse_sent {k : KexInit} (halgo : k.algo = none) (hsent : k.sent = true)
    (config : Client.Config) (cipher : CipherPair) (buf : Bytes) (random : Rand) (b : SSHBuffer) :
    k.clientParse config cipher buf random b =
      match readKex .client buf config.preferred with
      | .error e => .error e b
      | .ok names =>
        .ok ⟨k.exchange.withServer buf random.secret, ⟨some random.secret, none⟩, 0, k.sessionId,
          names⟩ (b.sealEach cipher [(.ecdhInit, ecdhInit random.secret)]) := by
  have hshort : (ecdhInit random.secret).length < 2 ^ 32 - 17 := by simp [ecdhInit]
  simp only [KexInit.clientParse, halgo, Option.isSome_none, Bool.false_eq_true, if_false, run_bind]
  cases readKex .client buf config.preferred with
  | error e => rfl
  | ok names =>
    have hcut : resize (k.exchange.clientKexInit ++ ecdhInit random.secret)
        k.exchange.clientKexInit.length = k.exchange.clientKexInit := by
      rw [resize_of_le (by simp), List.take_left]
    simp only [run_lift_ok, hsent, if_true, run_pure, run_bind, Algorithm.clientDh, List.drop_left]
    rw [show msg.KEX_ECDH_INIT :: sshString (scalarmultBase random.secret).toList =
      ecdhInit random.secret from rfl, write_ok cipher .ecdhInit b hshort, hcut]
    rfl

/-- `client_parse` fails at once on a KEXINIT whose algorithms are known. -/
theorem clientParse_known {k : KexInit} (halgo : k.algo.isSome = true) (config : Client.Config)
    (cipher : CipherPair) (buf : Bytes) (random : Rand) (b : SSHBuffer) :
    k.clientParse config cipher buf random b = .error (.error .kex) b := by
  simp only [KexInit.clientParse, if_pos halgo]
  rfl

namespace Client

/-- The server's reply passes the check of its signature, and gives the keys. -/
inductive KexDhDone.Checks (k : KexDhDone) (buf : Bytes) : NewKeys → Prop where
  | mk {blob : Bytes} {r : Position} {pubkey : PublicKey} {newkeys : NewKeys}
    (hblob : (reader buf 1).readString = .ok (blob, r)) (hkey : readPublicKey blob = .ok pubkey)
    (hverify : KexDhDone.verify k pubkey r = .ok (.newKeys newkeys)) : Checks k buf newkeys

/-- A reply that passes gives keys, which do not open in the clear. -/
theorem verify_newKeys {k : KexDhDone} {pubkey : PublicKey} {r : Position} {kex : Kex}
    (h : KexDhDone.verify k pubkey r = .ok kex) :
    ∃ newkeys, kex = .newKeys newkeys ∧ newkeys.cipher.remoteToLocal ≠ .clear := by
  unfold KexDhDone.verify at h
  obtain ⟨⟨ephemeral, r₂⟩, -, h⟩ := ok_of_bind h
  obtain ⟨⟨signature, r₃⟩, -, h⟩ := ok_of_bind h
  obtain ⟨kex, -, h⟩ := ok_of_bind h
  obtain ⟨⟨algorithm, r₄⟩, -, h⟩ := ok_of_bind h
  obtain ⟨⟨sig, r₅⟩, -, h⟩ := ok_of_bind h
  dsimp only at h
  split at h
  · obtain ⟨newkeys, hkeys, h⟩ := ok_of_bind h
    have hkeyed := KexDhDone.computeKeys_keyed hkeys
    cases h
    exact ⟨_, rfl, hkeyed⟩
  · cases h

/-- The keys of a reply that passes the checks do not open in the clear. -/
theorem KexDhDone.Checks.keyed {k : KexDhDone} {buf : Bytes} {newkeys : NewKeys}
    (h : KexDhDone.Checks k buf newkeys) : newkeys.cipher.remoteToLocal ≠ .clear := by
  cases h with
  | mk hblob hkey hverify =>
    obtain ⟨newkeys', hsame, hkeyed⟩ := verify_newKeys hverify
    cases hsame
    exact hkeyed

/-- The check of the server's reply changes nothing but what has been asked. -/
theorem serverKeyCheck_cases (app : Application) (k : KexDhDone) (rekey : Bool) (buf : Bytes)
    (s : Session) :
    ∃ t tick, t.common = { s.common with tick := tick } ∧
      ((∃ newkeys, KexDhDone.Checks k buf newkeys ∧
        serverKeyCheck app k rekey buf s = .ok (.newKeys newkeys) t) ∨
      ∃ e, serverKeyCheck app k rekey buf s = .error e t) := by
  have hverify : ∀ blob r pubkey t, (reader buf 1).readString = .ok (blob, r) →
      readPublicKey blob = .ok pubkey →
      (∃ newkeys, KexDhDone.Checks k buf newkeys ∧
        (lift (KexDhDone.verify k pubkey r) : M Kex) t = .ok (.newKeys newkeys) t) ∨
      ∃ e, (lift (KexDhDone.verify k pubkey r) : M Kex) t = .error e t := by
    intro blob r pubkey t hblob hkey
    cases hresult : KexDhDone.verify k pubkey r with
    | error e => exact .inr ⟨e, rfl⟩
    | ok kex =>
      obtain ⟨newkeys, rfl, -⟩ := verify_newKeys hresult
      exact .inl ⟨newkeys, .mk hblob hkey hresult, rfl⟩
  simp only [serverKeyCheck, run_bind]
  cases hblob : (reader buf 1).readString with
  | error e => exact ⟨s, s.common.tick, rfl, .inr ⟨e, rfl⟩⟩
  | ok res =>
    obtain ⟨blob, r⟩ := res
    simp only [run_lift_ok]
    cases hkey : readPublicKey blob with
    | error e => exact ⟨s, s.common.tick, rfl, .inr ⟨e, rfl⟩⟩
    | ok pubkey =>
      simp only [run_lift_ok]
      cases rekey with
      | true => exact ⟨s, s.common.tick, rfl, hverify blob r pubkey s hblob hkey⟩
      | false =>
        simp only [Bool.false_eq_true, if_false, run_bind, checkServerKey, ask]
        set answer := app.handler s.common.tick (.checkServerKey pubkey) s
        set t : Session := { s with
          common := { s.common with tick := s.common.tick + 1 }
          callbacks := s.callbacks ++ [(.checkServerKey pubkey, answer)] }
        refine ⟨t, s.common.tick + 1, rfl, ?_⟩
        cases hfail : answer.fail with
        | true => exact .inr ⟨_, rfl⟩
        | false =>
          cases hcheck : answer.check with
          | true => exact hverify blob r pubkey t hblob hkey
          | false => exact .inr ⟨_, rfl⟩

/-- What `reply` makes of a session with a packet of a key exchange that it serves. -/
inductive Exchanged (s : CommonSession Config) (buf : Bytes) : CommonSession Config → Prop where
  /-- Nothing waits for the packet. -/
  | skip (h : s.phase = .lost) : Exchanged s buf s
  /-- The server's KEXINIT, after the own one. -/
  | answer {k : KexInit} {names : Names} (hk : s.exchanging = some (.kexInit k))
    (hhead : s.encrypted.isSome → buf.head? = some msg.KEXINIT)
    (hread : readKex .client buf s.config.preferred = .ok names) :
    Exchanged s buf ({ s with
      writeBuffer := s.writeBuffer.sealEach s.cipher
        [(.ecdhInit, ecdhInit (s.world.rand s.tick).secret)]
      tick := s.tick + 1 }.setExchanging
        (.kexDhDone ⟨k.exchange.withServer buf (s.world.rand s.tick).secret,
          ⟨some (s.world.rand s.tick).secret, none⟩, 0, k.sessionId, names⟩))
  /-- The server's wrong guess. -/
  | guess {k : Thrussh.KexDhDone} (hk : s.exchanging = some (.kexDhDone k))
    (hhead : s.encrypted.isSome → buf.head? ≠ some msg.KEXINIT)
    (hguess : k.names.ignoreGuessed = true) :
    Exchanged s buf (s.setExchanging
      (.kexDhDone { k with names := { k.names with ignoreGuessed := false } }))
  /-- The server's ECDH_REPLY. -/
  | finish {k : Thrussh.KexDhDone} {newkeys : NewKeys} {tick : Nat}
    (hk : s.exchanging = some (.kexDhDone k)) (hguess : k.names.ignoreGuessed = false)
    (hhead : buf.head? = some msg.KEX_ECDH_REPLY) (hchecks : KexDhDone.Checks k buf newkeys) :
    Exchanged s buf ({ s with
      writeBuffer := s.writeBuffer.sealEach s.cipher [(.newkeys, [msg.NEWKEYS])]
      tick := tick }.setExchanging (.newKeys newkeys))
  /-- The server's NEWKEYS in the first exchange: the service request goes out. -/
  | first {newkeys : NewKeys} (henc : s.encrypted = none) (hk : s.kex = some (.newKeys newkeys))
    (hhead : buf.head? = some msg.NEWKEYS) :
    Exchanged s buf { { s with kex := none, tick := s.tick + 1 }.toEncrypted
        (.waitingServiceRequest true false) newkeys (s.world.clock s.tick) with
      writeBuffer := s.writeBuffer.sealEach { newkeys.cipher with epoch := s.cipher.epoch + 1 }
        [(.service, serviceRequest)] }
  /-- The server's NEWKEYS in a re-exchange. -/
  | install {enc : Encrypted} {newkeys : NewKeys} (henc : s.encrypted = some enc)
    (hrekey : enc.rekey = some (.newKeys newkeys)) (hhead : buf.head? = some msg.NEWKEYS) :
    Exchanged s buf ({ s with
      encrypted := some { enc with rekey := none, lastRekey := s.world.clock s.tick }
      writeBuffer := { s.writeBuffer with bytes := 0 }
      tick := s.tick + 1 }.newkeys newkeys)
  /-- A KEXINIT that comes too late. -/
  | drop {enc : Encrypted} {k : Kex} (henc : s.encrypted = some enc) (hrekey : enc.rekey = some k)
    (hphase : k.phase ≠ .waiting) (hhead : buf.head? = some msg.KEXINIT) :
    Exchanged s buf { s with encrypted := some { enc with rekey := none } }

/-- The possible results of `reply` with a packet of a key exchange: the
packet is served, perhaps with a flush after it, or it fails. -/
def Replied (s : Session) (buf : Bytes) (r : EStateM.Result Fault Session Unit) : Prop :=
  (∃ t, Exchanged s.common buf t.common ∧ (r = .ok () t ∨ r = onCommon flush t)) ∨
  ∃ e t packets, r = .error e t ∧ Seals s.common t.common packets

theorem runClientParse_run (k : KexInit) (buf : Bytes) (s : Session) :
    runClientParse k buf s =
      match k.clientParse s.common.config s.common.cipher buf
        (s.common.world.rand s.common.tick) s.common.writeBuffer with
      | .ok kex b => .ok kex
        { s with common := { s.common with tick := s.common.tick + 1, writeBuffer := b } }
      | .error e b => .error e
        { s with common := { s.common with tick := s.common.tick + 1, writeBuffer := b } } := by
  simp only [runClientParse, run_bind, run_get, onCommon, rand, withWriteBuffer, zoom]
  cases k.clientParse s.common.config s.common.cipher buf
    (s.common.world.rand s.common.tick) s.common.writeBuffer <;> rfl

/-- Sealing a short packet. -/
theorem sealPacket_ok (origin : Origin) {p : Bytes} (h : p.length < 2 ^ 32 - 17)
    (s : Session) :
    sealPacket origin p s = .ok () { s with common := { s.common with
      writeBuffer := s.common.writeBuffer.sealEach s.common.cipher [(origin, p)] } } := by
  simp only [sealPacket, run_bind, run_get, onCommon, withWriteBuffer, zoom,
    write_ok s.common.cipher origin s.common.writeBuffer h]
  rfl

/-- Taking the first exchange out and failing leaves a session that seals nothing. -/
theorem seals_kex (s : CommonSession Config) (k : Option Kex) (tick : Nat) :
    Seals s { s with kex := k, tick := tick } [] :=
  ⟨rfl, by
    cases s.encrypted with
    | none => exact .none
    | some enc => exact .some rfl, by simp, by simp⟩

theorem reply_first {app : Application} {s : Session} (hs : s.common.Sound)
    (hnone : s.common.encrypted = none) {k : Kex} (hk : s.common.kex = some k) (buf : Bytes) :
    Replied s buf (reply app buf s) := by
  have hexchanging := (exchanging_none hnone).trans hk
  have hfits := hs.fits k hexchanging
  simp only [reply, run_bind, run_get, hk]
  cases k with
  | kexInit k =>
    obtain ⟨hsent, halgo⟩ := hfits
    have hcond : k.algo.isSome = true ∨ buf.head? = some msg.KEXINIT ∨
        s.common.encrypted.isNone = true := .inr (.inr (by rw [hnone]; rfl))
    simp only [if_pos hcond, run_bind, takeKex, run_modify, runClientParse_run,
      clientParse_sent halgo hsent]
    cases hread : readKex .client buf s.common.config.preferred with
    | error e => exact .inr ⟨e, _, [], rfl, seals_kex s.common _ _⟩
    | ok names =>
      refine .inl ⟨_, ?_, .inr rfl⟩
      have h := Exchanged.answer hexchanging (by simp [hnone]) hread
      rw [setExchanging_none (by exact hnone)] at h
      exact h
  | kexDh k => exact hfits.elim
  | kexDhDone k =>
    simp only [run_bind, takeKex, run_modify]
    by_cases hguess : k.names.ignoreGuessed = true
    · simp only [if_pos hguess]
      refine .inl ⟨_, ?_, .inl rfl⟩
      have h : Exchanged s.common buf _ := .guess hexchanging (by simp [hnone]) hguess
      rw [setExchanging_none (by exact hnone)] at h
      exact h
    · simp only [if_neg hguess]
      by_cases hhead : buf.head? = some msg.KEX_ECDH_REPLY
      · obtain ⟨t, tick, ht, hcheck⟩ := serverKeyCheck_cases app k false buf
          { s with common := { s.common with kex := none } }
        simp only [if_pos hhead, run_bind]
        rcases hcheck with ⟨newkeys, hchecks, hrun⟩ | ⟨e, hrun⟩
        · simp only [hrun, setKex, run_modify, sealPacket_ok .newkeys (p := [msg.NEWKEYS])
            (by decide), ht]
          refine .inl ⟨_, ?_, .inr rfl⟩
          have h := @Exchanged.finish _ s.common buf k newkeys tick hexchanging
            (by simpa using hguess) hhead hchecks
          rw [setExchanging_none (by exact hnone)] at h
          exact h
        · simp only [hrun]
          refine .inr ⟨e, t, [], rfl, ?_⟩
          rw [ht]
          exact seals_kex s.common _ _
      · simp only [if_neg hhead]
        exact .inr ⟨_, _, [], rfl, seals_kex s.common _ s.common.tick⟩
  | newKeys k =>
    simp only [run_bind, takeKex, run_modify]
    by_cases hhead : buf.head? = some msg.NEWKEYS
    · have hservice : serviceRequest.length < 2 ^ 32 - 17 := by decide
      simp only [if_pos hhead, installFirst, run_bind, run_get, onCommon, now, zoom, run_modify,
        hnone, Option.isNone_none, if_true, sealPacket_ok .service hservice]
      exact .inl ⟨_, .first hnone hk hhead, .inl rfl⟩
    · simp only [if_neg hhead]
      exact .inr ⟨_, _, [], rfl, seals_kex s.common _ s.common.tick⟩

/-- Taking the re-exchange out and failing leaves a session that seals nothing. -/
theorem seals_rekey {s : CommonSession Config} {enc : Encrypted} (h : s.encrypted = some enc)
    (rekey : Option Kex) (exchange : Option Exchange) (tick : Nat) :
    Seals s { s with
      encrypted := some { enc with rekey := rekey, exchange := exchange }, tick := tick } [] :=
  ⟨rfl, by
    rw [h]
    exact .some rfl, by simp, by simp⟩

theorem clientReadKexInit_replied {s : Session} (hs : s.common.Sound) {enc : Encrypted}
    (henc : s.common.encrypted = some enc) {buf : Bytes} (hhead : buf.head? = some msg.KEXINIT) :
    Replied s buf (clientReadKexInit buf s) := by
  have hexchanging := exchanging_some henc
  simp only [clientReadKexInit, run_bind, getEnc, run_get, henc, run_pure, takeRekey, setRekey,
    modifyEnc, run_modify, CommonSession.modifyEnc, Option.map_some]
  cases hrekey : enc.rekey with
  | none =>
    cases hex : enc.exchange with
    | none =>
      refine .inl ⟨s, .skip ?_, .inl ?_⟩
      · simp only [CommonSession.phase, henc, Encrypted.phase, hrekey, hex]
        rfl
      · have hsame : { enc with rekey := none, exchange := none } = enc := by
          cases enc
          dsimp only at hrekey hex
          subst hrekey hex
          rfl
        simp only [run_pure, hsame, ← henc]
    | some ex =>
      simp only [run_bind, run_modify, run_get, runClientParse_run]
      cases hread : readKex .client buf s.common.config.preferred with
      | error e => exact .inr ⟨e, _, [], rfl, seals_rekey henc none none s.common.tick⟩
      | ok names =>
        simp only [run_lift_ok, clientParse_known (k := KexInit.receivedRekey ex names
          enc.sessionId) rfl]
        exact .inr ⟨_, _, [], rfl, seals_rekey henc none none (s.common.tick + 1)⟩
  | some kex =>
    have hex := hs.exclusive enc henc (by rw [hrekey]; rfl)
    rw [hrekey] at hexchanging
    have hfits := hs.fits kex hexchanging
    have hdrop : kex.phase ≠ .waiting → Replied s buf (.ok ()
        { s with common := { s.common with encrypted := some { enc with rekey := none } } }) :=
      fun hphase => .inl ⟨_, .drop henc hrekey hphase hhead, .inl rfl⟩
    cases kex with
    | kexInit k =>
      simp only [run_bind, run_modify, runClientParse_run, clientParse_sent hfits.2 hfits.1]
      cases hread : readKex .client buf s.common.config.preferred with
      | error e => exact .inr ⟨e, _, [], rfl, seals_rekey henc none enc.exchange _⟩
      | ok names =>
        refine .inl ⟨_, ?_, .inr rfl⟩
        have h := Exchanged.answer hexchanging (fun _ => hhead) hread
        rw [setExchanging_some (by exact henc)] at h
        exact h
    | kexDh k => simpa only [hex, run_pure] using hdrop (by simp [Kex.phase])
    | kexDhDone k => simpa only [hex, run_pure] using hdrop (by simp [Kex.phase])
    | newKeys k => simpa only [hex, run_pure] using hdrop (by simp [Kex.phase])

/-- A packet of a key exchange is served in one of the ways of `Exchanged`, or fails. -/
theorem reply_replied (app : Application) {s : Session} (hs : s.common.Sound) {buf : Bytes}
    (hin : s.common.InExchange buf) : Replied s buf (reply app buf s) := by
  cases henc : s.common.encrypted with
  | none =>
    cases hk : s.common.kex with
    | some k => exact reply_first hs henc hk buf
    | none =>
      simp only [reply, run_bind, run_get, hk, clientReadEncrypted]
      by_cases hhead : buf.head? = some msg.KEXINIT
      · simp only [if_pos hhead, clientReadKexInit, run_bind, getEnc, run_get, henc]
        exact .inr ⟨_, s, [], rfl, seals_kex s.common s.common.kex s.common.tick⟩
      · simp only [if_neg hhead, run_bind, run_get, henc]
        refine .inl ⟨s, .skip ?_, .inl rfl⟩
        simp only [CommonSession.phase, henc, hk]
  | some enc =>
    have hexchanging := exchanging_some henc
    simp only [reply, run_bind, run_get, hs.first (by rw [henc]; rfl), clientReadEncrypted]
    by_cases hhead : buf.head? = some msg.KEXINIT
    · simp only [if_pos hhead]
      exact clientReadKexInit_replied hs henc hhead
    · simp only [if_neg hhead, run_bind, run_get, henc]
      have hlate : s.common.phase = .dh ∨ s.common.phase = .newKeys := by
        simpa only [CommonSession.InExchange, henc, reduceCtorEq, hhead, false_or] using hin
      cases hrekey : enc.rekey with
      | none =>
        simp only [CommonSession.phase, henc, Encrypted.phase, hrekey] at hlate
        split at hlate <;> simp at hlate
      | some kex =>
        rw [hrekey] at hexchanging
        have hfits := hs.fits kex hexchanging
        rw [phase_of_exchanging hexchanging] at hlate
        cases kex with
        | kexInit k => simp [Kex.phase] at hlate
        | kexDh k => exact hfits.elim
        | kexDhDone k =>
          simp only [clientReadRekey, run_bind, takeRekey, setRekey, modifyEnc, run_modify,
            CommonSession.modifyEnc, henc, Option.map_some]
          by_cases hguess : k.names.ignoreGuessed = true
          · simp only [if_pos hguess]
            refine .inl ⟨_, ?_, .inl rfl⟩
            have h := Exchanged.guess hexchanging (fun _ => hhead) hguess
            rw [setExchanging_some henc] at h
            exact h
          · simp only [if_neg hguess]
            by_cases hreply : buf.head? = some msg.KEX_ECDH_REPLY
            · obtain ⟨t, tick, ht, hcheck⟩ := serverKeyCheck_cases app k true buf
                { s with common := { s.common with
                  encrypted := some { enc with rekey := none } } }
              simp only [if_pos hreply, run_bind]
              rcases hcheck with ⟨newkeys, hchecks, hrun⟩ | ⟨e, hrun⟩
              · simp only [hrun, run_modify, sealPacket_ok .newkeys (p := [msg.NEWKEYS])
                  (by decide), ht]
                refine .inl ⟨_, ?_, .inr rfl⟩
                have h := @Exchanged.finish _ s.common buf k newkeys tick hexchanging
                  (by simpa using hguess) hreply hchecks
                rw [setExchanging_some (by exact henc)] at h
                exact h
              · simp only [hrun]
                refine .inr ⟨e, t, [], rfl, ?_⟩
                rw [ht]
                exact seals_rekey henc none enc.exchange tick
            · simp only [if_neg hreply]
              exact .inr ⟨_, _, [], rfl, seals_rekey henc none enc.exchange s.common.tick⟩
        | newKeys k =>
          simp only [run_bind, takeRekey, modifyEnc, run_modify, CommonSession.modifyEnc, henc,
            Option.map_some]
          by_cases hnewkeys : buf.head? = some msg.NEWKEYS
          · simp only [if_pos hnewkeys, clientInstall, run_bind, run_modify, onCommon, now, zoom,
              modifyEnc, CommonSession.modifyEnc, Option.map_some]
            exact .inl ⟨_, .install henc hrekey hnewkeys, .inl rfl⟩
          · simp only [if_neg hnewkeys]
            exact .inr ⟨_, _, [], rfl, seals_rekey henc none enc.exchange s.common.tick⟩

/-- A step of the client's exchange, seen from its phase. -/
theorem Exchanged.advance {s t : CommonSession Config} {buf : Bytes} (h : Exchanged s buf t)
    (hs : s.Sound) : Advance buf s t := by
  cases h with
  | skip h => exact .skip rfl
  | answer hk hhead hread =>
    exact .answer (phase_of_exchanging hk) (phase_of_exchanging (exchanging_setExchanging _ _))
      (seals_setExchanging s _ _ _ (by simp [Origin.isKex]) (by simp)) (by simp)
  | guess hk hhead hguess =>
    exact .guess (phase_of_exchanging hk) (phase_of_exchanging (exchanging_setExchanging _ _))
      (seals_setExchanging s _ s.tick [] (by simp) (by simp))
  | finish hk hguess hhead hchecks =>
    exact .finish (phase_of_exchanging hk) (phase_of_exchanging (exchanging_setExchanging _ _))
      (seals_setExchanging s _ _ _ (by simp [Origin.isKex]) (by simp)) rfl
      ⟨_, exchanging_setExchanging _ _, hchecks.keyed⟩
  | first henc hk hhead =>
    have hexchanging := (exchanging_none henc).trans hk
    refine .installs s.writeBuffer.bytes [(.service, serviceRequest)]
      (phase_of_exchanging hexchanging) rfl
      ⟨rfl, rfl, ⟨_, hexchanging, rfl⟩, ?_, by simp [serviceRequest], by simp⟩
    · rw [henc]
      exact ⟨_, rfl, rfl, rfl, rfl, fun _ => rfl, rfl⟩
  | install henc hrekey hhead =>
    have hexchanging := (exchanging_some henc).trans hrekey
    refine .installs 0 [] (phase_of_exchanging hexchanging) rfl
      ⟨?_, rfl, ⟨_, hexchanging, rfl⟩, ?_, by simp, by simp⟩
    · rw [← hs.first (by rw [henc]; rfl)]
      rfl
    · rw [henc]
      exact ⟨_, rfl, rfl⟩
  | drop henc hrekey hphase hhead =>
    rename_i enc k
    refine .drop (by rw [henc]; rfl) hhead ?_ ?_ (seals_rekey henc none enc.exchange s.tick)
    · rw [phase_of_exchanging ((exchanging_some henc).trans hrekey)]
      exact k.phase_cases.resolve_left hphase
    · have hex := hs.exclusive enc henc (by rw [hrekey]; rfl)
      simp only [CommonSession.phase, Encrypted.phase, hex]
      rfl

/-- A step of the client's exchange leaves a sound session. -/
theorem Exchanged.sound {s t : CommonSession Config} {buf : Bytes} (h : Exchanged s buf t)
    (hs : s.Sound) : t.Sound := by
  cases h with
  | skip h => exact hs
  | answer hk hhead hread => exact hs.setExchanging hk (by exact trivial) _ _
  | guess hk hhead hguess => exact hs.setExchanging hk (by exact trivial) s.writeBuffer s.tick
  | finish hk hguess hhead hchecks => exact hs.setExchanging hk (by exact trivial) _ _
  | first henc hk hhead =>
    refine ⟨?_, ?_, fun _ => rfl⟩
    · intro k hk
      cases hk
    · intro enc henc' hrekey
      cases henc'
      cases hrekey
  | install henc hrekey hhead =>
    refine ⟨?_, ?_, fun _ => hs.first (by rw [henc]; rfl)⟩
    · intro k hk
      cases hk
    · intro enc henc' hrekey
      cases henc'
      cases hrekey
  | drop henc hrekey hphase hhead =>
    refine ⟨?_, ?_, fun _ => hs.first (by rw [henc]; rfl)⟩
    · intro k hk
      cases hk
    · intro enc henc' hrekey
      cases henc'
      cases hrekey

end Client

end Thrussh
