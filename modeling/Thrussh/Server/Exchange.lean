import Thrussh.Directions
import Thrussh.Phase
import Thrussh.Server.Moves

/-!
# The server's steps of a key exchange

What `KexInit::server_parse` and `KexDh::parse` return, and what `reply`
makes of a session with a packet of a key exchange: every way in which it is
served, and what it leaves when it fails.
-/

namespace Thrussh

open Deps Lib

variable [Deps]

/-- A record with the peer's KEXINIT. -/
def Exchange.withClient (ex : Exchange) (buf : Bytes) : Exchange :=
  { ex with clientKexInit := ex.clientKexInit ++ buf }

/-- `server_parse` of a KEXINIT, when the own KEXINIT has been sent. -/
theorem serverParse_sent {k : KexInit} (hsent : k.sent = true) (config : Server.Config)
    (cipher : CipherPair) {buf : Bytes} (hhead : buf.head? = some msg.KEXINIT)
    (cookie : Vector UInt8 16) (b : SSHBuffer) :
    k.serverParse config cipher buf cookie b =
      match readKex .server buf config.preferred with
      | .error e => .error e b
      | .ok names =>
        match findKey config.keys names.key with
        | some key => .ok (.kexDh ⟨k.exchange.withClient buf, names, key, k.sessionId⟩) b
        | none => .error (.error .unknownKey) b := by
  simp only [KexInit.serverParse, if_pos hhead, run_bind]
  cases readKex .server buf config.preferred with
  | error e => rfl
  | ok names =>
    simp only [run_lift_ok, hsent, if_true]
    cases findKey config.keys names.key with
    | none => rfl
    | some key => rfl

/-- `server_parse` of a KEXINIT, when the own KEXINIT is still to be sent. -/
theorem serverParse_unsent {k : KexInit} (hsent : k.sent = false) (config : Server.Config)
    (cipher : CipherPair) {buf : Bytes} (hhead : buf.head? = some msg.KEXINIT)
    (cookie : Vector UInt8 16) (b : SSHBuffer) :
    k.serverParse config cipher buf cookie b =
      match readKex .server buf config.preferred with
      | .error e => .error e b
      | .ok names =>
        let payload := writeKex config.preferred cookie
        match findKey config.keys names.key with
        | some key =>
          .ok (.kexDh ⟨{ k.exchange.withClient buf with serverKexInit := payload }, names, key,
            k.sessionId⟩) (b.sealed cipher .kexinit payload)
        | none => .error (.error .unknownKey) (b.sealed cipher .kexinit payload) := by
  simp only [KexInit.serverParse, if_pos hhead, run_bind]
  cases readKex .server buf config.preferred with
  | error e => rfl
  | ok names =>
    simp only [run_lift_ok, hsent, Bool.false_eq_true, if_false, run_bind, ownWrite_ok]
    cases findKey config.keys names.key with
    | none => rfl
    | some key => rfl

/-- The answer of `KexDh::parse` to an ECDH_INIT: the reply and the keys. -/
inductive KexDh.Replies (k : KexDh) (config : Server.Config) (buf : Bytes) (secret : Bytes32) :
    Bytes → NewKeys → Prop where
  | mk {ephemeral reply : Bytes} {r : Position} {kex : Algorithm} {exchange : Exchange}
    {key : KeyPair} {newkeys : NewKeys} (hguess : k.names.ignoreGuessed = false)
    (hhead : buf.head? = some msg.KEX_ECDH_INIT)
    (hephemeral : (reader buf 1).readString = .ok (ephemeral, r))
    (hdh : Algorithm.serverDh { k.exchange with
      clientEphemeral := k.exchange.clientEphemeral ++ ephemeral } buf secret =
        .ok (kex, exchange))
    (hkey : config.keys[k.key]? = some key)
    (hreply : ecdhReply key exchange (kex.computeExchangeHash key.pushTo exchange) = .ok reply)
    (hkeys : KexDhDone.computeKeys ⟨exchange, kex, k.key, k.sessionId, k.names⟩
      (kex.computeExchangeHash key.pushTo exchange) true = .ok newkeys) :
    Replies k config buf secret reply newkeys

/-- Every outcome of `KexDh::parse`. -/
theorem kexDhParse_cases (k : KexDh) (config : Server.Config) (cipher : CipherPair) (buf : Bytes)
    (secret : Bytes32) (b : SSHBuffer) :
    (k.names.ignoreGuessed = true ∧ k.parse config cipher buf secret b =
      .ok (.kexDh { k with names := { k.names with ignoreGuessed := false } }) b) ∨
    (∃ reply newkeys, k.Replies config buf secret reply newkeys ∧
      k.parse config cipher buf secret b = .ok (.newKeys newkeys)
        (b.sealEach cipher [(.ecdhReply, reply), (.newkeys, [msg.NEWKEYS])])) ∨
    ∃ e packets, k.parse config cipher buf secret b = .error e (b.sealEach cipher packets) ∧
      (∀ p ∈ packets, p.1.isKex = true) ∧ packets.length ≤ 2 := by
  have hnothing : ∀ e, k.parse config cipher buf secret b = .error e b →
      ∃ e packets, k.parse config cipher buf secret b = .error e (b.sealEach cipher packets) ∧
        (∀ p ∈ packets, p.1.isKex = true) ∧ packets.length ≤ 2 :=
    fun e h => ⟨e, [], h, by simp, by simp⟩
  by_cases hguess : k.names.ignoreGuessed = true
  · refine .inl ⟨hguess, ?_⟩
    simp only [KexDh.parse, if_pos hguess]
    rfl
  refine .inr ?_
  by_cases hhead : buf.head? = some msg.KEX_ECDH_INIT
  · cases hephemeral : (reader buf 1).readString with
    | error e =>
      refine .inr (hnothing e ?_)
      simp only [KexDh.parse, if_neg hguess, if_pos hhead, run_bind, hephemeral]
      rfl
    | ok res =>
      obtain ⟨ephemeral, r⟩ := res
      cases hdh : Algorithm.serverDh { k.exchange with
          clientEphemeral := k.exchange.clientEphemeral ++ ephemeral } buf secret with
      | error e =>
        refine .inr (hnothing e ?_)
        simp only [KexDh.parse, if_neg hguess, if_pos hhead, run_bind, hephemeral, run_lift_ok, hdh]
        rfl
      | ok res =>
        obtain ⟨kex, exchange⟩ := res
        cases hkey : config.keys[k.key]? with
        | none =>
          refine .inr (hnothing .panic ?_)
          simp only [KexDh.parse, if_neg hguess, if_pos hhead, run_bind, hephemeral, run_lift_ok,
            hdh, hkey]
          rfl
        | some key =>
          cases hreply : ecdhReply key exchange (kex.computeExchangeHash key.pushTo exchange) with
          | error e =>
            refine .inr (hnothing e ?_)
            simp only [KexDh.parse, if_neg hguess, if_pos hhead, run_bind, hephemeral, run_lift_ok,
              hdh, hkey, hreply]
            rfl
          | ok reply =>
            have hparse : k.parse config cipher buf secret b = (do
                cipher.write .ecdhReply reply
                cipher.write .newkeys [msg.NEWKEYS]
                let newkeys ← lift (KexDhDone.computeKeys
                  ⟨exchange, kex, k.key, k.sessionId, k.names⟩
                  (kex.computeExchangeHash key.pushTo exchange) true)
                pure (.newKeys newkeys) : EStateM Fault SSHBuffer Kex) b := by
              simp only [KexDh.parse, if_neg hguess, if_pos hhead, run_bind, hephemeral,
                run_lift_ok, hdh, hkey, hreply]
            rcases write_cases cipher .ecdhReply reply b with hwrite | hwrite
            · have hnewkeys := write_ok cipher .newkeys (p := [msg.NEWKEYS])
                (b.sealed cipher .ecdhReply reply) (by decide)
              cases hkeys : KexDhDone.computeKeys ⟨exchange, kex, k.key, k.sessionId, k.names⟩
                  (kex.computeExchangeHash key.pushTo exchange) true with
              | error e =>
                refine .inr ⟨e, [(.ecdhReply, reply), (.newkeys, [msg.NEWKEYS])], ?_,
                  by simp [Origin.isKex], by simp⟩
                simp only [hparse, run_bind, hwrite, hnewkeys, hkeys]
                rfl
              | ok newkeys =>
                refine .inl ⟨reply, newkeys, .mk (by simpa using hguess) hhead hephemeral hdh hkey
                  hreply hkeys, ?_⟩
                simp only [hparse, run_bind, hwrite, hnewkeys, hkeys]
                rfl
            · refine .inr (hnothing .panic ?_)
              simp only [hparse, run_bind, hwrite]
  · refine .inr (hnothing .panic ?_)
    simp only [KexDh.parse, if_neg hguess, if_neg hhead]
    rfl

namespace Server

/-- What `reply` makes of a session with a packet of a key exchange that it serves. -/
inductive Exchanged (s : CommonSession Config) (buf : Bytes) : CommonSession Config → Prop where
  /-- Nothing waits for the packet. -/
  | skip (h : s.phase = .lost ∨
      s.encrypted = none ∧ s.phase = .waiting ∧ buf.head? ≠ some msg.KEXINIT) :
    Exchanged s buf s
  /-- The client's KEXINIT, after the own one. -/
  | answer {k : KexInit} {names : Names} {key : Nat} (hk : s.exchanging = some (.kexInit k))
    (hhead : buf.head? = some msg.KEXINIT)
    (hread : readKex .server buf s.config.preferred = .ok names)
    (hkey : findKey s.config.keys names.key = some key) :
    Exchanged s buf ({ s with tick := s.tick + 1 }.setExchanging
      (.kexDh ⟨k.exchange.withClient buf, names, key, k.sessionId⟩))
  /-- A KEXINIT of the client that starts a re-exchange. -/
  | serve {enc : Encrypted} {ex : Exchange} {names : Names} {key : Nat}
    (henc : s.encrypted = some enc) (hrekey : enc.rekey = none) (hex : enc.exchange = some ex)
    (hhead : buf.head? = some msg.KEXINIT)
    (hread : readKex .server buf s.config.preferred = .ok names)
    (hkey : findKey s.config.keys names.key = some key) :
    Exchanged s buf { s with
      encrypted := some { enc with
        exchange := none
        rekey := some (.kexDh ⟨{ ex.cleared.withClient buf with
          serverKexInit := writeKex s.config.preferred (s.world.rand s.tick).cookie },
          names, key, some enc.sessionId⟩) }
      writeBuffer := s.writeBuffer.sealEach s.cipher
        [(.kexinit, writeKex s.config.preferred (s.world.rand s.tick).cookie)]
      tick := s.tick + 1 }
  /-- The client's wrong guess. -/
  | guess {k : KexDh} (hk : s.exchanging = some (.kexDh k))
    (hhead : s.encrypted.isSome → buf.head? ≠ some msg.KEXINIT)
    (hguess : k.names.ignoreGuessed = true) :
    Exchanged s buf ({ s with tick := s.tick + 1 }.setExchanging
      (.kexDh { k with names := { k.names with ignoreGuessed := false } }))
  /-- The client's ECDH_INIT. -/
  | finish {k : KexDh} {reply : Bytes} {newkeys : NewKeys} (hk : s.exchanging = some (.kexDh k))
    (hreplies : k.Replies s.config buf (s.world.rand s.tick).secret reply newkeys) :
    Exchanged s buf ({ s with
      writeBuffer := s.writeBuffer.sealEach s.cipher
        [(.ecdhReply, reply), (.newkeys, [msg.NEWKEYS])]
      tick := s.tick + 1 }.setExchanging (.newKeys newkeys))
  /-- The client's NEWKEYS in the first exchange. -/
  | first {newkeys : NewKeys} (henc : s.encrypted = none) (hk : s.kex = some (.newKeys newkeys))
    (hhead : buf.head? = some msg.NEWKEYS) :
    Exchanged s buf ({ s with kex := none, tick := s.tick + 1 }.toEncrypted
      (.waitingServiceRequest false false) newkeys (s.world.clock s.tick))
  /-- The client's NEWKEYS in a re-exchange. -/
  | install {enc : Encrypted} {newkeys : NewKeys} (henc : s.encrypted = some enc)
    (hrekey : enc.rekey = some (.newKeys newkeys)) (hhead : buf.head? = some msg.NEWKEYS) :
    Exchanged s buf ({ s with encrypted := some { enc with rekey := none } }.newkeys newkeys)
  /-- A KEXINIT that comes too late. -/
  | drop {enc : Encrypted} {k : Kex} (henc : s.encrypted = some enc) (hrekey : enc.rekey = some k)
    (hphase : k.phase ≠ .waiting) (hhead : buf.head? = some msg.KEXINIT) :
    Exchanged s buf { s with encrypted := some { enc with rekey := none } }

/-- The possible results of `reply` with a packet of a key exchange: the
packet is served, perhaps with a flush after it, or it fails. -/
def Replied (s : Session) (buf : Bytes) (r : EStateM.Result Fault Session Unit) : Prop :=
  (∃ t, Exchanged s.common buf t ∧
    (r = .ok () { s with common := t } ∨ r = onCommon flush { s with common := t })) ∨
  ∃ e t packets, r = .error e { s with common := t } ∧ Seals s.common t packets

/-- Taking the first exchange out and failing leaves a session that seals nothing. -/
theorem seals_kex (s : CommonSession Config) (k : Option Kex) (tick : Nat) :
    Seals s { s with kex := k, tick := tick } [] :=
  ⟨rfl, by
    cases s.encrypted with
    | none => exact .none
    | some enc => exact .some rfl, by simp, by simp⟩

theorem runServerParse_run (k : KexInit) (buf : Bytes) (s : Session) :
    runServerParse k buf s =
      match k.serverParse s.common.config s.common.cipher buf
        (s.common.world.rand s.common.tick).cookie s.common.writeBuffer with
      | .ok kex b => .ok kex
        { s with common := { s.common with tick := s.common.tick + 1, writeBuffer := b } }
      | .error e b => .error e
        { s with common := { s.common with tick := s.common.tick + 1, writeBuffer := b } } := by
  simp only [runServerParse, run_bind, run_get, onCommon, rand, withWriteBuffer, zoom]
  cases k.serverParse s.common.config s.common.cipher buf
    (s.common.world.rand s.common.tick).cookie s.common.writeBuffer <;> rfl

theorem runKexDhParse_run (k : KexDh) (buf : Bytes) (s : Session) :
    runKexDhParse k buf s =
      match k.parse s.common.config s.common.cipher buf
        (s.common.world.rand s.common.tick).secret s.common.writeBuffer with
      | .ok kex b => .ok kex
        { s with common := { s.common with tick := s.common.tick + 1, writeBuffer := b } }
      | .error e b => .error e
        { s with common := { s.common with tick := s.common.tick + 1, writeBuffer := b } } := by
  simp only [runKexDhParse, run_bind, run_get, onCommon, rand, withWriteBuffer, zoom]
  cases k.parse s.common.config s.common.cipher buf
    (s.common.world.rand s.common.tick).secret s.common.writeBuffer <;> rfl

theorem replyKex_replied {s : Session} (hs : s.common.Sound) (hnone : s.common.encrypted = none)
    (buf : Bytes) : Replied s buf (replyKex buf s) := by
  have hexchanging := exchanging_none hnone
  have hset := setExchanging_none (s := s.common) hnone
  simp only [replyKex, run_bind, run_get]
  cases hkex : s.common.kex with
  | none =>
    refine .inl ⟨s.common, .skip (.inl ?_), .inl rfl⟩
    simp only [CommonSession.phase, hnone, hkex]
  | some kex =>
    rw [hkex] at hexchanging
    have hfits := hs.fits kex hexchanging
    cases kex with
    | kexInit k =>
      obtain ⟨hsent, halgo⟩ := hfits
      by_cases hhead : buf.head? = some msg.KEXINIT
      · have hcond : k.algo.isSome = true ∨ buf.head? = some msg.KEXINIT := .inr hhead
        simp only [if_pos hcond, run_bind, takeKex, run_modify, runServerParse_run,
          serverParse_sent hsent _ _ hhead]
        cases hread : readKex .server buf s.common.config.preferred with
        | error e => exact .inr ⟨e, _, [], rfl, seals_kex s.common _ _⟩
        | ok names =>
          dsimp only
          cases hkey : findKey s.common.config.keys names.key with
          | none => exact .inr ⟨_, _, [], rfl, seals_kex s.common _ _⟩
          | some key =>
            refine .inl ⟨_, .answer hexchanging hhead hread hkey, .inl ?_⟩
            rw [setExchanging_none (by exact hnone)]
            rfl
      · have hcond : ¬ (k.algo.isSome = true ∨ buf.head? = some msg.KEXINIT) := by
          simp [halgo, hhead]
        simp only [if_neg hcond]
        exact .inl ⟨s.common, .skip (.inr ⟨hnone, phase_of_exchanging hexchanging, hhead⟩), .inl rfl⟩
    | kexDh k =>
      simp only [run_bind, takeKex, run_modify, runKexDhParse_run]
      rcases kexDhParse_cases k s.common.config s.common.cipher buf
        (s.common.world.rand s.common.tick).secret s.common.writeBuffer with
        ⟨hguess, hparse⟩ | ⟨reply, newkeys, hreplies, hparse⟩ | ⟨e, packets, hparse, hkex, hshort⟩
      · rw [hparse]
        refine .inl ⟨_, .guess hexchanging (by simp [hnone]) hguess, .inl ?_⟩
        rw [setExchanging_none (by exact hnone)]
        rfl
      · rw [hparse]
        refine .inl ⟨_, .finish hexchanging hreplies, .inl ?_⟩
        rw [setExchanging_none (by exact hnone)]
        rfl
      · rw [hparse]
        refine .inr ⟨e, _, packets, rfl, rfl, ?_, hkex, hshort⟩
        rw [hnone]
        exact .none
    | kexDhDone k => exact hfits.elim
    | newKeys k =>
      simp only [run_bind, takeKex, run_modify]
      by_cases hhead : buf.head? = some msg.NEWKEYS
      · simp only [if_pos hhead, run_bind, onCommon, now, zoom, run_modify]
        exact .inl ⟨_, .first hnone hkex hhead, .inl rfl⟩
      · simp only [if_neg hhead]
        exact .inr ⟨_, _, [], rfl, seals_kex s.common _ _⟩

/-- Taking the re-exchange out and failing leaves a session that seals nothing. -/
theorem seals_rekey {s : CommonSession Config} {enc : Encrypted} (h : s.encrypted = some enc)
    (rekey : Option Kex) (exchange : Option Exchange) (tick : Nat) :
    Seals s { s with
      encrypted := some { enc with rekey := rekey, exchange := exchange }, tick := tick } [] :=
  ⟨rfl, by
    rw [h]
    exact .some rfl, by simp, by simp⟩

theorem serverReadKexInit_replied {s : Session} (hs : s.common.Sound) {enc : Encrypted}
    (henc : s.common.encrypted = some enc) {buf : Bytes} (hhead : buf.head? = some msg.KEXINIT) :
    Replied s buf (serverReadKexInit buf s) := by
  have hexchanging := exchanging_some henc
  simp only [serverReadKexInit, run_bind, getEnc, run_get, henc, run_pure, takeRekey, setRekey,
    modifyEnc, run_modify, CommonSession.modifyEnc, Option.map_some]
  cases hrekey : enc.rekey with
  | none =>
    cases hex : enc.exchange with
    | none =>
      refine .inl ⟨s.common, .skip (.inl ?_), .inl ?_⟩
      · simp only [CommonSession.phase, henc, Encrypted.phase, hrekey, hex]
        rfl
      · have hsame : { enc with rekey := none, exchange := none } = enc := by
          cases enc
          dsimp only at hrekey hex
          subst hrekey hex
          rfl
        simp only [run_pure, hsame, ← henc]
    | some ex =>
      simp only [run_bind, run_modify, run_get, runServerParse_run]
      cases hread : readKex .server buf s.common.config.preferred with
      | error e => exact .inr ⟨e, _, [], rfl, seals_rekey henc none none s.common.tick⟩
      | ok names =>
        simp only [run_lift_ok, serverParse_unsent (k := KexInit.receivedRekey ex names
          enc.sessionId) rfl _ _ hhead, hread]
        cases hkey : findKey s.common.config.keys names.key with
        | none =>
          refine .inr ⟨_, _, [(.kexinit, _)], rfl, rfl, ?_, by simp [Origin.isKex], by simp⟩
          rw [henc]
          exact .some rfl
        | some key => exact .inl ⟨_, .serve henc hrekey hex hhead hread hkey, .inl rfl⟩
  | some kex =>
    have hex := hs.exclusive enc henc (by rw [hrekey]; rfl)
    rw [hrekey] at hexchanging
    have hfits := hs.fits kex hexchanging
    have hdrop : kex.phase ≠ .waiting → Replied s buf (.ok ()
        { s with common := { s.common with encrypted := some { enc with rekey := none } } }) :=
      fun hphase => .inl ⟨_, .drop henc hrekey hphase hhead, .inl rfl⟩
    cases kex with
    | kexInit k =>
      simp only [run_bind, run_modify, runServerParse_run, serverParse_sent hfits.1 _ _ hhead]
      cases hread : readKex .server buf s.common.config.preferred with
      | error e => exact .inr ⟨e, _, [], rfl, seals_rekey henc none enc.exchange _⟩
      | ok names =>
        dsimp only
        cases hkey : findKey s.common.config.keys names.key with
        | none => exact .inr ⟨_, _, [], rfl, seals_rekey henc none enc.exchange _⟩
        | some key =>
          refine .inl ⟨_, .answer hexchanging hhead hread hkey, .inr ?_⟩
          rw [setExchanging_some (by exact henc)]
          rfl
    | kexDh k => simpa only [hex, run_pure] using hdrop (by simp [Kex.phase])
    | kexDhDone k => simpa only [hex, run_pure] using hdrop (by simp [Kex.phase])
    | newKeys k => simpa only [hex, run_pure] using hdrop (by simp [Kex.phase])

/-- A packet of a key exchange is served in one of the ways of `Exchanged`, or fails. -/
theorem reply_replied (handler : Handler) {s : Session} (hs : s.common.Sound) {buf : Bytes}
    (hin : s.common.InExchange buf) : Replied s buf (reply handler buf s) := by
  cases henc : s.common.encrypted with
  | none =>
    simp only [reply, run_bind, run_get, henc, Option.isNone_none, if_true]
    exact replyKex_replied hs henc buf
  | some enc =>
    have hexchanging := exchanging_some henc
    simp only [reply, run_bind, run_get, henc, Option.isNone_some, Bool.false_eq_true, if_false,
      serverReadEncrypted, getEnc, run_pure]
    by_cases hhead : buf.head? = some msg.KEXINIT
    · simp only [if_pos hhead]
      exact serverReadKexInit_replied hs henc hhead
    · simp only [if_neg hhead]
      have hlate : s.common.phase = .dh ∨ s.common.phase = .newKeys := by
        simpa only [CommonSession.InExchange, henc, reduceCtorEq, hhead, false_or] using hin
      cases hrekey : enc.rekey with
      | none =>
        simp only [CommonSession.phase, henc, Encrypted.phase, hrekey] at hlate
        split at hlate <;> simp at hlate
      | some kex =>
        rw [hrekey] at hexchanging
        have hfits := hs.fits kex hexchanging
        rw [phase_of_exchanging hexchanging] at hlate
        cases kex with
        | kexInit k => simp [Kex.phase] at hlate
        | kexDh k =>
          simp only [run_bind, takeRekey, setRekey, modifyEnc, run_modify, runKexDhParse_run,
            CommonSession.modifyEnc, henc, Option.map_some]
          rcases kexDhParse_cases k s.common.config s.common.cipher buf
            (s.common.world.rand s.common.tick).secret s.common.writeBuffer with
            ⟨hguess, hparse⟩ | ⟨reply, newkeys, hreplies, hparse⟩ |
            ⟨e, packets, hparse, hkex, hshort⟩
          · rw [hparse]
            refine .inl ⟨_, .guess hexchanging (fun _ => hhead) hguess, .inl ?_⟩
            rw [setExchanging_some (by exact henc)]
            rfl
          · rw [hparse]
            refine .inl ⟨_, .finish hexchanging hreplies, .inl ?_⟩
            rw [setExchanging_some (by exact henc)]
            rfl
          · rw [hparse]
            refine .inr ⟨e, _, packets, rfl, rfl, ?_, hkex, hshort⟩
            rw [henc]
            exact .some rfl
        | kexDhDone k => exact hfits.elim
        | newKeys k =>
          simp only [run_bind, takeRekey, modifyEnc, run_modify, CommonSession.modifyEnc, henc,
            Option.map_some]
          by_cases hnewkeys : buf.head? = some msg.NEWKEYS
          · simp only [if_pos hnewkeys]
            exact .inl ⟨_, .install henc hrekey hnewkeys, .inl rfl⟩
          · simp only [if_neg hnewkeys]
            exact .inr ⟨_, _, [], rfl, seals_rekey henc none enc.exchange s.common.tick⟩

/-- A step of the server's exchange, seen from its phase. -/
theorem Exchanged.advance {s t : CommonSession Config} {buf : Bytes} (h : Exchanged s buf t)
    (hs : s.Sound) : Advance buf s t := by
  cases h with
  | skip h => exact .skip rfl
  | answer hk hhead hread hkey =>
    refine .answer (phase_of_exchanging hk) (phase_of_exchanging (exchanging_setExchanging _ _))
      (seals_setExchanging s _ _ [] (by simp) (by simp)) (by simp)
  | serve henc hrekey hex hhead hread hkey =>
    refine .serve ?_ rfl ⟨rfl, ?_, by simp [Origin.isKex], by simp⟩
    · simp only [CommonSession.phase, henc, Encrypted.phase, hrekey, hex]
      rfl
    · rw [henc]
      exact .some rfl
  | guess hk hhead hguess =>
    exact .guess (phase_of_exchanging hk) (phase_of_exchanging (exchanging_setExchanging _ _))
      (seals_setExchanging s _ _ [] (by simp) (by simp))
  | finish hk hreplies =>
    obtain ⟨-, -, -, -, -, -, hkeys⟩ := hreplies
    exact .finish (phase_of_exchanging hk) (phase_of_exchanging (exchanging_setExchanging _ _))
      (seals_setExchanging s _ _ _ (by simp [Origin.isKex]) (by simp)) rfl
      ⟨_, exchanging_setExchanging _ _, KexDhDone.computeKeys_keyed hkeys⟩
  | first henc hk hhead =>
    have hexchanging := (exchanging_none henc).trans hk
    refine .installs s.writeBuffer.bytes [] (phase_of_exchanging hexchanging) rfl
      ⟨rfl, rfl, ⟨_, hexchanging, rfl⟩, ?_, by simp, by simp⟩
    · rw [henc]
      exact ⟨_, rfl, rfl, rfl, rfl, fun _ => rfl, rfl⟩
  | install henc hrekey hhead =>
    have hexchanging := (exchanging_some henc).trans hrekey
    refine .installs s.writeBuffer.bytes [] (phase_of_exchanging hexchanging) rfl
      ⟨?_, rfl, ⟨_, hexchanging, rfl⟩, ?_, by simp, by simp⟩
    · rw [← hs.first (by rw [henc]; rfl)]
      rfl
    · rw [henc]
      exact ⟨_, rfl, rfl⟩
  | drop henc hrekey hphase hhead =>
    rename_i enc k
    refine .drop (by rw [henc]; rfl) hhead ?_ ?_ (seals_rekey henc none enc.exchange s.tick)
    · rw [phase_of_exchanging ((exchanging_some henc).trans hrekey)]
      exact k.phase_cases.resolve_left hphase
    · have hex := hs.exclusive enc henc (by rw [hrekey]; rfl)
      simp only [CommonSession.phase, Encrypted.phase, hex]
      rfl

/-- A step of the server's exchange leaves a sound session. -/
theorem Exchanged.sound {s t : CommonSession Config} {buf : Bytes} (h : Exchanged s buf t)
    (hs : s.Sound) : t.Sound := by
  cases h with
  | skip h => exact hs
  | answer hk hhead hread hkey => exact hs.setExchanging hk (by exact trivial) _ _
  | serve henc hrekey hex hhead hread hkey =>
    refine ⟨?_, ?_, fun _ => hs.first (by rw [henc]; rfl)⟩
    · intro k hk
      cases hk
      trivial
    · intro enc henc' _
      cases henc'
      rfl
  | guess hk hhead hguess => exact hs.setExchanging hk (by exact trivial) _ _
  | finish hk hreplies => exact hs.setExchanging hk (by exact trivial) _ _
  | first henc hk hhead =>
    refine ⟨?_, ?_, fun _ => rfl⟩
    · intro k hk
      cases hk
    · intro enc henc' hrekey
      cases henc'
      cases hrekey
  | install henc hrekey hhead =>
    refine ⟨?_, ?_, fun _ => hs.first (by rw [henc]; rfl)⟩
    · intro k hk
      cases hk
    · intro enc henc' hrekey
      cases henc'
      cases hrekey
  | drop henc hrekey hphase hhead =>
    refine ⟨?_, ?_, fun _ => hs.first (by rw [henc]; rfl)⟩
    · intro k hk
      cases hk
    · intro enc henc' hrekey
      cases henc'
      cases hrekey

end Server

end Thrussh
