import Thrussh.Concrete
import Thrussh.Keeps
import Thrussh.Roles

/-!
# The server's proof of identity

A client's session becomes encrypted in one way only: its handler has
accepted a host key, that key has verified a signature of the hash of the
client's own record, and the pair it installs is derived from the same hash.
What the record of the first exchange holds in each phase is traced back to
what has been sealed, given to `reply` and asked of the handler.
-/

namespace Thrussh

open Deps Lib

section
variable [Deps]

/-- What has been sealed stays noted, with the epoch of the pair in use. -/
theorem sealAll_history (b : SSHBuffer) (pair : CipherPair) (origin : Origin)
    (payloads : List Bytes) :
    ∃ new, (b.sealAll pair origin payloads).history = b.history ++ new ∧
      ∀ r ∈ new, r.epoch = pair.epoch := by
  induction payloads generalizing b with
  | nil => exact ⟨[], by simp [SSHBuffer.sealAll], by simp⟩
  | cons payload payloads ih =>
    obtain ⟨new, hnew, hepoch⟩ := ih (b.sealed pair origin payload)
    refine ⟨⟨pair.epoch, b.seqn, payload, origin⟩ :: new, ?_, ?_⟩
    · rw [SSHBuffer.sealAll, List.foldl_cons]
      exact hnew.trans (by simp [SSHBuffer.sealed])
    · intro r hr
      rcases List.mem_cons.mp hr with rfl | hr
      · rfl
      · exact hepoch r hr

/-- A flush leaves the pair in use, and seals under it. -/
theorem FlushStep.history {C : Type} [SessionConfig C] {s t : CommonSession C}
    (h : FlushStep s t) : t.cipher = s.cipher ∧ t.encrypted.isSome = s.encrypted.isSome ∧
      ∃ new, t.writeBuffer.history = s.writeBuffer.history ++ new ∧
        ∀ r ∈ new, r.epoch = s.cipher.epoch := by
  cases h with
  | none h => exact ⟨rfl, rfl, [], by simp, by simp⟩
  | packets h =>
    obtain ⟨packets, outs, c, -, -, hsealed⟩ := h.packets
    refine ⟨by rw [h.session], by rw [h.session, h.encrypted]; rfl, ?_⟩
    rw [hsealed]
    exact sealAll_history _ _ _ _
  | rekey h =>
    rename_i u enc enc' ex hwrite hcursor hrekey hex
    obtain ⟨packets, outs, c, -, -, hsealed⟩ := h.packets
    obtain ⟨new, hnew, hepoch⟩ := sealAll_history s.writeBuffer s.cipher .queued outs
    have hcipher : u.cipher = s.cipher := by rw [h.session]
    refine ⟨hcipher, by rw [h.encrypted]; rfl, new ++ [⟨u.cipher.epoch, u.writeBuffer.seqn,
      writeKex (SessionConfig.preferred u.config) (u.world.rand u.tick).cookie, .kexinit⟩], ?_, ?_⟩
    · rw [← List.append_assoc, ← hnew, ← hsealed]
      rfl
    · intro r hr
      rcases List.mem_append.mp hr with hr | hr
      · exact hepoch r hr
      · rw [List.mem_singleton.mp hr]
        exact congrArg CipherPair.epoch hcipher

omit [Deps] in
/-- Only an array's own bytes can be copied into it. -/
theorem toList_of_toBytes32 {bytes : Bytes} {v : Bytes32} (h : toBytes32 bytes = .ok v) :
    v.toList = bytes := by
  unfold toBytes32 at h
  split at h
  · cases h
    rfl
  · cases h

/-- The acts of a run. -/
def Loop.acts {C S M : Type} [SessionConfig C] (d : Driver C S M) (l : Loop S)
    (events : List (Event M)) : List (Act S M) :=
  history d (fun acts act => acts ++ [act]) [] l events

omit [Deps] in
/-- The packets given to `reply` in the course of some acts. -/
def heard {S M : Type} (acts : List (Act S M)) : List Bytes :=
  acts.filterMap fun
    | .reply _ buf => some buf
    | .message _ _ => none

namespace Client

/-- What the first exchange of a client is made of. -/
structure Handshake where
  /-- The payload of its KEXINIT. -/
  clientKexInit : Bytes
  /-- Its secret scalar. -/
  secret : Bytes32
  /-- The payload taken for the server's KEXINIT. -/
  serverKexInit : Bytes
  /-- The server's host key. -/
  pubkey : PublicKey
  /-- The server's ephemeral key. -/
  serverEphemeral : Bytes32

namespace Handshake

variable (h : Handshake) (config : Config) (sshid : Bytes)

/-- The client's record. -/
def record : Exchange :=
  ⟨config.clientId, sshid, h.clientKexInit, h.serverKexInit, (scalarmultBase h.secret).toList,
    h.serverEphemeral.toList⟩

/-- The secrets. -/
def kex : Algorithm := ⟨none, some (scalarmult h.secret h.serverEphemeral)⟩

/-- The exchange hash. -/
def hash : Bytes32 := h.kex.computeExchangeHash h.pubkey.pushTo (h.record config sshid)

/-- A packet with the host key, the ephemeral key and a signature of the hash. -/
def Answered (buf : Bytes) : Prop :=
  buf.head? = some msg.KEX_ECDH_REPLY ∧ ∃ blob r₁ r₂ signature r₃ algorithm r₄ sig r₅,
    (reader buf 1).readString = .ok (blob, r₁) ∧ readPublicKey blob = .ok h.pubkey ∧
    r₁.readString = .ok (h.serverEphemeral.toList, r₂) ∧ r₂.readString = .ok (signature, r₃) ∧
    (reader signature 0).readString = .ok (algorithm, r₄) ∧ r₄.readString = .ok (sig, r₅) ∧
    verifyServerAuth h.pubkey (h.hash config sshid).toList sig = true

/-- The client has sent its part, and been given the server's. -/
structure Proves (heard : List Bytes) (s : Session) : Prop where
  /-- The KEXINIT is sent as it is recorded. -/
  kexInit : ∃ r ∈ s.common.writeBuffer.history, r.payload = h.clientKexInit
  /-- The ephemeral key is sent. -/
  ephemeral : ∃ r ∈ s.common.writeBuffer.history, r.payload = ecdhInit h.secret
  /-- The server's KEXINIT is recorded as it is received, and a signature behind it. -/
  answered : ∃ reply, [h.serverKexInit, reply].Sublist heard ∧ h.Answered config sshid reply
  /-- The handler has accepted the host key. -/
  accepted : ∃ answer, (.checkServerKey h.pubkey, answer) ∈ s.callbacks ∧ answer.check = true ∧
    answer.fail = false

/-- A pair derived from the hash and the secret. -/
def Derives (pair : CipherPair) : Prop :=
  ∃ names, readKex .client h.serverKexInit config.preferred = .ok names ∧
    h.kex.computeKeys (h.hash config sshid) (h.hash config sshid) names.cipher false = .ok pair

end Handshake

/-- Whether a packet is one of a client's key exchange. -/
def KexPacket (payload : Bytes) : Prop :=
  payload.head? = some msg.KEXINIT ∨ payload.head? = some msg.KEX_ECDH_INIT ∨
    payload.head? = some msg.NEWKEYS

/-- What the record of the first exchange holds. -/
def Records (config : Config) (sshid : Bytes) (heard : List Bytes) (s : Session) : Kex → Prop
  | .kexInit k => k.sessionId = none ∧
      ∃ r ∈ s.common.writeBuffer.history, k.exchange =
        ⟨config.clientId, sshid, r.payload, [], [], []⟩
  | .kexDh _ => True
  | .kexDhDone k => k.sessionId = none ∧ ∃ secret serverKexInit names,
      (∃ r ∈ s.common.writeBuffer.history, k.exchange =
        ⟨config.clientId, sshid, r.payload, serverKexInit, (scalarmultBase secret).toList, []⟩) ∧
      (∃ r ∈ s.common.writeBuffer.history, r.payload = ecdhInit secret) ∧
      k.kex = ⟨some secret, none⟩ ∧ serverKexInit ∈ heard ∧
      readKex .client serverKexInit config.preferred = .ok names ∧ k.names.cipher = names.cipher
  | .newKeys k => ∃ h : Handshake, h.Proves config sshid heard s ∧ h.Derives config sshid k.cipher

/-- A session in its first exchange. -/
structure Opening (config : Config) (sshid : Bytes) (heard : List Bytes) (s : Session) :
    Prop where
  /-- The configuration never changes. -/
  config_eq : s.common.config = config
  /-- The pair in use is the clear one. -/
  cipher : s.common.cipher = clearPair
  /-- Nothing is sealed but packets of the exchange. -/
  sealed : ∀ r ∈ s.common.writeBuffer.history, KexPacket r.payload
  /-- The record is the client's own. -/
  records : ∀ k, s.common.kex = some k → Records config sshid heard s k

/-- A session whose first exchange has just ended: the pair it has installed is
derived from a hash that the server has signed. -/
def Established (config : Config) (sshid : Bytes) (heard : List Bytes) (s : Session) : Prop :=
  ∃ (h : Handshake) (pair : CipherPair), h.Proves config sshid heard s ∧
    h.Derives config sshid pair ∧ s.common.cipher = { pair with epoch := 1 } ∧
    ∀ r ∈ s.common.writeBuffer.history, r.epoch = 0 → KexPacket r.payload

/-- What has been sealed and asked stays so. -/
structure Grows (s t : Session) : Prop where
  /-- What has been sealed. -/
  history : ∀ r ∈ s.common.writeBuffer.history, r ∈ t.common.writeBuffer.history
  /-- What has been asked. -/
  callbacks : ∀ c ∈ s.callbacks, c ∈ t.callbacks

section
variable {config : Config} {sshid : Bytes} {acts acts' : List Bytes} {s t : Session}

theorem Handshake.Proves.mono {h : Handshake} (hproves : h.Proves config sshid acts s)
    (hgrows : Grows s t) (hheard : acts.Sublist acts') : h.Proves config sshid acts' t := by
  obtain ⟨⟨r, hr, hkexInit⟩, ⟨r', hr', hephemeral⟩, ⟨reply, hsublist, hanswered⟩, answer, hasked,
    hcheck⟩ := hproves
  exact ⟨⟨r, hgrows.history r hr, hkexInit⟩, ⟨r', hgrows.history r' hr', hephemeral⟩,
    ⟨reply, hsublist.trans hheard, hanswered⟩, answer, hgrows.callbacks _ hasked, hcheck⟩

theorem Records.mono {k : Kex} (hrecords : Records config sshid acts s k) (hgrows : Grows s t)
    (hheard : acts.Sublist acts') : Records config sshid acts' t k := by
  cases k with
  | kexInit k =>
    obtain ⟨hsession, r, hr, hexchange⟩ := hrecords
    exact ⟨hsession, r, hgrows.history r hr, hexchange⟩
  | kexDh k => exact trivial
  | kexDhDone k =>
    obtain ⟨hsession, secret, serverKexInit, names, ⟨r, hr, hexchange⟩, ⟨r', hr', hephemeral⟩, hkex,
      hmem, hread, hcipher⟩ := hrecords
    exact ⟨hsession, secret, serverKexInit, names, ⟨r, hgrows.history r hr, hexchange⟩,
      ⟨r', hgrows.history r' hr', hephemeral⟩, hkex, hheard.subset hmem, hread, hcipher⟩
  | newKeys k =>
    obtain ⟨h, hproves, hderives⟩ := hrecords
    exact ⟨h, hproves.mono hgrows hheard, hderives⟩

/-- A session stays in its first exchange when its record stays. -/
theorem Opening.grow (hopening : Opening config sshid acts s) (hgrows : Grows s t)
    (hheard : acts.Sublist acts') (hconfig : t.common.config = s.common.config)
    (hcipher : t.common.cipher = s.common.cipher) (hkex : t.common.kex = s.common.kex)
    (hsealed : ∀ r ∈ t.common.writeBuffer.history, r ∈ s.common.writeBuffer.history ∨
      KexPacket r.payload) : Opening config sshid acts' t := by
  refine ⟨hconfig.trans hopening.config_eq, hcipher.trans hopening.cipher, fun r hr => ?_,
    fun k hk => ?_⟩
  · exact (hsealed r hr).elim (hopening.sealed r) id
  · rw [hkex] at hk
    exact (hopening.records k hk).mono hgrows hheard

/-- What `server_key_check` finds in a reply that it accepts: the handler has
been asked about the key in it, in the first exchange. -/
theorem serverKeyCheck_accepts {app : Application} {k : Thrussh.KexDhDone} {buf : Bytes} {kex : Kex}
    (h : serverKeyCheck app k false buf s = .ok kex t) :
    ∃ blob r pubkey answer, (reader buf 1).readString = .ok (blob, r) ∧
      readPublicKey blob = .ok pubkey ∧ KexDhDone.verify k pubkey r = .ok kex ∧
      t = { s with
        common := { s.common with tick := s.common.tick + 1 }
        callbacks := s.callbacks ++ [(.checkServerKey pubkey, answer)] } ∧
      answer.check = true ∧ answer.fail = false := by
  simp only [serverKeyCheck, run_bind] at h
  cases hblob : (reader buf 1).readString with
  | error e =>
    rw [hblob] at h
    cases h
  | ok res =>
    obtain ⟨blob, r⟩ := res
    simp only [hblob, run_lift_ok] at h
    cases hkey : readPublicKey blob with
    | error e =>
      rw [hkey] at h
      cases h
    | ok pubkey =>
      simp only [hkey, run_lift_ok, Bool.false_eq_true, if_false, run_bind, checkServerKey, ask] at h
      set answer := app.handler s.common.tick (.checkServerKey pubkey) s
      cases hfail : answer.fail with
      | true =>
        simp only [hfail, if_true] at h
        cases h
      | false =>
        simp only [hfail, Bool.false_eq_true, if_false, run_pure] at h
        cases hcheck : answer.check with
        | false =>
          simp only [hcheck, Bool.false_eq_true, if_false] at h
          cases h
        | true =>
          simp only [hcheck, if_true] at h
          cases hverify : KexDhDone.verify k pubkey r with
          | error e =>
            rw [hverify] at h
            cases h
          | ok kex' =>
            rw [hverify, run_lift_ok] at h
            cases h
            exact ⟨blob, r, pubkey, answer, rfl, hkey, hverify, rfl, hcheck, hfail⟩

/-- A reply whose signature the key verifies completes the client's record. -/
theorem verify_handshake {k : Thrussh.KexDhDone} {clientKexInit serverKexInit buf blob : Bytes}
    {secret : Bytes32} {names : Names} {pubkey : PublicKey} {r : Position} {newkeys : NewKeys}
    (hsession : k.sessionId = none)
    (hexchange : k.exchange = ⟨config.clientId, sshid, clientKexInit, serverKexInit,
      (scalarmultBase secret).toList, []⟩)
    (hkex : k.kex = ⟨some secret, none⟩)
    (hread : readKex .client serverKexInit config.preferred = .ok names)
    (hcipher : k.names.cipher = names.cipher) (hhead : buf.head? = some msg.KEX_ECDH_REPLY)
    (hblob : (reader buf 1).readString = .ok (blob, r)) (hkey : readPublicKey blob = .ok pubkey)
    (hverify : KexDhDone.verify k pubkey r = .ok (.newKeys newkeys)) :
    ∃ serverEphemeral, Handshake.Answered
        ⟨clientKexInit, secret, serverKexInit, pubkey, serverEphemeral⟩ config sshid buf ∧
      Handshake.Derives ⟨clientKexInit, secret, serverKexInit, pubkey, serverEphemeral⟩ config
        sshid newkeys.cipher := by
  unfold KexDhDone.verify at hverify
  obtain ⟨⟨ephemeral, r₂⟩, hephemeral, hverify⟩ := ok_of_bind hverify
  obtain ⟨⟨signature, r₃⟩, hsignature, hverify⟩ := ok_of_bind hverify
  obtain ⟨kex, hshared, hverify⟩ := ok_of_bind hverify
  obtain ⟨⟨algorithm, r₄⟩, halgorithm, hverify⟩ := ok_of_bind hverify
  obtain ⟨⟨sig, r₅⟩, hsig, hverify⟩ := ok_of_bind hverify
  simp only [hkex, hexchange, Algorithm.computeSharedSecret, List.nil_append] at hshared
  obtain ⟨serverEphemeral, hbytes, hsecrets⟩ := ok_of_bind hshared
  obtain rfl := toList_of_toBytes32 hbytes
  obtain rfl := Except.ok.inj hsecrets
  refine ⟨serverEphemeral, ?_⟩
  set h : Handshake := ⟨clientKexInit, secret, serverKexInit, pubkey, serverEphemeral⟩ with hdef
  have hrecord : { k.exchange with serverEphemeral :=
      k.exchange.serverEphemeral ++ serverEphemeral.toList } = h.record config sshid := by
    rw [hexchange]
    rfl
  dsimp only at hverify
  rw [hrecord] at hverify
  split at hverify
  · rename_i hverified
    obtain ⟨newkeys', hnewkeys, hverify⟩ := ok_of_bind hverify
    cases hverify
    refine ⟨⟨hhead, blob, r, r₂, signature, r₃, algorithm, r₄, sig, r₅, hblob, hkey, hephemeral,
      hsignature, halgorithm, hsig, hverified⟩, names, hread, ?_⟩
    unfold KexDhDone.computeKeys at hnewkeys
    obtain ⟨c, hc, hnewkeys⟩ := ok_of_bind hnewkeys
    cases hnewkeys
    simp only [hsession, Option.getD_none, hcipher] at hc
    exact hc
  · cases hverify

/-- A session that is not encrypted flushes nothing. -/
theorem onCommon_flush_none (henc : s.common.encrypted = none) :
    onCommon flush s = .ok () s := by
  have hflush : flush s.common = .ok () s.common := by
    simp only [flush, run_bind, flushPackets_none henc]
    rfl
  simp only [onCommon, zoom, hflush]

/-- What a packet makes of a session in its first exchange. -/
def Opens (config : Config) (sshid : Bytes) (heard : List Bytes) (t : Session) : Prop :=
  t.common.encrypted = none ∧ Opening config sshid heard t ∨
    t.common.encrypted.isSome = true ∧ Established config sshid heard t

/-- Taking the exchange out leaves a session in which nothing is recorded. -/
theorem Opening.opens_taken (hopening : Opening config sshid acts s)
    (henc : s.common.encrypted = none) (buf : Bytes) {n : Nat}
    (ht : t.common = { s.common with kex := none, tick := n }) :
    Opens config sshid (acts ++ [buf]) t := by
  refine .inl ⟨by rw [ht]; exact henc, by rw [ht]; exact hopening.config_eq,
    by rw [ht]; exact hopening.cipher, by rw [ht]; exact hopening.sealed, fun k hk => ?_⟩
  rw [ht] at hk
  cases hk

/-- The server's KEXINIT. -/
theorem reply_kexInit (app : Application) (hs : s.common.Sound) (henc : s.common.encrypted = none)
    (hopening : Opening config sshid acts s) {k : KexInit}
    (hk : s.common.kex = some (.kexInit k)) (buf : Bytes) :
    Ends (reply app buf) s (fun _ => Opens config sshid (acts ++ [buf]))
      (Opens config sshid (acts ++ [buf])) := by
  obtain ⟨hsent, halgo⟩ := hs.fits _ ((exchanging_none henc).trans hk)
  obtain ⟨hsession, r, hr, hexchange⟩ := hopening.records _ hk
  have hcond : k.algo.isSome = true ∨ buf.head? = some msg.KEXINIT ∨
      s.common.encrypted.isNone = true := .inr (.inr (by rw [henc]; rfl))
  unfold Ends
  simp only [reply, run_bind, run_get, hk, if_pos hcond, takeKex, run_modify, runClientParse_run,
    clientParse_sent halgo hsent]
  cases hread : readKex .client buf s.common.config.preferred with
  | error e => exact hopening.opens_taken henc buf rfl
  | ok names =>
    simp only [setKex, run_modify]
    rw [onCommon_flush_none (by exact henc)]
    set secret := (s.common.world.rand s.common.tick).secret
    have hcipher := hopening.cipher
    refine .inl ⟨henc, hopening.config_eq, hcipher, fun r' hr' => ?_, fun k' hk' => ?_⟩
    · rcases List.mem_append.mp hr' with hr' | hr'
      · exact hopening.sealed r' hr'
      · rw [List.mem_singleton.mp hr']
        exact .inr (.inl rfl)
    · cases hk'
      refine ⟨hsession, secret, buf, names, ⟨r, List.mem_append_left _ hr, ?_⟩,
        ⟨_, List.mem_append_right _ (List.mem_singleton.mpr rfl), rfl⟩, rfl, by simp, ?_, rfl⟩
      · rw [Exchange.withServer, hexchange]
        rfl
      · rw [← hopening.config_eq]
        exact hread

/-- A wrong guess of the server's, or its ECDH_REPLY. -/
theorem reply_kexDhDone (app : Application) (henc : s.common.encrypted = none)
    (hopening : Opening config sshid acts s) {k : Thrussh.KexDhDone}
    (hk : s.common.kex = some (.kexDhDone k)) (buf : Bytes) :
    Ends (reply app buf) s (fun _ => Opens config sshid (acts ++ [buf]))
      (Opens config sshid (acts ++ [buf])) := by
  have hrecords := hopening.records _ hk
  unfold Ends
  simp only [reply, run_bind, run_get, hk, takeKex, run_modify]
  by_cases hguess : k.names.ignoreGuessed = true
  · simp only [if_pos hguess, setKex, run_modify]
    refine .inl ⟨henc, hopening.config_eq, hopening.cipher, hopening.sealed, fun k' hk' => ?_⟩
    cases hk'
    exact (show Records config sshid acts s (.kexDhDone { k with
      names := { k.names with ignoreGuessed := false } }) from hrecords).mono ⟨fun _ => id,
        fun _ => id⟩ (List.sublist_append_left acts [buf])
  · simp only [if_neg hguess]
    by_cases hhead : buf.head? = some msg.KEX_ECDH_REPLY
    · simp only [if_pos hhead, run_bind]
      cases hcheck : serverKeyCheck app k false buf
        { s with common := { s.common with kex := none } } with
      | error e t =>
        obtain ⟨u, tick, hu, ⟨newkeys, -, hok⟩ | ⟨e', herror⟩⟩ := serverKeyCheck_cases app k false buf
          { s with common := { s.common with kex := none } }
        · rw [hcheck] at hok
          cases hok
        · rw [hcheck] at herror
          cases herror
          exact hopening.opens_taken henc buf hu
      | ok kex t =>
        obtain ⟨blob, r, pubkey, answer, hblob, hkey, hverify, rfl, hyes, hfail⟩ :=
          serverKeyCheck_accepts hcheck
        obtain ⟨newkeys, rfl, -⟩ := verify_newKeys hverify
        obtain ⟨hsession, secret, serverKexInit, names, ⟨r', hr', hexchange⟩, ⟨r'', hr'', hephemeral⟩,
          hkex, hmem, hread, hcipher⟩ := hrecords
        obtain ⟨serverEphemeral, hanswered, hderives⟩ := verify_handshake hsession hexchange hkex
          hread hcipher hhead hblob hkey hverify
        simp only [setKex, run_modify, sealPacket_ok .newkeys (p := [msg.NEWKEYS]) (by decide)]
        rw [onCommon_flush_none (by exact henc)]
        refine .inl ⟨henc, hopening.config_eq, hopening.cipher, fun p hp => ?_, fun k' hk' => ?_⟩
        · rcases List.mem_append.mp hp with hp | hp
          · exact hopening.sealed p hp
          · rw [List.mem_singleton.mp hp]
            exact .inr (.inr rfl)
        · cases hk'
          have hsublist : [serverKexInit, buf].Sublist (acts ++ [buf]) :=
            (List.singleton_sublist.mpr hmem).append (List.Sublist.refl [buf])
          exact ⟨⟨r'.payload, secret, serverKexInit, pubkey, serverEphemeral⟩,
            ⟨⟨r', List.mem_append_left _ hr', rfl⟩, ⟨r'', List.mem_append_left _ hr'', hephemeral⟩,
              ⟨buf, hsublist, hanswered⟩, answer, List.mem_append_right _ (List.mem_singleton.mpr rfl),
              hyes, hfail⟩, hderives⟩
    · simp only [if_neg hhead]
      exact hopening.opens_taken henc buf rfl

/-- The server's NEWKEYS. -/
theorem reply_newKeys (app : Application) (henc : s.common.encrypted = none)
    (hopening : Opening config sshid acts s) {k : NewKeys}
    (hk : s.common.kex = some (.newKeys k)) (buf : Bytes) :
    Ends (reply app buf) s (fun _ => Opens config sshid (acts ++ [buf]))
      (Opens config sshid (acts ++ [buf])) := by
  obtain ⟨h, hproves, hderives⟩ := hopening.records _ hk
  have hservice : serviceRequest.length < 2 ^ 32 - 17 := by decide
  unfold Ends
  simp only [reply, run_bind, run_get, hk, takeKex, run_modify]
  by_cases hhead : buf.head? = some msg.NEWKEYS
  · simp only [if_pos hhead, installFirst, run_bind, run_get, onCommon, now, zoom, run_modify, henc,
      Option.isNone_none, if_true, sealPacket_ok .service hservice]
    refine .inr ⟨rfl, h, k.cipher, hproves.mono ⟨fun r hr => List.mem_append_left _ hr,
      fun _ => id⟩ (List.sublist_append_left acts [buf]), hderives, ?_, fun r hr hepoch => ?_⟩
    · simp only [CommonSession.toEncrypted, hopening.cipher]
      rfl
    · rcases List.mem_append.mp hr with hr | hr
      · exact hopening.sealed r hr
      · rw [List.mem_singleton.mp hr] at hepoch
        simp [CommonSession.toEncrypted] at hepoch
  · simp only [if_neg hhead]
    exact hopening.opens_taken henc buf rfl

/-- A packet in the first exchange. -/
theorem reply_opens (app : Application) (hs : s.common.Sound) (henc : s.common.encrypted = none)
    (hopening : Opening config sshid acts s) (buf : Bytes) :
    Ends (reply app buf) s (fun _ => Opens config sshid (acts ++ [buf]))
      (Opens config sshid (acts ++ [buf])) := by
  cases hk : s.common.kex with
  | none =>
    have hnone : Opens config sshid (acts ++ [buf]) s :=
      hopening.opens_taken henc buf (n := s.common.tick) (by rw [← hk])
    unfold Ends
    simp only [reply, run_bind, run_get, hk, clientReadEncrypted]
    by_cases hhead : buf.head? = some msg.KEXINIT
    · simp only [if_pos hhead, clientReadKexInit, run_bind, getEnc, run_get, henc]
      exact hnone
    · simp only [if_neg hhead, run_bind, run_get, henc]
      exact hnone
  | some k =>
    cases k with
    | kexInit k => exact reply_kexInit app hs henc hopening hk buf
    | kexDh k => exact (hs.fits _ ((exchanging_none henc).trans hk)).elim
    | kexDhDone k => exact reply_kexDhDone app henc hopening hk buf
    | newKeys k => exact reply_newKeys app henc hopening hk buf

/-- A session stays established under the pair that it has installed. -/
theorem Established.grow (h : Established config sshid acts s) (hgrows : Grows s t)
    (hcipher : t.common.cipher = s.common.cipher)
    (hnew : ∀ r ∈ t.common.writeBuffer.history,
      r ∈ s.common.writeBuffer.history ∨ r.epoch = s.common.cipher.epoch) :
    Established config sshid acts t := by
  obtain ⟨h, pair, hproves, hderives, hpair, hclear⟩ := h
  refine ⟨h, pair, hproves.mono hgrows (List.Sublist.refl acts), hderives, hcipher.trans hpair,
    fun r hr hepoch => ?_⟩
  rcases hnew r hr with hr | hr
  · exact hclear r hr hepoch
  · rw [hr, hpair] at hepoch
    cases hepoch

end

/-- What is known of a session after some acts. -/
structure Known (config : Config) (sshid : Bytes) (acts : List (Act Session Msg)) (s : Session) :
    Prop where
  /-- Its first exchange is not over. -/
  opening : s.common.encrypted = none → Opening config sshid (heard acts) s
  /-- The last packet has ended it. -/
  established : ∀ u buf, acts.getLast? = some (.reply u buf) → u.common.encrypted = none →
    s.common.encrypted.isSome = true → Established config sshid (heard acts) s

section
variable {config : Config} {sshid : Bytes} {acts : List (Act Session Msg)} {s t : Session}

/-- What is known of a session stays known when nothing is sealed but under the pair in use. -/
theorem Known.grow (h : Known config sshid acts s) (hgrows : Grows s t)
    (hconfig : t.common.config = s.common.config) (hcipher : t.common.cipher = s.common.cipher)
    (hsome : t.common.encrypted.isSome = s.common.encrypted.isSome)
    (hkex : s.common.encrypted = none → t.common.kex = s.common.kex ∧
      ∀ r ∈ t.common.writeBuffer.history, r ∈ s.common.writeBuffer.history)
    (hnew : ∀ r ∈ t.common.writeBuffer.history,
      r ∈ s.common.writeBuffer.history ∨ r.epoch = s.common.cipher.epoch) :
    Known config sshid acts t := by
  refine ⟨fun hnone => ?_, fun u buf hlast hu ht => ?_⟩
  · have hnone' : s.common.encrypted = none := by
      rw [hnone] at hsome
      exact Option.isNone_iff_eq_none.mp (by simpa using hsome.symm)
    exact (h.opening hnone').grow hgrows (List.Sublist.refl _) hconfig hcipher (hkex hnone').1
      fun r hr => .inl ((hkex hnone').2 r hr)
  · exact (h.established u buf hlast hu (hsome ▸ ht)).grow hgrows hcipher hnew

/-- A change of `enc` leaves what is known. -/
theorem Known.setEncrypted (h : Known config sshid acts s) {enc : Option Encrypted}
    (hsome : enc.isSome = s.common.encrypted.isSome) :
    Known config sshid acts { s with common := { s.common with encrypted := enc } } :=
  h.grow ⟨fun _ => id, fun _ => id⟩ rfl rfl hsome (fun _ => ⟨rfl, fun _ => id⟩) fun _ => .inl

/-- A flush leaves what is known. -/
theorem Known.flush (h : Known config sshid acts s) {c : CommonSession Config}
    (hflush : FlushStep s.common c) : Known config sshid acts { s with common := c } := by
  obtain ⟨hcipher, hsome, new, hnew, hepoch⟩ := hflush.history
  have hconfig : c.config = s.common.config := by
    cases hflush with
    | none h => rfl
    | packets h => rw [h.session]
    | rekey h =>
      rename_i u enc enc' ex hwrite hcursor hrekey hex
      change u.config = s.common.config
      rw [h.session]
  refine h.grow ⟨fun r hr => ?_, fun _ => id⟩ hconfig hcipher hsome (fun hnone => ?_) fun r hr => ?_
  · change r ∈ c.writeBuffer.history
    rw [hnew]
    exact List.mem_append_left _ hr
  · cases hflush with
    | none h => exact ⟨rfl, fun _ => id⟩
    | packets h => exact absurd (hnone.symm.trans h.encrypted) (by simp)
    | rekey h => exact absurd (hnone.symm.trans h.encrypted) (by simp)
  · change r ∈ c.writeBuffer.history at hr
    rw [hnew] at hr
    exact (List.mem_append.mp hr).imp id (hepoch r)

/-- What is known of a session that a packet has left. -/
theorem Known.of_reply {buf : Bytes}
    (h : Opens config sshid (heard acts ++ [buf]) t) :
    Known config sshid (acts ++ [.reply s buf]) t := by
  have hheard : heard (acts ++ [Act.reply s buf]) = heard acts ++ [buf] := by
    simp [heard]
  rcases h with ⟨hnone, hopening⟩ | ⟨hsome, hestablished⟩
  · refine ⟨fun _ => by rw [hheard]; exact hopening, fun u buf hlast hu ht => ?_⟩
    rw [hnone] at ht
    cases ht
  · refine ⟨fun hnone => ?_, fun _ _ _ _ _ => by rw [hheard]; exact hestablished⟩
    rw [hnone] at hsome
    cases hsome

/-- Nothing has to be known of a session that has been encrypted for longer. -/
theorem Known.of_encrypted {act : Act Session Msg} (ht : t.common.encrypted.isSome = true)
    (hact : ∀ u buf, act = .reply u buf → u.common.encrypted ≠ none) :
    Known config sshid (acts ++ [act]) t := by
  refine ⟨fun hnone => ?_, fun u buf hlast hu _ => ?_⟩
  · rw [hnone] at ht
    cases ht
  · rw [List.getLast?_concat] at hlast
    exact absurd hu (hact u buf (Option.some.inj hlast))

end

section
variable (app : Application) {config : Config} {sshid : Bytes}

/-- Every program of the client leaves a session that is known. -/
theorem driver_known : (driver app).Follows (fun acts act => acts ++ [act])
    (fun acts s => s.common.Sound ∧ Known config sshid acts s) (Known config sshid) := by
  have hbehaves := driver_behaves (P := fun _ => True) (fun _ _ => trivial) app
    fun _ _ _ _ => trivial
  have hkeeps := hbehaves.keeps_sound
  refine ⟨fun acts s hs => hs.2, fun acts s enc decompress henc hs => ?_, fun acts s buf hs => ?_,
    fun acts s m enc hs henc hrekey => ?_, fun acts s hs => ?_, fun acts s hs => ?_⟩
  · refine ⟨hkeeps.inflate s enc decompress henc hs.1, hs.2.setEncrypted ?_⟩
    change true = s.common.encrypted.isSome
    rw [show s.common.encrypted = some enc from henc]
    rfl
  · refine ((hkeeps.reply s buf hs.1).and (?_ : Ends (reply app buf) s
      (fun _ => Known config sshid (acts ++ [.reply s buf]))
      (Known config sshid (acts ++ [.reply s buf])))).mono (fun _ _ ht => ht) fun _ ht => ht.2
    cases henc : s.common.encrypted with
    | none =>
      exact (reply_opens app hs.1 henc (hs.2.opening henc) buf).mono
        (fun _ _ ht => .of_reply ht) fun _ ht => .of_reply ht
    | some enc =>
      have hact : ∀ u buf', (Act.reply s buf : Act Session Msg) = .reply u buf' →
          u.common.encrypted ≠ none := by
        rintro u buf' heq
        cases heq
        rw [henc]
        simp
      have hsome : ((driver app).common s).encrypted.isSome = true := by
        change s.common.encrypted.isSome = true
        rw [henc]
        rfl
      exact (hbehaves.reply_encrypted hs.1 hsome buf).mono (fun _ _ ht => .of_encrypted ht hact)
        fun _ ht => .of_encrypted ht hact
  · have hsome : ((driver app).common s).encrypted.isSome = true := by
      rw [henc]
      rfl
    exact ((hkeeps.message s m hs.1).and (hbehaves.message_encrypted hsome m)).mono
      (fun _ _ ht => ⟨ht.1, .of_encrypted ht.2 (by simp)⟩) fun _ ht => .of_encrypted ht.2 (by simp)
  · have hflush := flush_final s.common
    have hsound := hkeeps.flush s hs.1
    unfold Ends at hsound ⊢
    simp only [driver, zoom] at hsound ⊢
    cases hresult : flush s.common with
    | ok u c =>
      rw [hresult] at hflush hsound
      refine ⟨hsound, (hs.2.flush hflush).grow ⟨fun _ => id, fun _ => id⟩ rfl rfl rfl
        (fun _ => ⟨rfl, fun _ => id⟩) fun _ => .inl⟩
    | error e c =>
      rw [hresult] at hflush
      exact hs.2.flush hflush
  · exact ⟨hkeeps.settle s hs.1, hs.2.setEncrypted (by simp)⟩

/-- A session in the clear stays so as long as nothing is handed to it. -/
theorem driver_clear : (driver app).Follows (fun _ _ => true)
    (fun acted s => acted = false → s.common.encrypted = none)
    fun acted s => acted = false → s.common.encrypted = none := by
  refine ⟨fun _ _ => id, fun acted s enc _ henc hs hacted => ?_, fun _ _ _ _ => ?_,
    fun _ _ _ _ _ _ _ => ?_, fun acted s hs => ?_, fun acted s hs hacted => ?_⟩
  · exact absurd (henc.symm.trans (hs hacted)) (by simp)
  · exact .of_forall (fun _ _ h => by cases h) fun _ h => by cases h
  · exact .of_forall (fun _ _ h => by cases h) fun _ h => by cases h
  · have hflush := (flush_final s.common).history.2.1
    unfold Ends
    simp only [driver, zoom]
    cases hresult : flush s.common with
    | ok u c =>
      rw [hresult, final_ok] at hflush
      intro hacted
      rw [hs hacted] at hflush
      exact Option.isNone_iff_eq_none.mp (by simpa using hflush : c.encrypted.isNone = true)
    | error e c =>
      rw [hresult, final_error] at hflush
      intro hacted
      rw [hs hacted] at hflush
      exact Option.isNone_iff_eq_none.mp (by simpa using hflush : c.encrypted.isNone = true)
  · simp [driver, settle, CommonSession.modifyEnc, hs hacted]

/-- The session of the client before its first turn. -/
theorem connectStream_known {config : Config} {sshid : Bytes} {world : World} {l : Loop Session}
    (h : connectStream config app sshid world = .ok l) :
    ∃ s output, s.common.Sound ∧ Known config sshid [] s ∧ s.common.encrypted = none ∧
      l = Loop.start (driver app) s output := by
  obtain ⟨s, t, output, hid, hmoved, hl⟩ := connectStream_readSshId h
  have hinitial := readSshId_initial hid
  have hopening : s.common.encrypted = none ∧ Opening config sshid [] s ∧ ∃ k,
      s.common.kex = some (.kexInit k) := by
    simp only [readSshId, ownWrite_ok] at hid
    cases hid
    refine ⟨rfl, ⟨rfl, rfl, fun r hr => ?_, fun k hk => ?_⟩, _, rfl⟩
    · rw [List.mem_singleton.mp hr]
      exact .inl rfl
    · cases hk
      exact ⟨rfl, _, List.mem_singleton.mpr rfl, rfl⟩
  have hmoved' : t.common.Initial ∧ t.common.encrypted = none ∧ Opening config sshid [] t ∧ ∃ k,
      t.common.kex = some (.kexInit k) := by
    clear hl
    induction hmoved with
    | refl => exact ⟨hinitial, hopening⟩
    | @tail u v _ hstep ih =>
      obtain ⟨hinitial, hnone, hopening, k, hk⟩ := ih
      have hinitial' := hinitial.quiet hstep
      have hhistory : v.common.writeBuffer.history = u.common.writeBuffer.history := by
        rw [show v.common = _ from hstep.same]
      have hkex : v.common.kex = u.common.kex := by
        rw [show v.common = _ from hstep.same]
      refine ⟨hinitial', hinitial'.encrypted, ⟨?_, hinitial'.cipher, ?_, fun k' hk' => ?_⟩, k, ?_⟩
      · rw [show v.common = _ from hstep.same]
        exact hopening.config_eq
      · rw [hhistory]
        exact hopening.sealed
      · have hrecords := hopening.records k' (hkex ▸ hk')
        obtain rfl : Kex.kexInit k = k' := Option.some.inj (hk.symm.trans (hkex ▸ hk'))
        unfold Records at hrecords ⊢
        rw [hhistory]
        exact hrecords
      · rw [hkex]
        exact hk
  refine ⟨t, output, hmoved'.1.sound, ⟨fun _ => hmoved'.2.2.1, fun u buf hlast => ?_⟩,
    hmoved'.2.1, hl⟩
  cases hlast

/-- The session of the client starts in the clear. In every run it becomes encrypted
only by an exchange in which the server has proved its identity, and before
that neither the service nor authentication is requested. -/
theorem encrypted_authentic (config : Config) (sshid : Bytes) (world : World) (l : Loop Session)
    (hl : connectStream config app sshid world = .ok l) (events : List (Event Msg)) :
    l.session.common.encrypted = none ∧
    ((l.run (driver app) events).session.common.encrypted = none →
      ∀ r ∈ (l.run (driver app) events).session.common.writeBuffer.history,
        r.payload.head? ≠ some msg.SERVICE_REQUEST ∧
          r.payload.head? ≠ some msg.USERAUTH_REQUEST) ∧
    ∀ e, (l.run (driver app) events).session.common.encrypted = none →
      (l.run (driver app) (events ++ [e])).session.common.encrypted.isSome = true →
      Established config sshid (heard (l.acts (driver app) (events ++ [e])))
        (l.run (driver app) (events ++ [e])).session := by
  obtain ⟨s, output, hsound, hknown, hnone, rfl⟩ := connectStream_known app hl
  have hstart := Loop.start_follows (driver_known app) ⟨hsound, hknown⟩ output
  have hrun := Loop.run_follows (driver_known app) hstart
  set l := Loop.start (driver app) s output
  refine ⟨(Loop.start_follows (driver_clear app) (h := false) (fun _ => hnone) output).ended rfl,
    fun hnone r hr => ?_, fun e hnone hsome => ?_⟩
  · have hkex := ((hrun events).ended.opening hnone).sealed r hr
    rcases hkex with hkex | hkex | hkex
    all_goals rw [hkex]; decide
  · have hended := (hrun (events ++ [e])).ended
    have hhistory : l.acts (driver app) (events ++ [e]) =
        (Loop.acted (driver app) (l.run (driver app) events) e).elim
          (l.acts (driver app) events) fun act => l.acts (driver app) events ++ [act] :=
      Loop.history_append [] l events [e]
    have hiterate : l.run (driver app) (events ++ [e]) =
        Loop.iterate (driver app) (l.run (driver app) events) e := by
      simp only [Loop.run, List.foldl_append, List.foldl_cons, List.foldl_nil]
    have hclear := (Loop.iterate_follows (driver_clear app) (h := false)
      (l := l.run (driver app) events) ⟨fun _ _ => hnone, fun _ => hnone⟩ e).ended
    cases hacted : Loop.acted (driver app) (l.run (driver app) events) e with
    | none =>
      rw [hacted, Option.elim_none] at hclear
      rw [hiterate, hclear rfl] at hsome
      cases hsome
    | some act =>
      rw [hacted, Option.elim_some] at hhistory
      obtain ⟨buf, rfl⟩ := Loop.acted_clear hnone hacted
      refine hended.established _ buf ?_ hnone hsome
      change (l.acts (driver app) (events ++ [e])).getLast? = _
      rw [hhistory, List.getLast?_concat]

end

end Client

end

/-- The NEWKEYS that ends the first exchange of a client. -/
theorem Client.encrypted_authentic_answers :
    letI := Concrete.deps
    Established Concrete.clientConfig Concrete.serverConfig.serverId
      (heard (Concrete.client.acts (driver Concrete.application)
        (Concrete.answers.dropLast ++ [.read])))
      (Concrete.client.run (driver Concrete.application)
        (Concrete.answers.dropLast ++ [.read])).session :=
  (@encrypted_authentic Concrete.deps _ _ _ _ _ Concrete.connectStream_eq _).2.2 .read
    (by decide +kernel) (by decide +kernel)

end Thrussh
