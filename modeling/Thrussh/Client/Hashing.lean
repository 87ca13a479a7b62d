import Thrussh.Client.Signature
import Thrussh.Provenance

/-!
# What the client hashes

The client's own packets of an exchange keep the provenance of its record:
the hash that `server_key_check` computes is one of the KEXINITs and
ephemeral keys of this exchange, and its keys are derived with the first hash
of the connection. The signatures of the authentication are over it too.
-/

namespace Thrussh.Client

open Deps Lib

variable [Deps]

/-- What `server_key_check` hashes, if the handler accepts the host key. -/
def KexDhDone.hashing (k : Thrussh.KexDhDone) (buf : Bytes) : Except Fault Hashing :=
  if k.names.ignoreGuessed = false ∧ buf.head? = some msg.KEX_ECDH_REPLY then do
    let (blob, r) ← (reader buf 1).readString
    let pubkey ← readPublicKey blob
    let (serverEphemeral, r) ← r.readString
    let exchange := { k.exchange with
      serverEphemeral := k.exchange.serverEphemeral ++ serverEphemeral }
    let _ ← r.readString
    let kex ← k.kex.computeSharedSecret exchange.serverEphemeral
    .ok ⟨kex, exchange, pubkey.pushTo⟩
  else .error .panic

/-- What is hashed when a packet is given to `reply`. -/
def hashing (s : Session) (buf : Bytes) : Option Hashing :=
  match s.common.exchanging with
  | some (.kexDhDone k) => (KexDhDone.hashing k buf).toOption
  | _ => none

section
variable {app : Application} {s : Session} {buf : Bytes} {t : CommonSession Config}
  {acts : List (Act Session Msg)}

/-- Nothing is hashed outside the Diffie-Hellman exchange. -/
theorem hashing_of_phase (h : s.common.phase ≠ .dh) : hashing s buf = none := by
  unfold hashing
  split
  · rename_i k hk
    exact absurd (phase_of_exchanging hk) h
  · rfl

/-- What is hashed when the keys are computed. -/
theorem hashing_of_checks {k : Thrussh.KexDhDone} {newkeys : NewKeys}
    (hk : s.common.exchanging = some (.kexDhDone k)) (hguess : k.names.ignoreGuessed = false)
    (hhead : buf.head? = some msg.KEX_ECDH_REPLY) (h : KexDhDone.Checks k buf newkeys) :
    ∃ hashed, hashing s buf = some hashed ∧
      newkeys.sessionId = k.sessionId.getD hashed.hash ∧
      hashed.kex.computeKeys (k.sessionId.getD hashed.hash) hashed.hash newkeys.names.cipher
        false = .ok newkeys.cipher := by
  obtain ⟨blob, r, pubkey, hblob, hkey, hverify⟩ : ∃ blob r pubkey,
      (reader buf 1).readString = .ok (blob, r) ∧ readPublicKey blob = .ok pubkey ∧
      KexDhDone.verify k pubkey r = .ok (.newKeys newkeys) := by
    cases h with
    | mk hblob hkey hverify => exact ⟨_, _, _, hblob, hkey, hverify⟩
  unfold KexDhDone.verify at hverify
  obtain ⟨⟨ephemeral, r₂⟩, hephemeral, hverify⟩ := ok_of_bind hverify
  obtain ⟨⟨signature, r₃⟩, hsignature, hverify⟩ := ok_of_bind hverify
  obtain ⟨kex, hshared, hverify⟩ := ok_of_bind hverify
  obtain ⟨⟨algorithm, r₄⟩, -, hverify⟩ := ok_of_bind hverify
  obtain ⟨⟨sig, r₅⟩, -, hverify⟩ := ok_of_bind hverify
  dsimp only at hverify hshared
  split at hverify
  · obtain ⟨newkeys', hnewkeys, hverify⟩ := ok_of_bind hverify
    cases hverify
    unfold KexDhDone.computeKeys at hnewkeys
    obtain ⟨c, hc, hnewkeys⟩ := ok_of_bind hnewkeys
    cases hnewkeys
    refine ⟨⟨kex, { k.exchange with
      serverEphemeral := k.exchange.serverEphemeral ++ ephemeral }, pubkey.pushTo⟩, ?_, rfl, hc⟩
    unfold hashing
    rw [hk]
    dsimp only
    unfold KexDhDone.hashing
    rw [if_pos ⟨hguess, hhead⟩, hblob]
    dsimp only [bind, Except.bind]
    rw [hkey]
    dsimp only
    rw [hephemeral]
    dsimp only
    rw [hsignature]
    dsimp only
    rw [hshared]
    rfl
  · cases hverify

/-- The client's steps of an exchange keep what is known of its record. -/
theorem Exchanged.provenance (h : Provenance (driver app) .client hashing acts s.common)
    (hexchanged : Exchanged s.common buf t) :
    Provenance (driver app) .client hashing (acts ++ [.reply s buf]) t := by
  have hbegan := began_append (d := driver app) (u := s) (a := .reply s buf) h.began rfl
  have hid : ∀ id, s.common.sessionId = some id →
      firstHash hashing (acts ++ [.reply s buf]) = some id := by
    intro id hs
    rw [firstHash_append, h.id id hs, Option.some_or]
  have hnone : hashing s buf = none →
      firstHash hashing (acts ++ [.reply s buf]) = firstHash hashing acts := by
    intro hnone
    refine firstHash_of_none ?_
    rw [firstHash_reply, hnone, Option.map_none]
  have hgathered : ∀ k, s.common.encrypted.isSome = true → s.common.exchanging = some k → _ :=
    fun k henc hk => (h.enter henc (a := .reply s buf) rfl).gathers k henc hk
  have hheard : buf ∈ heard ((driver app).during (acts ++ [.reply s buf])) :=
    List.mem_filterMap.mpr ⟨_, mem_during _ _ _, rfl⟩
  cases hexchanged with
  | skip hlost =>
    have hfirst := hnone (hashing_of_phase (by rw [hlost]; decide))
    exact ⟨hid, fun k hk => (h.carried k hk).trans hfirst.symm, fun k henc hk => hgathered k henc hk,
      hbegan⟩
  | @answer k names hk hhead hread =>
    have hfirst := hnone (hashing_of_phase (by simp [phase_of_exchanging hk, Kex.phase]))
    refine Provenance.move hbegan hid ((h.carried _ hk).trans hfirst.symm) fun henc t ht => ?_
    obtain ⟨hsealed, hpeer, -, hserver⟩ := hgathered _ henc hk
    have hprefix : s.common.writeBuffer.history <+: t.writeBuffer.history := by
      rw [ht]
      exact sealEach_grows _ _ _
    have hrecord : k.exchange.serverKexInit ++ buf = buf := by
      rw [show k.exchange.serverKexInit = [] from hpeer, List.nil_append]
    refine ⟨hsealed.grow hprefix, ?_, ?_, hserver, _, rfl, ?_⟩
    · change k.exchange.serverKexInit ++ buf ∈ _
      rw [hrecord]
      exact hheard
    · change (k.exchange.serverKexInit ++ buf).head? = _
      rw [hrecord]
      exact hhead henc
    · exact SealedSince.of_append (s := s.common) (r := ⟨s.common.cipher.epoch,
        s.common.writeBuffer.seqn, _, .ecdhInit⟩) hbegan (by rw [ht]; rfl)
          (List.mem_singleton.mpr rfl)
  | @guess k hk hhead hguess =>
    have hfirst : firstHash hashing (acts ++ [.reply s buf]) = firstHash hashing acts := by
      refine hnone ?_
      unfold hashing
      rw [hk]
      dsimp only
      unfold KexDhDone.hashing
      rw [if_neg (by simp [hguess])]
      rfl
    refine Provenance.move (l := []) (n := s.common.tick) hbegan hid
      ((h.carried _ hk).trans hfirst.symm) fun henc t ht => ?_
    exact (hgathered _ henc hk).grow (by rw [ht]; exact List.prefix_refl _) (Nat.le_refl _)
      (List.Subset.refl _)
  | @finish k newkeys tick hk hguess hhead hchecks =>
    obtain ⟨hashed, hhashing, hsession, -⟩ := hashing_of_checks hk hguess hhead hchecks
    refine Provenance.move hbegan hid ?_ fun _ _ _ => trivial
    rw [firstHash_append, firstHash_reply, hhashing, ← h.carried _ hk]
    change some newkeys.sessionId = k.sessionId.or (some hashed.hash)
    rw [hsession, Option.or_some]
  | @first newkeys henc hk hhead =>
    have hfirst := hnone (hashing_of_phase (by
      simp [phase_of_exchanging ((exchanging_none henc).trans hk), Kex.phase]))
    refine Provenance.of_none (Nat.le_trans hbegan (sealEach_grows _ _ _).length_le)
      (fun id ht => ?_) rfl
    cases ht
    rw [hfirst]
    exact (h.carried _ ((exchanging_none henc).trans hk)).symm
  | @install enc newkeys henc hrekey hhead =>
    have hsession : s.common.sessionId = some enc.sessionId := by
      simp only [CommonSession.sessionId, henc, Option.map_some]
    exact Provenance.of_none hbegan (fun id ht => hid id (hsession.trans ht)) rfl
  | @drop enc k henc hrekey hphase hhead =>
    have hsession : s.common.sessionId = some enc.sessionId := by
      simp only [CommonSession.sessionId, henc, Option.map_some]
    exact Provenance.of_none hbegan (fun id ht => hid id (hsession.trans ht)) rfl

/-- Keys are computed from an ECDH_REPLY only. -/
theorem Exchanged.of_newKeys {newkeys : NewKeys} (h : Exchanged s.common buf t)
    (ht : t.exchanging = some (.newKeys newkeys)) :
    ∃ k, s.common.exchanging = some (.kexDhDone k) ∧ k.names.ignoreGuessed = false ∧
      buf.head? = some msg.KEX_ECDH_REPLY ∧ KexDhDone.Checks k buf newkeys := by
  cases h with
  | skip hlost =>
    have hphase := phase_of_exchanging ht
    rw [hlost] at hphase
    cases hphase
  | answer => cases (exchanging_setExchanging _ _).symm.trans ht
  | guess => cases (exchanging_setExchanging _ _).symm.trans ht
  | @finish k newkeys' tick hk hguess hhead hchecks =>
    cases (exchanging_setExchanging _ _).symm.trans ht
    exact ⟨k, hk, hguess, hhead, hchecks⟩
  | first => cases ht
  | install => cases ht
  | drop => cases ht

/-- What is hashed is the record of the exchange in progress, completed. -/
theorem hashing_some {hashed : Hashing} (h : hashing s buf = some hashed) :
    ∃ k blob r ephemeral r₂, s.common.exchanging = some (.kexDhDone k) ∧
      (reader buf 1).readString = .ok (blob, r) ∧ r.readString = .ok (ephemeral, r₂) ∧
      hashed.exchange = { k.exchange with
        serverEphemeral := k.exchange.serverEphemeral ++ ephemeral } := by
  unfold hashing at h
  split at h
  · rename_i k hk
    have hrun := ok_of_toOption h
    unfold KexDhDone.hashing at hrun
    split at hrun
    · obtain ⟨⟨blob, r⟩, hblob, hrun⟩ := ok_of_bind hrun
      obtain ⟨pubkey, -, hrun⟩ := ok_of_bind hrun
      obtain ⟨⟨ephemeral, r₂⟩, hephemeral, hrun⟩ := ok_of_bind hrun
      obtain ⟨-, -, hrun⟩ := ok_of_bind hrun
      obtain ⟨kex, -, hrun⟩ := ok_of_bind hrun
      cases hrun
      exact ⟨k, blob, r, ephemeral, r₂, hk, hblob, hephemeral, rfl⟩
    · cases hrun
  · cases h

/-- Whether the record of a re-exchange is filled by that re-exchange: both
KEXINITs and both ephemeral keys. -/
structure Fills (app : Application) (during : List (Act Session Msg)) (s : Session) (buf : Bytes)
    (ex : Exchange) : Prop where
  /-- The own KEXINIT has been sealed since it began. -/
  clientKexInit : s.common.SealedSince ((driver app).sealedBefore during) .kexinit
    ex.clientKexInit
  /-- The server's KEXINIT has been received in the course of it. -/
  serverKexInit : ex.serverKexInit ∈ heard during ∧ ex.serverKexInit.head? = some msg.KEXINIT
  /-- The own ephemeral key has been sealed since it began. -/
  clientEphemeral : ∃ secret, ex.clientEphemeral = (scalarmultBase secret).toList ∧
    s.common.SealedSince ((driver app).sealedBefore during) .ecdhInit (ecdhInit secret)
  /-- The server's ephemeral key is the one in the packet. -/
  serverEphemeral : ∃ blob r r₂, (reader buf 1).readString = .ok (blob, r) ∧
    r.readString = .ok (ex.serverEphemeral, r₂)

/-- What a packet makes of the first exchange hash of the connection, and what
it hashes in a re-exchange. -/
structure UsesFirst (app : Application) (first : Option Bytes32) (during : List (Act Session Msg))
    (s : Session) (buf : Bytes) : Prop where
  /-- Keys are derived with it, or it is the hash with which they are derived. -/
  keys : ∀ u newkeys, reply app buf s = .ok () u →
    u.common.exchanging = some (.newKeys newkeys) → ∃ hashed, hashing s buf = some hashed ∧
      newkeys.sessionId = first.getD hashed.hash ∧
      hashed.kex.computeKeys (first.getD hashed.hash) hashed.hash newkeys.names.cipher false =
        .ok newkeys.cipher
  /-- A re-exchange hashes what it has gathered itself. -/
  record : s.common.encrypted.isSome = true → ∀ hashed, hashing s buf = some hashed →
    Fills app during s buf hashed.exchange
  /-- Signatures of the authentication are made over it. -/
  signs : ∀ enc method, Approved s buf enc method → (∀ password, method ≠ .password password) →
    ∃ id, first = some id ∧ Signs app s buf id method

theorem usesFirst (hs : s.common.Sound) (h : Provenance (driver app) .client hashing acts s.common) :
    UsesFirst app (firstHash hashing acts) ((driver app).during acts) s buf := by
  refine ⟨fun u newkeys hrun hk => ?_, fun henc hashed hhashed => ?_,
    fun enc method happroved hmethod => ?_⟩
  · by_cases hin : s.common.InExchange buf
    · obtain ⟨t, hexchanged, ht⟩ : ∃ t, Exchanged s.common buf t ∧
          t.exchanging = some (.newKeys newkeys) := by
        rcases reply_replied app hs hin with ⟨t, hexchanged, hreply | hreply⟩ |
          ⟨e, t, packets, hreply, -⟩
        · rw [hrun] at hreply
          cases hreply
          exact ⟨_, hexchanged, hk⟩
        · rw [hrun] at hreply
          unfold onCommon zoom at hreply
          dsimp only at hreply
          cases hflush : flush t.common with
          | error e c =>
            rw [hflush] at hreply
            cases hreply
          | ok a c =>
            rw [hflush] at hreply
            cases hreply
            exact ⟨t.common, hexchanged, newKeys_of_flush hflush hk⟩
        · rw [hrun] at hreply
          cases hreply
      obtain ⟨k, hs, hguess, hhead, hchecks⟩ := hexchanged.of_newKeys ht
      obtain ⟨hashed, hhashing, hkeys⟩ := hashing_of_checks hs hguess hhead hchecks
      have hfirst : k.sessionId = firstHash hashing acts := h.carried _ hs
      rw [← hfirst]
      exact ⟨hashed, hhashing, hkeys⟩
    · have hbehaves := driver_behaves (P := fun _ => True) (fun _ _ => trivial) app
        fun _ _ _ _ => trivial
      have hnot := hbehaves.not_newKeys hs hin newkeys
      change (final (reply app buf s)).common.exchanging ≠ _ at hnot
      rw [hrun] at hnot
      exact absurd hk hnot
  · obtain ⟨k, blob, r, ephemeral, r₂, hk, hblob, hephemeral, hrecord⟩ := hashing_some hhashed
    obtain ⟨hown, hpeer, hhead, hnil, hsecret⟩ := h.gathers _ henc hk
    rw [hrecord]
    exact ⟨hown, ⟨hpeer, hhead⟩, hsecret, blob, r, r₂, hblob, by rw [hnil]; exact hephemeral⟩
  · refine ⟨enc.sessionId, h.id _ ?_, happroved.signs hs hmethod⟩
    rw [CommonSession.sessionId, happroved.encrypted, Option.map_some]

/-- The client keeps what is known of its record and of the session id. -/
theorem driver_provenance (app : Application) :
    (driver app).Follows (fun acts act => acts ++ [act])
      (fun acts s => s.common.Sound ∧ Provenance (driver app) .client hashing acts s.common)
      (fun acts s => ∀ id, s.common.sessionId = some id → firstHash hashing acts = some id) := by
  have hbehaves := driver_behaves (P := fun _ => True) (fun _ _ => trivial) app
    fun _ _ _ _ => trivial
  refine hbehaves.follows_provenance fun acts s buf hs hprovenance hin => ?_
  rcases reply_replied app hs hin with ⟨t, hexchanged, hreply⟩ | ⟨e, t, packets, hreply⟩
  · exact .inl ⟨t, hexchanged.provenance hprovenance, hreply⟩
  · exact .inr ⟨e, t, packets, hreply⟩

/-- Along every run of the client the session id is the first exchange hash. -/
theorem usesFirst_of_run {config : Config} {sshid : Bytes} {world : World} {l : Loop Session}
    (hl : connectStream config app sshid world = .ok l) (events : List (Event Msg)) :
    (∀ enc, (l.run (driver app) events).session.common.encrypted = some enc →
      firstHash hashing (l.acts (driver app) events) = some enc.sessionId) ∧
    ∀ e s buf, (s, buf) ∈ Loop.given (driver app) (l.run (driver app) events) e →
      UsesFirst app (firstHash hashing (l.acts (driver app) events))
        ((driver app).during (l.acts (driver app) events)) s buf := by
  obtain ⟨s₀, t₀, output, hid, hmoved, rfl⟩ := connectStream_readSshId hl
  have hfollows := driver_provenance app
  have hprovenance : Provenance (driver app) .client hashing [] s₀.common := by
    simp only [readSshId, ownWrite_ok] at hid
    cases hid
    refine .initial rfl fun k hk => ?_
    cases hk
    rfl
  have hlocals : Relation.ReflTransGen (Local fun _ => True) s₀.common t₀.common :=
    hmoved.lift Session.common fun _ _ h => .quiet h
  have hsound := Loop.sound_of_locals hlocals (readSshId_initial hid).sound
  have hprovenance' := hprovenance.carry_all (fun _ _ => Local.carries) hlocals
  have hstart := Loop.start_follows hfollows ⟨hsound, hprovenance'⟩ output
  have hrun := Loop.run_follows hfollows hstart events
  refine ⟨fun enc henc => hrun.ended _ ?_, fun e s buf hgiven => ?_⟩
  · rw [CommonSession.sessionId, henc, Option.map_some]
  · have hgiven := Loop.given_follows hfollows hrun hgiven
    exact usesFirst hgiven.1 hgiven.2

end

end Thrussh.Client
